import Patchbay.Proofs.Wire.Frames

/-!
# Streams that break off

Messages written as frames read back as they were. If the stream breaks off, what is read is the
messages whose frames are whole. That the last frame is not whole is noticed once its length has
been read; a stream that breaks off within the length of a frame ends like one that was closed.
-/
namespace Patchbay.Wire

/-- The bytes that messages are written as, one frame after the other. -/
def streamOf (messages : List (List UInt8)) : List UInt8 :=
  messages.flatMap framed

/-- The messages whose frames lie within the first `k` bytes of the stream, and how many bytes of
the next frame do. -/
def cutAfter : List (List UInt8) → Nat → List (List UInt8) × Nat
  | [], _ => ([], 0)
  | message :: rest, k =>
    if 4 + message.length ≤ k then
      let (whole, part) := cutAfter rest (k - (4 + message.length))
      (message :: whole, part)
    else ([], k)

/-- The first `k` bytes of the stream read as the messages whose frames are whole, and end without
an error only between two frames. -/
def CutShows (messages : List (List UInt8)) (k : Nat) : Prop :=
  let read := frames ((streamOf messages).take k)
  read.1 = (cutAfter messages k).1 ∧ (read.2 = none ↔ (cutAfter messages k).2 = 0)

variable {message rest : List UInt8} {messages : List (List UInt8)} {k : Nat}

@[simp]
theorem streamOf_nil : streamOf [] = [] :=
  rfl

@[simp]
theorem streamOf_cons (message : List UInt8) (messages : List (List UInt8)) :
    streamOf (message :: messages) = framed message ++ streamOf messages :=
  rfl

theorem length_framed (message : List UInt8) : (framed message).length = 4 + message.length := by
  simp [framed]

theorem mapM_frame (h : ∀ m ∈ messages, m.length ≤ maxFrame) :
    messages.mapM frame = .ok (messages.map framed) := by
  induction messages with
  | nil => rfl
  | cons message messages ih =>
      rw [List.forall_mem_cons] at h
      rw [List.mapM_cons, frame_eq_ok h.1, ih h.2]
      rfl

theorem flatten_map_framed (messages : List (List UInt8)) :
    (messages.map framed).flatten = streamOf messages :=
  rfl

theorem frames_nil : frames [] = ([], none) := by
  rw [frames]
  simp [nextFrame]

theorem frames_framed (h : message.length ≤ maxFrame) (rest : List UInt8) :
    frames (framed message ++ rest) = (message :: (frames rest).1, (frames rest).2) := by
  have hnext : nextFrame (framed message ++ rest) = (.ok (some message), rest) :=
    nextFrame_framed h
  rw [frames]
  split <;> rename_i heq <;> rw [hnext] at heq <;> cases heq
  rfl

/-- What is left of a frame that breaks off: nothing if its length is not all there. -/
theorem nextFrame_part (h : message.length ≤ maxFrame) (hk : k < 4 + message.length) :
    nextFrame ((framed message).take k) =
      (if k < 4 then .ok none else .error .peerClosed, []) := by
  have hlen := length_framed message
  unfold nextFrame
  dsimp only
  by_cases hhead : k < 4
  · have hshort : (((framed message).take k).take 4).length < 4 := by
      simp only [List.length_take]
      omega
    rw [if_pos hshort, if_pos hhead]
  · have htake : ((framed message).take k).take 4 = write32 (UInt32.ofNat message.length) := by
      have h₄ : (framed message ++ []).take 4 = _ := take_four_framed
      rw [List.append_nil] at h₄
      rw [List.take_take, Nat.min_eq_left (Nat.le_of_not_lt hhead), h₄]
    rw [htake, length_write32, value_length h, if_neg (Nat.lt_irrefl 4),
      if_neg (Nat.not_lt.mpr h), if_pos, if_neg hhead]
    simp only [List.length_take, List.length_drop]
    omega

theorem frames_part (h : message.length ≤ maxFrame) (hk : k < 4 + message.length) :
    frames ((framed message).take k) = ([], if k < 4 then none else some .peerClosed) := by
  have hnext := nextFrame_part h hk
  rw [frames]
  split <;> rename_i heq <;> rw [hnext] at heq <;> split at heq <;> cases heq
  · rename_i hhead
    rw [if_pos hhead]
  · rename_i hhead
    rw [if_neg hhead]

/-- Before whatever follows them, whole frames are read one by one. -/
theorem frames_streamOf_append (h : ∀ m ∈ messages, m.length ≤ maxFrame) (rest : List UInt8) :
    frames (streamOf messages ++ rest) = (messages ++ (frames rest).1, (frames rest).2) := by
  induction messages with
  | nil => rfl
  | cons message messages ih =>
      rw [List.forall_mem_cons] at h
      rw [streamOf_cons, List.append_assoc, frames_framed h.1, ih h.2]
      rfl

theorem frames_streamOf (h : ∀ m ∈ messages, m.length ≤ maxFrame) :
    frames (streamOf messages) = (messages, none) := by
  simpa [frames_nil] using frames_streamOf_append h []

/-- A cut leaves whole frames and a part of the next frame, if there is one, but not all of it. -/
theorem cutAfter_spec (messages : List (List UInt8)) (k : Nat) :
    ∃ rest, messages = (cutAfter messages k).1 ++ rest ∧
      (streamOf messages).take k =
        streamOf (cutAfter messages k).1 ++ (streamOf rest).take (cutAfter messages k).2 ∧
      ((cutAfter messages k).2 = 0 ∨
        ∃ next ∈ rest.head?, (cutAfter messages k).2 < 4 + next.length) := by
  induction messages generalizing k with
  | nil => exact ⟨[], rfl, by simp [cutAfter], Or.inl rfl⟩
  | cons message messages ih =>
      have hlen := length_framed message
      rw [cutAfter]
      by_cases hwhole : 4 + message.length ≤ k
      · obtain ⟨rest, hsplit, htake, hpart⟩ := ih (k - (4 + message.length))
        rw [if_pos hwhole]
        refine ⟨rest, congrArg (message :: ·) hsplit, ?_, hpart⟩
        rw [streamOf_cons, List.take_append, List.take_of_length_le (by omega), hlen, htake,
          ← List.append_assoc]
        rfl
      · rw [if_neg hwhole]
        exact ⟨message :: messages, rfl, rfl, Or.inr ⟨message, rfl, Nat.lt_of_not_le hwhole⟩⟩

/-- Of a stream that breaks off, the whole frames are read. What is left of the next one counts
from its fourth byte on. -/
theorem frames_take (h : ∀ m ∈ messages, m.length ≤ maxFrame) (k : Nat) :
    frames ((streamOf messages).take k) =
      ((cutAfter messages k).1,
        if (cutAfter messages k).2 < 4 then none else some .peerClosed) := by
  obtain ⟨rest, hsplit, htake, hpart⟩ := cutAfter_spec messages k
  rw [hsplit, List.forall_mem_append] at h
  obtain ⟨hwhole, hrest⟩ := h
  rw [htake, frames_streamOf_append hwhole]
  rcases hpart with hnone | ⟨next, hnext, hlt⟩
  · simp [hnone, frames_nil]
  · cases rest with
    | nil => cases hnext
    | cons next' rest =>
        cases hnext
        have hlen := length_framed next
        rw [streamOf_cons, List.take_append_of_le_length (by omega),
          frames_part (hrest next List.mem_cons_self) hlt, List.append_nil]

/-- Messages that are not too long are written as one stream and read back as they were. Wherever
the stream breaks off, exactly the messages of the whole frames before that are read; that a frame
broke off shows, except within its length. -/
theorem cut_shows_outside_lengths (messages : List (List UInt8))
    (h : ∀ m ∈ messages, m.length ≤ maxFrame) :
    (∃ written, messages.mapM frame = .ok written ∧ written.flatten = streamOf messages) ∧
      frames (streamOf messages) = (messages, none) ∧
      ∀ k, (frames ((streamOf messages).take k)).1 = (cutAfter messages k).1 ∧
        (CutShows messages k ↔ (cutAfter messages k).2 ∉ [1, 2, 3]) := by
  refine ⟨⟨_, mapM_frame h, flatten_map_framed messages⟩, frames_streamOf h, fun k => ?_⟩
  have hread := frames_take h k
  refine ⟨congrArg Prod.fst hread, ?_⟩
  unfold CutShows
  rw [hread]
  generalize (cutAfter messages k).2 = part
  by_cases hpart : part < 4
  · simp only [hpart, if_true, true_and, true_iff, List.mem_cons, List.not_mem_nil, or_false]
    omega
  · simp only [hpart, if_false, reduceCtorEq, false_iff, true_and, List.mem_cons,
      List.not_mem_nil, or_false]
    omega

/-- A cut within a body shows. -/
theorem cut_in_body_shows :
    (∀ m ∈ ([[1, 2, 3, 4, 5], [6, 7, 8]] : List (List UInt8)), m.length ≤ maxFrame) ∧
      CutShows [[1, 2, 3, 4, 5], [6, 7, 8]] 14 := by
  have h : ∀ m ∈ ([[1, 2, 3, 4, 5], [6, 7, 8]] : List (List UInt8)), m.length ≤ maxFrame := by
    decide
  exact ⟨h, ((cut_shows_outside_lengths _ h).2.2 14).2.mpr (by decide)⟩

/-- After a frame and two bytes of the next one the stream seems to have been closed. -/
theorem cut_in_length_unseen : ¬ CutShows [[1, 2, 3, 4, 5], [6, 7, 8]] 11 := by
  have h : ∀ m ∈ ([[1, 2, 3, 4, 5], [6, 7, 8]] : List (List UInt8)), m.length ≤ maxFrame := by
    decide
  have hend : (frames ((streamOf [[1, 2, 3, 4, 5], [6, 7, 8]]).take 11)).2 = none :=
    congrArg Prod.snd (frames_take h 11)
  intro hshows
  exact absurd (hshows.2.mp hend) (by decide)

end Patchbay.Wire
