import Patchbay.Proofs.Ring.Refinement
import Patchbay.Proofs.Tables
import Patchbay.Ring.Workspace

/-!
# Runs on a shared ring

Peers open the file of a ring while it is there, and every mapping may write, read, flush and
release. A run of such steps is compared with the same run on one queue of frames: all answers
agree, whichever mapping a call goes through. The queue counts mappings instead of having them
and knows of the file only its path.
-/
namespace Patchbay
open Memory RingGeometry

/-- What a mapping is asked. -/
inductive RingCall where
  | write (frame : List UInt8) (timestamp : UInt64)
  | read (limit : Nat)
  | readInto (want : Nat)
  | flush
  | release
deriving DecidableEq, Repr

inductive RingStep where
  /-- A peer opens a file; its mapping gets the next number. -/
  | openPeer (path : String)
  | call (mapping : Nat) (c : RingCall)
deriving DecidableEq, Repr

inductive RingAnswer where
  | opened (r : Except StreamError Nat)
  /-- There is no mapping of that number. -/
  | absent
  | written (r : Except StreamError Unit)
  | read (r : Except StreamError SpanRead)
  | filled (r : Except StreamError FilledRead)
  | flushed (r : Except StreamError Unit)
  | released

def RingStep.isWrite : RingStep → Bool
  | .call _ (.write _ _) => true
  | _ => false

namespace RingWorkspace

def perform (w : RingWorkspace) (i : Nat) : RingCall → RingAnswer × RingWorkspace
  | .write frame t =>
    let (a, w) := w.apply i fun r m => r.write m frame t
    (a.elim .absent .written, w)
  | .read limit =>
    let (a, w) := w.apply i fun r m => r.read m limit
    (a.elim .absent .read, w)
  | .readInto want =>
    let (a, w) := w.apply i fun r m => r.readInto m want
    (a.elim .absent .filled, w)
  | .flush =>
    let (a, w) := w.apply i fun r m => r.flush m
    (a.elim .absent .flushed, w)
  | .release => (if (w.mapping? i).isSome then .released else .absent, w.release i)

def step (w : RingWorkspace) : RingStep → RingAnswer × RingWorkspace
  | .openPeer path =>
    let (a, w) := w.openFile path
    (.opened a, w)
  | .call i c => w.perform i c

/-- The answers of a run of steps. -/
def answers (w : RingWorkspace) : List RingStep → List RingAnswer
  | [] => []
  | s :: rest => (w.step s).1 :: answers (w.step s).2 rest

end RingWorkspace

def FrameQueue.perform (g : RingGeometry) (q : FrameQueue) : RingCall → RingAnswer × FrameQueue
  | .write frame t =>
    let (a, q) := q.write g frame t
    (.written a, q)
  | .read limit =>
    let (a, q) := q.read limit
    (.read a, q)
  | .readInto want =>
    let (a, q) := q.readInto want
    (.filled a, q)
  | .flush =>
    let (a, q) := q.flush
    (.flushed a, q)
  | .release => (.released, q.release)

/-- One queue for all mappings of a ring. -/
structure SharedQueue where
  queue : FrameQueue := {}
  /-- Where the file of the ring is, while it is there. -/
  file : Option String
  mappings : Nat := 1

namespace SharedQueue

/-- The file goes when the ring is released through its first mapping, that of its owner. -/
def step (g : RingGeometry) (s : SharedQueue) : RingStep → RingAnswer × SharedQueue
  | .openPeer path =>
    if s.file = some path then (.opened (.ok s.mappings), { s with mappings := s.mappings + 1 })
    else (.opened (.error (hostFailure path)), s)
  | .call i c =>
    if i < s.mappings then
      let (a, q) := s.queue.perform g c
      (a, { s with queue := q, file := if c = .release ∧ i = 0 then none else s.file })
    else (.absent, s)

def answers (g : RingGeometry) (s : SharedQueue) : List RingStep → List RingAnswer
  | [] => []
  | t :: rest => (s.step g t).1 :: answers g (s.step g t).2 rest

end SharedQueue

/-- A workspace in which a ring was just made, with nothing else in it. -/
inductive FreshRing (g : RingGeometry) : Option String → RingWorkspace → Prop
  | anonymous {host : Host} {w : RingWorkspace} :
      RingWorkspace.createAnonymous { host := host } g = (.ok 0, w) → FreshRing g none w
  | file {host : Host} {path : String} {w : RingWorkspace} :
      RingWorkspace.createFile { host := host } path g = (.ok 0, w) → FreshRing g (some path) w

/-- Mapping `i` of a shared queue. Only the first mapping, while it is not released, can remove
the file. -/
structure SharedQueue.Maps (s : SharedQueue) (g : RingGeometry) (i : Nat) (r : RingMapping) :
    Prop where
  of : r.Of g s.queue
  owner : i = 0 → s.file.isSome → r.ownFile? = s.file ∧ ¬ r.isClosed
  peer : i ≠ 0 → r.ownFile? = none

/-- The workspace is that of a ring which holds the shared queue after at most `n` writes. -/
structure RingWorkspace.Shares (w : RingWorkspace) (g : RingGeometry) (s : SharedQueue)
    (n : Nat) : Prop where
  valid : g.check = .ok ()
  memories : w.memories.size = 1
  holds : Holds g (w.memory 0) s.queue n
  count : w.mappings.size = s.mappings
  mapped : 0 < s.mappings
  maps : ∀ i, i < s.mappings → ∃ r, w.mapping? i = some (r, 0) ∧ s.Maps g i r
  files : ∀ path, w.files.get? path = if s.file = some path then some 0 else none

variable {g : RingGeometry} {w : RingWorkspace} {s : SharedQueue} {m : Memory} {q : FrameQueue}
variable {file : Option String} {n : Nat} {α : Type}

theorem holds_fresh (g : RingGeometry) : Holds g g.fresh {} 0 := by
  have hle := headerBytes_le_mappedBytes g
  have hm : magicAt + 8 ≤ g.mappedBytes := Nat.le_trans (by decide) hle
  have hc : spanCountAt + 4 ≤ g.mappedBytes := Nat.le_trans (by decide) hle
  have hs : spanSizeAt + 4 ≤ g.mappedBytes := Nat.le_trans (by decide) hle
  have hz : (zeros g.mappedBytes).size = g.mappedBytes := rfl
  have h64 : ∀ i, spanSizeAt + 4 ≤ i → g.fresh.get64 i = 0 := by
    intro i hi
    have hi' : 16 ≤ i := hi
    rw [fresh, get64_set64_of_disjoint (by unfold magicAt; omega),
      get64_set32_of_disjoint (by unfold spanSizeAt; omega),
      get64_set32_of_disjoint (by unfold spanCountAt; omega), get64_zeros]
  have h32 : ∀ i, spanSizeAt + 4 ≤ i → g.fresh.get32 i = 0 := by
    intro i hi
    have hi' : 16 ≤ i := hi
    rw [fresh, get32_set64_of_disjoint (by unfold magicAt; omega),
      get32_set32_of_disjoint (by unfold spanSizeAt; omega),
      get32_set32_of_disjoint (by unfold spanCountAt; omega), get32_zeros]
  refine ⟨0, ?_, Nat.le_refl 0⟩
  exact {
    size := by rw [fresh, size_set64, size_set32, size_set32, hz]
    magic := by rw [fresh, get64_set64_self (by simpa [hz] using hm)]
    spanCount := by
      rw [fresh, get32_set64_of_disjoint (by decide), get32_set32_of_disjoint (by decide),
        get32_set32_self (by simpa [hz] using hc)]
    spanSize := by
      rw [fresh, get32_set64_of_disjoint (by decide), get32_set32_self (by simpa [hz] using hs)]
    released := by simp [h32 releasedAt (by decide)]
    producer := h32 _ (by decide)
    consumer := h32 _ (by decide)
    reader := h64 _ (by decide)
    writer := h64 _ (by decide)
    offset := h64 _ (by decide)
    offset_le := Nat.le_refl 0
    room := Nat.zero_le _
    counted := by decide
    spans := trivial }

theorem createAnonymous_ok {host : Host} {ring : Ring} (h : g.createAnonymous host = .ok ring) :
    g.check = .ok () ∧ ring.mapping = { geometry := g } ∧ Holds g ring.memory {} 0 := by
  unfold createAnonymous at h
  split at h
  · cases h
  · rename_i hc
    split at h
    · injection h with h
      subst h
      dsimp only
      exact ⟨hc, rfl, holds_fresh g⟩
    · cases h

theorem createFile_ok {host : Host} {d d' : Directory} {path : String} {k : Nat} {ring : Ring}
    (h : g.createFile host d path k = (.ok ring, d')) :
    g.check = .ok () ∧ ring.mapping = { geometry := g, path := some path } ∧
      Holds g ring.memory {} 0 ∧ d' = d.put path k := by
  unfold createFile at h
  split at h
  · cases h
  · rename_i hc
    split at h
    · cases h
    · split at h
      · injection h with h hd
        injection h with h
        subst h
        dsimp only
        exact ⟨hc, rfl, holds_fresh g, hd.symm⟩
      · cases h

/-- A workspace whose only memory is a fresh ring with one mapping shares an empty queue. -/
theorem shares_fresh {host : Host} {files : Directory} {path : Option String}
    (hg : g.check = .ok ()) (hm : Holds g m {} 0)
    (hf : ∀ p, files.get? p = if path = some p then some 0 else none) :
    RingWorkspace.Shares
      { host := host, files := files, memories := #[m],
        mappings := #[some ({ geometry := g, path := path }, 0)] }
      g { file := path } 0 where
  valid := hg
  memories := rfl
  holds := hm
  count := rfl
  mapped := Nat.one_pos
  maps := by
    intro i hi
    have hzero : i = 0 := Nat.lt_one_iff.mp hi
    subst hzero
    refine ⟨_, rfl, ⟨rfl, fun hc => ?_⟩, fun _ _ => ⟨rfl, Bool.false_ne_true⟩, fun h => ?_⟩
    · cases hc
    · exact absurd rfl h
  files := hf

theorem FreshRing.shares (h : FreshRing g file w) : w.Shares g { file := file } 0 := by
  cases h with
  | @anonymous host _ h =>
      unfold RingWorkspace.createAnonymous at h
      split at h
      · cases h
      · rename_i ring hring
        obtain ⟨hc, hmap, hm⟩ := createAnonymous_ok hring
        obtain ⟨mapping, memory⟩ := ring
        dsimp only at hmap hm
        subst hmap
        cases h
        exact shares_fresh hc hm fun p => by simp
  | @file host path _ h =>
      unfold RingWorkspace.createFile at h
      split at h
      · cases h
      · rename_i ring files hring
        obtain ⟨hc, hmap, hm, rfl⟩ := createFile_ok hring
        obtain ⟨mapping, memory⟩ := ring
        dsimp only at hmap hm
        subst hmap
        cases h
        refine shares_fresh hc hm fun p => ?_
        rw [Table.get?_put]
        simp

theorem Holds.ofFile (h : Holds g m q n) (hg : g.check = .ok ()) (path : String) :
    RingMapping.ofFile path m =
      .ok { geometry := g, path := some path, isOwner := false } := by
  obtain ⟨first, h, _⟩ := h
  have hsize : ¬ m.size < headerBytes := by
    rw [h.size]
    exact Nat.not_lt_of_le (headerBytes_le_mappedBytes g)
  unfold RingMapping.ofFile
  rw [if_neg hsize, if_neg (not_not_intro h.magic), h.spanCount, h.spanSize]
  dsimp only
  rw [hg]
  dsimp only
  rw [if_neg (not_not_intro h.size)]

namespace RingWorkspace.Shares

theorem mono (h : w.Shares g s n) {n' : Nat} (hn : n ≤ n') : w.Shares g s n' := by
  obtain ⟨first, hfirst, hle⟩ := h.holds
  exact { h with holds := ⟨first, hfirst, Nat.le_trans hle hn⟩ }

theorem openFile (h : w.Shares g s n) (path : String) :
    RingAnswer.opened (w.openFile path).1 = (s.step g (.openPeer path)).1 ∧
      (w.openFile path).2.Shares g (s.step g (.openPeer path)).2 n := by
  unfold RingWorkspace.openFile SharedQueue.step
  rw [h.files path]
  dsimp only
  by_cases hp : s.file = some path
  · rw [if_pos hp, if_pos hp]
    dsimp only
    rw [h.holds.ofFile h.valid path]
    dsimp only
    refine ⟨by rw [h.count], ?_⟩
    exact {
      valid := h.valid
      memories := h.memories
      holds := h.holds
      count := by rw [Array.size_push, h.count]
      mapped := Nat.succ_pos _
      maps := by
        intro i hi
        have hpos := h.mapped
        unfold mapping?
        rw [Array.getElem?_push, h.count]
        by_cases hlast : i = s.mappings
        · rw [if_pos hlast]
          exact ⟨_, rfl, ⟨rfl, fun hc => by cases hc⟩, fun hz => by omega, fun _ => rfl⟩
        · rw [if_neg hlast]
          obtain ⟨r, hr, hmaps⟩ := h.maps i (by dsimp only at hi; omega)
          exact ⟨r, hr, hmaps.of, hmaps.owner, hmaps.peer⟩
      files := h.files }
  · rw [if_neg hp, if_neg hp]
    exact ⟨rfl, h⟩

theorem memory_replaced (h : w.Shares g s n) (m : Memory) :
    (w.memories.setIfInBounds 0 m).getD 0 (zeros 0) = m := by
  simp [Array.getD_eq_getD_getElem?, h.memories]

/-- A call that leaves the mapping as it is, given what it does to the memory. -/
theorem apply (h : w.Shares g s n) {i : Nat} (hi : i < s.mappings)
    (op : RingMapping → Memory → Except StreamError α × Memory)
    (p : Except StreamError α × FrameQueue) {n' : Nat}
    (hop : ∀ r : RingMapping, r.Of g s.queue →
      (op r (w.memory 0)).1 = p.1 ∧ Holds g (op r (w.memory 0)).2 p.2 n')
    (hrel : p.2.isReleased = s.queue.isReleased) :
    (w.apply i op).1 = some p.1 ∧ (w.apply i op).2.Shares g { s with queue := p.2 } n' := by
  obtain ⟨r, hr, hmaps⟩ := h.maps i hi
  obtain ⟨hanswer, hholds⟩ := hop r hmaps.of
  unfold RingWorkspace.apply
  rw [hr]
  dsimp only
  refine ⟨congrArg some hanswer, ?_⟩
  exact {
    valid := h.valid
    memories := by rw [Array.size_setIfInBounds, h.memories]
    holds := by
      rw [RingWorkspace.memory, h.memory_replaced]
      exact hholds
    count := h.count
    mapped := h.mapped
    maps := by
      intro j hj
      obtain ⟨r', hr', hmaps'⟩ := h.maps j hj
      refine ⟨r', hr', ⟨hmaps'.of.geometry, fun hc => ?_⟩, hmaps'.owner, hmaps'.peer⟩
      rw [hrel]
      exact hmaps'.of.closed hc
    files := h.files }

/-- After the first mapping was released no file is left; the others leave the file alone. -/
theorem files_release (h : w.Shares g s n) {i : Nat} {r : RingMapping} (hmaps : s.Maps g i r)
    (path : String) :
    Table.get? (if r.isClosed then w.files else w.files.remove r.ownFile?) path =
      if (if i = 0 then none else s.file) = some path then some 0 else none := by
  have hfiles := h.files path
  have hnone : ¬ (none : Option String) = some path := fun hc => by cases hc
  by_cases hi : i = 0
  · rw [if_pos hi, if_neg hnone]
    cases hf : s.file with
    | none =>
        rw [hf, if_neg hnone] at hfiles
        split
        · exact hfiles
        · cases r.ownFile? with
          | none => exact hfiles
          | some own =>
              rw [Directory.remove, Table.get?_erase, hfiles, ite_self]
    | some own =>
        obtain ⟨hown, hopen⟩ := hmaps.owner hi (by rw [hf]; rfl)
        rw [if_neg hopen, hown, hf, Directory.remove, Table.get?_erase, hfiles, hf]
        by_cases hp : own = path
        · simp [hp]
        · simp [hp]
  · rw [if_neg hi, hmaps.peer hi]
    dsimp only [Directory.remove]
    rw [ite_self]
    exact hfiles

theorem release (h : w.Shares g s n) {i : Nat} (hi : i < s.mappings) :
    (w.release i).Shares g
      { s with queue := s.queue.release, file := if i = 0 then none else s.file } n := by
  obtain ⟨r, hr, hmaps⟩ := h.maps i hi
  have hg := spanCount_pos h.valid
  have hclosed : ((r.release (w.memory 0)).1.geometry = g) ∧
      (r.release (w.memory 0)).1.ownFile? = r.ownFile? := by
    unfold RingMapping.release
    split
    · exact ⟨hmaps.of.geometry, rfl⟩
    · exact ⟨hmaps.of.geometry, rfl⟩
  unfold RingWorkspace.release
  rw [hr]
  dsimp only
  exact {
    valid := h.valid
    memories := by rw [Array.size_setIfInBounds, h.memories]
    holds := by
      rw [RingWorkspace.memory, h.memory_replaced]
      exact h.holds.release hmaps.of hg
    count := by rw [Array.size_setIfInBounds, h.count]
    mapped := h.mapped
    maps := by
      intro j hj
      unfold mapping?
      rw [Array.getElem?_setIfInBounds]
      by_cases hij : i = j
      · subst hij
        rw [if_pos rfl, if_pos (by rw [h.count]; exact hi)]
        refine ⟨_, rfl, ⟨hclosed.1, fun _ => rfl⟩, fun hz hsome => ?_, fun hz => ?_⟩
        · rw [if_pos hz] at hsome
          cases hsome
        · rw [hclosed.2, hmaps.peer hz]
      · rw [if_neg hij]
        obtain ⟨r', hr', hmaps'⟩ := h.maps j hj
        refine ⟨r', hr', ⟨hmaps'.of.geometry, fun _ => rfl⟩, fun hz hsome => ?_, hmaps'.peer⟩
        have hne : ¬ i = 0 := fun hc => hij (hc.trans hz.symm)
        rw [if_neg hne] at hsome ⊢
        exact hmaps'.owner hz hsome
    files := h.files_release hmaps }

theorem perform_absent (h : w.Shares g s n) {i : Nat} (hi : ¬ i < s.mappings) (c : RingCall) :
    w.perform i c = (.absent, w) := by
  have hnone : w.mapping? i = none := by
    unfold mapping?
    rw [Array.getElem?_eq_none (by rw [h.count]; omega)]
    rfl
  have happly : ∀ {β : Type} (op : RingMapping → Memory → Except StreamError β × Memory),
      w.apply i op = (none, w) := by
    intro β op
    rw [RingWorkspace.apply, hnone]
  cases c <;> simp [RingWorkspace.perform, RingWorkspace.release, happly, hnone]

theorem perform (h : w.Shares g s n) (i : Nat) (c : RingCall)
    (hn : n + (RingStep.call i c).isWrite.toNat < 2 ^ 64) :
    (w.perform i c).1 = (s.step g (.call i c)).1 ∧
      (w.perform i c).2.Shares g (s.step g (.call i c)).2
        (n + (RingStep.call i c).isWrite.toNat) := by
  have hg := spanCount_pos h.valid
  by_cases hi : i < s.mappings
  · unfold SharedQueue.step
    dsimp only
    rw [if_pos hi]
    cases c with
    | write frame t =>
        obtain ⟨hanswer, hshares⟩ := h.apply hi (fun r m => r.write m frame t)
          (s.queue.write g frame t) (fun r hr => h.holds.write hr h.valid hn frame t) (by simp)
        exact ⟨congrArg (Option.elim · RingAnswer.absent .written) hanswer, hshares⟩
    | read limit =>
        obtain ⟨hanswer, hshares⟩ := h.apply hi (fun r m => r.read m limit) (s.queue.read limit)
          (fun r hr => h.holds.read hr hg limit) (by simp)
        exact ⟨congrArg (Option.elim · RingAnswer.absent .read) hanswer, hshares⟩
    | readInto want =>
        obtain ⟨hanswer, hshares⟩ := h.apply hi (fun r m => r.readInto m want)
          (s.queue.readInto want) (fun r hr => h.holds.readInto hr hg want) (by simp)
        exact ⟨congrArg (Option.elim · RingAnswer.absent .filled) hanswer, hshares⟩
    | flush =>
        obtain ⟨hanswer, hshares⟩ := h.apply hi (fun r m => r.flush m) (s.queue.flush)
          (fun r hr => h.holds.flush hr hg) (by simp)
        exact ⟨congrArg (Option.elim · RingAnswer.absent .flushed) hanswer, hshares⟩
    | release =>
        obtain ⟨r, hr, _⟩ := h.maps i hi
        have hrelease := h.release hi
        refine ⟨?_, ?_⟩
        · unfold RingWorkspace.perform
          rw [hr]
          rfl
        · simpa [RingWorkspace.perform, FrameQueue.perform, RingStep.isWrite] using hrelease
  · unfold SharedQueue.step
    dsimp only
    rw [if_neg hi, h.perform_absent hi]
    exact ⟨rfl, h.mono (Nat.le_add_right _ _)⟩

theorem step (h : w.Shares g s n) (t : RingStep) (hn : n + t.isWrite.toNat < 2 ^ 64) :
    (w.step t).1 = (s.step g t).1 ∧ (w.step t).2.Shares g (s.step g t).2 (n + t.isWrite.toNat) := by
  cases t with
  | openPeer path => exact h.openFile path
  | call i c => exact h.perform i c hn

theorem answers_eq (h : w.Shares g s n) (steps : List RingStep)
    (hn : n + steps.countP (·.isWrite) < 2 ^ 64) : w.answers steps = s.answers g steps := by
  induction steps generalizing w s n with
  | nil => rfl
  | cons t rest ih =>
      have hcount : (t :: rest).countP (·.isWrite) =
          t.isWrite.toNat + rest.countP (·.isWrite) := by
        rw [List.countP_cons]
        cases t.isWrite <;> simp [Nat.add_comm]
      obtain ⟨hanswer, hnext⟩ := h.step t (by omega)
      rw [RingWorkspace.answers, SharedQueue.answers, hanswer, ih hnext (by omega)]

end RingWorkspace.Shares

/-- A ring is a bounded queue of frames that its owner and all peers share. However calls on the
mappings are interleaved, and whenever peers open its file, every answer is that of the queue,
as long as the write cursor fits into 64 bits. -/
theorem ring_answers_as_shared_queue (h : FreshRing g file w) (steps : List RingStep)
    (hn : steps.countP (·.isWrite) < 2 ^ 64) :
    w.answers steps = SharedQueue.answers g { file := file } steps :=
  h.shares.answers_eq steps (by rwa [Nat.zero_add])

theorem ring_answers_over_two_mappings :
    ∃ w, FreshRing ⟨2, 4⟩ (some "/r") w ∧
      w.answers
        [.openPeer "/r", .call 1 (.write [1, 2, 3] 10), .call 0 (.read 2),
          .call 1 (.write [] 20), .call 0 (.write [7] 30), .call 0 (.readInto 4),
          .call 1 .release, .call 0 .flush] =
      [.opened (.ok 1), .written (.ok ()), .read (.ok ⟨[1, 2], 10⟩), .written (.ok ()),
        .written (.error .bufferFull), .filled (.ok ⟨[3, 0, 0, 0], 1, true, some 10⟩), .released,
        .flushed (.error .released)] := by
  let made := RingWorkspace.createFile { host := {} } "/r" ⟨2, 4⟩
  have h : FreshRing ⟨2, 4⟩ (some "/r") made.2 := .file (show made = (.ok 0, made.2) from rfl)
  refine ⟨_, h, ?_⟩
  rw [ring_answers_as_shared_queue h _ (by decide)]
  rfl

/-- Room in the queue does not let a frame in that is longer than a span. -/
theorem long_frame_refused_with_room :
    ∃ w, FreshRing ⟨1, 1⟩ none w ∧ (RingMapping.readable (w.memory 0)).toNat < 1 ∧
      w.answers [.call 0 (.write [1, 2] 0)] =
        [.written (.error (.invalidParam "frame of 2 bytes exceeds span size 1"))] := by
  let made := RingWorkspace.createAnonymous { host := {} } ⟨1, 1⟩
  have h : FreshRing ⟨1, 1⟩ none made.2 := .anonymous (show made = (.ok 0, made.2) from rfl)
  obtain ⟨first, hfirst, -⟩ := h.shares.holds
  refine ⟨_, h, ?_, ?_⟩
  · rw [hfirst.readable]
    exact Nat.one_pos
  · rw [h.shares.answers_eq _ (by decide)]
    rfl

end Patchbay
