import Patchbay.Proofs.Wire.Requests
import Patchbay.Server.Requests

/-!
# What reaches the handler

A message is handed on exactly if it is a request message with the token of the server, and then
once and as that request. Every other message is answered with a bare failure, whatever the
handler does.
-/
namespace Patchbay.Wire

variable {σ : Type} {token : String} {message : List UInt8} {r : Request}

/-- The handler, keeping a record of the requests it is given. -/
def recorded (handle : Request → σ → Except Status Response × σ) (r : Request)
    (s : σ × List Request) : Except Status Response × σ × List Request :=
  ((handle r s.1).1, (handle r s.1).2, s.2 ++ [r])

/-- What the handler is given in answer to one message. -/
def handedOn (token : String) (handle : Request → σ → Except Status Response × σ)
    (message : List UInt8) (s : σ) : List Request :=
  (dispatch token (recorded handle) message (s, [])).2.2

@[simp]
theorem length_encodeStatus (s : Status) : (Response.encodeStatus s).length = 4 :=
  length_writeCode _

section
variable {handle : Request → σ → Except Status Response × σ} {s : σ}

theorem dispatch_of_spelledBy (htoken : TextFits token) (h : r.SpelledBy token message) :
    dispatch token handle message s = (encodeOutcome (handle r s).1, (handle r s).2) := by
  unfold dispatch
  rw [(Request.decode_readFor_eq_ok_iff htoken).mpr h]

/-- What is no request is answered with a failure and changes nothing. -/
theorem dispatch_of_not_spelledBy (htoken : TextFits token)
    (h : ∀ r : Request, ¬ r.SpelledBy token message) : ∃ status, status ≠ Status.success ∧
      dispatch token handle message s = (Response.encodeStatus status, s) := by
  unfold dispatch
  cases hdecode : decode (Request.readFor token) message with
  | ok r => exact absurd ((Request.decode_readFor_eq_ok_iff htoken).mp hdecode) (h r)
  | error e => exact ⟨e.toStatus, (Request.declines_readFor token).decode hdecode, rfl⟩

theorem handedOn_of_spelledBy (htoken : TextFits token) (h : r.SpelledBy token message) :
    handedOn token handle message s = [r] := by
  unfold handedOn
  rw [dispatch_of_spelledBy htoken h]
  rfl

theorem handedOn_of_not_spelledBy (htoken : TextFits token)
    (h : ∀ r : Request, ¬ r.SpelledBy token message) : handedOn token handle message s = [] := by
  unfold handedOn
  obtain ⟨status, -, hout⟩ : ∃ status, status ≠ Status.success ∧
      dispatch token (recorded handle) message (s, []) =
        (Response.encodeStatus status, s, []) := dispatch_of_not_spelledBy htoken h
  rw [hout]

end

/-- The dispatcher accepts exactly its grammar: the handler runs at most once, and with a request
exactly if the message is one of that request. Any other message is answered with the four bytes
of a failure and leaves the state of the handler as it is. So neither a message that is cut
short, nor one that goes on, nor one for another server gets through. -/
theorem handed_on_iff_spelled (htoken : TextFits token)
    (handle : Request → σ → Except Status Response × σ) (message : List UInt8) (s : σ) :
    (handedOn token handle message s).length ≤ 1 ∧
    (∀ r, handedOn token handle message s = [r] ↔ r.SpelledBy token message) ∧
    (∀ r : Request, r.SpelledBy token message →
      dispatch token handle message s = (encodeOutcome (handle r s).1, (handle r s).2)) ∧
    ((∀ r : Request, ¬ r.SpelledBy token message) → ∃ status, status ≠ Status.success ∧
      dispatch token handle message s = (Response.encodeStatus status, s) ∧
      (Response.encodeStatus status).length = 4) ∧
    (∀ (r : Request) (extra : List UInt8), extra ≠ [] →
      (r.SpelledBy token (message ++ extra) ∨
        ∃ front, message = front ++ extra ∧ r.SpelledBy token front) →
      handedOn token handle message s = []) ∧
    (∀ (r : Request) (other : String) (t : UInt8), TextFits other → other ≠ token →
      message = r.encodeWith t other → handedOn token handle message s = []) := by
  have hnone : (∀ r : Request, ¬ r.SpelledBy token message) →
      handedOn token handle message s = [] := handedOn_of_not_spelledBy htoken
  refine ⟨?_, fun r => ⟨fun h => ?_, handedOn_of_spelledBy htoken⟩,
    fun r => dispatch_of_spelledBy htoken, fun h => ?_, fun r extra hextra h => ?_,
    fun r other t hother hne h => ?_⟩
  · by_cases h : ∃ r : Request, r.SpelledBy token message
    · obtain ⟨r, h⟩ := h
      rw [handedOn_of_spelledBy htoken h]
      exact Nat.le_refl 1
    · rw [hnone (not_exists.mp h)]
      exact Nat.zero_le 1
  · by_contra hr
    by_cases hother : ∃ r' : Request, r'.SpelledBy token message
    · obtain ⟨r', h'⟩ := hother
      rw [handedOn_of_spelledBy htoken h'] at h
      cases h
      exact hr h'
    · rw [hnone (not_exists.mp hother)] at h
      cases h
  · obtain ⟨status, hstatus, hout⟩ := dispatch_of_not_spelledBy htoken h
    exact ⟨status, hstatus, hout, length_encodeStatus status⟩
  · refine hnone fun r' h' => hextra ?_
    rcases h with h | ⟨front, rfl, h⟩
    · exact (h'.unique htoken h).2
    · exact (h.unique htoken h').2
  · refine hnone fun r' h' => hne ?_
    rw [h] at h'
    exact h'.token_eq htoken hother

/-- A set flag may be any byte but zero. -/
theorem mute_by_odd_byte_handed_on :
    TextFits "audiod.IAudioProcess" ∧
    (Request.setMuted .music true).encodeWith 255 "audiod.IAudioProcess" ≠
      (Request.setMuted .music true).encode "audiod.IAudioProcess" ∧
    handedOn "audiod.IAudioProcess" (fun r (s : Server) => s.handle 1 r)
      ((Request.setMuted .music true).encodeWith 255 "audiod.IAudioProcess") {} =
      [.setMuted .music true] := by
  have htoken : TextFits "audiod.IAudioProcess" := by
    unfold TextFits
    decide
  have hfits : (Request.setMuted .music true).Fits := by
    intro s hs
    cases hs
  have hspelled : (Request.setMuted .music true).SpelledBy "audiod.IAudioProcess"
      ((Request.setMuted .music true).encodeWith 255 "audiod.IAudioProcess") :=
    ⟨hfits, 255, by decide, rfl⟩
  exact ⟨htoken, by decide,
    ((handed_on_iff_spelled htoken (fun r (s : Server) => s.handle 1 r) _ {}).2.1 _).mpr hspelled⟩

end Patchbay.Wire
