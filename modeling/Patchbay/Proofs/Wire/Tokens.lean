import Patchbay.Proofs.Wire.Dispatch

/-!
# What a wrong token is told

A request message begins with the code of its kind and a token. The code is looked up first and
the token compared next, so a peer that shows the token of another server is told whether the code
stands for a request. It is told nothing else: the rest of the message is not read, and the
handler is not called.
-/
namespace Patchbay.Wire

variable {σ : Type} {token other : String} {message rest : List UInt8} {code : UInt32}

/-- Reads the code and the token of a message and leaves the rest, whatever the code. -/
def readBeginning : Reader (UInt32 × String) := do
  let code ← read32
  let token ← readText
  pure (code, token)

/-- The status that answers a message with a wrong token. -/
def refusal (code : UInt32) : Status :=
  if (RequestKind.ofCode? code).isSome then .permissionDenied else .unsupported

theorem encodeStatus_refusal_eq_iff {code code' : UInt32} :
    Response.encodeStatus (refusal code) = Response.encodeStatus (refusal code') ↔
      ((RequestKind.ofCode? code).isSome ↔ (RequestKind.ofCode? code').isSome) := by
  have hapart :
      Response.encodeStatus .permissionDenied ≠ Response.encodeStatus .unsupported := by decide
  by_cases h : (RequestKind.ofCode? code).isSome <;>
    by_cases h' : (RequestKind.ofCode? code').isSome <;>
      simp [refusal, h, h', hapart, hapart.symm]

/-- A wrong token ends the reading, after a code that stands for nothing has ended it. -/
theorem readFor_of_wrong_token (h : Takes readBeginning message (code, other) rest)
    (hne : other ≠ token) :
    ∃ e left, Request.readFor token message = (.error e, left) ∧ e.toStatus = refusal code := by
  have htaken : ∃ afterCode afterToken,
      Takes read32 message code afterCode ∧ Takes readText afterCode other afterToken := by
    simp only [readBeginning, takes_bind, takes_pure, Prod.mk.injEq] at h
    obtain ⟨_, afterCode, hcode, _, afterToken, htoken, ⟨rfl, rfl⟩, -⟩ := h
    exact ⟨afterCode, afterToken, hcode, htoken⟩
  obtain ⟨afterCode, afterToken, hcode, htoken⟩ := htaken
  cases hkind : RequestKind.ofCode? code with
  | none =>
      have hread : Request.readKind message = (.error (.unknownCode code), afterCode) := by
        rw [Request.readKind, hcode.bind, hkind]
        rfl
      refine ⟨.unknownCode code, afterCode, ?_, by simp [refusal, hkind, WireError.toStatus]⟩
      rw [Request.readFor, bind_apply, hread]
  | some kind =>
      have hread : Takes Request.readKind message kind afterCode := by
        rw [Takes, Request.readKind, hcode.bind, hkind]
        rfl
      refine ⟨.authenticationFailed token other, afterToken, ?_,
        by simp [refusal, hkind, WireError.toStatus]⟩
      rw [Request.readFor, hread.bind, htoken.bind, if_pos hne]
      rfl

theorem dispatch_of_wrong_token (h : Takes readBeginning message (code, other) rest)
    (hne : other ≠ token) (handle : Request → σ → Except Status Response × σ) (s : σ) :
    dispatch token handle message s = (Response.encodeStatus (refusal code), s) := by
  obtain ⟨e, left, hread, hstatus⟩ := readFor_of_wrong_token h hne
  simp only [dispatch, decode_eq_error hread, hstatus]

/-- A message with a wrong token never reaches the handler. It is answered with a refusal of the
permission exactly if its code stands for a request, so two such messages are answered alike
exactly if both codes do or neither does, whatever follows the tokens. -/
theorem wrong_token_denied_iff_known (h : Takes readBeginning message (code, other) rest)
    (hne : other ≠ token) (handle : Request → σ → Except Status Response × σ) (s : σ) :
    handedOn token handle message s = [] ∧
    (dispatch token handle message s).2 = s ∧
    ((dispatch token handle message s).1 = Response.encodeStatus .permissionDenied ↔
      (RequestKind.ofCode? code).isSome) ∧
    ∀ (message' : List UInt8) (code' : UInt32) (other' : String) (rest' : List UInt8) (s' : σ),
      Takes readBeginning message' (code', other') rest' → other' ≠ token →
        ((dispatch token handle message s).1 = (dispatch token handle message' s').1 ↔
          ((RequestKind.ofCode? code).isSome ↔ (RequestKind.ofCode? code').isSome)) := by
  have hknown : refusal RequestKind.ringer.code = .permissionDenied := by decide
  refine ⟨?_, ?_, ?_, ?_⟩
  · rw [handedOn, dispatch_of_wrong_token h hne]
  · rw [dispatch_of_wrong_token h hne]
  · rw [dispatch_of_wrong_token h hne, ← hknown, encodeStatus_refusal_eq_iff]
    simp [RequestKind.ofCode?_code]
  · intro message' code' other' rest' s' h' hne'
    rw [dispatch_of_wrong_token h hne, dispatch_of_wrong_token h' hne']
    exact encodeStatus_refusal_eq_iff

/-- A message to start a session, with a token of another server and cut short after it. -/
theorem start_denied_for_strange_token :
    Takes readBeginning (write32 RequestKind.start.code ++ writeText "evil" ++ [1])
      (RequestKind.start.code, "evil") [1] ∧
    "evil" ≠ "audiod.IAudioProcess" ∧
    (dispatch "audiod.IAudioProcess" (fun r (s : Server) => s.handle 1 r)
      (write32 RequestKind.start.code ++ writeText "evil" ++ [1]) {}).1 =
        Response.encodeStatus .permissionDenied := by
  have htext : TextFits "evil" := by
    unfold TextFits
    decide
  have hbegins : Takes readBeginning (write32 RequestKind.start.code ++ writeText "evil" ++ [1])
      (RequestKind.start.code, "evil") [1] := by
    simp [readBeginning, htext]
  have hne : "evil" ≠ "audiod.IAudioProcess" := by decide
  refine ⟨hbegins, hne, ?_⟩
  exact (wrong_token_denied_iff_known hbegins hne _ ({} : Server)).2.2.1.mpr (by decide)

/-- A code that no request has is told apart from one that a request has, by a peer that does not
know the token. -/
theorem unknown_code_told_to_stranger :
    let reply (code : UInt32) : List UInt8 :=
      (dispatch "audiod.IAudioProcess" (fun r (s : Server) => s.handle 1 r)
        (write32 code ++ writeText "x") {}).1
    Takes readBeginning (write32 0 ++ writeText "x") (0, "x") [] ∧
      reply 0 = Response.encodeStatus .unsupported ∧
      reply 0 ≠ Response.encodeStatus .permissionDenied ∧
      reply 0 ≠ reply RequestKind.start.code := by
  intro reply
  have htext : TextFits "x" := by
    unfold TextFits
    decide
  have hbegins : ∀ code : UInt32,
      Takes readBeginning (write32 code ++ writeText "x") (code, "x") [] := by
    intro code
    simpa [readBeginning] using htext
  have hreply : ∀ code, reply code = Response.encodeStatus (refusal code) := by
    intro code
    have hne : "x" ≠ "audiod.IAudioProcess" := by decide
    simp only [reply, dispatch_of_wrong_token (hbegins code) hne]
  simp only [hreply]
  exact ⟨hbegins 0, by decide, by decide, by decide⟩

end Patchbay.Wire
