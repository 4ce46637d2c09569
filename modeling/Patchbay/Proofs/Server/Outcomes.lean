import Patchbay.Proofs.Wire.Responses
import Patchbay.Server.Requests

/-!
# Outcomes of requests

What the handler answers is of the shape that the client of the request expects, and an error is
never called a success. To carry out a request sends nothing: what it brings about waits until it
is forwarded.
-/
namespace Patchbay
open Wire (Request Response IsOutcome)

variable {s : Server} {conn id : Nat}

theorem StreamError.status_ne_success (e : StreamError) : e.status ≠ .success := by
  cases e <;> exact Status.noConfusion

theorem PolicyError.status_ne_success (e : PolicyError) : e.status ≠ .success := by
  cases e with
  | stream e => exact e.status_ne_success
  | _ => exact Status.noConfusion

namespace Server

theorem owned_ne_success {e : Status} (h : s.owned conn id = .error e) : e ≠ .success := by
  unfold owned at h
  split at h
  · split at h
    · cases h
    · cases h
      exact StreamError.status_ne_success _
  · cases h
    exact Status.noConfusion

theorem isOutcome_emptyOr {ε : Type} {status : ε → Status} (hstatus : ∀ e, status e ≠ .success)
    {kind : Wire.RequestKind} (hkind : Response.empty.Answers kind) (a : Except ε Unit) :
    IsOutcome kind (emptyOr status a) := by
  cases a with
  | ok => exact hkind
  | error e => exact hstatus e

theorem isOutcome_onSession {op : Session → Except StreamError Unit × Session}
    {kind : Wire.RequestKind} (hkind : Response.empty.Answers kind) :
    IsOutcome kind (s.onSession conn id op).1 := by
  unfold onSession
  split
  · exact owned_ne_success ‹_›
  · exact isOutcome_emptyOr StreamError.status_ne_success hkind _

theorem isOutcome_createSession (config : StreamConfig) :
    IsOutcome .createSession (s.createSession conn config).1 := by
  unfold createSession
  split
  · exact StreamError.status_ne_success _
  · dsimp only
    split
    · exact PolicyError.status_ne_success _
    · rfl

theorem isOutcome_resolve : IsOutcome .resolveBuffer (s.resolve conn id).1 := by
  unfold resolve
  split
  · exact owned_ne_success ‹_›
  · split
    · exact StreamError.status_ne_success _
    · dsimp only
      split
      · rfl
      · rfl
      · exact StreamError.status_ne_success _

theorem isOutcome_release : IsOutcome .release (s.release conn id).1 := by
  unfold release
  split
  · exact owned_ne_success ‹_›
  · exact isOutcome_emptyOr StreamError.status_ne_success (by simp [Response.Answers]) _

theorem isOutcome_handleInfo : IsOutcome .handleInfo (s.handleInfo conn id) := by
  unfold handleInfo
  split
  · exact owned_ne_success ‹_›
  · exact StreamError.status_ne_success _
  · split
    · rfl
    · exact StreamError.status_ne_success _

/-- Every outcome is one that the kind of the request can have. -/
theorem isOutcome_handle (s : Server) (conn : Nat) (r : Request) :
    IsOutcome r.kind (s.handle conn r).1 := by
  cases r with
  | createSession config => exact isOutcome_createSession config
  | resolveBuffer id => exact isOutcome_resolve
  | release id => exact isOutcome_release
  | handleInfo id => exact isOutcome_handleInfo
  | start id | pause id discard | resume id | stop id =>
      exact isOutcome_onSession (by simp [Response.Answers, Request.kind])
  | setVolume g v | setDeviceActive t active | setParameter key value
  | setRemoteParameter network key condition value =>
      exact isOutcome_emptyOr PolicyError.status_ne_success
        (by simp [Response.Answers, Request.kind]) _
  | _ => simp [handle, IsOutcome, Response.Answers, Request.kind]

section Lines
variable (s : Server) (lines : Inboxes Wire.Notification) (conn : Nat)

theorem adopt_withLines (id box : Nat) : adopt { s with lines := lines } conn id box =
    { s.adopt conn id box with lines := lines } := by
  simp only [adopt]
  cases s.links.get? conn <;> rfl

theorem createSession_withLines (config : StreamConfig) :
    createSession { s with lines := lines } conn config = ((s.createSession conn config).1,
      { (s.createSession conn config).2 with lines := lines }) := by
  simp only [createSession]
  split
  · rfl
  · split
    · rfl
    · exact congrArg (Prod.mk _) (adopt_withLines { s with station := _ } lines conn _ _)

theorem owned_withLines (id : Nat) :
    owned { s with lines := lines } conn id = s.owned conn id := rfl

theorem onSession_withLines (id : Nat) (op : Session → Except StreamError Unit × Session) :
    onSession { s with lines := lines } conn id op =
      ((s.onSession conn id op).1, { (s.onSession conn id op).2 with lines := lines }) := by
  simp only [onSession, owned_withLines]
  split <;> rfl

theorem resolve_withLines (id : Nat) : resolve { s with lines := lines } conn id =
    ((s.resolve conn id).1, { (s.resolve conn id).2 with lines := lines }) := by
  simp only [resolve, owned_withLines]
  split
  · rfl
  · split
    · rfl
    · split <;> rfl

theorem release_withLines (id : Nat) : release { s with lines := lines } conn id =
    ((s.release conn id).1, { (s.release conn id).2 with lines := lines }) := by
  simp only [release, owned_withLines]
  split <;> rfl

/-- A request does not look at the lines and leaves them as they are. -/
theorem handle_withLines (r : Request) : handle { s with lines := lines } conn r =
    ((s.handle conn r).1, { (s.handle conn r).2 with lines := lines }) := by
  cases r with
  | createSession config => exact createSession_withLines s lines conn config
  | resolveBuffer id => exact resolve_withLines s lines conn id.toNat
  | release id => exact release_withLines s lines conn id.toNat
  | start id | pause id discard | resume id | stop id =>
      exact onSession_withLines s lines conn id.toNat _
  | _ => rfl

end Lines

/-- A request puts nothing on a line. What it brings about waits to be forwarded. -/
theorem lines_handle (s : Server) (conn : Nat) (r : Request) :
    (s.handle conn r).2.lines = s.lines :=
  congrArg (·.2.lines) (handle_withLines s s.lines conn r)

end Server
end Patchbay
