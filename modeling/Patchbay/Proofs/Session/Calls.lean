import Patchbay.Session.Data
import Patchbay.Session.Lifecycle

/-!
# Calls on a session

All that can be asked of a session, as one step function with one type of answers, and what
each call leaves alone: calls that only move data keep the state, the device and a start that
waits, no call changes the number or the configuration, and the end of a session is final.
-/
namespace Patchbay

/-- What a client, or in the case of `bind` the keeper of its route, asks of a session. -/
inductive SessionCall where
  | resolve
  | start
  | pause (discard : Bool)
  | resume
  | stop
  | flush
  | bind (d : Device)
  | release
  | invalidate (reason : String)
  | write (frame : List UInt8) (timestamp : UInt64)
  | read (want : Nat)
  | info
deriving DecidableEq, Repr

/-- What can happen to a session. -/
inductive SessionStep where
  | call (c : SessionCall)
  /-- Others that map the ring leave it like this. -/
  | share (r : Ring)

inductive SessionAnswer where
  | done
  | handle (h : Handle)
  /-- The device bound before. -/
  | previous (d : Device)
  | filled (r : FilledRead)
  | info (i : HandleInfo)

namespace Session
variable {α : Type}

/-- The outcome of a call that does not end the session. -/
def going (f : α → SessionAnswer) (p : Except StreamError α × Session) :
    Except StreamError SessionAnswer × Session × Option Closing :=
  (p.1.map f, p.2, none)

def perform (s : Session) :
    SessionCall → Except StreamError SessionAnswer × Session × Option Closing
  | .resolve => going .handle s.resolve
  | .start => going (fun _ => .done) s.start
  | .pause discard => going (fun _ => .done) (s.pause discard)
  | .resume => going (fun _ => .done) s.resume
  | .stop => going (fun _ => .done) s.stop
  | .flush => going (fun _ => .done) s.flush
  | .bind d => going .previous (s.bind d)
  | .release =>
    let (a, s, closing) := s.release
    (a.map fun _ => .done, s, closing)
  | .invalidate reason =>
    let (s, closing) := s.invalidate reason
    (.ok .done, s, closing)
  | .write frame t => going (fun _ => .done) (s.write frame t)
  | .read want => going .filled (s.read want)
  | .info => going .info (s.handleInfo, s)

/-- The same session of the same client, bound to the same device. -/
structure Keeps (s s' : Session) : Prop where
  id : s'.id = s.id
  config : s'.config = s.config
  device : s'.device = s.device

/-- Besides, no step of its life was taken: only data moved. -/
structure OnlyMoves (s s' : Session) : Prop extends s.Keeps s' where
  state : s'.state = s.state
  isPending : s'.isPending = s.isPending

variable {s s' : Session} {c : SessionCall}

theorem OnlyMoves.refl (s : Session) : s.OnlyMoves s :=
  ⟨⟨rfl, rfl, rfl⟩, rfl, rfl⟩

theorem onlyMoves_flushRing (s : Session) : s.OnlyMoves s.flushRing.2 := by
  unfold flushRing
  split <;> exact ⟨⟨rfl, rfl, rfl⟩, rfl, rfl⟩

theorem onlyMoves_flush (s : Session) : s.OnlyMoves s.flush.2 := by
  unfold flush
  split
  · exact s.onlyMoves_flushRing
  · exact s.onlyMoves_flushRing
  · exact .refl s

theorem onlyMoves_write (s : Session) (frame : List UInt8) (t : UInt64) :
    s.OnlyMoves (s.write frame t).2 := by
  unfold write
  split
  · exact .refl s
  · split <;> exact ⟨⟨rfl, rfl, rfl⟩, rfl, rfl⟩

theorem onlyMoves_read (s : Session) (want : Nat) : s.OnlyMoves (s.read want).2 := by
  unfold read
  split
  · exact .refl s
  · split <;> exact ⟨⟨rfl, rfl, rfl⟩, rfl, rfl⟩

theorem keeps_resolve (s : Session) : s.Keeps s.resolve.2 := by
  unfold resolve
  split
  · exact ⟨rfl, rfl, rfl⟩
  · split <;> exact ⟨rfl, rfl, rfl⟩

theorem keeps_start (s : Session) : s.Keeps s.start.2 := by
  unfold start
  split
  · split <;> exact ⟨rfl, rfl, rfl⟩
  · split <;> exact ⟨rfl, rfl, rfl⟩
  · exact ⟨rfl, rfl, rfl⟩

theorem keeps_pause (s : Session) (discard : Bool) : s.Keeps (s.pause discard).2 := by
  unfold pause
  split
  · dsimp only
    have hflush := onlyMoves_flushRing { s with state := .paused }
    split
    · split
      · rename_i hok
        rw [hok] at hflush
        exact ⟨hflush.id, hflush.config, hflush.device⟩
      · rename_i herror
        rw [herror] at hflush
        exact ⟨hflush.id, hflush.config, hflush.device⟩
    · exact ⟨rfl, rfl, rfl⟩
  · exact ⟨rfl, rfl, rfl⟩

theorem keeps_resume (s : Session) : s.Keeps s.resume.2 := by
  unfold resume
  split
  · split <;> exact ⟨rfl, rfl, rfl⟩
  · exact ⟨rfl, rfl, rfl⟩

theorem keeps_stop (s : Session) : s.Keeps s.stop.2 := by
  unfold stop
  dsimp only
  split
  · exact ⟨rfl, rfl, rfl⟩
  · exact ⟨rfl, rfl, rfl⟩
  · split <;> exact ⟨rfl, rfl, rfl⟩
  · exact ⟨rfl, rfl, rfl⟩

theorem keeps_release (s : Session) : s.Keeps s.release.2.1 := by
  unfold release
  split <;> exact ⟨rfl, rfl, rfl⟩

theorem keeps_invalidate (s : Session) (reason : String) : s.Keeps (s.invalidate reason).1 := by
  unfold invalidate
  split <;> exact ⟨rfl, rfl, rfl⟩

/-- No call but `bind` changes the device, and none the number or the configuration. -/
theorem keeps_perform (s : Session) (hc : ∀ d, c ≠ .bind d) : s.Keeps (s.perform c).2.1 := by
  cases c with
  | resolve => exact s.keeps_resolve
  | start => exact s.keeps_start
  | pause discard => exact s.keeps_pause discard
  | resume => exact s.keeps_resume
  | stop => exact s.keeps_stop
  | flush => exact s.onlyMoves_flush.toKeeps
  | bind d => exact absurd rfl (hc d)
  | release => exact s.keeps_release
  | invalidate reason => exact s.keeps_invalidate reason
  | write frame t => exact (s.onlyMoves_write frame t).toKeeps
  | read want => exact (s.onlyMoves_read want).toKeeps
  | info => exact ⟨rfl, rfl, rfl⟩

theorem bind_of_not_isTerminal (h : ¬ s.isTerminal) (d : Device) :
    (s.bind d).1 = .ok s.device ∧ (s.bind d).2.id = s.id ∧ (s.bind d).2.config = s.config ∧
      (s.bind d).2.device = d := by
  unfold bind
  rw [if_neg h]
  dsimp only
  split
  · split <;> exact ⟨rfl, rfl, rfl, rfl⟩
  · split <;> exact ⟨rfl, rfl, rfl, rfl⟩

theorem isTerminal_iff : s.isTerminal ↔ s.state = .released ∨ s.state = .invalid := by
  unfold isTerminal
  cases s.state <;> simp [SessionState.isTerminal]

theorem not_isTerminal_of_isRunning (h : s.isRunning) : ¬ s.isTerminal := by
  have hrunning : s.state = .running := of_decide_eq_true h
  simp [isTerminal, hrunning, SessionState.isTerminal]

/-- A session has ended after a release, also one that is refused. -/
theorem isTerminal_release (s : Session) : s.release.2.1.isTerminal := by
  unfold release
  split
  · rename_i hreleased
    exact isTerminal_iff.mpr (Or.inl hreleased)
  · rfl

/-- A session that has ended stays so, whatever is asked of it. -/
theorem isTerminal_perform (h : s.isTerminal) (c : SessionCall) : (s.perform c).2.1.isTerminal := by
  have hstate := isTerminal_iff.mp h
  cases c with
  | resolve =>
      show s.resolve.2.isTerminal
      rw [resolve, if_pos h]
      exact h
  | start =>
      show s.start.2.isTerminal
      rcases hstate with hs | hs <;> simpa only [start, hs] using h
  | pause discard =>
      show (s.pause discard).2.isTerminal
      rcases hstate with hs | hs <;> simpa only [pause, hs] using h
  | resume =>
      show s.resume.2.isTerminal
      rcases hstate with hs | hs <;> simpa only [resume, hs] using h
  | stop =>
      show s.stop.2.isTerminal
      rcases hstate with hs | hs <;> simpa only [stop, hs] using h
  | flush =>
      show s.flush.2.isTerminal
      rcases hstate with hs | hs <;> simpa only [flush, hs] using h
  | bind d =>
      show (s.bind d).2.isTerminal
      rw [bind, if_pos h]
      exact h
  | release =>
      show s.release.2.1.isTerminal
      unfold release
      split
      · exact h
      · rfl
  | invalidate reason =>
      show (s.invalidate reason).1.isTerminal
      rw [invalidate, if_pos h]
      exact h
  | write frame t =>
      show (s.write frame t).2.isTerminal
      rw [write, if_pos h]
      exact h
  | read want =>
      show (s.read want).2.isTerminal
      rw [read, if_pos h]
      exact h
  | info => exact h

end Session
end Patchbay
