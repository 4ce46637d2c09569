import Patchbay.Proofs.Session.Endings

/-!
# The end of a session

A session that was released or became invalid has ended: it keeps its state, every call but a
further fault is refused, a further fault changes nothing, and one event at most was sent in its
whole life. One call breaks this. An invalid session can still be released; then it takes another
state and sends a second event. On runs without such a release the end is final.
-/
namespace Patchbay

/-- The name under which a call is refused. A fault is never refused. -/
def SessionCall.name : SessionCall → String
  | .resolve => "resolve_buffer"
  | .start => "start"
  | .pause _ => "pause"
  | .resume => "resume"
  | .stop => "stop"
  | .flush => "flush"
  | .bind _ => "bind_device"
  | .release => "release"
  | .invalidate _ => "invalidate"
  | .write _ _ => "write"
  | .read _ => "read"
  | .info => "request_handle_info"

/-- What can happen in the life of a session. -/
inductive LifeStep where
  | call (c : SessionCall)
  /-- Others that map the ring leave it like this. -/
  | share (r : Ring)
  /-- From now on somebody listens to the events. -/
  | listen

/-- A session and the events that it has sent. -/
structure SessionLife where
  session : Session
  sent : List SessionEvent := []

namespace SessionLife

def step (l : SessionLife) : LifeStep → SessionLife
  | .call c =>
    let (_, s, closing) := l.session.perform c
    { session := s, sent := l.sent ++ (closing.bind (·.event)).toList }
  | .share r => { l with session := { l.session with ring := r } }
  | .listen => { l with session := { l.session with reports := true } }

def run (l : SessionLife) (steps : List LifeStep) : SessionLife :=
  steps.foldl step l

/-- What it means that the end of a session is final, on one run. -/
structure EndIsFinal (l : SessionLife) (steps : List LifeStep) : Prop where
  stays : ∀ before after, steps = before ++ after → (l.run before).session.isTerminal →
    (l.run steps).session.state = (l.run before).session.state
  refuses : ∀ before c after, steps = before ++ .call c :: after →
    (l.run before).session.isTerminal → (∀ reason, c ≠ .invalidate reason) →
    ∃ op state, ((l.run before).session.perform c).1 = .error (.illegalState op state)
  ignores : ∀ before reason after, steps = before ++ .call (.invalidate reason) :: after →
    (l.run before).session.isTerminal →
    (l.run before).step (.call (.invalidate reason)) = l.run before
  once : (l.run steps).sent.length ≤ 1

/-- Somewhere on the run an invalid session is released. -/
def ReleasedLate (l : SessionLife) (steps : List LifeStep) : Prop :=
  ∃ before after, steps = before ++ .call .release :: after ∧
    (l.run before).session.state = .invalid

end SessionLife

namespace Session

variable {s : Session} {c : SessionCall}

@[simp]
theorem going_error {α : Type} (f : α → SessionAnswer) (e : StreamError) (s : Session) :
    going f (.error e, s) = (.error e, s, none) :=
  rfl

theorem perform_invalidate_of_isTerminal (h : s.isTerminal) (reason : String) :
    s.perform (.invalidate reason) = (.ok .done, s, none) := by
  simp [perform, invalidate, h]

/-- After the end every call is refused and changes nothing, but for a fault and for the release
of an invalid session. -/
theorem perform_of_isTerminal (h : s.isTerminal) (hfault : ∀ reason, c ≠ .invalidate reason)
    (hlate : c = .release → s.state ≠ .invalid) :
    s.perform c = (.error (s.illegal c.name), s, none) := by
  have hstate := isTerminal_iff.mp h
  cases c with
  | resolve => simp [perform, resolve, h, SessionCall.name]
  | start => rcases hstate with hs | hs <;> simp [perform, start, hs, SessionCall.name]
  | pause discard => rcases hstate with hs | hs <;> simp [perform, pause, hs, SessionCall.name]
  | resume => rcases hstate with hs | hs <;> simp [perform, resume, hs, SessionCall.name]
  | stop => rcases hstate with hs | hs <;> simp [perform, stop, hs, SessionCall.name]
  | flush => rcases hstate with hs | hs <;> simp [perform, flush, hs, SessionCall.name]
  | bind d => simp [perform, bind, h, SessionCall.name]
  | release =>
      have hreleased := hstate.resolve_right (hlate rfl)
      simp [perform, release, hreleased, SessionCall.name, Except.map]
  | invalidate reason => exact absurd rfl (hfault reason)
  | write frame t => simp [perform, write, h, SessionCall.name]
  | read want => simp [perform, read, h, SessionCall.name]
  | info => simp [perform, handleInfo, h, SessionCall.name]

/-- An invalid session can be released like one that has not ended. -/
theorem perform_release_of_invalid (h : s.state = .invalid) :
    (s.perform .release).1 = .ok .done := by
  simp [perform, release, h, Except.map]

end Session

namespace SessionLife

variable {l : SessionLife} {t : LifeStep} {steps before after : List LifeStep}

theorem run_append (l : SessionLife) (before after : List LifeStep) :
    l.run (before ++ after) = (l.run before).run after :=
  List.foldl_append

theorem not_releasedLate_cons (h : ¬ l.ReleasedLate (t :: steps)) :
    (t = .call .release → l.session.state ≠ .invalid) ∧ ¬ (l.step t).ReleasedLate steps := by
  constructor
  · rintro rfl hinvalid
    exact h ⟨[], steps, rfl, hinvalid⟩
  · rintro ⟨before, after, rfl, hinvalid⟩
    exact h ⟨t :: before, after, rfl, hinvalid⟩

theorem not_releasedLate_append (h : ¬ l.ReleasedLate (before ++ after)) :
    ¬ (l.run before).ReleasedLate after := by
  induction before generalizing l with
  | nil => exact h
  | cons t before ih => exact ih (not_releasedLate_cons h).2

/-- One step after the end: the state is kept and nothing is sent. -/
theorem step_of_isTerminal (h : l.session.isTerminal)
    (hlate : t = .call .release → l.session.state ≠ .invalid) :
    (l.step t).session.state = l.session.state ∧ (l.step t).sent = l.sent := by
  cases t with
  | share r => exact ⟨rfl, rfl⟩
  | listen => exact ⟨rfl, rfl⟩
  | call c =>
      by_cases hfault : ∃ reason, c = .invalidate reason
      · obtain ⟨reason, rfl⟩ := hfault
        simp [step, Session.perform_invalidate_of_isTerminal h]
      · have hrefused := Session.perform_of_isTerminal h (fun reason hc => hfault ⟨reason, hc⟩)
          fun hc => hlate (congrArg _ hc)
        simp [step, hrefused]

theorem run_of_isTerminal (h : l.session.isTerminal) (hlate : ¬ l.ReleasedLate steps) :
    (l.run steps).session.state = l.session.state ∧ (l.run steps).sent = l.sent := by
  induction steps generalizing l with
  | nil => exact ⟨rfl, rfl⟩
  | cons t steps ih =>
      obtain ⟨hfirst, hrest⟩ := not_releasedLate_cons hlate
      have hstep := step_of_isTerminal h hfirst
      have hend : (l.step t).session.isTerminal := by
        rw [Session.isTerminal, hstep.1]
        exact h
      have hrun := ih hend hrest
      exact ⟨hrun.1.trans hstep.1, hrun.2.trans hstep.2⟩

theorem sent_step (l : SessionLife) (t : LifeStep) :
    (l.step t).sent = l.sent ∨
      (l.step t).session.isTerminal ∧ ∃ e, (l.step t).sent = l.sent ++ [e] := by
  cases t with
  | share r => exact Or.inl rfl
  | listen => exact Or.inl rfl
  | call c =>
      have hleads := l.session.leadsTo_perform c
      cases hclosing : (l.session.perform c).2.2 with
      | none => simp [step, hclosing]
      | some closing =>
          rw [hclosing] at hleads
          have hend : (l.step (.call c)).session.isTerminal := Session.EndsBy.isTerminal hleads
          cases hevent : closing.event with
          | none => exact Or.inl (by simp [step, hclosing, hevent])
          | some e => exact Or.inr ⟨hend, e, by simp [step, hclosing, hevent]⟩

theorem sent_run (hsent : l.sent = []) (hlate : ¬ l.ReleasedLate steps) :
    (l.run steps).sent.length ≤ 1 := by
  induction steps generalizing l with
  | nil => simp [run, hsent]
  | cons t steps ih =>
      obtain ⟨-, hrest⟩ := not_releasedLate_cons hlate
      rcases l.sent_step t with hquiet | ⟨hend, e, hlast⟩
      · exact ih (hquiet.trans hsent) hrest
      · -- The event of the end is the last.
        change ((l.step t).run steps).sent.length ≤ 1
        simp [(run_of_isTerminal hend hrest).2, hlast, hsent]

theorem endIsFinal (hsent : l.sent = []) (hlate : ¬ l.ReleasedLate steps) : l.EndIsFinal steps where
  stays := by
    rintro before after rfl hend
    rw [run_append]
    exact (run_of_isTerminal hend (not_releasedLate_append hlate)).1
  refuses := by
    rintro before c after rfl hend hfault
    have hfirst := (not_releasedLate_cons (not_releasedLate_append hlate)).1
    rw [Session.perform_of_isTerminal hend hfault fun hc => hfirst (congrArg _ hc)]
    exact ⟨_, _, rfl⟩
  ignores := by
    rintro before reason after rfl hend
    simp [step, Session.perform_invalidate_of_isTerminal hend]
  once := sent_run hsent hlate

theorem EndIsFinal.not_releasedLate (h : l.EndIsFinal steps) : ¬ l.ReleasedLate steps := by
  rintro ⟨before, after, hsteps, hinvalid⟩
  have hend := Session.isTerminal_iff.mpr (Or.inr hinvalid)
  obtain ⟨op, state, hrefused⟩ := h.refuses before .release after hsteps hend (by simp)
  rw [Session.perform_release_of_invalid hinvalid] at hrefused
  cases hrefused

end SessionLife

/-- The end of a session is final on every run on which no invalid session is released, and on no
other. -/
theorem end_final_iff_not_released_late (s : Session) (steps : List LifeStep) :
    let l : SessionLife := { session := s }
    l.EndIsFinal steps ↔ ¬ l.ReleasedLate steps :=
  ⟨SessionLife.EndIsFinal.not_releasedLate, SessionLife.endIsFinal rfl⟩

/-- A session that became invalid is released after that. -/
theorem invalid_session_released_again :
    ∃ s files handles,
      Session.create {} none 1 ⟨.render .music, {}, 1000, 16, 4⟩ ∅ {} = (.ok s, files, handles) ∧
      ¬ SessionLife.EndIsFinal { session := { s with reports := true } }
        [.call (.invalidate "gone"), .call .release] := by
  refine ⟨_, _, _, rfl, fun h => h.not_releasedLate ⟨[.call (.invalidate "gone")], [], ?_, ?_⟩⟩
  · rfl
  · rfl

end Patchbay
