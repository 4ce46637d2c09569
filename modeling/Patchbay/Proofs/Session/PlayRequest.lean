import Patchbay.Proofs.Session.Calls

/-!
# Requests to play

A client asks to play with `start` and `resume` and takes that back with `pause` and `stop`. On
every run of calls, a session that has not ended runs, or waits for a device, exactly as long as
its client wants it to. Others may change the ring between the calls as they like.
-/
namespace Patchbay

/-- What a successful call tells of the wish of the client. -/
def SessionCall.wish : SessionCall → Option Bool
  | .start | .resume => some true
  | .pause _ | .stop => some false
  | _ => none

/-- A session, and whether its client wants it to play. -/
structure PlayRequest where
  session : Session
  wants : Bool := false

namespace PlayRequest

def step (p : PlayRequest) : SessionStep → PlayRequest
  | .call c =>
    let (answer, s, _) := p.session.perform c
    { session := s, wants := if answer.isOk then c.wish.getD p.wants else p.wants }
  | .share r => { p with session := { p.session with ring := r } }

def run (p : PlayRequest) (steps : List SessionStep) : PlayRequest :=
  steps.foldl step p

end PlayRequest

namespace Session

/-- The three ways to do what the client wants. -/
inductive Honours (s : Session) : Bool → Prop
  | waiting (hd : s.device.isNone) (hs : s.state = .prepared) (hp : s.isPending) : Honours s true
  | playing (hd : ¬ s.device.isNone) (hs : s.state = .running) (hp : ¬ s.isPending) :
      Honours s true
  | idle (hs : s.state ≠ .running) (hp : ¬ s.isPending) : Honours s false

variable {s s' : Session} {w : Bool}

theorem Honours.of_onlyMoves (h : s.Honours w) (hs : s.OnlyMoves s') : s'.Honours w := by
  cases h with
  | waiting hd hstate hp =>
      exact .waiting (by rw [hs.device, hd]) (hs.state.trans hstate) (by rw [hs.isPending, hp])
  | playing hd hstate hp =>
      exact .playing (by rw [hs.device]; exact hd) (hs.state.trans hstate)
        (by rw [hs.isPending]; exact hp)
  | idle hstate hp => exact .idle (by rw [hs.state]; exact hstate) (by rw [hs.isPending]; exact hp)

theorem Honours.resolve (h : s.Honours w) : s.resolve.2.Honours w := by
  unfold Session.resolve
  split
  · exact h
  · split
    · rename_i hnew
      cases h with
      | waiting hd hs hp => simp [hnew] at hs
      | playing hd hs hp => simp [hnew] at hs
      | idle hs hp => exact .idle (by simp) hp
    · exact h

theorem Honours.start (h : s.Honours w) :
    s.start.2.Honours (if s.start.1.isOk then true else w) := by
  unfold Session.start
  split
  · by_cases hd : s.device.isNone
    · rw [if_pos hd]
      exact .waiting hd rfl rfl
    · rw [if_neg hd]
      exact .playing hd rfl Bool.false_ne_true
  · by_cases hd : s.device.isNone
    · rw [if_pos hd]
      exact .waiting hd rfl rfl
    · rw [if_neg hd]
      exact .playing hd rfl Bool.false_ne_true
  · exact h

theorem Honours.pause (h : s.Honours w) (discard : Bool) :
    (s.pause discard).2.Honours (if (s.pause discard).1.isOk then false else w) := by
  unfold Session.pause
  split
  · rename_i hrunning
    cases h with
    | waiting hd hs hp => simp [hrunning] at hs
    | idle hs hp => exact absurd hrunning hs
    | playing hd hs hp =>
        have hpaused : ({ s with state := .paused } : Session).Honours false := .idle (by simp) hp
        dsimp only
        by_cases hdiscard : discard
        · rw [if_pos hdiscard]
          have hflush := onlyMoves_flushRing { s with state := .paused }
          split
          · rename_i hok
            rw [hok] at hflush
            exact hpaused.of_onlyMoves hflush
          · -- The flush failed, and the session plays on.
            rename_i herror
            rw [herror] at hflush
            refine .playing ?_ rfl ?_
            · rw [← hflush.device] at hd
              exact hd
            · rw [← hflush.isPending] at hp
              exact hp
        · rw [if_neg hdiscard]
          exact hpaused
  · exact h

theorem Honours.resume (h : s.Honours w) :
    s.resume.2.Honours (if s.resume.1.isOk then true else w) := by
  unfold Session.resume
  split
  · rename_i hpaused
    cases h with
    | waiting hd hs hp => simp [hpaused] at hs
    | playing hd hs hp => simp [hpaused] at hs
    | idle hs hp =>
        by_cases hd : s.device.isNone
        · rw [if_pos hd]
          exact .waiting hd rfl rfl
        · rw [if_neg hd]
          exact .playing hd rfl hp
  · exact h

theorem Honours.stop (h : s.Honours w) : s.stop.2.Honours (if s.stop.1.isOk then false else w) := by
  have hstopped : ({ s with isPending := false, state := .stopped } : Session).Honours false :=
    .idle (by simp) Bool.false_ne_true
  unfold Session.stop
  dsimp only
  split
  · exact hstopped
  · exact hstopped
  · split
    · exact hstopped
    · exact h
  · exact h

theorem Honours.bind (h : s.Honours w) (hlive : ¬ s.isTerminal) (d : Device) :
    (s.bind d).2.Honours w := by
  unfold Session.bind
  rw [if_neg hlive]
  dsimp only
  by_cases hd : d.isNone
  · rw [if_pos hd]
    cases h with
    | waiting hd' hs hp =>
        rw [if_neg (by simp [hs])]
        exact .waiting hd hs hp
    | playing hd' hs hp =>
        rw [if_pos hs]
        exact .waiting hd rfl rfl
    | idle hs hp =>
        rw [if_neg hs]
        exact .idle hs hp
  · rw [if_neg hd]
    cases h with
    | waiting hd' hs hp =>
        rw [if_pos (by simp [hs, hp])]
        exact .playing hd rfl Bool.false_ne_true
    | playing hd' hs hp =>
        rw [if_neg (by simp [hp])]
        exact .playing hd hs hp
    | idle hs hp =>
        rw [if_neg (by simp [hp])]
        exact .idle hs hp

end Session

namespace PlayRequest

variable {p : PlayRequest}

/-- What every step preserves: until the session has ended it does what its client wants. -/
def Kept (p : PlayRequest) : Prop :=
  p.session.isTerminal ∨ p.session.Honours p.wants

theorem Kept.of_same_wish {c : SessionCall} (hc : c.wish = none)
    (h : (p.session.perform c).2.1.Honours p.wants) : (p.step (.call c)).Kept := by
  refine Or.inr ?_
  show (p.session.perform c).2.1.Honours
    (if (p.session.perform c).1.isOk then c.wish.getD p.wants else p.wants)
  rw [hc, Option.getD_none, ite_self]
  exact h

theorem Kept.of_wish {c : SessionCall} {wish : Bool} (hc : c.wish = some wish)
    (h : (p.session.perform c).2.1.Honours
      (if (p.session.perform c).1.isOk then wish else p.wants)) : (p.step (.call c)).Kept := by
  refine Or.inr ?_
  show (p.session.perform c).2.1.Honours
    (if (p.session.perform c).1.isOk then c.wish.getD p.wants else p.wants)
  rw [hc, Option.getD_some]
  exact h

theorem isOk_going {α : Type} (f : α → SessionAnswer) (a : Except StreamError α × Session) :
    (Session.going f a).1.isOk = a.1.isOk := by
  obtain ⟨a, s⟩ := a
  cases a <;> rfl

theorem Kept.call (h : p.Kept) (c : SessionCall) : (p.step (.call c)).Kept := by
  -- The end of a session is final; before it, each call honours the wish that it leaves.
  by_cases hlive : p.session.isTerminal
  · exact Or.inl (Session.isTerminal_perform hlive c)
  have hs := h.resolve_left hlive
  cases c with
  | resolve => exact .of_same_wish rfl hs.resolve
  | start =>
      refine .of_wish rfl ?_
      rw [Session.perform, isOk_going]
      exact hs.start
  | pause discard =>
      refine .of_wish rfl ?_
      rw [Session.perform, isOk_going]
      exact hs.pause discard
  | resume =>
      refine .of_wish rfl ?_
      rw [Session.perform, isOk_going]
      exact hs.resume
  | stop =>
      refine .of_wish rfl ?_
      rw [Session.perform, isOk_going]
      exact hs.stop
  | flush => exact .of_same_wish rfl (hs.of_onlyMoves p.session.onlyMoves_flush)
  | bind d => exact .of_same_wish rfl (hs.bind hlive d)
  | release =>
      refine Or.inl ?_
      show p.session.release.2.1.isTerminal
      unfold Session.release
      split
      · rename_i hreleased
        exact Session.isTerminal_iff.mpr (Or.inl hreleased)
      · rfl
  | invalidate reason =>
      refine Or.inl ?_
      show (p.session.invalidate reason).1.isTerminal
      rw [Session.invalidate, if_neg hlive]
      rfl
  | write frame t => exact .of_same_wish rfl (hs.of_onlyMoves (p.session.onlyMoves_write frame t))
  | read want => exact .of_same_wish rfl (hs.of_onlyMoves (p.session.onlyMoves_read want))
  | info => exact .of_same_wish rfl hs

theorem Kept.step (h : p.Kept) (t : SessionStep) : (p.step t).Kept := by
  cases t with
  | call c => exact h.call c
  | share r => exact h.imp id fun hs => hs.of_onlyMoves ⟨⟨rfl, rfl, rfl⟩, rfl, rfl⟩

theorem Kept.run (h : p.Kept) (steps : List SessionStep) : (p.run steps).Kept := by
  induction steps generalizing p with
  | nil => exact h
  | cons t rest ih => exact ih (h.step t)

end PlayRequest

/-- A new session is idle, and its client has not asked it to play yet. -/
theorem Session.create_idle {host : Host} {home : Option RingHome} {id : Nat}
    {config : StreamConfig} {files files' : Directory} {handles handles' : HandleTable}
    {s : Session} (h : create host home id config files handles = (.ok s, files', handles')) :
    s.state = .new ∧ s.isPending = false := by
  unfold create at h
  split at h
  · cases h
  · split at h
    · cases h
    · dsimp only at h
      split at h
      · cases h
      · cases h
        exact ⟨rfl, rfl⟩

/-- A request to play is never lost and never made up. On every run from a new session, until it
has ended, it runs exactly if its client wants it to and a device is bound, and a start waits
exactly if its client wants it to and there is no device; else it is idle. -/
theorem play_request_kept {host : Host} {home : Option Session.RingHome} {id : Nat}
    {config : StreamConfig} {files files' : Directory} {handles handles' : HandleTable}
    {s : Session}
    (h : Session.create host home id config files handles = (.ok s, files', handles'))
    (reports : Bool) (steps : List SessionStep) :
    let p := PlayRequest.run ⟨{ s with reports := reports }, false⟩ steps
    ¬ p.session.isTerminal →
      (p.session.state = .running ↔ p.wants ∧ ¬ p.session.device.isNone) ∧
      (p.session.isPending ↔ p.wants ∧ p.session.device.isNone) ∧
      (p.session.isPending → p.session.state = .prepared) ∧
      (p.session.state ≠ .running → ¬ p.session.isPending →
        p.session.state ∈ [.new, .prepared, .paused, .stopped]) := by
  intro p hlive
  obtain ⟨hstate, hpending⟩ := Session.create_idle h
  have hidle : PlayRequest.Kept ⟨{ s with reports := reports }, false⟩ :=
    Or.inr (.idle (by simp [hstate]) (by simp [hpending]))
  have hother : p.session.state ≠ .running → ¬ p.session.isPending →
      p.session.state ∈ [.new, .prepared, .paused, .stopped] := by
    intro hs _
    rw [Session.isTerminal_iff] at hlive
    generalize p.session.state = state at hlive hs ⊢
    cases state <;> simp_all
  have hkept := (hidle.run steps).resolve_left hlive
  change p.session.Honours p.wants at hkept
  generalize hw : p.wants = w at hkept
  cases hkept with
  | waiting hd hs hp => exact ⟨by simp [hs, hd], by simp [hp, hd], fun _ => hs, hother⟩
  | playing hd hs hp => exact ⟨by simp [hs, hd], by simp [hp, hd], fun hc => absurd hc hp, hother⟩
  | idle hs hp => exact ⟨by simp [hs], by simp [hp], fun hc => absurd hc hp, hother⟩

theorem start_waits_after_device_loss :
    ∃ s files handles,
      Session.create {} none 1 ⟨.render .music, {}, 1000, 16, 4⟩ ∅ {} = (.ok s, files, handles) ∧
      let speaker : Device := { type := .speaker, role := .output, connectedAt := 1 }
      let p := PlayRequest.run ⟨{ s with reports := true }, false⟩
        [.call .resolve, .call (.bind speaker), .call .start, .call (.bind .none)]
      ¬ p.session.isTerminal ∧ p.session.isPending := by
  have hmade : Session.create {} none 1 ⟨.render .music, {}, 1000, 16, 4⟩ ∅ {} =
    (.ok _, _, _) := rfl
  refine ⟨_, _, _, hmade, ?_, ?_⟩
  · decide
  · refine (play_request_kept hmade true _ ?_).2.1.mpr ⟨?_, ?_⟩
    · decide
    · rfl
    · rfl

end Patchbay
