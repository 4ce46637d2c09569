import Patchbay.Proofs.Server.Confinement
import Patchbay.Proofs.Server.Runs

/-!
# Connections are isolated

Whatever has happened to a server, its clients and its devices: what a connection asks for, or its
loss, reaches no session but its own and those that it makes. To ask for a session of another is
like asking for one that was released or never made: the answer is the same and nothing happens.
-/
namespace Patchbay

/-- What may happen to a server, with all that goes on around it. -/
inductive ServerEvent where
  | step (t : ServerStep)
  /-- Anybody makes a request, linked or not. -/
  | ask (conn : Nat) (r : Wire.Request)
  /-- A mixer takes a span from a session. -/
  | take (id want : Nat)
  /-- A recorder queues a span in a session. -/
  | queue (id : Nat) (span : List UInt8) (timestamp : UInt64)
  /-- Changed settings are taken over. -/
  | reload (d : SettingsDiff) (new : Settings)

namespace Server

def meet (s : Server) : ServerEvent → Server
  | .step t => s.step t
  | .ask conn r => (s.handle conn r).2
  | .take id want => { s with station := (s.station.apply id (·.read want)).2 }
  | .queue id span timestamp =>
    { s with station := (s.station.apply id (·.write span timestamp)).2 }
  | .reload d new => { s with station := s.station.reload d new }

/-- The server after all of that has happened. -/
def after (s : Server) (events : List ServerEvent) : Server :=
  events.foldl meet s

variable {s : Server}

theorem Unused.sound (h : s.Unused) : s.Sound where
  registry := h.accounted.registry
  board := h.accounted.board
  owned := by
    intro conn id hid
    rw [sessionsOf, h.owners] at hid
    cases hid
  separate := by
    intro conn conn' id hid
    rw [sessionsOf, h.owners] at hid
    cases hid

theorem Sound.step (h : s.Sound) (t : ServerStep) : (s.step t).Sound := by
  cases t with
  | connect conn => exact { h with }
  | disconnect conn => exact (h.disconnect conn).sound
  | request conn r =>
      show (if s.isLinked conn then (s.handle conn r).2 else s).Sound
      split
      · exact (h.handle conn r).sound
      · exact h
  | devices t => cases t <;> exact h.steady (steady_of_station (.refl _) rfl)
  | change =>
      show Sound { s with station := s.station.nextChange.2 }
      unfold Station.nextChange
      split
      · exact h
      · rename_i change later hchanges
        have hgoes := s.station.board.handleChange_goesOn h.registry.numbered
          s.station.roster change
        exact h.later (h.registry.goesOn hgoes)
          (h.board.handleChange h.registry.numbered s.station.roster change)
          (hgoes.tells h.registry.numbered h.registry.heard).announces fun _ _ hid => hid
  | event =>
      show Sound { s with station := s.station.nextEvent.2 }
      unfold Station.nextEvent
      split
      · exact h
      · rename_i event later hevents
        exact { h with
          registry := { h.registry with
            announced := fun e he => h.registry.announced e (hevents ▸ List.mem_cons_of_mem _ he) }
          board := h.board.handleEvent hevents }
  | share id m =>
      refine h.steady (steady_of_station ?_ rfl)
      exact s.station.registry.modify_goesOn id fun session => ⟨rfl, rfl, rfl, rfl, rfl⟩
  | forward => exact h.steady (Steady.foldl steady_forward s.forwarders s)
  | readLine line | closeLine line => exact h.steady (s.steady_withLines _)

theorem Sound.meet (h : s.Sound) (e : ServerEvent) : (s.meet e).Sound := by
  have hr := h.registry.numbered
  cases e with
  | step t => exact h.step t
  | ask conn r => exact (h.handle conn r).sound
  | take id want =>
      exact h.steady (steady_of_station
        (s.station.registry.apply_goesOn hr id fun t => t.goesOn_read want) rfl)
  | queue id span timestamp =>
      exact h.steady (steady_of_station
        (s.station.registry.apply_goesOn hr id fun t => t.goesOn_write span timestamp) rfl)
  | reload d new =>
      refine h.steady ?_
      unfold Server.meet Station.reload
      dsimp only
      split
      · exact steady_of_station (.refl _) rfl
      · exact steady_of_station (VolumeDesk.push_goesOn _ _ _) rfl

theorem Sound.after (h : s.Sound) (events : List ServerEvent) : (s.after events).Sound := by
  induction events generalizing s with
  | nil => exact h
  | cons e later ih => exact ih (h.meet e)

end Server

/-- Connections are isolated, in whatever state a server has come to. The loss of a connection and
every request of it leave each session that it does not own alone: of its life, its device, its
ring, its counts and its handle nothing changes, nor who owns it, which is one connection at most;
only its volume may have been set. And to name such a session in a request has no effect at all
and always the same answer. -/
theorem connections_isolated {start : Server} (hstart : start.Unused) (events : List ServerEvent)
    (conn : Nat) :
    let s := start.after events
    (∀ id session s', s.station.registry.any? id = some session → id ∉ s.sessionsOf conn →
      s' = s.disconnect conn ∨ (∃ r, s' = (s.handle conn r).2) →
      (∃ controls, s'.station.registry.any? id = some { session with controls := controls }) ∧
        (id ∈ s'.station.registry.listed ↔ id ∈ s.station.registry.listed) ∧
        s'.station.registry.handles.entries.get? session.handle.id =
          s.station.registry.handles.entries.get? session.handle.id ∧
        ∀ conn', id ∈ s'.sessionsOf conn' ↔ id ∈ s.sessionsOf conn') ∧
    (∀ conn' id, id ∈ s.sessionsOf conn' → conn' ≠ conn → id ∉ s.sessionsOf conn) ∧
    ∀ r id, r.session? = some id → id ∉ s.sessionsOf conn →
      s.handle conn r = (.error .notFound, s) := by
  intro s
  have hsound : s.Sound := hstart.sound.after events
  refine ⟨fun id session s' hsession hid hdone => ?_, fun conn' id hid hne hown => ?_,
    fun r id hr hid => Server.handle_of_not_owned hr hid⟩
  · have hspares : s.Spares s' id := by
      rcases hdone with hlost | hasked
      · rw [hlost]
        exact (hsound.disconnect conn).spares id session hsession hid
      · obtain ⟨r, hr⟩ := hasked
        rw [hr]
        exact (hsound.handle conn r).spares id session hsession hid
    exact ⟨hspares.registry.session session hsession, hspares.registry.listed,
      hspares.registry.handle session hsession, hspares.owners⟩
  · exact hne (hsound.separate conn' conn id hid hown)

theorem neighbour_leaves_session_alone :
    let start : Server := { station := .vacant ∅ {} none }
    let config : StreamConfig := ⟨.render .music, {}, 1000, 16, 4⟩
    let s := start.after [.step (.connect 1), .step (.request 1 (.createSession config)),
      .ask 2 (.createSession config)]
    start.Unused ∧ s.handle 2 (.release 1) = (.error .notFound, s) ∧
      ((s.disconnect 2).station.registry.any? 2).map (·.state) = some .invalid ∧
      1 ∈ (s.disconnect 2).station.registry.listed ∧
      ∃ session controls, s.station.registry.any? 1 = some session ∧
        (s.disconnect 2).station.registry.any? 1 = some { session with controls := controls } := by
  intro start config s
  have hstart : start.Unused := ⟨⟨rfl, rfl⟩, rfl, rfl⟩
  have hid : 1 ∉ s.sessionsOf 2 := by decide +kernel
  have hlisted : 1 ∈ s.station.registry.listed := by decide +kernel
  have hmade : (s.station.registry.any? 1).isSome := by decide +kernel
  have hended : ((s.disconnect 2).station.registry.any? 2).map (·.state) = some .invalid := by
    decide +kernel
  obtain ⟨hspared, -, hrefused⟩ := connections_isolated hstart
    [.step (.connect 1), .step (.request 1 (.createSession config)),
      .ask 2 (.createSession config)] 2
  obtain ⟨session, hsession⟩ := Option.isSome_iff_exists.mp hmade
  obtain ⟨⟨controls, hsame⟩, hlist, -⟩ := hspared 1 session (s.disconnect 2) hsession hid (.inl rfl)
  exact ⟨hstart, hrefused (.release 1) 1 rfl hid, hended, hlist.mpr hlisted, session, controls,
    hsession, hsame⟩

end Patchbay
