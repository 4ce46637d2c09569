import Patchbay.Proofs.Route.Sweeps
import Patchbay.Proofs.Session.Endings

/-!
# Visits

What the visit of one entry may come to, once for all that is proved of sweeps: the entry is left
alone, its session refuses the device and is given up, or it moves and its owner is told. What
holds after each of these, and after the tearing down of a session that has ended, holds after a
change was handled.
-/
namespace Patchbay

variable {s : Session} {reg reg' : Registry} {id : Nat} {d : Device} {error : StreamError}

theorem Session.isTerminal_of_bind (h : (s.bind d).1 = .error error) : s.isTerminal := by
  refine Decidable.byContradiction fun hlive => ?_
  rw [(Session.bind_of_not_isTerminal hlive d).1] at h
  cases h

theorem Registry.apply_of_any? {α : Type} (hs : reg.any? id = some s)
    (op : Session → Except StreamError α × Session) :
    reg.apply id op = ((op s).1, reg.store (op s).2) := by
  rw [Registry.apply, hs]

theorem Registry.not_isTerminal_of_apply_bind {previous : Device} (hs : reg.any? id = some s)
    (h : (reg.apply id (·.bind d)).1 = .ok previous) : ¬ s.isTerminal := by
  intro hend
  rw [reg.apply_of_any? hs] at h
  have hbind : s.bind d = (.error (s.illegal "bind_device"), s) := by
    rw [Session.bind, if_pos hend]
  rw [hbind] at h
  cases h

/-- After a refused device the session, if there is one, has ended. -/
theorem Registry.isTerminal_of_apply_bind (hr : reg.Numbered)
    (h : (reg.apply id (·.bind d)).1 = .error error) :
    ∀ s, (reg.apply id (·.bind d)).2.any? id = some s → s.isTerminal := by
  intro s' hs'
  obtain ⟨s, hs, hgoes⟩ := (reg.apply_goesOn hr id fun s => s.goesOn_bind d).only id s' hs'
  rw [reg.apply_of_any? hs] at h
  exact hgoes.isTerminal.trans (Session.isTerminal_of_bind h)

namespace Switchboard

variable {b : Switchboard} {r : Roster} {change : DeviceChange} {w w' : Sweep} {e : RouteEntry}
variable {rest : List (Nat × RouteEntry)}

@[simp]
theorem board_noteOutput (b : Switchboard) (i : StreamIntent) (d : Device) :
    (b.noteOutput i d).board = b.board := by
  unfold noteOutput
  split <;> rfl

/-- What the visit of the entry `e` of session `id` may come to. -/
inductive Sweep.Visits (w : Sweep) (id : Nat) (e : RouteEntry) : Sweep → Prop
  | skip : Visits w id e w
  | give (d : Device) (error : StreamError) (reason : String)
      (refused : (w.registry.apply id (·.bind d)).1 = .error error) :
      Visits w id e { w with
        registry := (w.registry.apply id (·.bind d)).2
        dead := w.dead ++ [(id, reason)] }
  | move (d previous : Device) (generation : Nat) (moved : ¬ e.decision.device.SamePlace d)
      (bound : (w.registry.apply id (·.bind d)).1 = .ok previous) :
      Visits w id e { w with
        registry := (w.registry.apply id (·.bind d)).2
        moved := w.moved + 1
        board := { w.board.noteOutput e.intent d with
          entries := w.board.entries.put id { e with decision := ⟨d, generation⟩ }
          board := (w.board.board.notify id (.deviceChanged id e.decision.device d)).2 } }

theorem Sweep.visits_visit (r : Roster) (change : DeviceChange) (w : Sweep) (id : Nat)
    (e : RouteEntry) : w.Visits id e (w.visit r change (id, e)) := by
  unfold Sweep.visit
  dsimp only
  split
  · exact .skip
  · split
    · exact .skip
    · rename_i hmoved
      generalize w.board.chains.route r e.intent e.uid = d at hmoved ⊢
      have hplace : ¬ e.decision.device.SamePlace d := by
        intro hsame
        exact hmoved (by simpa [Device.SamePlace] using hsame.symm)
      cases hbind : w.registry.apply id (·.bind d) with
      | mk answer reg' =>
          have hreg : reg' = (w.registry.apply id (·.bind d)).2 := by rw [hbind]
          cases answer with
          | error error =>
              rw [hreg]
              exact .give d error _ (by rw [hbind])
          | ok previous =>
              rw [hreg]
              dsimp only
              rw [entries_noteOutput, board_noteOutput]
              exact .move d previous change.generation hplace (by rw [hbind])

theorem Sweep.Visits.goesOn (h : w.Visits id e w') (hr : w.registry.Numbered) :
    w.registry.GoesOn w'.registry := by
  cases h with
  | skip => exact .refl _
  | give d => exact w.registry.apply_goesOn hr id fun s => s.goesOn_bind d
  | move d => exact w.registry.apply_goesOn hr id fun s => s.goesOn_bind d

/-- What holds in the middle of a sweep that has still to visit the entries `rest`. -/
structure Sweep.Underway (w : Sweep) (rest : List (Nat × RouteEntry)) : Prop where
  numbered : w.registry.Numbered
  /-- The entries to come are as they were listed. -/
  current : ∀ p ∈ rest, w.board.entries.get? p.1 = some p.2
  ended : ∀ p ∈ w.dead, ∀ s, w.registry.any? p.1 = some s → s.isTerminal

theorem Sweep.Underway.visit (h : w.Underway ((id, e) :: rest)) (hvisit : w.Visits id e w')
    (hdistinct : id ∉ rest.map (·.1)) : w'.Underway rest where
  numbered := (hvisit.goesOn h.numbered).numbered h.numbered
  current := by
    intro p hp
    have hold := h.current p (List.mem_cons_of_mem _ hp)
    cases hvisit with
    | skip => exact hold
    | give => exact hold
    | move =>
        have hne : ¬ id == p.1 := by
          intro hsame
          rw [eq_of_beq hsame] at hdistinct
          exact hdistinct (List.mem_map_of_mem hp)
        dsimp only
        rw [Table.get?_put, if_neg hne]
        exact hold
  ended := by
    have hold : ∀ p ∈ w.dead, ∀ s, w'.registry.any? p.1 = some s → s.isTerminal := by
      intro p hp s' hs'
      obtain ⟨s, hs, hgoes⟩ := (hvisit.goesOn h.numbered).only p.1 s' hs'
      exact hgoes.isTerminal.trans (h.ended p hp s hs)
    cases hvisit with
    | skip => exact hold
    | give d error reason refused =>
        intro p hp
        rcases List.mem_append.mp hp with hp | hp
        · exact hold p hp
        · rw [List.mem_singleton] at hp
          subst hp
          exact w.registry.isTerminal_of_apply_bind h.numbered refused
    | move => exact hold

theorem Sweep.Underway.visit_induction {P : Switchboard → Registry → Prop} (r : Roster)
    (change : DeviceChange)
    (hvisit : ∀ (w w' : Sweep) (id : Nat) (e : RouteEntry), w.registry.Numbered →
      P w.board w.registry → w.board.entries.get? id = some e → w.Visits id e w' →
      P w'.board w'.registry)
    {rest : List (Nat × RouteEntry)} {w : Sweep} (hdistinct : (rest.map (·.1)).Nodup)
    (hw : w.Underway rest) (hp : P w.board w.registry) :
    (rest.foldl (Sweep.visit r change) w).Underway [] ∧
      P (rest.foldl (Sweep.visit r change) w).board
        (rest.foldl (Sweep.visit r change) w).registry := by
  induction rest generalizing w with
  | nil => exact ⟨hw, hp⟩
  | cons head rest ih =>
      obtain ⟨hnot, hdistinct⟩ := List.nodup_cons.mp hdistinct
      have hhead := Sweep.visits_visit r change w head.1 head.2
      exact ih hdistinct (hw.visit hhead hnot)
        (hvisit w _ head.1 head.2 hw.numbered hp (hw.current head List.mem_cons_self) hhead)

theorem tearDown_induction {P : Switchboard → Registry → Prop}
    (hdead : ∀ (b : Switchboard) (reg : Registry) (id : Nat) (reason : String), P b reg →
      (∀ s, reg.any? id = some s → s.isTerminal) → P (b.tearDown id reason) reg)
    (dead : List (Nat × String))
    (hended : ∀ p ∈ dead, ∀ s, reg.any? p.1 = some s → s.isTerminal) (hp : P b reg) :
    P (dead.foldl (fun b p => b.tearDown p.1 p.2) b) reg := by
  induction dead generalizing b with
  | nil => exact hp
  | cons head dead ih =>
      refine ih (fun p hp => hended p (List.mem_cons_of_mem _ hp)) ?_
      exact hdead b reg head.1 head.2 hp (hended head List.mem_cons_self)

/-- What each visit preserves, and the tearing down of a session that has ended, the handling of
a change preserves. -/
theorem handleChange_induction {P : Switchboard → Registry → Prop} (r : Roster)
    (change : DeviceChange) (hr : reg.Numbered) (h : P b reg)
    (hvisit : ∀ (w w' : Sweep) (id : Nat) (e : RouteEntry), w.registry.Numbered →
      P w.board w.registry → w.board.entries.get? id = some e → w.Visits id e w' →
      P w'.board w'.registry)
    (hdead : ∀ (b : Switchboard) (reg : Registry) (id : Nat) (reason : String), P b reg →
      (∀ s, reg.any? id = some s → s.isTerminal) → P (b.tearDown id reason) reg)
    (houtput : ∀ (b : Switchboard) (reg : Registry) (d : Device), P b reg →
      P { b with activeOutput := d } reg) :
    P (b.handleChange r reg change).2.1 (b.handleChange r reg change).2.2 := by
  have hbegin : Sweep.Underway { board := b, registry := reg } b.entries.toList := {
    numbered := hr
    current := fun p hp => Table.get?_eq_some_iff.mpr hp
    ended := fun p hp => absurd hp List.not_mem_nil }
  obtain ⟨hend, hp⟩ := hbegin.visit_induction r change hvisit b.entries.distinct h
  have hdone := tearDown_induction hdead _ hend.ended hp
  unfold handleChange
  dsimp only
  split
  · exact houtput _ _ _ hdone
  · exact hdone

theorem handleChange_goesOn (b : Switchboard) (hr : reg.Numbered) (r : Roster)
    (change : DeviceChange) : reg.GoesOn (b.handleChange r reg change).2.2 :=
  handleChange_induction (P := fun _ reg' => reg.GoesOn reg') r change hr (.refl reg)
    (fun _ _ _ _ hr hgoes _ hvisit => hgoes.trans (hvisit.goesOn hr))
    (fun _ _ _ _ hgoes _ => hgoes)
    (fun _ _ _ hgoes => hgoes)

end Switchboard
end Patchbay
