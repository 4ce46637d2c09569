import Patchbay.Proofs.Route.ChangeCoverage
import Patchbay.Proofs.Session.RegistryRuns
import Patchbay.Route.Switchboard

/-!
# Sweeps over the registered sessions

What the handling of one change does to the entries of a switchboard. An entry is in order if
its session is bound to its device and it is either routed as the roster is now or still waits
for a later change. A sweep brings every entry in order that waited for the change at hand, and
gives up those whose session has ended. What owners are told is left out.
-/
namespace Patchbay

namespace RouteEntry

/-- The entry is for session `id`, which as long as it lives is bound to the device of the
entry. -/
def BoundIn (e : RouteEntry) (reg : Registry) (id : Nat) : Prop :=
  ∃ s, reg.any? id = some s ∧ s.intent = e.intent ∧ s.config.uid = e.uid ∧
    (¬ s.isTerminal → s.device = e.decision.device)

/-- The entry is routed as the roster is now. -/
def PlacedBy (e : RouteEntry) (cs : RouteChains) (r : Roster) : Prop :=
  e.decision.device.SamePlace (cs.route r e.intent e.uid)

/-- One of the changes concerns the entry. -/
def Awaits (e : RouteEntry) (changes : List DeviceChange) : Prop :=
  ∃ c ∈ changes, c.touchesRole e.intent.role

end RouteEntry

/-- All entries are in order while `changes` have not been handled. -/
structure Switchboard.Follows (b : Switchboard) (cs : RouteChains) (r : Roster) (reg : Registry)
    (changes : List DeviceChange) : Prop where
  chains : b.chains = cs
  bound : ∀ id e, b.entries.get? id = some e → e.BoundIn reg id
  placed : ∀ id e, b.entries.get? id = some e → e.Awaits changes ∨ e.PlacedBy cs r

variable {b : Switchboard} {cs : RouteChains} {r : Roster} {reg reg' : Registry} {id : Nat}
variable {e : RouteEntry} {s : Session} {changes later : List DeviceChange} {d : Device}

/-- A binding fails if the session has ended, and then it has no effect. -/
theorem Registry.apply_bind (hr : reg.Numbered) (hs : reg.any? id = some s) (d : Device) :
    ∃ s', reg.Replaces (reg.apply id (·.bind d)).2 id s' ∧ s'.id = id ∧ s'.config = s.config ∧
      ((∃ error, (reg.apply id (·.bind d)).1 = .error error ∧ s' = s) ∨
        (reg.apply id (·.bind d)).1 = .ok s.device ∧ s'.device = d) := by
  have hid := (hr id s hs).1
  have happly : reg.apply id (·.bind d) = ((s.bind d).1, reg.store (s.bind d).2) := by
    unfold Registry.apply
    rw [hs]
  rw [happly]
  have hreplaces := reg.store_replaces (s.bind d).2
  by_cases hend : s.isTerminal
  · have hbind : s.bind d = (.error (s.illegal "bind_device"), s) := by
      rw [Session.bind, if_pos hend]
    rw [hbind, hid] at hreplaces
    rw [hbind]
    exact ⟨s, hreplaces, hid, rfl, Or.inl ⟨_, rfl, rfl⟩⟩
  · obtain ⟨hanswer, hid', hconfig, hdevice⟩ := Session.bind_of_not_isTerminal hend d
    rw [hid'.trans hid] at hreplaces
    exact ⟨(s.bind d).2, hreplaces, hid'.trans hid, hconfig, Or.inr ⟨hanswer, hdevice⟩⟩

theorem Registry.Replaces.boundIn (h : reg.Replaces reg' id s) (hintent : s.intent = e.intent)
    (huid : s.config.uid = e.uid) (hdevice : s.device = e.decision.device) : e.BoundIn reg' id :=
  ⟨s, by rw [h.any?, if_pos rfl], hintent, huid, fun _ => hdevice⟩

theorem RouteEntry.BoundIn.continues (h : e.BoundIn reg id) (hreg : reg.Continues reg') :
    e.BoundIn reg' id := by
  obtain ⟨s, hs, hintent, huid, hdevice⟩ := h
  obtain ⟨s', hs', hnext⟩ := hreg id s hs
  refine ⟨s', hs', ?_, ?_, fun hlive => ?_⟩
  · rw [Session.intent, hnext.config]
    exact hintent
  · rw [hnext.config]
    exact huid
  · rw [hnext.device]
    exact hdevice fun hend => hlive (hnext.ended hend)

/-- The entries of other sessions are bound as before, so all are if the new one is. -/
theorem Registry.Replaces.boundIn_put {entries : Table Nat RouteEntry}
    (hreg : reg.Replaces reg' id s)
    (h : ∀ id e, entries.get? id = some e → e.BoundIn reg id) (he : e.BoundIn reg' id) :
    ∀ id' e', (entries.put id e).get? id' = some e' → e'.BoundIn reg' id' := by
  intro id' e' hget
  rcases Table.get?_put_cases hget with ⟨rfl, rfl⟩ | ⟨hne, hget⟩
  · exact he
  · obtain ⟨t, ht, hbound⟩ := h id' e' hget
    refine ⟨t, ?_, hbound⟩
    rw [hreg.any?, if_neg hne.symm]
    exact ht

namespace Switchboard

@[simp]
theorem chains_noteOutput (b : Switchboard) (i : StreamIntent) (d : Device) :
    (b.noteOutput i d).chains = b.chains := by
  unfold noteOutput
  split <;> rfl

@[simp]
theorem entries_noteOutput (b : Switchboard) (i : StreamIntent) (d : Device) :
    (b.noteOutput i d).entries = b.entries := by
  unfold noteOutput
  split <;> rfl

/-- What holds in the middle of a sweep that has still to visit the entries `rest`. -/
structure Sweep.Follows (w : Sweep) (cs : RouteChains) (r : Roster) (later : List DeviceChange)
    (rest : List (Nat × RouteEntry)) : Prop where
  chains : w.board.chains = cs
  numbered : w.registry.Numbered
  bound : ∀ id e, w.board.entries.get? id = some e → e.BoundIn w.registry id
  unvisited : ∀ id e, (id, e) ∈ rest → w.board.entries.get? id = some e
  visited : ∀ id e, w.board.entries.get? id = some e →
    (id, e) ∈ rest ∨ id ∈ w.dead.map (·.1) ∨ e.Awaits later ∨ e.PlacedBy cs r

variable {w : Sweep} {change : DeviceChange} {rest : List (Nat × RouteEntry)}

theorem Sweep.Follows.skip (h : w.Follows cs r later ((id, e) :: rest))
    (he : e.Awaits later ∨ e.PlacedBy cs r) : w.Follows cs r later rest where
  chains := h.chains
  numbered := h.numbered
  bound := h.bound
  unvisited := fun id' e' hmem => h.unvisited id' e' (List.mem_cons_of_mem _ hmem)
  visited := by
    intro id' e' hget
    rcases h.visited id' e' hget with hmem | hother
    · rcases List.mem_cons.mp hmem with heq | hmem
      · cases heq
        exact Or.inr (Or.inr he)
      · exact Or.inl hmem
    · exact Or.inr hother

theorem Sweep.Follows.give (h : w.Follows cs r later ((id, e) :: rest)) {reason : String}
    (hnumbered : reg'.Numbered) (hreg : w.registry.Continues reg') :
    Sweep.Follows { w with registry := reg', dead := w.dead ++ [(id, reason)] } cs r later
      rest where
  chains := h.chains
  numbered := hnumbered
  bound := fun id' e' hget => (h.bound id' e' hget).continues hreg
  unvisited := fun id' e' hmem => h.unvisited id' e' (List.mem_cons_of_mem _ hmem)
  visited := by
    intro id' e' hget
    dsimp only
    rw [List.map_append, List.mem_append]
    rcases h.visited id' e' hget with hmem | hdead | hplaced
    · rcases List.mem_cons.mp hmem with heq | hmem
      · cases heq
        exact Or.inr (Or.inl (Or.inr List.mem_cons_self))
      · exact Or.inl hmem
    · exact Or.inr (Or.inl (Or.inl hdead))
    · exact Or.inr (Or.inr hplaced)

/-- The session of the entry was bound to where it is routed now. -/
theorem Sweep.Follows.move (h : w.Follows cs r later ((id, e) :: rest))
    (hdistinct : id ∉ rest.map (·.1)) (e' : RouteEntry) {s' : Session} {b : Switchboard}
    {moved : Nat} (hnumbered : reg'.Numbered) (hreg : w.registry.Replaces reg' id s')
    (hbound : e'.BoundIn reg' id) (hplaced : e'.PlacedBy cs r) (hchains : b.chains = cs)
    (hentries : b.entries = w.board.entries.put id e') :
    Sweep.Follows { w with registry := reg', moved := moved, board := b } cs r later rest where
  chains := hchains
  numbered := hnumbered
  bound := by
    rw [hentries]
    exact hreg.boundIn_put h.bound hbound
  unvisited := by
    intro id' e' hmem
    have hne : ¬ id = id' := by
      intro hsame
      subst hsame
      exact hdistinct (List.mem_map_of_mem (f := Prod.fst) hmem)
    rw [hentries, Table.get?_put, if_neg (by simpa using hne)]
    exact h.unvisited id' e' (List.mem_cons_of_mem _ hmem)
  visited := by
    intro id' t hget
    rw [hentries] at hget
    rcases Table.get?_put_cases hget with ⟨rfl, rfl⟩ | ⟨hne, hget⟩
    · exact Or.inr (Or.inr (Or.inr hplaced))
    · rcases h.visited id' t hget with hmem | hother
      · rcases List.mem_cons.mp hmem with heq | hmem
        · cases heq
          exact absurd rfl hne
        · exact Or.inl hmem
      · exact Or.inr hother

theorem Sweep.Follows.visit (h : w.Follows cs r later ((id, e) :: rest))
    (hdistinct : id ∉ rest.map (·.1)) (he : e.Awaits (change :: later) ∨ e.PlacedBy cs r) :
    (w.visit r change (id, e)).Follows cs r later rest := by
  unfold Sweep.visit
  dsimp only
  by_cases htouches : change.touchesRole e.intent.role
  · rw [if_neg (by simp [htouches]), h.chains]
    by_cases hsame : (cs.route r e.intent e.uid).SamePlace e.decision.device
    · rw [if_pos (by simpa [Device.SamePlace] using hsame)]
      exact h.skip (Or.inr hsame.symm)
    · rw [if_neg (by simpa [Device.SamePlace] using hsame)]
      obtain ⟨s, hs, hintent, huid, -⟩ := h.bound id e (h.unvisited id e List.mem_cons_self)
      obtain ⟨s', hreg, hid, hconfig, hanswer⟩ :=
        Registry.apply_bind h.numbered hs (cs.route r e.intent e.uid)
      have hnumbered := hreg.numbered h.numbered hs hid
      generalize w.registry.apply id (·.bind (cs.route r e.intent e.uid)) = outcome at *
      obtain ⟨answer, reg'⟩ := outcome
      dsimp only at hreg hnumbered hanswer
      rcases hanswer with ⟨error, rfl, hsame'⟩ | ⟨rfl, hdevice⟩
      · rw [hsame'] at hreg
        exact h.give hnumbered (hreg.continues hs (.refl s))
      · refine h.move hdistinct ⟨e.intent, e.uid, ⟨cs.route r e.intent e.uid, change.generation⟩⟩
          hnumbered hreg (hreg.boundIn ?_ ?_ hdevice) ?_ ?_ ?_
        · rw [Session.intent, hconfig]
          exact hintent
        · rw [hconfig]
          exact huid
        · exact Device.samePlace_refl _
        · rw [chains_noteOutput]
          exact h.chains
        · rw [entries_noteOutput]
  · rw [if_pos (by simp [htouches])]
    refine h.skip (he.imp_left ?_)
    rintro ⟨c, hc, hcrole⟩
    rcases List.mem_cons.mp hc with rfl | hc
    · exact absurd hcrole htouches
    · exact ⟨c, hc, hcrole⟩

theorem Sweep.Follows.foldl (h : w.Follows cs r later rest) (change : DeviceChange)
    (hdistinct : (rest.map (·.1)).Nodup)
    (hrest : ∀ e ∈ rest, e.2.Awaits (change :: later) ∨ e.2.PlacedBy cs r) :
    (rest.foldl (Sweep.visit r change) w).Follows cs r later [] := by
  -- A visit changes no entry but its own, so those to come are still as they were listed.
  induction rest generalizing w with
  | nil => exact h
  | cons e rest ih =>
      obtain ⟨hnot, hdistinct⟩ := List.nodup_cons.mp hdistinct
      have hvisit := h.visit hnot (hrest e List.mem_cons_self)
      exact ih hvisit hdistinct fun e he => hrest e (List.mem_cons_of_mem _ he)

@[simp]
theorem entries_tearDown (b : Switchboard) (id : Nat) (reason : String) :
    (b.tearDown id reason).entries = b.entries.erase id := rfl

theorem foldl_tearDown (b : Switchboard) (dead : List (Nat × String)) :
    let b' := dead.foldl (fun b (id, reason) => b.tearDown id reason) b
    b'.chains = b.chains ∧
      ∀ id e, b'.entries.get? id = some e →
        b.entries.get? id = some e ∧ id ∉ dead.map (·.1) := by
  induction dead generalizing b with
  | nil => exact ⟨rfl, fun id e h => ⟨h, List.not_mem_nil⟩⟩
  | cons head dead ih =>
      obtain ⟨hchains, hentries⟩ := ih (b.tearDown head.1 head.2)
      refine ⟨hchains, fun id e h => ?_⟩
      obtain ⟨hget, hdead⟩ := hentries id e h
      rw [entries_tearDown] at hget
      obtain ⟨hne, hget⟩ := Table.get?_of_get?_erase hget
      refine ⟨hget, fun hmem => ?_⟩
      rcases List.mem_cons.mp hmem with hsame | hmem
      · exact hne hsame
      · exact hdead hmem

/-- Handling the first of the changes brings in order all that waited for it alone. -/
theorem Follows.handleChange (h : b.Follows cs r reg (change :: later)) (hr : reg.Numbered) :
    (b.handleChange r reg change).2.1.Follows cs r (b.handleChange r reg change).2.2 later ∧
      (b.handleChange r reg change).2.2.Numbered := by
  have hstart : Sweep.Follows { board := b, registry := reg } cs r later b.entries.toList :=
    { chains := h.chains
      numbered := hr
      bound := h.bound
      unvisited := fun id e hmem => Table.get?_eq_some_iff.mpr hmem
      visited := fun id e hget => Or.inl (Table.get?_eq_some_iff.mp hget) }
  have hend := hstart.foldl change b.entries.distinct fun e he =>
    h.placed e.1 e.2 (Table.get?_eq_some_iff.mpr he)
  unfold Switchboard.handleChange
  generalize b.entries.toList.foldl (Sweep.visit r change)
    { board := b, registry := reg } = w at hend ⊢
  obtain ⟨hchains, hentries⟩ := foldl_tearDown w.board w.dead
  dsimp only at hchains hentries ⊢
  generalize w.dead.foldl (fun b (id, reason) => b.tearDown id reason) w.board = b' at *
  have hfollows : b'.Follows cs r w.registry later :=
    { chains := hchains.trans hend.chains
      bound := fun id e hget => hend.bound id e (hentries id e hget).1
      placed := by
        intro id e hget
        obtain ⟨hget, hlive⟩ := hentries id e hget
        rcases hend.visited id e hget with hnil | hdead | hplaced
        · cases hnil
        · exact absurd hdead hlive
        · exact hplaced }
  refine ⟨?_, hend.numbered⟩
  split
  · exact { hfollows with }
  · exact hfollows

end Switchboard
end Patchbay
