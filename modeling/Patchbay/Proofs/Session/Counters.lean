import Patchbay.Proofs.Session.Accounts

/-!
# What the counters of a registry tell

The generation of a registry shows whether its list may have changed, and the epoch of a session
whether it may have been bound to another device. Both only ever grow, and they are numbers without
a bound, so neither comes round: where a counter stands as before, so does what it counts.
-/
namespace Patchbay

/-- A later time of the session. A device that was changed in between shows in the epoch. -/
structure Session.Marks (s s' : Session) : Prop where
  id : s'.id = s.id
  config : s'.config = s.config
  epoch : s.epoch ≤ s'.epoch
  device : s'.epoch = s.epoch → s'.device = s.device

/-- The registry at a later time. A list that was changed in between shows in the generation. -/
structure Registry.Marks (r r' : Registry) : Prop where
  generation : r.generation ≤ r'.generation
  listed : r'.generation = r.generation → r'.listed = r.listed
  sessions : ∀ id s, r.any? id = some s → ∃ s', r'.any? id = some s' ∧ s.Marks s'

namespace Session

variable {s s' : Session} {c : SessionCall}

theorem Marks.refl (s : Session) : s.Marks s :=
  ⟨rfl, rfl, Nat.le_refl _, fun _ => rfl⟩

theorem Keeps.marks (h : s.Keeps s') (hepoch : s'.epoch = s.epoch) : s.Marks s' :=
  ⟨h.id, h.config, Nat.le_of_eq hepoch.symm, fun _ => h.device⟩

theorem epoch_flushRing (s : Session) : s.flushRing.2.epoch = s.epoch := by
  unfold flushRing
  split <;> rfl

theorem epoch_pause (s : Session) (discard : Bool) : (s.pause discard).2.epoch = s.epoch := by
  unfold pause
  split
  · dsimp only
    have hflush := epoch_flushRing { s with state := .paused }
    split
    · split
      · rename_i hok
        rw [hok] at hflush
        exact hflush
      · rename_i herror
        rw [herror] at hflush
        exact hflush
    · rfl
  · rfl

theorem epoch_perform (s : Session) (hc : ∀ d, c ≠ .bind d) :
    (s.perform c).2.1.epoch = s.epoch := by
  cases c with
  | bind d => exact absurd rfl (hc d)
  | pause discard => exact s.epoch_pause discard
  | info => rfl
  | resolve =>
      show s.resolve.2.epoch = s.epoch
      unfold resolve
      split
      · rfl
      · split <;> rfl
  | start =>
      show s.start.2.epoch = s.epoch
      unfold start
      split
      · split <;> rfl
      · split <;> rfl
      · rfl
  | resume =>
      show s.resume.2.epoch = s.epoch
      unfold resume
      split
      · split <;> rfl
      · rfl
  | stop =>
      show s.stop.2.epoch = s.epoch
      unfold stop
      dsimp only
      split
      · rfl
      · rfl
      · split <;> rfl
      · rfl
  | flush =>
      show s.flush.2.epoch = s.epoch
      unfold flush
      split
      · exact s.epoch_flushRing
      · exact s.epoch_flushRing
      · rfl
  | release =>
      show s.release.2.1.epoch = s.epoch
      unfold release
      split <;> rfl
  | invalidate reason =>
      show (s.invalidate reason).1.epoch = s.epoch
      unfold invalidate
      split <;> rfl
  | write frame t =>
      show (s.write frame t).2.epoch = s.epoch
      unfold write
      split
      · rfl
      · split <;> rfl
  | read want =>
      show (s.read want).2.epoch = s.epoch
      unfold read
      split
      · rfl
      · split <;> rfl

theorem marks_bind (s : Session) (d : Device) : s.Marks (s.bind d).2 := by
  by_cases hend : s.isTerminal
  · rw [bind, if_pos hend]
    exact .refl s
  · obtain ⟨-, hid, hconfig, hdevice⟩ := bind_of_not_isTerminal hend d
    have hepoch : (s.bind d).2.epoch = if s.device = d then s.epoch else s.epoch + 1 := by
      rw [bind, if_neg hend]
      dsimp only
      split
      · split <;> rfl
      · split <;> rfl
    by_cases hsame : s.device = d
    · rw [if_pos hsame] at hepoch
      exact ⟨hid, hconfig, Nat.le_of_eq hepoch.symm, fun _ => hdevice.trans hsame.symm⟩
    · rw [if_neg hsame] at hepoch
      refine ⟨hid, hconfig, by omega, fun hstays => ?_⟩
      omega

theorem marks_perform (s : Session) (c : SessionCall) : s.Marks (s.perform c).2.1 := by
  by_cases hbind : ∃ d, c = .bind d
  · obtain ⟨d, hc⟩ := hbind
    rw [hc]
    exact s.marks_bind d
  · have hc : ∀ d, c ≠ .bind d := fun d hd => hbind ⟨d, hd⟩
    exact (s.keeps_perform hc).marks (s.epoch_perform hc)

end Session

namespace Registry

variable {r r' : Registry} {id : Nat} {s : Session}

theorem Marks.refl (r : Registry) : r.Marks r :=
  ⟨Nat.le_refl _, fun _ => rfl, fun _ s hs => ⟨s, hs, .refl s⟩⟩

theorem create_marks (hr : r.Numbered) (config : StreamConfig) :
    r.Marks (r.create config).2 := by
  rcases r.create_cases config with hfailed | hmade
  · obtain ⟨e, files, hcreate⟩ := hfailed
    rw [hcreate]
    exact ⟨Nat.le_refl _, fun _ => rfl, fun _ s hs => ⟨s, hs, .refl s⟩⟩
  · obtain ⟨ring, files, -, hcreate⟩ := hmade
    rw [hcreate]
    refine ⟨Nat.le_succ _, fun hsame => absurd hsame (Nat.succ_ne_self _), fun id s hs => ?_⟩
    exact ⟨s, hr.get?_put_next.mpr (Or.inr hs), .refl s⟩

theorem perform_marks (hr : r.Numbered) (id : Nat) (c : SessionCall) :
    r.Marks (r.perform id c) := by
  obtain ⟨hlisted, hgeneration⟩ := r.listed_perform id c
  refine ⟨Nat.le_of_eq hgeneration.symm, fun _ => hlisted, fun id' t ht => ?_⟩
  cases hs : r.any? id with
  | none =>
      rw [perform_eq, hs]
      exact ⟨t, ht, .refl t⟩
  | some s =>
      rw [any?_perform hr hs c id']
      by_cases hsame : id = id'
      · rw [← hsame, hs] at ht
        cases ht
        exact ⟨_, if_pos hsame, Session.marks_perform _ c⟩
      · exact ⟨t, (if_neg hsame).trans ht, .refl t⟩

/-- What leaves number, configuration and device of a session alone does not show. -/
theorem modify_marks (r : Registry) (id : Nat) {f : Session → Session}
    (hf : ∀ s : Session, s.Keeps (f s) ∧ (f s).epoch = s.epoch) : r.Marks (r.modify id f) := by
  refine ⟨Nat.le_refl _, fun _ => rfl, fun id' s hs => ?_⟩
  rw [any?_modify, hs]
  by_cases hsame : id = id'
  · exact ⟨_, if_pos hsame, (hf s).1.marks (hf s).2⟩
  · exact ⟨s, if_neg hsame, .refl s⟩

theorem share_marks (r : Registry) (id : Nat) (ring : Ring) :
    r.Marks (r.step (.share id ring)) :=
  r.modify_marks id fun _ => ⟨⟨rfl, rfl, rfl⟩, rfl⟩

/-- A session that is removed was listed, so the list is another one. -/
theorem remove_marks (hr : r.Numbered) (id : Nat) : r.Marks (r.remove id).2 := by
  unfold remove
  split
  · exact .refl r
  · have hperform := perform_marks hr id .release
    have hgeneration := (r.listed_perform id .release).2
    refine ⟨Nat.le_trans hperform.generation (Nat.le_succ _), fun hsame => ?_, hperform.sessions⟩
    have hmore : (r.perform id .release).generation + 1 = r.generation := hsame
    omega

theorem reap_marks (r : Registry) : r.Marks r.reap.2 := by
  unfold reap
  dsimp only
  split
  · exact .refl r
  · exact ⟨Nat.le_succ _, fun hsame => absurd hsame (Nat.succ_ne_self _),
      fun _ s hs => ⟨s, hs, .refl s⟩⟩

theorem step_marks (hr : r.Numbered) (t : RegistryStep) : r.Marks (r.step t) := by
  cases t with
  | create config => exact create_marks hr config
  | call id c => exact perform_marks hr id c
  | share id ring => exact r.share_marks id ring
  | remove id => exact remove_marks hr id
  | reap => exact r.reap_marks

/-- Sessions are listed in the order of their numbers. -/
structure Ascending (r : Registry) : Prop where
  numbered : r.Numbered
  heard : r.Heard
  known : ∀ id ∈ r.listed, ∃ s, r.any? id = some s
  ascending : r.listed.Pairwise (· < ·)

/-- A step takes sessions off the list or puts a new one at its end. -/
theorem listed_step (r : Registry) (t : RegistryStep) :
    (r.step t).listed.Sublist r.listed ∨
      (r.step t).listed = r.listed ++ [r.nextId] ∧ ∃ s, (r.step t).any? r.nextId = some s := by
  cases t with
  | create config =>
      unfold step
      dsimp only
      rcases r.create_cases config with hfailed | hmade
      · obtain ⟨e, files, hcreate⟩ := hfailed
        rw [hcreate]
        exact Or.inl (List.Sublist.refl _)
      · obtain ⟨ring, files, -, hcreate⟩ := hmade
        rw [hcreate]
        exact Or.inr ⟨rfl, _, (Table.get?_put _ _ _ _).trans (if_pos (beq_self_eq_true _))⟩
  | call id c =>
      have hlisted : (r.step (.call id c)).listed = r.listed := (r.listed_perform id c).1
      exact Or.inl (hlisted ▸ List.Sublist.refl _)
  | share id ring => exact Or.inl (List.Sublist.refl _)
  | remove id =>
      refine Or.inl ?_
      show (r.remove id).2.listed.Sublist r.listed
      unfold remove
      split
      · exact List.Sublist.refl _
      · show ((r.perform id .release).listed.filter _).Sublist r.listed
        rw [(r.listed_perform id .release).1]
        exact List.filter_sublist
  | reap =>
      obtain ⟨generation, hreap⟩ := r.reap_eq
      refine Or.inl ?_
      rw [step, hreap]
      exact List.filter_sublist

theorem Ascending.step (h : r.Ascending) (t : RegistryStep) : (r.step t).Ascending := by
  obtain ⟨hnumbered, hheard, -⟩ := step_tells h.numbered h.heard t
  have hkept : ∀ id ∈ r.listed, ∃ s, (r.step t).any? id = some s := by
    intro id hid
    obtain ⟨s, hs⟩ := h.known id hid
    obtain ⟨s', hs', -⟩ := (step_marks h.numbered t).sessions id s hs
    exact ⟨s', hs'⟩
  rcases r.listed_step t with hsublist | hmore
  · exact ⟨hnumbered, hheard, fun id hid => hkept id (hsublist.subset hid),
      h.ascending.sublist hsublist⟩
  · obtain ⟨hlisted, hnew⟩ := hmore
    refine ⟨hnumbered, hheard, fun id hid => ?_, ?_⟩
    · rw [hlisted, List.mem_append, List.mem_singleton] at hid
      rcases hid with hold | hnext
      · exact hkept id hold
      · rw [hnext]
        exact hnew
    · rw [hlisted, List.pairwise_append]
      refine ⟨h.ascending, List.pairwise_singleton _ _, fun id hid next hnext => ?_⟩
      obtain ⟨s, hs⟩ := h.known id hid
      rw [List.mem_singleton.mp hnext]
      exact (h.numbered id s hs).2

/-- A listed session is the one that is found under its number. -/
theorem Numbered.any?_of_mem_all (hr : r.Numbered) (hs : s ∈ r.all) : r.any? s.id = some s := by
  obtain ⟨id, -, hany⟩ := List.mem_filterMap.mp hs
  rw [(hr id s hany).1]
  exact hany

theorem Ascending.ids_filter_all (h : r.Ascending) (meets : Session → Bool) :
    (r.all.filter meets).map (·.id) = r.listed.filter fun id => (r.any? id).any meets := by
  have hknown := h.known
  unfold all
  generalize r.listed = ids at hknown ⊢
  induction ids with
  | nil => rfl
  | cons id rest ih =>
      obtain ⟨s, hs⟩ := hknown id List.mem_cons_self
      have hid : s.id = id := (h.numbered id s hs).1
      have hrest := ih fun id' hid' => hknown id' (List.mem_cons_of_mem _ hid')
      rw [List.filterMap_cons, hs]
      dsimp only
      rw [List.filter_cons, List.filter_cons, hs, Option.any_some]
      cases meets s with
      | true => simpa [hid] using hrest
      | false => simpa using hrest

theorem Ascending.all_ascending (h : r.Ascending) : r.all.Pairwise fun s t => s.id < t.id := by
  have hids := h.ids_filter_all fun _ => true
  have hlisted : (r.listed.filter fun id => (r.any? id).any fun _ => true) = r.listed := by
    refine List.filter_eq_self.mpr fun id hid => ?_
    obtain ⟨s, hs⟩ := h.known id hid
    rw [hs]
    rfl
  rw [hlisted, List.filter_eq_self.mpr fun _ _ => rfl] at hids
  exact List.pairwise_map.mp (hids ▸ h.ascending)

end Registry
end Patchbay
