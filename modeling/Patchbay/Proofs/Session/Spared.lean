import Patchbay.Level.Volume
import Patchbay.Proofs.Session.Accounts

/-!
# What others are spared

Whatever is done to one session, another keeps all that it has but its volume, which the desk sets
for whole classes. It stays on the list or off it, and its handle stays in the table as it was,
since no two sessions have the same handle.
-/
namespace Patchbay

/-- From `r` to `r'` nothing happened to the session `id`, except that its volume may have been
set. -/
structure Registry.Spares (r r' : Registry) (id : Nat) : Prop where
  session : ∀ s, r.any? id = some s →
    ∃ controls, r'.any? id = some { s with controls := controls }
  listed : id ∈ r'.listed ↔ id ∈ r.listed
  handle : ∀ s, r.any? id = some s →
    r'.handles.entries.get? s.handle.id = r.handles.entries.get? s.handle.id

namespace Registry

variable {r r' r'' : Registry} {id other : Nat} {s t : Session}

theorem Spares.refl (r : Registry) (id : Nat) : r.Spares r id :=
  ⟨fun s hs => ⟨s.controls, hs⟩, Iff.rfl, fun _ _ => rfl⟩

theorem Spares.trans (h : r.Spares r' id) (h' : r'.Spares r'' id) : r.Spares r'' id where
  session := by
    intro s hs
    obtain ⟨controls, hs'⟩ := h.session s hs
    exact h'.session { s with controls := controls } hs'
  listed := h'.listed.trans h.listed
  handle := by
    intro s hs
    obtain ⟨controls, hs'⟩ := h.session s hs
    exact (h'.handle _ hs').trans (h.handle s hs)

theorem spares_modify (r : Registry) {f : Session → Session}
    (hf : other = id → ∀ s, ∃ controls, f s = { s with controls := controls }) :
    r.Spares (r.modify other f) id := by
  refine ⟨fun s hs => ?_, Iff.rfl, fun _ _ => rfl⟩
  rw [any?_modify, hs]
  by_cases hsame : other = id
  · obtain ⟨controls, hset⟩ := hf hsame s
    exact ⟨controls, (if_pos hsame).trans (congrArg some hset)⟩
  · exact ⟨s.controls, if_neg hsame⟩

theorem adjust_eq (d : VolumeDesk) (s : Session) :
    ∃ controls, d.adjust s = { s with controls := controls } := by
  unfold VolumeDesk.adjust
  split
  · exact ⟨s.controls, rfl⟩
  · exact ⟨_, rfl⟩

theorem spares_push (r : Registry) (d : VolumeDesk) (only : Option VolumeClass) (id : Nat) :
    r.Spares (d.push only r) id := by
  unfold VolumeDesk.push
  dsimp only
  generalize r.listed = ids
  induction ids generalizing r with
  | nil => exact .refl r id
  | cons other ids ih =>
      refine Spares.trans (r.spares_modify fun _ s => ?_) (ih _)
      split
      · exact adjust_eq d s
      · exact ⟨s.controls, rfl⟩

theorem spares_setVolume (r : Registry) (d : VolumeDesk) (c : VolumeClass) (v : Single) (id : Nat) :
    r.Spares (d.setVolume r c v).2.2 id := by
  unfold VolumeDesk.setVolume
  split
  · exact r.spares_push _ _ id
  · exact .refl r id

/-- What is asked of another session is no concern of this one, even if the other ends. -/
theorem Booked.spares_perform (h : r.Booked) (hne : other ≠ id) (c : SessionCall) :
    r.Spares (r.perform other c) id := by
  cases ht : r.any? other with
  | none =>
      rw [perform_eq, ht]
      exact .refl r id
  | some t =>
      have hany := (any?_perform h.numbered ht c id).trans (if_neg hne)
      refine ⟨fun s hs => ⟨s.controls, hany.trans hs⟩, ?_, fun s hs => ?_⟩
      · rw [(r.listed_perform other c).1]
      · rw [perform_eq, ht]
        dsimp only
        have hleads := t.leadsTo_perform c
        generalize (t.perform c).2.2 = closing at hleads ⊢
        cases closing with
        | none => rfl
        | some closing =>
            have hhandle : closing.handle = t.handle.id := Session.EndsBy.withdrawn hleads
            have hother : ¬ closing.handle == s.handle.id := by
              rw [hhandle, beq_iff_eq]
              exact fun hsame => hne (h.separate other id t s ht hs hsame)
            show Table.get? (r.handles.entries.erase closing.handle) _ = _
            rw [Table.get?_erase, if_neg hother]

theorem Booked.spares_claim (h : r.Booked) (ht : r.any? other = some t) (hne : other ≠ id) :
    r.Spares (r.claim t.handle.id).2 id := by
  refine ⟨fun s hs => ⟨s.controls, hs⟩, Iff.rfl, fun s hs => ?_⟩
  have hother : ¬ t.handle.id == s.handle.id := by
    rw [beq_iff_eq]
    exact fun hsame => hne (h.separate other id t s ht hs hsame)
  show (r.handles.claim t.handle.id).2.entries.get? _ = _
  unfold HandleTable.claim
  split
  · rfl
  · split
    · rfl
    · dsimp only
      rw [Table.get?_modify, if_neg hother]

theorem Numbered.next_ne (hr : r.Numbered) (hs : r.any? id = some s) : r.nextId ≠ id :=
  Nat.ne_of_gt (hr id s hs).2

theorem Booked.spares_create (h : r.Booked) (hs : r.any? id = some s) (config : StreamConfig) :
    r.Spares (r.create config).2 id := by
  rcases r.create_cases config with hfailed | hmade
  · obtain ⟨e, files, hcreate⟩ := hfailed
    rw [hcreate]
    exact ⟨fun s hs => ⟨s.controls, hs⟩, Iff.rfl, fun _ _ => rfl⟩
  · obtain ⟨ring, files, -, hcreate⟩ := hmade
    rw [hcreate]
    have hne := h.numbered.next_ne hs
    refine ⟨fun s hs => ⟨s.controls, h.numbered.get?_put_next.mpr (Or.inr hs)⟩, ?_, fun s hs => ?_⟩
    · dsimp only
      rw [List.mem_append, List.mem_singleton]
      exact or_iff_left hne.symm
    · have hother : ¬ r.handles.nextId == s.handle.id := by
        rw [beq_iff_eq]
        exact Nat.ne_of_gt (h.issued id s hs)
      show Table.get? (r.handles.entries.put r.handles.nextId _) _ = _
      rw [Table.get?_put, if_neg hother]

theorem Booked.spares_remove (h : r.Booked) (hne : other ≠ id) :
    r.Spares (r.remove other).2 id := by
  unfold Registry.remove
  split
  · exact .refl r id
  · have hrelease := h.spares_perform hne .release
    refine ⟨hrelease.session, ?_, hrelease.handle⟩
    show id ∈ (r.perform other .release).listed.filter (· ≠ other) ↔ id ∈ r.listed
    rw [List.mem_filter, hrelease.listed, decide_eq_true_eq]
    exact and_iff_left hne.symm

theorem spares_reap (hlive : ∀ s, r.any? id = some s → id ∈ r.listed → ¬ s.isTerminal) :
    r.Spares r.reap.2 id := by
  obtain ⟨generation, hreap⟩ := r.reap_eq
  rw [hreap]
  refine ⟨fun s hs => ⟨s.controls, hs⟩, ?_, fun _ _ => rfl⟩
  rw [List.mem_filter]
  refine and_iff_left_of_imp fun hid => ?_
  cases hs : r.any? id with
  | none => rfl
  | some s =>
      have hstays := hlive s hs hid
      simpa using hstays

end Registry
end Patchbay
