import Patchbay.Proofs.Device.Connections

/-!
# Who is told to have come back

The change of a connection says whether the endpoint is new or was connected already. A roster
judges that by the partitions that the endpoint leaves and not by the list of connected devices,
so it recognises a known endpoint exactly if the privacy table puts it into some partition, in the
role in which it was connected before. What the endpoint joins now does not matter.
-/
namespace Patchbay
namespace Roster

/-- What a connection of the endpoint of `d` is to those who know the connected devices. -/
def arrivalOf (r : Roster) (d : Device) : ChangeKind :=
  if r.connected.any (·.sameEndpoint d) then .reconnected else .connected

variable {r : Roster} {d : Device} {now : UInt64}

theorem kind_connect (r : Roster) (now : UInt64) (d : Device) :
    (r.connect now d).1.kind =
      if r.occupied (r.stamp now d) = [] then .connected else .reconnected := by
  unfold connect publish
  simp only [List.isEmpty_iff]

/-- An endpoint is in some partition exactly if a connected description of it belongs to one. -/
theorem Consistent.occupied_ne_nil_iff (h : r.Consistent) :
    r.occupied d ≠ [] ↔ ∃ e ∈ r.connected, e.sameEndpoint d ∧ r.classify e ≠ [] := by
  constructor
  · intro hplaced
    obtain ⟨p, hp⟩ := List.exists_mem_of_ne_nil _ hplaced
    obtain ⟨e, he, hsame⟩ := mem_occupied.mp hp
    rw [h p, List.mem_filter, decide_eq_true_eq] at he
    exact ⟨e, he.1, hsame, List.ne_nil_of_mem he.2⟩
  · intro hplaced
    obtain ⟨e, he, hsame, hclass⟩ := hplaced
    obtain ⟨p, hp⟩ := List.exists_mem_of_ne_nil _ hclass
    have hmember : e ∈ r.partition p := by
      rw [h p]
      exact List.mem_filter.mpr ⟨he, decide_eq_true hp⟩
    exact List.ne_nil_of_mem (mem_occupied.mpr ⟨e, hmember, hsame⟩)

/-- A device that arrives is stamped, which does not make it another endpoint. -/
theorem occupied_stamp (r : Roster) (now : UInt64) (d : Device) :
    r.occupied (r.stamp now d) = r.occupied d := by
  have hsame := Device.sameEndpoint_congr (r.sameEndpoint_stamp now d)
  simp only [occupied, hsame]

/-- What holds of one connected description of an endpoint holds of all, as there is only one. -/
theorem Distinct.exists_iff_forall (h : r.Distinct)
    (hknown : ∃ e ∈ r.connected, e.sameEndpoint d) (P : Device → Prop) :
    (∃ e ∈ r.connected, e.sameEndpoint d ∧ P e) ↔
      ∀ e ∈ r.connected, e.sameEndpoint d → P e := by
  constructor
  · intro hsome f hf hfd
    obtain ⟨e, he, hsame, hP⟩ := hsome
    have hone : f = e := h.eq_of_sameEndpoint hf he
      (Device.sameEndpoint_trans hfd (Device.sameEndpoint_symm hsame))
    rw [hone]
    exact hP
  · intro hall
    obtain ⟨e, he, hsame⟩ := hknown
    exact ⟨e, he, hsame, hall e he hsame⟩

/-- One connection: the kind is right exactly if the endpoint is not connected under a description
without a partition. -/
theorem kind_connect_eq_arrivalOf_iff (hdistinct : r.Distinct) (h : r.Consistent) :
    (r.connect now d).1.kind = r.arrivalOf d ↔
      ∀ e ∈ r.connected, e.sameEndpoint d → r.classify e ≠ [] := by
  rw [kind_connect, occupied_stamp, arrivalOf]
  by_cases hknown : r.connected.any (·.sameEndpoint d)
  · have hplaced := h.occupied_ne_nil_iff (d := d)
    rw [hdistinct.exists_iff_forall (List.any_eq_true.mp hknown)] at hplaced
    rw [if_pos hknown, ← hplaced]
    split
    · rename_i hnowhere
      exact iff_of_false (fun hkind => by cases hkind) (fun hsome => hsome hnowhere)
    · rename_i hsomewhere
      exact iff_of_true rfl hsomewhere
  · rw [if_neg hknown]
    simp only [List.any_eq_true, not_exists, not_and] at hknown
    have hnowhere : r.occupied d = [] := by
      refine Decidable.byContradiction fun hplaced => ?_
      obtain ⟨e, he, hsame, -⟩ := h.occupied_ne_nil_iff.mp hplaced
      exact hknown e he hsame
    rw [if_pos hnowhere]
    exact iff_of_true rfl fun e he hsame => absurd hsame (hknown e he)

end Roster

/-- After every run, whatever the privacy table: the change of a connection says that the endpoint
comes back if it was connected just before, and else that it is new, exactly if the table gives
some partition to the description under which the endpoint was connected. -/
theorem reconnection_told_iff_placed (table : PrivacyTable) (render capture : DeviceType)
    (steps : List RosterStep) (now : UInt64) (d : Device) :
    let r := (Roster.vacant table render capture).run steps
    (r.connect now d).1.kind =
        (if r.connected.any (·.sameEndpoint d) then .reconnected else .connected) ↔
      ∀ e ∈ r.connected, e.sameEndpoint d → table.classify e ≠ [] := by
  intro r
  have htable : r.table = table := ((Roster.vacant table render capture).settings_run steps).1
  have hdistinct : r.Distinct := (Roster.distinct_vacant table render capture).run steps
  have hconsistent : r.Consistent := (Roster.consistent_vacant table render capture).run steps
  have hkind : (r.connect now d).1.kind = r.arrivalOf d ↔ _ :=
    Roster.kind_connect_eq_arrivalOf_iff hdistinct hconsistent
  simpa only [Roster.arrivalOf, Roster.classify, htable] using hkind

/-- The built-in table knows no devices that only wake the machine up. One that is connected twice
is told to be new both times. -/
theorem wakeup_microphone_told_new_twice :
    let wakeup : Device := { type := .wakeup, role := .input, connectedAt := 1 }
    let again : Device := { wakeup with connectedAt := 2 }
    let r := (Roster.vacant .builtIn .speaker .mic).run [.connect 1 wakeup]
    r.connected = [wakeup] ∧ again.sameEndpoint wakeup ∧
      (r.connect 1 again).1.kind = .connected := by
  decide

end Patchbay
