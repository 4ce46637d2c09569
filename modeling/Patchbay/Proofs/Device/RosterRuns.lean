import Patchbay.Device.Roster
import Patchbay.Proofs.Tables

/-!
# Runs of a roster

What one connection or disconnection does to the connected devices and to the partitions, and
what every run keeps: a partition holds exactly the connected devices that the privacy table
admits to it. Generations and subscriptions play no part here.
-/
namespace Patchbay

inductive RosterStep where
  | connect (now : UInt64) (d : Device)
  | disconnect (d : Device)
deriving DecidableEq, Repr

namespace Roster

/-- A roster of these settings without devices. -/
def vacant (table : PrivacyTable) (render capture : DeviceType) : Roster :=
  { table := table, defaultRender := render, defaultCapture := capture }

/-- One step, and the change that it published. -/
def step (r : Roster) : RosterStep → Option DeviceChange × Roster
  | .connect now d =>
    let (change, r) := r.connect now d
    (some change, r)
  | .disconnect d => r.disconnect d

def run (r : Roster) (steps : List RosterStep) : Roster :=
  steps.foldl (fun r t => (r.step t).2) r

/-- The partitions and the list of connected devices tell the same. -/
def Consistent (r : Roster) : Prop :=
  ∀ p, r.partition p = r.connected.filter fun d => p ∈ r.classify d

/-- `r'` is `r` without the endpoint of `d` and with the devices `arrived` at the end. The
partitions `touched` lost or gained one of them. -/
structure Replaces (r r' : Roster) (d : Device) (arrived : List Device)
    (touched : List Partition) : Prop where
  table : r'.table = r.table
  defaultRender : r'.defaultRender = r.defaultRender
  defaultCapture : r'.defaultCapture = r.defaultCapture
  connected : r'.connected = r.connected.filter (!·.sameEndpoint d) ++ arrived
  partition : ∀ p, r'.partition p =
    (r.partition p).filter (!·.sameEndpoint d) ++ arrived.filter fun e => p ∈ r.classify e
  touched : ∀ p, p ∈ touched ↔
    (∃ e ∈ r.partition p, e.sameEndpoint d) ∨ ∃ e ∈ arrived, p ∈ r.classify e

end Roster

variable {r r' : Roster} {d e : Device} {arrived : List Device} {touched : List Partition}
variable {p : Partition}

theorem PrivacyTable.mem_classify {table : PrivacyTable} :
    p ∈ table.classify d ↔
      p ∈ remotePart d ∨ d.role = p.role ∧ table.any (·.admits d.type p) := by
  simp [classify, Partition.mem_all]

theorem PrivacyTable.privacy_of_mem_remotePart (h : p ∈ remotePart d) : p.privacy = none := by
  unfold remotePart at h
  split at h
  · split at h
    · simp_all [Partition.privacy]
    · simp_all [Partition.privacy]
    · cases h
  · cases h

theorem PrivacyTable.nodup_classify (table : PrivacyTable) (d : Device) :
    (table.classify d).Nodup := by
  have hall : Partition.all.Nodup := by decide
  have hremote : (remotePart d).Nodup := by
    unfold remotePart
    split
    · split <;> decide
    · exact List.nodup_nil
  refine List.nodup_append.mpr ⟨hremote, hall.filter _, ?_⟩
  intro p hp q hq hpq
  subst hpq
  have hnone := privacy_of_mem_remotePart hp
  simp [PrivacyRow.admits, hnone] at hq

namespace Roster

theorem partition_without (r : Roster) (d : Device) (p : Partition) :
    (r.without d).partition p = (r.partition p).filter (!·.sameEndpoint d) := by
  unfold without partition
  dsimp only
  rw [Table.get?_mapValues]
  cases Table.get? r.partitions p <;> rfl

theorem partition_append (r : Roster) (d : Device) {ps : List Partition} (h : ps.Nodup)
    (p : Partition) :
    (r.append d ps).partition p = r.partition p ++ if p ∈ ps then [d] else [] := by
  unfold append partition
  dsimp only
  generalize r.partitions = t
  induction ps generalizing t with
  | nil => simp
  | cons q qs ih =>
      obtain ⟨hq, hqs⟩ := List.nodup_cons.mp h
      rw [List.foldl_cons, ih hqs, Table.get?_put]
      by_cases hqp : q = p
      · subst hqp
        simp [hq]
      · have hpq : ¬ p = q := fun hc => hqp hc.symm
        simp [hqp, hpq]

theorem mem_occupied : p ∈ r.occupied d ↔ ∃ e ∈ r.partition p, e.sameEndpoint d := by
  simp [occupied, Partition.mem_all]

theorem connect_replaces (r : Roster) (now : UInt64) (d : Device) :
    r.Replaces (r.connect now d).2 (r.stamp now d) [r.stamp now d]
      (r.connect now d).1.partitions := by
  unfold connect publish
  dsimp only
  exact {
    table := rfl
    defaultRender := rfl
    defaultCapture := rfl
    connected := rfl
    partition := by
      intro p
      have happend := partition_append (r.without (r.stamp now d)) (r.stamp now d)
        (PrivacyTable.nodup_classify r.table (r.stamp now d)) p
      rw [partition_without] at happend
      refine happend.trans ?_
      by_cases hp : p ∈ r.table.classify (r.stamp now d) <;> simp [classify, hp]
    touched := by
      intro p
      simp [Partition.mem_all, mem_occupied] }

theorem disconnect_replaces (h : r.connected.find? (·.sameEndpoint d) = some e) :
    r.Replaces (r.disconnect d).2 d [] (r.occupied d) := by
  unfold disconnect publish
  rw [h]
  dsimp only
  exact {
    table := rfl
    defaultRender := rfl
    defaultCapture := rfl
    connected := (List.append_nil _).symm
    partition := by
      intro p
      rw [List.filter_nil, List.append_nil]
      exact partition_without r d p
    touched := by
      intro p
      simp [mem_occupied] }

theorem step_eq_or_replaces (r : Roster) (t : RosterStep) :
    r.step t = (none, r) ∨
      ∃ c d arrived, (r.step t).1 = some c ∧
        r.Replaces (r.step t).2 d arrived c.partitions := by
  cases t with
  | connect now d => exact Or.inr ⟨_, _, _, rfl, r.connect_replaces now d⟩
  | disconnect d =>
      cases hfind : r.connected.find? (·.sameEndpoint d) with
      | none =>
          refine Or.inl ?_
          simp only [step, disconnect, hfind]
      | some e =>
          let c := ((r.without d).publish .disconnected e (r.occupied d)).1
          refine Or.inr ⟨c, d, [], ?_, disconnect_replaces hfind⟩
          simp only [step, disconnect, hfind]
          rfl

theorem consistent_vacant (table : PrivacyTable) (render capture : DeviceType) :
    (vacant table render capture).Consistent :=
  fun _ => rfl

theorem Replaces.classify_eq (h : r.Replaces r' d arrived touched) (e : Device) :
    r'.classify e = r.classify e := by
  rw [classify, h.table]
  rfl

theorem Replaces.partition_of_untouched (h : r.Replaces r' d arrived touched) (hp : p ∉ touched) :
    r'.partition p = r.partition p := by
  rw [h.touched] at hp
  have hkept : (r.partition p).filter (!·.sameEndpoint d) = r.partition p := by
    refine List.filter_eq_self.mpr fun e he => ?_
    have hne : ¬ e.sameEndpoint d := fun hc => hp (Or.inl ⟨e, he, hc⟩)
    simp [hne]
  have hnone : (arrived.filter fun e => p ∈ r.classify e) = [] := by
    refine List.filter_eq_nil_iff.mpr fun e he hc => hp (Or.inr ⟨e, he, ?_⟩)
    simpa using hc
  rw [h.partition, hkept, hnone, List.append_nil]

theorem Consistent.replaces (hr : r.Consistent) (h : r.Replaces r' d arrived touched) :
    r'.Consistent := by
  intro p
  simp only [h.partition, hr p, h.connected, h.classify_eq, List.filter_append, List.filter_filter,
    Bool.and_comm]

theorem Consistent.step (hr : r.Consistent) (t : RosterStep) : (r.step t).2.Consistent := by
  rcases r.step_eq_or_replaces t with hsame | ⟨c, d, arrived, -, hreplaces⟩
  · rw [hsame]
    exact hr
  · exact hr.replaces hreplaces

theorem Consistent.run (hr : r.Consistent) (steps : List RosterStep) :
    (r.run steps).Consistent := by
  induction steps generalizing r with
  | nil => exact hr
  | cons t rest ih => exact ih (hr.step t)

theorem settings_run (r : Roster) (steps : List RosterStep) :
    (r.run steps).table = r.table ∧ (r.run steps).defaultRender = r.defaultRender ∧
      (r.run steps).defaultCapture = r.defaultCapture := by
  induction steps generalizing r with
  | nil => exact ⟨rfl, rfl, rfl⟩
  | cons t rest ih =>
      obtain ⟨htable, hrender, hcapture⟩ := ih (r.step t).2
      rcases r.step_eq_or_replaces t with hsame | ⟨c, d, arrived, -, h⟩
      · have hstep : (r.step t).2 = r := by rw [hsame]
        exact ⟨htable.trans (by rw [hstep]), hrender.trans (by rw [hstep]),
          hcapture.trans (by rw [hstep])⟩
      · exact ⟨htable.trans h.table, hrender.trans h.defaultRender,
          hcapture.trans h.defaultCapture⟩

end Roster
end Patchbay
