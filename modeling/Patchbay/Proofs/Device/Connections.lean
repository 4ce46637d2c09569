import Mathlib.Data.List.Pairwise
import Patchbay.Proofs.Device.RosterRuns

/-!
# Which devices are connected

A roster of any privacy table tells exactly what its run says: the connected devices are those
whose last step was a connection, once each and in the order of these connections, and every
query by partition or by role and privacy class picks its answer from them.
-/
namespace Patchbay

/-- The device that a step is about. -/
def RosterStep.device : RosterStep → Device
  | .connect _ d | .disconnect d => d

/-- The devices that a step adds, as they are kept. -/
def RosterStep.arrived (r : Roster) : RosterStep → List Device
  | .connect now d => [r.stamp now d]
  | .disconnect _ => []

namespace Roster

/-- The connections of a run that stand at its end: no later step was about the same endpoint.
They are in the order in which they were made. -/
def standing (r : Roster) : List RosterStep → List Device
  | [] => []
  | t :: later =>
    (t.arrived r).filter (fun d => !later.any (·.device.sameEndpoint d)) ++ r.standing later

/-- No endpoint is connected twice. -/
def Distinct (r : Roster) : Prop :=
  r.connected.Pairwise fun d e => ¬ d.sameEndpoint e

end Roster

variable {r r' : Roster} {d e : Device} {p : Partition}

theorem Device.sameEndpoint_comm (d e : Device) : d.sameEndpoint e = e.sameEndpoint d := by
  rw [Bool.eq_iff_iff]
  exact ⟨sameEndpoint_symm, sameEndpoint_symm⟩

/-- Two descriptions of one endpoint are told apart by no other device. -/
theorem Device.sameEndpoint_congr (h : d.sameEndpoint e) (f : Device) :
    f.sameEndpoint d = f.sameEndpoint e := by
  rw [Bool.eq_iff_iff]
  exact ⟨fun hd => sameEndpoint_trans hd h, fun he => sameEndpoint_trans he (sameEndpoint_symm h)⟩

namespace Roster

/-- A device is kept under its own description but for the time and the privacy class. -/
theorem stamp_cases (r : Roster) (now : UInt64) (d : Device) :
    ∃ time privacy, r.stamp now d = { d with connectedAt := time, privacy := privacy } := by
  unfold stamp
  dsimp only
  by_cases htime : d.connectedAt = 0
  · rw [if_pos htime]
    split
    · exact ⟨_, _, rfl⟩
    · exact ⟨_, _, rfl⟩
  · rw [if_neg htime]
    split
    · exact ⟨_, _, rfl⟩
    · exact ⟨_, _, rfl⟩

theorem sameEndpoint_stamp (r : Roster) (now : UInt64) (d : Device) :
    (r.stamp now d).sameEndpoint d := by
  obtain ⟨time, privacy, hstamp⟩ := r.stamp_cases now d
  rw [hstamp]
  exact d.sameEndpoint_refl

theorem role_stamp (r : Roster) (now : UInt64) (d : Device) : (r.stamp now d).role = d.role := by
  obtain ⟨time, privacy, hstamp⟩ := r.stamp_cases now d
  rw [hstamp]

theorem sameEndpoint_of_arrived {t : RosterStep} (h : d ∈ t.arrived r) :
    d.sameEndpoint t.device := by
  cases t with
  | connect now e =>
      rw [RosterStep.arrived, List.mem_singleton] at h
      rw [h]
      exact r.sameEndpoint_stamp now e
  | disconnect e => cases h

/-- Of the privacy table alone hangs how a device is kept. -/
theorem arrived_congr (h : r'.table = r.table) (t : RosterStep) : t.arrived r' = t.arrived r := by
  cases t with
  | connect now d =>
      unfold RosterStep.arrived stamp classify
      rw [h]
  | disconnect d => rfl

theorem standing_congr (h : r'.table = r.table) (steps : List RosterStep) :
    r'.standing steps = r.standing steps := by
  induction steps with
  | nil => rfl
  | cons t later ih => rw [standing, standing, ih, arrived_congr h]

/-- A step takes the endpoint of its device off the list and adds what arrives at the end. -/
theorem connected_step (r : Roster) (t : RosterStep) :
    (r.step t).2.connected =
      r.connected.filter (!·.sameEndpoint t.device) ++ t.arrived r := by
  cases t with
  | connect now d =>
      have hsame : (fun e : Device => !e.sameEndpoint (r.stamp now d)) =
          fun e => !e.sameEndpoint d :=
        funext fun e => congrArg _ (Device.sameEndpoint_congr (r.sameEndpoint_stamp now d) e)
      exact (r.connect_replaces now d).connected.trans (by rw [hsame]; rfl)
  | disconnect d =>
      rw [RosterStep.arrived, List.append_nil]
      show (r.disconnect d).2.connected = r.connected.filter (!·.sameEndpoint d)
      cases hfind : r.connected.find? (·.sameEndpoint d) with
      | some e => simpa using (disconnect_replaces hfind).connected
      | none =>
          rw [disconnect, hfind]
          rw [List.find?_eq_none] at hfind
          exact (List.filter_eq_self.mpr fun e he => by simpa using hfind e he).symm

/-- What is connected was so before and concerned by no step, or stands since it arrived. -/
theorem connected_run (r : Roster) (steps : List RosterStep) :
    (r.run steps).connected =
      r.connected.filter (fun e => !steps.any (·.device.sameEndpoint e)) ++ r.standing steps := by
  induction steps generalizing r with
  | nil =>
      have hall : r.connected.filter (fun _ => true) = r.connected :=
        List.filter_eq_self.mpr fun _ _ => rfl
      exact ((List.append_nil _).trans hall).symm
  | cons t later ih =>
      have htable : (r.step t).2.table = r.table := (r.settings_run [t]).1
      calc (r.run (t :: later)).connected
          = ((r.step t).2.run later).connected := rfl
        _ = (r.step t).2.connected.filter (fun e => !later.any (·.device.sameEndpoint e)) ++
              r.standing later := by rw [ih, standing_congr htable]
        _ = _ := by
            rw [connected_step, List.filter_append, List.filter_filter, List.append_assoc]
            simp only [standing, List.any_cons, Bool.not_or, Bool.and_comm,
              Device.sameEndpoint_comm t.device]

theorem Distinct.step (h : r.Distinct) (t : RosterStep) : (r.step t).2.Distinct := by
  rw [Distinct, connected_step, List.pairwise_append]
  refine ⟨h.filter _, ?_, fun e he d hd hsame => ?_⟩
  · cases t with
    | connect now d => exact List.pairwise_singleton _ _
    | disconnect d => exact List.Pairwise.nil
  · rw [List.mem_filter, Device.sameEndpoint_congr (Device.sameEndpoint_symm
      (sameEndpoint_of_arrived hd)), hsame] at he
    exact Bool.false_ne_true he.2

theorem Distinct.run (h : r.Distinct) (steps : List RosterStep) : (r.run steps).Distinct := by
  induction steps generalizing r with
  | nil => exact h
  | cons t later ih => exact ih (h.step t)

theorem distinct_vacant (table : PrivacyTable) (render capture : DeviceType) :
    (vacant table render capture).Distinct :=
  List.Pairwise.nil

theorem Distinct.eq_of_sameEndpoint (h : r.Distinct) (hd : d ∈ r.connected)
    (he : e ∈ r.connected) (hsame : d.sameEndpoint e) : d = e := by
  refine Decidable.byContradiction fun hne => ?_
  have : Std.Symm fun d e : Device => ¬ d.sameEndpoint e :=
    ⟨fun d e hde hed => hde (Device.sameEndpoint_symm hed)⟩
  exact List.Pairwise.forall h hd he hne hsame

/-- A partition has a connected endpoint exactly if its device belongs there. -/
theorem Distinct.any_partition_iff (h : r.Distinct) (hr : r.Consistent) (hd : d ∈ r.connected) :
    (r.partition p).any (·.sameEndpoint d) ↔ p ∈ r.classify d := by
  rw [hr p, List.any_eq_true]
  constructor
  · intro hmember
    obtain ⟨e, he, hsame⟩ := hmember
    obtain ⟨he, hp⟩ := List.mem_filter.mp he
    rw [← h.eq_of_sameEndpoint he hd hsame]
    exact of_decide_eq_true hp
  · intro hp
    exact ⟨d, List.mem_filter.mpr ⟨hd, decide_eq_true hp⟩, d.sameEndpoint_refl⟩

/-- By role and privacy class one finds what the classes of the devices say. -/
theorem Distinct.devices_eq (h : r.Distinct) (hr : r.Consistent) (role : DeviceRole)
    (privacy : Privacy) :
    r.devices role privacy = r.connected.filter fun d =>
      (r.classify d).any fun p => p.role = role && p.privacy = some privacy := by
  refine List.filter_congr fun d hd => ?_
  rw [Bool.eq_iff_iff, List.any_eq_true, List.any_eq_true]
  constructor
  · intro hpart
    obtain ⟨p, -, hp⟩ := hpart
    obtain ⟨hclass, hmember⟩ := Bool.and_eq_true_iff.mp hp
    exact ⟨p, (h.any_partition_iff hr hd).mp hmember, hclass⟩
  · intro hpart
    obtain ⟨p, hmember, hclass⟩ := hpart
    exact ⟨p, p.mem_all, Bool.and_eq_true_iff.mpr ⟨hclass, (h.any_partition_iff hr hd).mpr hmember⟩⟩

end Roster

/-- After every run, whatever the privacy table: the connected devices are the connections that
stand, in their order, and no two are the same endpoint; a partition holds exactly those that
belong to it; and those of a role and a privacy class are exactly those that belong to some
partition of both. -/
theorem connected_as_partitioned (table : PrivacyTable) (render capture : DeviceType)
    (steps : List RosterStep) :
    let start := Roster.vacant table render capture
    let r := start.run steps
    (r.connected.Pairwise fun d e => ¬ d.sameEndpoint e) ∧
      r.connected = start.standing steps ∧
      (∀ p, r.partition p = r.connected.filter fun d => p ∈ table.classify d) ∧
      ∀ role privacy, r.devices role privacy = r.connected.filter fun d =>
        (table.classify d).any fun p => p.role = role && p.privacy = some privacy := by
  intro start r
  have hdistinct : r.Distinct := (Roster.distinct_vacant table render capture).run steps
  have hconsistent : r.Consistent := (Roster.consistent_vacant table render capture).run steps
  have hclassify : ∀ d, r.classify d = table.classify d := by
    intro d
    have htable : r.table = table := (start.settings_run steps).1
    rw [Roster.classify, htable]
  refine ⟨hdistinct, start.connected_run steps, fun p => ?_, fun role privacy => ?_⟩
  · simpa only [hclassify] using hconsistent p
  · simpa only [hclassify] using hdistinct.devices_eq hconsistent role privacy

end Patchbay
