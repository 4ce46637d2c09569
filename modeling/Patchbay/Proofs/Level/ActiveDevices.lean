import Mathlib.Data.List.Nodup
import Patchbay.Level.Volume

/-!
# Active devices

The desk lists the types of device that are in use, the one activated last first. A role that has
an active device keeps one, because a type is taken off only if its role has two. Whether the type
itself is on the list is not asked, so one that is not active is refused too where its role has
one active device or none.
-/
namespace Patchbay

/-- A type of device is put on the list of active ones, or taken off it. -/
structure ActivityCall where
  type : DeviceType
  active : Bool
deriving DecidableEq, Repr

/-- The types whose last call activated them, the type of the last such call first. -/
def lastActivated : List ActivityCall → List DeviceType
  | [] => []
  | c :: later =>
    lastActivated later ++ if c.active && !later.any (·.type = c.type) then [c.type] else []

namespace VolumeDesk

def perform (d : VolumeDesk) (calls : List ActivityCall) : VolumeDesk :=
  calls.foldl (fun d c => (d.setDeviceActive c.type c.active).2) d

/-- Those of the calls that are not refused. -/
def accepted (d : VolumeDesk) : List ActivityCall → List ActivityCall
  | [] => []
  | c :: later =>
    match d.setDeviceActive c.type c.active with
    | (.ok (), d) => c :: d.accepted later
    | (.error _, d) => d.accepted later

/-- The active devices of a role. -/
def activeOf (d : VolumeDesk) (role : DeviceRole) : List Device :=
  d.activeDevices.filter (·.role = role)

def Serves (d : VolumeDesk) (role : DeviceRole) : Prop :=
  d.activeOf role ≠ []

/-- The type is active, and no other type of its role is. -/
def Sole (d : VolumeDesk) (t : DeviceType) : Prop :=
  d.isDeviceActive t ∧ ∀ e ∈ d.activeOf t.defaultRole, e.type = t

/-- The list is what these calls made of an empty one. -/
structure Keeps (d : VolumeDesk) (calls : List ActivityCall) : Prop where
  types : d.activeDevices.map (·.type) = lastActivated calls
  roles : ∀ e ∈ d.activeDevices, e.role = e.type.defaultRole

end VolumeDesk

variable {d : VolumeDesk} {calls : List ActivityCall} {t : DeviceType} {role : DeviceRole}

theorem lastActivated_append (calls : List ActivityCall) (c : ActivityCall) :
    lastActivated (calls ++ [c]) =
      (if c.active then [c.type] else []) ++ (lastActivated calls).filter (· ≠ c.type) := by
  induction calls with
  | nil =>
      show [] ++ _ = _
      simp [lastActivated]
  | cons b calls ih =>
      rw [List.cons_append, lastActivated, ih, lastActivated, List.filter_append,
        List.append_assoc]
      congr 2
      by_cases htype : c.type = b.type
      · simp only [htype, List.any_append, List.any_cons, decide_true, Bool.true_or, Bool.or_true,
          Bool.not_true, Bool.and_false, Bool.false_eq_true, if_false]
        split <;> simp
      · have hne : ¬ b.type = c.type := fun h => htype h.symm
        simp only [htype, List.any_append, List.any_cons, List.any_nil, decide_false, Bool.or_false]
        split <;> simp [hne]

theorem any_type_of_mem_lastActivated (h : t ∈ lastActivated calls) :
    calls.any (·.type = t) := by
  induction calls with
  | nil => cases h
  | cons c later ih =>
      rw [lastActivated, List.mem_append] at h
      rw [List.any_cons, Bool.or_eq_true]
      rcases h with hlater | hfirst
      · exact Or.inr (ih hlater)
      · split at hfirst
        · exact Or.inl (decide_eq_true (List.mem_singleton.mp hfirst).symm)
        · cases hfirst

theorem nodup_lastActivated (calls : List ActivityCall) : (lastActivated calls).Nodup := by
  induction calls with
  | nil => exact List.nodup_nil
  | cons c later ih =>
      rw [lastActivated]
      split
      · rename_i hlast
        refine List.nodup_append.mpr ⟨ih, List.nodup_singleton _, fun t ht u hu => ?_⟩
        rw [List.mem_singleton] at hu
        rintro rfl
        rw [hu] at ht
        simp [any_type_of_mem_lastActivated ht] at hlast
      · rw [List.append_nil]
        exact ih

namespace VolumeDesk

theorem setDeviceActive_cases (d : VolumeDesk) (t : DeviceType) (active : Bool) :
    (∃ error, d.setDeviceActive t active = (.error error, d) ∧
      (t.defaultRole = .none ∨ active = false ∧ (d.activeOf t.defaultRole).length ≤ 1)) ∨
    t.defaultRole ≠ .none ∧ (active = true ∨ 2 ≤ (d.activeOf t.defaultRole).length) ∧
      d.setDeviceActive t active = (.ok (), { d with
        activeDevices := (if active then [{ type := t, role := t.defaultRole }] else []) ++
          d.activeDevices.filter (·.type ≠ t) }) := by
  unfold setDeviceActive activeOf
  dsimp only
  by_cases hrole : t.defaultRole = .none
  · rw [if_pos hrole]
    exact Or.inl ⟨_, rfl, Or.inl hrole⟩
  · rw [if_neg hrole]
    cases active with
    | true => exact Or.inr ⟨hrole, Or.inl rfl, rfl⟩
    | false =>
        rw [if_neg Bool.false_ne_true]
        split
        · rename_i hfew
          exact Or.inl ⟨_, rfl, Or.inr ⟨rfl, hfew⟩⟩
        · rename_i hmany
          exact Or.inr ⟨hrole, Or.inr (Nat.lt_of_not_le hmany), rfl⟩

theorem activation_accepted_iff (d : VolumeDesk) (t : DeviceType) :
    (d.setDeviceActive t true).1 = .ok () ↔ t.defaultRole ≠ .none := by
  rcases d.setDeviceActive_cases t true with ⟨error, hrefused, hwhy⟩ | ⟨hrole, -, haccepted⟩
  · rw [hrefused]
    exact iff_of_false (fun h => by cases h) fun hrole =>
      hwhy.elim hrole fun hoff => by cases hoff.1
  · rw [haccepted]
    exact iff_of_true rfl hrole

/-- A deactivation is judged by the number of active devices of the role. -/
theorem deactivation_refused_iff (d : VolumeDesk) (t : DeviceType) :
    (d.setDeviceActive t false).1 ≠ .ok () ↔
      t.defaultRole = .none ∨ (d.activeOf t.defaultRole).length ≤ 1 := by
  rcases d.setDeviceActive_cases t false with ⟨error, hrefused, hwhy⟩ | ⟨hrole, hmany, haccepted⟩
  · rw [hrefused]
    exact iff_of_true (fun h => by cases h) (hwhy.imp_right And.right)
  · rw [haccepted]
    refine iff_of_false (fun h => h rfl) ?_
    rintro (hnone | hfew)
    · exact hrole hnone
    · have := hmany.resolve_left Bool.false_ne_true
      omega

/-- A deactivation takes the type off the list, or it is refused and changes nothing. -/
theorem deactivation_cases (d : VolumeDesk) (t : DeviceType) :
    let off := d.setDeviceActive t false
    (off.1 = .ok () → ¬ off.2.isDeviceActive t) ∧ (off.1 ≠ .ok () → off.2 = d) := by
  intro off
  rcases d.setDeviceActive_cases t false with ⟨error, hoff, -⟩ | ⟨-, -, hoff⟩
  · rw [show off = _ from hoff]
    exact ⟨(fun hok => by cases hok), fun _ => rfl⟩
  · rw [show off = _ from hoff]
    exact ⟨fun _ => by simp [isDeviceActive], fun hrefused => absurd rfl hrefused⟩

theorem Keeps.setDeviceActive (h : d.Keeps calls) (c : ActivityCall) :
    match d.setDeviceActive c.type c.active with
    | (.ok (), d') => d'.Keeps (calls ++ [c])
    | (.error _, d') => d'.Keeps calls := by
  rcases d.setDeviceActive_cases c.type c.active with ⟨error, hrefused, -⟩ | ⟨-, -, haccepted⟩
  · rw [hrefused]
    exact h
  · rw [haccepted]
    constructor
    · rw [lastActivated_append, ← h.types, List.map_append, List.filter_map]
      congr 1
      split <;> rfl
    · intro e he
      rcases List.mem_append.mp he with hnew | hold
      · split at hnew
        · rw [List.mem_singleton.mp hnew]
        · cases hnew
      · exact h.roles e (List.mem_filter.mp hold).1

theorem Keeps.nodup (h : d.Keeps calls) : (d.activeDevices.map (·.type)).Nodup := by
  rw [h.types]
  exact nodup_lastActivated calls

/-- Of two active devices of a role one is of another type than `t`. -/
theorem Keeps.exists_other (h : d.Keeps calls) (hmany : 2 ≤ (d.activeOf role).length)
    (t : DeviceType) : ∃ e ∈ d.activeOf role, e.type ≠ t := by
  have hdistinct : ((d.activeOf role).map (·.type)).Nodup :=
    h.nodup.sublist (List.filter_sublist.map _)
  match hactive : d.activeOf role with
  | [] | [_] => simp [hactive] at hmany
  | e :: f :: rest =>
      rw [hactive] at hdistinct
      by_cases he : e.type = t
      · refine ⟨f, by simp, fun hf => ?_⟩
        simp [he, hf] at hdistinct
      · exact ⟨e, by simp, he⟩

theorem Keeps.sole_iff (h : d.Keeps calls) :
    d.Sole t ↔ d.isDeviceActive t ∧ (d.activeOf t.defaultRole).length ≤ 1 := by
  refine and_congr_right fun hactive => ⟨fun honly => ?_, fun hfew e he => ?_⟩
  · refine Nat.le_of_not_lt fun hmany => ?_
    obtain ⟨e, he, hne⟩ := h.exists_other hmany t
    exact hne (honly e he)
  · -- The type is on the list, so it is the one that there is.
    obtain ⟨f, hf, hft⟩ := List.any_eq_true.mp hactive
    rw [decide_eq_true_eq] at hft
    have hrole : f ∈ d.activeOf t.defaultRole := by
      refine List.mem_filter.mpr ⟨hf, ?_⟩
      rw [decide_eq_true_eq, h.roles f hf, hft]
    obtain ⟨g, hg⟩ := List.length_eq_one_iff.mp
      (Nat.le_antisymm hfew (List.length_pos_of_mem hrole))
    rw [hg, List.mem_singleton] at he hrole
    rw [he, ← hrole, hft]

theorem Keeps.serves_setDeviceActive (h : d.Keeps calls) (hserves : d.Serves role)
    (c : ActivityCall) : (d.setDeviceActive c.type c.active).2.Serves role := by
  rcases d.setDeviceActive_cases c.type c.active with
    ⟨error, hrefused, -⟩ | ⟨-, hmany, haccepted⟩
  · rw [hrefused]
    exact hserves
  · rw [haccepted]
    by_cases hother : ∃ e ∈ d.activeOf role, e.type ≠ c.type
    · obtain ⟨e, he, hne⟩ := hother
      obtain ⟨hactive, herole⟩ := List.mem_filter.mp he
      refine List.ne_nil_of_mem (a := e) (List.mem_filter.mpr ⟨List.mem_append_right _ ?_, herole⟩)
      exact List.mem_filter.mpr ⟨hactive, by simpa using hne⟩
    · obtain ⟨e, he⟩ := List.exists_mem_of_ne_nil _ hserves
      have htype : e.type = c.type := Decidable.byContradiction fun hne => hother ⟨e, he, hne⟩
      obtain ⟨hactive, herole⟩ := List.mem_filter.mp he
      rw [decide_eq_true_eq] at herole
      have hsame : c.type.defaultRole = role := by
        rw [← htype, ← h.roles e hactive, herole]
      rcases hmany with hputs | hmany
      · rw [hputs]
        have hnew : ({ type := c.type, role := c.type.defaultRole } : Device) ∈ [
            { type := c.type, role := c.type.defaultRole }] := List.mem_singleton_self _
        exact List.ne_nil_of_mem
          (List.mem_filter.mpr ⟨List.mem_append_left _ hnew, decide_eq_true hsame⟩)
      · rw [hsame] at hmany
        exact absurd (h.exists_other hmany c.type) hother

theorem keeps_ofSettings (v : VolumeSettings) : (ofSettings v).Keeps [] where
  types := rfl
  roles := fun e he => by cases he

theorem Keeps.perform (h : d.Keeps calls) (later : List ActivityCall) :
    (d.perform later).Keeps (calls ++ d.accepted later) := by
  induction later generalizing d calls with
  | nil =>
      rw [accepted, List.append_nil]
      exact h
  | cons c later ih =>
      have hnext := h.setDeviceActive c
      show ((d.setDeviceActive c.type c.active).2.perform later).Keeps _
      rw [accepted]
      generalize d.setDeviceActive c.type c.active = outcome at hnext ⊢
      obtain ⟨answer, d'⟩ := outcome
      cases answer with
      | ok =>
          have hrest := ih hnext
          rwa [List.append_assoc] at hrest
      | error => exact ih hnext

theorem Keeps.serves_perform (h : d.Keeps calls) (hserves : d.Serves role)
    (later : List ActivityCall) : (d.perform later).Serves role := by
  induction later generalizing d calls with
  | nil => exact hserves
  | cons c later ih =>
      have hfirst : (d.perform [c]).Keeps _ := h.perform [c]
      exact ih hfirst (h.serves_setDeviceActive hserves c)

end VolumeDesk

/-- After every run the list has the types whose last accepted call activated them, the latest
first and no type twice, and a role with an active device has one ever after. All types with a
role can be activated. A deactivation that is accepted leaves the type inactive, and one that is
refused changes nothing. Refused are the types without a role and the sole active ones of their
roles, and no others exactly where the type is active or its role has two active devices. -/
theorem active_list_keeps_roles_served (v : VolumeSettings) (calls : List ActivityCall) :
    let start := VolumeDesk.ofSettings v
    let d := start.perform calls
    d.activeDevices.map (·.type) = lastActivated (start.accepted calls) ∧
      (d.activeDevices.map (·.type)).Nodup ∧
      (∀ role later, d.Serves role → (d.perform later).Serves role) ∧
      ∀ t,
        let off := d.setDeviceActive t false
        ((d.setDeviceActive t true).1 = .ok () ↔ t.defaultRole ≠ .none) ∧
          (off.1 = .ok () → ¬ off.2.isDeviceActive t) ∧ (off.1 ≠ .ok () → off.2 = d) ∧
          ((off.1 ≠ .ok () ↔ t.defaultRole = .none ∨ d.Sole t) ↔
            t.defaultRole = .none ∨ d.isDeviceActive t ∨
              2 ≤ (d.activeOf t.defaultRole).length) := by
  intro start d
  have hkeeps : d.Keeps (start.accepted calls) := (VolumeDesk.keeps_ofSettings v).perform calls
  refine ⟨hkeeps.types, hkeeps.nodup, fun role later h => hkeeps.serves_perform h later, ?_⟩
  intro t off
  obtain ⟨hoff, hkept⟩ := d.deactivation_cases t
  refine ⟨d.activation_accepted_iff t, hoff, hkept, ?_⟩
  rw [d.deactivation_refused_iff, hkeeps.sole_iff]
  by_cases hrole : t.defaultRole = .none
  · simp [hrole]
  · by_cases hactive : d.isDeviceActive t
    · simp [hactive]
    · simp only [hrole, hactive, false_or, Bool.false_eq_true, false_and, or_false, iff_false]
      exact Nat.not_le

/-- The speaker, back at the front, can be taken off while the headset is active, and then the
headset cannot. -/
theorem speaker_taken_off_beside_headset :
    let start := VolumeDesk.ofSettings {}
    let calls : List ActivityCall :=
      [⟨.speaker, true⟩, ⟨.bluetoothSco, true⟩, ⟨.mic, false⟩, ⟨.speaker, true⟩]
    let d := start.perform calls
    start.accepted calls = [⟨.speaker, true⟩, ⟨.bluetoothSco, true⟩, ⟨.speaker, true⟩] ∧
      d.activeDevices.map (·.type) = [.speaker, .bluetoothSco] ∧ d.Serves .output ∧
      (d.perform [⟨.speaker, false⟩, ⟨.bluetoothSco, false⟩]).Serves .output ∧
      (d.setDeviceActive .speaker false).1 = .ok () ∧
      ¬ (d.setDeviceActive .speaker false).2.isDeviceActive .speaker := by
  intro start calls d
  have haccepted : start.accepted calls = _ := rfl
  have hserves : d.Serves .output := List.cons_ne_nil _ _
  obtain ⟨htypes, -, hkept, hoff⟩ := active_list_keeps_roles_served {} calls
  have hok : (d.setDeviceActive .speaker false).1 = .ok () := rfl
  refine ⟨haccepted, htypes, hserves, hkept .output _ hserves, hok, ?_⟩
  exact (hoff .speaker).2.1 hok

/-- With the speaker alone active the earpiece, which is not, is refused as the only active
output; and so is the speaker while nothing is active. -/
theorem inactive_earpiece_refused_as_only_output :
    let start := VolumeDesk.ofSettings {}
    let d := start.perform [⟨.speaker, true⟩]
    d.activeDevices.map (·.type) = [.speaker] ∧ ¬ d.Sole .earpiece ∧
      d.setDeviceActive .earpiece false =
        (.error (.operationFailed "Earpiece is the only active Output device"), d) ∧
      start.activeDevices = [] ∧ ¬ start.Sole .speaker ∧
      start.setDeviceActive .speaker false =
        (.error (.operationFailed "Speaker is the only active Output device"), start) := by
  intro start d
  refine ⟨rfl, fun hsole => ?_, rfl, rfl, fun hsole => ?_, rfl⟩
  · exact absurd hsole.1 (by decide)
  · exact absurd hsole.1 (by decide)

end Patchbay
