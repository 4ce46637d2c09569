import Mathlib.Data.List.Nodup
import Mathlib.Logic.Function.Basic
import Patchbay.Table

/-!
# Looking entries up

What `get?` finds after `put`, `modify` and `erase`. As no key occurs twice, an entry is found
exactly if it is in the table, and tables can be compared by what they find.
-/
namespace Patchbay.Table

variable {κ α β : Type}

/-- Tables with the same entries. -/
abbrev Perm (t t' : Table κ α) : Prop := t.toList.Perm t'.toList

@[simp]
theorem toList_empty : (∅ : Table κ α).toList = [] := rfl

@[simp]
theorem keys_mapValues (t : Table κ α) (f : κ → α → β) : (t.mapValues f).keys = t.keys := by
  simp [keys, mapValues]

theorem mem_mapValues (t : Table κ α) (f : κ → α → β) (k : κ) (v : β) :
    (k, v) ∈ (t.mapValues f).toList ↔ ∃ u, (k, u) ∈ t.toList ∧ f k u = v := by
  simp only [mapValues, List.mem_map, Prod.exists, Prod.mk.injEq]
  constructor
  · rintro ⟨k', u, hmem, rfl, rfl⟩
    exact ⟨u, hmem, rfl⟩
  · rintro ⟨u, hmem, rfl⟩
    exact ⟨k, u, hmem, rfl, rfl⟩

variable [DecidableEq κ]

@[simp]
theorem get?_empty (k : κ) : (∅ : Table κ α).get? k = none := rfl

@[simp]
theorem keys_modify (t : Table κ α) (k : κ) (f : α → α) : (t.modify k f).keys = t.keys :=
  keys_mapValues t _

/-- An entry is found exactly if it is in the table. -/
theorem get?_eq_some_iff {t : Table κ α} {k : κ} {v : α} :
    t.get? k = some v ↔ (k, v) ∈ t.toList := by
  rw [get?, Option.map_eq_some_iff]
  constructor
  · rintro ⟨e, he, rfl⟩
    have hk : e.1 = k := by simpa using List.find?_some he
    exact hk ▸ List.mem_of_find?_eq_some he
  · intro hmem
    have hfound : (t.toList.find? (·.1 == k)).isSome :=
      List.find?_isSome.mpr ⟨_, hmem, beq_self_eq_true k⟩
    obtain ⟨e, he⟩ := Option.isSome_iff_exists.mp hfound
    have hk : e.1 = k := by simpa using List.find?_some he
    have hsame := List.inj_on_of_nodup_map t.distinct (List.mem_of_find?_eq_some he) hmem hk
    exact ⟨e, he, congrArg Prod.snd hsame⟩

theorem get?_eq_none_iff {t : Table κ α} {k : κ} : t.get? k = none ↔ k ∉ t.keys := by
  simp [Option.eq_none_iff_forall_ne_some, get?_eq_some_iff, keys]

theorem mem_keys_iff_get? (t : Table κ α) (k : κ) : k ∈ t.keys ↔ ∃ v, t.get? k = some v := by
  simp [get?_eq_some_iff, keys]

theorem has_iff (t : Table κ α) (k : κ) : t.has k ↔ ∃ v, t.get? k = some v := by
  rw [← mem_keys_iff, mem_keys_iff_get?]

theorem has_eq_isSome (t : Table κ α) (k : κ) : t.has k = (t.get? k).isSome := by
  rw [Bool.eq_iff_iff, has_iff, Option.isSome_iff_exists]

theorem get?_mapValues (t : Table κ α) (f : κ → α → β) (k : κ) :
    (t.mapValues f).get? k = (t.get? k).map (f k) := by
  ext v
  simp only [get?_eq_some_iff, mem_mapValues, Option.map_eq_some_iff]

theorem get?_filter (t : Table κ α) (p : κ × α → Bool) (k : κ) :
    (t.filter p).get? k = (t.get? k).filter fun v => p (k, v) := by
  ext v
  simp only [get?_eq_some_iff, filter, List.mem_filter, Option.filter_eq_some_iff]

theorem get?_modify (t : Table κ α) (k k' : κ) (f : α → α) :
    (t.modify k f).get? k' = if k == k' then (t.get? k').map f else t.get? k' := by
  rw [modify, get?_mapValues, BEq.comm (a := k)]
  split
  · rfl
  · exact Option.map_id' ..

theorem mem_put_iff {t : Table κ α} {k : κ} {v : α} {e : κ × α} :
    e ∈ (t.put k v).toList ↔ e = (k, v) ∨ e.1 ≠ k ∧ e ∈ t.toList := by
  obtain ⟨k', v'⟩ := e
  unfold put
  split
  · rename_i hhas
    obtain ⟨u, hu⟩ := (has_iff t k).mp hhas
    rw [modify, mem_mapValues]
    by_cases hk : k' = k
    · subst hk
      simp only [beq_self_eq_true, if_true]
      constructor
      · rintro ⟨_, -, rfl⟩
        exact .inl rfl
      · rintro (h | ⟨hne, -⟩)
        · cases h
          exact ⟨u, get?_eq_some_iff.mp hu, rfl⟩
        · exact absurd rfl hne
    · simp [hk]
  · rename_i hhas
    have hne : (k', v') ∈ t.toList → k' ≠ k := by
      rintro hmem rfl
      exact hhas ((has_iff t k').mpr ⟨v', get?_eq_some_iff.mpr hmem⟩)
    rw [List.mem_append, List.mem_singleton]
    constructor
    · rintro (hmem | hnew)
      · exact .inr ⟨hne hmem, hmem⟩
      · exact .inl hnew
    · rintro (hnew | ⟨-, hmem⟩)
      · exact .inr hnew
      · exact .inl hmem

theorem mem_put {t : Table κ α} {k : κ} {v : α} {e : κ × α} (h : e ∈ (t.put k v).toList) :
    e = (k, v) ∨ e ∈ t.toList :=
  (mem_put_iff.mp h).imp_right And.right

theorem get?_put (t : Table κ α) (k k' : κ) (v : α) :
    (t.put k v).get? k' = if k == k' then some v else t.get? k' := by
  ext v'
  rw [get?_eq_some_iff, mem_put_iff, ← get?_eq_some_iff]
  by_cases hk : k' = k
  · simp [hk, eq_comm]
  · have hne : ¬ k == k' := fun h => hk (eq_of_beq h).symm
    simp [hk, hne]

theorem get?_erase (t : Table κ α) (k k' : κ) :
    (t.erase k).get? k' = if k == k' then none else t.get? k' := by
  rw [erase, get?_filter, BEq.comm (a := k)]
  by_cases hk : k' == k
  · simp [hk]
  · cases t.get? k' <;> simp [hk]

/-- An entry that is found after `put` is the new one or an old one under another key. -/
theorem get?_put_cases {t : Table κ α} {k k' : κ} {v v' : α} (h : (t.put k v).get? k' = some v') :
    (k' = k ∧ v' = v) ∨ (k' ≠ k ∧ t.get? k' = some v') := by
  rw [get?_eq_some_iff] at h ⊢
  simpa using mem_put_iff.mp h

theorem get?_of_get?_erase {t : Table κ α} {k k' : κ} {v : α}
    (h : (t.erase k).get? k' = some v) : k' ≠ k ∧ t.get? k' = some v := by
  rw [get?_erase] at h
  split at h
  · cases h
  · rename_i hk
    exact ⟨fun hsame => hk (by simp [hsame]), h⟩

theorem has_put (t : Table κ α) (k k' : κ) (v : α) :
    (t.put k v).has k' = (k == k' || t.has k') := by
  rw [has_eq_isSome, has_eq_isSome, get?_put]
  cases k == k' <;> rfl

theorem has_modify (t : Table κ α) (k k' : κ) (f : α → α) :
    (t.modify k f).has k' = t.has k' := by
  rw [Bool.eq_iff_iff, ← mem_keys_iff, ← mem_keys_iff, keys_modify]

theorem has_erase (t : Table κ α) (k k' : κ) : (t.erase k).has k' = (!(k == k') && t.has k') := by
  rw [has_eq_isSome, has_eq_isSome, get?_erase]
  cases k == k' <;> rfl

theorem mem_keys_put (t : Table κ α) (k k' : κ) (v : α) :
    k' ∈ (t.put k v).keys ↔ k' = k ∨ k' ∈ t.keys := by
  rw [mem_keys_iff, mem_keys_iff, has_put, Bool.or_eq_true, beq_iff_eq, eq_comm]

theorem mem_keys_erase (t : Table κ α) (k k' : κ) :
    k' ∈ (t.erase k).keys ↔ k' ≠ k ∧ k' ∈ t.keys := by
  rw [mem_keys_iff, mem_keys_iff, has_erase, Bool.and_eq_true, Bool.not_eq_true',
    beq_eq_false_iff_ne, ne_comm]

theorem toList_put_of_has {t : Table κ α} {k : κ} (h : t.has k) (v : α) :
    (t.put k v).toList = (t.modify k fun _ => v).toList := by
  rw [put, dif_pos h]

theorem toList_put_of_not_has {t : Table κ α} {k : κ} (h : ¬ t.has k) (v : α) :
    (t.put k v).toList = t.toList ++ [(k, v)] := by
  rw [put, dif_neg h]

theorem eq_empty_of_not_has {t : Table κ α} (h : ∀ k, ¬ t.has k) : t = ∅ := by
  refine Table.ext (List.eq_nil_iff_forall_not_mem.mpr fun e he => h e.1 ?_)
  exact (mem_keys_iff t e.1).mp (List.mem_map_of_mem he)

theorem mem_keys_foldl_put (t : Table κ α) (entries : List (κ × α)) (k : κ) :
    k ∈ (entries.foldl (fun t e => t.put e.1 e.2) t).keys ↔
      k ∈ t.keys ∨ k ∈ entries.map (·.1) := by
  induction entries generalizing t with
  | nil => simp
  | cons e entries ih =>
      rw [List.foldl_cons, ih, mem_keys_put, List.map_cons, List.mem_cons]
      tauto

theorem mem_of_mem_foldl_put {t : Table κ α} {entries : List (κ × α)} {e : κ × α}
    (h : e ∈ (entries.foldl (fun t e => t.put e.1 e.2) t).toList) :
    e ∈ t.toList ∨ e ∈ entries := by
  induction entries generalizing t with
  | nil => exact .inl h
  | cons e' entries ih =>
      rcases ih h with hput | hrest
      · rcases mem_put hput with rfl | hold
        · exact .inr List.mem_cons_self
        · exact .inl hold
      · exact .inr (List.mem_cons_of_mem _ hrest)

theorem mem_keys_ofList (entries : List (κ × α)) (k : κ) :
    k ∈ (ofList entries).keys ↔ k ∈ entries.map (·.1) :=
  (mem_keys_foldl_put ∅ entries k).trans (or_iff_right List.not_mem_nil)

theorem mem_of_mem_ofList {entries : List (κ × α)} {e : κ × α} (h : e ∈ (ofList entries).toList) :
    e ∈ entries :=
  (mem_of_mem_foldl_put h).resolve_left List.not_mem_nil

section MapKeys
variable {ι : Type}

/-- The same entries under other keys. -/
def mapKeys (t : Table κ α) (f : κ → ι) (hf : Function.Injective f) : Table ι α where
  toList := t.toList.map fun e => (f e.1, e.2)
  distinct := by
    have hkeys := t.distinct.map hf
    rwa [List.map_map] at hkeys ⊢

variable [DecidableEq ι] {f : κ → ι} (hf : Function.Injective f)

theorem get?_mapKeys (t : Table κ α) (k : κ) : (t.mapKeys f hf).get? (f k) = t.get? k := by
  ext v
  simp [get?_eq_some_iff, mapKeys, hf.eq_iff]

theorem put_mapKeys (t : Table κ α) (k : κ) (v : α) :
    (t.mapKeys f hf).put (f k) v = (t.put k v).mapKeys f hf := by
  have hhas : (t.mapKeys f hf).has (f k) = t.has k := by
    rw [has_eq_isSome, has_eq_isSome, get?_mapKeys]
  refine Table.ext ?_
  by_cases hk : t.has k
  · rw [toList_put_of_has (hhas.trans hk)]
    simp [mapKeys, modify, mapValues, toList_put_of_has hk, hf.eq_iff]
  · rw [toList_put_of_not_has (by rwa [hhas])]
    simp [mapKeys, toList_put_of_not_has hk]

end MapKeys

end Patchbay.Table
