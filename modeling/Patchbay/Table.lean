/-!
# Tables

A table is a list of keyed entries in which no key occurs twice. A new key goes to the end, so the
entries stand in the order in which their keys were first put.
-/
namespace Patchbay

/-- Entries of type `α` under keys of type `κ`. -/
@[ext]
structure Table (κ α : Type) where
  toList : List (κ × α)
  distinct : (toList.map (·.1)).Nodup
deriving DecidableEq, Repr

namespace Table
variable {κ α β : Type}

instance : EmptyCollection (Table κ α) := ⟨⟨[], List.nodup_nil⟩⟩
instance : Inhabited (Table κ α) := ⟨∅⟩

def size (t : Table κ α) : Nat :=
  t.toList.length

def keys (t : Table κ α) : List κ :=
  t.toList.map (·.1)

def values (t : Table κ α) : List α :=
  t.toList.map (·.2)

/-- Changes what is entered, under the same keys. -/
def mapValues (t : Table κ α) (f : κ → α → β) : Table κ β where
  toList := t.toList.map fun e => (e.1, f e.1 e.2)
  distinct := by
    rw [List.map_map]
    exact t.distinct

/-- Keeps the entries that meet a condition. -/
def filter (t : Table κ α) (p : κ × α → Bool) : Table κ α where
  toList := t.toList.filter p
  distinct := t.distinct.sublist (List.filter_sublist.map _)

variable [DecidableEq κ]

/-- The entry under `k`. -/
def get? (t : Table κ α) (k : κ) : Option α :=
  (t.toList.find? (·.1 == k)).map (·.2)

def has (t : Table κ α) (k : κ) : Bool :=
  t.toList.any (·.1 == k)

/-- Changes the entry under `k`, if there is one. -/
def modify (t : Table κ α) (k : κ) (f : α → α) : Table κ α :=
  t.mapValues fun k' v => if k' == k then f v else v

/-- Removes the entry under `k`. -/
def erase (t : Table κ α) (k : κ) : Table κ α :=
  t.filter fun e => !(e.1 == k)

theorem mem_keys_iff (t : Table κ α) (k : κ) : k ∈ t.keys ↔ t.has k := by
  simp [keys, has]

/-- Sets the entry under `k`; a key that is already present keeps its place. -/
def put (t : Table κ α) (k : κ) (v : α) : Table κ α :=
  if h : t.has k then t.modify k fun _ => v
  else
    { toList := t.toList ++ [(k, v)]
      distinct := by
        rw [List.map_append, List.nodup_append]
        refine ⟨t.distinct, by simp, fun a ha b hb hab => h ?_⟩
        obtain rfl : b = k := by simpa using hb
        exact (mem_keys_iff t b).mp (hab ▸ ha) }

/-- Puts entries one after the other. -/
def ofList (entries : List (κ × α)) : Table κ α :=
  entries.foldl (fun t e => t.put e.1 e.2) ∅

end Table

/-- Orders the entries by key. -/
def Table.sorted {α : Type} (t : Table String α) : Table String α where
  toList := t.toList.mergeSort fun a b => decide (a.1 ≤ b.1)
  distinct := ((List.mergeSort_perm _ _).map _).nodup_iff.mpr t.distinct

end Patchbay
