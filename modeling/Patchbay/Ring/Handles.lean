import Patchbay.Ring.Geometry
import Patchbay.Table

/-!
# Handles

A handle names a ring to the program that is to map it. Each handle is given out once.
-/
namespace Patchbay

/-- What a peer needs to know of a ring. -/
structure Handle where
  id : Nat
  spanCount : UInt32
  spanSize : UInt32
deriving DecidableEq, Repr

/-- The form used in reports. -/
def Handle.describe (h : Handle) : String :=
  "BufferHandle \x7b " ++ s!"id: {h.id}, span_count: {h.spanCount}, span_size_bytes: " ++
    s!"{h.spanSize}" ++ " \x7d"

/-- A published ring and whether it was handed over. -/
structure Published where
  geometry : RingGeometry
  isClaimed : Bool := false
deriving DecidableEq, Repr

structure HandleTable where
  /-- Numbers without a bound; those of 64 bits would start again after 2 ^ 64 handles. -/
  nextId : Nat := 1
  entries : Table Nat Published := ∅
deriving DecidableEq, Repr

namespace HandleTable

/-- Enters a ring under a new handle. -/
def publish (t : HandleTable) (g : RingGeometry) : Handle × HandleTable :=
  (⟨t.nextId, g.spanCount, g.spanSize⟩,
    { nextId := t.nextId + 1, entries := t.entries.put t.nextId { geometry := g } })

/-- Hands a ring over. -/
def claim (t : HandleTable) (id : Nat) : Except StreamError RingGeometry × HandleTable :=
  match t.entries.get? id with
  | none => (.error (.handleNotFound id), t)
  | some e =>
    if e.isClaimed then (.error (.alreadyTransferred id), t)
    else
      (.ok e.geometry,
        { t with entries := t.entries.modify id ({ · with isClaimed := true }) })

def isClaimed (t : HandleTable) (id : Nat) : Bool :=
  (t.entries.get? id).any (·.isClaimed)

def remove (t : HandleTable) (id : Nat) : HandleTable :=
  { t with entries := t.entries.erase id }

def size (t : HandleTable) : Nat :=
  t.entries.size

end HandleTable
end Patchbay
