/-!
# Inboxes

The queue between a sender and a reader that may have gone. `Inboxes` numbers the readers that a
sender ever had; one that has gone keeps its number and gets nothing more.
-/
namespace Patchbay

/-- Messages not yet read, and whether the reader is still there. -/
structure Inbox (α : Type) where
  queue : List α := []
  isOpen : Bool := true
deriving DecidableEq, Repr

/-- A message for a reader that has gone is lost. -/
def Inbox.send {α : Type} (b : Inbox α) (a : α) : Inbox α :=
  if b.isOpen then { b with queue := b.queue ++ [a] } else b

abbrev Inboxes (α : Type) := List (Inbox α)

namespace Inboxes
variable {α : Type}

/-- A new reader, by its number. -/
def join (bs : Inboxes α) : Nat × Inboxes α :=
  (bs.length, bs ++ [⟨[], true⟩])

def sendAll (bs : Inboxes α) (a : α) : Inboxes α :=
  bs.map (·.send a)

def sendTo (bs : Inboxes α) (i : Nat) (a : α) : Inboxes α :=
  bs.modify i (·.send a)

def isOpen (bs : Inboxes α) (i : Nat) : Bool :=
  (bs[i]?).any (·.isOpen)

/-- All that waits for reader `i`. -/
def take (bs : Inboxes α) (i : Nat) : List α × Inboxes α :=
  (((bs[i]?).map (·.queue)).getD [], bs.modify i ({ · with queue := [] }))

/-- Reader `i` goes. -/
def close (bs : Inboxes α) (i : Nat) : Inboxes α :=
  bs.modify i fun _ => { queue := [], isOpen := false }

end Inboxes
end Patchbay
