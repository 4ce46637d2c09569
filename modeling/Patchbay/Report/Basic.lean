import Patchbay.Named
import Patchbay.Number.LittleEndian
import Patchbay.Number.Single
import Patchbay.Table

/-!
# Reports

A report shows a value to tools that watch the program: as a number, a text, a list or a record of
named fields. Bytes are shown in hexadecimal digits, and a single precision number by its bits.
-/
namespace Patchbay

inductive Report where
  | nothing
  | flag (b : Bool)
  | number (n : Int)
  | text (s : String)
  | list (items : List Report)
  | record (fields : List (String × Report))
deriving Repr, Inhabited

/-- Values that have a report. -/
class Reported (α : Type) where
  report : α → Report

export Reported (report)

/-- Values that fill the fields of a record. -/
class Columns (α : Type) where
  columns : α → List Report

namespace Report

/-- The digits of bytes. -/
def digits (bs : List UInt8) : String :=
  let digit (n : Nat) : Char := Char.ofNat (if n < 10 then 48 + n else 87 + n)
  bs.foldl (fun s b => (s.push (digit (b.toNat / 16))).push (digit (b.toNat % 16))) ""

/-- A record, by the names of its fields with blanks between them. -/
def of {α : Type} [Columns α] (names : String) (a : α) : Report :=
  .record ((names.splitOn " ").zip (Columns.columns a))

/-- The record with one field changed or added. -/
def set (r : Report) (name : String) (value : Report) : Report :=
  match r with
  | record fields => .record ((Table.ofList fields).put name value).toList
  | r => r

end Report

section
variable {α β : Type}

instance : Reported Report := ⟨id⟩
instance : Reported Nat := ⟨fun n => .number n⟩
instance : Reported Int := ⟨.number⟩
instance : Reported UInt8 := ⟨fun n => .number n.toNat⟩
instance : Reported UInt16 := ⟨fun n => .number n.toNat⟩
instance : Reported UInt32 := ⟨fun n => .number n.toNat⟩
instance : Reported UInt64 := ⟨fun n => .number n.toNat⟩
instance : Reported Int32 := ⟨fun n => .number n.toInt⟩
instance : Reported Bool := ⟨.flag⟩
instance : Reported String := ⟨.text⟩

/-- What succeeded with nothing to tell is shown as `ok`. -/
instance : Reported Unit := ⟨fun _ => .text "ok"⟩

instance [Reported α] : Reported (List α) := ⟨fun as => .list (as.map report)⟩
instance : Reported (List UInt8) := ⟨fun bs => .text (Report.digits bs)⟩
instance [Reported α] : Reported (Option α) := ⟨fun a => (a.map report).getD .nothing⟩
instance [Reported α] [Reported β] : Reported (α × β) := ⟨fun p => .list [report p.1, report p.2]⟩

instance [Reported α] [Reported β] : Reported (Except α β) where
  report
    | .ok b => report b
    | .error a => report a

instance [Named α] : Reported α := ⟨fun a => .text (Named.name a)⟩

instance : Reported Single where
  report x :=
    .text (if x.isNaN then "nan" else Report.digits (LittleEndian.bytes 4 x.bits.toNat).reverse)

instance [Reported α] : Columns α := ⟨fun a => [report a]⟩
instance [Reported α] [Columns β] : Columns (α × β) := ⟨fun p => report p.1 :: Columns.columns p.2⟩

end

/-- A table as a record. -/
def Table.report {α : Type} [Reported α] (t : Table String α) : Report :=
  .record (t.toList.map fun e => (e.1, Patchbay.report e.2))

end Patchbay
