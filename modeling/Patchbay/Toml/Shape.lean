import Patchbay.Named
import Patchbay.Table
import Patchbay.Text.SnakeCase
import Patchbay.Toml.Document

/-!
# Reading values as data

What a value of TOML can stand for. Numbers are whole and within bounds, and nothing is converted.
A record may be written as a table, or as an array of its fields in order. A choice may be written
as its name, or as a table whose only key is the name and whose only value is empty.
-/
namespace Patchbay.Toml
namespace Value
variable {α : Type}

def text? : Value → Option String
  | .text s => some s
  | _ => none

/-- A number below `bound`. -/
def natural? (bound : Nat) : Value → Option Nat
  | .integer i => if 0 ≤ i && i < bound then some i.toNat else none
  | _ => none

def list? (read : Value → Option α) : Value → Option (List α)
  | .array vs => vs.mapM read
  | _ => none

/-- One of the names in snake case. -/
def choice? [Named α] : Value → Option α
  | .text s => find s
  | .table [(k, .table [])] | .table [(k, .array [])] => find k
  | _ => none
where
  /-- The choice with this name. -/
  find (s : String) : Option α := Named.all.find? fun a : α => snakeCase (Named.name a) = s

/-- A moment reads as a table with its text under this key. -/
def momentKey : String := "$__toml_private_datetime"

/-- A table from keys to values of one kind, ordered by key. -/
def table? (read : Value → Option α) : Value → Option (Table String α)
  | .table es => do
    let entries ← es.mapM fun e => (read e.2).map fun a => (e.1, a)
    pure (Table.ofList entries).sorted
  | .moment m => (read (.text m.toText)).map fun a => .ofList [(momentKey, a)]
  | _ => none

/-- The fields of a record: the entries of a table, or the elements of an array under the names
of the fields. -/
def fields? (names : List String) : Value → Option (List (String × Value))
  | .table es => some es
  | .array vs => some (names.zip vs)
  | .moment _ => some []
  | _ => none

end Value

/-- A field that must be there. -/
def field? {α : Type} (fs : List (String × Value)) (name : String) (read : Value → Option α) :
    Option α :=
  (fs.lookup name).bind read

/-- A field that may be left out. -/
def fieldOr? {α : Type} (fs : List (String × Value)) (name : String) (read : Value → Option α)
    (default : α) : Option α :=
  match fs.lookup name with
  | some v => read v
  | none => some default

end Patchbay.Toml
