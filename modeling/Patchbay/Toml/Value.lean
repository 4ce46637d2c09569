import Patchbay.Toml.Moment

/-!
# Values of TOML

A value as a reader sees it, and the draft of a table while a document is being read. The draft
remembers how each table came about, because that decides which lines may still add to it.
-/
namespace Patchbay.Toml

inductive Value where
  | text (s : String)
  | integer (i : Int)
  /-- A number that is not an integer; none if it is infinite or no number. -/
  | fraction (f : Option Fraction)
  | boolean (b : Bool)
  | moment (m : Moment)
  | array (vs : List Value)
  | table (entries : List (String × Value))

/-- How a table came about. -/
inductive Origin where
  /-- By a header, as an element of an array of tables, or in braces. -/
  | declared
  /-- On the way to the table of a header. -/
  | implied
  /-- By a dotted key. -/
  | dotted
deriving DecidableEq, Repr

inductive Draft where
  | value (v : Value)
  | table (origin : Origin) (entries : List (String × Draft))
  /-- An array of tables, each begun by a header of its own. -/
  | tables (elements : List (List (String × Draft)))

/-- The entries of a table that is being read. -/
abbrev Entries := List (String × Draft)

namespace Entries

def get? (es : Entries) (k : String) : Option Draft :=
  (es.find? (·.1 = k)).map (·.2)

def set (es : Entries) (k : String) (d : Draft) : Entries :=
  if es.any (·.1 = k) then es.map fun e => if e.1 = k then (k, d) else e else es ++ [(k, d)]

/-- Applies `f` to the table at the end of a path of keys and puts the result in its place.
Tables missing on the way are made; an array of tables stands for its last element. A dotted key
may not go through a table that was declared. -/
def descend (isDotted : Bool) (f : Origin → Entries → Option Entries) :
    List String → Origin → Entries → Option Entries
  | [], origin, es => f origin es
  | k :: path, _, es =>
    match get? es k with
    | none => do
      let origin := if isDotted then Origin.dotted else .implied
      let inner ← descend isDotted f path origin []
      pure (set es k (.table origin inner))
    | some (.value _) => none
    | some (.tables elements) => do
      let last ← elements.getLast?
      let inner ← descend isDotted f path .declared last
      pure (set es k (.tables (elements.dropLast ++ [inner])))
    | some (.table origin inner) =>
      if isDotted && origin = .declared then none
      else do
        let inner ← descend isDotted f path origin inner
        pure (set es k (.table origin inner))

/-- Adds a value under a new key. `isDirect` says that the key has no dots; only then may the
table be other than one made by dotted keys, and only then must it be. -/
def insertValue (isDirect : Bool) (k : String) (v : Value) (origin : Origin) (es : Entries) :
    Option Entries :=
  if (origin == .dotted) == isDirect then none
  else if (get? es k).isSome then none
  else some (es ++ [(k, .value v)])

/-- Splits a path into the way and the last key. -/
def split (path : List String) : Option (List String × String) :=
  path.getLast?.map fun k => (path.dropLast, k)

/-- A line `path = value` in the table at `here`. -/
def addValue (root : Entries) (here path : List String) (v : Value) : Option Entries := do
  let (way, k) ← split path
  descend false
    (fun origin es => descend true (insertValue way.isEmpty k v) way origin es) here .declared root

/-- A header of a table: the table must be new or only implied so far. -/
def openTable (root : Entries) (path : List String) : Option Entries := do
  let (way, k) ← split path
  descend false (fun _ es =>
    match get? es k with
    | none => some (es ++ [(k, .table .declared [])])
    | some (.table .implied inner) =>
      some (es.filter (fun e => e.1 ≠ k) ++ [(k, .table .declared inner)])
    | some _ => none) way .declared root

/-- A header of an element of an array of tables. -/
def openElement (root : Entries) (path : List String) : Option Entries := do
  let (way, k) ← split path
  descend false (fun _ es =>
    match get? es k with
    | none => some (es ++ [(k, .tables [[]])])
    | some (.tables elements) => some (set es k (.tables (elements ++ [[]])))
    | some _ => none) way .declared root

end Entries

mutual

/-- The value of a finished draft. -/
def Draft.finish : Draft → Value
  | .value v => v
  | .table _ es => .table (finishEntries es)
  | .tables elements => .array (finishElements elements)

def finishEntries : List (String × Draft) → List (String × Value)
  | [] => []
  | (k, d) :: es => (k, d.finish) :: finishEntries es

def finishElements : List (List (String × Draft)) → List Value
  | [] => []
  | es :: rest => .table (finishEntries es) :: finishElements rest

end

end Patchbay.Toml
