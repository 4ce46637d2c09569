import Patchbay.Toml.Value

/-!
# Documents of TOML

`Toml.read?` reads a document: lines `key = value`, headers `[table]` and `[[array of tables]]`,
comments and empty lines. Arrays and tables in braces nest at most 79 deep, and a key has at most
79 parts.
-/
namespace Patchbay.Toml

def simpleKey : Scan String := fun cs =>
  match cs with
  | '"' :: _ | '\'' :: _ => lineString cs
  | _ =>
    let k := cs.takeWhile isBareKey
    if k.isEmpty then none else some (String.ofList k, cs.dropWhile isBareKey)

/-- The parts of a dotted key, with blanks around them. -/
def keyParts (fuel : Nat) (cs : List Char) : Option (List String × List Char) := do
  let (k, r) ← simpleKey (skipBlanks cs)
  match fuel, skipBlanks r with
  | fuel + 1, '.' :: r => do
    let (ks, r) ← keyParts fuel r
    pure (k :: ks, r)
  | _, r => pure ([k], r)

def key (cs : List Char) : Option (List String × List Char) := do
  let (ks, r) ← keyParts cs.length cs
  if ks.length < 80 then pure (ks, r) else none

/-- A moment, a fraction or an integer. -/
def number : Scan Value := fun cs =>
  match special? cs with
  | some r => some (.fraction none, r)
  | none => do
    match ← moment cs with
    | (some m, r) => pure (.moment m, r)
    | (none, _) =>
      match ← fraction cs with
      | (some f, r) => if f.isHuge && !f.negative then none else pure (.fraction (some f), r)
      | (none, _) =>
        let (i, r) ← integer cs
        pure (.integer i, r)

mutual

/-- A value that may nest `depth` deep. The fuel bounds the number of parts. -/
def value (fuel depth : Nat) (cs : List Char) : Option (Value × List Char) :=
  match cs with
  | 't' :: 'r' :: 'u' :: 'e' :: r => some (.boolean true, r)
  | 'f' :: 'a' :: 'l' :: 's' :: 'e' :: r => some (.boolean false, r)
  | '"' :: _ | '\'' :: _ => (anyString cs).map fun (s, r) => (.text s, r)
  | '[' :: r =>
    match fuel, depth with
    | fuel + 1, depth + 1 => (elements fuel depth r).map fun (vs, r) => (.array vs, r)
    | _, _ => none
  | '\x7b' :: r =>
    match fuel, depth with
    | fuel + 1, depth + 1 => do
      let r := skipBlanks r
      match r with
      | '\x7d' :: r => pure (.table [], r)
      | _ =>
        let (es, r) ← pairs fuel depth [] r
        pure (.table (finishEntries es), r)
    | _, _ => none
  | _ => number cs
termination_by structural fuel

/-- The elements of an array up to its bracket. -/
def elements (fuel depth : Nat) (cs : List Char) : Option (List Value × List Char) :=
  match skipLines cs with
  | ']' :: r => some ([], r)
  | cs =>
    match fuel with
    | 0 => none
    | fuel + 1 => do
      let (v, r) ← value fuel depth cs
      match skipLines r with
      | ',' :: r => do
        let (vs, r) ← elements fuel depth r
        pure (v :: vs, r)
      | ']' :: r => pure ([v], r)
      | _ => none
termination_by structural fuel

/-- The pairs of a table in braces, all on one line, up to its brace. -/
def pairs (fuel depth : Nat) (es : Entries) (cs : List Char) : Option (Entries × List Char) :=
  match fuel with
  | 0 => none
  | fuel + 1 => do
    let (path, r) ← key cs
    let r ← expect '=' r
    let (v, r) ← value fuel depth (skipBlanks r)
    let es ← es.addValue [] path v
    match skipBlanks r with
    | ',' :: r => pairs fuel depth es r
    | '\x7d' :: r => pure (es, r)
    | _ => none
termination_by structural fuel

end

/-- The lines of a document; `here` is the table of the last header. -/
def lines (fuel : Nat) (root : Entries) (here : List String) (cs : List Char) : Option Entries :=
  match fuel with
  | 0 => none
  | fuel + 1 =>
    match skipBlanks cs with
    | [] => some root
    | '[' :: '[' :: r => do
      let (path, r) ← key r
      let r ← expect ']' r
      let r ← expect ']' r
      let r ← lineEnd? r
      lines fuel (← root.openElement path) path r
    | '[' :: r => do
      let (path, r) ← key r
      let r ← expect ']' r
      let r ← lineEnd? r
      lines fuel (← root.openTable path) path r
    | c :: r =>
      if c = '#' || c = '\n' || c = '\r' then do
        lines fuel root here (← lineEnd? (c :: r))
      else do
        let (path, r) ← key (c :: r)
        let r ← expect '=' r
        let (v, r) ← value (2 * (r.length + 1)) 79 (skipBlanks r)
        let r ← lineEnd? r
        lines fuel (← root.addValue here path v) here r

/-- The root table of a document. -/
def read? (s : String) : Option (List (String × Value)) :=
  let cs := s.toList
  let cs := if cs.head? = some '\ufeff' then cs.drop 1 else cs
  (lines (cs.length + 1) [] [] cs).map finishEntries

end Patchbay.Toml
