import Patchbay.Fault

/-!
# Variables in settings

A settings text may name variables as `$` and a name in braces; the name ends at the first
closing brace. Each reference found in the text is replaced, in order, wherever it stands in what
the text has become by then, so a value that holds a reference is replaced only by a later one
of the same name. All variables must be set, also those named in comments.
-/
namespace Patchbay.Template

/-- The name after a dollar sign and an opening brace, and the text after it. -/
def name? (cs : List Char) : Option (List Char × List Char) :=
  match cs with
  | '$' :: '\x7b' :: r =>
    let name := r.takeWhile (· ≠ '\x7d')
    match name, r.drop name.length with
    | _ :: _, '\x7d' :: rest => some (name, rest)
    | _, _ => none
  | _ => none

/-- The names of the references in a text, in order. The fuel bounds the characters. -/
def names (fuel : Nat) (cs : List Char) : List String :=
  match fuel, cs with
  | 0, _ | _, [] => []
  | fuel + 1, c :: r =>
    match name? (c :: r) with
    | some (name, rest) => String.ofList name :: names fuel rest
    | none => names fuel r

/-- Puts `new` wherever `old` stands, from left to right; `old` is not empty. -/
def replaceAll (old new : List Char) (fuel : Nat) (cs : List Char) : List Char :=
  match fuel, cs with
  | 0, cs => cs
  | _, [] => []
  | fuel + 1, c :: r =>
    if old.isPrefixOf (c :: r) then new ++ replaceAll old new fuel ((c :: r).drop old.length)
    else c :: replaceAll old new fuel r

/-- The text of a reference. -/
def reference (name : String) : List Char :=
  '$' :: '\x7b' :: name.toList ++ ['\x7d']

/-- Replaces all references of a text. -/
def expand (lookup : String → Option String) (text : String) :
    Except SettingsError String := do
  let cs := text.toList
  let step (cs : List Char) (name : String) : Except SettingsError (List Char) :=
    match lookup name with
    | none => .error (.missingVariable name)
    | some value => .ok (replaceAll (reference name) value.toList cs.length cs)
  let cs ← (names cs.length cs).foldlM step cs
  pure (String.ofList cs)

end Patchbay.Template
