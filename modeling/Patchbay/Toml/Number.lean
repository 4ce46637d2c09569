import Patchbay.Toml.Scan

/-!
# Numbers of TOML

Integers are decimal, hexadecimal, octal or binary and have 64 bits. Underscores may stand
between digits. A fraction that is too large for a double is refused unless it is negative.
-/
namespace Patchbay.Toml

/-- Digits of the given kind with single underscores between them. -/
def digits (isIn : Char → Bool) : Scan (List Char)
  | [] => none
  | c :: r => if isIn c then more [c] r else none
where
  /-- Continues after a digit. -/
  more (done : List Char) : Scan (List Char)
    | '_' :: c :: r => if isIn c then more (c :: done) r else none
    | '_' :: [] => none
    | c :: r => if isIn c then more (c :: done) r else some (done.reverse, c :: r)
    | [] => some (done.reverse, [])

/-- A sign, if there is one; true for minus. -/
def sign : List Char → Bool × List Char
  | '-' :: r => (true, r)
  | '+' :: r => (false, r)
  | cs => (false, cs)

/-- Decimal digits without a leading zero, or a single zero. -/
def wholeDigits : Scan (List Char)
  | '0' :: r => some (['0'], r)
  | cs => digits isDigit cs

/-- The number that digits stand for. -/
def ofDigits (base : Nat) (ds : List Char) : Nat :=
  ds.foldl (fun a c => a * base + hexValue c) 0

/-- An integer, if 64 bits can hold it. -/
def fits (i : Int) : Option Int :=
  if Int64.minValue.toInt ≤ i && i ≤ Int64.maxValue.toInt then some i else none

def prefixed (base : Nat) (isIn : Char → Bool) : Scan Int := fun cs => do
  let (ds, r) ← digits isIn cs
  let i ← fits (ofDigits base ds)
  pure (i, r)

def integer : Scan Int
  | '0' :: 'x' :: r => prefixed 16 isHexDigit r
  | '0' :: 'o' :: r => prefixed 8 (fun c => '0' ≤ c && c ≤ '7') r
  | '0' :: 'b' :: r => prefixed 2 (fun c => c = '0' || c = '1') r
  | cs => do
    let (negative, r) := sign cs
    let (ds, r) ← wholeDigits r
    let n : Int := ofDigits 10 ds
    let i ← fits (if negative then -n else n)
    pure (i, r)

/-- A decimal number: sign, digits with their scale, and exponent. -/
structure Fraction where
  negative : Bool
  digits : Nat
  /-- The number is `digits · 10 ^ exponent`. -/
  exponent : Int
deriving DecidableEq, Repr

/-- Whether the number rounds to infinity as a double: whether it is at least half way from the
largest double to the next power of two. -/
def Fraction.isHuge (f : Fraction) : Bool :=
  let bound := 1 <<< 1024 - 1 <<< 970
  let places : Int := (Nat.toDigits 10 f.digits).length + f.exponent
  if f.digits = 0 || places < 300 then false
  else if places > 320 then true
  else if 0 ≤ f.exponent then f.digits * Nat.pow 10 f.exponent.toNat ≥ bound
  else f.digits ≥ bound * Nat.pow 10 (-f.exponent).toNat

/-- An exponent. -/
def exponent : Scan Int := fun cs =>
  match cs with
  | c :: r =>
    if c = 'e' || c = 'E' then do
      let (negative, r) := sign r
      let (ds, r) ← digits isDigit r
      let n : Int := ofDigits 10 ds
      pure (if negative then -n else n, r)
    else none
  | [] => none

/-- A number with a fraction or an exponent; nothing here if it has neither. -/
def fraction : Scan (Option Fraction) := fun cs =>
  let (negative, r) := sign cs
  match wholeDigits r with
  | none => some (none, cs)
  | some (whole, r) =>
    match r with
    | '.' :: r => do
      let (part, r) ← digits isDigit r
      let n := ofDigits 10 (whole ++ part)
      let (e, r) ← if r.head? = some 'e' || r.head? = some 'E' then exponent r else some (0, r)
      pure (some ⟨negative, n, e - part.length⟩, r)
    | c :: _ =>
      if c = 'e' || c = 'E' then do
        let (e, r) ← exponent r
        pure (some ⟨negative, ofDigits 10 whole, e⟩, r)
      else some (none, cs)
    | [] => some (none, cs)

/-- The names of infinity and of what is not a number, with or without a sign. -/
def special? (cs : List Char) : Option (List Char) :=
  match (sign cs).2 with
  | 'i' :: 'n' :: 'f' :: r => some r
  | 'n' :: 'a' :: 'n' :: r => some r
  | _ => none

end Patchbay.Toml
