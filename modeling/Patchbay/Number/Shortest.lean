import Patchbay.Number.Single

/-!
# The shortest decimal of a number

A finite number is written with the fewest decimal digits that no other number is nearer to; of
two such decimals the nearer one, and the greater one if they are equally near. All digits are
written out: there is never an exponent.
-/
namespace Patchbay.Single

/-- A positive number with the bounds of the decimals that are nearest to it, in units of
`1 / den`. -/
structure Interval where
  value : Nat
  low : Nat
  high : Nat
  den : Nat
  /-- Whether the bounds themselves belong to it. -/
  closed : Bool

def interval (x : Single) : Interval :=
  let (m, q) := x.decode
  let atPower := m = 0x800000 && q ≠ -149
  let (value, den) := scaled (4 * m) 1 (q - 2)
  let unit := (scaled 1 1 (q - 2)).1
  { value := value
    low := value - (if atPower then 1 else 2) * unit
    high := value + 2 * unit
    den := den
    closed := m % 2 = 0 }

/-- Whether `n · 10 ^ k` lies in the interval. -/
def Interval.holds (i : Interval) (n : Nat) (k : Int) : Bool :=
  let a := if 0 ≤ k then n * Nat.pow 10 k.toNat * i.den else n * i.den
  let s := if 0 ≤ k then 1 else Nat.pow 10 (-k).toNat
  if i.closed then i.low * s ≤ a && a ≤ i.high * s else i.low * s < a && a < i.high * s

/-- The multiple of `10 ^ k` in the interval that is nearest to its value. -/
def Interval.onGrid? (i : Interval) (k : Int) : Option Nat :=
  let num := if 0 ≤ k then i.value else i.value * Nat.pow 10 (-k).toNat
  let den := if 0 ≤ k then i.den * Nat.pow 10 k.toNat else i.den
  let n := num / den
  let below := i.holds n k
  let above := i.holds (n + 1) k
  if above && (!below || 2 * (num % den) ≥ den) then some (n + 1)
  else if below then some n
  else none

/-- The first grid, from `10 ^ k` downward, with a point in the interval. -/
def Interval.shortest (i : Interval) : Nat → Int → Nat × Int
  | 0, k => (i.value / i.den, k)
  | fuel + 1, k =>
    match i.onGrid? k with
    | some n => (n, k)
    | none => i.shortest fuel (k - 1)

/-- `n · 10 ^ k` in positional notation. -/
def positional (n : Nat) (k : Int) : String :=
  if 0 ≤ k then toString (n * Nat.pow 10 k.toNat)
  else
    let places := (-k).toNat
    let digits := String.ofList (Nat.toDigits 10 n)
    let padded := String.ofList (List.replicate (places + 1 - digits.length) '0') ++ digits
    let whole := padded.toList.take (padded.length - places)
    let rest := padded.toList.drop (padded.length - places)
    String.ofList whole ++ "." ++ String.ofList rest

/-- The text of a number. -/
def toText (x : Single) : String :=
  if x.isNaN then "NaN"
  else
    let sign := if x.isNegative then "-" else ""
    if x.isInfinite then sign ++ "inf"
    else if x.isZero then sign ++ "0"
    else
      let (n, k) := x.interval.shortest 90 39
      sign ++ positional n k

end Patchbay.Single
