/-!
# Single precision numbers

A number of 32 bits in binary interchange format: a sign, eight bits of exponent, 23 bits of
fraction. Arithmetic is carried out exactly on integers and rounded once, to the nearest number
and to the even one of two. A result that is not a number is the one of its operands that is
not, the first before the second and with its quiet bit set, or `undefined` if both are numbers.
-/
namespace Patchbay

/-- A single precision number, by its bits. -/
structure Single where
  bits : UInt32
deriving DecidableEq, Repr

namespace Single

def zero : Single := ⟨0⟩
def one : Single := ⟨0x3f800000⟩
def minusOne : Single := ⟨0xbf800000⟩

/-- What an operation without a meaning gives. -/
def undefined : Single := ⟨0xffc00000⟩

def isNegative (x : Single) : Bool := x.bits ≥ 0x80000000

/-- The bits without the sign, in the order of absolute values. -/
def magnitude (x : Single) : Nat := x.bits.toNat % 0x80000000

def isNaN (x : Single) : Bool := x.magnitude > 0x7f800000

def isInfinite (x : Single) : Bool := x.magnitude = 0x7f800000

/-- A number with the given sign and magnitude. -/
def ofMagnitude (negative : Bool) (magnitude : Nat) : Single :=
  ⟨UInt32.ofNat (magnitude + if negative then 0x80000000 else 0)⟩

/-- Orders numbers; positive and negative zero are equal. -/
def key (x : Single) : Int :=
  if x.isNegative then -(x.magnitude : Int) else x.magnitude

def lt (x y : Single) : Bool := !x.isNaN && !y.isNaN && x.key < y.key

def le (x y : Single) : Bool := !x.isNaN && !y.isNaN && x.key ≤ y.key

/-- Whether the number is zero, of either sign. -/
def isZero (x : Single) : Bool := x.magnitude = 0

/-- The finite number `m · 2 ^ q` without its sign, as `(m, q)`. -/
def decode (x : Single) : Nat × Int :=
  let exponent : Nat := x.magnitude / 0x800000
  let fraction : Nat := x.magnitude % 0x800000
  if exponent = 0 then (fraction, -149) else (fraction + 0x800000, exponent - 150)

/-- The quotient rounded to the nearest integer, a half to the even one. -/
def nearestEven (num den : Nat) : Nat :=
  let q := num / den
  let r := num % den
  if 2 * r > den || (2 * r = den && q % 2 = 1) then q + 1 else q

/-- `n · 2 ^ k / d` as a quotient of natural numbers. -/
def scaled (n d : Nat) (k : Int) : Nat × Nat :=
  if 0 ≤ k then (n <<< k.toNat, d) else (n, d <<< (-k).toNat)

/-- The largest `e` with `2 ^ e ≤ n / d`, for positive `n` and `d`. -/
def exponentOf (n d : Nat) : Int :=
  let e : Int := (n.log2 : Int) - d.log2
  let (a, b) := scaled n d (-e)
  if a < b then e - 1 else e

/-- The number nearest to `n / d`, with a sign. -/
def ofRatio (negative : Bool) (n d : Nat) : Single :=
  if n = 0 then ofMagnitude negative 0
  else
    let e := max (exponentOf n d) (-126)
    let (a, b) := scaled n d (23 - e)
    ofMagnitude negative (min (((e + 126).toNat * 0x800000) + nearestEven a b) 0x7f800000)

/-- `n · 2 ^ q` rounded. -/
def ofScaled (negative : Bool) (n : Nat) (q : Int) : Single :=
  let (a, b) := scaled n 1 q
  ofRatio negative a b

def ofInt (i : Int) : Single := ofRatio (i < 0) i.natAbs 1

/-- The number itself, with its quiet bit set. -/
def quiet (x : Single) : Single := ⟨x.bits ||| 0x00400000⟩

/-- Gives the operand that is not a number, if there is one. -/
def lift (op : Single → Single → Single) (x y : Single) : Single :=
  if x.isNaN then x.quiet else if y.isNaN then y.quiet else op x y

def mul : Single → Single → Single :=
  lift fun x y =>
    let negative := x.isNegative != y.isNegative
    if x.isInfinite || y.isInfinite then
      if x.isZero || y.isZero then undefined else ofMagnitude negative 0x7f800000
    else
      let (m, p) := x.decode
      let (n, q) := y.decode
      ofScaled negative (m * n) (p + q)

def add : Single → Single → Single :=
  lift fun x y =>
    if x.isInfinite then
      if y.isInfinite && x.isNegative != y.isNegative then undefined else x
    else if y.isInfinite then y
    else
      let (m, p) := x.decode
      let (n, q) := y.decode
      let low := min p q
      let a : Int := (m <<< (p - low).toNat : Nat)
      let b : Int := (n <<< (q - low).toNat : Nat)
      let sum := (if x.isNegative then -a else a) + (if y.isNegative then -b else b)
      if sum = 0 then ofMagnitude (x.isNegative && y.isNegative) 0
      else ofScaled (sum < 0) sum.natAbs low

/-- Cuts a number to an interval; what is not a number stays as it is. -/
def clamp (x low high : Single) : Single :=
  if x.lt low then low else if high.lt x then high else x

/-- The nearest integer to a finite number, a half away from zero; zero for all else. -/
def round (x : Single) : Int :=
  if x.isNaN || x.isInfinite then 0
  else
    let (m, q) := x.decode
    let (a, b) := scaled m 1 q
    let n : Int := ((2 * a + b) / (2 * b) : Nat)
    if x.isNegative then -n else n

end Single
end Patchbay
