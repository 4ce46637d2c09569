/-!
# UTF-8

`encode` writes text as bytes and `decode` reads it back. A byte string that is not text is
refused with the place of the first fault and, unless the input merely ends too early, the
number of bytes of the longest prefix of a character found there.
-/
namespace Patchbay.Utf8

/-- Where and how a byte string stops being text. -/
structure Fault where
  /-- Number of bytes before the fault, all of them text. -/
  validUpTo : Nat
  /-- Bytes of the broken character; none if the input ends inside it. -/
  length : Option Nat
deriving DecidableEq, Repr

def Fault.message : Fault → String
  | ⟨i, some n⟩ => s!"invalid utf-8 sequence of {n} bytes from index {i}"
  | ⟨i, none⟩ => s!"incomplete utf-8 byte sequence from index {i}"

def encode (s : String) : List UInt8 :=
  s.toList.flatMap String.utf8EncodeChar

/-- A continuation byte. -/
def isTail (b : UInt8) : Bool :=
  0x80 ≤ b && b ≤ 0xbf

/-- Whether `b` may follow `a`, the first byte of a character of three or four bytes. -/
def isSecond (a b : UInt8) : Bool :=
  if a = 0xe0 then 0xa0 ≤ b && b ≤ 0xbf
  else if a = 0xed then 0x80 ≤ b && b ≤ 0x9f
  else if a = 0xf0 then 0x90 ≤ b && b ≤ 0xbf
  else if a = 0xf4 then 0x80 ≤ b && b ≤ 0x8f
  else isTail b

/-- The low six bits, those that a continuation byte adds to a character. -/
def bits (b : UInt8) : Nat :=
  b.toNat % 64

/-- Reads characters from byte offset `i` on; those already read are in `done`, last first. -/
def decodeFrom (i : Nat) (done : List Char) : List UInt8 → Except Fault (List Char)
  | [] => .ok done.reverse
  | a :: r =>
    if a < 0x80 then decodeFrom (i + 1) (Char.ofNat a.toNat :: done) r
    else if 0xc2 ≤ a && a ≤ 0xdf then
      match r with
      | [] => .error ⟨i, none⟩
      | b :: r =>
        if isTail b then
          decodeFrom (i + 2) (Char.ofNat (a.toNat % 32 * 64 + bits b) :: done) r
        else .error ⟨i, some 1⟩
    else if 0xe0 ≤ a && a ≤ 0xef then
      match r with
      | [] => .error ⟨i, none⟩
      | b :: r =>
        if isSecond a b then
          match r with
          | [] => .error ⟨i, none⟩
          | c :: r =>
            if isTail c then
              decodeFrom (i + 3)
                (Char.ofNat (a.toNat % 16 * 4096 + bits b * 64 + bits c) :: done) r
            else .error ⟨i, some 2⟩
        else .error ⟨i, some 1⟩
    else if 0xf0 ≤ a && a ≤ 0xf4 then
      match r with
      | [] => .error ⟨i, none⟩
      | b :: r =>
        if isSecond a b then
          match r with
          | [] => .error ⟨i, none⟩
          | c :: r =>
            if isTail c then
              match r with
              | [] => .error ⟨i, none⟩
              | d :: r =>
                if isTail d then
                  decodeFrom (i + 4)
                    (Char.ofNat
                      (a.toNat % 8 * 262144 + bits b * 4096 + bits c * 64 + bits d) :: done) r
                else .error ⟨i, some 3⟩
            else .error ⟨i, some 2⟩
        else .error ⟨i, some 1⟩
    else .error ⟨i, some 1⟩

/-- The text a byte string stands for. -/
def decode (bs : List UInt8) : Except Fault String :=
  (decodeFrom 0 [] bs).map String.ofList

end Patchbay.Utf8
