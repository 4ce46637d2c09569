/-!
# Little-endian words

`bytes width n` writes the low `width` bytes of `n`, least significant first, and `value` reads
such a list back.
-/
namespace Patchbay.LittleEndian

/-- The low `width` bytes of `n`, least significant first. -/
def bytes : Nat → Nat → List UInt8
  | 0, _ => []
  | width + 1, n => UInt8.ofNat n :: bytes width (n / 256)

/-- The number a list of bytes stands for. -/
def value : List UInt8 → Nat
  | [] => 0
  | b :: rest => b.toNat + 256 * value rest

@[simp]
theorem length_bytes (width n : Nat) : (bytes width n).length = width := by
  induction width generalizing n with
  | zero => rfl
  | succ w ih => simp [bytes, ih]

theorem value_bytes (width n : Nat) : value (bytes width n) = n % Nat.pow 256 width := by
  induction width generalizing n with
  | zero => simp [bytes, value, Nat.mod_one]
  | succ w ih =>
    have hpow : Nat.pow 256 (w + 1) = 256 * Nat.pow 256 w := Nat.mul_comm _ _
    rw [bytes, value, ih, UInt8.toNat_ofNat', hpow, Nat.mod_mul]

theorem bytes_value (bs : List UInt8) : bytes bs.length (value bs) = bs := by
  induction bs with
  | nil => rfl
  | cons b rest ih =>
    have hb : b.toNat < 256 := b.toNat_lt
    have hd : (b.toNat + 256 * value rest) / 256 = value rest := by omega
    simp [value, bytes, hd, ih]

end Patchbay.LittleEndian
