import Mathlib.Tactic.Common
import Patchbay.Text.Utf8

/-!
# Reading and writing text

`decode` accepts exactly what `encode` writes. Both follow one grammar: a character is spelled by
one to four bytes, and the ranges of the first two are such that every character has one spelling
while the surrogates and the numbers above all characters have none.
-/
namespace Patchbay.Utf8

/-- The bytes that spell a character. -/
inductive Spells : List UInt8 → Char → Prop
  | one {a : UInt8} (ha : a.toNat < 0x80) : Spells [a] (Char.ofNat a.toNat)
  | two {a b : UInt8} (ha : 0xc2 ≤ a.toNat ∧ a.toNat ≤ 0xdf) (hb : isTail b) :
      Spells [a, b] (Char.ofNat (a.toNat % 32 * 64 + bits b))
  | three {a b c : UInt8} (ha : 0xe0 ≤ a.toNat ∧ a.toNat ≤ 0xef) (hb : isSecond a b)
      (hc : isTail c) :
      Spells [a, b, c] (Char.ofNat (a.toNat % 16 * 4096 + bits b * 64 + bits c))
  | four {a b c d : UInt8} (ha : 0xf0 ≤ a.toNat ∧ a.toNat ≤ 0xf4) (hb : isSecond a b)
      (hc : isTail c) (hd : isTail d) :
      Spells [a, b, c, d]
        (Char.ofNat (a.toNat % 8 * 262144 + bits b * 4096 + bits c * 64 + bits d))

variable {a b c d : UInt8} {n : Nat} {bs : List UInt8} {x : Char}

theorem isTail_iff : isTail b ↔ 0x80 ≤ b.toNat ∧ b.toNat ≤ 0xbf := by
  simp [isTail, UInt8.le_iff_toNat_le]

/-- The second of three bytes keeps the number above those that two bytes spell and away from the
surrogates. -/
theorem isSecond_of_three (ha : 0xe0 ≤ a.toNat ∧ a.toNat ≤ 0xef) :
    isSecond a b ↔ isTail b ∧ 0x20 ≤ a.toNat % 16 * 64 + bits b ∧
      ¬ (0x360 ≤ a.toNat % 16 * 64 + bits b ∧ a.toNat % 16 * 64 + bits b ≤ 0x37f) := by
  unfold isSecond bits
  simp only [isTail_iff, ← UInt8.toNat_inj]
  split
  · simp [UInt8.le_iff_toNat_le] at *
    omega
  · split
    · simp [UInt8.le_iff_toNat_le] at *
      omega
    · -- The two first bytes that are left begin characters of four bytes.
      rw [if_neg (by simp; omega), if_neg (by simp; omega), isTail_iff]
      simp at *
      omega

/-- The second of four bytes keeps the number above those that three bytes spell and below the
end of all characters. -/
theorem isSecond_of_four (ha : 0xf0 ≤ a.toNat ∧ a.toNat ≤ 0xf4) :
    isSecond a b ↔ isTail b ∧ 0x10 ≤ a.toNat % 8 * 64 + bits b ∧
      a.toNat % 8 * 64 + bits b ≤ 0x10f := by
  unfold isSecond bits
  simp only [isTail_iff, ← UInt8.toNat_inj]
  rw [if_neg (by simp; omega), if_neg (by simp; omega)]
  split
  · simp [UInt8.le_iff_toNat_le] at *
    omega
  · split
    · simp [UInt8.le_iff_toNat_le] at *
      omega
    · rw [isTail_iff]
      simp at *
      omega

theorem toNat_ofNat (h : n.isValidChar) : (Char.ofNat n).val.toNat = n := by
  rw [Char.ofNat, dif_pos h]
  rfl

theorem ofNat_eq_byte (h : n % 256 = b.toNat) : UInt8.ofNat n = b :=
  UInt8.toNat_inj.mp (by rw [UInt8.toNat_ofNat', h])

theorem toNat_byte (h : n < 256) : (UInt8.ofNat n).toNat = n := by
  rw [UInt8.toNat_ofNat', Nat.mod_eq_of_lt h]

theorem Spells.utf8EncodeChar (h : Spells bs x) : String.utf8EncodeChar x = bs := by
  unfold String.utf8EncodeChar
  cases h with
  | @one a ha =>
      rw [toNat_ofNat (Or.inl (by omega))]
      dsimp only
      rw [if_pos (by omega), ofNat_eq_byte (b := a) (by omega)]
  | @two a b ha hb =>
      rw [isTail_iff] at hb
      unfold bits
      generalize hn : a.toNat % 32 * 64 + b.toNat % 64 = n
      rw [toNat_ofNat (Or.inl (by omega))]
      dsimp only
      rw [if_neg (by omega), if_pos (by omega), ofNat_eq_byte (b := a) (by omega),
        ofNat_eq_byte (b := b) (by omega)]
  | @three a b c ha hb hc =>
      obtain ⟨hb, hlow, hsurrogate⟩ := (isSecond_of_three ha).mp hb
      rw [isTail_iff] at hb hc
      unfold bits at *
      generalize hn : a.toNat % 16 * 4096 + b.toNat % 64 * 64 + c.toNat % 64 = n
      rw [toNat_ofNat (by unfold Nat.isValidChar; omega)]
      dsimp only
      rw [if_neg (by omega), if_neg (by omega), if_pos (by omega),
        ofNat_eq_byte (b := a) (by omega), ofNat_eq_byte (b := b) (by omega),
        ofNat_eq_byte (b := c) (by omega)]
  | @four a b c d ha hb hc hd =>
      obtain ⟨hb, hlow, hhigh⟩ := (isSecond_of_four ha).mp hb
      rw [isTail_iff] at hb hc hd
      unfold bits at *
      generalize hn :
        a.toNat % 8 * 262144 + b.toNat % 64 * 4096 + c.toNat % 64 * 64 + d.toNat % 64 = n
      rw [toNat_ofNat (by unfold Nat.isValidChar; omega)]
      dsimp only
      rw [if_neg (by omega), if_neg (by omega), if_neg (by omega),
        ofNat_eq_byte (b := a) (by omega), ofNat_eq_byte (b := b) (by omega),
        ofNat_eq_byte (b := c) (by omega), ofNat_eq_byte (b := d) (by omega)]

/-- Every character has a spelling. -/
theorem exists_spells (x : Char) : ∃ bs, Spells bs x := by
  have hx : Char.ofNat x.val.toNat = x := Char.ofNat_toNat x
  have hvalid : x.val.toNat.isValidChar := x.valid
  generalize x.val.toNat = n at hx hvalid
  unfold Nat.isValidChar at hvalid
  by_cases h1 : n < 0x80
  · have ha := toNat_byte (n := n) (by omega)
    have h := Spells.one (a := UInt8.ofNat n) (by omega)
    rw [ha, hx] at h
    exact ⟨_, h⟩
  by_cases h2 : n < 0x800
  · have ha := toNat_byte (n := n / 64 + 0xc0) (by omega)
    have hb := toNat_byte (n := n % 64 + 0x80) (by omega)
    have h := Spells.two (a := .ofNat (n / 64 + 0xc0)) (b := .ofNat (n % 64 + 0x80)) (by omega)
      (isTail_iff.mpr (by omega))
    unfold bits at h
    rw [ha, hb, show (n / 64 + 0xc0) % 32 * 64 + (n % 64 + 0x80) % 64 = n by omega, hx] at h
    exact ⟨_, h⟩
  by_cases h3 : n < 0x10000
  · have ha := toNat_byte (n := n / 4096 + 0xe0) (by omega)
    have hb := toNat_byte (n := n / 64 % 64 + 0x80) (by omega)
    have hc := toNat_byte (n := n % 64 + 0x80) (by omega)
    have h := Spells.three (a := .ofNat (n / 4096 + 0xe0)) (b := .ofNat (n / 64 % 64 + 0x80))
      (c := .ofNat (n % 64 + 0x80)) (by omega)
      ((isSecond_of_three (by omega)).mpr ⟨isTail_iff.mpr (by omega), by unfold bits; omega⟩)
      (isTail_iff.mpr (by omega))
    unfold bits at h
    rw [ha, hb, hc, show (n / 4096 + 0xe0) % 16 * 4096 + (n / 64 % 64 + 0x80) % 64 * 64 +
      (n % 64 + 0x80) % 64 = n by omega, hx] at h
    exact ⟨_, h⟩
  · have ha := toNat_byte (n := n / 262144 + 0xf0) (by omega)
    have hb := toNat_byte (n := n / 4096 % 64 + 0x80) (by omega)
    have hc := toNat_byte (n := n / 64 % 64 + 0x80) (by omega)
    have hd := toNat_byte (n := n % 64 + 0x80) (by omega)
    have h := Spells.four (a := .ofNat (n / 262144 + 0xf0)) (b := .ofNat (n / 4096 % 64 + 0x80))
      (c := .ofNat (n / 64 % 64 + 0x80)) (d := .ofNat (n % 64 + 0x80)) (by omega)
      ((isSecond_of_four (by omega)).mpr ⟨isTail_iff.mpr (by omega), by unfold bits; omega⟩)
      (isTail_iff.mpr (by omega)) (isTail_iff.mpr (by omega))
    unfold bits at h
    rw [ha, hb, hc, hd, show (n / 262144 + 0xf0) % 8 * 262144 + (n / 4096 % 64 + 0x80) % 64 * 4096 +
      (n / 64 % 64 + 0x80) % 64 * 64 + (n % 64 + 0x80) % 64 = n by omega, hx] at h
    exact ⟨_, h⟩

theorem spells_utf8EncodeChar (x : Char) : Spells (String.utf8EncodeChar x) x := by
  obtain ⟨bs, h⟩ := exists_spells x
  rw [h.utf8EncodeChar]
  exact h

theorem Spells.decodeFrom (h : Spells bs x) (i : Nat) (done : List Char) (r : List UInt8) :
    decodeFrom i done (bs ++ r) = decodeFrom (i + bs.length) (x :: done) r := by
  cases h with
  | @one a ha =>
      rw [List.singleton_append, Utf8.decodeFrom.eq_def]
      dsimp only
      rw [if_pos (UInt8.lt_iff_toNat_lt.mpr ha)]
      rfl
  | @two a b ha hb =>
      rw [List.cons_append, List.singleton_append, Utf8.decodeFrom.eq_def]
      dsimp only
      rw [if_neg (by rw [UInt8.lt_iff_toNat_lt]; simp; omega),
        if_pos (by simpa [UInt8.le_iff_toNat_le] using ha), if_pos hb]
      rfl
  | @three a b c ha hb hc =>
      rw [List.cons_append, List.cons_append, List.singleton_append, Utf8.decodeFrom.eq_def]
      dsimp only
      rw [if_neg (by rw [UInt8.lt_iff_toNat_lt]; simp; omega),
        if_neg (by simp [UInt8.le_iff_toNat_le]; omega),
        if_pos (by simpa [UInt8.le_iff_toNat_le] using ha), if_pos hb, if_pos hc]
      rfl
  | @four a b c d ha hb hc hd =>
      rw [List.cons_append, List.cons_append, List.cons_append, List.singleton_append,
        Utf8.decodeFrom.eq_def]
      dsimp only
      rw [if_neg (by rw [UInt8.lt_iff_toNat_lt]; simp; omega),
        if_neg (by simp [UInt8.le_iff_toNat_le]; omega),
        if_neg (by simp [UInt8.le_iff_toNat_le]; omega),
        if_pos (by simpa [UInt8.le_iff_toNat_le] using ha), if_pos hb, if_pos hc, if_pos hd]
      rfl

theorem decodeFrom_flatMap (xs : List Char) (i : Nat) (done : List Char) :
    decodeFrom i done (xs.flatMap String.utf8EncodeChar) = .ok (done.reverse ++ xs) := by
  induction xs generalizing i done with
  | nil => rw [List.flatMap_nil, decodeFrom, List.append_nil]
  | cons x xs ih =>
      rw [List.flatMap_cons, (spells_utf8EncodeChar x).decodeFrom, ih, List.reverse_cons,
        List.append_assoc, List.singleton_append]

theorem decodeFrom_eq_ok {i : Nat} {done xs : List Char}
    (h : decodeFrom i done bs = .ok xs) :
    ∃ ys, xs = done.reverse ++ ys ∧ bs = ys.flatMap String.utf8EncodeChar := by
  have hstep : ∀ {front rest : List UInt8} {y : Char} {done : List Char}, Spells front y →
      (∃ ys, xs = (y :: done).reverse ++ ys ∧ rest = ys.flatMap String.utf8EncodeChar) →
      ∃ ys, xs = done.reverse ++ ys ∧ front ++ rest = ys.flatMap String.utf8EncodeChar := by
    rintro front rest y done hy ⟨ys, hxs, rfl⟩
    refine ⟨y :: ys, ?_, ?_⟩
    · rw [hxs, List.reverse_cons, List.append_assoc, List.singleton_append]
    · rw [List.flatMap_cons, hy.utf8EncodeChar]
  fun_induction decodeFrom i done bs with
  | case1 i done =>
      cases h
      exact ⟨[], (List.append_nil _).symm, rfl⟩
  | case2 i done a r ha ih =>
      exact hstep (.one (UInt8.lt_iff_toNat_lt.mp ha)) (ih h)
  | case4 i done a ha ha' b r hb ih =>
      simp only [Bool.and_eq_true, decide_eq_true_eq, UInt8.le_iff_toNat_le] at ha'
      exact hstep (.two ha' hb) (ih h)
  | case8 i done a ha ha2 ha' b hb c r hc ih =>
      simp only [Bool.and_eq_true, decide_eq_true_eq, UInt8.le_iff_toNat_le] at ha'
      exact hstep (.three ha' hb hc) (ih h)
  | case14 i done a ha ha2 ha3 ha' b hb c hc d r hd ih =>
      simp only [Bool.and_eq_true, decide_eq_true_eq, UInt8.le_iff_toNat_le] at ha'
      exact hstep (.four ha' hb hc hd) (ih h)
  | _ => cases h

/-- Reading accepts exactly what writing produces. -/
theorem decode_eq_ok_iff {s : String} : decode bs = .ok s ↔ bs = encode s := by
  constructor
  · intro h
    unfold decode at h
    cases hxs : decodeFrom 0 [] bs with
    | error f =>
        rw [hxs] at h
        cases h
    | ok xs =>
        rw [hxs] at h
        cases h
        obtain ⟨ys, hys, hbs⟩ := decodeFrom_eq_ok hxs
        rw [List.reverse_nil, List.nil_append] at hys
        rw [hbs, encode, String.toList_ofList, hys]
  · rintro rfl
    rw [decode, encode, decodeFrom_flatMap, List.reverse_nil, List.nil_append]
    exact congrArg Except.ok String.ofList_toList

end Patchbay.Utf8
