import Mathlib.Algebra.Group.Nat.Defs
import Patchbay.Proofs.Text.Utf8
import Patchbay.Wire.Request

/-!
# Fields of a message

What each reader takes from the front of a message: exactly what the writer of the same field
puts there. Two fields are looser than that. Any byte but zero is a true flag, and a text is taken
only up to a certain length. Readers put together from these take what their parts take, one after
the other.
-/
namespace Patchbay

namespace LittleEndian

theorem value_lt (bs : List UInt8) : value bs < 256 ^ bs.length := by
  induction bs with
  | nil => exact Nat.one_pos
  | cons b rest ih =>
      have hb : b.toNat < 256 := b.toNat_lt
      rw [value, List.length_cons, Nat.pow_succ]
      omega

theorem eq_bytes_iff {width : Nat} {bs : List UInt8} {n : Nat} (hn : n < 256 ^ width) :
    bs = bytes width n ↔ bs.length = width ∧ value bs = n := by
  constructor
  · rintro rfl
    rw [length_bytes, value_bytes]
    exact ⟨rfl, Nat.mod_eq_of_lt hn⟩
  · rintro ⟨rfl, rfl⟩
    exact (bytes_value bs).symm

end LittleEndian

namespace Wire

theorem eq_write32_iff {bs : List UInt8} {w : UInt32} :
    bs = write32 w ↔ bs.length = 4 ∧ UInt32.ofNat (LittleEndian.value bs) = w := by
  have hw : w.toNat < 256 ^ 4 := w.toNat_lt
  rw [write32, LittleEndian.eq_bytes_iff hw, ← UInt32.toNat_inj, UInt32.toNat_ofNat']
  refine and_congr_right fun hlen => ?_
  have hbs := LittleEndian.value_lt bs
  rw [hlen] at hbs
  have hlt : LittleEndian.value bs < 2 ^ 32 := hbs
  rw [Nat.mod_eq_of_lt hlt]

theorem eq_write64_iff {bs : List UInt8} {w : UInt64} :
    bs = write64 w ↔ bs.length = 8 ∧ UInt64.ofNat (LittleEndian.value bs) = w := by
  have hw : w.toNat < 256 ^ 8 := w.toNat_lt
  rw [write64, LittleEndian.eq_bytes_iff hw, ← UInt64.toNat_inj, UInt64.toNat_ofNat']
  refine and_congr_right fun hlen => ?_
  have hbs := LittleEndian.value_lt bs
  rw [hlen] at hbs
  have hlt : LittleEndian.value bs < 2 ^ 64 := hbs
  rw [Nat.mod_eq_of_lt hlt]

@[simp]
theorem length_write32 (w : UInt32) : (write32 w).length = 4 := LittleEndian.length_bytes 4 _

@[simp]
theorem length_write64 (w : UInt64) : (write64 w).length = 8 := LittleEndian.length_bytes 8 _

@[simp]
theorem length_writeCode (c : Int32) : (writeCode c).length = 4 := length_write32 _

/-- From the front of `bs` the reader takes what stands for `a` and leaves `rest`. -/
def Takes {α : Type} (reader : Reader α) (bs : List UInt8) (a : α) (rest : List UInt8) : Prop :=
  reader bs = (.ok a, rest)

/-- Whatever the reader fails with is told as a failure. -/
def Declines {α : Type} (reader : Reader α) : Prop :=
  ∀ bs e, (reader bs).1 = .error e → e.toStatus ≠ .success

variable {α β : Type} {m : Reader α} {f : α → Reader β} {a a' : α} {b : β} {e : WireError}
variable {bs rest : List UInt8} {n : Nat} {what : String}

theorem Takes.unique (h : Takes m bs a rest) {rest' : List UInt8} (h' : Takes m bs a' rest') :
    a = a' ∧ rest = rest' := by
  unfold Takes at h h'
  rw [h] at h'
  cases h'
  exact ⟨rfl, rfl⟩

theorem bind_apply (m : Reader α) (f : α → Reader β) (bs : List UInt8) :
    (m >>= f : Reader β) bs = match m bs with
      | (.ok a, rest) => f a rest
      | (.error e, rest) => (.error e, rest) := by
  show (ExceptT.bindCont f (m bs).1 (m bs).2 : Except WireError β × List UInt8) = _
  cases m bs with
  | mk r rest => cases r <;> rfl

theorem Takes.bind (h : Takes m bs a rest) (f : α → Reader β) : (m >>= f) bs = f a rest := by
  rw [bind_apply, h]

@[simp]
theorem takes_bind : Takes (m >>= f) bs b rest ↔
    ∃ a mid, Takes m bs a mid ∧ Takes (f a) mid b rest := by
  unfold Takes
  rw [bind_apply]
  cases m bs with
  | mk r mid =>
      cases r with
      | error e =>
          constructor
          · intro h
            cases h
          · rintro ⟨a, mid', h, -⟩
            cases h
      | ok a =>
          constructor
          · exact fun h => ⟨a, mid, rfl, h⟩
          · rintro ⟨a', mid', h, h'⟩
            cases h
            exact h'

@[simp]
theorem takes_pure : Takes (pure a) bs a' rest ↔ a = a' ∧ bs = rest := by
  show ((.ok a, bs) : Except WireError α × List UInt8) = (.ok a', rest) ↔ _
  simp

@[simp]
theorem takes_map {g : α → β} : Takes (g <$> m) bs b rest ↔ ∃ a, Takes m bs a rest ∧ g a = b := by
  rw [map_eq_pure_bind, takes_bind]
  simp only [takes_pure]
  constructor
  · rintro ⟨a, _, h, hb, rfl⟩
    exact ⟨a, h, hb⟩
  · rintro ⟨a, h, hb⟩
    exact ⟨a, rest, h, hb, rfl⟩

@[simp]
theorem takes_throw : ¬ Takes (throw e : Reader α) bs a rest := by
  intro h
  change ((.error e, bs) : Except WireError α × List UInt8) = (.ok a, rest) at h
  cases h

@[simp]
theorem takes_ite {p : Prop} [Decidable p] {k : Reader α} :
    Takes (if p then m else k) bs a rest ↔ (p ∧ Takes m bs a rest) ∨ (¬ p ∧ Takes k bs a rest) := by
  by_cases hp : p <;> simp [hp]

@[simp]
theorem takes_take {front : List UInt8} :
    Takes (take n what) bs front rest ↔ front.length = n ∧ bs = front ++ rest := by
  unfold Takes take
  dsimp only
  split
  · rename_i hlen
    constructor
    · intro h
      cases h
      exact ⟨hlen, (List.take_append_drop n bs).symm⟩
    · rintro ⟨rfl, rfl⟩
      rw [List.take_left, List.drop_left]
  · rename_i hlen
    constructor
    · intro h
      cases h
    · rintro ⟨rfl, rfl⟩
      exact absurd (by rw [List.take_left]) hlen

theorem takes_word {write : α → List UInt8} {value : List UInt8 → α}
    (h : ∀ bs a, bs = write a ↔ bs.length = n ∧ value bs = a) :
    Takes (take n what >>= fun bs => pure (value bs)) bs a rest ↔ bs = write a ++ rest := by
  rw [takes_bind]
  constructor
  · rintro ⟨front, mid, hfront, ha⟩
    rw [takes_take] at hfront
    rw [takes_pure] at ha
    rw [hfront.2, ha.2, (h front a).mpr ⟨hfront.1, ha.1⟩]
  · intro hbs
    obtain ⟨hlen, hvalue⟩ := (h (write a) a).mp rfl
    exact ⟨write a, rest, takes_take.mpr ⟨hlen, hbs⟩, takes_pure.mpr ⟨hvalue, rfl⟩⟩

@[simp]
theorem takes_read32 {w : UInt32} : Takes read32 bs w rest ↔ bs = write32 w ++ rest :=
  takes_word fun _ _ => eq_write32_iff

@[simp]
theorem takes_read64 {w : UInt64} : Takes read64 bs w rest ↔ bs = write64 w ++ rest :=
  takes_word fun _ _ => eq_write64_iff

@[simp]
theorem takes_readCode {c : Int32} : Takes readCode bs c rest ↔ bs = writeCode c ++ rest :=
  takes_word fun bs c => by
    rw [writeCode, eq_write32_iff]
    refine and_congr_right fun _ => ⟨fun h => ?_, fun h => ?_⟩
    · rw [h, Int32.toInt32_toUInt32]
    · rw [← h, UInt32.toUInt32_toInt32]

@[simp]
theorem takes_readSingle {x : Single} : Takes readSingle bs x rest ↔ bs = writeSingle x ++ rest :=
  takes_word fun bs x => by
    rw [writeSingle, eq_write32_iff, Single.mk.injEq]

@[simp]
theorem takes_readFlag {x : Bool} : Takes readFlag bs x rest ↔
    ∃ t : UInt8, x = (t != 0) ∧ bs = t :: rest := by
  unfold readFlag
  rw [takes_bind]
  constructor
  · rintro ⟨front, mid, hfront, hx⟩
    rw [takes_take] at hfront
    rw [takes_pure] at hx
    obtain ⟨t, rfl⟩ := List.length_eq_one_iff.mp hfront.1
    refine ⟨t, ?_, ?_⟩
    · rw [← hx.1]
      simp [bne]
    · rw [hfront.2, hx.2, List.singleton_append]
  · rintro ⟨t, rfl, rfl⟩
    refine ⟨[t], rest, takes_take.mpr ⟨rfl, rfl⟩, takes_pure.mpr ⟨?_, rfl⟩⟩
    simp [bne]

/-- A text that a reader accepts. -/
def TextFits (s : String) : Prop := (Utf8.encode s).length ≤ maxText

theorem length_writeText_le {s : String} (h : TextFits s) :
    (writeText s).length ≤ maxText + 4 := by
  rw [writeText, List.length_append, length_write32]
  unfold TextFits at h
  omega

@[simp]
theorem takes_readText {s : String} : Takes readText bs s rest ↔
    TextFits s ∧ bs = writeText s ++ rest := by
  unfold readText
  simp only [takes_bind, takes_read32, takes_ite, takes_throw, takes_take]
  constructor
  · rintro ⟨w, mid, rfl, ⟨-, -, -, h, -⟩ | ⟨hle, front, mid', ⟨hlen, rfl⟩, h⟩⟩
    · exact absurd h id
    · cases hd : Utf8.decode front with
      | error f =>
          rw [hd] at h
          exact absurd h takes_throw
      | ok s' =>
          rw [hd] at h
          obtain ⟨rfl, rfl⟩ := takes_pure.mp h
          rw [Utf8.decode_eq_ok_iff] at hd
          subst hd
          refine ⟨?_, ?_⟩
          · unfold TextFits
            omega
          · rw [writeText, hlen, UInt32.ofNat_toNat, List.append_assoc]
  · rintro ⟨hs, rfl⟩
    have hlen : (UInt32.ofNat (Utf8.encode s).length).toNat = (Utf8.encode s).length := by
      unfold TextFits maxText at hs
      rw [UInt32.toNat_ofNat', Nat.mod_eq_of_lt (by omega)]
    refine ⟨_, Utf8.encode s ++ rest, ?_, Or.inr ⟨?_, Utf8.encode s, rest, ⟨hlen.symm, rfl⟩, ?_⟩⟩
    · rw [writeText, List.append_assoc]
    · rw [hlen]
      exact Nat.not_lt.mpr hs
    · rw [Utf8.decode_eq_ok_iff.mpr rfl]
      exact takes_pure.mpr ⟨rfl, rfl⟩

theorem find?_code_eq_some_iff {κ : Type} [BEq κ] [LawfulBEq κ] {all : List α} {code : α → κ}
    (h : ∀ a, all.find? (code · == code a) = some a) {c : κ} :
    all.find? (code · == c) = some a ↔ c = code a := by
  constructor
  · intro hc
    exact (eq_of_beq (List.find?_some (p := fun a => code a == c) hc)).symm
  · rintro rfl
    exact h a

theorem takes_known {x : Option α} {c : Int32} :
    Takes (known what x c) bs a rest ↔ x = some a ∧ bs = rest := by
  unfold known
  cases x with
  | none => simp
  | some a' => simp

theorem takes_readKnown {all : List α} {code : α → Int32}
    (h : ∀ a, all.find? (code · == code a) = some a) :
    Takes (readKnown what fun c => all.find? (code · == c)) bs a rest ↔
      bs = writeCode (code a) ++ rest := by
  unfold readKnown
  rw [takes_bind]
  simp only [takes_readCode]
  constructor
  · rintro ⟨c, mid, rfl, hc⟩
    cases hfind : all.find? (code · == c) with
    | none =>
        rw [hfind] at hc
        exact absurd hc takes_throw
    | some a' =>
        rw [hfind] at hc
        obtain ⟨rfl, rfl⟩ := takes_pure.mp hc
        rw [(find?_code_eq_some_iff h).mp hfind]
  · rintro rfl
    refine ⟨code a, rest, rfl, ?_⟩
    rw [h a]
    exact takes_pure.mpr ⟨rfl, rfl⟩

@[simp]
theorem takes_readType {t : DeviceType} :
    Takes (readKnown what DeviceType.ofCode?) bs t rest ↔ bs = writeCode t.code ++ rest :=
  takes_readKnown DeviceType.ofCode?_code

@[simp]
theorem takes_readRole {r : DeviceRole} :
    Takes (readKnown what DeviceRole.ofCode?) bs r rest ↔ bs = writeCode r.code ++ rest :=
  takes_readKnown DeviceRole.ofCode?_code

@[simp]
theorem takes_readPrivacy {p : Privacy} :
    Takes (readKnown what Privacy.ofCode?) bs p rest ↔ bs = writeCode p.code ++ rest :=
  takes_readKnown Privacy.ofCode?_code

@[simp]
theorem takes_readGroup {g : VolumeClass} :
    Takes (readKnown what VolumeClass.ofCode?) bs g rest ↔ bs = writeCode g.code ++ rest :=
  takes_readKnown VolumeClass.ofCode?_code

@[simp]
theorem takes_readMode {m : RingerMode} :
    Takes (readKnown what RingerMode.ofCode?) bs m rest ↔ bs = writeCode m.code ++ rest :=
  takes_readKnown RingerMode.ofCode?_code

@[simp]
theorem takes_readKey {k : RemoteKey} :
    Takes (readKnown what RemoteKey.ofCode?) bs k rest ↔ bs = writeCode k.code ++ rest :=
  takes_readKnown RemoteKey.ofCode?_code

@[simp]
theorem takes_readFormat {f : SampleFormat} :
    Takes (readKnown what SampleFormat.ofCode?) bs f rest ↔ bs = writeCode f.code ++ rest :=
  takes_readKnown SampleFormat.ofCode?_code

/-- All texts of a device are texts that a reader accepts. -/
structure DeviceFits (d : Device) : Prop where
  network : TextFits d.network
  mac : TextFits d.mac
  name : TextFits d.name

@[simp]
theorem takes_readDevice {d : Device} :
    Takes readDevice bs d rest ↔ DeviceFits d ∧ bs = writeDevice d ++ rest := by
  unfold readDevice
  simp only [takes_bind, takes_readType, takes_readRole, takes_read64, takes_readPrivacy,
    takes_readText, takes_pure]
  constructor
  · rintro ⟨type, _, rfl, role, _, rfl, at', _, rfl, privacy, _, rfl, network, _, ⟨hnetwork, rfl⟩,
      mac, _, ⟨hmac, rfl⟩, name, _, ⟨hname, rfl⟩, rfl, rfl⟩
    refine ⟨⟨hnetwork, hmac, hname⟩, ?_⟩
    simp only [writeDevice, List.append_assoc]
  · rintro ⟨⟨hnetwork, hmac, hname⟩, rfl⟩
    simp only [writeDevice, List.append_assoc]
    exact ⟨_, _, rfl, _, _, rfl, _, _, rfl, _, _, rfl, _, _, ⟨hnetwork, rfl⟩, _, _, ⟨hmac, rfl⟩,
      _, _, ⟨hname, rfl⟩, rfl, rfl⟩

@[simp]
theorem takes_finish {u : Unit} : Takes finish bs u rest ↔ bs = [] ∧ rest = [] := by
  unfold Takes finish
  cases bs with
  | nil =>
      rw [List.isEmpty_nil, if_pos rfl]
      constructor
      · intro h
        cases h
        exact ⟨rfl, rfl⟩
      · rintro ⟨-, rfl⟩
        rfl
  | cons b bs =>
      rw [List.isEmpty_cons, if_neg Bool.false_ne_true]
      constructor
      · intro h
        cases h
      · intro h
        cases h.1

theorem decode_eq_ok_iff : decode m bs = .ok a ↔ Takes m bs a [] := by
  have hdecode : decode m bs = .ok a ↔
      ∃ rest, Takes (m >>= fun a => finish >>= fun _ => pure a) bs a rest := by
    show ((m >>= fun a => finish >>= fun _ => pure a : Reader α) bs).1 = .ok a ↔ _
    unfold Takes
    constructor
    · exact fun h => ⟨_, Prod.ext h rfl⟩
    · rintro ⟨rest, h⟩
      rw [h]
  rw [hdecode]
  simp only [takes_bind, takes_finish, takes_pure]
  constructor
  · rintro ⟨rest, a', mid, h, -, mid', ⟨rfl, rfl⟩, rfl, rfl⟩
    exact h
  · intro h
    exact ⟨[], a, [], h, (), [], ⟨rfl, rfl⟩, rfl, rfl⟩

theorem decode_eq_error (h : m bs = (.error e, rest)) : decode m bs = .error e := by
  show ((m >>= fun a => finish >>= fun _ => pure a : Reader α) bs).1 = .error e
  rw [bind_apply, h]

@[simp]
theorem declines_bind (hm : Declines m) (hf : ∀ a, Declines (f a)) : Declines (m >>= f) := by
  intro bs e he
  rw [bind_apply] at he
  cases hbs : m bs with
  | mk r rest =>
      rw [hbs] at he
      cases r with
      | error e' =>
          cases he
          exact hm bs e (by rw [hbs])
      | ok a => exact hf a rest e he

@[simp]
theorem declines_pure (a : α) : Declines (pure a) := by
  intro bs e he
  cases he

@[simp]
theorem declines_map (hm : Declines m) (g : α → β) : Declines (g <$> m) := by
  rw [map_eq_pure_bind]
  exact declines_bind hm fun a => declines_pure (g a)

@[simp]
theorem declines_throw (he : e.toStatus ≠ .success) : Declines (throw e : Reader α) := by
  intro bs e' he'
  cases he'
  exact he

@[simp]
theorem declines_ite {p : Prop} [Decidable p] {k : Reader α} (hm : Declines m)
    (hk : Declines k) : Declines (if p then m else k) := by
  split
  · exact hm
  · exact hk

@[simp]
theorem declines_take (n : Nat) (what : String) : Declines (take n what) := by
  intro bs e he
  unfold take at he
  dsimp only at he
  split at he
  · cases he
  · cases he
    exact Status.noConfusion

@[simp]
theorem toStatus_malformed_ne (reason : String) :
    (WireError.malformed reason).toStatus ≠ .success :=
  Status.noConfusion

@[simp]
theorem declines_read32 : Declines read32 := by simp [read32]

@[simp]
theorem declines_read64 : Declines read64 := by simp [read64]

@[simp]
theorem declines_readCode : Declines readCode := by simp [readCode]

@[simp]
theorem declines_readSingle : Declines readSingle := by simp [readSingle]

@[simp]
theorem declines_readFlag : Declines readFlag := by simp [readFlag]

@[simp]
theorem declines_readText : Declines readText := by
  unfold readText
  refine declines_bind declines_read32 fun n => ?_
  split
  · simp
  · refine declines_bind (declines_take _ _) fun front => ?_
    split <;> simp

@[simp]
theorem declines_known (what : String) (x : Option α) (c : Int32) :
    Declines (known what x c) := by
  cases x <;> simp [known]

@[simp]
theorem declines_readKnown (what : String) (ofCode? : Int32 → Option α) :
    Declines (readKnown what ofCode?) := by
  unfold readKnown
  refine declines_bind declines_readCode fun c => ?_
  split <;> simp

/-- A message that is refused is refused with a failure. -/
theorem Declines.decode (h : Declines m) (he : decode m bs = .error e) :
    e.toStatus ≠ .success := by
  have hfinish : Declines finish := by
    intro bs e he
    unfold finish at he
    split at he
    · cases he
    · cases he
      exact Status.noConfusion
  exact declines_bind h (fun a => declines_bind hfinish fun _ => declines_pure a) bs e he

end Wire
end Patchbay
