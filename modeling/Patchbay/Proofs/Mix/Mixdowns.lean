import Patchbay.Mix.Mixer
import Patchbay.Proofs.Session.Rounds

/-!
# What is mixed of a list of sessions

A mixdown goes through the sessions and carries the registry along. As it reads each of them once,
what a session adds can be said of the session alone: so many bytes, and a mix that has its samples
in it or, if the session has no gain, is as it was. The frame that is handed over follows from
this.
-/
namespace Patchbay

namespace Session
variable {τ : Type}

/-- The bytes that a read of `n` bytes finds. A session that refuses has none. -/
def taken (s : Session) (n : Nat) : Nat :=
  match (s.read n).1 with
  | .ok got => got.bytesRead
  | .error _ => 0

/-- The mix with what a read of `n` bytes finds. -/
def mixedInto (s : Session) (b : Blend τ) (n : Nat) (mix : List τ) : List τ :=
  match (s.read n).1 with
  | .ok got =>
    if s.controls.gain.isZero then mix
    else b.mixIn mix (got.data.take got.bytesRead) s.controls.gain
  | .error _ => mix

end Session

/-- The frame of a mixdown, if a session had data. -/
def Mixdown.frame? {τ : Type} (b : Blend τ) (d : Mixdown τ) : Option (List UInt8) :=
  if d.longest = 0 then none else some (b.encodeAll d.mix)

namespace Mixer
variable {τ : Type}

/-- The sum of what reads of `n` bytes find. -/
def blended (b : Blend τ) (n : Nat) (sessions : List Session) : List τ :=
  sessions.foldl (fun mix s => s.mixedInto b n mix) (b.quiet (n / b.width))

/-- The frame that the sessions have together, if one of them has data. -/
def frame? (b : Blend τ) (n : Nat) (sessions : List Session) : Option (List UInt8) :=
  if ∀ s ∈ sessions, s.taken n = 0 then none else some (b.encodeAll (blended b n sessions))

end Mixer

namespace Blend
variable {τ : Type} {b : Blend τ}

/-- The samples of the blend are as long as those of the format. -/
structure Suits (b : Blend τ) (f : SampleFormat) : Prop where
  width : b.width = f.bytesPerSample
  encode : ∀ x, (b.encode x).length = b.width

/-- Whole samples of the blend fill `n` bytes. -/
structure Fills (b : Blend τ) (n : Nat) : Prop where
  pos : 0 < b.width
  whole : b.width ∣ n
  encode : ∀ x, (b.encode x).length = b.width

theorem suits_of_blend? {f : SampleFormat} {b : Blend Single} (h : f.blend? = some b) :
    b.Suits f := by
  cases f <;> cases h
  · exact ⟨rfl, fun x => LittleEndian.length_bytes 2 _⟩
  · exact ⟨rfl, fun x => LittleEndian.length_bytes 4 _⟩

@[simp]
theorem length_addAll (b : Blend τ) (mix samples : List τ) :
    (b.addAll mix samples).length = mix.length := by
  fun_induction addAll b mix samples with
  | case1 m mix s samples ih => simp [ih]
  | case2 => rfl

@[simp]
theorem length_quiet (b : Blend τ) (n : Nat) : (b.quiet n).length = n :=
  List.length_replicate

theorem length_encodeAll (h : ∀ x, (b.encode x).length = b.width) (mix : List τ) :
    (b.encodeAll mix).length = b.width * mix.length := by
  induction mix with
  | nil => rfl
  | cons x mix ih =>
      have hcons : b.encodeAll (x :: mix) = b.encode x ++ b.encodeAll mix := rfl
      rw [hcons, List.length_append, h, ih, List.length_cons, Nat.mul_succ, Nat.add_comm]

end Blend

namespace Session
variable {τ : Type} {b : Blend τ}

@[simp]
theorem length_mixedInto (s : Session) (b : Blend τ) (n : Nat) (mix : List τ) :
    (s.mixedInto b n mix).length = mix.length := by
  unfold mixedInto
  split
  · split
    · rfl
    · exact b.length_addAll _ _
  · rfl

theorem mixedInto_of_silent {s : Session} (h : s.controls.gain.isZero) (b : Blend τ) (n : Nat)
    (mix : List τ) : s.mixedInto b n mix = mix := by
  unfold mixedInto
  split
  · exact if_pos h
  · rfl

end Session

namespace Mixer
variable {σ τ : Type} {reg : Registry} {s : Session} {sessions : List Session} {frame : List UInt8}

@[simp]
theorem frame?_eq_none {b : Blend τ} {n : Nat} :
    frame? b n sessions = none ↔ ∀ s ∈ sessions, s.taken n = 0 := by
  simp [frame?]

theorem gather_eq (b : Blend τ) (n : Nat) {d : Mixdown τ} (hs : d.registry.any? s.id = some s) :
    gather b n d s = {
      registry := d.registry.perform s.id (.read n)
      mix := s.mixedInto b n d.mix
      longest := max d.longest (s.taken n) } := by
  unfold gather Session.mixedInto Session.taken
  rw [Registry.perform, Registry.apply, hs]
  dsimp only
  generalize s.read n = answer
  obtain ⟨answer, s'⟩ := answer
  cases answer with
  | ok got => rfl
  | error e => simp

theorem foldl_gather_eq (b : Blend τ) (n : Nat) {d : Mixdown τ} (h : d.registry.Finds sessions) :
    sessions.foldl (gather b n) d = {
      registry := d.registry.performEach (.read n) sessions
      mix := sessions.foldl (fun mix s => s.mixedInto b n mix) d.mix
      longest := sessions.foldl (fun k s => max k (s.taken n)) d.longest } := by
  induction sessions generalizing d with
  | nil => rfl
  | cons s rest ih =>
      rw [List.foldl_cons, gather_eq b n (h.found s List.mem_cons_self), ih (h.tail (.read n))]
      rfl

theorem mixdown_eq (b : Blend τ) (n : Nat) (h : reg.Finds sessions) :
    mixdown b n reg sessions = {
      registry := reg.performEach (.read n) sessions
      mix := blended b n sessions
      longest := sessions.foldl (fun k s => max k (s.taken n)) 0 } :=
  foldl_gather_eq b n h

theorem foldl_max_taken_eq_zero (n k : Nat) (sessions : List Session) :
    sessions.foldl (fun k s => max k (s.taken n)) k = 0 ↔
      k = 0 ∧ ∀ s ∈ sessions, s.taken n = 0 := by
  induction sessions generalizing k with
  | nil => simp
  | cons s rest ih =>
      rw [List.foldl_cons, ih, Nat.max_eq_zero_iff]
      simp [and_assoc]

theorem frame?_mixdown (b : Blend τ) (n : Nat) (h : reg.Finds sessions) :
    (mixdown b n reg sessions).frame? b = frame? b n sessions := by
  rw [mixdown_eq b n h]
  unfold Mixdown.frame? frame?
  have hlongest := foldl_max_taken_eq_zero n 0 sessions
  by_cases hnone : ∀ s ∈ sessions, s.taken n = 0
  · rw [if_pos hnone, if_pos (hlongest.mpr ⟨rfl, hnone⟩)]
  · rw [if_neg hnone, if_neg fun hzero => hnone (hlongest.mp hzero).2]

theorem cycleWith_eq_frame [Playback σ] (b : Blend τ) (m : Mixer σ) (reg : Registry) :
    m.cycleWith b reg =
      let m' := { m with routes := (m.routes.refresh reg).2 }
      let d := mixdown b m.spanBytes reg (m'.routes.running reg)
      match d.frame? b with
      | none => (.ok 0, m', d.registry)
      | some frame =>
        let (a, output) := Playback.render m.output frame
        (a, { m' with output := output }, d.registry) := by
  unfold cycleWith Mixdown.frame?
  dsimp only
  split <;> rfl

/-- A cycle reads the sessions that it finds and hands over their frame. -/
theorem cycleWith_eq [Playback σ] (b : Blend τ) (m : Mixer σ)
    (hsessions : (m.routes.refresh reg).2.running reg = sessions) (h : reg.Finds sessions) :
    m.cycleWith b reg =
      let m' := { m with routes := (m.routes.refresh reg).2 }
      match frame? b m.spanBytes sessions with
      | none => (.ok 0, m', reg.performEach (.read m.spanBytes) sessions)
      | some frame =>
        let (a, output) := Playback.render m.output frame
        (a, { m' with output := output }, reg.performEach (.read m.spanBytes) sessions) := by
  rw [cycleWith_eq_frame]
  dsimp only
  rw [hsessions, frame?_mixdown b m.spanBytes h, mixdown_eq b m.spanBytes h]

theorem length_blended (b : Blend τ) (n : Nat) (sessions : List Session) :
    (blended b n sessions).length = n / b.width := by
  have hfold : ∀ mix : List τ,
      (sessions.foldl (fun mix s => s.mixedInto b n mix) mix).length = mix.length := by
    induction sessions with
    | nil => exact fun mix => rfl
    | cons s rest ih => exact fun mix => (ih _).trans (s.length_mixedInto b n mix)
  exact (hfold _).trans (b.length_quiet _)

theorem length_frame? {b : Blend τ} {n : Nat} (hb : b.Fills n)
    (h : frame? b n sessions = some frame) : frame.length = n := by
  unfold frame? at h
  split at h
  · cases h
  · cases h
    rw [Blend.length_encodeAll hb.encode, length_blended, Nat.mul_div_cancel' hb.whole]

theorem blend?_of_create {device : Device} {info : StreamFormat} {spanFrames : UInt32} {output : σ}
    {m : Mixer σ} (hmade : create device info spanFrames output = .ok m) :
    ∃ b, info.format.blend? = some b := by
  cases hblend : info.format.blend? with
  | none => simp [create, hblend] at hmade
  | some b => exact ⟨b, rfl⟩

theorem spanBytes_of_create {device : Device} {info : StreamFormat} {spanFrames : UInt32}
    {output : σ} {m : Mixer σ} (hmade : create device info spanFrames output = .ok m) :
    m.spanBytes = (spanFrames * UInt32.ofNat info.bytesPerFrame).toNat := by
  unfold create at hmade
  split at hmade
  · cases hmade
  · cases hmade
    rfl

/-- The bytes of a span are whole samples, also when their number is cut to 32 bits. -/
theorem fills_of_create {device : Device} {info : StreamFormat} {spanFrames : UInt32} {output : σ}
    {m : Mixer σ} (hmade : create device info spanFrames output = .ok m) {b : Blend τ}
    (hb : b.Suits info.format) :
    b.Fills m.spanBytes := by
  obtain ⟨b', hblend⟩ := blend?_of_create hmade
  have hword : 0 < b.width ∧ b.width ∣ 2 ^ 32 := by
    rw [hb.width]
    cases hformat : info.format <;> rw [hformat] at hblend <;> cases hblend <;> decide
  have hframe : b.width ∣ (UInt32.ofNat info.bytesPerFrame).toNat := by
    rw [UInt32.toNat_ofNat', hb.width]
    exact (Nat.dvd_mod_iff (hb.width ▸ hword.2)).mpr (Nat.dvd_mul_left _ _)
  refine ⟨hword.1, ?_, hb.encode⟩
  rw [spanBytes_of_create hmade, UInt32.toNat_mul]
  exact (Nat.dvd_mod_iff hword.2).mpr (Nat.dvd_mul_left_of_dvd hframe _)

end Mixer
end Patchbay
