import Patchbay.Mix.Scratch
import Patchbay.Proofs.Mix.Mixdowns
import Patchbay.Proofs.Ring.Destinations

/-!
# Buffers that are used again

Nothing of what stands in the buffers of a mixer is heard. The input is filled to its end by every
read, samples are decoded before they are added, the mix is silenced before a cycle and the frame
is covered by samples. So a cycle in the buffers is one that makes new lists.
-/
namespace Patchbay

variable {σ τ : Type} {b : Blend τ} {n : Nat}

section Overwrite
variable {α : Type} {buffer values : List α} {k : Nat}

@[simp]
theorem length_overwrite (buffer values : List α) :
    (overwrite buffer values).length = buffer.length := by
  simp only [overwrite, List.length_append, List.length_take, List.length_drop]
  omega

theorem take_overwrite (hvalues : k ≤ values.length) (hbuffer : k ≤ buffer.length) :
    (overwrite buffer values).take k = values.take k := by
  have hroom : k ≤ (values.take buffer.length).length := by
    rw [List.length_take]
    omega
  rw [overwrite, List.take_append_of_le_length hroom, List.take_take, Nat.min_eq_left hbuffer]

end Overwrite

section Pieces
variable {w k : Nat} {bs : List UInt8}

theorem pieces_of_short (h : bs.length < w) : pieces w bs = [] := by
  rw [pieces, dif_pos (Or.inr h)]

theorem pieces_of_long (hw : 0 < w) (h : w ≤ bs.length) :
    pieces w bs = bs.take w :: pieces w (bs.drop w) := by
  rw [pieces, dif_neg (by omega)]

theorem length_pieces (hw : 0 < w) (bs : List UInt8) : (pieces w bs).length = bs.length / w := by
  fun_induction pieces w bs with
  | case1 bs hend =>
      have hshort : bs.length < w := hend.resolve_left (Nat.ne_of_gt hw)
      rw [List.length_nil, Nat.div_eq_of_lt hshort]
  | case2 bs hmore ih =>
      have hlong : w ≤ bs.length := by omega
      rw [List.length_cons, ih, List.length_drop, ← Nat.div_eq_sub_div hw hlong]

theorem take_pieces (hw : 0 < w) (hk : k ≤ bs.length) :
    (pieces w bs).take (k / w) = pieces w (bs.take k) := by
  induction hq : k / w generalizing bs k with
  | zero =>
      have hshort : k < w := (Nat.div_eq_zero_iff_lt hw).mp hq
      have htaken : (bs.take k).length < w := by
        rw [List.length_take]
        omega
      rw [List.take_zero, pieces_of_short htaken]
  | succ q ih =>
      have hlong : w ≤ k := (Nat.div_pos_iff.mp (by omega)).2
      have hrest : (k - w) / w = q := by
        rw [Nat.div_eq_sub_div hw hlong] at hq
        omega
      have htaken : w ≤ (bs.take k).length := by
        rw [List.length_take]
        omega
      have hdropped : k - w ≤ (bs.drop w).length := by
        rw [List.length_drop]
        omega
      rw [pieces_of_long hw (by omega), List.take_succ_cons, ih hdropped hrest,
        pieces_of_long hw htaken, List.take_take, Nat.min_eq_left hlong, List.drop_take]

end Pieces

namespace Blend

/-- What is added further on does not change the beginning of a mix. -/
theorem take_addAll (b : Blend τ) (mix samples : List τ) (k : Nat) :
    (b.addAll mix samples).take k = b.addAll (mix.take k) samples := by
  induction mix generalizing samples k with
  | nil => cases samples <;> simp [addAll]
  | cons m mix ih => cases samples <;> cases k <;> simp [addAll, ih]

/-- A frame that is covered by samples shows nothing of what it was. -/
theorem encodeOnto_eq (hwidth : 0 < b.width) {mix : List τ} {frame : List UInt8} {k : Nat}
    (hframe : frame.length = k * b.width) (hk : k ≤ mix.length) :
    b.encodeOnto mix frame = b.encodeAll (mix.take k) := by
  induction mix generalizing frame k with
  | nil =>
      have hnone : frame = [] := by
        rw [← List.length_eq_zero_iff, hframe, Nat.le_zero.mp hk, Nat.zero_mul]
      rw [hnone]
      simp [encodeOnto, encodeAll]
  | cons x mix ih =>
      cases k with
      | zero =>
          rw [Nat.zero_mul] at hframe
          rw [encodeOnto, if_pos (hframe ▸ hwidth), List.length_eq_zero_iff.mp hframe]
          rfl
      | succ k =>
          have hroom : ¬ frame.length < b.width := by
            rw [hframe, Nat.succ_mul]
            omega
          have hrest : (frame.drop b.width).length = k * b.width := by
            rw [List.length_drop, hframe, Nat.succ_mul, Nat.add_sub_cancel]
          rw [encodeOnto, if_neg hroom, ih hrest (Nat.le_of_succ_le_succ hk)]
          rfl

end Blend

/-- The buffers have room for spans of `n` bytes. -/
structure Scratch.Fits (b : Blend τ) (n : Nat) (s : Scratch τ) : Prop where
  mix : n / b.width ≤ s.mix.length
  samples : n / b.width ≤ s.samples.length
  input : s.input.length = n
  frame : s.frame.length = n

/-- What is made in the buffers begins with the mixdown of new lists. -/
structure Draft.Makes (b : Blend τ) (n : Nat) (d : Draft τ) (d' : Mixdown τ) : Prop where
  fits : d.scratch.Fits b n
  registry : d.registry = d'.registry
  mix : d.scratch.mix.take (n / b.width) = d'.mix
  longest : d.longest = d'.longest

namespace Scratch
variable {s : Scratch τ}

theorem Fits.silenced (h : s.Fits b n) : (s.silenced b).Fits b n :=
  ⟨by simpa [Scratch.silenced] using h.mix, h.samples, h.input, h.frame⟩

theorem take_mix_silenced (h : s.Fits b n) :
    (s.silenced b).mix.take (n / b.width) = b.quiet (n / b.width) := by
  simp [Scratch.silenced, Blend.quiet, List.map_const', Nat.min_eq_left h.mix]

theorem Fits.blend (h : s.Fits b n) (k : Nat) (gain : Single) : (s.blend b k gain).Fits b n where
  mix := by simpa [Scratch.blend] using h.mix
  samples := by simpa [Scratch.blend, Blend.decodeOnto] using h.samples
  input := h.input
  frame := h.frame

/-- The samples that are added are those of the bytes that were read. -/
theorem take_mix_blend (hwidth : 0 < b.width) (h : s.Fits b n) {k : Nat} (hk : k ≤ n)
    (gain : Single) : (s.blend b k gain).mix.take (n / b.width) =
      b.mixIn (s.mix.take (n / b.width)) (s.input.take k) gain := by
  have hwhole : k / b.width ≤ n / b.width := Nat.div_le_div_right hk
  have hpieces : k / b.width ≤ ((pieces b.width s.input).map b.decode).length := by
    rw [List.length_map, length_pieces hwidth, h.input]
    exact hwhole
  have hinput : k ≤ s.input.length := by
    rw [h.input]
    exact hk
  have hdecoded : (b.decodeOnto s.samples s.input).take (k / b.width) =
      (pieces b.width (s.input.take k)).map b.decode := by
    rw [Blend.decodeOnto, take_overwrite hpieces (Nat.le_trans hwhole h.samples), ← List.map_take,
      take_pieces hwidth hinput]
  simp only [Scratch.blend, Blend.mixIn]
  rw [Blend.take_addAll, hdecoded, List.map_map]
  rfl

end Scratch

namespace Mixer

theorem makes_gather (hwidth : 0 < b.width) {d : Draft τ} {d' : Mixdown τ} (h : d.Makes b n d')
    (s : Session) : (gatherOnto b d s).Makes b n (gather b n d' s) := by
  unfold gatherOnto gather Registry.apply
  rw [← h.registry]
  cases d.registry.any? s.id with
  | none => exact ⟨h.fits, rfl, h.mix, h.longest⟩
  | some found =>
      dsimp only
      rw [found.readOnto_eq, h.fits.input]
      cases hread : found.read n with
      | mk answer found' =>
          cases answer with
          | error e => exact ⟨h.fits, rfl, h.mix, h.longest⟩
          | ok got =>
              obtain ⟨hle, hdata⟩ := Session.length_read (congrArg Prod.fst hread)
              have hfits : Scratch.Fits b n { d.scratch with input := got.data } :=
                ⟨h.fits.mix, h.fits.samples, hdata, h.fits.frame⟩
              have hlongest :
                  max d.longest got.outcome.bytesRead = max d'.longest got.bytesRead := by
                rw [h.longest, got.bytesRead_outcome]
              by_cases hsilent : s.controls.gain.isZero
              · refine ⟨?_, rfl, ?_, hlongest⟩
                · simpa only [if_pos hsilent] using hfits
                · simpa only [if_pos hsilent] using h.mix
              · refine ⟨?_, rfl, ?_, hlongest⟩
                · simpa only [if_neg hsilent] using hfits.blend _ _
                · have hmix := Scratch.take_mix_blend hwidth hfits hle s.controls.gain
                  simp only [h.mix] at hmix
                  simpa only [if_neg hsilent, got.bytesRead_outcome] using hmix

theorem makes_foldl (hwidth : 0 < b.width) {d : Draft τ} {d' : Mixdown τ} (h : d.Makes b n d')
    (sessions : List Session) :
    (sessions.foldl (gatherOnto b) d).Makes b n (sessions.foldl (gather b n) d') := by
  induction sessions generalizing d d' with
  | nil => exact h
  | cons s rest ih => exact ih (makes_gather hwidth h s)

theorem encodeOnto_of_makes (hb : b.Fills n) {d : Draft τ} {d' : Mixdown τ} (h : d.Makes b n d') :
    b.encodeOnto d.scratch.mix d.scratch.frame = b.encodeAll d'.mix := by
  have hframe : d.scratch.frame.length = n / b.width * b.width := by
    rw [h.fits.frame, Nat.div_mul_cancel hb.whole]
  rw [Blend.encodeOnto_eq hb.pos hframe h.fits.mix, h.mix]

/-- Whatever stood in the buffers, the frame is that of a new mix. -/
theorem composeOnto_eq (hb : b.Fills n) {scratch : Scratch τ} (hfits : scratch.Fits b n)
    (reg : Registry) (sessions : List Session) :
    let made := composeOnto b scratch reg sessions
    let d := mixdown b n reg sessions
    made.1 = d.frame? b ∧ made.2.1.Fits b n ∧ made.2.2 = d.registry := by
  intro made d
  by_cases hnone : sessions.isEmpty
  · have hmade : made = (none, scratch, reg) := if_pos hnone
    have hd : d = { registry := reg, mix := b.quiet (n / b.width) } := by
      simp only [d, mixdown, List.isEmpty_iff.mp hnone, List.foldl_nil]
    rw [hmade, hd]
    exact ⟨rfl, hfits, rfl⟩
  · have hstart : Draft.Makes b n { registry := reg, scratch := scratch.silenced b }
        { registry := reg, mix := b.quiet (n / b.width) } :=
      ⟨hfits.silenced, rfl, Scratch.take_mix_silenced hfits, rfl⟩
    have hmakes := makes_foldl hb.pos hstart sessions
    have hd : d = sessions.foldl (gather b n)
        { registry := reg, mix := b.quiet (n / b.width) } := rfl
    simp only [made, composeOnto, if_neg hnone]
    rw [← hd] at hmakes
    generalize sessions.foldl (gatherOnto b) _ = d' at hmakes
    unfold Mixdown.frame?
    rw [hmakes.longest]
    by_cases hempty : d.longest = 0
    · rw [if_pos hempty, if_pos hempty]
      exact ⟨rfl, hmakes.fits, hmakes.registry⟩
    · rw [if_neg hempty, if_neg hempty, encodeOnto_of_makes hb hmakes]
      refine ⟨rfl, ⟨hmakes.fits.mix, hmakes.fits.samples, hmakes.fits.input, ?_⟩, hmakes.registry⟩
      have hlength : d.mix.length = n / b.width := by
        rw [← hmakes.mix, List.length_take, Nat.min_eq_left hmakes.fits.mix]
      rw [Blend.length_encodeAll hb.encode, hlength, Nat.mul_div_cancel' hb.whole]

/-- A cycle in the buffers is a cycle, and leaves buffers of the same sizes. -/
theorem cycleOnto_eq [Playback σ] {m : Mixer σ} (hb : b.Fills m.spanBytes) {scratch : Scratch τ}
    (hfits : scratch.Fits b m.spanBytes) (reg : Registry) :
    let done := m.cycleOnto b scratch reg
    (done.1, done.2.2) = m.cycleWith b reg ∧ done.2.1.Fits b m.spanBytes := by
  intro done
  obtain ⟨hframe, hfits, hregistry⟩ :=
    composeOnto_eq hb hfits reg ((m.routes.refresh reg).2.running reg)
  rw [cycleWith_eq_frame]
  dsimp only
  rw [← hframe, ← hregistry]
  simp only [done, cycleOnto]
  generalize composeOnto b scratch reg _ = made at hfits
  obtain ⟨frame, scratch', reg'⟩ := made
  cases frame with
  | none => exact ⟨rfl, hfits⟩
  | some frame => exact ⟨rfl, hfits⟩

theorem fits_blank {device : Device} {info : StreamFormat} {spanFrames : UInt32} {output : σ}
    {m : Mixer σ} (hmade : create device info spanFrames output = .ok m)
    (hb : b.Suits info.format) : (Scratch.blank b info spanFrames).Fits b m.spanBytes := by
  have hspan : m.spanBytes ≤ b.width * (spanFrames.toNat * info.channels.toNat) := by
    calc m.spanBytes = (spanFrames * UInt32.ofNat info.bytesPerFrame).toNat :=
          spanBytes_of_create hmade
      _ ≤ spanFrames.toNat * info.bytesPerFrame := by
          rw [UInt32.toNat_mul, UInt32.toNat_ofNat']
          exact Nat.le_trans (Nat.mod_le _ _) (Nat.mul_le_mul_left _ (Nat.mod_le _ _))
      _ = b.width * (spanFrames.toNat * info.channels.toNat) := by
          rw [StreamFormat.bytesPerFrame, hb.width]
          ac_rfl
  have hsamples := Nat.div_le_of_le_mul hspan
  constructor
  · simpa [Scratch.blank] using hsamples
  · simpa [Scratch.blank] using hsamples
  · simp [Scratch.blank, spanBytes_of_create hmade]
  · simp [Scratch.blank, spanBytes_of_create hmade]

end Mixer
end Patchbay
