import Patchbay.Proofs.Mix.Buffers
import Patchbay.Proofs.Mix.Cycles
import Patchbay.Proofs.Ring.Lengths

/-!
# A muted stream is not heard

A session without gain is drained with the others, so that its bytes pass through the buffers of
the mixer. Two cycles are compared, one with the session and one in which it does not run or has
other bytes in its ring. Whatever was left in the buffers and whatever samples are, the frames of
the two are the same.
-/
namespace Patchbay

/-- The session with other bytes in its ring. -/
def Session.remembering (s : Session) (m : Memory) : Session :=
  { s with ring := { s.ring with memory := m } }

namespace Registry

variable {r : Registry} {id : Nat} {f : Session → Session}

theorem all_modify (hr : r.Numbered) (id : Nat) (f : Session → Session) :
    (r.modify id f).all = r.all.map fun s => if s.id = id then f s else s := by
  have hlisted : (r.modify id f).listed = r.listed := rfl
  rw [all, all, hlisted, List.map_filterMap]
  refine List.filterMap_congr fun id' _ => ?_
  rw [any?_modify]
  cases hs : r.any? id' with
  | none => simp
  | some s =>
      have hid : s.id = id' := (hr id' s hs).1
      by_cases hsame : id = id'
      · simp [hsame, hid]
      · simp [hsame, hid, Ne.symm hsame]

/-- The list stays in order if one session becomes another one of its number. -/
theorem Ascending.modify (h : r.Ascending) (id : Nat)
    (hf : ∀ s : Session, (f s).id = s.id ∧ (f s).reports = s.reports) :
    (r.modify id f).Ascending := by
  have hfrom : ∀ id' s', (r.modify id f).any? id' = some s' →
      ∃ s, r.any? id' = some s ∧ s'.id = s.id ∧ s'.reports = s.reports := by
    intro id' s' hs'
    rw [any?_modify] at hs'
    split at hs'
    · obtain ⟨s, hs, rfl⟩ := Option.map_eq_some_iff.mp hs'
      exact ⟨s, hs, hf s⟩
    · exact ⟨s', hs', rfl, rfl⟩
  constructor
  · intro id' s' hs'
    obtain ⟨s, hs, hid, -⟩ := hfrom id' s' hs'
    rw [hid]
    exact h.numbered id' s hs
  · intro id' s' hs'
    obtain ⟨s, hs, -, hreports⟩ := hfrom id' s' hs'
    rw [hreports]
    exact h.heard id' s hs
  · intro id' hlisted
    obtain ⟨s, hs⟩ := h.known id' hlisted
    rw [any?_modify, hs]
    split
    · exact ⟨f s, rfl⟩
    · exact ⟨s, rfl⟩
  · exact h.ascending

end Registry

section Replaced

variable {p : Session → Bool} {f : Session → Session} (id : Nat)

/-- Replaced by one that does not count, the session is missing. -/
theorem filter_replaced_of_not (hf : ∀ s, ¬ p (f s)) (sessions : List Session) :
    (sessions.map fun s => if s.id = id then f s else s).filter p =
      (sessions.filter p).filter fun s => s.id ≠ id := by
  induction sessions with
  | nil => rfl
  | cons s rest ih =>
      rw [List.map_cons, List.filter_cons, ih]
      by_cases hsame : s.id = id
      · cases hp : p s <;> simp [hsame, hf, hp]
      · cases hp : p s <;> simp [hsame, hp]

theorem filter_replaced (hf : ∀ s, p (f s) = p s) (sessions : List Session) :
    (sessions.map fun s => if s.id = id then f s else s).filter p =
      (sessions.filter p).map fun s => if s.id = id then f s else s := by
  rw [List.filter_map]
  refine congrArg (List.map _) (List.filter_congr fun s _ => ?_)
  simp only [Function.comp_apply]
  split
  · exact hf s
  · rfl

end Replaced

namespace Session

theorem gain_isZero_of_silent {s : Session}
    (h : s.controls.isMuted ∨ s.controls.volume.isZero) : s.controls.gain.isZero := by
  unfold Controls.gain
  split
  · decide
  · rename_i hmuted
    exact h.resolve_left hmuted

theorem taken_remembering {s : Session} {m : Memory}
    (hg : s.ring.mapping.geometry.check = .ok ())
    (h : s.ring.mapping.geometry.Alike s.ring.memory m) (n : Nat) :
    (s.remembering m).taken n = s.taken n := by
  by_cases hend : s.isTerminal
  · have hend' : (s.remembering m).isTerminal := hend
    simp [taken, read, hend, hend']
  · have hread := RingMapping.bytesRead_readInto_alike hg h n
    have hread' : ((s.remembering m).read n).1 = (s.ring.mapping.readInto m n).1 :=
      fst_read (s := s.remembering m) hend n
    unfold taken
    rw [hread', fst_read hend]
    generalize (s.ring.mapping.readInto m n).1 = a' at hread ⊢
    generalize (s.ring.mapping.readInto s.ring.memory n).1 = a at hread ⊢
    cases a <;> cases a' <;> simp_all [Except.map]

end Session

namespace Mixer

variable {σ τ : Type} {sessions : List Session}

/-- To leave out sessions without gain does not change the mix. -/
theorem blended_filter (b : Blend τ) (n : Nat) {keep : Session → Bool}
    (h : ∀ s ∈ sessions, ¬ keep s → s.controls.gain.isZero) :
    blended b n (sessions.filter keep) = blended b n sessions := by
  unfold blended
  generalize b.quiet (n / b.width) = mix
  induction sessions generalizing mix with
  | nil => rfl
  | cons s rest ih =>
      have hrest := ih fun t ht => h t (List.mem_cons_of_mem _ ht)
      by_cases hkeep : keep s
      · rw [List.filter_cons, if_pos hkeep, List.foldl_cons, List.foldl_cons, hrest]
      · have hsilent := h s List.mem_cons_self hkeep
        rw [List.filter_cons, if_neg hkeep, List.foldl_cons, s.mixedInto_of_silent hsilent, hrest]

theorem frame?_map (b : Blend τ) (n : Nat) {f : Session → Session}
    (htaken : ∀ s ∈ sessions, (f s).taken n = s.taken n)
    (hmixed : ∀ s ∈ sessions, ∀ mix, (f s).mixedInto b n mix = s.mixedInto b n mix) :
    frame? b n (sessions.map f) = frame? b n sessions := by
  have hblended : blended b n (sessions.map f) = blended b n sessions := by
    unfold blended
    rw [List.foldl_map]
    exact List.foldl_ext _ _ _ fun mix s hs => hmixed s hs mix
  have hnone : (∀ s ∈ sessions.map f, s.taken n = 0) ↔ ∀ s ∈ sessions, s.taken n = 0 := by
    rw [List.forall_mem_map]
    exact forall₂_congr fun s hs => by rw [htaken s hs]
  simp only [frame?, hblended, hnone]

theorem frameOnto?_eq {b : Blend τ} {n : Nat} (hb : b.Fills n) {scratch : Scratch τ}
    (hfits : scratch.Fits b n) (m : Mixer σ) {reg : Registry}
    (hsessions : (m.routes.refresh reg).2.running reg = sessions) (h : reg.Finds sessions) :
    m.frameOnto? b scratch reg = frame? b n sessions := by
  rw [frameOnto?, hsessions, (composeOnto_eq hb hfits reg sessions).1, frame?_mixdown b n h]

end Mixer

/-- A mixer with its buffers. -/
structure BufferedWatch (σ τ : Type) extends MixerWatch σ where
  scratch : Scratch τ

namespace BufferedWatch
variable {σ τ : Type} [Playback σ]

def step (b : Blend τ) (w : BufferedWatch σ τ) : MixerStep σ → BufferedWatch σ τ
  | .cycle =>
    let (_, scratch, mixer, registry) := w.mixer.cycleOnto b w.scratch w.registry
    ⟨⟨mixer, registry⟩, scratch⟩
  | t => { w with toMixerWatch := w.toMixerWatch.step t }

def run (b : Blend τ) (w : BufferedWatch σ τ) (steps : List (MixerStep σ)) : BufferedWatch σ τ :=
  steps.foldl (step b) w

/-- The watches agree but for the buffers, which have room for a span. -/
structure Agrees (b : Blend τ) (n : Nat) (w : BufferedWatch σ τ) (w' : MixerWatch σ) : Prop where
  watch : w.toMixerWatch = w'
  fits : w.scratch.Fits b n

variable {device : Device} {info : StreamFormat} {n : Nat} {b : Blend Single}
  {w : BufferedWatch σ Single} {w' : MixerWatch σ}

theorem Agrees.step (h : w.Agrees b n w') (hw : w'.InStep device info n)
    (hblend : info.format.blend? = some b) (hfills : b.Fills n) (t : MixerStep σ) :
    (w.step b t).Agrees b n (w'.step t) := by
  obtain ⟨rfl, hfits⟩ := h
  cases t with
  | sessions t => exact ⟨rfl, hfits⟩
  | plug output => exact ⟨rfl, hfits⟩
  | cycle =>
      have hcycle : w.mixer.cycle w.registry = w.mixer.cycleWith b w.registry := by
        unfold Mixer.cycle
        rw [hw.format, hblend]
      rw [← hw.spanBytes] at hfills hfits ⊢
      obtain ⟨hsame, hfits'⟩ := Mixer.cycleOnto_eq hfills hfits w.registry
      refine ⟨?_, hfits'⟩
      simp only [BufferedWatch.step, MixerWatch.step, hcycle, ← hsame]

theorem Agrees.run (h : w.Agrees b n w') (hw : w'.InStep device info n)
    (hblend : info.format.blend? = some b) (hfills : b.Fills n) (steps : List (MixerStep σ)) :
    (w.run b steps).Agrees b n (w'.run steps) := by
  induction steps generalizing w w' with
  | nil => exact h
  | cons t later ih => exact ih (h.step hw hblend hfills t) (hw.step t)

/-- A mixer that keeps its buffers does what one does that makes new lists, and its buffers always
have room. -/
theorem agrees_run {host : Host} {home : Option Session.RingHome} {files : Directory}
    {spanFrames : UInt32} {output : σ} {mixer : Mixer σ}
    (hmade : Mixer.create device info spanFrames output = .ok mixer)
    (hblend : info.format.blend? = some b) (steps : List (MixerStep σ)) :
    let start : MixerWatch σ := ⟨mixer, { host := host, home := home, files := files }⟩
    (run b ⟨start, Scratch.blank b info spanFrames⟩ steps).Agrees b mixer.spanBytes
      (start.run steps) := by
  have hsuits := Blend.suits_of_blend? hblend
  exact Agrees.run ⟨rfl, Mixer.fits_blank hmade hsuits⟩ (MixerWatch.inStep_create hmade) hblend
    (Mixer.fills_of_create hmade hsuits) steps

end BufferedWatch

namespace MixerWatch

variable {σ τ : Type} {device : Device} {info : StreamFormat} {n : Nat} {w : MixerWatch σ}
  {b : Blend τ} {scratch : Scratch τ} {f : Session → Session}

theorem InStep.frameOnto?_eq (h : w.InStep device info n) (hb : b.Fills n)
    (hfits : scratch.Fits b n) :
    w.mixer.frameOnto? b scratch w.registry =
      Mixer.frame? b n (w.registry.all.filter (·.feeds device info)) :=
  Mixer.frameOnto?_eq hb hfits w.mixer h.drains (h.tuned.registry.toAscending.finds_filter _)

/-- The frame of a cycle in which a session is another one that its cache cannot tell from it. -/
theorem InStep.frameOnto?_modify (h : w.InStep device info n) (hb : b.Fills n)
    (hfits : scratch.Fits b n) (id : Nat)
    (hf : ∀ s : Session, s.Keeps (f s) ∧ (f s).epoch = s.epoch)
    (hreports : ∀ s : Session, (f s).reports = s.reports) :
    w.mixer.frameOnto? b scratch (w.registry.modify id f) =
      Mixer.frame? b n ((w.registry.all.map fun s => if s.id = id then f s else s).filter
        (·.feeds device info)) := by
  have hascending := h.tuned.registry.toAscending
  have hascending' := hascending.modify id fun s => ⟨(hf s).1.id, hreports s⟩
  have hfollows := (h.tuned.follows _ List.mem_cons_self).marks hascending hascending'
    (w.registry.modify_marks id hf)
  rw [← Registry.all_modify hascending.numbered]
  exact Mixer.frameOnto?_eq hb hfits w.mixer (hfollows.running_feeds h.routes hascending')
    (hascending'.finds_filter _)

/-- A session without gain that does not run is not missed in the mix. -/
theorem InStep.same_frame_without (h : w.InStep device info n) (hb : b.Fills n)
    {scratch' : Scratch τ} (hfits : scratch.Fits b n) (hfits' : scratch'.Fits b n) {id : Nat}
    {s : Session} (hs : w.registry.any? id = some s) (hsilent : s.controls.gain.isZero)
    {state : SessionState} (hstate : state ≠ .running) {frame frame' : List UInt8}
    (hframe : w.mixer.frameOnto? b scratch w.registry = some frame)
    (hframe' : w.mixer.frameOnto? b scratch'
      (w.registry.modify id ({ · with state := state })) = some frame') : frame' = frame := by
  have hkeeps : ∀ t : Session, t.Keeps { t with state := state } ∧
      ({ t with state := state } : Session).epoch = t.epoch := fun _ => ⟨⟨rfl, rfl, rfl⟩, rfl⟩
  rw [h.frameOnto?_eq hb hfits] at hframe
  rw [h.frameOnto?_modify hb hfits' id hkeeps fun _ => rfl, filter_replaced_of_not] at hframe'
  · have hleft : ∀ t ∈ w.registry.all.filter (·.feeds device info), ¬ decide (t.id ≠ id) →
        t.controls.gain.isZero := by
      intro t ht hid
      have hfound := (h.tuned.registry.toAscending.finds_filter _).found t ht
      have hid : t.id = id := by simpa using hid
      rw [hid, hs] at hfound
      cases hfound
      exact hsilent
    have hblended := Mixer.blended_filter b n hleft
    unfold Mixer.frame? at hframe hframe'
    split at hframe
    · cases hframe
    · split at hframe'
      · cases hframe'
      · cases hframe
        cases hframe'
        rw [hblended]
  · intro t
    simp [Session.feeds, Session.isRunning, hstate]

theorem InStep.same_frame_of_alike (h : w.InStep device info n) (hb : b.Fills n)
    {scratch' : Scratch τ} (hfits : scratch.Fits b n) (hfits' : scratch'.Fits b n) {id : Nat}
    {s : Session} (hs : w.registry.any? id = some s) (hsilent : s.controls.gain.isZero)
    {m : Memory} (halike : s.ring.mapping.geometry.Alike s.ring.memory m) :
    w.mixer.frameOnto? b scratch' (w.registry.modify id (·.remembering m)) =
      w.mixer.frameOnto? b scratch w.registry := by
  have hfound : ∀ t ∈ w.registry.all.filter (·.feeds device info), t.id = id → t = s := by
    intro t ht hid
    have hfound := (h.tuned.registry.toAscending.finds_filter _).found t ht
    rw [hid, hs] at hfound
    exact (Option.some.inj hfound).symm
  have hkeeps : ∀ t : Session, t.Keeps (t.remembering m) ∧ (t.remembering m).epoch = t.epoch :=
    fun _ => ⟨⟨rfl, rfl, rfl⟩, rfl⟩
  rw [h.frameOnto?_eq hb hfits, h.frameOnto?_modify hb hfits' id hkeeps fun _ => rfl,
    filter_replaced (f := (·.remembering m)) id fun _ => rfl]
  refine Mixer.frame?_map b n ?_ ?_
  · intro t ht
    split
    · rename_i hid
      rw [hfound t ht hid]
      exact Session.taken_remembering (h.tuned.registry.geometry id s hs) halike n
    · rfl
  · intro t ht mix
    split
    · rename_i hid
      have hsilent' : (s.remembering m).controls.gain.isZero := hsilent
      rw [hfound t ht hid, Session.mixedInto_of_silent hsilent',
        Session.mixedInto_of_silent hsilent]
    · rfl

end MixerWatch

/-- A session that is muted or has volume zero is not heard, whatever happened before and whatever
was left in the buffers: the frame of a cycle in which it does not run is the same, if both cycles
have one, and other bytes in its ring change nothing. -/
theorem muted_stream_unheard {σ τ : Type} [Playback σ] (host : Host)
    (home : Option Session.RingHome) (files : Directory) {device : Device} {info : StreamFormat}
    {spanFrames : UInt32} {output : σ} {mixer : Mixer σ}
    (hmade : Mixer.create device info spanFrames output = .ok mixer)
    (steps : List (MixerStep σ)) {w : MixerWatch σ}
    (hrun : MixerWatch.run
      { mixer := mixer, registry := { host := host, home := home, files := files } } steps = w)
    {b : Blend τ} (hb : b.Suits info.format) {scratch scratch' : Scratch τ}
    (hfits : scratch.Fits b mixer.spanBytes) (hfits' : scratch'.Fits b mixer.spanBytes)
    {id : Nat} {s : Session} (hs : w.registry.any? id = some s)
    (hsilent : s.controls.isMuted ∨ s.controls.volume.isZero) :
    (∀ state frame frame', state ≠ .running →
      w.mixer.frameOnto? b scratch w.registry = some frame →
      w.mixer.frameOnto? b scratch' (w.registry.modify id ({ · with state := state })) =
        some frame' → frame' = frame) ∧
    ∀ m, s.ring.mapping.geometry.Alike s.ring.memory m →
      w.mixer.frameOnto? b scratch' (w.registry.modify id (·.remembering m)) =
        w.mixer.frameOnto? b scratch w.registry := by
  have hw := hrun ▸ (MixerWatch.inStep_create hmade).run steps
  have hfills := Mixer.fills_of_create hmade hb
  have hgain := Session.gain_isZero_of_silent hsilent
  refine ⟨fun state frame frame' hstate hframe hframe' => ?_, fun m halike => ?_⟩
  · exact hw.same_frame_without hfills hfits hfits' hs hgain hstate hframe hframe'
  · exact hw.same_frame_of_alike hfills hfits hfits' hs hgain halike

/-- Of a muted and of another session only the other is heard, although both have data and the
buffers are not empty. -/
theorem muted_music_unheard :
    let speaker : Device := { type := .speaker, role := .output, connectedAt := 1 }
    let mono : StreamFormat := { channels := 1 }
    let opened (id : Nat) (data : List UInt8) : List (MixerStep Adapter.Jack) :=
      [.sessions (.create ⟨.render .music, mono, 1000, 2, 2⟩), .sessions (.call id .resolve),
        .sessions (.call id (.bind speaker)), .sessions (.call id .start),
        .sessions (.call id (.write data 0))]
    let steps := opened 1 [1, 2, 3, 4] ++ opened 2 [5, 6, 7, 8] ++
      [.sessions (.control 1 { isMuted := true })]
    let stale : Scratch Single :=
      { mix := [Single.one, Single.one], samples := [Single.one, Single.one]
        input := [9, 9, 9, 9], frame := [9, 9, 9, 9] }
    ∃ mixer w, Mixer.create speaker mono 2 (Adapter.Jack.looped mono) = .ok mixer ∧
      MixerWatch.run { mixer := mixer, registry := {} } steps = w ∧
      stale.Fits .word16 mixer.spanBytes ∧
      (w.registry.any? 1).any (fun s =>
        s.feeds speaker mono && s.controls.isMuted && s.taken 4 = 4) ∧
      w.mixer.frameOnto? .word16 stale w.registry = some [5, 6, 7, 8] ∧
      ∀ state frame, state ≠ .running →
        w.mixer.frameOnto? .word16 stale (w.registry.modify 1 ({ · with state := state })) =
          some frame → frame = [5, 6, 7, 8] := by
  intro speaker mono opened steps stale
  obtain ⟨mixer, hmade, hspan⟩ :
      ∃ mixer, Mixer.create speaker mono 2 (Adapter.Jack.looped mono) = .ok mixer ∧
        mixer.spanBytes = 4 := ⟨_, rfl, rfl⟩
  have hfits : stale.Fits .word16 mixer.spanBytes := by
    rw [hspan]
    exact ⟨by decide, by decide, rfl, rfl⟩
  generalize hrun : MixerWatch.run { mixer := mixer, registry := {} } steps = w
  have hdata : (w.registry.any? 1).any fun s =>
      s.feeds speaker mono && s.controls.isMuted && s.taken 4 = 4 := by
    cases hmade
    cases hrun
    decide +kernel
  have hframe : w.mixer.frameOnto? .word16 stale w.registry = some [5, 6, 7, 8] := by
    cases hmade
    cases hrun
    decide +kernel
  obtain ⟨s, hs, hmuted⟩ : ∃ s, w.registry.any? 1 = some s ∧ s.controls.isMuted := by
    obtain ⟨s, hs, hall⟩ := (Option.any_eq_true _ _).mp hdata
    simp only [Bool.and_eq_true] at hall
    exact ⟨s, hs, hall.1.2⟩
  obtain ⟨hsame, -⟩ := muted_stream_unheard {} none ∅ hmade steps hrun
    (Blend.suits_of_blend? rfl) hfits hfits hs (.inl hmuted)
  exact ⟨mixer, w, hmade, hrun, hfits, hdata, hframe, fun state frame hstate hframe' =>
    hsame state _ frame hstate hframe hframe'⟩

end Patchbay
