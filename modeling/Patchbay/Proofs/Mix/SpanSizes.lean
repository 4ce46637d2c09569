import Patchbay.Mix.Sizes
import Patchbay.Proofs.Mix.Drains
import Patchbay.Proofs.Mix.Mixdowns
import Patchbay.Proofs.Session.Creations

/-!
# How large spans are

The bytes of a span are its frames, times the channels, times the bytes of a sample. Mixers,
recorders and sessions count them each in words of their own. For settings and configurations
that were checked, recorders and sessions count them in full or refuse, and the length of a ring
always fits 64 bits. A mixer keeps what 32 bits hold, so that all counts are exact if that is the
whole of a span, or if there is no mixer.
-/
namespace Patchbay

/-- The bytes of a span, as arithmetic has it. -/
def StreamFormat.bytesPerSpan (f : StreamFormat) (frames : UInt32) : Nat :=
  frames.toNat * f.channels.toNat * f.format.bytesPerSample

/-- The length of the ring of a configuration. -/
def StreamConfig.ringBytes (c : StreamConfig) : Nat :=
  64 + c.spanCount.toNat * (16 + c.info.bytesPerSpan c.spanFrames)

/-- A span of the settings, and a ring of the configuration, take as many bytes as arithmetic has
it wherever they are counted. -/
structure SizesExact (s : StreamSettings) (c : StreamConfig) : Prop where
  mixer : ∀ {σ : Type} {device : Device} {output : σ} {m : Mixer σ},
    Mixer.create device s.info s.spanFrames output = .ok m →
      m.spanBytes = s.info.bytesPerSpan s.spanFrames
  recorder : ∀ {σ : Type} {device : Device} {input : σ} {r : Recorder σ},
    Recorder.create device s.info s.spanFrames input = .ok r →
      r.span.length = s.info.bytesPerSpan s.spanFrames
  /-- A mixer and a recorder of the same settings take the same. -/
  agree : ∀ {σ τ : Type} {speaker mic : Device} {output : σ} {input : τ} {m : Mixer σ}
    {r : Recorder τ}, Mixer.create speaker s.info s.spanFrames output = .ok m →
      Recorder.create mic s.info s.spanFrames input = .ok r → m.spanBytes = r.span.length
  session : ∀ {host : Host} {home : Option Session.RingHome} {id : Nat} {files files' : Directory}
    {handles handles' : HandleTable} {made : Session},
    Session.create host home id c files handles = (.ok made, files', handles') →
      made.ring.mapping.geometry.spanSize.toNat = c.info.bytesPerSpan c.spanFrames ∧
        made.ring.memory.size = c.ringBytes
  /-- The geometry that a configuration leads to is accepted. -/
  ring : ∀ {g : RingGeometry}, c.ring? = some g → ∃ length, g.measure = .ok length ∧
    length.toNat = 64 + g.spanCount.toNat * (16 + g.spanSize.toNat)

/-- What is made of the settings and of the configuration, and what is not. -/
structure SizesCounted (s : StreamSettings) (c : StreamConfig) : Prop where
  /-- Every format that can be mixed has a mixer. What 32 bits cannot hold of a span is cut. -/
  mixer : ∀ {σ : Type} (device : Device) (output : σ), ¬ s.info.format.blend?.isNone →
    ∃ m, Mixer.create device s.info s.spanFrames output = .ok m ∧
      m.spanBytes = (s.info.mixedSize s.spanFrames).toNat ∧
      m.spanBytes = s.info.bytesPerSpan s.spanFrames % 2 ^ 32
  /-- Every format has a recorder, and it takes whole spans. -/
  recorder : ∀ {σ : Type} (device : Device) (input : σ),
    ∃ r, Recorder.create device s.info s.spanFrames input = .ok r ∧
      r.span.length = (s.info.recordedSize s.spanFrames).toNat ∧
      r.span.length = s.info.bytesPerSpan s.spanFrames
  /-- A session is refused if 32 bits cannot hold its span. -/
  refused : 2 ^ 32 ≤ c.info.bytesPerSpan c.spanFrames → ∀ host home id files handles,
    Session.create host home id c files handles =
      (.error (.invalidParam "span size overflows"), files, handles)
  /-- Any other session is made exactly if the host has room for its ring. -/
  session : c.info.bytesPerSpan c.spanFrames < 2 ^ 32 → ∀ host home id files handles,
    (Session.create host home id c files handles).1.isOk ↔ host.canMap c.ringBytes ∧
      ∀ place, home = some place → ¬ files.has (place.path id) ∧ host.canSize c.ringBytes

theorem word64?_eq_some_iff {n : Nat} {w : UInt64} : word64? n = some w ↔ w.toNat = n := by
  unfold word64?
  constructor
  · intro h
    split at h
    · rename_i hfits
      cases h
      exact UInt64.toNat_ofNat_of_lt' hfits
    · cases h
  · rintro rfl
    rw [if_pos w.toNat_lt, UInt64.ofNat_toNat]

namespace StreamFormat
variable (f : StreamFormat) (frames : UInt32)

theorem bytesPerSpan_eq : f.bytesPerSpan frames = frames.toNat * f.bytesPerFrame :=
  Nat.mul_assoc ..

theorem bytesPerSpan_lt : f.bytesPerSpan frames < 2 ^ 50 := by
  rw [bytesPerSpan_eq]
  calc frames.toNat * f.bytesPerFrame < 2 ^ 32 * 2 ^ 18 :=
        Nat.mul_lt_mul'' frames.toNat_lt f.bytesPerFrame_lt
    _ = 2 ^ 50 := by decide

theorem toNat_frameSize : f.frameSize.toNat = f.bytesPerFrame := by
  have hsample : (UInt32.ofNat f.format.bytesPerSample).toNat = f.format.bytesPerSample := by
    cases f.format <;> rfl
  rw [frameSize, UInt32.toNat_mul, UInt16.toNat_toUInt32, hsample]
  exact Nat.mod_eq_of_lt (Nat.lt_trans f.bytesPerFrame_lt (by decide))

theorem toNat_mixedSize : (f.mixedSize frames).toNat = f.bytesPerSpan frames % 2 ^ 32 := by
  rw [mixedSize, UInt32.toNat_toUInt64, UInt32.toNat_mul, toNat_frameSize, bytesPerSpan_eq]

theorem toNat_recordedSize : (f.recordedSize frames).toNat = f.bytesPerSpan frames := by
  have hfits : frames.toNat * f.bytesPerFrame < 2 ^ 64 := by
    rw [← bytesPerSpan_eq]
    exact Nat.lt_trans (f.bytesPerSpan_lt frames) (by decide)
  rw [recordedSize, UInt64.toNat_mul, UInt32.toNat_toUInt64, UInt32.toNat_toUInt64,
    toNat_frameSize, Nat.mod_eq_of_lt hfits, bytesPerSpan_eq]

end StreamFormat

namespace RingGeometry
variable {g : RingGeometry}

/-- A power of two that 32 bits can hold is at most half of what they can hold. -/
theorem spanCount_le (h : g.check = .ok ()) : g.spanCount.toNat ≤ 2 ^ 31 := by
  obtain ⟨k, hk⟩ := spanCount_eq_two_pow h
  have hword : 2 ^ k < 2 ^ 32 := hk ▸ g.spanCount.toNat_lt
  have hexponent : k < 32 := (Nat.pow_lt_pow_iff_right (by decide)).mp hword
  rw [hk]
  exact Nat.pow_le_pow_right (by decide) (by omega)

theorem mappedBytes_lt (h : g.check = .ok ()) : g.mappedBytes < 2 ^ 64 := by
  have hspan : metaBytes + g.spanSize.toNat ≤ metaBytes + (2 ^ 32 - 1) := by
    have := g.spanSize.toNat_lt
    omega
  -- With the full range of 32 bits for the number of spans this would not hold.
  calc g.mappedBytes ≤ headerBytes + 2 ^ 31 * (metaBytes + (2 ^ 32 - 1)) :=
        Nat.add_le_add_left (Nat.mul_le_mul (spanCount_le h) hspan) _
    _ < 2 ^ 64 := by decide

theorem toNat_mappedBytes (h : g.check = .ok ()) :
    (UInt64.ofNat g.mappedBytes).toNat = g.mappedBytes :=
  UInt64.toNat_ofNat_of_lt' (mappedBytes_lt h)

/-- The only geometries that are refused are those that fail the check. -/
theorem measure_eq (g : RingGeometry) :
    g.measure = g.check.map fun _ => UInt64.ofNat g.mappedBytes := by
  unfold measure
  cases h : g.check with
  | error e => rfl
  | ok _ =>
      have hspan : (UInt64.ofNat metaBytes + g.spanSize.toUInt64).toNat =
          metaBytes + g.spanSize.toNat := by
        have hsize := g.spanSize.toNat_lt
        have hmeta : (UInt64.ofNat metaBytes).toNat = metaBytes := rfl
        rw [UInt64.toNat_add, UInt32.toNat_toUInt64, hmeta, metaBytes]
        omega
      have hspans : g.spanCount.toNat * (metaBytes + g.spanSize.toNat) < 2 ^ 64 :=
        Nat.lt_of_le_of_lt (Nat.le_add_left _ _) (mappedBytes_lt h)
      have hword := UInt64.toNat_ofNat_of_lt' hspans
      have hlength : word64? ((UInt64.ofNat
          (g.spanCount.toNat * (metaBytes + g.spanSize.toNat))).toNat + headerBytes) =
            some (UInt64.ofNat g.mappedBytes) := by
        rw [word64?_eq_some_iff, toNat_mappedBytes h, hword, mappedBytes, Nat.add_comm]
      dsimp only
      rw [hspan, word64?_eq_some_iff.mpr hword, Option.bind_some, hlength]
      rfl

theorem isOk_createAnonymous_iff (h : g.check = .ok ()) (host : Host) :
    (g.createAnonymous host).isOk ↔ host.canMap g.mappedBytes := by
  simp only [createAnonymous, h]
  by_cases hmap : host.canMap g.mappedBytes <;> simp [hmap, Except.isOk, Except.toBool]

theorem isOk_createFile_iff (h : g.check = .ok ()) (host : Host) (d : Directory) (path : String)
    (number : Nat) : (g.createFile host d path number).1.isOk ↔
      ¬ d.has path ∧ host.canSize g.mappedBytes ∧ host.canMap g.mappedBytes := by
  have hmade := g.makes_createFile host d path number
  generalize g.createFile host d path number = answer at hmade ⊢
  cases hmade with
  | refused e cause =>
      have hhas := cause.resolve_left fun he => by cases h.symm.trans he
      simp [hhas, Except.isOk, Except.toBool]
  | stranded checked free failed => simp_all [Except.isOk, Except.toBool]
  | made free done => simp_all [Except.isOk, Except.toBool]

theorem size_of_createAnonymous {host : Host} {ring : Ring}
    (h : g.createAnonymous host = .ok ring) :
    ring.mapping.geometry = g ∧ ring.memory.size = g.mappedBytes := by
  obtain ⟨-, hmapping, first, hholds, -⟩ := createAnonymous_ok h
  exact ⟨congrArg RingMapping.geometry hmapping, hholds.size⟩

theorem size_of_createFile {host : Host} {d d' : Directory} {path : String} {number : Nat}
    {ring : Ring} (h : g.createFile host d path number = (.ok ring, d')) :
    ring.mapping.geometry = g ∧ ring.memory.size = g.mappedBytes := by
  obtain ⟨-, hmapping, ⟨first, hholds, -⟩, -⟩ := createFile_ok h
  exact ⟨congrArg RingMapping.geometry hmapping, hholds.size⟩

end RingGeometry

namespace StreamConfig
variable {c : StreamConfig} {n : UInt32}

theorem sound_of_check (h : c.check = .ok ()) :
    c.spanFrames ≠ 0 ∧ isPowerOfTwo c.spanCount.toNat ∧ c.info.bytesPerFrame ≠ 0 := by
  unfold check at h
  split at h
  · cases h
  · rename_i hframes
    split at h
    · cases h
    · split at h
      · cases h
      · rename_i hcount
        split at h
        · cases h
        · rename_i hbytes
          exact ⟨fun hzero => hframes (by simp [hzero]), by simpa using hcount, hbytes⟩

theorem bytesPerSpan_pos (h : c.check = .ok ()) : 0 < c.info.bytesPerSpan c.spanFrames := by
  obtain ⟨hframes, -, hbytes⟩ := sound_of_check h
  rw [StreamFormat.bytesPerSpan_eq]
  refine Nat.mul_pos (Nat.pos_of_ne_zero fun hzero => hframes ?_) (Nat.pos_of_ne_zero hbytes)
  exact UInt32.toNat_inj.mp hzero

theorem spanBytes?_eq_some_iff :
    c.spanBytes? = some n ↔ n.toNat = c.info.bytesPerSpan c.spanFrames := by
  rw [StreamFormat.bytesPerSpan_eq]
  unfold spanBytes?
  dsimp only
  constructor
  · intro h
    split at h
    · rename_i hfits
      cases h
      exact UInt32.toNat_ofNat_of_lt' hfits
    · cases h
  · intro h
    rw [← h, if_pos n.toNat_lt, UInt32.ofNat_toNat]

theorem spanBytes?_eq_none_iff :
    c.spanBytes? = none ↔ 2 ^ 32 ≤ c.info.bytesPerSpan c.spanFrames := by
  rw [StreamFormat.bytesPerSpan_eq]
  simp [spanBytes?, UInt32.size]

/-- What is asked of a configuration is what is asked of its ring. -/
theorem check_ring (h : c.check = .ok ()) (hn : c.spanBytes? = some n) :
    RingGeometry.check ⟨c.spanCount, n⟩ = .ok () := by
  obtain ⟨-, hcount, -⟩ := sound_of_check h
  have hsize : n ≠ 0 := by
    rintro rfl
    have hpos := bytesPerSpan_pos h
    rw [← spanBytes?_eq_some_iff.mp hn] at hpos
    exact absurd hpos (by decide)
  simp [RingGeometry.check, hcount, hsize]

theorem mappedBytes_ring (hn : c.spanBytes? = some n) :
    RingGeometry.mappedBytes ⟨c.spanCount, n⟩ = c.ringBytes := by
  rw [ringBytes, ← spanBytes?_eq_some_iff.mp hn]
  rfl

theorem ring?_eq_some {g : RingGeometry} (h : c.ring? = some g) :
    ∃ n, c.spanBytes? = some n ∧ g = ⟨c.spanCount, n⟩ := by
  unfold ring? at h
  split at h
  · cases h
  · obtain ⟨n, hn, rfl⟩ := Option.map_eq_some_iff.mp h
    exact ⟨n, hn, rfl⟩

end StreamConfig

namespace Session
variable {host : Host} {home : Option RingHome} {id : Nat} {c : StreamConfig}
variable {files : Directory} {handles : HandleTable}

theorem create_of_overflow (h : c.check = .ok ()) (hspan : c.spanBytes? = none) :
    create host home id c files handles =
      (.error (.invalidParam "span size overflows"), files, handles) := by
  unfold create
  rw [h, hspan]

theorem isOk_create_iff (h : c.check = .ok ()) {n : UInt32} (hn : c.spanBytes? = some n) :
    (create host home id c files handles).1.isOk ↔ host.canMap c.ringBytes ∧
      ∀ place, home = some place →
        ¬ files.has (place.path id) ∧ host.canSize c.ringBytes := by
  have hcheck := StreamConfig.check_ring h hn
  rw [← StreamConfig.mappedBytes_ring hn]
  unfold create
  rw [h, hn]
  cases home with
  | none =>
      have hmade := RingGeometry.isOk_createAnonymous_iff hcheck host
      cases hring : RingGeometry.createAnonymous ⟨c.spanCount, n⟩ host <;>
        simpa [hring, Except.isOk, Except.toBool] using hmade
  | some place =>
      have hmade := RingGeometry.isOk_createFile_iff hcheck host files (place.path id) id
      rcases hring : RingGeometry.createFile ⟨c.spanCount, n⟩ host files (place.path id) id with
        ⟨_ | _, files'⟩ <;>
        simpa [hring, Except.isOk, Except.toBool, and_comm, and_assoc] using hmade

/-- The ring of a session has the geometry of its configuration, and the memory for it. -/
theorem ring_of_create {s : Session} {files' : Directory} {handles' : HandleTable}
    (h : create host home id c files handles = (.ok s, files', handles')) :
    c.ring? = some s.ring.mapping.geometry ∧
      s.ring.memory.size = s.ring.mapping.geometry.mappedBytes := by
  unfold create at h
  unfold StreamConfig.ring?
  cases hcheck : c.check with
  | error e =>
      rw [hcheck] at h
      cases h
  | ok _ =>
      cases hspan : c.spanBytes? with
      | none =>
          rw [hcheck, hspan] at h
          cases h
      | some n =>
          rw [hcheck, hspan] at h
          dsimp only at h
          split at h
          · cases h
          · rename_i ring files'' hmade
            cases h
            have hring : ring.mapping.geometry = ⟨c.spanCount, n⟩ ∧
                ring.memory.size = RingGeometry.mappedBytes ⟨c.spanCount, n⟩ := by
              cases home with
              | none => exact RingGeometry.size_of_createAnonymous (congrArg Prod.fst hmade)
              | some place => exact RingGeometry.size_of_createFile hmade
            obtain ⟨hgeometry, hsize⟩ := hring
            dsimp only
            rw [hgeometry]
            exact ⟨rfl, hsize⟩

end Session

namespace Settings
variable {s : Settings}

theorem spanFrames_ne_zero (h : s.check = .ok ()) : s.stream.spanFrames ≠ 0 := by
  intro hzero
  unfold check at h
  dsimp only at h
  split at h
  · cases h
  · cases h

theorem bytesPerSpan_pos (h : s.check = .ok ()) :
    0 < s.stream.info.bytesPerSpan s.stream.spanFrames := by
  have hframes : s.stream.spanFrames.toNat ≠ 0 :=
    fun hzero => spanFrames_ne_zero h (UInt32.toNat_inj.mp hzero)
  have hchannels : s.stream.info.channels.toNat ≠ 0 :=
    fun hzero => channels_ne_zero h (UInt16.toNat_inj.mp hzero)
  have hsample : 0 < s.stream.info.format.bytesPerSample := by
    cases s.stream.info.format <;> decide
  exact Nat.mul_pos (Nat.mul_pos (Nat.pos_of_ne_zero hframes) (Nat.pos_of_ne_zero hchannels))
    hsample

end Settings

section Made
variable {σ : Type} {device : Device} {info : StreamFormat} {frames : UInt32} {adapter : σ}

theorem Mixer.spanBytes_eq_mixedSize {m : Mixer σ}
    (h : create device info frames adapter = .ok m) :
    m.spanBytes = (info.mixedSize frames).toNat := by
  have hframe : UInt32.ofNat info.bytesPerFrame = info.frameSize := by
    rw [← info.toNat_frameSize, UInt32.ofNat_toNat]
  rw [spanBytes_of_create h, hframe, StreamFormat.mixedSize, UInt32.toNat_toUInt64]

theorem Mixer.exists_create (h : ¬ info.format.blend?.isNone) (device : Device)
    (frames : UInt32) (adapter : σ) : ∃ m, create device info frames adapter = .ok m :=
  ⟨_, if_neg h⟩

theorem Recorder.exists_create (h : 0 < info.bytesPerSpan frames) (device : Device)
    (adapter : σ) : ∃ r, create device info frames adapter = .ok r ∧
      r.span.length = info.bytesPerSpan frames := by
  rw [StreamFormat.bytesPerSpan_eq] at h ⊢
  exact ⟨_, if_neg (Nat.ne_of_gt h), List.length_replicate⟩

end Made

section Checked
variable {s : Settings} {c : StreamConfig}

theorem sizesCounted_of_check (hs : s.check = .ok ()) (hc : c.check = .ok ()) :
    SizesCounted s.stream c where
  mixer device output hblend := by
    obtain ⟨m, hmade⟩ := Mixer.exists_create hblend device s.stream.spanFrames output
    have hsize := Mixer.spanBytes_eq_mixedSize hmade
    exact ⟨m, hmade, hsize, hsize.trans (StreamFormat.toNat_mixedSize ..)⟩
  recorder device input := by
    obtain ⟨r, hmade, hsize⟩ :=
      Recorder.exists_create (Settings.bytesPerSpan_pos hs) device input
    exact ⟨r, hmade, hsize.trans (StreamFormat.toNat_recordedSize ..).symm, hsize⟩
  refused hwide host home id files handles :=
    Session.create_of_overflow hc (StreamConfig.spanBytes?_eq_none_iff.mpr hwide)
  session hfits host home id files handles := by
    cases hn : c.spanBytes? with
    | none => exact absurd hfits (Nat.not_lt.mpr (StreamConfig.spanBytes?_eq_none_iff.mp hn))
    | some n => exact Session.isOk_create_iff hc hn

theorem sizesExact_of_mixers (hs : s.check = .ok ()) (hc : c.check = .ok ())
    (hmixer : ∀ {σ : Type} {device : Device} {output : σ} {m : Mixer σ},
      Mixer.create device s.stream.info s.stream.spanFrames output = .ok m →
        m.spanBytes = s.stream.info.bytesPerSpan s.stream.spanFrames) :
    SizesExact s.stream c := by
  have hrecorder {σ : Type} {device : Device} {input : σ} {r : Recorder σ}
      (h : Recorder.create device s.stream.info s.stream.spanFrames input = .ok r) :
      r.span.length = s.stream.info.bytesPerSpan s.stream.spanFrames := by
    obtain ⟨r', hmade, hsize⟩ :=
      Recorder.exists_create (Settings.bytesPerSpan_pos hs) device input
    cases h.symm.trans hmade
    exact hsize
  constructor
  case mixer => exact hmixer
  case recorder => exact hrecorder
  case agree =>
    intro σ τ speaker mic output input m r hm hr
    rw [hmixer hm, hrecorder hr]
  case session =>
    intro host home id files files' handles handles' made h
    obtain ⟨hring, hsize⟩ := Session.ring_of_create h
    obtain ⟨n, hn, hgeometry⟩ := StreamConfig.ring?_eq_some hring
    rw [hsize, hgeometry]
    exact ⟨StreamConfig.spanBytes?_eq_some_iff.mp hn, StreamConfig.mappedBytes_ring hn⟩
  case ring =>
    intro g hg
    obtain ⟨n, hn, rfl⟩ := StreamConfig.ring?_eq_some hg
    have hcheck := StreamConfig.check_ring hc hn
    refine ⟨UInt64.ofNat (RingGeometry.mappedBytes ⟨c.spanCount, n⟩), ?_,
      RingGeometry.toNat_mappedBytes hcheck⟩
    rw [RingGeometry.measure_eq, hcheck]
    rfl

/-- Whatever is made of settings and a configuration that were checked: all sizes are exact if
32 bits hold a span of the settings, or if the format cannot be mixed, and otherwise not. Beyond
that a mixer takes what is left of a span in 32 bits; recorders and sessions are made with whole
spans, or a session is refused. -/
theorem sizes_exact_iff_mixed_span_fits (hs : s.check = .ok ()) (hc : c.check = .ok ()) :
    (SizesExact s.stream c ↔ s.stream.info.format.blend?.isNone ∨
      s.stream.info.bytesPerSpan s.stream.spanFrames < 2 ^ 32) ∧ SizesCounted s.stream c := by
  have hcounted := sizesCounted_of_check hs hc
  refine ⟨⟨fun hexact => ?_, fun hfits => ?_⟩, hcounted⟩
  · by_cases hblend : s.stream.info.format.blend?.isNone
    · exact .inl hblend
    · obtain ⟨m, hmade, -, hcut⟩ := hcounted.mixer Device.none () hblend
      rw [← hexact.mixer hmade, hcut]
      exact .inr (Nat.mod_lt _ (by decide))
  · refine sizesExact_of_mixers hs hc fun hmade => ?_
    obtain ⟨b, hblend⟩ := Mixer.blend?_of_create hmade
    have hfits := hfits.resolve_left (by simp [hblend])
    rw [Mixer.spanBytes_eq_mixedSize hmade, StreamFormat.toNat_mixedSize, Nat.mod_eq_of_lt hfits]

end Checked

/-- The longest spans of stereo that are mixed in full, and a ring of more than 2 ^ 32 bytes. -/
theorem longest_spans_counted_in_full :
    let s : Settings :=
      { stream := { info := { format := .f32le }, spanFrames := 0x1fffffff } }
    let c : StreamConfig :=
      ⟨.capture .mic, { channels := 65535, format := .s24le }, 1000, 0x8000, 0x4000⟩
    s.check = .ok () ∧ c.check = .ok () ∧ SizesExact s.stream c ∧
      (∃ m, Mixer.create Device.none s.stream.info s.stream.spanFrames () = .ok m ∧
        m.spanBytes = 4294967288) ∧
      (∃ r, Recorder.create Device.none s.stream.info s.stream.spanFrames () = .ok r ∧
        r.span.length = 4294967288) ∧
      c.ringBytes = 6442352736 ∧ (Session.create {} none 1 c ∅ {}).1.isOk := by
  intro s c
  have hs : s.check = .ok () := by decide
  have hc : c.check = .ok () := by decide
  have hspan : s.stream.info.bytesPerSpan s.stream.spanFrames = 4294967288 := by decide +kernel
  have hring : c.ringBytes = 6442352736 := by decide +kernel
  obtain ⟨hiff, hcounted⟩ := sizes_exact_iff_mixed_span_fits hs hc
  have hexact : SizesExact s.stream c := hiff.mpr (.inr (by rw [hspan]; decide))
  obtain ⟨m, hm, -⟩ := hcounted.mixer Device.none () (by decide)
  obtain ⟨r, hr, -⟩ := hcounted.recorder Device.none ()
  refine ⟨hs, hc, hexact, ⟨m, hm, (hexact.mixer hm).trans hspan⟩,
    ⟨r, hr, (hexact.recorder hr).trans hspan⟩, hring, ?_⟩
  exact (hcounted.session (by decide) {} none 1 ∅ {}).mpr ⟨by rw [hring]; decide, by simp⟩

/-- A span of 2 ^ 30 frames of four bytes is nothing to the mixer of a speaker: it leaves the frame
of a session that runs in its ring. A recorder of the same settings takes 2 ^ 32 bytes. -/
theorem mixer_counts_long_span_as_empty :
    let text := "[general]\nchannels=1\nformat='f32_le'\nspan_size_frames=1073741824\n" ++
      "[[device]]\ndevice_type='speaker'\nrole='output'\n"
    let speaker : Device := { type := .speaker, role := .output, connectedAt := 1 }
    ∃ s, Settings.ofText (fun _ => none) text = .ok s ∧ s.check = .ok () ∧
      let c := StreamConfig.singles s.stream.info
      c.check = .ok () ∧ ¬ SizesExact s.stream c ∧
      (Endpoints.ofSettings {} {} s).mixers.map (·.spanBytes) = [0] ∧
      (∃ r, Recorder.create Device.none s.stream.info s.stream.spanFrames () = .ok r ∧
        r.span.length = 2 ^ 32) ∧
      let w := MixWatch.run ⟨(Endpoints.ofSettings {} {} s).mixers, {}⟩
        (playTo s.stream.info speaker ++
          [.sessions (.call 1 (.write [0, 0, 0, 0x3f] 0)), .cycle 0])
      (w.registry.any? 1).map (fun s => (s.isRunning, s.position.framesWritten,
        s.position.framesRead)) = some (true, 1, 0) := by
  intro text speaker
  let s : Settings := {
    stream := { info := { channels := 1, format := .f32le }, spanFrames := 0x40000000 }
    devices := [{ type := .speaker, role := .output }] }
  have hs : Settings.ofText (fun _ => none) text = .ok s := by decide +kernel
  have hspan : s.stream.info.bytesPerSpan s.stream.spanFrames = 2 ^ 32 := by decide +kernel
  have hcut : (s.stream.info.mixedSize s.stream.spanFrames).toNat = 0 := by decide +kernel
  have hblend : ¬ s.stream.info.format.blend?.isNone := by decide
  have hpositive : 0 < s.stream.info.bytesPerSpan s.stream.spanFrames := by rw [hspan]; decide
  obtain ⟨m, hm⟩ := Mixer.exists_create hblend Device.none s.stream.spanFrames ()
  obtain ⟨r, hr, hsize⟩ := Recorder.exists_create hpositive Device.none ()
  refine ⟨s, hs, Settings.check_of_ofText hs, by decide, fun hexact => ?_, by decide +kernel,
    ⟨r, hr, hsize.trans hspan⟩, by decide +kernel⟩
  have hwhole := hexact.mixer hm
  rw [Mixer.spanBytes_eq_mixedSize hm, hcut, hspan] at hwhole
  exact absurd hwhole (by decide)

end Patchbay
