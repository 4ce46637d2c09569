import Patchbay.Daemon

/-!
# What waits for a restart

A daemon takes its stream format, its socket, its chains, its privacy table and its first devices
from the settings with which it starts; beyond them it reads levels, parameters and the log level,
which it also takes over later. The notes on changed settings name all of the former but the
devices, so they are silent on a change of nothing else.
-/
namespace Patchbay

/-- The settings agree in what is read at the start only, but for the devices. -/
structure Settings.SameBesideDevices (a b : Settings) : Prop where
  sampleRate : a.stream.info.sampleRate = b.stream.info.sampleRate
  channels : a.stream.info.channels = b.stream.info.channels
  format : a.stream.info.format = b.stream.info.format
  spanFrames : a.stream.spanFrames = b.stream.spanFrames
  spanCount : a.stream.spanCount = b.stream.spanCount
  socketPath : a.access.socketPath = b.access.socketPath
  token : a.access.token = b.access.token
  bufferDir : a.access.bufferDir = b.access.bufferDir
  routing : a.routing = b.routing
  privacy : a.privacy = b.privacy

/-- The settings agree in what is read at the start only. -/
structure Settings.SameAtStart (a b : Settings) : Prop extends a.SameBesideDevices b where
  devices : a.devices = b.devices

/-- A station with the levels and parameters of these settings. -/
def Station.withLevels (st : Station) (s : Settings) : Station :=
  { st with desk := .ofSettings s.volume, parameters := { values := s.parameters } }

/-- A daemon that has these settings, as far as they are taken over. -/
def Daemon.withLevels (d : Daemon) (s : Settings) : Daemon :=
  let server := d.exchange.server
  { d with
    settings := s
    exchange := { d.exchange with
      server := { server with station := server.station.withLevels s } } }

variable {old new : Settings}

theorem SettingsDiff.deferred_eq_nil_iff (old new : Settings) :
    (between old new).deferred = [] ↔ old.SameBesideDevices new := by
  have hnote : ∀ (changed : Bool) (what : String),
      (if changed then [what ++ ", requires restart"] else []) = [] ↔ changed = false := by
    intro changed what
    cases changed <;> simp
  unfold between deferredChanges
  simp only [List.append_eq_nil_iff, hnote, Bool.or_eq_false_iff, decide_eq_false_iff_not,
    ne_eq, Decidable.not_not]
  constructor
  · rintro ⟨⟨⟨⟨⟨⟨⟨rate, channels, format⟩, frames, count⟩, socket⟩, dir⟩, token⟩, routing⟩, privacy⟩
    exact ⟨rate, channels, format, frames, count, socket, token, dir, routing, privacy⟩
  · intro h
    exact ⟨⟨⟨⟨⟨⟨⟨h.sampleRate, h.channels, h.format⟩, h.spanFrames, h.spanCount⟩, h.socketPath⟩,
      h.bufferDir⟩, h.token⟩, h.routing⟩, h.privacy⟩

theorem Settings.SameAtStart.eq (h : old.SameAtStart new) : new = { old with
    stream := { old.stream with logLevel := new.stream.logLevel }
    volume := new.volume
    parameters := new.parameters } := by
  obtain ⟨⟨hrate, hchannels, hformat, hframes, hcount, hsocket, htoken, hdir, hrouting, hprivacy⟩,
    hdevices⟩ := h
  have hinfo : old.stream.info = new.stream.info :=
    StreamFormat.mk.injEq .. ▸ ⟨hrate, hchannels, hformat⟩
  have haccess : old.access = new.access :=
    AccessSettings.mk.injEq .. ▸ ⟨hsocket, htoken, hdir⟩
  dsimp only
  rw [haccess, hrouting, hprivacy, hdevices, hinfo, hframes, hcount]

namespace Station

theorem foldl_connect_withLevels (now : UInt64) (s : Settings) (seeds : List DeviceSeed)
    (st : Station) :
    seeds.foldl (fun st seed => (st.connect now seed.device).2) (st.withLevels s) =
      (seeds.foldl (fun st seed => (st.connect now seed.device).2) st).withLevels s := by
  induction seeds generalizing st with
  | nil => rfl
  | cons seed seeds ih => exact ih (st.connect now seed.device).2

theorem foldl_note_withLevels (s : Settings) (events : List SessionEvent) (st : Station) :
    events.foldl note (st.withLevels s) = (events.foldl note st).withLevels s := by
  induction events generalizing st with
  | nil => rfl
  | cons e events ih => exact ih (st.note e)

theorem settle_withLevels (st : Station) (s : Settings) :
    (st.withLevels s).settle = st.settle.withLevels s :=
  foldl_note_withLevels s st.handleChanges.registry.events
    { st.handleChanges with
      registry := { st.handleChanges.registry with events := [] } }

theorem ofSettings_withLevels (known : List RouteRule) (now : UInt64)
    (home : Option Session.RingHome) (h : old.SameAtStart new) :
    ofSettings known now home new =
      (ofSettings known now home old).map (·.withLevels new) := by
  unfold ofSettings
  rw [← h.routing]
  cases RouteChains.ofNames known old.routing with
  | error e => rfl
  | ok chains =>
      refine congrArg Except.ok ?_
      rw [← h.devices, ← h.privacy]
      exact foldl_connect_withLevels now new old.devices
        { roster := { table := old.privacy }
          registry := { home := home }
          board := { chains := chains }
          desk := .ofSettings old.volume
          parameters := { values := old.parameters } }

end Station

/-- Endpoints hang on the format, the length of a span and the devices. -/
theorem Endpoints.ofSettings_congr (catalog : Adapter.Catalog) (w : Adapter.World)
    (h : old.SameAtStart new) : ofSettings catalog w new = ofSettings catalog w old := by
  rw [h.eq]
  rfl

/-- A daemon that is started anew differs from the old one in what can be taken over. -/
theorem Daemon.start_of_sameAtStart (h : old.SameAtStart new) (known : List RouteRule)
    (now : UInt64) (process : String) (files : FileTree) :
    start known now process files new =
      ((start known now process files old).1.map (·.withLevels new),
        (start known now process files old).2) := by
  unfold start
  rw [Station.ofSettings_withLevels known now _ h, ← h.bufferDir, ← h.socketPath, ← h.token]
  cases Station.ofSettings known now (some ⟨old.access.bufferDir, process⟩) old with
  | error e => rfl
  | ok station =>
      dsimp only [Except.map]
      cases files.makeDirectory old.access.bufferDir with
      | mk made files =>
          cases made with
          | error e => rfl
          | ok =>
              dsimp only
              cases bind files old.access.socketPath with
              | mk bound files =>
                  cases bound with
                  | error e => rfl
                  | ok =>
                      dsimp only
                      rw [Endpoints.ofSettings_congr _ _ h, Station.settle_withLevels]
                      rfl

/-- The notes are silent exactly if all but the devices agree. So silence means that all agrees
unless the devices alone differ; and then a start takes the same from both settings, beyond what
is taken over without one. -/
theorem restarts_told_but_for_devices (old new : Settings) :
    ((SettingsDiff.between old new).deferred = [] ↔ old.SameBesideDevices new) ∧
      (((SettingsDiff.between old new).deferred = [] ↔ old.SameAtStart new) ↔
        old.devices = new.devices ∨ ¬ old.SameBesideDevices new) ∧
      (old.SameAtStart new → ∀ known now process files,
        Daemon.start known now process files new =
          ((Daemon.start known now process files old).1.map (·.withLevels new),
            (Daemon.start known now process files old).2)) := by
  have hnotes := SettingsDiff.deferred_eq_nil_iff old new
  refine ⟨hnotes, ?_, fun h known now process files => Daemon.start_of_sameAtStart h ..⟩
  rw [hnotes]
  constructor
  · intro hiff
    by_cases hbeside : old.SameBesideDevices new
    · exact .inl (hiff.mp hbeside).devices
    · exact .inr hbeside
  · rintro (hdevices | hbeside)
    · exact ⟨fun h => ⟨h, hdevices⟩, (·.toSameBesideDevices)⟩
    · exact ⟨fun h => absurd h hbeside, fun h => absurd h.toSameBesideDevices hbeside⟩

/-- Louder music with a headset that is kept: nothing waits, and a start would differ in no more
than the volume. -/
theorem louder_music_needs_no_restart :
    let headset : DeviceSeed := { type := .wiredHeadset, role := .output }
    let old : Settings := { devices := [headset] }
    let new : Settings := { devices := [headset], volume := { levels := .ofList [("music", 9)] } }
    (SettingsDiff.between old new).deferred = [] ∧
      (SettingsDiff.between old new).volume = [(.music, 9)] ∧
      ∀ known now process files, Daemon.start known now process files new =
        ((Daemon.start known now process files old).1.map (·.withLevels new),
          (Daemon.start known now process files old).2) := by
  refine ⟨by decide, by decide, (restarts_told_but_for_devices _ _).2.2 ?_⟩
  exact ⟨⟨rfl, rfl, rfl, rfl, rfl, rfl, rfl, rfl, rfl, rfl⟩, rfl⟩

/-- A speaker that is added to valid settings is not told at all, although a station that starts
with them has it. -/
theorem added_speaker_untold :
    let speaker : DeviceSeed := { type := .speaker, role := .output }
    let old : Settings := {}
    let new : Settings := { devices := [speaker] }
    let started (s : Settings) := ((Station.ofSettings RouteRule.builtIn 0 none s).toOption.map
      fun st => st.roster.connected.map (·.type))
    old.check = .ok () ∧ new.check = .ok () ∧
      (SettingsDiff.between old new).deferred = [] ∧ (SettingsDiff.between old new).isEmpty ∧
      ¬ old.SameAtStart new ∧
      started old = some [] ∧ started new = some [.speaker] := by
  refine ⟨rfl, rfl, by decide, by decide, fun h => ?_, by decide, by decide⟩
  exact absurd h.devices (by decide)

end Patchbay
