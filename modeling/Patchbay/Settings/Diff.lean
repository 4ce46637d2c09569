import Patchbay.Settings.Basic

/-!
# Changed settings

What a running program takes over from changed settings: the log level, volume levels and
parameters. All other changes are named, and wait for a restart.
-/
namespace Patchbay

structure SettingsDiff where
  /-- The new log level, if it is another one. -/
  logLevel : Option String
  volume : List (VolumeClass × UInt8)
  /-- New and changed parameters; those left out stay as they are. -/
  parameters : List (String × String)
  /-- Changes that need a restart. -/
  deferred : List String
deriving DecidableEq, Repr

namespace SettingsDiff

/-- The changes that need a restart. -/
def deferredChanges (old new : Settings) : List String :=
  let change (changed : Bool) (what : String) : List String :=
    if changed then [what ++ ", requires restart"] else []
  let (a, b) := (old.stream, new.stream)
  change (a.info.sampleRate ≠ b.info.sampleRate)
      s!"sample_rate changed ({a.info.sampleRate} → {b.info.sampleRate})" ++
    change (a.info.channels ≠ b.info.channels || a.info.format ≠ b.info.format)
      "stream format changed" ++
    change (a.spanFrames ≠ b.spanFrames || a.spanCount ≠ b.spanCount)
      "buffer geometry changed" ++
    change (old.access.socketPath ≠ new.access.socketPath)
      s!"socket_path changed ('{old.access.socketPath}' → '{new.access.socketPath}')" ++
    change (old.access.bufferDir ≠ new.access.bufferDir) "buffer_dir changed" ++
    change (old.access.token ≠ new.access.token) "interface_token changed" ++
    change (old.routing ≠ new.routing) "routing chains changed" ++
    change (old.privacy ≠ new.privacy) "privacy table changed"

def between (old new : Settings) : SettingsDiff where
  logLevel := if old.stream.logLevel = new.stream.logLevel then none else some new.stream.logLevel
  volume := VolumeClass.all.filterMap fun c =>
    let level := new.volume.levelFor c
    if old.volume.levelFor c = level then none else some (c, level)
  parameters := (new.parameters.filter fun (k, v) => old.parameters.get? k ≠ some v).toList
  deferred := deferredChanges old new

def isEmpty (d : SettingsDiff) : Bool :=
  d.logLevel.isNone && d.volume.isEmpty && d.parameters.isEmpty && d.deferred.isEmpty

end SettingsDiff
end Patchbay
