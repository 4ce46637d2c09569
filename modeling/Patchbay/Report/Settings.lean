import Patchbay.Report.Streams
import Patchbay.Settings.Diff

/-!
# Reports of settings
-/
namespace Patchbay

instance : Reported StreamSettings where
  report s := .of "log_level sample_rate channels format span_size_frames span_count"
    (s.logLevel, s.info.sampleRate, s.info.channels, s.info.format, s.spanFrames, s.spanCount)

instance : Reported AccessSettings where
  report a := .of "socket_path interface_token buffer_dir" (a.socketPath, a.token, a.bufferDir)

instance : Reported ChainNames where
  report r :=
    .of "media_render call_render ring_render tone_render record_capture call_capture"
      (r.mediaRender, r.callRender, r.ringRender, r.toneRender, r.recordCapture, r.callCapture)

instance : Reported DeviceSeed := ⟨fun s => (report s.device).set "adapter" (.text s.adapter)⟩

instance : Reported VolumeSettings where
  report v := .of "min max default levels level_for" (v.minLevel, v.maxLevel, v.defaultLevel,
    v.levels.report, VolumeClass.all.map fun c => (v.levelFor c).toNat)

instance : Reported Settings where
  report s := .of "general ipc routing privacy device volume parameters" (s.stream, s.access,
    s.routing, s.privacy, s.devices, s.volume, s.parameters.report)

instance : Reported SettingsDiff where
  report d := .of "log_level empty volume parameters non_reloadable"
    (d.logLevel, d.isEmpty, d.volume, d.parameters, d.deferred)

end Patchbay
