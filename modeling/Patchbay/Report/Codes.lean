import Patchbay.Report.Basic
import Patchbay.Stream.Config
import Patchbay.Wire.Request

/-!
# Reports of codes

What a number stands for where it is used as the code of a device type, a stream usage or one of
the other kinds of values that have codes.
-/
namespace Patchbay.Report

/-- A value with its name and code. -/
def coded {α : Type} [Named α] (code : α → Int32) (a : Option α) : Report :=
  report (a.map fun a => Report.of "name code" (a, code a))

/-- What a code stands for, by the kind of the value; nothing if no value has the code. -/
def ofCode (kind : String) (number : Int) : Report :=
  let c := Int32.ofInt number
  match kind with
  | "device_type" => report ((DeviceType.ofCode? c).map fun t =>
      Report.of "name code role" (t, t.code, t.defaultRole))
  | "device_role" => coded DeviceRole.code (DeviceRole.ofCode? c)
  | "privacy" => coded Privacy.code (Privacy.ofCode? c)
  | "stream_usage" => report ((StreamUsage.ofCode? c).map fun u =>
      Report.of "name code category ringtone stream_type role"
        (u, u.code, u.category, u.isRingtone, u.volumeClass, u.category.role))
  | "source_type" => report ((SourceType.ofCode? c).map fun s =>
      Report.of "name code category role" (s, s.code, s.category, s.category.role))
  | "stream_type" => report ((VolumeClass.ofCode? c).map fun v =>
      Report.of "name code label" (v, v.code, v.label))
  | "ringer_mode" => coded RingerMode.code (RingerMode.ofCode? c)
  | "param_key" => report ((RemoteKey.ofCode? c).map fun k =>
      Report.of "name code label" (k, k.code, k.label))
  | "sample_format" => report ((SampleFormat.ofCode? c).map fun f =>
      Report.of "name code bytes" (f, f.code, f.bytesPerSample))
  | "request" =>
    coded (fun k => k.code.toInt32) (Wire.RequestKind.ofCode? (.ofNat number.toNat))
  | "status" =>
    let s := Status.ofCode c
    .of "name code success" (s, s.code, s == .success)
  | _ => nothing

end Patchbay.Report
