import Patchbay.Adapter.Source
import Patchbay.Report.Basic

/-!
# Reports of adapters

What each kind of adapter shows of itself while it is used.
-/
namespace Patchbay.Adapter

/-- What a sink has done with the bytes it was given; `file` is the file to show the contents of. -/
def Sink.report (s : Sink) (w : World) (file : String) : Report :=
  match s with
  | .null n => .of "rendered" n.rendered
  | .loopback l => .of "queued dropped" ((l.pipe.map w.queued).getD 0, l.dropped)
  | .file f => .of "frames file" (f.frames, (w.files.read file).toOption)

/-- What a source has left to give. -/
def Source.report : Source → Report
  | .file f => .of "remaining" f.remaining
  | _ => .nothing

end Patchbay.Adapter
