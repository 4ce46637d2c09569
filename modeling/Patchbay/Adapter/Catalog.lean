import Patchbay.Adapter.Source

/-!
# The adapter catalog

The kinds of adapters by name. A new adapter is a copy of the one that was entered.
-/
namespace Patchbay.Adapter

structure Catalog where
  sinks : Table String Sink :=
    .ofList [("null", .null {}), ("loopback", .loopback {}), ("file", .file {})]
  sources : Table String Source := .ofList [("null", .null false), ("file", .file {})]

namespace Catalog

/-- Enters a kind of sink, in place of any of the same name. -/
def registerSink (c : Catalog) (name : String) (fresh : Sink) : Catalog :=
  { c with sinks := c.sinks.put name fresh }

def registerSource (c : Catalog) (name : String) (fresh : Source) : Catalog :=
  { c with sources := c.sources.put name fresh }

def createSink (c : Catalog) (name : String) : Except DeviceError Sink :=
  match c.sinks.get? name with
  | some s => .ok s
  | none => .error (.adapterNotFound name)

def createSource (c : Catalog) (name : String) : Except DeviceError Source :=
  match c.sources.get? name with
  | some s => .ok s
  | none => .error (.adapterNotFound name)

/-- Makes a sink and initialises it. -/
def openSink (c : Catalog) (w : World) (name : String) (a : Attributes) :
    Except DeviceError Sink × World :=
  match c.createSink name with
  | .error e => (.error e, w)
  | .ok s =>
    let (r, s, w) := s.init w a
    (r.map fun _ => s, w)

/-- Makes a source and initialises it. -/
def openSource (c : Catalog) (w : World) (name : String) (a : Attributes) :
    Except DeviceError Source := do
  let s ← c.createSource name
  let (r, s) := s.init w a
  r.map fun _ => s

/-- The names of all sinks. -/
def sinkNames (c : Catalog) : List String := c.sinks.sorted.keys

def sourceNames (c : Catalog) : List String := c.sources.sorted.keys

end Catalog
end Patchbay.Adapter
