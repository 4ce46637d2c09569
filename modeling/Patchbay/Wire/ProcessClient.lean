import Patchbay.Ring.Workspace
import Patchbay.Wire.Client

/-!
# Clients of one stream

The client's side of one session: a session is made, its ring is found and mapped, and from then
on audio goes through the ring and only control through the connection. How a call is carried out
and how a path is mapped is left open: `σ` is whatever the calls act on, and `μ` a mapping.
-/
namespace Patchbay.Wire

/-- What a client of a stream needs from its surroundings. -/
structure Surroundings (σ μ : Type) where
  call : Request → σ → Except WireError Response × σ
  /-- Maps the ring file at a path. -/
  map : String → σ → Except StreamError μ
  geometry : μ → RingGeometry

/-- A client of one stream. -/
structure ProcessClient (μ : Type) where
  session : UInt64
  /-- The device by the last notification read. -/
  device : Device
  handle : BufferHandle
  ring : μ

namespace ProcessClient
variable {σ μ : Type}

/-- Maps the ring of a handle; the file must fit the handle. -/
def mapRing (w : Surroundings σ μ) (s : σ) (h : BufferHandle) (path : String) :
    Except StreamError μ :=
  if path = "" then .error (.map "daemon ring has no backing file")
  else
    match w.map path s with
    | .error e => .error e
    | .ok m =>
      let g := w.geometry m
      if g.spanCount = h.spanCount && g.spanSize = h.spanSize then .ok m
      else .error (.map s!"{path} does not match handle {h.id}")

/-- Finds and maps the ring of a session. One whose ring cannot be mapped is given back. -/
def attach (w : Surroundings σ μ) (session : UInt64) (device : Device) (s : σ) :
    Except WireError (ProcessClient μ) × σ :=
  match w.call (.resolveBuffer session) s with
  | (.ok (.handle h path), s) =>
    match mapRing w s h path with
    | .ok m => (.ok ⟨session, device, h, m⟩, s)
    | .error e => (.error (.buffer e), (w.call (.release session) s).2)
  | (.ok _, s) => (.error (.malformed "unexpected response"), s)
  | (.error e, s) => (.error e, s)

/-- Makes a session and maps its ring. -/
def create (w : Surroundings σ μ) (config : StreamConfig) (s : σ) :
    Except WireError (ProcessClient μ) × σ :=
  match w.call (.createSession config) s with
  | (.ok (.session id device), s) => attach w id device s
  | (.ok _, s) => (.error (.malformed "unexpected response"), s)
  | (.error e, s) => (.error e, s)

/-- Takes notice: a change of the device of this session is followed. -/
def observe (c : ProcessClient μ) : Notification → ProcessClient μ
  | .deviceChanged id _ current => if id = c.session then { c with device := current } else c
  | _ => c

end ProcessClient
end Patchbay.Wire
