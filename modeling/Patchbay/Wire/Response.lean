import Patchbay.Session.Basic
import Patchbay.Wire.Request

/-!
# Responses

What the server answers. A response message is a status and, if the request succeeded, fields
whose layout follows from the kind of the request. A failure is its status alone.
-/
namespace Patchbay.Wire

/-- A buffer handle in words. -/
structure BufferHandle where
  id : UInt64
  spanCount : UInt32
  spanSize : UInt32
deriving DecidableEq, Repr

/-- What a client may learn of its ring and its progress, in words. -/
structure BufferInfo where
  handle : BufferHandle
  readCursor : UInt64
  writeCursor : UInt64
  framesWritten : UInt64
  framesRead : UInt64
  underruns : UInt64
  overruns : UInt64
  lastTimestamp : UInt64
deriving DecidableEq, Repr

def BufferHandle.ofHandle (h : Handle) : BufferHandle :=
  ⟨UInt64.ofNat h.id, h.spanCount, h.spanSize⟩

def BufferInfo.ofInfo (i : HandleInfo) : BufferInfo where
  handle := .ofHandle i.handle
  readCursor := i.readCursor
  writeCursor := i.writeCursor
  framesWritten := UInt64.ofNat i.position.framesWritten
  framesRead := UInt64.ofNat i.position.framesRead
  underruns := UInt64.ofNat i.position.underruns
  overruns := UInt64.ofNat i.position.overruns
  lastTimestamp := i.lastTimestamp

inductive Response where
  | empty
  | session (id : UInt64) (device : Device)
  /-- The path is that of the ring's file; it is empty if there is none. -/
  | handle (handle : BufferHandle) (path : String)
  | handleInfo (info : BufferInfo)
  | devices (ds : List Device)
  | volume (v : Single)
  | flag (b : Bool)
  | ringerMode (m : RingerMode)
  | parameter (value : String)
deriving DecidableEq, Repr

def writeHandle (h : BufferHandle) : List UInt8 :=
  write64 h.id ++ write32 h.spanCount ++ write32 h.spanSize

def readHandle : Reader BufferHandle := do
  pure ⟨← read64, ← read32, ← read32⟩

/-- A row of `n` devices. -/
def readDevices : Nat → Reader (List Device)
  | 0 => pure []
  | n + 1 => do
    let d ← readDevice
    let ds ← readDevices n
    pure (d :: ds)

/-- The least number of bytes of a device. -/
def minDevice : Nat := 32

namespace Response

/-- The fields of a response. -/
def payload : Response → List UInt8
  | empty => []
  | session id d => write64 id ++ writeDevice d
  | handle h path => writeHandle h ++ writeText path
  | handleInfo i =>
    writeHandle i.handle ++ write64 i.readCursor ++ write64 i.writeCursor ++
      write64 i.framesWritten ++ write64 i.framesRead ++ write64 i.underruns ++
      write64 i.overruns ++ write64 i.lastTimestamp
  | devices ds => write32 (UInt32.ofNat ds.length) ++ ds.flatMap writeDevice
  | volume v => writeSingle v
  | flag b => writeFlag b
  | ringerMode m => writeCode m.code
  | parameter value => writeText value

/-- The message of a success. -/
def encode (r : Response) : List UInt8 :=
  writeCode Status.success.code ++ r.payload

/-- The message of a failure. -/
def encodeStatus (s : Status) : List UInt8 :=
  writeCode s.code

/-- Reads the fields of the response to a request of this kind. -/
def readPayload : RequestKind → Reader Response
  | .createSession => do pure (session (← read64) (← readDevice))
  | .resolveBuffer => do pure (handle (← readHandle) (← readText))
  | .handleInfo => do
    let h ← readHandle
    pure (handleInfo ⟨h, ← read64, ← read64, ← read64, ← read64, ← read64, ← read64, ← read64⟩)
  | .devices => do
    let n ← read32
    if n.toNat > (← remaining) / minDevice then throw (.malformed s!"device count {n}")
    pure (devices (← readDevices n.toNat))
  | .volume => do pure (volume (← readSingle))
  | .isMuted | .isActive | .isDeviceActive => do pure (flag (← readFlag))
  | .ringer => do pure (ringerMode (← readKnown "unknown ringer mode" RingerMode.ofCode?))
  | .parameter | .remoteParameter => do pure (parameter (← readText))
  | _ => pure empty

/-- Reads a response; a failure is an error. -/
def readFor (kind : RequestKind) : Reader Response := do
  let status := Status.ofCode (← readCode)
  if status ≠ .success then throw (.status status)
  readPayload kind

end Response
end Patchbay.Wire
