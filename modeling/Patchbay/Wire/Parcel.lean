import Patchbay.Device.Descriptor
import Patchbay.Fault
import Patchbay.Number.LittleEndian
import Patchbay.Number.Single
import Patchbay.Text.Utf8

/-!
# The fields of a message

A message is a row of fields without separators. Words are little endian, a flag is one byte,
and a text is its length in bytes followed by the bytes. Each kind of field has a writer and a
reader; a reader takes its field from the front of the message and leaves the rest.
-/
namespace Patchbay.Wire

/-- A reader of values of type `α`. One that fails keeps what it has taken by then. -/
abbrev Reader (α : Type) := ExceptT WireError (StateM (List UInt8)) α

/-- The longest text a reader accepts, in bytes. -/
def maxText : Nat := 65536

def write32 (w : UInt32) : List UInt8 := LittleEndian.bytes 4 w.toNat

def write64 (w : UInt64) : List UInt8 := LittleEndian.bytes 8 w.toNat

def writeCode (c : Int32) : List UInt8 := write32 c.toUInt32

def writeSingle (x : Single) : List UInt8 := write32 x.bits

def writeFlag (b : Bool) : List UInt8 := [if b then 1 else 0]

def writeText (s : String) : List UInt8 :=
  let bs := Utf8.encode s
  write32 (UInt32.ofNat bs.length) ++ bs

/-- Type and role come first, for readers that need no more. -/
def writeDevice (d : Device) : List UInt8 :=
  writeCode d.type.code ++ writeCode d.role.code ++ write64 d.connectedAt ++
    writeCode d.privacy.code ++ writeText d.network ++ writeText d.mac ++ writeText d.name

/-- The next `n` bytes, which are to be a `what`. -/
def take (n : Nat) (what : String) : Reader (List UInt8) := fun bs =>
  let taken := bs.take n
  if taken.length = n then (.ok taken, bs.drop n)
  else (.error (.malformed s!"truncated {what}: need {n} bytes, have {bs.length}"), bs)

def read32 : Reader UInt32 := do
  let bs ← take 4 "u32"
  pure (UInt32.ofNat (LittleEndian.value bs))

def read64 : Reader UInt64 := do
  let bs ← take 8 "u64"
  pure (UInt64.ofNat (LittleEndian.value bs))

def readCode : Reader Int32 := do
  let bs ← take 4 "i32"
  pure (UInt32.ofNat (LittleEndian.value bs)).toInt32

def readSingle : Reader Single := do
  let bs ← take 4 "f32"
  pure ⟨UInt32.ofNat (LittleEndian.value bs)⟩

/-- Any byte but zero reads as true. -/
def readFlag : Reader Bool := do
  let bs ← take 1 "bool"
  pure (bs != [0])

def readText : Reader String := do
  let n ← read32
  if n.toNat > maxText then throw (.malformed s!"string of {n} bytes")
  let bs ← take n.toNat "string"
  match Utf8.decode bs with
  | .ok s => pure s
  | .error f => throw (.malformed s!"invalid utf-8: {f.message}")

/-- A code that stands for something; `what` names it if it does not. -/
def readKnown {α : Type} (what : String) (ofCode? : Int32 → Option α) : Reader α := do
  let c ← readCode
  match ofCode? c with
  | some a => pure a
  | none => throw (.malformed s!"{what} {c}")

def readDevice : Reader Device := do
  let type ← readKnown "device type" DeviceType.ofCode?
  let role ← readKnown "device role" DeviceRole.ofCode?
  let connectedAt ← read64
  let privacy ← readKnown "privacy class" Privacy.ofCode?
  let network ← readText
  let mac ← readText
  let name ← readText
  pure ⟨type, role, connectedAt, privacy, network, mac, name⟩

/-- The number of bytes not yet read. -/
def remaining : Reader Nat := fun bs => (.ok bs.length, bs)

/-- The end of a message. -/
def finish : Reader Unit := fun bs =>
  if bs.isEmpty then (.ok (), bs)
  else (.error (.malformed s!"{bs.length} trailing bytes"), bs)

/-- Reads a whole message. -/
def decode {α : Type} (reader : Reader α) (bs : List UInt8) : Except WireError α :=
  (((do let a ← reader; finish; pure a) : Reader α) bs).1

end Patchbay.Wire
