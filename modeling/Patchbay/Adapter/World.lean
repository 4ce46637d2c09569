import Patchbay.Fault
import Patchbay.FileTree

/-!
# What adapters reach

Adapters read and append to files, and pass bytes to each other through pipes. A pipe has a
fixed capacity; what does not fit into it is lost.
-/
namespace Patchbay.Adapter

/-- Bytes on their way from a sink to its monitor. -/
structure Pipe where
  capacity : Nat
  bytes : List UInt8 := []
deriving DecidableEq, Repr

namespace Pipe

/-- Takes in what fits. -/
def push (p : Pipe) (data : List UInt8) : Pipe :=
  { p with bytes := p.bytes ++ data.take (p.capacity - p.bytes.length) }

/-- How many bytes of `data` would be lost. -/
def overflow (p : Pipe) (data : List UInt8) : Nat :=
  data.length - (p.capacity - p.bytes.length)

/-- At most `n` bytes, in the order in which they went in. -/
def pop (p : Pipe) (n : Nat) : List UInt8 × Pipe :=
  (p.bytes.take n, { p with bytes := p.bytes.drop n })

end Pipe

/-- Files, and the pipes made so far. -/
structure World where
  files : FileTree := .base
  pipes : List Pipe := []
deriving DecidableEq, Repr

/-- What a device says when its file cannot be used. -/
def ofFile {α : Type} (r : Except PathError α) : Except DeviceError α :=
  r.mapError fun e => .failedTransfer e.message

namespace World

/-- Opens a file to append to it; one that is missing is made. -/
def openFile (w : World) (path : String) : Except DeviceError Place × World :=
  let (r, files) := w.files.openFile path
  (ofFile r, { w with files := files })

/-- Writes to the end of an open file. -/
def append (w : World) (p : Place) (data : List UInt8) : Except DeviceError Unit × World :=
  let (r, files) := w.files.append p data
  (ofFile r, { w with files := files })

/-- The contents of a file. -/
def read (w : World) (path : String) : Except DeviceError (List UInt8) :=
  ofFile (w.files.read path)

/-- A new pipe, by its number. -/
def addPipe (w : World) (capacity : Nat) : Nat × World :=
  (w.pipes.length, { w with pipes := w.pipes ++ [{ capacity := capacity }] })

/-- Puts bytes into a pipe and answers how many of them were lost. -/
def push (w : World) (i : Nat) (data : List UInt8) : Nat × World :=
  (((w.pipes[i]?).map (·.overflow data)).getD data.length,
    { w with pipes := w.pipes.modify i (·.push data) })

/-- Takes at most `n` bytes out of a pipe. -/
def pop (w : World) (i n : Nat) : List UInt8 × World :=
  (((w.pipes[i]?).map fun p => (p.pop n).1).getD [],
    { w with pipes := w.pipes.modify i fun p => (p.pop n).2 })

/-- How many bytes wait in a pipe. -/
def queued (w : World) (i : Nat) : Nat :=
  ((w.pipes[i]?).map (·.bytes.length)).getD 0

end World
end Patchbay.Adapter
