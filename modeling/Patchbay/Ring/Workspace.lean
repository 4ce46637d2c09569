import Patchbay.Ring.Mapping
import Patchbay.Table

/-!
# Rings and their files

A directory maps names to memories. A name can be given to a new memory after the old one was
removed, while mappings of the old one live on. Making a ring makes its file, and the mapping
that made it removes the name again when it is released or dropped. What the operating system
says of a failure is written `<os>`.
-/
namespace Patchbay

/-- What the operating system can do: give a file a length, and map that many bytes. -/
structure Host where
  canSize : Nat → Bool := fun n => n < 1 <<< 63
  canMap : Nat → Bool := fun n => n < 1 <<< 47

/-- File names and the numbers of the memories behind them. -/
abbrev Directory := Table String Nat

namespace Directory

def remove (d : Directory) : Option String → Directory
  | some path => d.erase path
  | none => d

end Directory

/-- The message of a failure of the operating system at `path`. -/
def hostFailure (path : String) : StreamError :=
  .map (path ++ ": <os>")

/-- Memory that only this program can reach. -/
def RingGeometry.createAnonymous (g : RingGeometry) (host : Host) : Except StreamError Ring :=
  match g.check with
  | .error e => .error e
  | .ok () =>
    if host.canMap g.mappedBytes then .ok ⟨{ geometry := g }, g.fresh⟩
    else .error (.map "<os>")

/-- Makes the file `path` and a ring in it, as memory number `number`. The name must be free. If
the file cannot be sized or mapped it stays behind. -/
def RingGeometry.createFile (g : RingGeometry) (host : Host) (d : Directory) (path : String)
    (number : Nat) : Except StreamError Ring × Directory :=
  match g.check with
  | .error e => (.error e, d)
  | .ok () =>
    if d.has path then (.error (hostFailure path), d)
    else if host.canSize g.mappedBytes && host.canMap g.mappedBytes then
      (.ok ⟨{ geometry := g, path := some path }, g.fresh⟩, d.put path number)
    else (.error (hostFailure path), d.put path number)

/-- A directory, the memories that were ever made and the mappings of them. A mapping is gone
once it was dropped; memories stay. -/
structure RingWorkspace where
  host : Host := {}
  files : Directory := ∅
  memories : Array Memory := #[]
  mappings : Array (Option (RingMapping × Nat)) := #[]

namespace RingWorkspace
variable {α : Type}

def memory (w : RingWorkspace) (i : Nat) : Memory :=
  w.memories.getD i (.zeros 0)

/-- Mapping `i` and the number of its memory. -/
def mapping? (w : RingWorkspace) (i : Nat) : Option (RingMapping × Nat) :=
  (w.mappings[i]?).join

/-- Makes a file with the given contents. -/
def putFile (w : RingWorkspace) (path : String) (contents : List UInt8) : RingWorkspace :=
  { w with
    files := w.files.put path w.memories.size
    memories := w.memories.push (.ofList contents) }

/-- Keeps a new ring; the answer is the number of its mapping. -/
private def keep (w : RingWorkspace) (r : Ring) : RingWorkspace × Nat :=
  ({ w with
      memories := w.memories.push r.memory
      mappings := w.mappings.push (some (r.mapping, w.memories.size)) }, w.mappings.size)

def createAnonymous (w : RingWorkspace) (g : RingGeometry) :
    Except StreamError Nat × RingWorkspace :=
  match g.createAnonymous w.host with
  | .error e => (.error e, w)
  | .ok r =>
    let (w, i) := w.keep r
    (.ok i, w)

/-- Makes a file and a ring in it. The next memory is used up even if that fails: it is that of
the file which may stay behind. -/
def createFile (w : RingWorkspace) (path : String) (g : RingGeometry) :
    Except StreamError Nat × RingWorkspace :=
  match g.createFile w.host w.files path w.memories.size with
  | (.error e, files) =>
    let left : Memory := .zeros (if w.host.canSize g.mappedBytes then g.mappedBytes else 0)
    (.error e, { w with files := files, memories := w.memories.push left })
  | (.ok r, files) =>
    let (w, i) := { w with files := files }.keep r
    (.ok i, w)

/-- Maps an existing file. -/
def openFile (w : RingWorkspace) (path : String) : Except StreamError Nat × RingWorkspace :=
  match w.files.get? path with
  | none => (.error (hostFailure path), w)
  | some n =>
    match RingMapping.ofFile path (w.memory n) with
    | .error e => (.error e, w)
    | .ok r => (.ok w.mappings.size, { w with mappings := w.mappings.push (some (r, n)) })

/-- Applies an operation through mapping `i`; none if it was dropped. -/
def apply (w : RingWorkspace) (i : Nat)
    (op : RingMapping → Memory → Except StreamError α × Memory) :
    Option (Except StreamError α) × RingWorkspace :=
  match w.mapping? i with
  | none => (none, w)
  | some (r, n) =>
    let (a, m) := op r (w.memory n)
    (some a, { w with memories := w.memories.setIfInBounds n m })

/-- Closes the ring through mapping `i`. -/
def release (w : RingWorkspace) (i : Nat) : RingWorkspace :=
  match w.mapping? i with
  | none => w
  | some (r, n) =>
    let (r', m) := r.release (w.memory n)
    { w with
      files := if r.isClosed then w.files else w.files.remove r.ownFile?
      memories := w.memories.setIfInBounds n m
      mappings := w.mappings.setIfInBounds i (some (r', n)) }

/-- Ends mapping `i`. -/
def drop (w : RingWorkspace) (i : Nat) : RingWorkspace :=
  match w.mapping? i with
  | none => w
  | some (r, _) =>
    { w with
      files := w.files.remove r.ownFile?
      mappings := w.mappings.setIfInBounds i none }

/-- Writes bytes into memory `n`, as a program outside this library can. -/
def poke (w : RingWorkspace) (n : Nat) (offset : Nat) (bytes : List UInt8) : RingWorkspace :=
  { w with memories := w.memories.setIfInBounds n ((w.memory n).blit offset bytes) }

end RingWorkspace
end Patchbay
