import Patchbay.Table

/-!
# Files

A tree of directories and files, and how a path leads to a place in it. Relative paths start at
the root, as absolute ones do. A path is followed name by name, and all that it passes through
must be directories; only what it ends at may be missing. What the operating system says of a
failure is written `<os>`.
-/
namespace Patchbay

/-- A path, taken apart. -/
structure Path where
  /-- What stands between the slashes. -/
  pieces : List String
deriving DecidableEq, Repr

/-- Why a path cannot be used. -/
inductive PathError where
  /-- No path holds a zero byte. -/
  | zeroByte
  /-- The operating system does not do it. -/
  | refused
deriving DecidableEq, Repr

def PathError.message : PathError → String
  | zeroByte => "file name contained an unexpected NUL byte"
  | refused => "<os>"

namespace Path

/-- Paths have 1 to 4095 bytes, none of them zero. -/
def ofText (text : String) : Except PathError Path :=
  if text.toList.contains '\x00' then .error .zeroByte
  else if text = "" || 4096 ≤ text.utf8ByteSize then .error .refused
  else .ok ⟨(text.toList.splitOn '/').map String.ofList⟩

/-- The names to follow. An empty piece or a dot leads nowhere. -/
def names (p : Path) : List String :=
  p.pieces.filter fun s => s ≠ "" && s ≠ "."

/-- A path that ends in a slash or a dot can only mean a directory. -/
def isForDirectory (p : Path) : Bool :=
  p.pieces.getLast?.all fun s => s = "" || s = "."

/-- Whether the last piece that is not empty is a dot. -/
def endsInDot (p : Path) : Bool :=
  (p.pieces.filter (· ≠ "")).getLast? = some "."

/-- The path of `name` in a directory. -/
def below (dir name : String) : String :=
  if dir = "" || dir.toList.getLast? = some '/' then dir ++ name else dir ++ "/" ++ name

/-- The directory above what a path leads to. -/
def above (text : String) : String :=
  "/".intercalate ((text.toList.splitOn '/').dropLast.map String.ofList)

end Path

/-- Where something is: the names on the way to it from the root. -/
abbrev Place := List String

/-- What is found at a place. -/
inductive FileNode where
  | directory
  | file (contents : List UInt8)
  /-- Keeps nothing of what is written, if it takes it at all, and is empty when read. -/
  | device (takes : Bool)
deriving DecidableEq, Repr

/-- The root, which is a directory, and all that is below it. -/
structure FileTree where
  nodes : Table Place FileNode := ∅
deriving DecidableEq, Repr

namespace FileTree

/-- The directories and devices that every host has. -/
def base : FileTree where
  nodes := .ofList [(["tmp"], .directory), (["dev"], .directory), (["dev", "shm"], .directory),
    (["dev", "null"], .device true), (["dev", "full"], .device false)]

def node? (t : FileTree) (p : Place) : Option FileNode :=
  if p = [] then some .directory else t.nodes.get? p

def isDirectory (t : FileTree) (p : Place) : Bool := t.node? p = some .directory

def put (t : FileTree) (p : Place) (n : FileNode) : FileTree :=
  { t with nodes := t.nodes.put p n }

/-- Follows one name from `p`, which must be a directory. Names have at most 255 bytes, and two
dots lead up. -/
def enter (t : FileTree) (p : Place) (name : String) : Except PathError Place :=
  if !t.isDirectory p || 255 < name.utf8ByteSize then .error .refused
  else if name = ".." then .ok p.dropLast
  else .ok (p ++ [name])

/-- The place to which a path leads. -/
def locate (t : FileTree) (text : String) : Except PathError Place := do
  let path ← Path.ofText text
  let p ← path.names.foldlM t.enter []
  if path.isForDirectory && !t.isDirectory p then .error .refused else pure p

/-- What a path leads to, if it leads to anything. -/
def find? (t : FileTree) (text : String) : Option FileNode :=
  (t.locate text).toOption.bind t.node?

def has (t : FileTree) (text : String) : Bool := (t.find? text).isSome

/-- The contents of a file. -/
def read (t : FileTree) (text : String) : Except PathError (List UInt8) := do
  match t.node? (← t.locate text) with
  | some (.file contents) => pure contents
  | some (.device _) => pure []
  | _ => .error .refused

/-- Opens a file to append to it; one that is missing is made. -/
def openFile (t : FileTree) (text : String) : Except PathError Place × FileTree :=
  match t.locate text with
  | .error e => (.error e, t)
  | .ok p =>
    match t.node? p with
    | some .directory => (.error .refused, t)
    | some _ => (.ok p, t)
    | none => (.ok p, t.put p (.file []))

/-- A tree in which a file has the given contents, if it can be made. -/
def withFile (t : FileTree) (text : String) (contents : List UInt8) : FileTree :=
  match t.openFile text with
  | (.error _, t) => t
  | (.ok p, t) => t.put p (.file contents)

/-- Writes to the end of an open file. -/
def append (t : FileTree) (p : Place) (data : List UInt8) : Except PathError Unit × FileTree :=
  match t.node? p with
  | some (.file contents) => (.ok (), t.put p (.file (contents ++ data)))
  | some (.device takes) => (if takes || data.isEmpty then .ok () else .error .refused, t)
  | _ => (.error .refused, t)

/-- Removes what is not a directory. -/
def remove (t : FileTree) (text : String) : Except PathError FileTree := do
  let p ← t.locate text
  match t.node? p with
  | some .directory | none => .error .refused
  | some _ => pure { t with nodes := t.nodes.erase p }

/-- Makes a new file where nothing is yet. -/
def makeFile (t : FileTree) (text : String) : Except PathError (Place × FileTree) := do
  let p ← t.locate text
  if (t.node? p).isSome then .error .refused else pure (p, t.put p (.file []))

/-- Follows names from a directory and makes the directories that are missing. Those made before
a failure stay. -/
def pave (t : FileTree) (p : Place) : List String → Except PathError Unit × FileTree
  | [] => (if t.isDirectory p then .ok () else .error .refused, t)
  | name :: names =>
    match t.enter p name with
    | .error e => (.error e, t)
    | .ok p => (if (t.node? p).isNone then t.put p .directory else t).pave p names

/-- Makes a directory and those above it, as far as they are missing. A name that is followed by
a dot is not made, it must be there. -/
def makeDirectory (t : FileTree) (text : String) : Except PathError Unit × FileTree :=
  if text = "" then (.ok (), t)
  else
    match Path.ofText text with
    | .error e => (.error e, t)
    | .ok path =>
      match t.pave [] (if path.endsInDot then path.names.dropLast else path.names) with
      | (.error e, t) => (.error e, t)
      | (.ok (), t) => (if t.find? text = some .directory then .ok () else .error .refused, t)

end FileTree
end Patchbay
