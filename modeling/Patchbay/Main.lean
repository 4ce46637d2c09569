import Patchbay.Daemon
import Patchbay.Options

/-!
# The command line

Starts the daemon and connects one client to it, through standard input and output. Files, rings
and devices are those of the daemon's own world. While it runs the settings file is read again
before every answer, unless that was not wanted.
-/
namespace Patchbay

/-- The contents of a file, if it can be read. -/
def readFile? (path : String) : IO (Option (List UInt8)) := do
  try
    return some (← IO.FS.readBinFile path).toList
  catch _ => return none

/-- The variables that a settings file names, as far as they are set. -/
def namedVariables (file : Option (List UInt8)) : IO (Table String String) := do
  match file.map Utf8.decode with
  | some (.ok text) =>
    let cs := text.toList
    (Template.names cs.length cs).foldlM
      (fun t name => return ((← IO.getEnv name).map (t.put name)).getD t) ∅
  | _ => return ∅

/-- The files that the daemon finds in its world: nothing but the directory for its socket. -/
def homeFiles (s : Settings) : FileTree :=
  (FileTree.base.makeDirectory (Path.above s.access.socketPath)).2

/-- Starts the daemon with the contents of a settings file. -/
def launch (now : UInt64) (lookup : String → Option String) (file : Option (List UInt8)) :
    Except StartError Daemon :=
  match Settings.ofFile lookup file with
  | .error e => .error (.settings e)
  | .ok s => (Daemon.start RouteRule.builtIn now "0" (homeFiles s) s).1

/-- Serves the client until it ends its side. -/
partial def serveClient (o : Options) (conn : Nat) (seen : Option (List UInt8)) (d : Daemon) :
    IO Unit := do
  let bytes ← (← IO.getStdin).read 65536
  if bytes.isEmpty then return
  let file ← if o.watches then readFile? o.config else pure seen
  let lookup ← namedVariables file
  let d := if file = seen then d else d.reload lookup.get? file
  let (answer, d) := d.converse conn bytes.toList
  let output ← IO.getStdout
  output.write ⟨answer.toArray⟩
  output.flush
  serveClient o conn file (d.cycle (UInt64.ofNat (← IO.monoNanosNow)))

/-- The whole run; the answer is the exit code. -/
def runCommand (args : List String) : IO UInt32 := do
  match Options.ofArgs args with
  | .error e =>
    IO.eprintln s!"error: {e.message}"
    return 2
  | .ok o =>
    let file ← readFile? o.config
    let lookup ← namedVariables file
    match launch (UInt64.ofNat (← IO.monoMsNow)) lookup.get? file with
    | .error e =>
      IO.eprintln s!"Error: {e.message}"
      return 1
    | .ok d =>
      let (conn, d) := d.accept d.settings.access.token
      serveClient o conn file d
      return 0

end Patchbay

def main (args : List String) : IO UInt32 :=
  Patchbay.runCommand args
