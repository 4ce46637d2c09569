/-!
# Options

What the command line asks for: which settings file to use, and whether to take over changes of
it. A later option wins over an earlier one.
-/
namespace Patchbay

structure Options where
  config : String := "audiod.toml"
  watches : Bool := true
deriving DecidableEq, Repr

/-- Why a command line is refused. -/
inductive OptionError where
  | unknown (arg : String)
  | missingValue (option : String)
deriving DecidableEq, Repr

def OptionError.message : OptionError → String
  | unknown arg => s!"unexpected argument '{arg}'"
  | missingValue option => s!"a value is required for '{option}'"

namespace Options

/-- The path in an option that holds its value. -/
def inlinePath? (arg : String) : Option String :=
  let path? (head : String) : Option String :=
    if head.toList.isPrefixOf arg.toList then
      some (String.ofList (arg.toList.drop head.length))
    else none
  path? "--config=" <|> path? "-c=" <|> path? "-c"

/-- Takes over the options of a command line, from left to right. -/
def read (o : Options) : List String → Except OptionError Options
  | [] => .ok o
  | "--no-watch" :: rest => read { o with watches := false } rest
  | [arg] =>
    if arg = "-c" || arg = "--config" then .error (.missingValue arg)
    else
      match inlinePath? arg with
      | some path => .ok { o with config := path }
      | none => .error (.unknown arg)
  | arg :: path :: rest =>
    if arg = "-c" || arg = "--config" then read { o with config := path } rest
    else
      match inlinePath? arg with
      | some inline => read { o with config := inline } (path :: rest)
      | none => .error (.unknown arg)

/-- What a command line asks for. -/
def ofArgs (args : List String) : Except OptionError Options :=
  read {} args

end Options
end Patchbay
