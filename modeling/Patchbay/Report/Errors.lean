import Patchbay.Fault
import Patchbay.Report.Basic

/-!
# Reports of errors

An error is reported by the name of its kind, its wording and its status. Settings errors have
no status, and those whose wording is not the program's own have none either.
-/
namespace Patchbay

def StreamError.name : StreamError → String
  | invalidParam _ => "InvalidParam"
  | bufferFull => "BufferFull"
  | bufferEmpty => "BufferEmpty"
  | illegalState _ _ => "IllegalState"
  | released => "Released"
  | alreadyTransferred _ => "AlreadyTransferred"
  | handleNotFound _ => "HandleNotFound"
  | sessionNotFound _ => "SessionNotFound"
  | noDevice => "NoDevice"
  | fatal _ => "Fatal"
  | map _ => "Map"

def DeviceError.name : DeviceError → String
  | deviceNotFound _ => "DeviceNotFound"
  | adapterNotFound _ => "AdapterNotFound"
  | ruleNotFound _ => "RouterNotFound"
  | initializationFailed _ => "InitializationFailed"
  | failedTransfer _ => "Io"
  | notStarted => "NotStarted"

def PolicyError.name : PolicyError → String
  | invalidParam _ => "InvalidParam"
  | sessionNotRegistered _ => "SessionNotRegistered"
  | alreadyRegistered _ => "AlreadyRegistered"
  | operationFailed _ => "OperationFailed"
  | unsupported _ => "Unsupported"
  | stream _ => "Stream"

def WireError.name : WireError → String
  | authenticationFailed _ _ => "AuthenticationFailed"
  | unknownCode _ => "UnknownCode"
  | malformed _ => "Malformed"
  | peerClosed => "PeerClosed"
  | status _ => "Status"
  | transferFailed _ => "Io"
  | buffer _ => "Buffer"

/-- An error by its name, wording and status. -/
def Report.fault (name message : String) (s : Status) : Report :=
  .of "error message status" (name, message, s)

instance : Reported StreamError := ⟨fun e => .fault e.name e.message e.status⟩
instance : Reported DeviceError := ⟨fun e => .fault e.name e.message e.status⟩
instance : Reported PolicyError := ⟨fun e => .fault e.name e.message e.status⟩
instance : Reported WireError := ⟨fun e => .fault e.name e.message e.toStatus⟩

instance : Reported SettingsError where
  report
    | .unreadable => .of "error" "FileRead"
    | .unparsable => .of "error" "TomlParse"
    | e@(.missingVariable _) => .of "error message" ("EnvVarNotFound", e.message)
    | e@(.invalidValue _) => .of "error message" ("InvalidValue", e.message)

end Patchbay
