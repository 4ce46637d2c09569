import Patchbay.Named

/-!
# Status codes and errors

Every error has a wording for people and a status code. Only the code crosses the wire.
-/
namespace Patchbay

/-- What a peer is told of the outcome of its request. -/
inductive Status where
  | success
  | invalidParam
  | illegalState
  | operationFailed
  | permissionDenied
  | notFound
  | bufferFull
  | bufferEmpty
  | noDevice
  | peerDead
  | unsupported
deriving DecidableEq, Repr, Inhabited

namespace Status

def all : List Status :=
  [.success, .invalidParam, .illegalState, .operationFailed, .permissionDenied, .notFound,
    .bufferFull, .bufferEmpty, .noDevice, .peerDead, .unsupported]

def name : Status → String
  | .success => "Success"
  | .invalidParam => "InvalidParam"
  | .illegalState => "IllegalState"
  | .operationFailed => "OperationFailed"
  | .permissionDenied => "PermissionDenied"
  | .notFound => "NotFound"
  | .bufferFull => "BufferFull"
  | .bufferEmpty => "BufferEmpty"
  | .noDevice => "NoDevice"
  | .peerDead => "PeerDead"
  | .unsupported => "Unsupported"

def code : Status → Int32
  | .success => 0
  | .invalidParam => -2
  | .illegalState => -3
  | .operationFailed => -4
  | .permissionDenied => -6
  | .notFound => -7
  | .bufferFull => -10
  | .bufferEmpty => -11
  | .noDevice => -12
  | .peerDead => -13
  | .unsupported => -14

/-- An unknown code reads as a failed operation. -/
def ofCode (c : Int32) : Status :=
  (all.find? (·.code == c)).getD .operationFailed

theorem ofCode_code (s : Status) : ofCode s.code = s := by
  cases s <;> decide

end Status

instance : Named Status := ⟨Status.all, Status.name⟩

/-- What can go wrong with a ring or a session. -/
inductive StreamError where
  | invalidParam (reason : String)
  | bufferFull
  | bufferEmpty
  | illegalState (op state : String)
  | released
  | alreadyTransferred (handle : Nat)
  | handleNotFound (handle : Nat)
  | sessionNotFound (id : Nat)
  | noDevice
  | fatal (reason : String)
  | map (reason : String)
deriving DecidableEq, Repr

namespace StreamError

def message : StreamError → String
  | invalidParam s => s!"invalid parameter: {s}"
  | bufferFull => "buffer full"
  | bufferEmpty => "buffer empty"
  | illegalState op state => s!"{op} not allowed in state {state}"
  | released => "buffer already released"
  | alreadyTransferred h => s!"buffer handle {h} already transferred"
  | handleNotFound h => s!"buffer handle {h} not found"
  | sessionNotFound i => s!"session {i} not found"
  | noDevice => "no device available"
  | fatal s => s!"fatal session error: {s}"
  | map s => s!"buffer mapping failed: {s}"

def status : StreamError → Status
  | invalidParam _ => .invalidParam
  | bufferFull => .bufferFull
  | bufferEmpty => .bufferEmpty
  | illegalState _ _ | released => .illegalState
  | alreadyTransferred _ => .permissionDenied
  | handleNotFound _ | sessionNotFound _ => .notFound
  | noDevice => .noDevice
  | fatal _ => .peerDead
  | map _ => .operationFailed

end StreamError

/-- What can go wrong with devices, adapters and route rules. -/
inductive DeviceError where
  | deviceNotFound (name : String)
  | adapterNotFound (name : String)
  | ruleNotFound (name : String)
  | initializationFailed (reason : String)
  | failedTransfer (reason : String)
  | notStarted
deriving DecidableEq, Repr

namespace DeviceError

def message : DeviceError → String
  | deviceNotFound s => s!"device not found: {s}"
  | adapterNotFound s => s!"adapter not found: {s}"
  | ruleNotFound s => s!"router not found: {s}"
  | initializationFailed s => s!"adapter initialization failed: {s}"
  | failedTransfer s => s!"adapter I/O failed: {s}"
  | notStarted => "adapter not started"

def status : DeviceError → Status
  | deviceNotFound _ | adapterNotFound _ | ruleNotFound _ => .notFound
  | notStarted => .illegalState
  | _ => .operationFailed

end DeviceError

/-- What can go wrong with routing, volume and parameters. -/
inductive PolicyError where
  | invalidParam (reason : String)
  | sessionNotRegistered (id : Nat)
  | alreadyRegistered (id : Nat)
  | operationFailed (reason : String)
  | unsupported (reason : String)
  | stream (e : StreamError)
deriving DecidableEq, Repr

namespace PolicyError

def message : PolicyError → String
  | invalidParam s => s!"invalid parameter: {s}"
  | sessionNotRegistered i => s!"session {i} not registered"
  | alreadyRegistered i => s!"session {i} already registered"
  | operationFailed s => s!"operation failed: {s}"
  | unsupported s => s!"unsupported: {s}"
  | stream e => e.message

def status : PolicyError → Status
  | invalidParam _ => .invalidParam
  | sessionNotRegistered _ => .notFound
  | alreadyRegistered _ => .illegalState
  | operationFailed _ => .operationFailed
  | unsupported _ => .unsupported
  | stream e => e.status

end PolicyError

/-- What can go wrong between a client and the server. -/
inductive WireError where
  | authenticationFailed (expected actual : String)
  | unknownCode (code : UInt32)
  | malformed (reason : String)
  | peerClosed
  | status (s : Status)
  | transferFailed (reason : String)
  | buffer (e : StreamError)
deriving DecidableEq, Repr

namespace WireError

def message : WireError → String
  | authenticationFailed e a => s!"interface token mismatch: expected '{e}', got '{a}'"
  | unknownCode c => s!"unsupported request code: {c}"
  | malformed s => s!"malformed message: {s}"
  | peerClosed => "peer closed the connection"
  | status s => s!"request failed with status {s.name}"
  | transferFailed s => s!"transport I/O failed: {s}"
  | buffer e => s!"shared buffer: {e.message}"

def toStatus : WireError → Status
  | authenticationFailed _ _ => .permissionDenied
  | unknownCode _ => .unsupported
  | malformed _ => .invalidParam
  | peerClosed | transferFailed _ => .peerDead
  | status s => s
  | buffer e => e.status

end WireError

/-- What can go wrong with a settings file. -/
inductive SettingsError where
  | unreadable
  | unparsable
  | missingVariable (name : String)
  | invalidValue (reason : String)
deriving DecidableEq, Repr

def SettingsError.message : SettingsError → String
  | unreadable => "failed to read config file"
  | unparsable => "failed to parse TOML"
  | missingVariable n => s!"environment variable not found: {n}"
  | invalidValue s => s!"invalid config value: {s}"

end Patchbay
