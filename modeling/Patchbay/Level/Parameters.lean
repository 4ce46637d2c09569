import Patchbay.Device.Descriptor
import Patchbay.Fault
import Patchbay.Inbox
import Patchbay.Stream.Intent
import Patchbay.Table

/-!
# Parameters

Free texts under keys of this machine, and under network, key and condition of other machines.
Every accepted change goes to all listeners.
-/
namespace Patchbay

/-- A change as listeners see it; changes on this machine name no network. -/
structure ParameterChange where
  network : Option String
  key : String
  condition : String
  value : String
deriving DecidableEq, Repr

structure Parameters where
  values : Table String String := ∅
  remote : Table (String × RemoteKey × String) String := ∅
  listeners : Inboxes ParameterChange := []
deriving Repr

namespace Parameters

/-- A new listener, by its number. -/
def listen (p : Parameters) : Nat × Parameters :=
  let (i, boxes) := p.listeners.join
  (i, { p with listeners := boxes })

/-- All changes waiting for a listener. -/
def take (p : Parameters) (i : Nat) : List ParameterChange × Parameters :=
  let (changes, boxes) := p.listeners.take i
  (changes, { p with listeners := boxes })

/-- A listener goes. -/
def close (p : Parameters) (i : Nat) : Parameters :=
  { p with listeners := p.listeners.close i }

/-- An unknown key has the empty text. -/
def get (p : Parameters) (key : String) : String :=
  (p.values.get? key).getD ""

def set (p : Parameters) (key value : String) : Except PolicyError Unit × Parameters :=
  if key = "" then (.error (.invalidParam "empty parameter key"), p)
  else
    (.ok (), { p with
      values := p.values.put key value
      listeners := p.listeners.sendAll ⟨none, key, "", value⟩ })

def getRemote (p : Parameters) (network : String) (key : RemoteKey) (condition : String) :
    String :=
  (p.remote.get? (network, key, condition)).getD ""

def setRemote (p : Parameters) (network : String) (key : RemoteKey) (condition value : String) :
    Except PolicyError Unit × Parameters :=
  if network = "" || network = localNetwork then
    (.error (.invalidParam s!"'{network}' is not a remote network id"), p)
  else if key = .none then (.error (.invalidParam "parameter key none"), p)
  else
    (.ok (), { p with
      remote := p.remote.put (network, key, condition) value
      listeners := p.listeners.sendAll ⟨some network, key.label, condition, value⟩ })

/-- Takes entries over from changed settings; one with an empty key is passed over. -/
def apply (p : Parameters) (changes : List (String × String)) : Parameters :=
  changes.foldl (fun p (key, value) => (p.set key value).2) p

end Parameters
end Patchbay
