import Patchbay.Level.Parameters
import Patchbay.Route.Notice
import Patchbay.Wire.Parcel

/-!
# Notifications

What the server tells a client unasked: that a session moved to another device, that it was
given up, or that a parameter changed.
-/
namespace Patchbay.Wire

inductive Notification where
  | deviceChanged (id : UInt64) (previous current : Device)
  | teardown (id : UInt64) (reason : String)
  | parameter (change : ParameterChange)
deriving DecidableEq, Repr

namespace Notification

def ofNotice : SessionNotice → Notification
  | .deviceChanged id previous current => deviceChanged (UInt64.ofNat id) previous current
  | .teardown id reason => teardown (UInt64.ofNat id) reason

/-- The session it is about. -/
def session? : Notification → Option UInt64
  | deviceChanged id _ _ | teardown id _ => some id
  | parameter _ => none

/-- The message, without the word that tells it from a reply. -/
def payload : Notification → List UInt8
  | deviceChanged id previous current =>
    write32 0 ++ write64 id ++ writeDevice previous ++ writeDevice current
  | teardown id reason => write32 1 ++ write64 id ++ writeText reason
  | parameter c =>
    write32 2 ++ writeFlag c.network.isSome ++ writeText (c.network.getD "") ++ writeText c.key ++
      writeText c.condition ++ writeText c.value

def read : Reader Notification := do
  let tag ← read32
  if tag = 0 then pure (deviceChanged (← read64) (← readDevice) (← readDevice))
  else if tag = 1 then pure (teardown (← read64) (← readText))
  else if tag = 2 then
    let isRemote ← readFlag
    let network ← readText
    let key ← readText
    let condition ← readText
    let value ← readText
    pure (parameter ⟨if isRemote then some network else none, key, condition, value⟩)
  else throw (.malformed s!"unknown notification tag {tag.toInt32}")

end Notification
end Patchbay.Wire
