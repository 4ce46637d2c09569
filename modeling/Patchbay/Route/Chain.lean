import Patchbay.Fault
import Patchbay.Route.Rule

/-!
# Route chains

Each route category has a chain of rules. A stream goes to the first real device that a rule of
its chain chooses.
-/
namespace Patchbay

/-- The names of the rules of each category, in order. -/
structure ChainNames where
  mediaRender : List String := ["privacy_priority", "public_priority", "default"]
  callRender : List String := ["privacy_priority", "public_priority", "default"]
  ringRender : List String := ["privacy_priority", "public_priority", "default"]
  toneRender : List String := ["privacy_priority", "public_priority", "default"]
  recordCapture : List String := ["privacy_priority", "public_priority", "default"]
  callCapture : List String := ["privacy_priority", "public_priority", "default"]
deriving DecidableEq, Repr

def ChainNames.get (n : ChainNames) : RouteCategory → List String
  | .mediaRender => n.mediaRender
  | .callRender => n.callRender
  | .ringRender => n.ringRender
  | .toneRender => n.toneRender
  | .recordCapture => n.recordCapture
  | .callCapture => n.callCapture

/-- The rules of each category. -/
abbrev RouteChains := Table RouteCategory (List RouteRule)

namespace RouteChains

/-- The rule of this name. -/
def rule (known : List RouteRule) (name : String) : Except DeviceError RouteRule :=
  match known.find? (·.name = name) with
  | some r => .ok r
  | none => .error (.ruleNotFound name)

/-- Looks the names of all chains up, category by category. -/
def ofNames (known : List RouteRule) (names : ChainNames) : Except DeviceError RouteChains :=
  let chains := RouteCategory.all.mapM fun c => do
    let chain ← (names.get c).mapM (rule known)
    pure (c, chain)
  chains.map .ofList

def chain (cs : RouteChains) (c : RouteCategory) : List RouteRule :=
  (cs.get? c).getD []

/-- The first real device among the choices of the rules. -/
def firstChoice (r : Roster) (i : StreamIntent) (uid : Int32) : List RouteRule → Device
  | [] => Device.none
  | rule :: rest =>
    let d := rule.choose r i uid
    if d.isNone then firstChoice r i uid rest else d

/-- The device for a stream; `Device.none` if there is none. -/
def route (cs : RouteChains) (r : Roster) (i : StreamIntent) (uid : Int32) : Device :=
  firstChoice r i uid (cs.chain i.category)

end RouteChains
end Patchbay
