import Patchbay.Device.Roster
import Patchbay.Stream.Intent

/-!
# Route rules

A route rule names the devices that would do for a stream, and the one of them connected last is
its choice. A rule without candidates has no opinion, and the next rule is asked.
-/
namespace Patchbay

structure RouteRule where
  name : String
  /-- The devices that would do for a stream of this intent of the user with this number. -/
  candidates : Roster → StreamIntent → Int32 → List Device := fun _ _ _ => []

namespace RouteRule

/-- The choice of a rule; `Device.none` if it has no opinion. -/
def choose (rule : RouteRule) (r : Roster) (i : StreamIntent) (uid : Int32) : Device :=
  latestDevice (rule.candidates r i uid)

/-- Public devices only. Ringtones go to the devices for calls, so that they are heard on the
loudspeaker and not only on headsets. -/
def publicPriority : RouteRule where
  name := "public_priority"
  candidates r i _ :=
    match i with
    | .render u =>
      if u.isRingtone then r.partition (.commRender .isPublic)
      else r.partition (.mediaRender .isPublic)
    | .capture _ => r.partition (.mediaCapture .isPublic)

/-- Private devices, except for rings and tones, which others should hear. -/
def privacyPriority : RouteRule where
  name := "privacy_priority"
  candidates r i _ :=
    match i.category with
    | .mediaRender => r.partition (.mediaRender .isPrivate)
    | .callRender => r.partition (.commRender .isPrivate)
    | .recordCapture => r.partition (.mediaCapture .isPrivate)
    | .callCapture => r.partition (.commCapture .isPrivate)
    | .ringRender | .toneRender => []

/-- The last resort: devices of the default type. -/
def fallback : RouteRule where
  name := "default"
  candidates r i _ :=
    match i with
    | .render _ => r.connected.filter fun d => d.type = r.defaultRender && d.role = .output
    | .capture _ => r.connected.filter fun d => d.type = r.defaultCapture && d.role = .input

/-- The rules every program knows. -/
def builtIn : List RouteRule :=
  [privacyPriority, publicPriority, fallback]

end RouteRule
end Patchbay
