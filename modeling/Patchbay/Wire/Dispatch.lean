import Patchbay.Wire.Response

/-!
# Dispatch

How a request message becomes a response message, whoever carries out the requests.
-/
namespace Patchbay.Wire

/-- The response message that tells an outcome. -/
def encodeOutcome : Except Status Response → List UInt8
  | .ok response => response.encode
  | .error status => Response.encodeStatus status

/-- One request message in, one response message out. A message that is no request for the
server with this token is answered with a status and changes nothing. -/
def dispatch {σ : Type} (token : String) (handle : Request → σ → Except Status Response × σ)
    (message : List UInt8) (s : σ) : List UInt8 × σ :=
  match decode (Request.readFor token) message with
  | .error e => (Response.encodeStatus e.toStatus, s)
  | .ok r =>
    let (outcome, s) := handle r s
    (encodeOutcome outcome, s)

end Patchbay.Wire
