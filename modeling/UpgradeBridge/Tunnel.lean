/-
The middleware that lets WebSocket clients use tunnels: a request for a
WebSocket goes on as a CONNECT request, and the answer to it comes back as the
answer to the handshake. Other requests go on as they are.
-/
import UpgradeBridge.Pipeline
import UpgradeBridge.ProtocolSwitch
import UpgradeBridge.Upgrade

namespace UpgradeBridge

namespace Tunnel

/-- The name of the middleware. -/
def name : String := "wss_handshake_tunnel"

/-- Serves a detected request: the host is looked at first, then the capabilities that the tunnel is
going to need. -/
def bridge (alphabet : Base64.Alphabet) (next : Handler) (u : Upgrade) : Handler := fun request =>
  match u.retarget request with
  | .error error => pure (.error error)
  | .ok connect => do
    let capabilities ← Program.call .capabilities
    match capabilities.missing with
    | some capability => pure (.error (.lacksCapability capability))
    | none =>
      let (outcome, _) ← ProtocolSwitch.apply { key := u.key, alphabet } .waiting (next connect)
      pure outcome

end Tunnel

/-- The middleware for an alphabet of accept tokens. -/
def tunnel (alphabet : Base64.Alphabet) : Middleware := fun next request =>
  match Upgrade.detect request with
  | none => next request
  | some u => Tunnel.bridge alphabet next u request

end UpgradeBridge
