/-
A client's visit to a server over a network: the client connects to where the
server listens and sends one request.
-/
import UpgradeBridge.Network.Sites
import UpgradeBridge.Server

namespace UpgradeBridge

/-- What a client brings: a request, and what it sends once its connection was taken over. -/
structure Visit where
  request : Request
  /-- The request is of version 1.1 of the protocol, and not of 1.0. -/
  isHttp11 : Bool := true
  sends : Bytes := []
  deriving DecidableEq, Repr

namespace Visit

/-- How the connection can be taken over: after a request to upgrade it, which version 1.0 does not
know, and after a CONNECT request. -/
def handle (v : Visit) : Option UpgradeHandle :=
  let may :=
    if v.request.headers.contains Header.Name.upgrade then v.isHttp11
    else v.request.method == Method.connect
  if may then some (.opens { connection := { incoming := v.sends } }) else none

/-- The client goes on with a connection of its own after this status. -/
def isUpgraded (v : Visit) (status : Status) : Bool :=
  status == .switchingProtocols || (v.request.method == Method.connect && status.isSuccess)

/-- The milliseconds that a client waits for a server. -/
def patience : Nat := 10000

/-- Visits a server that listens at an address. -/
def pay (v : Visit) (network : Network) (server : Server) (address : SocketAddress)
    (fresh : Header.Value) : Except IoError Server.Served :=
  match network.dial address.text patience with
  | .connected => .ok (server.respond network v.handle fresh v.request)
  | .failed error => .error error
  | .timedOut => .error .connectionTimedOut

end Visit

end UpgradeBridge
