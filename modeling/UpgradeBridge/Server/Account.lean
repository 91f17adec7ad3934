/-
What a server logs about the requests it serves: tunnels that ended, and
pipelines that failed. A failure is an error if the server is to blame for it,
and a warning otherwise, or if the client was told something else before.
-/
import UpgradeBridge.Log
import UpgradeBridge.Server

namespace UpgradeBridge.Server

/-- The line about a failure of which the client is told by its status. -/
def failure (error : HandlerError) : LogLine :=
  let isServers := 500 ≤ error.status.code
  { level := if isServers then .error else .warn
    target := "wss_handshake_tunnel::http::server"
    message := if isServers then "Request failed" else "Request rejected"
    fields := [("error", error.message), ("status", toString error.status.code)] }

/-- The line about a failure that came after a status was committed. -/
def lateFailure (error : HandlerError) (status : Status) : LogLine :=
  { level := .warn
    target := "wss_handshake_tunnel::http::server"
    message := "Handler failed after response head was sent"
    fields := [("error", error.message), ("status", "Some(" ++ toString status.code ++ ")")] }

/-- What is logged about a pipeline that returned. -/
def account (outcome : Except HandlerError Unit) (s : Stream) : List LogLine :=
  match outcome, s.status with
  | .ok (), _ => []
  | .error error, none => [failure error]
  | .error error, some status => [lateFailure error status]

/-- The line about a tunnel that ended, with the octets copied in either direction. -/
def tunnelClosed (host : String) (toBackend toClient : Nat) : LogLine :=
  { level := .info
    target := "wss_handshake_tunnel::http::connect"
    message := "Tunnel closed"
    fields := [("host", host), ("to_backend", toString toBackend),
      ("to_client", toString toClient)] }

end UpgradeBridge.Server
