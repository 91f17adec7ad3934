/-
The server: the pipeline that its settings call for, and the response that a
request gets.

A request runs through the pipeline on a streamed response of its own. When the
pipeline has returned, `finish` makes sure that a status is committed; when it
broke off before that, the server answers by itself; and when it is still
waiting after the time limit, the request has timed out. Every request has an
identifier, which the response carries too.
-/
import UpgradeBridge.Channel.Stream
import UpgradeBridge.Connect
import UpgradeBridge.Settings
import UpgradeBridge.Shutdown
import UpgradeBridge.Tunnel

namespace UpgradeBridge

open Header

/-- A response whose client reads each chunk of the body as it is written. -/
structure Delivery where
  stream : Stream
  /-- The chunks that were read. -/
  read : List Bytes := []
  deriving DecidableEq, Repr

namespace Delivery

/-- Hands the chunks that wait over to the client. -/
def drain (d : Delivery) : Delivery :=
  { stream := { d.stream with queue := [] }, read := d.read ++ d.stream.queue }

/-- A step of the stream as a step of the delivery. -/
def lift {α : Type} (d : Delivery) : Step Stream α → Step Delivery α
  | .replied reply s => .replied reply { d with stream := s }.drain
  | .waits s => .waits { d with stream := s }.drain

/-- The delivery as a response channel. -/
def channel : Channel Delivery where
  headers d := d.stream.headers
  setHeaders d h := { d with stream := Stream.channel.setHeaders d.stream h }
  writeStatus status d := { d with stream := d.stream.writeStatus status }
  write data d := d.lift (d.stream.write data)
  capabilities d := d.stream.capabilities
  flush d := d.lift d.stream.flush
  hijack d := d.lift d.stream.hijack
  transmit data d :=
    let (reply, s) := Stream.channel.transmit data d.stream
    (reply, { d with stream := s })

/-- The response that the client has got, if its head was handed over. -/
def response? (d : Delivery) : Option Response :=
  match d.stream.slot with
  | .ready head => some ⟨head.status, head.headers, d.read.flatten ++ d.stream.queue.flatten⟩
  | _ => none

end Delivery

/-- A server: its settings and its pipeline. -/
structure Server where
  settings : Settings
  pipeline : Pipeline

namespace Server

/-- The pipeline of settings: tunnels, with the handshake in front if it is enabled. -/
def pipelineOf (s : Settings) : Pipeline :=
  let tunnels : Pipeline := { handler := Connect.serve (1000 * s.timeouts.connectSecs) }
  if s.handshake.enabled then tunnels.add (tunnel s.handshake.acceptAlphabet) else tunnels

/-- The server of settings. -/
def ofSettings (s : Settings) : Server :=
  { settings := s, pipeline := pipelineOf s }

/-- Ends a response whose pipeline returned. What was committed stands; otherwise success is 200 and
an error is its status with its text and a line feed. -/
def finish (outcome : Except HandlerError Unit) (s : Stream) : Stream :=
  if s.isCommitted then s
  else
    match outcome with
    | .ok () => s.writeStatus .ok
    | .error error =>
      match (s.writeStatus error.status).write (utf8 (error.message ++ "\n")) with
      | .replied _ s => s
      | .waits s => s

/-- The value `text/plain; charset=utf-8`. -/
def plainText : List (Name × Value) :=
  match Value.ofString? "text/plain; charset=utf-8" with
  | some v => [(Name.contentType, v)]
  | none => []

/-- The response to a request whose pipeline broke off. -/
def broken : Response :=
  { status := .internalServerError
    headers := ⟨plainText⟩
    body := utf8 "Pipeline ended without a response" }

/-- The response to a request that took too long. -/
def timedOut : Response :=
  { status := .requestTimeout, headers := ∅, body := [] }

/-- The delivery at the end of a run of the pipeline. -/
def settled (run : Run Delivery (Except HandlerError Unit)) : Delivery :=
  match run.outcome with
  | .returned outcome => { run.state with stream := finish outcome run.state.stream }
  | _ => run.state

/-- The response that a run of the pipeline comes to. -/
def settle (run : Run Delivery (Except HandlerError Unit)) : Response :=
  (settled run).response?.getD
    (match run.outcome with
    | .pending => timedOut
    | _ => broken)

/-- Gives a request an identifier if it has none. -/
def identify (fresh : Value) (r : Request) : Request :=
  if r.headers.contains Name.xRequestId then r
  else { r with headers := r.headers.insert Name.xRequestId fresh }

/-- Gives a response the identifier of its request if it has none. -/
def propagate (r : Request) (response : Response) : Response :=
  if response.headers.contains Name.xRequestId then response
  else
    match (r.headers.values Name.xRequestId).head? with
    | some id => { response with headers := response.headers.insert Name.xRequestId id }
    | none => response

/-- What a client gets that sent a request: the response, and what was sent to it on its connection
after a takeover. -/
structure Served where
  response : Response
  received : Bytes
  run : Run Delivery (Except HandlerError Unit)

/-- Serves a request. The handle takes the client's connection over, if the request has one, and a
request without an identifier gets the fresh one. -/
def respond (server : Server) (network : Network) (handle : Option UpgradeHandle) (fresh : Value)
    (r : Request) : Served :=
  let r := identify fresh r
  let start : Delivery := { stream := { upgrade := handle } }
  let run := (server.pipeline.serve r).run ⟨Delivery.channel, network⟩ start
  { response := propagate r (settle run), received := run.state.stream.sent, run }

/-- The server stops as soon as anything but waiting is left for its receiver: a signal, also a
missed one, or the end of all handles. -/
def isStopped (s : Shutdown) (receiver : Nat) : Bool :=
  match s.receive receiver with
  | some (.empty, _) => false
  | _ => true

end Server

end UpgradeBridge
