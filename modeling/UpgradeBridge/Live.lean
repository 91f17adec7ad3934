/-
Serving connections over TCP. Nothing is decided here: what becomes of a request
is told by its program, whose effects are carried out one by one, and the octets
of heads are read and written by `Http1`.

A connection is served request by request, up to one that it may be taken over
by, or that is the last. It ends as soon as the server is told to stop, unless a
request is being served.
-/
import UpgradeBridge.Http1.RequestHead
import UpgradeBridge.Http1.ResponseText
import UpgradeBridge.RequestId
import UpgradeBridge.Server.Account
import UpgradeBridge.Server.Visit
import Std.Async.DNS
import Std.Async.TCP
import Std.Async.Timer
import Std.Sync.CancellationToken
import Std.Time

namespace UpgradeBridge.Live

open Std.Async

/-- One end of a TCP connection. -/
abbrev Peer := Std.Async.TCP.Socket.Client

/-- A socket that listens. -/
abbrev Listener := Std.Async.TCP.Socket.Server

/-- The octets as the system takes them. -/
def pack (bytes : Bytes) : ByteArray :=
  ByteArray.mk bytes.toArray

/-- The octets as the system gives them. -/
def unpack (data : ByteArray) : Bytes :=
  data.data.toList

/-- The time, in a given form. -/
def time (form : String) : IO String := do
  let now ← Std.Time.Timestamp.now
  pure ((Std.Time.PlainDateTime.ofWallTime (Std.Time.WallTime.ofTimestamp now .zero)).format form)

/-- The time as responses tell it. -/
def date : IO String :=
  time "EEE, dd MMM uuuu HH:mm:ss 'GMT'"

/-- The number that the system gave an error. -/
def number? : IO.Error → Option UInt32
  | .alreadyExists _ n _ => some n
  | .otherError n _ => some n
  | .resourceBusy n _ => some n
  | .resourceVanished n _ => some n
  | .unsupportedOperation n _ => some n
  | .timeExpired n _ => some n
  | .noFileOrDirectory _ n _ => some n
  | .invalidArgument _ n _ => some n
  | .permissionDenied _ n _ => some n
  | .inappropriateType _ n _ => some n
  | .noSuchThing _ n _ => some n
  | _ => none

/-- The number without its sign: some calls of the system give their errors negative ones. -/
def magnitude (number : UInt32) : Nat :=
  (if number < 0x80000000 then number else -number).toNat

/-- An error of the system. -/
def ioError (error : IO.Error) : IoError :=
  ((number? error).bind fun n => IoError.ofNumber? (magnitude n)).getD (.other (toString error))

/-- The result of an action, or its error. -/
def attempt {α : Type} (action : Async α) : Async (Except IoError α) := do
  try
    let value ← action
    pure (.ok value)
  catch error => pure (.error (ioError error))

/-- An address as the system takes it. -/
def systemAddress : SocketAddress → Std.Net.SocketAddress
  | .v4 host port => .v4 { addr := .ofParts host.a host.b host.c host.d, port }
  | .v6 host _ port =>
    let group := host.groups.getD
    .v6 { addr := .ofParts (group 0 0) (group 1 0) (group 2 0) (group 3 0) (group 4 0) (group 5 0)
                    (group 6 0) (group 7 0), port }

/-- An address as the system gives it. -/
def ofSystemAddress : Std.Net.SocketAddress → SocketAddress
  | .v4 { addr, port } =>
    match addr.octets.toList with
    | [a, b, c, d] => .v4 ⟨a, b, c, d⟩ port
    | _ => .v4 ⟨0, 0, 0, 0⟩ port
  | .v6 { addr, port } => .v6 ⟨addr.segments.toList⟩ 0 port

/-- An address with a port. -/
def withPort (port : UInt16) : Std.Net.IPAddr → Std.Net.SocketAddress
  | .v4 addr => .v4 { addr, port }
  | .v6 addr => .v6 { addr, port }

/-- Starts to listen at an address, and tells which one it came to be. -/
def listen (address : SocketAddress) : IO (Except IoError (Listener × SocketAddress)) := do
  try
    let listener ← TCP.Socket.Server.mk
    listener.bind (systemAddress address)
    listener.listen 1024
    let bound ← listener.getSockName
    pure (.ok (listener, ofSystemAddress bound))
  catch error => pure (.error (ioError error))

/-- The addresses of a host. -/
def addresses (host : String) : Async (Except IoError (List Std.Net.SocketAddress)) := do
  match SocketAddress.ofString? host with
  | some address => pure (.ok [systemAddress address])
  | none =>
    match Network.nameAndPort host with
    | .error error => pure (.error error)
    | .ok (name, port) =>
      match ← attempt (DNS.getAddrInfo name "") with
      | .error _ => pure (.error .unresolved)
      | .ok found => pure (.ok (found.toList.map (withPort port)))

/-- Connects to the first address that takes the connection. -/
def connectFirst (last : IoError) : List Std.Net.SocketAddress → Async (Except IoError Peer)
  | [] => pure (.error last)
  | address :: rest => do
    let peer ← TCP.Socket.Client.mk
    match ← attempt (peer.connect address) with
    | .ok () => pure (.ok peer)
    | .error error => connectFirst error rest

/-- Connects to a host. -/
def connect (host : String) : Async (Except IoError Peer) := do
  match ← addresses host with
  | .error error => pure (.error error)
  | .ok found => connectFirst .unresolved found

/-- The most milliseconds that are waited, thirty years: limits beyond are not reached. -/
def longest : Nat := 1000 * 86400 * 365 * 30

/-- Waits a number of milliseconds. -/
def pause (limit : Nat) : Async Unit :=
  sleep (.ofNat (min limit longest))

/-- The result of an action, unless it takes longer than a number of milliseconds. -/
def within {α : Type} (limit : Nat) (action : Async α) : Async (Option α) :=
  Async.race (some <$> action) do
    pause limit
    pure none

/-- Sends some octets and then those of the source, until that has closed. Closes the target, and
tells how many octets there were. -/
def copy (ahead : ByteArray) (source target : Peer) : Async Nat := do
  let mut count := ahead.size
  unless ahead.isEmpty do target.send ahead
  repeat
    match ← source.recv? 65536 with
    | some data =>
      target.send data
      count := count + data.size
    | none => break
  target.shutdown
  pure count

/-- Copies as long as there is no error, after which the other end is closed. -/
def copyAll (ahead : ByteArray) (source target : Peer) : Async (Option Nat) := do
  match ← attempt (copy ahead source target) with
  | .ok count => pure (some count)
  | .error _ =>
    let _ ← attempt target.shutdown
    pure none

/-- Writes log lines. -/
abbrev Journal := List LogLine → IO Unit

/-- A request that is being served. -/
structure Session where
  client : Peer
  visit : Visit
  journal : Journal
  /-- The response so far. -/
  delivery : IO.Ref Delivery
  /-- The client was told how its request ended. -/
  answered : IO.Ref Bool
  /-- Resolved when the connection is handed over. -/
  switched : IO.Promise Unit
  /-- The host that was connected to last, and the connection. -/
  backend : IO.Ref (Option (String × Peer))

namespace Session

/-- Claims the right to answer the client, which is there once. -/
def claim (s : Session) : IO Bool :=
  s.answered.modifyGet fun answered => (!answered, true)

/-- Sends the head of a response that hands the connection over, as soon as it is there. -/
def switch (s : Session) : Async Unit := do
  let some response := (← s.delivery.get).response? | return
  unless s.visit.isUpgraded response.status do return
  unless ← s.claim do return
  let response := Server.propagate s.visit.request response
  s.client.send (pack (Http1.upgradedBytes s.visit.isHttp11 (← date) response))
  s.switched.resolve ()

/-- Carries out a call on the response channel; none if it waits for ever. -/
def call (s : Session) (c : Call) : Async (Option c.Reply) := do
  let reply ← s.delivery.modifyGet fun d =>
    match Delivery.channel.perform c d with
    | .replied reply d => (some reply, d)
    | .waits d => (none, d)
  s.switch
  pure reply

/-- Connects to a backend. -/
def dial (s : Session) (host : String) (timeout : Nat) : Async Dial := do
  match ← within timeout (connect host) with
  | none => pure .timedOut
  | some (.error error) => pure (.failed error)
  | some (.ok peer) =>
    s.backend.set (some (host, peer))
    pure .connected

/-- Copies between the client and the backend until both have closed. What came from the client
together with its request goes first. -/
def relay (s : Session) (connection : Connection) : Async Relay := do
  let some (host, backend) ← s.backend.get | return ⟨0, []⟩
  let (toBackend, toClient) ← Async.concurrently
    (copyAll (pack connection.incoming) s.client backend) (copyAll .empty backend s.client)
  match toBackend, toClient with
  | some toBackend, some toClient =>
    s.journal [Server.tunnelClosed host toBackend toClient]
    pure ⟨toBackend, []⟩
  | _, _ => pure ⟨0, []⟩

/-- Carries out an effect; none if it has no answer ever. -/
def answer (s : Session) : (effect : Effect) → Async (Option effect.Reply)
  | .call c => s.call c
  | .transmit data => do
    let result ← attempt (s.client.send (pack data))
    pure (some (result.map fun () => data.length))
  | .dial host timeout => some <$> s.dial host timeout
  | .forward data => do
    match ← s.backend.get with
    | none => pure (some (.error .brokenPipe))
    | some (_, peer) => some <$> attempt (peer.send (pack data))
  | .relay connection => some <$> s.relay connection
  | .note _ _ => pure (some ())

/-- Runs a program. -/
def run {α : Type} (s : Session) : Program α → Async (Outcome α)
  | .returns value => pure (.returned value)
  | .panics => pure .panicked
  | .stalls => pure .pending
  | .perform effect next => do
    match ← s.answer effect with
    | none => pure .pending
    | some reply => s.run (next reply)

/-- Serves the request of a session, and logs how that ended. -/
def serve (s : Session) (server : Server) : Async (Outcome (Except HandlerError Unit)) := do
  let outcome ← s.run (server.pipeline.serve s.visit.request)
  if let .returned result := outcome then
    s.journal (Server.account result (← s.delivery.get).stream)
  pure outcome

/-- Gives up waiting for a response, which then has no receiver any more. -/
def abandon (s : Session) : IO Unit :=
  s.delivery.modify fun d =>
    let upgrade := d.stream.upgrade.map fun _ => UpgradeHandle.unavailable
    { d with stream := { d.stream with slot := .gone, upgrade } }

end Session

/-- What a session comes to first. -/
inductive Turn
  | ended (outcome : Outcome (Except HandlerError Unit))
  | switched
  | late

instance : Inhabited Turn := ⟨.late⟩

/-- Sends a whole response, unless the client was answered before. Tells whether it was sent. -/
def Session.respond (s : Session) (isLast : Bool) (response : Response) : Async Bool := do
  if ← s.claim then
    let request := s.visit.request
    let response := Server.propagate request response
    s.client.send
      (pack (Http1.wholeBytes s.visit.isHttp11 (← date) isLast request.method response))
    pure true
  else pure false

/-- Answers the request of a session. Tells whether its connection is still the server's. -/
def Session.conclude (s : Session) (server : Server) (isLast : Bool) : Async Bool := do
  let limit := 1000 * server.settings.timeouts.requestSecs
  let serving : AsyncTask (Outcome (Except HandlerError Unit)) ← async (s.serve server)
  let settle (outcome : Outcome (Except HandlerError Unit)) : Async Bool := do
    s.switched.resolve ()
    s.respond isLast (Server.settle ⟨outcome, ← s.delivery.get, []⟩)
  let turn ← Async.raceAll #[
    Turn.ended <$> await serving,
    do
      let _ ← await s.switched
      pure Turn.switched,
    do
      pause limit
      pure Turn.late]
  match turn with
  | .ended outcome => settle outcome
  | .switched => pure false
  | .late =>
    if (← s.delivery.get).response?.isSome then
      settle (← await serving)
    else
      s.abandon
      settle .pending

/-- A session for a request, and the octets that came after its head. -/
def Session.start (client : Peer) (journal : Journal) (head : Http1.RequestHead) (rest : Bytes) :
    Async Session := do
  let random ← IO.getRandomBytes (.ofNat RequestId.size)
  let id := Header.Value.ofString? (RequestId.text (unpack random))
  let request := id.elim head.request (Server.identify · head.request)
  let visit : Visit := { request, isHttp11 := head.isHttp11, sends := rest }
  pure {
    client, visit, journal
    delivery := ← IO.mkRef { stream := { upgrade := visit.handle } }
    answered := ← IO.mkRef false
    switched := ← IO.Promise.new
    backend := ← IO.mkRef none }

/-- More octets of a client; none when it has closed or the server is told to stop. -/
def receive (client : Peer) (stop : Std.CancellationToken) : Async (Option ByteArray) :=
  Selectable.one #[
    .case (client.recvSelector 16384) pure,
    .case stop.selector fun () => pure none]

/-- Serves a connection. -/
def serveConnection (server : Server) (journal : Journal) (stop : Std.CancellationToken)
    (client : Peer) : Async Unit := do
  let mut received : Bytes := []
  repeat
    match Http1.RequestHead.read received with
    | .incomplete =>
      match ← receive client stop with
      | some data => received := received ++ unpack data
      | none => break
    | .malformed =>
      client.send (pack (Http1.wholeBytes true (← date) true .get ⟨.badRequest, ∅, []⟩))
      break
    | .complete head rest =>
      let isLast := !head.mayFollow || (← stop.isCancelled)
      let session ← Session.start client journal head rest
      unless ← session.conclude server isLast do return
      if isLast then break
      received := rest
  client.shutdown

/-- Serves the connections that a listener takes, until the server is told to stop, and gives those
that are still served then. -/
def serve (server : Server) (journal : Journal) (stop : Std.CancellationToken)
    (listener : Listener) : Async (List (AsyncTask Unit)) := do
  let mut running : List (AsyncTask Unit) := []
  repeat
    let visitor ← Selectable.one #[
      .case listener.acceptSelector fun client => pure (some client),
      .case stop.selector fun () => pure none]
    let unfinished ← running.filterM fun task => return (← task.getState) != .finished
    match visitor with
    | none =>
      running := unfinished
      break
    | some client =>
      let task : AsyncTask Unit ← async (serveConnection server journal stop client)
      running := task :: unfinished
  pure running

end UpgradeBridge.Live
