import TsCli.Command.Writer
import TsCli.Session.Session

/-!
# The connection

A connection runs a session: each iteration of `Run` lets the application work, runs the timers,
waits for a datagram, processes it, and hands out the events. Whatever throws in there ends the run,
and `Run` reports it as `TransportError`.

What the world does is an input: what a wait comes back with, when the application asks to stop, and
what its handlers do to the connection.
-/

namespace TsCli

/-- `DisconnectReason`. -/
inductive DisconnectReason
  | localRequest
  | serverClosed
  | timeout
  | transportError
  deriving DecidableEq, Repr

/-- `DisconnectInfo`. -/
structure DisconnectInfo where
  reason : DisconnectReason := .localRequest
  serverReasonId : ℕ := 0
  message : Bytes := []
  deriving DecidableEq, Repr

/-- `ConnectionState`. -/
inductive ConnectionState
  | created
  | connecting
  | established
  | closed
  deriving DecidableEq, Repr

def milliseconds (n : ℤ) : ℤ := n * 1000000

/-- `std::chrono::ceil<std::chrono::milliseconds>`. -/
def ceilMilliseconds (duration : ℤ) : ℤ := milliseconds (-(-duration / 1000000))

namespace SessionTransport

/-- `SessionTransport::ReceiveTimeout`. -/
def receiveTimeout : ℤ := 30 * 1000000000

/-- `SessionTransport::NextDeadline`. -/
def nextDeadline (t : SessionTransport) : Option TimePoint :=
  (t.reliableCommands.pending.values.map fun pending =>
    min pending.nextRetry (pending.firstSent + ReliableCommandQueue.commandTimeout)).min?

/-- `SessionTransport::WaitTimeout`. -/
def waitTimeout (env : Environment) (maximum : ℤ) : Session ℤ := do
  let t ← get
  match t.nextDeadline with
  | none => return maximum
  | some deadline =>
    let time ← now env
    return if deadline ≤ time then 0 else min maximum (ceilMilliseconds (deadline - time))

/-- `SessionTransport::TimedOut`. -/
def timedOut (t : SessionTransport) (now : TimePoint) : Bool :=
  t.connected && t.lastReceiveAt < now && receiveTimeout ≤ now - t.lastReceiveAt

end SessionTransport

namespace Session

/-- `SetConnectionInfo( statistics ).Serialize()` at a time; it prints floating-point numbers. -/
abbrev SetConnectionInfo := ConnectionStatistics → TimePoint → Except Failure Bytes

variable (env : Environment) (setConnectionInfo : SetConnectionInfo)

/-- `SendConnectionInfo`. -/
def sendConnectionInfo : Program Unit := do
  let time ← onTransport (SessionTransport.now env)
  let s ← get
  let data ← Exec.lift (setConnectionInfo s.transport.statistics time)
  let _ ← onTransport (SessionTransport.sendCommand env data)

/-- `Session::ProcessTimers`. -/
def processTimers : Program Unit := do
  onTransport (SessionTransport.processTimers env)
  let s ← get
  if !s.connectionInfoRequested ∨ s.transport.reliableCommands.pending.size ≠ 0 then
    return ()
  else
    let time ← onTransport (SessionTransport.now env)
    if s.lastConnectionInfoSentAt.any fun sentAt => time - sentAt < milliseconds 1000 then
      return ()
    else
      modify fun s => { s with connectionInfoRequested := false, lastConnectionInfoSentAt := some time }
      sendConnectionInfo env setConnectionInfo

/-- `ClientDisconnect( reason ).Serialize()`. -/
def clientDisconnect (reason : Bytes) : Except Failure Bytes :=
  CommandWriter.writeCommand (ascii "clientdisconnect")
    [.write (ascii "reasonid") (ascii "8"), .write (ascii "reasonmsg") reason]

/-- `Session::Disconnect`. -/
def disconnect (reason : Bytes) : Program Unit := do
  let s ← get
  if s.clientId = 0 then
    throw (.runtimeError "Session is not logged in")
  else if s.disconnectPacketId.isSome then
    return ()
  else
    let data ← Exec.lift (clientDisconnect reason)
    let packetId ← onTransport (SessionTransport.sendCommand env data)
    modify fun s => { s with disconnectPacketId := some packetId }

/-- `Session::DisconnectPending`. -/
def disconnectPending (s : Session) : Bool :=
  s.disconnectPacketId.any fun packetId => s.transport.reliableCommands.contains packetId

/-- The time that `Poll` waits for a datagram at most. -/
def waitTimeout (timeout : ℤ) : Program ℤ := do
  let s ← get
  match s.transport.nextDeadline with
  | none => return timeout
  | some deadline =>
    let time ← onTransport (SessionTransport.now env)
    return if deadline ≤ time then 0 else min timeout (ceilMilliseconds (deadline - time))

end Session

/-- `Connection`: `m_State` and, from `Connect` on, `m_Session`. -/
structure Connection where
  state : ConnectionState := .created
  session : Session := {}

namespace Connection

abbrev Program := EStateM Failure Connection

/-- What `WaitReadable`, for a timeout, and `Receive` come back with: a datagram, or nothing, or an
error. -/
abbrev Received := ℤ → Except Failure (Option Bytes)

/-- What one iteration of `Run` meets. -/
structure Cycle where
  stopRequested : Bool := false
  cycleHandler : Option (Program Unit) := none
  received : Received := fun _ => .ok none

variable (env : Environment) (setConnectionInfo : Session.SetConnectionInfo)
  (eventHandler : SessionEvent → Program Unit)

/-- Work on `m_Session`. -/
def onSession {α : Type} (m : Session.Program α) : Program α :=
  Exec.zoom Connection.session (fun session c => { c with session }) m

/-- `RequireEstablished`. -/
def requireEstablished : Program Unit := do
  let c ← get
  Exec.lift (throwIf (c.state ≠ .established) "Connection is not established")

/-- The part of `Poll` before a datagram is processed. -/
def awaitPacket (timeout : ℤ) (received : Received) : Program (Option Bytes) := do
  requireEstablished
  onSession (Session.processTimers env setConnectionInfo)
  let wait ← onSession (Session.waitTimeout env timeout)
  Exec.lift (received wait)

/-- `Connection::Poll`. -/
def poll (timeout : ℤ) (received : Received) : Program Bool := do
  match ← awaitPacket env setConnectionInfo timeout received with
  | none => return false
  | some datagram =>
    onSession (Session.processPacket env datagram)
    return true

/-- The loop of `DispatchEvents` over the events that wait. -/
def dispatch : ℕ → Program Unit
  | 0 => return ()
  | waiting + 1 => do
    let c ← get
    match c.session.events with
    | [] => return ()
    | event :: events =>
      onSession (modify fun s => { s with events })
      eventHandler event
      dispatch waiting

/-- `Connection::DispatchEvents`, for a handler that leaves the events alone. -/
def dispatchEvents : Program Unit := do
  let c ← get
  dispatch eventHandler c.session.events.length

/-- `Connection::SessionEnded`. -/
def sessionEnded : Program (Option DisconnectInfo) := do
  let c ← get
  match c.session.serverRemoval with
  | some removal =>
    return some { reason := .serverClosed, serverReasonId := removal.reasonId, message := removal.message }
  | none =>
    let time ← onSession (Session.onTransport (SessionTransport.now env))
    if c.session.transport.timedOut time then
      return some {
        reason := .timeout
        message := ascii "No data received from the server for 30 seconds" }
    else
      return none

/-- The wait of `Run`, which a cycle handler shortens. -/
def Cycle.maximumWait (cycle : Cycle) : ℤ :=
  if cycle.cycleHandler.isSome then milliseconds 50 else milliseconds 250

/-- An iteration up to its datagram. -/
def Cycle.await (cycle : Cycle) : Program (Option Bytes) := do
  cycle.cycleHandler.getD (pure ())
  awaitPacket env setConnectionInfo cycle.maximumWait cycle.received

/-- The loop of `Run`. Nothing is returned while it goes on. -/
def runLoop : List Cycle → Program (Option DisconnectInfo)
  | [] => return none
  | cycle :: cycles => do
    if cycle.stopRequested then
      return some {}
    else
      cycle.cycleHandler.getD (pure ())
      let _ ← poll env setConnectionInfo cycle.maximumWait cycle.received
      dispatchEvents eventHandler
      match ← sessionEnded env with
      | some info => return some info
      | none => runLoop cycles

/-- The head of the loop of `DisconnectGracefully`: the timeout of the next poll while it goes on. -/
def nextPoll (deadline : TimePoint) : Program (Option ℤ) := do
  let c ← get
  if !c.session.disconnectPending then
    return none
  else
    let time ← onSession (Session.onTransport (SessionTransport.now env))
    return if deadline ≤ time then none
      else some (min (milliseconds 100) (ceilMilliseconds (deadline - time)))

/-- The loop of `DisconnectGracefully`. It returns the timeout of the next poll while it goes on. -/
def disconnectLoop (deadline : TimePoint) : List Received → Program (Option ℤ)
  | [] => nextPoll env deadline
  | received :: receives => do
    match ← nextPoll env deadline with
    | none => return none
    | some timeout =>
      let _ ← poll env setConnectionInfo timeout received
      dispatchEvents eventHandler
      disconnectLoop deadline receives

/-- `Connection::DisconnectGracefully`. -/
def disconnectGracefully (reason : Bytes) (receives : List Received) : Program (Option ℤ) := do
  onSession (Session.disconnect env reason)
  let time ← onSession (Session.onTransport (SessionTransport.now env))
  disconnectLoop env setConnectionInfo eventHandler (time + milliseconds 1500) receives

/-- What `Run` does inside its `try`. -/
def runBody (cycles : List Cycle) (farewell : List Received) : Program (Option DisconnectInfo) := do
  dispatchEvents eventHandler
  match ← runLoop env setConnectionInfo eventHandler cycles with
  | none => return none
  | some info =>
    if info.reason = .localRequest then
      match ← disconnectGracefully env setConnectionInfo eventHandler (ascii "Client disconnected")
        farewell with
      | some _ => return none
      | none => return some info
    else
      return some info

/-- The `try` of `Run`, and what is behind it. -/
def report (body : Program (Option DisconnectInfo)) : Program (Option DisconnectInfo) := fun c =>
  match body c with
  | .ok (some info) c => .ok (some info) { c with state := .closed }
  | .ok none c => .ok none c
  | .error (.runtimeError message) c =>
    .ok (some { reason := .transportError, message := ascii message }) { c with state := .closed }
  | .error failure c => .error failure c

/-- `Connection::Run`: the iterations, and what the polls of the farewell come back with. Nothing is
returned while it goes on. -/
def run (cycles : List Cycle) (farewell : List Received) : Program (Option DisconnectInfo) := do
  requireEstablished
  report (runBody env setConnectionInfo eventHandler cycles farewell)

end Connection

end TsCli
