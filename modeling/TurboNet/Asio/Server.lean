import Mathlib.Data.List.Basic
import Mathlib.Tactic.Common
import TurboNet.Common.Machine
import TurboNet.Common.Table
import TurboNet.Common.Timer
import TurboNet.Asio.Packet

/-!
# The asio server

Reference: `claude/asio_server.cpp`, `TcpServer`, `Connection::processPacket`.

`TcpServer.step` is the server as a machine. Its handlers run on a pool of threads and its public
methods may be called from any thread, so a function that takes a lock more than once, or draws a
number before it takes one, is several steps: `sendRequest` draws a number, hands the packet to the
connection, inserts into `pendingRequests_` and arms the timer; `checkTimeouts` sweeps and then arms
the timer again or gives up.

A packet that a connection has received is first passed to the callback the connection was started
with, and answered when that returns. `start` installs a callback that calls `handleIncomingPacket`,
which calls `packetCallback_` in turn; each call of `handleIncomingPacket` is a step of its own. A
connection works on its strand, so it takes up no packet while such a call for an earlier one is
under way.

How a connection reads and writes bytes is not part of this model: a packet comes in as a whole, and
what is handed to `sendPacket` is recorded in order. Connections are numbered by their place among
all that have been accepted; their ids are drawn from `nextConnectionId_`, and come again when it
has gone round.
-/

namespace TurboNet.Asio

open Common

/-- `packetCallback_`: not set, set by the application, or set by `start`. -/
inductive PacketCallback where
  | unset
  | user
  | redirect
deriving DecidableEq, Repr

/-- A packet handed to `Connection::sendPacket`. -/
structure Outgoing where
  packet : Packet
  /-- History: the number of the received packet that `processPacket` answers with it. -/
  answers : Option ℕ
deriving DecidableEq, Repr

structure Connection where
  id : Int32
  /-- The callback it was started with. -/
  packetCallback : PacketCallback
  /-- It is in `connections_`. -/
  registered : Bool := true
  /-- History: the packets `processPacket` has been called with. -/
  received : List Packet := []
  /-- History: the packets handed to `sendPacket`. -/
  sent : List Outgoing := []
deriving DecidableEq, Repr

namespace Connection

/-- `sendPacket`. -/
def sendPacket (c : Connection) (answers : Option ℕ) (p : Packet) : Connection :=
  { c with sent := c.sent ++ [⟨p, answers⟩] }

/-- `sendData`. -/
def sendData (c : Connection) (answers : Option ℕ) (p : TurboNet.Packet) : Connection :=
  c.sendPacket answers (createPacket p)

/-- `processPacket` has been called with a packet. -/
def receive (p : Packet) (c : Connection) : Connection := { c with received := c.received ++ [p] }

/-- The rest of `processPacket` when the callback has returned: the automatic answer to the packet,
which was the `i`-th that came in. -/
def answer (serverId : List UInt8) (c : Connection) (i : ℕ) (p : Packet) : Connection :=
  if p.header.packetId = idBind then
    c.sendData (some i) ⟨idBindResp, 0, p.header.sequence, serverId⟩
  else if p.header.packetId = idRequest then
    c.sendData (some i) ⟨idResponse, 0, p.header.sequence, p.payload⟩
  else c

end Connection

structure PendingRequest where
  expiryTime : ℕ
  connectionId : Int32
  /-- The callback is set. -/
  callback : Bool
  /-- History: the number of the `sendRequest` call that made the entry. -/
  call : ℕ
deriving DecidableEq, Repr

/-- Where a call of `sendRequest` has got to. -/
inductive RequestPhase where
  | drawn
  | sent
  | registered
  | done
  | failed
deriving DecidableEq, Repr

/-- A call of `sendRequest`: its arguments and the number it has drawn. Timeouts are not
negative. -/
structure RequestCall where
  connectionId : Int32
  data : List UInt8
  timeout : ℕ
  responseCallback : Bool
  timeoutCallback : Bool
  sequence : UInt32
  phase : RequestPhase := .drawn
deriving DecidableEq, Repr

/-- What is in `timeoutCallback_`: the callback of `setTimeoutCallback`, or the one that came with a
request. -/
inductive TimeoutCallback where
  | global
  | ofCall (k : ℕ)
deriving DecidableEq, Repr

/-- A call of `handleIncomingPacket` that is under way: its arguments, the number of the connection
whose `processPacket` waits for it, and that of the packet among those the connection has
received. -/
structure Dispatch where
  connection : ℕ
  connectionId : Int32
  packet : Packet
  index : ℕ
deriving DecidableEq, Repr

/-- An entry that `handleIncomingPacket` took out of `pendingRequests_`, with its own arguments, and
whether it called the callback of the entry. -/
structure Taken where
  call : ℕ
  connectionId : Int32
  packet : Packet
  invoked : Bool
deriving DecidableEq, Repr

structure TcpServer where
  /-- The steady clock. -/
  now : ℕ := 0
  started : Bool := false
  packetCallback : PacketCallback := .unset
  nextConnectionId : Int32 := 1
  /-- All connections that have been accepted. -/
  connections : List Connection := []
  nextSequence : UInt32 := 1
  pendingRequests : Std.TreeMap UInt32 PendingRequest := ∅
  timeoutTimer : Timer Unit := {}
  timeoutTimerRunning : Bool := false
  timeoutCallback : Option TimeoutCallback := none
  /-- The calls of `checkTimeouts` after the sweep, with their `hasPending`. -/
  sweeps : List Bool := []
  /-- The calls of `handleIncomingPacket` under way. -/
  dispatches : List Dispatch := []
  /-- All calls of `sendRequest`. -/
  calls : List RequestCall := []
  /-- History: the entries taken out by `handleIncomingPacket`. -/
  taken : List Taken := []
  /-- History: the packets passed to the application's packet callback. -/
  userPackets : List (Int32 × Packet) := []
  /-- History: the calls of timeout callbacks. -/
  timeouts : List (TimeoutCallback × UInt32) := []

namespace TcpServer

/-! ## Sending -/

/-- Do something to the connection with this number. -/
def updateConnection (t : TcpServer) (j : ℕ) (f : Connection → Connection) : TcpServer :=
  { t with connections := t.connections.modify j f }

/-- Do something to the connections of a kind. -/
def updateWhere (t : TcpServer) (p : Connection → Bool) (f : Connection → Connection) : TcpServer :=
  { t with connections := t.connections.map fun c => if p c then f c else c }

/-- `connections_` has a connection with this id. -/
def isRegistered (t : TcpServer) (id : Int32) : Bool :=
  t.connections.any fun c => c.registered && c.id = id

/-- `sendPacketTo`. -/
def sendPacketTo (t : TcpServer) (id : Int32) (p : Packet) : TcpServer :=
  t.updateWhere (fun c => c.registered && c.id = id) (·.sendPacket none p)

/-- `broadcastPacket`. -/
def broadcastPacket (t : TcpServer) (p : Packet) : TcpServer :=
  t.updateWhere (·.registered) (·.sendPacket none p)

/-- `getNextSequence`. -/
def getNextSequence (t : TcpServer) : TcpServer := { t with nextSequence := t.nextSequence + 1 }

/-- `sendTo`. -/
def sendTo (t : TcpServer) (id : Int32) (packetId status : UInt8) (data : List UInt8) : TcpServer :=
  t.getNextSequence.sendPacketTo id (createPacket ⟨packetId, status, t.nextSequence, data⟩)

/-- `broadcast`. -/
def broadcast (t : TcpServer) (packetId status : UInt8) (data : List UInt8) : TcpServer :=
  t.getNextSequence.broadcastPacket (createPacket ⟨packetId, status, t.nextSequence, data⟩)

/-! ## Requests -/

/-- A call of `sendRequest` goes on to a phase. -/
def setPhase (t : TcpServer) (k : ℕ) (c : RequestCall) (phase : RequestPhase) : TcpServer :=
  { t with calls := t.calls.set k { c with phase := phase } }

/-- `sendRequest` up to the number. -/
def sendRequest (t : TcpServer) (id : Int32) (data : List UInt8) (timeout : ℕ)
    (responseCallback timeoutCallback : Bool) : TcpServer :=
  { t.getNextSequence with calls := t.calls ++
      [⟨id, data, timeout, responseCallback, timeoutCallback, t.nextSequence, .drawn⟩] }

/-- `sendRequest` hands the packet to the connection, or returns 0. -/
def sendDrawn (t : TcpServer) (k : ℕ) (c : RequestCall) : TcpServer :=
  if t.isRegistered c.connectionId then
    (t.sendPacketTo c.connectionId (createPacket ⟨idRequest, 0, c.sequence, c.data⟩)).setPhase k c
      .sent
  else t.setPhase k c .failed

/-- `sendRequest` inserts into `pendingRequests_`. -/
def register (t : TcpServer) (k : ℕ) (c : RequestCall) : TcpServer :=
  -- there is one timeout callback for all requests, the last one that was passed
  { t.setPhase k c .registered with
    pendingRequests := t.pendingRequests.insert c.sequence
      ⟨t.now + c.timeout, c.connectionId, c.responseCallback, k⟩
    timeoutCallback := if c.timeoutCallback then some (.ofCall k) else t.timeoutCallback }

/-- `expires_after(100ms)` and `async_wait`. -/
def armTimer (t : TcpServer) : TcpServer :=
  { t with timeoutTimer := t.timeoutTimer.arm (t.now + 100) () }

/-- `sendRequest` makes sure that the timer runs, and returns. -/
def ensureTimer (t : TcpServer) (k : ℕ) (c : RequestCall) : TcpServer :=
  let t := t.setPhase k c .done
  if t.timeoutTimerRunning then t else { t with timeoutTimerRunning := true }.armTimer

/-- `cancelRequest`. -/
def cancelRequest (t : TcpServer) (sequence : UInt32) : TcpServer :=
  { t with pendingRequests := t.pendingRequests.erase sequence }

/-- The sequences of expired requests, in the order of the map. -/
def expiredSequences (t : TcpServer) : List UInt32 :=
  keysWhere t.pendingRequests fun e => e.expiryTime ≤ t.now

/-- `checkTimeouts` up to the end of the sweep. -/
def sweep (t : TcpServer) : TcpServer :=
  let pending := eraseAll t.pendingRequests t.expiredSequences
  { t with
    pendingRequests := pending
    timeouts := t.timeouts ++
      t.timeoutCallback.toList.flatMap fun f => t.expiredSequences.map (f, ·)
    sweeps := t.sweeps ++ [!pending.isEmpty] }

/-- The rest of `checkTimeouts`. -/
def finishSweep (t : TcpServer) (hasPending : Bool) : TcpServer :=
  if hasPending then t.armTimer else { t with timeoutTimerRunning := false }

/-! ## Packets from connections -/

/-- The handler of `async_accept`. -/
def accepted (t : TcpServer) (error : Bool) : TcpServer :=
  { t with
    nextConnectionId := t.nextConnectionId + 1
    connections := if error then t.connections else
      -- a connection that still has this id in `connections_` is overwritten
      (t.updateWhere (·.id = t.nextConnectionId) ({ · with registered := false })).connections ++
        [⟨t.nextConnectionId, t.packetCallback, true, [], []⟩] }

/-- The `j`-th connection, if no packet of it is being handled. -/
def idle (t : TcpServer) (j : ℕ) : Option Connection :=
  if t.dispatches.any (·.connection = j) then none else t.connections[j]?

/-- The callback of a connection has returned. -/
def callbackDone (serverId : List UInt8) (t : TcpServer) (d : Dispatch) : TcpServer :=
  t.updateConnection d.connection fun c => c.answer serverId d.index d.packet

/-- `packetCallback_` is called, by `processPacket` or by `handleIncomingPacket`. -/
def callBack (serverId : List UInt8) (t : TcpServer) (callback : PacketCallback) (d : Dispatch) :
    TcpServer :=
  match callback with
  | .unset => t.callbackDone serverId d
  | .user => { t with
      userPackets := t.userPackets ++ [(d.connectionId, d.packet)] }.callbackDone serverId d
  -- a new call of `handleIncomingPacket`, also when it is one itself that calls
  | .redirect => { t with dispatches := t.dispatches ++ [d] }

/-- `processPacket` of the `j`-th connection, up to the return of its callback. -/
def processPacket (serverId : List UInt8) (t : TcpServer) (j : ℕ) (c : Connection) (p : Packet) :
    TcpServer :=
  (t.updateConnection j (Connection.receive p)).callBack serverId c.packetCallback
    ⟨j, c.id, p, c.received.length⟩

/-- The first half of `handleIncomingPacket`: look for a request that the packet answers. -/
def takePending (t : TcpServer) (d : Dispatch) : TcpServer :=
  if d.packet.header.packetId = idResponse then
    -- the connection of the entry is not looked at
    match t.pendingRequests[d.packet.header.sequence]? with
    | some e => { t with
        pendingRequests := t.pendingRequests.erase d.packet.header.sequence
        taken := t.taken ++ [⟨e.call, d.connectionId, d.packet, e.callback⟩] }
    | none => t
  else t

/-- `handleIncomingPacket`, up to the return of `packetCallback_`. -/
def handleIncomingPacket (serverId : List UInt8) (t : TcpServer) (d : Dispatch) : TcpServer :=
  let t := t.takePending d
  t.callBack serverId t.packetCallback d

/-! ## The server as a machine -/

inductive Event where
  /-- `start`, `setCallbacks` and `setTimeoutCallback`. -/
  | start
  | setCallbacks (set : Bool)
  | setTimeoutCallback (set : Bool)
  /-- The handler of `async_accept` runs; `unregisterConnection` runs. -/
  | accept (error : Bool)
  | unregisterConnection (id : Int32)
  /-- The `j`-th connection has received a packet. -/
  | processPacket (j : ℕ) (p : Packet)
  /-- The `j`-th of the calls of `handleIncomingPacket` runs. -/
  | handleIncomingPacket (j : ℕ)
  /-- The steps of `sendRequest`. -/
  | sendRequest (id : Int32) (data : List UInt8) (timeout : ℕ)
      (responseCallback timeoutCallback : Bool)
  | sendDrawn (k : ℕ)
  | register (k : ℕ)
  | ensureTimer (k : ℕ)
  /-- Other calls of the public interface. -/
  | cancelRequest (sequence : UInt32)
  | sendPacketTo (id : Int32) (p : Packet)
  | sendTo (id : Int32) (packetId status : UInt8) (data : List UInt8)
  | broadcastPacket (p : Packet)
  | broadcast (packetId status : UInt8) (data : List UInt8)
  /-- Time passes; the wait of the timer expires; its handler runs, in two halves, or with an
  error. -/
  | tick (d : ℕ)
  | expire
  | sweep
  | finishSweep (j : ℕ)
  | timerAborted

/-- The call of `sendRequest` with this number, if it is in this phase. -/
def callIn (t : TcpServer) (k : ℕ) (phase : RequestPhase) : Option RequestCall :=
  t.calls[k]?.filter (·.phase = phase)

def step (serverId : List UInt8) (t : TcpServer) : Event → Option TcpServer
  | .start => some { t with started := true, packetCallback := .redirect }
  | .setCallbacks set => some { t with packetCallback := if set then .user else .unset }
  | .setTimeoutCallback set => some { t with
      timeoutCallback := if set then some .global else none }
  | .accept error => if t.started then some (t.accepted error) else none
  | .unregisterConnection id => some (t.updateWhere (·.id = id) fun c =>
      { c with registered := false })
  | .processPacket j p => (t.idle j).map fun c => t.processPacket serverId j c p
  | .handleIncomingPacket j => t.dispatches[j]?.map fun d =>
      { t with dispatches := t.dispatches.eraseIdx j }.handleIncomingPacket serverId d
  | .sendRequest id data timeout responseCallback timeoutCallback =>
    some (t.sendRequest id data timeout responseCallback timeoutCallback)
  | .sendDrawn k => (t.callIn k .drawn).map (t.sendDrawn k)
  | .register k => (t.callIn k .sent).map (t.register k)
  | .ensureTimer k => (t.callIn k .registered).map (t.ensureTimer k)
  | .cancelRequest sequence => some (t.cancelRequest sequence)
  | .sendPacketTo id p => some (t.sendPacketTo id p)
  | .sendTo id packetId status data => some (t.sendTo id packetId status data)
  | .broadcastPacket p => some (t.broadcastPacket p)
  | .broadcast packetId status data => some (t.broadcast packetId status data)
  | .tick d => some { t with now := t.now + d }
  | .expire => (t.timeoutTimer.expire t.now).map fun timer => { t with timeoutTimer := timer }
  | .sweep => t.timeoutTimer.takeDue.map fun (_, timer) => { t with timeoutTimer := timer }.sweep
  | .finishSweep j => t.sweeps[j]?.map fun hasPending =>
      { t with sweeps := t.sweeps.eraseIdx j }.finishSweep hasPending
  | .timerAborted => t.timeoutTimer.takeAborted.map fun (_, timer) =>
      { t with timeoutTimer := timer, timeoutTimerRunning := false }

/-- The steps, each with its guard and the state that it leads to. -/
inductive Stepped (serverId : List UInt8) (t : TcpServer) : Event → TcpServer → Prop where
  | start : Stepped serverId t .start { t with started := true, packetCallback := .redirect }
  | setCallbacks (set : Bool) : Stepped serverId t (.setCallbacks set)
      { t with packetCallback := if set then .user else .unset }
  | setTimeoutCallback (set : Bool) : Stepped serverId t (.setTimeoutCallback set)
      { t with timeoutCallback := if set then some .global else none }
  | accept (error : Bool) (hstarted : t.started = true) :
      Stepped serverId t (.accept error) (t.accepted error)
  | unregisterConnection (id : Int32) : Stepped serverId t (.unregisterConnection id)
      (t.updateWhere (·.id = id) fun c => { c with registered := false })
  | processPacket (j : ℕ) (p : Packet) (c : Connection) (hc : t.idle j = some c) :
      Stepped serverId t (.processPacket j p) (t.processPacket serverId j c p)
  | handleIncomingPacket (j : ℕ) (d : Dispatch) (hd : t.dispatches[j]? = some d) :
      Stepped serverId t (.handleIncomingPacket j)
        ({ t with dispatches := t.dispatches.eraseIdx j }.handleIncomingPacket serverId d)
  | sendRequest (id : Int32) (data : List UInt8) (timeout : ℕ)
      (responseCallback timeoutCallback : Bool) :
      Stepped serverId t (.sendRequest id data timeout responseCallback timeoutCallback)
        (t.sendRequest id data timeout responseCallback timeoutCallback)
  | sendDrawn (k : ℕ) (c : RequestCall) (hcall : t.callIn k .drawn = some c) :
      Stepped serverId t (.sendDrawn k) (t.sendDrawn k c)
  | register (k : ℕ) (c : RequestCall) (hcall : t.callIn k .sent = some c) :
      Stepped serverId t (.register k) (t.register k c)
  | ensureTimer (k : ℕ) (c : RequestCall) (hcall : t.callIn k .registered = some c) :
      Stepped serverId t (.ensureTimer k) (t.ensureTimer k c)
  | cancelRequest (sequence : UInt32) :
      Stepped serverId t (.cancelRequest sequence) (t.cancelRequest sequence)
  | sendPacketTo (id : Int32) (p : Packet) :
      Stepped serverId t (.sendPacketTo id p) (t.sendPacketTo id p)
  | sendTo (id : Int32) (packetId status : UInt8) (data : List UInt8) :
      Stepped serverId t (.sendTo id packetId status data) (t.sendTo id packetId status data)
  | broadcastPacket (p : Packet) :
      Stepped serverId t (.broadcastPacket p) (t.broadcastPacket p)
  | broadcast (packetId status : UInt8) (data : List UInt8) :
      Stepped serverId t (.broadcast packetId status data) (t.broadcast packetId status data)
  | tick (d : ℕ) : Stepped serverId t (.tick d) { t with now := t.now + d }
  | expire (timer : Timer Unit) (htimer : t.timeoutTimer.expire t.now = some timer) :
      Stepped serverId t .expire { t with timeoutTimer := timer }
  | sweep (timer : Timer Unit) (htimer : t.timeoutTimer.takeDue = some ((), timer)) :
      Stepped serverId t .sweep { t with timeoutTimer := timer }.sweep
  | finishSweep (j : ℕ) (hasPending : Bool) (hj : t.sweeps[j]? = some hasPending) :
      Stepped serverId t (.finishSweep j)
        ({ t with sweeps := t.sweeps.eraseIdx j }.finishSweep hasPending)
  | timerAborted (timer : Timer Unit) (htimer : t.timeoutTimer.takeAborted = some ((), timer)) :
      Stepped serverId t .timerAborted
        { t with timeoutTimer := timer, timeoutTimerRunning := false }

/-- A step has its guard and its state, as listed. -/
theorem stepped_of_step {serverId : List UInt8} {t t' : TcpServer} {e : Event}
    (h : step serverId t e = some t') : Stepped serverId t e t' := by
  cases e with
  | accept error =>
    obtain ⟨hstarted, heq⟩ := Option.ite_none_right_eq_some.mp h
    cases heq
    exact .accept error hstarted
  | processPacket j p =>
    obtain ⟨c, hc, rfl⟩ := Option.map_eq_some_iff.mp h
    exact .processPacket j p c hc
  | handleIncomingPacket j =>
    obtain ⟨d, hd, rfl⟩ := Option.map_eq_some_iff.mp h
    exact .handleIncomingPacket j d hd
  | sendDrawn k =>
    obtain ⟨c, hcall, rfl⟩ := Option.map_eq_some_iff.mp h
    exact .sendDrawn k c hcall
  | register k =>
    obtain ⟨c, hcall, rfl⟩ := Option.map_eq_some_iff.mp h
    exact .register k c hcall
  | ensureTimer k =>
    obtain ⟨c, hcall, rfl⟩ := Option.map_eq_some_iff.mp h
    exact .ensureTimer k c hcall
  | expire =>
    obtain ⟨timer, htimer, rfl⟩ := Option.map_eq_some_iff.mp h
    exact .expire timer htimer
  | sweep =>
    obtain ⟨⟨_, timer⟩, htimer, rfl⟩ := Option.map_eq_some_iff.mp h
    exact .sweep timer htimer
  | finishSweep j =>
    obtain ⟨hasPending, hj, rfl⟩ := Option.map_eq_some_iff.mp h
    exact .finishSweep j hasPending hj
  | timerAborted =>
    obtain ⟨⟨_, timer⟩, htimer, rfl⟩ := Option.map_eq_some_iff.mp h
    exact .timerAborted timer htimer
  -- the other events can always happen
  | _ =>
    cases h
    constructor

end TcpServer

end TurboNet.Asio
