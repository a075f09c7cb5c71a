import Mathlib.Data.List.Basic
import Mathlib.Tactic.Common
import TurboNet.Common.Lists
import TurboNet.Common.Machine
import TurboNet.Common.Table
import TurboNet.Common.Timer
import TurboNet.Asio.Packet

/-!
# The asio client

Reference: `claude/asio_client.cpp`, `TcpClient`.

`TcpClient.step` is the client as a machine: its connection life cycle and its requests. The public
methods may be called from any thread, so `sendRequest` is several steps: it looks at `connected_`,
draws a number, hands the packet to `sendPacket`, which looks at `connected_` again, inserts into
`pending_requests_` and posts the handler that arms the timer. `sendRequestSync` is `sendRequest`
followed by a wait and perhaps `cancelRequest`. What runs on the strand runs one handler after
another. Three of these handlers are several steps, between which other threads may take theirs:
`checkTimeouts` sweeps and then waits again; the handler of a connection that has been made tells
the application, draws a number for the `BIND` packet and sends it; and `handleDisconnect` tells the
application and then drops the requests.

How bytes are read and written is not part of this model: a packet comes in as a whole, and what
`sendPacket` accepts is recorded in order. Timer handlers do nothing when there is an error, and
have no step then. `timeout_callback_` and `connection_status_callback_` are taken to be set.
-/

namespace TurboNet.Asio

open Common

namespace TcpClient

/-- The promise of an entry is never used. -/
structure PendingRequest where
  expiryTime : ℕ
  /-- The callback is set. -/
  callback : Bool
  /-- History: the number of the `sendRequest` call that made the entry. -/
  call : ℕ
deriving DecidableEq, Repr

/-- Where a call of `sendRequest` has got to. -/
inductive RequestPhase where
  | checked
  | drawn
  | sent
  | registered
  | done
  | failed
deriving DecidableEq, Repr

/-- A call of `sendRequest`: its arguments and the number it has drawn, 0 before that. Timeouts are
not negative. -/
structure RequestCall where
  data : List UInt8
  timeout : ℕ
  responseCallback : Bool
  sequence : UInt32 := 0
  phase : RequestPhase := .checked
deriving DecidableEq, Repr

/-- An entry that `processPacket` took out of `pending_requests_`: the number of the packet among
those that have come in, and whether the callback of the entry was called with it. -/
structure Completed where
  call : ℕ
  packet : Packet
  index : ℕ
  invoked : Bool
deriving DecidableEq, Repr

/-- A handler that is half way: `checkTimeouts` after its sweep, with its `hasPending`; and the
handler of a connection that has been made, before it draws a number for `BIND` and before it sends
it; and `handleDisconnect` when it has told the application. -/
inductive Handler where
  | checkTimeouts (hasPending : Bool)
  | connected
  | bind (sequence : UInt32)
  | disconnecting
deriving DecidableEq, Repr

end TcpClient

open TcpClient in
structure TcpClient where
  /-- The steady clock. -/
  now : ℕ := 0
  connected : Bool := false
  reconnectEnabled : Bool := false
  /-- The handlers posted by `connect`, and the attempts that resolve the name or connect. -/
  posted : ℕ := 0
  connecting : ℕ := 0
  reconnectTimer : Timer Unit := {}
  nextSequence : UInt32 := 1
  pendingRequests : Std.TreeMap UInt32 PendingRequest := ∅
  timer : Timer Unit := {}
  /-- The handlers posted by `startTimeoutTimer`. -/
  timerPosts : ℕ := 0
  /-- The handler on the strand that is half way. -/
  handler : Option Handler := none
  /-- All calls of `sendRequest`. -/
  calls : List RequestCall := []
  /-- History: the packets that `sendPacket` has accepted. -/
  sent : List Packet := []
  /-- History: the packets that `processPacket` has been called with. -/
  received : List Packet := []
  /-- History: the entries taken out by `processPacket`. -/
  completed : List Completed := []
  /-- History: the calls of `timeout_callback_` and of `connection_status_callback_`. -/
  timeouts : List UInt32 := []
  statuses : List Bool := []
  /-- History: the calls of `cancelRequest` that returned true. -/
  cancelled : List UInt32 := []
  /-- History: how many numbers `getNextSequence` has given. -/
  drawn : ℕ := 0

namespace TcpClient

/-! ## Sending -/

/-- `getNextSequence`. -/
def getNextSequence (t : TcpClient) : TcpClient :=
  { t with nextSequence := t.nextSequence + 1, drawn := t.drawn + 1 }

/-- `sendPacket`. -/
def sendPacket (t : TcpClient) (p : Packet) : TcpClient :=
  if t.connected then { t with sent := t.sent ++ [p] } else t

/-- `sendBindPacket` draws its number. -/
def drawBind (t : TcpClient) : TcpClient :=
  { t.getNextSequence with handler := some (.bind t.nextSequence) }

/-- `sendBindPacket` calls `sendPacket`. -/
def sendBind (clientId : List UInt8) (t : TcpClient) (sequence : UInt32) : TcpClient :=
  { t with handler := none }.sendPacket (createPacket ⟨idBind, 0, sequence, clientId⟩)

/-! ## Requests -/

/-- `sendRequest` looks at `connected_`. -/
def sendRequest (t : TcpClient) (data : List UInt8) (timeout : ℕ) (responseCallback : Bool) :
    TcpClient :=
  { t with calls := t.calls ++
      [⟨data, timeout, responseCallback, 0, if t.connected then .checked else .failed⟩] }

/-- A call of `sendRequest` goes on. -/
def setCall (t : TcpClient) (k : ℕ) (c : RequestCall) : TcpClient :=
  { t with calls := t.calls.set k c }

/-- `sendRequest` draws its number. -/
def draw (t : TcpClient) (k : ℕ) (c : RequestCall) : TcpClient :=
  t.getNextSequence.setCall k { c with sequence := t.nextSequence, phase := .drawn }

/-- `sendRequest` calls `sendPacket`, and returns 0 if that fails. -/
def sendDrawn (t : TcpClient) (k : ℕ) (c : RequestCall) : TcpClient :=
  (t.sendPacket (createPacket ⟨idRequest, 0, c.sequence, c.data⟩)).setCall k
    { c with phase := if t.connected then .sent else .failed }

/-- `sendRequest` inserts into `pending_requests_`. -/
def register (t : TcpClient) (k : ℕ) (c : RequestCall) : TcpClient :=
  { t.setCall k { c with phase := .registered } with
    pendingRequests := t.pendingRequests.insert c.sequence
      ⟨t.now + c.timeout, c.responseCallback, k⟩ }

/-- `sendRequest` calls `startTimeoutTimer` and returns. -/
def startTimeoutTimer (t : TcpClient) (k : ℕ) (c : RequestCall) : TcpClient :=
  { t.setCall k { c with phase := .done } with timerPosts := t.timerPosts + 1 }

/-- `expires_after(100ms)` and `async_wait`. -/
def armTimer (t : TcpClient) : TcpClient :=
  { t with timer := t.timer.arm (t.now + 100) () }

/-- The handler posted by `startTimeoutTimer`. -/
def runTimerPost (t : TcpClient) : TcpClient :=
  let t := { t with timerPosts := t.timerPosts - 1 }
  if t.pendingRequests.isEmpty then t else t.armTimer

/-- `cancelRequest`. -/
def cancelRequest (t : TcpClient) (sequence : UInt32) : TcpClient :=
  { t with
    pendingRequests := t.pendingRequests.erase sequence
    cancelled := t.cancelled ++ if t.pendingRequests.contains sequence then [sequence] else [] }

/-- The sequences of expired requests, in the order of the map. -/
def expiredSequences (t : TcpClient) : List UInt32 :=
  keysWhere t.pendingRequests fun r => r.expiryTime ≤ t.now

/-- `checkTimeouts` up to the calls of the timeout callback. -/
def sweep (t : TcpClient) : TcpClient :=
  let pending := eraseAll t.pendingRequests t.expiredSequences
  { t with
    pendingRequests := pending
    timeouts := t.timeouts ++ t.expiredSequences
    handler := some (.checkTimeouts !pending.isEmpty) }

/-- The rest of `checkTimeouts`. -/
def finishSweep (t : TcpClient) (hasPending : Bool) : TcpClient :=
  let t := { t with handler := none }
  if hasPending then t.armTimer else t

/-- `processPacket`. -/
def processPacket (t : TcpClient) (p : Packet) : TcpClient :=
  let t' := { t with received := t.received ++ [p] }
  if p.header.packetId = idResponse then
    -- any `RESPONSE` will do that has the sequence, whatever made the server send it
    match t.pendingRequests[p.header.sequence]? with
    | some r => { t' with
        pendingRequests := t.pendingRequests.erase p.header.sequence
        completed := t.completed ++ [⟨r.call, p, t.received.length, r.callback⟩] }
    | none => t'
  else t'

/-! ## The connection -/

/-- `connect`. -/
def connect (t : TcpClient) : TcpClient := { t with posted := t.posted + 1 }

/-- The handler posted by `connect`. -/
def runConnect (t : TcpClient) : TcpClient :=
  { t with posted := t.posted - 1, connected := false, connecting := t.connecting + 1 }

/-- `scheduleReconnect`. -/
def scheduleReconnect (t : TcpClient) : TcpClient :=
  if t.reconnectEnabled then { t with reconnectTimer := t.reconnectTimer.arm (t.now + 3000) () }
  else t

/-- The handler of the reconnect timer. -/
def reconnect (t : TcpClient) : TcpClient := if t.reconnectEnabled then t.connect else t

/-- The handlers of `async_resolve` and `async_connect`, when the attempt is over. -/
def connectDone (t : TcpClient) (error : Bool) : TcpClient :=
  let t := { t with connecting := t.connecting - 1 }
  if error then t.scheduleReconnect
  else { t with connected := true, statuses := t.statuses ++ [true], handler := some .connected }

/-- `handleDisconnect` up to the call of the status callback. -/
def handleDisconnect (t : TcpClient) : TcpClient :=
  if t.connected then
    { t with
      connected := false
      statuses := t.statuses ++ [false]
      handler := some .disconnecting }
  else t

/-- The rest of `handleDisconnect`. -/
def clearRequests (t : TcpClient) : TcpClient :=
  -- no callback is told about the requests that are dropped
  { t with handler := none, pendingRequests := ∅ }.scheduleReconnect

/-- `stop`, up to the end of the thread. -/
def stop (t : TcpClient) : TcpClient :=
  { t with
    reconnectEnabled := false
    timer := t.timer.cancel
    reconnectTimer := t.reconnectTimer.cancel }

/-! ## The client as a machine -/

inductive Event where
  | start
  | stop
  | setAutoReconnect (enabled : Bool)
  /-- The handlers of `connect`. -/
  | runConnect
  | connectDone (error : Bool)
  | drawBind
  | sendBind
  /-- A read or a write has failed; the requests are dropped. -/
  | handleDisconnect
  | clearRequests
  /-- A packet has come in. -/
  | processPacket (p : Packet)
  /-- The steps of `sendRequest`. -/
  | sendRequest (data : List UInt8) (timeout : ℕ) (responseCallback : Bool)
  | draw (k : ℕ)
  | sendDrawn (k : ℕ)
  | register (k : ℕ)
  | startTimeoutTimer (k : ℕ)
  /-- Other calls of the public interface. -/
  | sendPacket (p : Packet)
  | cancelRequest (sequence : UInt32)
  /-- Time passes; the waits of the timers expire; their handlers run. -/
  | tick (d : ℕ)
  | runTimerPost
  | expire
  | sweep
  | finishSweep
  | reconnectExpire
  | reconnect
deriving DecidableEq

/-- The call of `sendRequest` with this number, if it is in this phase. -/
def callIn (t : TcpClient) (k : ℕ) (phase : RequestPhase) : Option RequestCall :=
  t.calls[k]?.filter (·.phase = phase)

/-- A new handler can run on the strand. -/
def onStrand (t : TcpClient) (handler : Option TcpClient) : Option TcpClient :=
  if t.handler.isSome then none else handler

def step (clientId : List UInt8) (t : TcpClient) : Event → Option TcpClient
  | .start => some t.connect
  | .stop => some t.stop
  | .setAutoReconnect enabled => some { t with reconnectEnabled := enabled }
  | .runConnect => t.onStrand <| if t.posted = 0 then none else some t.runConnect
  | .connectDone error => t.onStrand <|
      if t.connecting = 0 then none else some (t.connectDone error)
  | .drawBind => if t.handler = some .connected then some t.drawBind else none
  | .sendBind =>
    match t.handler with
    | some (.bind sequence) => some (t.sendBind clientId sequence)
    | _ => none
  | .handleDisconnect => t.onStrand t.handleDisconnect
  | .clearRequests => if t.handler = some .disconnecting then some t.clearRequests else none
  | .processPacket p => t.onStrand (t.processPacket p)
  | .sendRequest data timeout responseCallback =>
    some (t.sendRequest data timeout responseCallback)
  | .draw k => (t.callIn k .checked).map (t.draw k)
  | .sendDrawn k => (t.callIn k .drawn).map (t.sendDrawn k)
  | .register k => (t.callIn k .sent).map (t.register k)
  | .startTimeoutTimer k => (t.callIn k .registered).map (t.startTimeoutTimer k)
  | .sendPacket p => some (t.sendPacket p)
  | .cancelRequest sequence => some (t.cancelRequest sequence)
  | .tick d => some { t with now := t.now + d }
  | .runTimerPost => t.onStrand <| if t.timerPosts = 0 then none else some t.runTimerPost
  | .expire => (t.timer.expire t.now).map fun timer => { t with timer := timer }
  | .sweep => t.onStrand <| t.timer.takeDue.map fun (_, timer) => { t with timer := timer }.sweep
  | .finishSweep =>
    match t.handler with
    | some (.checkTimeouts hasPending) => some (t.finishSweep hasPending)
    | _ => none
  | .reconnectExpire =>
    (t.reconnectTimer.expire t.now).map fun timer => { t with reconnectTimer := timer }
  | .reconnect => t.onStrand <| t.reconnectTimer.takeDue.map fun (_, timer) =>
      { t with reconnectTimer := timer }.reconnect

/-! ## What a step does

An event takes entries out of `pending_requests_` and reports most of them to the application; it
may insert an entry, draw a number and let a call of `sendRequest` go on. `transition_of_step` says
what a step does in these terms. -/

/-- The entry that a packet takes out of `pending_requests_`. -/
def takes (t : TcpClient) (p : Packet) : Option PendingRequest :=
  if p.header.packetId = idResponse then t.pendingRequests[p.header.sequence]? else none

/-- What is recorded of the entry that a packet takes. -/
def completes (t : TcpClient) : Event → List Completed
  | .processPacket p => ((t.takes p).map fun r =>
      ⟨r.call, p, t.received.length, r.callback⟩).toList
  | _ => []

/-- The requests that an event tells `timeout_callback_` about. -/
def expires (t : TcpClient) : Event → List UInt32
  | .sweep => t.expiredSequences
  | _ => []

/-- The request that an event cancels. -/
def cancels (t : TcpClient) : Event → List UInt32
  | .cancelRequest sequence => if t.pendingRequests.contains sequence then [sequence] else []
  | _ => []

/-- The entries that an event takes out of `pending_requests_`. -/
def removes (t : TcpClient) : Event → List UInt32
  | .processPacket p => if (t.takes p).isSome then [p.header.sequence] else []
  | .sweep => t.expiredSequences
  | .clearRequests => t.pendingRequests.keys
  | e => t.cancels e

/-- The entry that an event inserts into `pending_requests_`. -/
def inserts (t : TcpClient) : Event → Option (UInt32 × PendingRequest)
  | .register k => (t.callIn k .sent).map fun c =>
      (c.sequence, ⟨t.now + c.timeout, c.responseCallback, k⟩)
  | _ => none

/-- How many numbers an event draws. -/
def Event.draws : Event → ℕ
  | .drawBind => 1
  | .draw _ => 1
  | _ => 0

/-- The packets that an event hands to `processPacket`. -/
def Event.packets : Event → List Packet
  | .processPacket p => [p]
  | _ => []

variable {clientId : List UInt8} {t t' : TcpClient} {e : Event}

/-- What a step does to the calls of `sendRequest`. -/
inductive RequestChange (t : TcpClient) (e : Event) (t' : TcpClient) : Prop where
  | same (hinserts : t.inserts e = none) (hdraws : e.draws = 0 ∨ e = .drawBind)
      (hcalls : t'.calls = t.calls)
  | call (c : RequestCall) (hinserts : t.inserts e = none) (hdraws : e.draws = 0)
      (hphase : c.phase = .checked ∨ c.phase = .failed) (hcalls : t'.calls = t.calls ++ [c])
  | draw (k : ℕ) (c : RequestCall) (hinserts : t.inserts e = none) (hdraws : e.draws = 1)
      (hc : t.calls[k]? = some c) (hphase : c.phase = .checked)
      (hcalls : t'.calls = t.calls.set k { c with sequence := t.nextSequence, phase := .drawn })
  | send (k : ℕ) (c : RequestCall) (phase : RequestPhase) (hinserts : t.inserts e = none)
      (hdraws : e.draws = 0) (hc : t.calls[k]? = some c) (hphase : c.phase = .drawn)
      (hphase' : phase = .sent ∨ phase = .failed)
      (hcalls : t'.calls = t.calls.set k { c with phase := phase })
  | register (k : ℕ) (c : RequestCall) (expiry : ℕ)
      (hinserts : t.inserts e = some (c.sequence, ⟨expiry, c.responseCallback, k⟩))
      (hdraws : e.draws = 0) (hc : t.calls[k]? = some c) (hphase : c.phase = .sent)
      (hcalls : t'.calls = t.calls.set k { c with phase := .registered })
  | finish (k : ℕ) (c : RequestCall) (hinserts : t.inserts e = none) (hdraws : e.draws = 0)
      (hc : t.calls[k]? = some c) (hphase : c.phase = .registered)
      (hcalls : t'.calls = t.calls.set k { c with phase := .done })

/-- How a call of `sendRequest` goes on. -/
inductive RequestCall.Goes (c : RequestCall) : RequestCall → Prop where
  | refl : c.Goes c
  | draw (s : UInt32) (hphase : c.phase = .checked) :
      c.Goes { c with sequence := s, phase := .drawn }
  | send (phase : RequestPhase) (hphase : c.phase = .drawn)
      (hphase' : phase = .sent ∨ phase = .failed) : c.Goes { c with phase := phase }
  | register (hphase : c.phase = .sent) : c.Goes { c with phase := .registered }
  | finish (hphase : c.phase = .registered) : c.Goes { c with phase := .done }

structure Transition (t : TcpClient) (e : Event) (t' : TcpClient) : Prop where
  sent : t.sent <+: t'.sent
  received : t'.received = t.received ++ e.packets
  completed : t'.completed = t.completed ++ t.completes e
  timeouts : t'.timeouts = t.timeouts ++ t.expires e
  cancelled : t'.cancelled = t.cancelled ++ t.cancels e
  nextSequence : t'.nextSequence = t.nextSequence + UInt32.ofNat e.draws
  drawn : t'.drawn = t.drawn + e.draws
  pending : ∀ s, t'.pendingRequests[s]? =
    lookupAfter t.pendingRequests (t.removes e) (t.inserts e) s
  change : RequestChange t e t'

/-- Packets may have been sent, and the rest is as it was. -/
structure Quiet (t t' : TcpClient) : Prop where
  sent : t.sent <+: t'.sent
  same : (t'.received, t'.completed, t'.timeouts, t'.cancelled, t'.nextSequence, t'.drawn,
      t'.pendingRequests, t'.calls) =
    (t.received, t.completed, t.timeouts, t.cancelled, t.nextSequence, t.drawn,
      t.pendingRequests, t.calls)

/-- A step that changes the calls at most, when its event does nothing else. -/
theorem transition_of_eq (hsent : t.sent <+: t'.sent)
    (hsame : (t'.received, t'.completed, t'.timeouts, t'.cancelled, t'.nextSequence, t'.drawn,
        t'.pendingRequests) =
      (t.received, t.completed, t.timeouts, t.cancelled, t.nextSequence, t.drawn,
        t.pendingRequests))
    (hevent : (e.packets, t.completes e, t.expires e, t.cancels e, e.draws, t.removes e,
      t.inserts e) = ([], [], [], [], 0, [], none))
    (hchange : RequestChange t e t') : Transition t e t' := by
  simp only [Prod.mk.injEq] at hsame hevent
  obtain ⟨hreceived, hcompleted, htimeouts, hcancelled, hnext, hdrawn, hpending⟩ := hsame
  obtain ⟨hpackets, hcompletes, hexpires, hcancels, hdraws, hremoves, hinserts⟩ := hevent
  exact {
    sent := hsent
    received := by rw [hreceived, hpackets, List.append_nil]
    completed := by rw [hcompleted, hcompletes, List.append_nil]
    timeouts := by rw [htimeouts, hexpires, List.append_nil]
    cancelled := by rw [hcancelled, hcancels, List.append_nil]
    nextSequence := by rw [hnext, hdraws]; exact (UInt32.add_zero _).symm
    drawn := by rw [hdrawn, hdraws, Nat.add_zero]
    pending := fun s => by simp [hpending, hremoves, hinserts, lookupAfter]
    change := hchange }

/-- A change that has nothing to do with requests is a transition of an event that has nothing to do
with them. -/
theorem Quiet.transition (h : Quiet t t')
    (hevent : (e.packets, t.completes e, t.expires e, t.cancels e, e.draws, t.removes e,
      t.inserts e) = ([], [], [], [], 0, [], none)) : Transition t e t' := by
  obtain ⟨hsent, hsame⟩ := h
  have hsame' := hsame
  have hevent' := hevent
  simp only [Prod.mk.injEq] at hsame' hevent'
  obtain ⟨hreceived, hcompleted, htimeouts, hcancelled, hnext, hdrawn, hpending, hcalls⟩ := hsame'
  refine transition_of_eq hsent ?_ hevent
    (.same hevent'.2.2.2.2.2.2 (Or.inl hevent'.2.2.2.2.1) hcalls)
  rw [hreceived, hcompleted, htimeouts, hcancelled, hnext, hdrawn, hpending]

/-- `sendPacket` has nothing to do with requests. -/
theorem quiet_sendPacket (t : TcpClient) (p : Packet) : Quiet t (t.sendPacket p) := by
  rw [sendPacket]
  split
  · exact ⟨List.prefix_append _ _, rfl⟩
  · exact ⟨List.prefix_rfl, rfl⟩

/-- `scheduleReconnect` has nothing to do with requests. -/
theorem quiet_scheduleReconnect (t : TcpClient) : Quiet t t.scheduleReconnect := by
  rw [scheduleReconnect]
  split
  · exact ⟨List.prefix_rfl, rfl⟩
  · exact ⟨List.prefix_rfl, rfl⟩

/-- To connect anew has nothing to do with requests. -/
theorem quiet_reconnect (t : TcpClient) : Quiet t t.reconnect := by
  rw [reconnect]
  split
  · exact ⟨List.prefix_rfl, rfl⟩
  · exact ⟨List.prefix_rfl, rfl⟩

/-- The handler posted by `startTimeoutTimer` sets the timer only. -/
theorem quiet_runTimerPost (t : TcpClient) : Quiet t t.runTimerPost := by
  simp only [runTimerPost]
  split
  · exact ⟨List.prefix_rfl, rfl⟩
  · exact ⟨List.prefix_rfl, rfl⟩

/-- `handleDisconnect`, up to the lock, has nothing to do with requests. -/
theorem quiet_handleDisconnect (t : TcpClient) : Quiet t t.handleDisconnect := by
  rw [handleDisconnect]
  split
  · exact ⟨List.prefix_rfl, rfl⟩
  · exact ⟨List.prefix_rfl, rfl⟩

/-- The handler of a connect has nothing to do with requests. -/
theorem quiet_connectDone (t : TcpClient) (error : Bool) : Quiet t (t.connectDone error) := by
  cases error with
  | false => exact ⟨List.prefix_rfl, rfl⟩
  | true =>
    obtain ⟨hsent, hsame⟩ := quiet_scheduleReconnect { t with connecting := t.connecting - 1 }
    exact ⟨hsent, hsame⟩

/-- A call in a phase is a call, and is in the phase. -/
theorem callIn_eq_some {k : ℕ} {phase : RequestPhase} {c : RequestCall}
    (h : t.callIn k phase = some c) : t.calls[k]? = some c ∧ c.phase = phase := by
  obtain ⟨hc, hphase⟩ := Option.filter_eq_some_iff.mp h
  exact ⟨hc, of_decide_eq_true hphase⟩

/-- A handler runs on the strand when no other one is under way. -/
theorem onStrand_eq_some {r : Option TcpClient} (h : t.onStrand r = some t') :
    t.handler = none ∧ r = some t' := by
  rw [onStrand] at h
  split at h
  · exact absurd h (by simp)
  · exact ⟨by simpa using ‹¬ t.handler.isSome = true›, h⟩

/-- The steps, each with its guard and the state that it leads to. -/
inductive Stepped (clientId : List UInt8) (t : TcpClient) : Event → TcpClient → Prop where
  | start : Stepped clientId t .start t.connect
  | stop : Stepped clientId t .stop t.stop
  | setAutoReconnect (enabled : Bool) :
      Stepped clientId t (.setAutoReconnect enabled) { t with reconnectEnabled := enabled }
  | runConnect (hhandler : t.handler = none) (hposted : t.posted ≠ 0) :
      Stepped clientId t .runConnect t.runConnect
  | connectDone (error : Bool) (hhandler : t.handler = none) (hconnecting : t.connecting ≠ 0) :
      Stepped clientId t (.connectDone error) (t.connectDone error)
  | drawBind (hhandler : t.handler = some .connected) : Stepped clientId t .drawBind t.drawBind
  | sendBind (sequence : UInt32) (hhandler : t.handler = some (.bind sequence)) :
      Stepped clientId t .sendBind (t.sendBind clientId sequence)
  | handleDisconnect (hhandler : t.handler = none) :
      Stepped clientId t .handleDisconnect t.handleDisconnect
  | clearRequests (hhandler : t.handler = some .disconnecting) :
      Stepped clientId t .clearRequests t.clearRequests
  | processPacket (p : Packet) (hhandler : t.handler = none) :
      Stepped clientId t (.processPacket p) (t.processPacket p)
  | sendRequest (data : List UInt8) (timeout : ℕ) (responseCallback : Bool) :
      Stepped clientId t (.sendRequest data timeout responseCallback)
        (t.sendRequest data timeout responseCallback)
  | draw (k : ℕ) (c : RequestCall) (hcall : t.callIn k .checked = some c) :
      Stepped clientId t (.draw k) (t.draw k c)
  | sendDrawn (k : ℕ) (c : RequestCall) (hcall : t.callIn k .drawn = some c) :
      Stepped clientId t (.sendDrawn k) (t.sendDrawn k c)
  | register (k : ℕ) (c : RequestCall) (hcall : t.callIn k .sent = some c) :
      Stepped clientId t (.register k) (t.register k c)
  | startTimeoutTimer (k : ℕ) (c : RequestCall) (hcall : t.callIn k .registered = some c) :
      Stepped clientId t (.startTimeoutTimer k) (t.startTimeoutTimer k c)
  | sendPacket (p : Packet) : Stepped clientId t (.sendPacket p) (t.sendPacket p)
  | cancelRequest (sequence : UInt32) :
      Stepped clientId t (.cancelRequest sequence) (t.cancelRequest sequence)
  | tick (d : ℕ) : Stepped clientId t (.tick d) { t with now := t.now + d }
  | runTimerPost (hhandler : t.handler = none) (hposts : t.timerPosts ≠ 0) :
      Stepped clientId t .runTimerPost t.runTimerPost
  | expire (timer : Timer Unit) (htimer : t.timer.expire t.now = some timer) :
      Stepped clientId t .expire { t with timer := timer }
  | sweep (timer : Timer Unit) (hhandler : t.handler = none)
      (htimer : t.timer.takeDue = some ((), timer)) :
      Stepped clientId t .sweep { t with timer := timer }.sweep
  | finishSweep (hasPending : Bool) (hhandler : t.handler = some (.checkTimeouts hasPending)) :
      Stepped clientId t .finishSweep (t.finishSweep hasPending)
  | reconnectExpire (timer : Timer Unit) (htimer : t.reconnectTimer.expire t.now = some timer) :
      Stepped clientId t .reconnectExpire { t with reconnectTimer := timer }
  | reconnect (timer : Timer Unit) (hhandler : t.handler = none)
      (htimer : t.reconnectTimer.takeDue = some ((), timer)) :
      Stepped clientId t .reconnect { t with reconnectTimer := timer }.reconnect

/-- What a step does, by the event. -/
theorem stepped_of_step (h : step clientId t e = some t') : Stepped clientId t e t' := by
  cases e with
  | start => cases h; exact .start
  | stop => cases h; exact .stop
  | setAutoReconnect enabled => cases h; exact .setAutoReconnect enabled
  | runConnect =>
    obtain ⟨hhandler, h⟩ := onStrand_eq_some h
    obtain ⟨hposted, heq⟩ := Option.ite_none_left_eq_some.mp h
    cases heq
    exact .runConnect hhandler hposted
  | connectDone error =>
    obtain ⟨hhandler, h⟩ := onStrand_eq_some h
    obtain ⟨hconnecting, heq⟩ := Option.ite_none_left_eq_some.mp h
    cases heq
    exact .connectDone error hhandler hconnecting
  -- `sendBindPacket` and the rest of `handleDisconnect` go on in the handler they are in
  | drawBind =>
    obtain ⟨hhandler, heq⟩ := Option.ite_none_right_eq_some.mp h
    cases heq
    exact .drawBind hhandler
  | sendBind =>
    simp only [step] at h
    split at h
    · rename_i sequence hhandler
      cases h
      exact .sendBind sequence hhandler
    · cases h
  | handleDisconnect =>
    obtain ⟨hhandler, heq⟩ := onStrand_eq_some h
    cases heq
    exact .handleDisconnect hhandler
  | clearRequests =>
    obtain ⟨hhandler, heq⟩ := Option.ite_none_right_eq_some.mp h
    cases heq
    exact .clearRequests hhandler
  | processPacket p =>
    obtain ⟨hhandler, heq⟩ := onStrand_eq_some h
    cases heq
    exact .processPacket p hhandler
  | sendRequest => cases h; exact .sendRequest _ _ _
  | draw k =>
    obtain ⟨c, hcall, rfl⟩ := Option.map_eq_some_iff.mp h
    exact .draw k c hcall
  | sendDrawn k =>
    obtain ⟨c, hcall, rfl⟩ := Option.map_eq_some_iff.mp h
    exact .sendDrawn k c hcall
  | register k =>
    obtain ⟨c, hcall, rfl⟩ := Option.map_eq_some_iff.mp h
    exact .register k c hcall
  | startTimeoutTimer k =>
    obtain ⟨c, hcall, rfl⟩ := Option.map_eq_some_iff.mp h
    exact .startTimeoutTimer k c hcall
  | sendPacket p => cases h; exact .sendPacket p
  | cancelRequest sequence => cases h; exact .cancelRequest sequence
  | tick d => cases h; exact .tick d
  | runTimerPost =>
    obtain ⟨hhandler, h⟩ := onStrand_eq_some h
    obtain ⟨hposts, heq⟩ := Option.ite_none_left_eq_some.mp h
    cases heq
    exact .runTimerPost hhandler hposts
  | expire =>
    obtain ⟨timer, htimer, rfl⟩ := Option.map_eq_some_iff.mp h
    exact .expire timer htimer
  | sweep =>
    obtain ⟨hhandler, h⟩ := onStrand_eq_some h
    obtain ⟨⟨_, timer⟩, htimer, rfl⟩ := Option.map_eq_some_iff.mp h
    exact .sweep timer hhandler htimer
  | finishSweep =>
    simp only [step] at h
    split at h
    · rename_i hasPending hhandler
      cases h
      exact .finishSweep hasPending hhandler
    · cases h
  | reconnectExpire =>
    obtain ⟨timer, htimer, rfl⟩ := Option.map_eq_some_iff.mp h
    exact .reconnectExpire timer htimer
  | reconnect =>
    obtain ⟨hhandler, h⟩ := onStrand_eq_some h
    obtain ⟨⟨_, timer⟩, htimer, rfl⟩ := Option.map_eq_some_iff.mp h
    exact .reconnect timer hhandler htimer

/-- What is taken out is the pending request with the number of a `RESPONSE`. -/
theorem takes_eq_some {p : Packet} {r : PendingRequest} (h : t.takes p = some r) :
    p.header.packetId = idResponse ∧ t.pendingRequests[p.header.sequence]? = some r := by
  rw [takes] at h
  split at h
  · rename_i hid
    exact ⟨hid, h⟩
  · exact absurd h (by simp)

/-- `processPacket` by cases: an entry is taken, or the packet is only recorded. -/
theorem processPacket_eq (t : TcpClient) (p : Packet) :
    t.processPacket p = { t with
      received := t.received ++ [p]
      pendingRequests := if (t.takes p).isSome then t.pendingRequests.erase p.header.sequence
        else t.pendingRequests
      completed := t.completed ++ ((t.takes p).map fun r =>
        ⟨r.call, p, t.received.length, r.callback⟩).toList } := by
  simp only [processPacket, takes]
  split
  · cases t.pendingRequests[p.header.sequence]? <;> simp
  · simp

/-- `processPacket` takes out at most the request that the packet names. -/
theorem transition_processPacket (t : TcpClient) (p : Packet) :
    Transition t (.processPacket p) (t.processPacket p) := by
  rw [processPacket_eq]
  refine ⟨List.prefix_rfl, rfl, rfl, (List.append_nil _).symm, (List.append_nil _).symm,
    (UInt32.add_zero _).symm, rfl, fun s => ?_, .same rfl (Or.inl rfl) rfl⟩
  cases hr : t.takes p with
  | none => simp [inserts, removes, hr, lookupAfter]
  | some r =>
    have hmem : t.pendingRequests.contains p.header.sequence = true := by
      rw [Std.TreeMap.contains_eq_isSome_getElem?, (takes_eq_some hr).2]
      rfl
    have herase := getElem?_erase_eq t.pendingRequests p.header.sequence s
    rw [hmem, if_pos rfl] at herase
    simpa [inserts, removes, hr] using herase

/-- `cancelRequest` takes out at most its own number. -/
theorem transition_cancelRequest (t : TcpClient) (sequence : UInt32) :
    Transition t (.cancelRequest sequence) (t.cancelRequest sequence) := by
  refine ⟨List.prefix_rfl, (List.append_nil _).symm, (List.append_nil _).symm,
    (List.append_nil _).symm, rfl, (UInt32.add_zero _).symm, rfl, fun s => ?_,
    .same rfl (Or.inl rfl) rfl⟩
  exact getElem?_erase_eq _ _ _

/-- A sweep takes out the requests that have expired. -/
theorem transition_sweep (t : TcpClient) (timer : Timer Unit) :
    Transition t .sweep { t with timer := timer }.sweep := by
  refine ⟨List.prefix_rfl, (List.append_nil _).symm, (List.append_nil _).symm, rfl,
    (List.append_nil _).symm, (UInt32.add_zero _).symm, rfl, fun s => ?_,
    .same rfl (Or.inl rfl) rfl⟩
  exact getElem?_eraseAll_eq _ _ _

/-- `handleDisconnect` takes out all requests. -/
theorem transition_clearRequests (t : TcpClient) :
    Transition t .clearRequests t.clearRequests := by
  obtain ⟨hsent, hsame⟩ :=
    quiet_scheduleReconnect { t with handler := none, pendingRequests := ∅ }
  simp only [Prod.mk.injEq] at hsame
  obtain ⟨hreceived, hcompleted, htimeouts, hcancelled, hnext, hdrawn, hpending, hcalls⟩ := hsame
  refine ⟨hsent, ?_, ?_, ?_, ?_, ?_, hdrawn, fun s => ?_, .same rfl (Or.inl rfl) hcalls⟩
  · exact hreceived.trans (List.append_nil _).symm
  · exact hcompleted.trans (List.append_nil _).symm
  · exact htimeouts.trans (List.append_nil _).symm
  · exact hcancelled.trans (List.append_nil _).symm
  · exact hnext.trans (UInt32.add_zero _).symm
  · rw [clearRequests, hpending]
    exact getElem?_empty_eq _ _

/-- A call hands its packet over. -/
theorem transition_sendDrawn {k : ℕ} {c : RequestCall} (hc : t.calls[k]? = some c)
    (hphase : c.phase = .drawn) : Transition t (.sendDrawn k) (t.sendDrawn k c) := by
  obtain ⟨hsent, hsame⟩ := t.quiet_sendPacket (createPacket ⟨idRequest, 0, c.sequence, c.data⟩)
  simp only [Prod.mk.injEq] at hsame
  obtain ⟨hreceived, hcompleted, htimeouts, hcancelled, hnext, hdrawn, hpending, hcalls⟩ := hsame
  refine transition_of_eq hsent ?_ rfl
    (.send k c (if t.connected then .sent else .failed) rfl rfl hc hphase ?_ ?_)
  · simp [sendDrawn, setCall, *]
  · split
    · exact Or.inl rfl
    · exact Or.inr rfl
  · rw [sendDrawn, setCall, hcalls]

/-- A call draws its number. -/
theorem transition_draw {k : ℕ} {c : RequestCall} (hc : t.calls[k]? = some c)
    (hphase : c.phase = .checked) : Transition t (.draw k) (t.draw k c) where
  sent := List.prefix_rfl
  received := (List.append_nil _).symm
  completed := (List.append_nil _).symm
  timeouts := (List.append_nil _).symm
  cancelled := (List.append_nil _).symm
  nextSequence := rfl
  drawn := rfl
  pending s := by simp [draw, setCall, getNextSequence, removes, cancels, inserts, lookupAfter]
  change := .draw k c rfl rfl hc hphase rfl

/-- The number of `BIND` is drawn. -/
theorem transition_drawBind (t : TcpClient) : Transition t .drawBind t.drawBind where
  sent := List.prefix_rfl
  received := (List.append_nil _).symm
  completed := (List.append_nil _).symm
  timeouts := (List.append_nil _).symm
  cancelled := (List.append_nil _).symm
  nextSequence := rfl
  drawn := rfl
  pending s := by simp [drawBind, getNextSequence, removes, cancels, inserts, lookupAfter]
  change := .same rfl (Or.inr rfl) rfl

/-- A call enters its request. -/
theorem transition_register {k : ℕ} {c : RequestCall} (hcall : t.callIn k .sent = some c) :
    Transition t (.register k) (t.register k c) where
  sent := List.prefix_rfl
  received := (List.append_nil _).symm
  completed := (List.append_nil _).symm
  timeouts := (List.append_nil _).symm
  cancelled := (List.append_nil _).symm
  nextSequence := (UInt32.add_zero _).symm
  drawn := rfl
  pending s := by
    simp [register, setCall, removes, cancels, inserts, hcall, lookupAfter,
      Std.TreeMap.getElem?_insert]
  change := .register k c (t.now + c.timeout) (by rw [inserts, hcall]; rfl) rfl
    (callIn_eq_some hcall).1 (callIn_eq_some hcall).2 rfl

/-- Every step is one of the transitions. -/
theorem transition_of_step (h : step clientId t e = some t') : Transition t e t' := by
  -- steps that do nothing to requests and packets
  have hquiet (hsame : (t'.sent, t'.received, t'.completed, t'.timeouts, t'.cancelled,
        t'.nextSequence, t'.drawn, t'.pendingRequests, t'.calls) =
      (t.sent, t.received, t.completed, t.timeouts, t.cancelled, t.nextSequence, t.drawn,
        t.pendingRequests, t.calls))
      (hevent : (e.packets, t.completes e, t.expires e, t.cancels e, e.draws, t.removes e,
        t.inserts e) = ([], [], [], [], 0, [], none)) : Transition t e t' := by
    obtain ⟨hsent, hrest⟩ := Prod.mk.inj hsame
    exact Quiet.transition ⟨hsent ▸ List.prefix_rfl, hrest⟩ hevent
  cases stepped_of_step h with
  | start => exact hquiet rfl rfl
  | stop => exact hquiet rfl rfl
  | setAutoReconnect => exact hquiet rfl rfl
  | runConnect => exact hquiet rfl rfl
  | connectDone error => exact (t.quiet_connectDone error).transition rfl
  | drawBind => exact t.transition_drawBind
  | sendBind sequence =>
    obtain ⟨hsent, hsame⟩ :=
      quiet_sendPacket { t with handler := none } (createPacket ⟨idBind, 0, sequence, clientId⟩)
    exact Quiet.transition ⟨hsent, hsame⟩ rfl
  | handleDisconnect => exact t.quiet_handleDisconnect.transition rfl
  | clearRequests => exact t.transition_clearRequests
  | processPacket p => exact t.transition_processPacket p
  | sendRequest =>
    refine transition_of_eq List.prefix_rfl rfl rfl (.call _ rfl rfl ?_ rfl)
    split
    · exact Or.inl rfl
    · exact Or.inr rfl
  | draw k c hcall =>
    obtain ⟨hc, hphase⟩ := callIn_eq_some hcall
    exact transition_draw hc hphase
  | sendDrawn k c hcall =>
    obtain ⟨hc, hphase⟩ := callIn_eq_some hcall
    exact transition_sendDrawn hc hphase
  | register k c hcall => exact transition_register hcall
  | startTimeoutTimer k c hcall =>
    obtain ⟨hc, hphase⟩ := callIn_eq_some hcall
    exact transition_of_eq List.prefix_rfl rfl rfl (.finish k c rfl rfl hc hphase rfl)
  | sendPacket p => exact (t.quiet_sendPacket p).transition rfl
  | cancelRequest sequence => exact t.transition_cancelRequest sequence
  | tick => exact hquiet rfl rfl
  | runTimerPost => exact t.quiet_runTimerPost.transition rfl
  | expire => exact hquiet rfl rfl
  | sweep timer => exact t.transition_sweep timer
  | finishSweep hasPending => cases hasPending <;> exact hquiet rfl rfl
  | reconnectExpire => exact hquiet rfl rfl
  | reconnect timer =>
    obtain ⟨hsent, hsame⟩ := quiet_reconnect { t with reconnectTimer := timer }
    exact Quiet.transition ⟨hsent, hsame⟩ rfl

/-! ## Requests along a step -/

/-- A packet is handled, if the strand is free. -/
theorem step_processPacket {p : Packet} (h : step clientId t (.processPacket p) = some t') :
    t' = t.processPacket p := by
  cases stepped_of_step h
  rfl

/-- `connect` runs, if it has been posted and the strand is free. -/
theorem step_runConnect (h : step clientId t .runConnect = some t') : t' = t.runConnect := by
  cases stepped_of_step h
  rfl

/-- The handler of a connect runs, if the strand is free. -/
theorem step_connectDone {error : Bool} (h : step clientId t (.connectDone error) = some t') :
    t' = t.connectDone error := by
  cases stepped_of_step h
  rfl

/-- Requests are completed by packets only. -/
theorem completed_step (h : step clientId t e = some t') (he : ∀ p, e ≠ .processPacket p) :
    t'.completed = t.completed ∧ t'.received = t.received := by
  have htransition := transition_of_step h
  have hcompletes : t.completes e = [] ∧ e.packets = [] := by
    cases e with
    | processPacket p => exact absurd rfl (he p)
    | _ => exact ⟨rfl, rfl⟩
  exact ⟨by rw [htransition.completed, hcompletes.1, List.append_nil],
    by rw [htransition.received, hcompletes.2, List.append_nil]⟩

/-- What has been sent stays. -/
theorem sent_step (h : step clientId t e = some t') : t.sent <+: t'.sent :=
  (transition_of_step h).sent

/-- The call of `sendRequest` with number `k` has drawn the number `s`. -/
def Drawn (t : TcpClient) (k : ℕ) (s : UInt32) : Prop :=
  ∃ c : RequestCall, t.calls[k]? = some c ∧ c.phase ≠ .checked ∧ c.sequence = s

/-- In a step a call of `sendRequest` goes on. -/
theorem call_step {k : ℕ} {c : RequestCall} (h : step clientId t e = some t')
    (hc : t.calls[k]? = some c) :
    ∃ c' : RequestCall, t'.calls[k]? = some c' ∧ c.Goes c' := by
  -- another call goes on, or this one does
  have hset (i : ℕ) (b b' : RequestCall) (hcalls : t'.calls = t.calls.set i b')
      (hb : t.calls[i]? = some b) (hgoes : b.Goes b') :
      ∃ c' : RequestCall, t'.calls[k]? = some c' ∧ c.Goes c' := by
    rw [hcalls]
    refine exists_getElem?_set hc .refl fun hik => ?_
    obtain rfl := Option.some.inj (hc.symm.trans (hik ▸ hb))
    exact hgoes
  cases (transition_of_step h).change with
  | same _ _ hcalls => exact ⟨c, hcalls ▸ hc, .refl⟩
  | call b _ _ _ hcalls => exact ⟨c, hcalls ▸ getElem?_append_of_some hc _, .refl⟩
  | draw i b _ _ hb hphase hcalls => exact hset i b _ hcalls hb (.draw _ hphase)
  | send i b phase _ _ hb hphase hphase' hcalls =>
    exact hset i b _ hcalls hb (.send phase hphase hphase')
  | register i b _ _ _ hb hphase hcalls => exact hset i b _ hcalls hb (.register hphase)
  | finish i b _ _ hb hphase hcalls => exact hset i b _ hcalls hb (.finish hphase)

/-- What has been drawn stays drawn. -/
theorem Drawn.step {k : ℕ} {s : UInt32} (hk : t.Drawn k s) (h : step clientId t e = some t') :
    t'.Drawn k s := by
  obtain ⟨c, hc, hphase, rfl⟩ := hk
  obtain ⟨c', hc', hgoes⟩ := call_step h hc
  refine ⟨c', hc', ?_⟩
  cases hgoes with
  | refl => exact ⟨hphase, rfl⟩
  | draw _ hchecked => exact absurd hchecked hphase
  | send phase _ hphase' => rcases hphase' with rfl | rfl <;> simp
  | register => simp
  | finish => simp

/-- An entry that is inserted is that of a call that has sent its packet. -/
theorem inserts_eq_some {s : UInt32} {r : PendingRequest} (h : t.inserts e = some (s, r)) :
    e = .register r.call ∧ ∃ c : RequestCall, t.calls[r.call]? = some c ∧ c.phase = .sent ∧
      c.sequence = s ∧ c.responseCallback = r.callback := by
  cases e with
  | register k =>
    obtain ⟨c, hc, heq⟩ := Option.map_eq_some_iff.mp h
    obtain ⟨rfl, rfl⟩ := Prod.mk.inj heq
    obtain ⟨hc, hphase⟩ := callIn_eq_some hc
    exact ⟨rfl, c, hc, hphase, rfl, rfl⟩
  | _ => exact absurd h (by simp [inserts])

/-- An entry that is found after a step was there before, or its call has drawn its number. -/
theorem pending_step {s : UInt32} {r : PendingRequest} (h : step clientId t e = some t')
    (hr : t'.pendingRequests[s]? = some r) :
    t.pendingRequests[s]? = some r ∨ t.Drawn r.call s := by
  rw [(transition_of_step h).pending] at hr
  rcases lookupAfter_eq_some hr with hinserts | ⟨-, hr⟩
  · obtain ⟨-, c, hc, hphase, hsequence, -⟩ := inserts_eq_some hinserts
    exact Or.inr ⟨c, hc, by simp [hphase], hsequence⟩
  · exact Or.inl hr

/-- Every entry is found under the number that its call has drawn, and was taken by a packet with
this number. -/
structure Tracked (t : TcpClient) : Prop where
  pending : ∀ (s : UInt32) (r : PendingRequest), t.pendingRequests[s]? = some r → t.Drawn r.call s
  completed : ∀ x ∈ t.completed, t.Drawn x.call x.packet.header.sequence

/-- Nothing is pending at the start. -/
theorem tracked_start : Tracked {} where
  pending s r hr := by simp at hr
  completed := List.forall_mem_nil _

/-- A packet completes at most the request that it names, with the data of its entry. -/
theorem mem_completes {x : Completed} (h : x ∈ t.completes e) :
    e = .processPacket x.packet ∧ ∃ r, t.takes x.packet = some r ∧
      x = ⟨r.call, x.packet, t.received.length, r.callback⟩ := by
  cases e with
  | processPacket p =>
    simp only [completes, Option.mem_toList, Option.map_eq_some_iff] at h
    obtain ⟨r, hr, rfl⟩ := h
    exact ⟨rfl, r, hr, rfl⟩
  | _ => exact absurd h (by simp [completes])

/-- Every step keeps track of the entries. -/
theorem Tracked.step (hI : t.Tracked) (h : step clientId t e = some t') : t'.Tracked where
  pending s r hr := by
    rcases pending_step h hr with hr | hdrawn
    · exact (hI.pending s r hr).step h
    · exact hdrawn.step h
  completed x hx := by
    rw [(transition_of_step h).completed] at hx
    rcases List.mem_append.mp hx with hx | hx
    · exact (hI.completed x hx).step h
    · obtain ⟨-, r, hr, hxr⟩ := mem_completes hx
      rw [hxr]
      exact (hI.pending _ r (takes_eq_some hr).2).step h

end TcpClient

end TurboNet.Asio
