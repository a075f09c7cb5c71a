import TurboNet.Common.ExactReader
import TurboNet.Common.Machine
import TurboNet.Client.Sender
import TurboNet.Client.Responses

/-!
# The TurboNet client

Reference: `turbonet_client.cpp`, `turbonet_client.h`.

`Client.step` is the client as a machine. Its events are the calls of the public interface, which
may come from any thread, the handlers that run on the strand, and what the environment does: time
passes, waits expire, the socket completes operations with or without an error. A handler is one
step, with one exception: `checkAndFireResponseTimers` is three, since `sendRequest` may be called
between them by other threads, and by `onTimeout_`. It calls `onTimeout_`, looks at the queue again,
and then sets the timer, with `responseMutex_` released before. No other strand handler runs in
between. Likewise `startResponseTimer` releases the lock before it sets the timer: a call of
`sendRequest` is one step if nothing comes between, and otherwise two, `startRequest` and
`armStarted`.

The outcome of an operation is left to the environment: any outstanding read or write may fail at
any time, also because its socket was closed.
-/

namespace TurboNet

open Common

/-- The arguments of the constructor, the client id and which handlers are set. -/
structure ClientConfig where
  host : Endian
  readTimeoutMs : ℤ := 0
  writeTimeoutMs : ℤ := 0
  responseTimeoutMs : ℤ := 0
  clientId : List UInt8 := []
  onBind : Bool := true
  onPacket : Bool := true
  onTimeout : Bool := true
  onClose : Bool := true
  connectHandler : Bool := true
  /-- How many of the entries with the same expiry `std::priority_queue` keeps before a new one. -/
  place : List ResponseEntry → ResponseEntry → ℕ := fun _ _ => 0

/-- A call of the client into the application. -/
inductive ClientCall where
  | connected (ec : Bool)
  | bind (serverId : List UInt8)
  | packet (p : Packet)
  | timeout (sequence : UInt32)
  | close
deriving DecidableEq, Repr

/-- The buffers of the read loop and the outstanding `async_read`. -/
structure Receiver where
  headerBuf : List UInt8 := []
  bodyBuf : List UInt8 := []
  lastPacketId : UInt8 := 0
  lastStatus : UInt8 := 0
  lastSequence : UInt32 := 0
  reading : Option ReadOp := none
  /-- History: what `onReadBody` saw whenever it was called without an error. -/
  handed : List Packet := []
  /-- History: declared total length and requested body length of every body read. -/
  bodyReads : List (UInt32 × ℕ) := []
deriving DecidableEq, Repr

structure Client where
  /-- The steady clock. -/
  now : ℕ := 0
  running : Bool := true
  socketOpen : Bool := false
  /-- An `async_connect` is outstanding. -/
  connecting : Bool := false
  rx : Receiver := {}
  tx : Sender := {}
  responses : Responses := {}
  sequenceCounter : UInt32 := 1
  /-- Waits of these timers are labelled with the number of the connect, packet read or write they
  were armed for. -/
  connectTimer : Timer ℕ := {}
  readTimer : Timer ℕ := {}
  writeTimer : Timer ℕ := {}
  /-- History: how many connects, packet reads and writes have been started. -/
  connects : ℕ := 0
  reads : ℕ := 0
  writes : ℕ := 0
  /-- History: the sequence numbers drawn from `sequenceCounter_`. -/
  drawn : List UInt32 := []
  /-- History: the calls into the application. -/
  calls : List ClientCall := []

namespace Client

/-- Call a handler of the application if it is set. -/
def call (c : Client) (set : Bool) (k : ClientCall) : Client :=
  { c with calls := if set then c.calls ++ [k] else c.calls }

/-! ## Timers of connect, read and write -/

/-- `expires_after` and `async_wait`, unless the timeout is disabled. -/
def startTimer (timer : Timer ℕ) (timeoutMs : ℤ) (now label : ℕ) : Timer ℕ :=
  if timeoutMs ≤ 0 then timer else timer.arm (now + millis timeoutMs) label

/-- `startConnectTimer`. -/
def startConnectTimer (c : Client) (timeoutMs : ℤ) : Client :=
  { c with connectTimer := startTimer c.connectTimer timeoutMs c.now c.connects }

/-- `cancelConnectTimer`. -/
def cancelConnectTimer (c : Client) : Client := { c with connectTimer := c.connectTimer.cancel }

/-- `startReadTimer`. -/
def startReadTimer (cfg : ClientConfig) (c : Client) : Client :=
  { c with readTimer := startTimer c.readTimer cfg.readTimeoutMs c.now c.reads }

/-- `cancelReadTimer`. -/
def cancelReadTimer (c : Client) : Client := { c with readTimer := c.readTimer.cancel }

/-- `startWriteTimer`. -/
def startWriteTimer (cfg : ClientConfig) (c : Client) : Client :=
  { c with writeTimer := startTimer c.writeTimer cfg.writeTimeoutMs c.now c.writes }

/-- `cancelWriteTimer`. -/
def cancelWriteTimer (c : Client) : Client := { c with writeTimer := c.writeTimer.cancel }

/-- `onConnectTimeout`, `onReadTimeout` and `onWriteTimeout`. -/
def onTimerTimeout (c : Client) (ec : Bool) : Client := { c with socketOpen := c.socketOpen && ec }

/-! ## Sending -/

/-- `sendPacket`. -/
def sendPacket (cfg : ClientConfig) (c : Client) (p : Packet) : Client :=
  { c with tx := c.tx.post (sendPacketFrame cfg.host p) }

/-- `doWrite`. -/
def doWrite (cfg : ClientConfig) (c : Client) : Client :=
  let c := { c with writes := c.writes + 1 }.startWriteTimer cfg
  { c with tx := c.tx.asyncWrite }

/-- The handler posted by `sendPacket`, for the oldest posted frame. -/
def runPosted (cfg : ClientConfig) (c : Client) (pkt : List UInt8) (rest : List (List UInt8)) :
    Client :=
  let writing := !c.tx.txBuffer.isEmpty
  let c := { c with tx := { c.tx with posted := rest }.insert pkt }
  if writing then c else c.doWrite cfg

/-- `onWrite`. -/
def onWrite (c : Client) (ec : Bool) : Client :=
  let c := c.cancelWriteTimer
  { c with tx := c.tx.onWrite ec }

/-- `sequenceCounter_++`. -/
def drawSequence (c : Client) : Client :=
  { c with sequenceCounter := c.sequenceCounter + 1, drawn := c.drawn ++ [c.sequenceCounter] }

/-- `startResponseTimer` up to the end of the locked part. -/
def enterResponse (cfg : ClientConfig) (c : Client) (sequence : UInt32) : Client :=
  if cfg.responseTimeoutMs ≤ 0 then c
  else
    let expiry := c.now + millis cfg.responseTimeoutMs
    let place := cfg.place c.responses.responseQueue ⟨sequence, expiry⟩
    { c with responses := c.responses.insert place sequence expiry }

/-- The rest of `startResponseTimer`, for the entry `q`. The clock is read again for the deadline of
the sweep. -/
def armStarted (cfg : ClientConfig) (c : Client) (q : ResponseEntry) : Client :=
  { c with responses := c.responses.armStarted q (c.now + millis cfg.responseTimeoutMs) }

/-- `startResponseTimer`, with nothing in between. The two readings of the clock are `gap` apart. -/
def startResponseTimer (cfg : ClientConfig) (c : Client) (sequence : UInt32) (gap : ℕ) : Client :=
  if cfg.responseTimeoutMs ≤ 0 then c
  else { c.enterResponse cfg sequence with now := c.now + gap }.armStarted cfg
    ⟨sequence, c.now + millis cfg.responseTimeoutMs⟩

/-- `sendRequest` up to `startResponseTimer`. -/
def sendRequestPacket (cfg : ClientConfig) (c : Client) (data : List UInt8) : Client :=
  c.drawSequence.sendPacket cfg ⟨0x02, 0x00, c.sequenceCounter, data⟩

/-- `sendRequest` up to the end of the locked part of `startResponseTimer`. -/
def startRequest (cfg : ClientConfig) (c : Client) (data : List UInt8) : Client :=
  (c.sendRequestPacket cfg data).enterResponse cfg c.sequenceCounter

/-- `sendRequest`, with nothing in between. -/
def sendRequest (cfg : ClientConfig) (c : Client) (data : List UInt8) (gap : ℕ) : Client :=
  (c.sendRequestPacket cfg data).startResponseTimer cfg c.sequenceCounter gap

/-- The first part of `startResponseTimer` is about the response table only. -/
theorem enterResponse_eq (cfg : ClientConfig) (c : Client) (sequence : UInt32) :
    ∃ r, c.enterResponse cfg sequence = { c with responses := r } := by
  rw [enterResponse]
  split
  · exact ⟨c.responses, rfl⟩
  · exact ⟨_, rfl⟩

/-- `startResponseTimer` is about the response table only, apart from the time that passes. -/
theorem startResponseTimer_eq (cfg : ClientConfig) (c : Client) (sequence : UInt32) (gap : ℕ) :
    ∃ r now, c.startResponseTimer cfg sequence gap = { c with responses := r, now := now } := by
  rw [startResponseTimer]
  split
  · exact ⟨c.responses, c.now, rfl⟩
  · obtain ⟨r, hr⟩ := enterResponse_eq cfg c sequence
    rw [hr]
    exact ⟨_, _, rfl⟩

/-- Apart from the response table and the time that passes a request is a packet. -/
theorem sendRequest_eq (cfg : ClientConfig) (c : Client) (data : List UInt8) (gap : ℕ) :
    ∃ r now, c.sendRequest cfg data gap
      = { c.sendRequestPacket cfg data with responses := r, now := now } :=
  startResponseTimer_eq cfg (c.sendRequestPacket cfg data) c.sequenceCounter gap

/-- Its first half, too. -/
theorem startRequest_eq (cfg : ClientConfig) (c : Client) (data : List UInt8) :
    ∃ r, c.startRequest cfg data = { c.sendRequestPacket cfg data with responses := r } :=
  enterResponse_eq cfg (c.sendRequestPacket cfg data) c.sequenceCounter

/-! ## Receiving -/

/-- `doReadHeader`. -/
def doReadHeader (cfg : ClientConfig) (c : Client) : Client :=
  let c := { c with reads := c.reads + 1 }.startReadTimer cfg
  { c with rx := { c.rx with reading := some .header } }

/-- `doReadBody`. The buffer gets its size here and its content from the read. -/
def doReadBody (c : Client) (bodyLen : UInt32) : Client :=
  { c with rx := { c.rx with reading := some (.body bodyLen.toNat) } }

/-- `onReadHeader`. -/
def onReadHeader (cfg : ClientConfig) (c : Client) (ec : Bool) : Client :=
  if ec then c.cancelReadTimer
  else
    let packetLen := fromBigEndian cfg.host c.rx.headerBuf 0
    let c := { c with rx := { c.rx with
      lastPacketId := c.rx.headerBuf.getD 4 0
      lastStatus := c.rx.headerBuf.getD 5 0
      lastSequence := fromBigEndian cfg.host c.rx.headerBuf 6 } }
    if 10 ≤ packetLen.toNat then
      let bodyLen := packetLen - 10
      let c := { c with rx := { c.rx with
        bodyReads := c.rx.bodyReads ++ [(packetLen, bodyLen.toNat)] } }
      c.doReadBody bodyLen
    else c.doReadHeader cfg

/-- The packet that `onReadBody` passes on. -/
def current (c : Client) : Packet :=
  ⟨c.rx.lastPacketId, c.rx.lastStatus, c.rx.lastSequence, c.rx.bodyBuf⟩

/-- The calls of `onReadBody` into the application. -/
def deliver (cfg : ClientConfig) (c : Client) : Client :=
  let c := { c with rx := { c.rx with handed := c.rx.handed ++ [c.current] } }
  let c := c.call (c.rx.lastPacketId == 0x81 && cfg.onBind) (.bind c.rx.bodyBuf)
  c.call cfg.onPacket (.packet c.current)

/-- `onReadBody`. -/
def onReadBody (cfg : ClientConfig) (c : Client) (ec : Bool) : Client :=
  let c := c.cancelReadTimer
  let c := if ec then c else c.deliver cfg
  if c.running then c.doReadHeader cfg else c

/-- A read completes with the bytes it asked for. -/
def readDone (cfg : ClientConfig) (c : Client) (op : ReadOp) (bs : List UInt8) : Client :=
  match op with
  | .header =>
    { c with rx := { c.rx with headerBuf := bs, reading := none } }.onReadHeader cfg false
  | .body _ => { c with rx := { c.rx with bodyBuf := bs, reading := none } }.onReadBody cfg false

/-- A read completes with an error. -/
def readFail (cfg : ClientConfig) (c : Client) (op : ReadOp) : Client :=
  match op with
  | .header => { c with rx := { c.rx with reading := none } }.onReadHeader cfg true
  | .body _ => { c with rx := { c.rx with reading := none } }.onReadBody cfg true

/-! ## Connecting and closing -/

/-- `connect`, after the host name has been resolved. -/
def connect (c : Client) (timeoutMs : ℤ) : Client :=
  { { c with connects := c.connects + 1 }.startConnectTimer timeoutMs with
    socketOpen := true
    connecting := true }

/-- The handler of `async_connect`. -/
def onConnect (cfg : ClientConfig) (c : Client) (ec : Bool) : Client :=
  let c := { c with connecting := false }.cancelConnectTimer
  let c :=
    if ec then c
    else
      let c :=
        if cfg.clientId.isEmpty then c
        else c.drawSequence.sendPacket cfg ⟨0x01, 0x00, c.sequenceCounter, cfg.clientId⟩
      c.doReadHeader cfg
  c.call cfg.connectHandler (.connected ec)

/-- `close`. -/
def close (cfg : ClientConfig) (c : Client) : Client :=
  let c := { c with running := false, socketOpen := false }
  let c := c.cancelConnectTimer.cancelReadTimer.cancelWriteTimer
  let c := { c with responses := { c.responses with
    responseSweepTimer := c.responses.responseSweepTimer.cancel } }
  c.call cfg.onClose .close

/-! ## The response sweep -/

/-- `checkAndFireResponseTimers` up to the calls of `onTimeout_`. -/
def sweepFire (cfg : ClientConfig) (c : Client) : Client :=
  (c.responses.expired c.now).foldl (fun c seq => c.call cfg.onTimeout (.timeout seq))
    { c with responses := c.responses.sweep c.now }

/-- `checkAndFireResponseTimers` looks at the queue for the next expiry. -/
def sweepNext (c : Client) (now : ℕ) : Client :=
  { c with responses := { c.responses with
    sweeping := some (.scheduled (c.responses.next now)) } }

/-- The rest of `checkAndFireResponseTimers`. -/
def sweepRearm (c : Client) (next : ℕ) : Client :=
  { c with responses := c.responses.reschedule next }

/-! ## The client as a machine -/

inductive TimerId where
  | connect
  | read
  | write
  | response
deriving DecidableEq, Repr

inductive Event where
  /-- Calls of the public interface. `gap` is the time that passes inside `sendRequest` between the
  two readings of the clock. -/
  | connect (timeoutMs : ℤ)
  | sendPacket (p : Packet)
  | sendRequest (data : List UInt8) (gap : ℕ)
  | close
  /-- A call of `sendRequest` in two steps. -/
  | startRequest (data : List UInt8)
  | armStarted (q : ResponseEntry)
  /-- Handlers on the strand. -/
  | connectDone (ec : Bool)
  | runPosted
  | readDone (bs : List UInt8)
  | readFail
  | writeDone (ec : Bool)
  | timerDue (t : TimerId)
  | timerAborted (t : TimerId)
  | sweepNext
  | sweepRearm
  /-- Time passes; a wait whose deadline has passed expires. -/
  | tick (d : ℕ)
  | expire (t : TimerId)
deriving DecidableEq, Repr

/-- A wait of a timer expires. -/
def expire (c : Client) : TimerId → Option Client
  | .connect => (c.connectTimer.expire c.now).map fun t => { c with connectTimer := t }
  | .read => (c.readTimer.expire c.now).map fun t => { c with readTimer := t }
  | .write => (c.writeTimer.expire c.now).map fun t => { c with writeTimer := t }
  | .response => (c.responses.responseSweepTimer.expire c.now).map fun t =>
      { c with responses := { c.responses with responseSweepTimer := t } }

/-- The handler of an expired wait runs, without an error. -/
def timerDue (cfg : ClientConfig) (c : Client) : TimerId → Option Client
  | .connect => c.connectTimer.takeDue.map fun (_, t) =>
      { c with connectTimer := t }.onTimerTimeout false
  | .read => c.readTimer.takeDue.map fun (_, t) => { c with readTimer := t }.onTimerTimeout false
  | .write => c.writeTimer.takeDue.map fun (_, t) => { c with writeTimer := t }.onTimerTimeout false
  | .response => c.responses.responseSweepTimer.takeDue.map fun (_, t) =>
      { c with responses := { c.responses with responseSweepTimer := t } }.sweepFire cfg

/-- The handler of an aborted wait runs, with an error, on which it returns at once. -/
def timerAborted (c : Client) : TimerId → Option Client
  | .connect => c.connectTimer.takeAborted.map fun (_, t) =>
      { c with connectTimer := t }.onTimerTimeout true
  | .read => c.readTimer.takeAborted.map fun (_, t) => { c with readTimer := t }.onTimerTimeout true
  | .write => c.writeTimer.takeAborted.map fun (_, t) =>
      { c with writeTimer := t }.onTimerTimeout true
  | .response => c.responses.responseSweepTimer.takeAborted.map fun (_, t) =>
      { c with responses := { c.responses with responseSweepTimer := t } }

/-- Run a handler on the strand, which is busy while a sweep is under way. -/
def onStrand (c : Client) (c' : Option Client) : Option Client :=
  if c.responses.sweeping.isNone then c' else none

def step (cfg : ClientConfig) (c : Client) : Event → Option Client
  | .connect timeoutMs =>
    -- one connection at a time
    if c.connecting || c.rx.reading.isSome then none else some (c.connect timeoutMs)
  | .sendPacket p => some (c.sendPacket cfg p)
  | .sendRequest data gap => some (c.sendRequest cfg data gap)
  | .close => some (c.close cfg)
  | .startRequest data => some (c.startRequest cfg data)
  | .armStarted q => if q ∈ c.responses.starting then some (c.armStarted cfg q) else none
  | .connectDone ec => c.onStrand (if c.connecting then some (c.onConnect cfg ec) else none)
  | .runPosted => c.onStrand (match c.tx.posted with
    | pkt :: rest => some (c.runPosted cfg pkt rest)
    | [] => none)
  | .readDone bs => c.onStrand (match c.rx.reading with
    | some op => if bs.length = op.size then some (c.readDone cfg op bs) else none
    | none => none)
  | .readFail => c.onStrand (c.rx.reading.map (c.readFail cfg))
  | .writeDone ec => c.onStrand (if c.tx.writing.isSome then some (c.onWrite ec) else none)
  | .timerDue t => c.onStrand (c.timerDue cfg t)
  | .timerAborted t => c.onStrand (c.timerAborted t)
  | .sweepNext => match c.responses.sweeping with
    | some (.fired now) => some (c.sweepNext now)
    | _ => none
  | .sweepRearm => match c.responses.sweeping with
    | some (.scheduled next) => some (c.sweepRearm next)
    | _ => none
  | .tick d => some { c with now := c.now + d }
  | .expire t => c.expire t

/-! ## What a step can do -/

/-- The transitions of the machine, with what each finds. -/
inductive Transition (cfg : ClientConfig) (c : Client) : Event → Client → Prop where
  | connect (timeoutMs : ℤ) (hidle : c.connecting = false) (hreading : c.rx.reading = none) :
    Transition cfg c (.connect timeoutMs) (c.connect timeoutMs)
  | sendPacket (p : Packet) : Transition cfg c (.sendPacket p) (c.sendPacket cfg p)
  | sendRequest (data : List UInt8) (gap : ℕ) :
    Transition cfg c (.sendRequest data gap) (c.sendRequest cfg data gap)
  | close : Transition cfg c .close (c.close cfg)
  | connectDone (ec : Bool) (hconnecting : c.connecting = true) :
    Transition cfg c (.connectDone ec) (c.onConnect cfg ec)
  | runPosted (pkt : List UInt8) (rest : List (List UInt8)) (hposted : c.tx.posted = pkt :: rest) :
    Transition cfg c .runPosted (c.runPosted cfg pkt rest)
  | readDone (op : ReadOp) (bs : List UInt8) (hreading : c.rx.reading = some op)
    (hlength : bs.length = op.size) : Transition cfg c (.readDone bs) (c.readDone cfg op bs)
  | readFail (op : ReadOp) (hreading : c.rx.reading = some op) :
    Transition cfg c .readFail (c.readFail cfg op)
  | writeDone (ec : Bool) (hwriting : c.tx.writing.isSome = true) :
    Transition cfg c (.writeDone ec) (c.onWrite ec)
  | timerDue (t : TimerId) (c' : Client) (hdue : c.timerDue cfg t = some c') :
    Transition cfg c (.timerDue t) c'
  | timerAborted (t : TimerId) (c' : Client) (haborted : c.timerAborted t = some c') :
    Transition cfg c (.timerAborted t) c'
  | startRequest (data : List UInt8) :
    Transition cfg c (.startRequest data) (c.startRequest cfg data)
  | armStarted (q : ResponseEntry) (hq : q ∈ c.responses.starting) :
    Transition cfg c (.armStarted q) (c.armStarted cfg q)
  | sweepNext (now : ℕ) (hsweeping : c.responses.sweeping = some (.fired now)) :
    Transition cfg c .sweepNext (c.sweepNext now)
  | sweepRearm (next : ℕ) (hsweeping : c.responses.sweeping = some (.scheduled next)) :
    Transition cfg c .sweepRearm (c.sweepRearm next)
  | tick (d : ℕ) : Transition cfg c (.tick d) { c with now := c.now + d }
  | expire (t : TimerId) (c' : Client) (hexpire : c.expire t = some c') :
    Transition cfg c (.expire t) c'

/-- A handler runs when the strand is free. -/
theorem of_onStrand {c c' : Client} {o : Option Client} (h : c.onStrand o = some c') :
    o = some c' := by
  rw [onStrand] at h
  split at h
  · exact h
  · exact absurd h (by simp)

/-- Every step is one of the transitions. -/
theorem transition_of_step {cfg : ClientConfig} {c c' : Client} {e : Event}
    (h : step cfg c e = some c') : Transition cfg c e c' := by
  cases e with
  | connect timeoutMs =>
    simp only [step] at h
    split at h
    · exact absurd h (by simp)
    · rename_i hfree
      obtain rfl := Option.some.inj h
      simp only [Bool.or_eq_true, not_or, Bool.not_eq_true, Option.isSome_eq_false_iff,
        Option.isNone_iff_eq_none] at hfree
      exact .connect timeoutMs hfree.1 hfree.2
  | sendPacket p =>
    obtain rfl := Option.some.inj h
    exact .sendPacket p
  | sendRequest data gap =>
    obtain rfl := Option.some.inj h
    exact .sendRequest data gap
  | close =>
    obtain rfl := Option.some.inj h
    exact .close
  -- a handler finds its operation outstanding
  | connectDone ec =>
    replace h := of_onStrand h
    split at h
    · rename_i hconnecting
      obtain rfl := Option.some.inj h
      exact .connectDone ec hconnecting
    · exact absurd h (by simp)
  | runPosted =>
    replace h := of_onStrand h
    split at h
    · rename_i pkt rest hposted
      obtain rfl := Option.some.inj h
      exact .runPosted pkt rest hposted
    · exact absurd h (by simp)
  | readDone bs =>
    replace h := of_onStrand h
    split at h
    · rename_i op hreading
      split at h
      · rename_i hlength
        obtain rfl := Option.some.inj h
        exact .readDone op bs hreading hlength
      · exact absurd h (by simp)
    · exact absurd h (by simp)
  | readFail =>
    obtain ⟨op, hreading, rfl⟩ := Option.map_eq_some_iff.mp (of_onStrand h)
    exact .readFail op hreading
  | writeDone ec =>
    replace h := of_onStrand h
    split at h
    · rename_i hwriting
      obtain rfl := Option.some.inj h
      exact .writeDone ec hwriting
    · exact absurd h (by simp)
  | timerDue t => exact .timerDue t c' (of_onStrand h)
  | timerAborted t => exact .timerAborted t c' (of_onStrand h)
  | startRequest data =>
    obtain rfl := Option.some.inj h
    exact .startRequest data
  | armStarted q =>
    obtain ⟨hq, heq⟩ := Option.ite_none_right_eq_some.mp h
    obtain rfl := Option.some.inj heq
    exact .armStarted q hq
  | sweepNext =>
    simp only [step] at h
    split at h
    · rename_i now hsweeping
      obtain rfl := Option.some.inj h
      exact .sweepNext now hsweeping
    · exact absurd h (by simp)
  | sweepRearm =>
    simp only [step] at h
    split at h
    · rename_i next hsweeping
      obtain rfl := Option.some.inj h
      exact .sweepRearm next hsweeping
    · exact absurd h (by simp)
  | tick d =>
    obtain rfl := Option.some.inj h
    exact .tick d
  | expire t => exact .expire t c' h

/-! ## What a step can do to the core

The results about the send path and the response table look at a part of the state that most
handlers leave alone. `Acts` lists what a step can do to that part, one constructor for each way,
with everything else in `other`. -/

/-- The timeouts among the calls into the application. -/
def timeouts (c : Client) : List UInt32 :=
  c.calls.filterMap fun k => match k with
    | .timeout seq => some seq
    | _ => none

/-- `c'` differs from `c` at most in the socket, the receive side, the timers of connect, read and
write, and in calls into the application that are not timeouts. -/
structure SameCore (c c' : Client) : Prop where
  now : c'.now = c.now
  tx : c'.tx = c.tx
  responses : c'.responses = c.responses
  sequenceCounter : c'.sequenceCounter = c.sequenceCounter
  drawn : c'.drawn = c.drawn
  timeouts : c'.timeouts = c.timeouts

/-- The events whose handlers keep the core. -/
def Event.quiet : Event → Bool
  | .connect _ | .readDone _ | .readFail => true
  | .timerDue t | .timerAborted t | .expire t => t != .response
  | _ => false

inductive Acts (cfg : ClientConfig) (c : Client) : Event → Client → Prop where
  | sendPacket (p : Packet) : Acts cfg c (.sendPacket p) (c.sendPacket cfg p)
  | sendRequest (data : List UInt8) (gap : ℕ) :
    Acts cfg c (.sendRequest data gap) (c.sendRequest cfg data gap)
  | close : Acts cfg c .close (c.close cfg)
  | connectDone (ec : Bool) : Acts cfg c (.connectDone ec) (c.onConnect cfg ec)
  | runPosted (pkt : List UInt8) (rest : List (List UInt8)) (hposted : c.tx.posted = pkt :: rest) :
    Acts cfg c .runPosted (c.runPosted cfg pkt rest)
  | writeDone (ec : Bool) (hwriting : c.tx.writing.isSome = true) :
    Acts cfg c (.writeDone ec) (c.onWrite ec)
  | sweepFire (t : Timer Unit) (hdue : c.responses.responseSweepTimer.takeDue = some ((), t)) :
    Acts cfg c (.timerDue .response)
      ({ c with responses := { c.responses with responseSweepTimer := t } }.sweepFire cfg)
  | sweepAborted (t : Timer Unit)
    (haborted : c.responses.responseSweepTimer.takeAborted = some ((), t)) :
    Acts cfg c (.timerAborted .response)
      { c with responses := { c.responses with responseSweepTimer := t } }
  | sweepExpire (t : Timer Unit) (hexpire : c.responses.responseSweepTimer.expire c.now = some t) :
    Acts cfg c (.expire .response)
      { c with responses := { c.responses with responseSweepTimer := t } }
  | startRequest (data : List UInt8) : Acts cfg c (.startRequest data) (c.startRequest cfg data)
  | armStarted (q : ResponseEntry) (hq : q ∈ c.responses.starting) :
    Acts cfg c (.armStarted q) (c.armStarted cfg q)
  | sweepNext (now : ℕ) (hsweeping : c.responses.sweeping = some (.fired now)) :
    Acts cfg c .sweepNext (c.sweepNext now)
  | sweepRearm (next : ℕ) (hsweeping : c.responses.sweeping = some (.scheduled next)) :
    Acts cfg c .sweepRearm (c.sweepRearm next)
  | tick (d : ℕ) : Acts cfg c (.tick d) { c with now := c.now + d }
  | other (e : Event) (c' : Client) (hquiet : e.quiet = true) (hsame : SameCore c c') :
    Acts cfg c e c'

/-- The core is the clock, the writes, the response timers, the numbers and the calls. -/
theorem SameCore.of_eq {c c' : Client} (now : c'.now = c.now) (tx : c'.tx = c.tx)
    (responses : c'.responses = c.responses)
    (sequenceCounter : c'.sequenceCounter = c.sequenceCounter) (drawn : c'.drawn = c.drawn)
    (calls : c'.calls = c.calls) : SameCore c c' :=
  ⟨now, tx, responses, sequenceCounter, drawn, by rw [Client.timeouts, Client.timeouts, calls]⟩

/-- Two changes that leave the core alone. -/
theorem SameCore.trans {c c' c'' : Client} (h : SameCore c c') (h' : SameCore c' c'') :
    SameCore c c'' :=
  ⟨h'.now.trans h.now, h'.tx.trans h.tx, h'.responses.trans h.responses,
    h'.sequenceCounter.trans h.sequenceCounter, h'.drawn.trans h.drawn,
    h'.timeouts.trans h.timeouts⟩

/-- A call that is not a timeout. -/
theorem timeouts_call {c : Client} {set : Bool} {k : ClientCall} (hk : ∀ seq, k ≠ .timeout seq) :
    (c.call set k).timeouts = c.timeouts := by
  cases set with
  | false => rfl
  | true =>
    cases k with
    | timeout seq => exact absurd rfl (hk seq)
    | _ => simp [call, timeouts]

/-- A call into the application that is no timeout leaves the core alone. -/
theorem call_sameCore (c : Client) (set : Bool) {k : ClientCall} (hk : ∀ seq, k ≠ .timeout seq) :
    SameCore c (c.call set k) :=
  ⟨rfl, rfl, rfl, rfl, rfl, timeouts_call hk⟩

/-- The handler of a header leaves the core alone. -/
theorem onReadHeader_sameCore (cfg : ClientConfig) (c : Client) (ec : Bool) :
    SameCore c (c.onReadHeader cfg ec) := by
  rw [onReadHeader]
  split
  · exact .of_eq rfl rfl rfl rfl rfl rfl
  · dsimp only
    split <;> exact .of_eq rfl rfl rfl rfl rfl rfl

/-- The calls of `onReadBody` leave the core alone. -/
theorem deliver_sameCore (cfg : ClientConfig) (c : Client) : SameCore c (c.deliver cfg) := by
  rw [deliver]
  refine SameCore.trans ?_ (call_sameCore _ _ (by simp))
  refine SameCore.trans ?_ (call_sameCore _ _ (by simp))
  exact .of_eq rfl rfl rfl rfl rfl rfl

/-- The handler of a body leaves the core alone. -/
theorem onReadBody_sameCore (cfg : ClientConfig) (c : Client) (ec : Bool) :
    SameCore c (c.onReadBody cfg ec) := by
  have hcancel : SameCore c c.cancelReadTimer := .of_eq rfl rfl rfl rfl rfl rfl
  have hread (c : Client) : SameCore c (if c.running then c.doReadHeader cfg else c) := by
    split <;> exact .of_eq rfl rfl rfl rfl rfl rfl
  cases ec with
  | true => exact hcancel.trans (hread _)
  | false => exact (hcancel.trans (deliver_sameCore cfg _)).trans (hread _)

/-- A completed read leaves the core alone. -/
theorem readDone_sameCore (cfg : ClientConfig) (c : Client) (op : ReadOp) (bs : List UInt8) :
    SameCore c (c.readDone cfg op bs) := by
  cases op with
  | header =>
    refine SameCore.trans ?_ (onReadHeader_sameCore cfg _ false)
    exact .of_eq rfl rfl rfl rfl rfl rfl
  | body n =>
    refine SameCore.trans ?_ (onReadBody_sameCore cfg _ false)
    exact .of_eq rfl rfl rfl rfl rfl rfl

/-- A failed read leaves the core alone. -/
theorem readFail_sameCore (cfg : ClientConfig) (c : Client) (op : ReadOp) :
    SameCore c (c.readFail cfg op) := by
  cases op with
  | header =>
    refine SameCore.trans ?_ (onReadHeader_sameCore cfg _ true)
    exact .of_eq rfl rfl rfl rfl rfl rfl
  | body n =>
    refine SameCore.trans ?_ (onReadBody_sameCore cfg _ true)
    exact .of_eq rfl rfl rfl rfl rfl rfl

/-- What a step does to the core, by the event. -/
theorem acts_of_step {cfg : ClientConfig} {c c' : Client} {e : Event}
    (h : step cfg c e = some c') : Acts cfg c e c' := by
  cases transition_of_step h with
  | connect timeoutMs hidle hreading => exact .other _ _ rfl (.of_eq rfl rfl rfl rfl rfl rfl)
  | sendPacket p => exact .sendPacket p
  | sendRequest data gap => exact .sendRequest data gap
  | close => exact .close
  | connectDone ec hconnecting => exact .connectDone ec
  | runPosted pkt rest hposted => exact .runPosted pkt rest hposted
  | readDone op bs hreading hlength => exact .other _ _ rfl (readDone_sameCore cfg c op bs)
  | readFail op hreading => exact .other _ _ rfl (readFail_sameCore cfg c op)
  | writeDone ec hwriting => exact .writeDone ec hwriting
  | timerDue t c' hdue =>
    -- of the four timers only that of the sweep is part of the core
    cases t with
    | response =>
      obtain ⟨⟨_, t⟩, ht, rfl⟩ := Option.map_eq_some_iff.mp hdue
      exact .sweepFire t ht
    | _ =>
      obtain ⟨⟨-, t⟩, -, rfl⟩ := Option.map_eq_some_iff.mp hdue
      exact .other _ _ rfl (.of_eq rfl rfl rfl rfl rfl rfl)
  | timerAborted t c' haborted =>
    cases t with
    | response =>
      obtain ⟨⟨_, t⟩, ht, rfl⟩ := Option.map_eq_some_iff.mp haborted
      exact .sweepAborted t ht
    | _ =>
      obtain ⟨⟨-, t⟩, -, rfl⟩ := Option.map_eq_some_iff.mp haborted
      exact .other _ _ rfl (.of_eq rfl rfl rfl rfl rfl rfl)
  | startRequest data => exact .startRequest data
  | armStarted q hq => exact .armStarted q hq
  | sweepNext now hsweeping => exact .sweepNext now hsweeping
  | sweepRearm next hsweeping => exact .sweepRearm next hsweeping
  | tick d => exact .tick d
  | expire t c' hexpire =>
    cases t with
    | response =>
      obtain ⟨t, ht, rfl⟩ := Option.map_eq_some_iff.mp hexpire
      exact .sweepExpire t ht
    | _ =>
      obtain ⟨t, -, rfl⟩ := Option.map_eq_some_iff.mp hexpire
      exact .other _ _ rfl (.of_eq rfl rfl rfl rfl rfl rfl)

/-- The calls of a sweep in one piece. -/
theorem sweepFire_eq (cfg : ClientConfig) (c : Client) :
    c.sweepFire cfg = { c with
      responses := c.responses.sweep c.now
      calls := c.calls ++
        if cfg.onTimeout then (c.responses.expired c.now).map .timeout else [] } := by
  have hfold (l : List UInt32) (c : Client) :
      l.foldl (fun c seq => c.call cfg.onTimeout (.timeout seq)) c
        = { c with calls := c.calls ++ if cfg.onTimeout then l.map .timeout else [] } := by
    induction l generalizing c with
    | nil => simp
    | cons seq l ih =>
      rw [List.foldl_cons, ih, call]
      cases cfg.onTimeout <;> simp
  rw [sweepFire, hfold]

/-! ## The calls into the application -/

/-- The calls into the application that an event makes. -/
def newCalls (cfg : ClientConfig) (c : Client) : Event → List ClientCall
  | .close => if cfg.onClose then [.close] else []
  | .connectDone ec => if cfg.connectHandler then [.connected ec] else []
  | .readDone bs =>
    match c.rx.reading with
    | some (.body _) =>
      (if c.rx.lastPacketId == 0x81 && cfg.onBind then [.bind bs] else []) ++
        if cfg.onPacket then
          [.packet ⟨c.rx.lastPacketId, c.rx.lastStatus, c.rx.lastSequence, bs⟩]
        else []
    | _ => []
  | .timerDue .response =>
    if cfg.onTimeout then (c.responses.expired c.now).map .timeout else []
  | _ => []

/-- A handler of the application is called if it is set. -/
theorem call_calls (c : Client) (set : Bool) (k : ClientCall) :
    (c.call set k).calls = c.calls ++ if set then [k] else [] := by
  cases set <;> simp [call]

/-- The handler of a connect reports its outcome. -/
theorem onConnect_calls (cfg : ClientConfig) (c : Client) (ec : Bool) :
    (c.onConnect cfg ec).calls = c.calls ++ if cfg.connectHandler then [.connected ec] else [] := by
  refine (call_calls _ _ _).trans (congrArg (· ++ _) ?_)
  cases ec with
  | true => rfl
  | false =>
    simp only [Bool.false_eq_true, ↓reduceIte]
    split <;> rfl

/-- The handler of a header calls nothing. -/
theorem onReadHeader_calls (cfg : ClientConfig) (c : Client) (ec : Bool) :
    (c.onReadHeader cfg ec).calls = c.calls := by
  rw [onReadHeader]
  split
  · rfl
  · dsimp only
    split <;> rfl

/-- The handler of a body reports a bind response, and passes every packet on. -/
theorem onReadBody_calls (cfg : ClientConfig) (c : Client) (ec : Bool) :
    (c.onReadBody cfg ec).calls =
      if ec then c.calls
      else c.calls ++
        ((if c.rx.lastPacketId == 0x81 && cfg.onBind then [.bind c.rx.bodyBuf] else []) ++
          if cfg.onPacket then [.packet c.current] else []) := by
  have hread (c : Client) : (if c.running then c.doReadHeader cfg else c).calls = c.calls := by
    split <;> rfl
  refine (hread _).trans ?_
  cases ec with
  | true => rfl
  | false =>
    simp only [Bool.false_eq_true, ↓reduceIte, deliver, call_calls, List.append_assoc]
    rfl

/-- Every step makes these calls and no others. -/
theorem calls_step {cfg : ClientConfig} {c c' : Client} {e : Event} (h : step cfg c e = some c') :
    c'.calls = c.calls ++ c.newCalls cfg e := by
  cases transition_of_step h with
  | close => exact call_calls _ _ _
  | sendRequest data gap =>
    obtain ⟨r, now, heq⟩ := sendRequest_eq cfg c data gap
    rw [heq]
    exact (List.append_nil _).symm
  | startRequest data =>
    obtain ⟨r, heq⟩ := startRequest_eq cfg c data
    rw [heq]
    exact (List.append_nil _).symm
  | connectDone ec hconnecting => exact onConnect_calls cfg c ec
  | runPosted pkt rest hposted =>
    simp only [runPosted, newCalls, List.append_nil]
    split <;> rfl
  | readDone op bs hreading hlength =>
    -- a body may be handed on to a callback, a header is not
    cases op with
    | header =>
      simp only [newCalls, hreading, List.append_nil]
      exact onReadHeader_calls cfg _ false
    | body n =>
      simp only [newCalls, hreading]
      exact onReadBody_calls cfg _ false
  | readFail op hreading =>
    simp only [newCalls, List.append_nil]
    cases op with
    | header => exact onReadHeader_calls cfg _ true
    | body n => exact onReadBody_calls cfg _ true
  | timerDue t c' hdue =>
    cases t with
    | response =>
      obtain ⟨⟨_, t⟩, -, rfl⟩ := Option.map_eq_some_iff.mp hdue
      dsimp only
      rw [sweepFire_eq]
      rfl
    | _ =>
      obtain ⟨⟨_, t⟩, -, rfl⟩ := Option.map_eq_some_iff.mp hdue
      exact (List.append_nil _).symm
  | timerAborted t c' haborted =>
    cases t <;> obtain ⟨⟨_, t⟩, -, rfl⟩ := Option.map_eq_some_iff.mp haborted <;>
      exact (List.append_nil _).symm
  | expire t c' hexpire =>
    cases t <;> obtain ⟨t, -, rfl⟩ := Option.map_eq_some_iff.mp hexpire <;>
      exact (List.append_nil _).symm
  | _ => exact (List.append_nil _).symm

/-- A completed read leaves the flags of the client alone. -/
theorem readDone_flags (cfg : ClientConfig) (c : Client) (op : ReadOp) (bs : List UInt8) :
    (c.readDone cfg op bs).running = c.running ∧
      (c.readDone cfg op bs).connecting = c.connecting := by
  cases op with
  | header =>
    simp only [readDone, onReadHeader, Bool.false_eq_true, ↓reduceIte]
    split <;> exact ⟨rfl, rfl⟩
  | body n =>
    simp only [readDone, onReadBody, Bool.false_eq_true, ↓reduceIte]
    split <;> exact ⟨rfl, rfl⟩

end Client

end TurboNet
