import Mathlib.Data.List.Basic
import Mathlib.Tactic.Common
import TurboNet.Common.Lists
import TurboNet.Common.Machine
import TurboNet.Common.Table
import TurboNet.Common.Timer
import TurboNet.Wire.Frame

/-!
# The qwen server

Reference: `qwen/server.cpp`, `session`, `server`.

`Server.step` is the server with its sessions as a machine. Four threads run the handlers, so
whatever is not done under one lock, or by one handler on the strand of its session, is a step of
its own: `send_request_to_session` and `send_request_to_all` draw a number and start the timer of
the request, enter the request, and then send it.

How bytes are read and written is not part of this model: a packet comes in as a whole, a write is
of a whole packet, and each of them may fail instead. A session object lives as long as a read of it
is outstanding, since the handlers of reads hold a pointer to it and nothing else does;
`weak_ptr::lock` succeeds for as long. A read that fails, also because `graceful_close` has shut the
socket down, is a step that may be taken at any time. Time is in seconds, the unit of all times in
the source. `sequence_generator_` is drawn from by the sessions too.

`update_last_active_time` has no callers, so there is no step for it. The statistics, which are only
printed, and the addresses of the peers are left out.
-/

namespace TurboNet.Qwen

open Common

/-- `PKT_BIND_REQ` and the other packet types. -/
def pktBindReq : UInt8 := 0x01
def pktBindResp : UInt8 := 0x81
def pktSubmitReq : UInt8 := 0x02
def pktSubmitResp : UInt8 := 0x82
def pktHeartbeatReq : UInt8 := 0x03
def pktHeartbeatResp : UInt8 := 0x83
def pktUnbindReq : UInt8 := 0x04
def pktUnbindResp : UInt8 := 0x84

/-- `PKT_TIMEOUT_STATUS`. -/
def pktTimeoutStatus : UInt8 := 0xFF

/-! ## Sessions -/

structure Session where
  sessionId : UInt64
  /-- A read is outstanding. -/
  reading : Bool := true
  writeQueue : List Packet := []
  /-- A write of the front of the queue is outstanding. -/
  writing : Bool := false
  heartbeatTimer : Timer Unit := {}
  lastHeartbeatSeq : UInt32 := 0
  /-- The posted calls of `start_heartbeat`. -/
  heartbeatPosts : ℕ := 0
  /-- History: the packets that `handle_packet` has seen, with the times. -/
  handled : List (ℕ × Packet) := []
deriving DecidableEq, Repr

namespace Session

/-- `post_write`. -/
def postWrite (c : Session) (p : Packet) : Session :=
  { c with
    writeQueue := c.writeQueue ++ [p]
    writing := if c.writeQueue.isEmpty then true else c.writing }

/-- The handler of `do_write`, without an error. -/
def onWrite (c : Session) : Session :=
  { c with writeQueue := c.writeQueue.tail, writing := !c.writeQueue.tail.isEmpty }

/-- `start_heartbeat` with the number it has drawn. -/
def startHeartbeat (c : Session) (now : ℕ) (sequence : UInt32) : Session :=
  { c with
    heartbeatTimer := c.heartbeatTimer.arm (now + 10) ()
    lastHeartbeatSeq := sequence }.postWrite ⟨pktHeartbeatReq, 0, sequence, []⟩

/-- The answer to a heartbeat that was waited for. -/
def onHeartbeat (c : Session) : Session :=
  { c with heartbeatTimer := c.heartbeatTimer.cancel, heartbeatPosts := c.heartbeatPosts + 1 }

/-- The rest of `handle_packet`, when the server has seen the packet. -/
def answer (c : Session) (p : Packet) : Session :=
  if p.packetId = pktBindReq then c.postWrite ⟨pktBindResp, 0, p.sequence, []⟩
  else if p.packetId = pktSubmitReq then c.postWrite ⟨pktSubmitResp, 0, p.sequence, []⟩
  else if p.packetId = pktHeartbeatReq then c.postWrite ⟨pktHeartbeatResp, 0, p.sequence, []⟩
  else if p.packetId = pktUnbindReq then c.postWrite ⟨pktUnbindResp, 0, p.sequence, []⟩
  else if p.packetId = pktHeartbeatResp then
    if p.sequence = c.lastHeartbeatSeq then c.onHeartbeat else c
  else c

end Session

/-! ## The server -/

structure SessionMetadata where
  connectionTime : ℕ
  lastActiveTime : ℕ
deriving DecidableEq, Repr

structure PendingRequest where
  expectedType : UInt8
  /-- The call that made the entry, whose callback and timer it has. -/
  call : ℕ
deriving DecidableEq, Repr

/-- Where a call of `send_request_to_session` or `send_request_to_all` has got to. -/
inductive RequestPhase where
  | drawn
  | registered
  | done
deriving DecidableEq, Repr

/-- A call of `send_request_to_session`, or of `send_request_to_all` without a session. -/
structure RequestCall where
  session : Option UInt64
  requestType : UInt8
  payload : List UInt8
  /-- The callback is set. -/
  callback : Bool
  expectedType : UInt8
  timeout : ℕ
  sequence : UInt32
  timer : Timer Unit := {}
  phase : RequestPhase := .drawn
deriving DecidableEq, Repr

/-- The request waits for an answer. -/
def RequestCall.tracked (c : RequestCall) : Bool := c.callback && c.expectedType ≠ 0

/-- A call of the callback of a request: its arguments, and the packet that was the reason, if it
was not the timer. -/
structure Verdict where
  call : ℕ
  payload : List UInt8
  status : UInt8
  packet : Option Packet
deriving DecidableEq, Repr

structure Server where
  now : ℕ := 0
  /-- All sessions that have been accepted. -/
  objects : List Session := []
  nextSessionId : UInt64 := 1
  /-- `sessions_`, by the place of the session among all. -/
  sessions : Std.TreeMap UInt64 ℕ := ∅
  sessionMetadata : Std.TreeMap UInt64 SessionMetadata := ∅
  sessionStartTimes : Std.TreeMap UInt64 ℕ := ∅
  /-- An `int` in the source: there are fewer than 2^31 sessions at once. -/
  activeSessionsCount : ℤ := 0
  sequenceGenerator : UInt32 := 1
  pendingRequests : Std.TreeMap UInt32 PendingRequest := ∅
  /-- All calls of `send_request_to_session` and `send_request_to_all`. -/
  calls : List RequestCall := []
  /-- History: the calls of the callbacks of requests. -/
  verdicts : List Verdict := []
  /-- History: how many numbers `generate_sequence_number` has given. -/
  drawn : ℕ := 0

namespace Server

/-- `generate_sequence_number`. -/
def generateSequenceNumber (s : Server) : Server :=
  { s with sequenceGenerator := s.sequenceGenerator + 1, drawn := s.drawn + 1 }

/-- Do something to the session at this place. -/
def updateSession (s : Server) (j : ℕ) (f : Session → Session) : Server :=
  { s with objects := s.objects.modify j f }

/-- `session::send_packet`. -/
def sendPacket (s : Server) (j : ℕ) (p : Packet) : Server := s.updateSession j (·.postWrite p)

/-- `weak_ptr::lock` succeeds. -/
def alive (s : Server) (j : ℕ) : Bool := s.objects[j]?.any (·.reading)

/-- `session::start_heartbeat`. -/
def startHeartbeat (s : Server) (j : ℕ) : Server :=
  s.generateSequenceNumber.updateSession j (·.startHeartbeat s.now s.sequenceGenerator)

/-- `session::graceful_close`, up to the shutdown of the socket. -/
def gracefulClose (s : Server) (j : ℕ) : Server :=
  s.generateSequenceNumber.sendPacket j ⟨pktUnbindResp, 0, s.sequenceGenerator, []⟩

/-! ## Coming and going of sessions -/

/-- The handler of `async_accept`. -/
def accepted (s : Server) : Server :=
  { s with
    objects := s.objects ++ [({ sessionId := s.nextSessionId } : Session)]
    nextSessionId := s.nextSessionId + 1
    sessions := s.sessions.insert s.nextSessionId s.objects.length
    sessionMetadata := s.sessionMetadata.insert s.nextSessionId ⟨s.now, s.now⟩
    sessionStartTimes := s.sessionStartTimes.insert s.nextSessionId s.now
    activeSessionsCount := s.activeSessionsCount + 1 }.startHeartbeat s.objects.length

/-- The first part of `remove_session`: close the session that is found, and take it out of
`sessions_`. -/
def closeSession (s : Server) (id : UInt64) : Server :=
  match s.sessions[id]? with
  | some j =>
    { (if s.alive j then s.gracefulClose j else s) with sessions := s.sessions.erase id }
  | none => s

/-- `remove_session`. -/
def removeSession (s : Server) (id : UInt64) : Server :=
  let s := s.closeSession id
  let s := if s.sessionMetadata.contains id then
      { s with
        sessionStartTimes := s.sessionStartTimes.erase id
        sessionMetadata := s.sessionMetadata.erase id }
    else s
  -- not only when a session was found
  { s with activeSessionsCount := s.activeSessionsCount - 1 }

/-- A round of the loop of `check_expired_sessions`, for a session that has been idle too long. -/
def expireSession (s : Server) (id : UInt64) : Server :=
  { s with
    sessions := s.sessions.erase id
    sessionStartTimes := s.sessionStartTimes.erase id
    sessionMetadata := s.sessionMetadata.erase id
    activeSessionsCount := s.activeSessionsCount - 1 }

/-- `now - last_active_time > max_idle_time_seconds_`. -/
def idleTooLong (maxIdle : ℤ) (s : Server) (m : SessionMetadata) : Bool :=
  maxIdle < (s.now : ℤ) - m.lastActiveTime

/-- `check_expired_sessions`. -/
def checkExpiredSessions (maxIdle : ℤ) (s : Server) : Server :=
  (keysWhere s.sessionMetadata (s.idleTooLong maxIdle)).foldl expireSession s

/-! ## Requests -/

/-- The timer of a call. -/
def updateTimer (s : Server) (k : ℕ) (f : Timer Unit → Timer Unit) : Server :=
  { s with calls := s.calls.modify k fun c => { c with timer := f c.timer } }

/-- `send_request_to_session` and `send_request_to_all` up to the timer. -/
def sendRequest (s : Server) (session : Option UInt64) (requestType : UInt8) (payload : List UInt8)
    (callback : Bool) (expectedType : UInt8) (timeout : ℕ) : Server :=
  let c : RequestCall :=
    { session, requestType, payload, callback, expectedType, timeout,
      sequence := s.sequenceGenerator }
  { s.generateSequenceNumber with calls := s.calls ++
      [if c.tracked then { c with timer := c.timer.arm (s.now + timeout) () } else c] }

/-- The call enters the request into `pending_requests_`. -/
def register (s : Server) (k : ℕ) (c : RequestCall) : Server :=
  { s with
    calls := s.calls.set k { c with phase := .registered }
    pendingRequests := if c.tracked then
        s.pendingRequests.insert c.sequence ⟨c.expectedType, k⟩
      else s.pendingRequests }

/-- The sessions that the call sends to: the one that `get_session` finds, or all. -/
def recipients (s : Server) (c : RequestCall) : List ℕ :=
  match c.session with
  | some id => s.sessions[id]?.toList.filter s.alive
  | none => s.sessions.values.filter s.alive

/-- The call sends the request and returns. -/
def transmit (s : Server) (k : ℕ) (c : RequestCall) : Server :=
  (s.recipients c).foldl (fun s j => s.sendPacket j ⟨c.requestType, 0, c.sequence, c.payload⟩)
    { s with calls := s.calls.set k { c with phase := .done } }

/-- `handle_response`. -/
def handleResponse (s : Server) (p : Packet) : Server :=
  match s.pendingRequests[p.sequence]? with
  | some r =>
    -- any packet with the number takes the entry, also one of another type
    { s.updateTimer r.call Timer.cancel with
      verdicts := s.verdicts ++
        if r.expectedType = p.packetId then [⟨r.call, p.payload, p.status, some p⟩] else []
      pendingRequests := s.pendingRequests.erase p.sequence }
  | none => s

/-- The handler of the timer of a request. -/
def onTimeout (s : Server) (sequence : UInt32) : Server :=
  match s.pendingRequests[sequence]? with
  | some r =>
    { s with
      verdicts := s.verdicts ++ [⟨r.call, [], pktTimeoutStatus, none⟩]
      pendingRequests := s.pendingRequests.erase sequence }
  | none => s

/-- `handle_packet`. -/
def handlePacket (s : Server) (j : ℕ) (p : Packet) : Server :=
  (s.handleResponse p).updateSession j fun c =>
    { c with handled := c.handled ++ [(s.now, p)] }.answer p

/-! ## The server as a machine -/

inductive Event where
  /-- The handler of `async_accept`. -/
  | accept (error : Bool)
  /-- A read of the session at place `j` completes a packet, brings a length that is too short, or
  fails. -/
  | handlePacket (j : ℕ) (p : Packet)
  | shortLength (j : ℕ)
  | readError (j : ℕ)
  /-- A write of the session completes or fails. -/
  | writeDone (j : ℕ)
  | writeError (j : ℕ)
  /-- The heartbeat timer of the session expires; its handler runs; a posted `start_heartbeat`
  runs. -/
  | heartbeatExpire (j : ℕ)
  | heartbeatTimeout (j : ℕ)
  | startHeartbeat (j : ℕ)
  /-- `check_expired_sessions`. -/
  | checkExpiredSessions
  /-- The steps of `send_request_to_session` and `send_request_to_all`. -/
  | sendRequest (session : Option UInt64) (requestType : UInt8) (payload : List UInt8)
      (callback : Bool) (expectedType : UInt8) (timeout : ℕ)
  | register (k : ℕ)
  | transmit (k : ℕ)
  /-- The timer of a request expires; its handler runs. -/
  | expire (k : ℕ)
  | timeout (k : ℕ)
  /-- Time passes. -/
  | tick (d : ℕ)
deriving DecidableEq

/-- The call with this number, if it is in this phase. -/
def callIn (s : Server) (k : ℕ) (phase : RequestPhase) : Option RequestCall :=
  s.calls[k]?.filter (·.phase = phase)

/-- The session at this place, if a read of it is outstanding. -/
def readingAt (s : Server) (j : ℕ) : Option Session := s.objects[j]?.filter (·.reading)

/-- The session at this place, if a write of it is outstanding. -/
def writingAt (s : Server) (j : ℕ) : Option Session := s.objects[j]?.filter (·.writing)

def step (maxIdle : ℤ) (s : Server) : Event → Option Server
  | .accept error => some (if error then s else s.accepted)
  | .handlePacket j p => (s.readingAt j).map fun _ => s.handlePacket j p
  | .shortLength j => (s.readingAt j).map fun _ => s.updateSession j ({ · with reading := false })
  -- the handler holds a pointer to the session until it has removed it
  | .readError j => (s.readingAt j).map fun c =>
      (s.removeSession c.sessionId).updateSession j ({ · with reading := false })
  | .writeDone j => (s.writingAt j).map fun _ => s.updateSession j Session.onWrite
  | .writeError j => (s.writingAt j).map fun c =>
      (s.updateSession j ({ · with writing := false })).removeSession c.sessionId
  | .heartbeatExpire j => s.objects[j]?.bind fun c =>
      (c.heartbeatTimer.expire s.now).map fun timer =>
        s.updateSession j ({ · with heartbeatTimer := timer })
  | .heartbeatTimeout j => s.objects[j]?.bind fun c => c.heartbeatTimer.takeDue.map fun x =>
      (s.updateSession j ({ · with heartbeatTimer := x.2 })).removeSession c.sessionId
  | .startHeartbeat j => (s.objects[j]?.filter (0 < ·.heartbeatPosts)).map fun c =>
      (s.updateSession j ({ · with heartbeatPosts := c.heartbeatPosts - 1 })).startHeartbeat j
  | .checkExpiredSessions => some (s.checkExpiredSessions maxIdle)
  | .sendRequest session requestType payload callback expectedType timeout =>
    some (s.sendRequest session requestType payload callback expectedType timeout)
  | .register k => (s.callIn k .drawn).map (s.register k)
  | .transmit k => (s.callIn k .registered).map (s.transmit k)
  | .expire k => s.calls[k]?.bind fun c => (c.timer.expire s.now).map fun timer =>
      s.updateTimer k fun _ => timer
  | .timeout k => s.calls[k]?.bind fun c => c.timer.takeDue.map fun x =>
      (s.updateTimer k fun _ => x.2).onTimeout c.sequence
  | .tick d => some { s with now := s.now + d }

variable {maxIdle : ℤ} {s t : Server} {e : Event}

/-- The steps, each with its guard and the state that it leads to. -/
inductive Stepped (maxIdle : ℤ) (s : Server) : Event → Server → Prop where
  | accepted : Stepped maxIdle s (.accept false) s.accepted
  | acceptError : Stepped maxIdle s (.accept true) s
  | handlePacket (j : ℕ) (p : Packet) (c : Session) (hc : s.readingAt j = some c) :
      Stepped maxIdle s (.handlePacket j p) (s.handlePacket j p)
  | shortLength (j : ℕ) (c : Session) (hc : s.readingAt j = some c) :
      Stepped maxIdle s (.shortLength j) (s.updateSession j ({ · with reading := false }))
  | readError (j : ℕ) (c : Session) (hc : s.readingAt j = some c) :
      Stepped maxIdle s (.readError j)
        ((s.removeSession c.sessionId).updateSession j ({ · with reading := false }))
  | writeDone (j : ℕ) (c : Session) (hc : s.writingAt j = some c) :
      Stepped maxIdle s (.writeDone j) (s.updateSession j Session.onWrite)
  | writeError (j : ℕ) (c : Session) (hc : s.writingAt j = some c) :
      Stepped maxIdle s (.writeError j)
        ((s.updateSession j ({ · with writing := false })).removeSession c.sessionId)
  | heartbeatExpire (j : ℕ) (c : Session) (timer : Timer Unit) (hc : s.objects[j]? = some c)
      (htimer : c.heartbeatTimer.expire s.now = some timer) :
      Stepped maxIdle s (.heartbeatExpire j)
        (s.updateSession j ({ · with heartbeatTimer := timer }))
  | heartbeatTimeout (j : ℕ) (c : Session) (timer : Timer Unit) (hc : s.objects[j]? = some c)
      (htimer : c.heartbeatTimer.takeDue = some ((), timer)) :
      Stepped maxIdle s (.heartbeatTimeout j)
        ((s.updateSession j ({ · with heartbeatTimer := timer })).removeSession c.sessionId)
  | startHeartbeat (j : ℕ) (c : Session)
      (hc : s.objects[j]?.filter (0 < ·.heartbeatPosts) = some c) :
      Stepped maxIdle s (.startHeartbeat j)
        ((s.updateSession j ({ · with heartbeatPosts := c.heartbeatPosts - 1 })).startHeartbeat j)
  | checkExpiredSessions :
      Stepped maxIdle s .checkExpiredSessions (s.checkExpiredSessions maxIdle)
  | sendRequest (session : Option UInt64) (requestType : UInt8) (payload : List UInt8)
      (callback : Bool) (expectedType : UInt8) (timeout : ℕ) :
      Stepped maxIdle s (.sendRequest session requestType payload callback expectedType timeout)
        (s.sendRequest session requestType payload callback expectedType timeout)
  | register (k : ℕ) (c : RequestCall) (hcall : s.callIn k .drawn = some c) :
      Stepped maxIdle s (.register k) (s.register k c)
  | transmit (k : ℕ) (c : RequestCall) (hcall : s.callIn k .registered = some c) :
      Stepped maxIdle s (.transmit k) (s.transmit k c)
  | expire (k : ℕ) (c : RequestCall) (timer : Timer Unit) (hc : s.calls[k]? = some c)
      (htimer : c.timer.expire s.now = some timer) :
      Stepped maxIdle s (.expire k) (s.updateTimer k fun _ => timer)
  | timeout (k : ℕ) (c : RequestCall) (timer : Timer Unit) (hc : s.calls[k]? = some c)
      (htimer : c.timer.takeDue = some ((), timer)) :
      Stepped maxIdle s (.timeout k) ((s.updateTimer k fun _ => timer).onTimeout c.sequence)
  | tick (d : ℕ) : Stepped maxIdle s (.tick d) { s with now := s.now + d }

/-- A step has its guard and its state, as listed. -/
theorem stepped_of_step (h : step maxIdle s e = some t) : Stepped maxIdle s e t := by
  cases e with
  | accept error =>
    cases error with
    | false => cases h; exact .accepted
    | true => cases h; exact .acceptError
  | handlePacket j p =>
    obtain ⟨c, hc, rfl⟩ := Option.map_eq_some_iff.mp h
    exact .handlePacket j p c hc
  | shortLength j =>
    obtain ⟨c, hc, rfl⟩ := Option.map_eq_some_iff.mp h
    exact .shortLength j c hc
  | readError j =>
    obtain ⟨c, hc, rfl⟩ := Option.map_eq_some_iff.mp h
    exact .readError j c hc
  | writeDone j =>
    obtain ⟨c, hc, rfl⟩ := Option.map_eq_some_iff.mp h
    exact .writeDone j c hc
  | writeError j =>
    obtain ⟨c, hc, rfl⟩ := Option.map_eq_some_iff.mp h
    exact .writeError j c hc
  -- a timer is that of a session or of a request, which has to be there
  | heartbeatExpire j =>
    obtain ⟨c, hc, h⟩ := Option.bind_eq_some_iff.mp h
    obtain ⟨timer, htimer, rfl⟩ := Option.map_eq_some_iff.mp h
    exact .heartbeatExpire j c timer hc htimer
  | heartbeatTimeout j =>
    obtain ⟨c, hc, h⟩ := Option.bind_eq_some_iff.mp h
    obtain ⟨⟨_, timer⟩, htimer, rfl⟩ := Option.map_eq_some_iff.mp h
    exact .heartbeatTimeout j c timer hc htimer
  | startHeartbeat j =>
    obtain ⟨c, hc, rfl⟩ := Option.map_eq_some_iff.mp h
    exact .startHeartbeat j c hc
  | checkExpiredSessions => cases h; exact .checkExpiredSessions
  | sendRequest => cases h; exact .sendRequest _ _ _ _ _ _
  | register k =>
    obtain ⟨c, hcall, rfl⟩ := Option.map_eq_some_iff.mp h
    exact .register k c hcall
  | transmit k =>
    obtain ⟨c, hcall, rfl⟩ := Option.map_eq_some_iff.mp h
    exact .transmit k c hcall
  | expire k =>
    obtain ⟨c, hc, h⟩ := Option.bind_eq_some_iff.mp h
    obtain ⟨timer, htimer, rfl⟩ := Option.map_eq_some_iff.mp h
    exact .expire k c timer hc htimer
  | timeout k =>
    obtain ⟨c, hc, h⟩ := Option.bind_eq_some_iff.mp h
    obtain ⟨⟨_, timer⟩, htimer, rfl⟩ := Option.map_eq_some_iff.mp h
    exact .timeout k c timer hc htimer
  | tick d => cases h; exact .tick d

/-! ## What a session has seen -/

/-- The packets that the session at place `j` has handled, with the times. -/
def handledBy (s : Server) (j : ℕ) : List (ℕ × Packet) :=
  (s.objects[j]?.map Session.handled).getD []

/-- What an event at this time adds to them. -/
def Event.handles (now j : ℕ) : Event → List (ℕ × Packet)
  | .handlePacket i p => if i = j then [(now, p)] else []
  | _ => []

/-- An update that leaves the history leaves what has been handled. -/
theorem handledBy_updateSession (s : Server) (i j : ℕ) {f : Session → Session}
    (hf : ∀ c, (f c).handled = c.handled) : (s.updateSession i f).handledBy j = s.handledBy j := by
  simp only [handledBy, updateSession, List.getElem?_modify]
  cases s.objects[j]? with
  | none => rfl
  | some c =>
    by_cases hij : i = j
    · simp [hij, hf]
    · simp [hij]

/-- An answer is no packet that comes in. -/
theorem handled_answer (c : Session) (p : Packet) : (c.answer p).handled = c.handled := by
  simp only [Session.answer]
  repeat' split
  all_goals rfl

/-- Neither is a packet that is sent. -/
theorem handledBy_sendPacket (s : Server) (i j : ℕ) (p : Packet) :
    (s.sendPacket i p).handledBy j = s.handledBy j :=
  s.handledBy_updateSession i j fun _ => rfl

/-- A heartbeat handles nothing. -/
theorem handledBy_startHeartbeat (s : Server) (i j : ℕ) :
    (s.startHeartbeat i).handledBy j = s.handledBy j :=
  handledBy_updateSession s.generateSequenceNumber i j fun _ => rfl

/-- Removing a session handles nothing. -/
theorem handledBy_removeSession (s : Server) (id : UInt64) (j : ℕ) :
    (s.removeSession id).handledBy j = s.handledBy j := by
  have hclose : (s.closeSession id).handledBy j = s.handledBy j := by
    rw [closeSession]
    split
    · split
      · exact handledBy_sendPacket s.generateSequenceNumber _ j _
      · rfl
    · rfl
  rw [← hclose, removeSession]
  split <;> rfl

/-- Accepting one handles nothing. -/
theorem handledBy_accepted (s : Server) (j : ℕ) : s.accepted.handledBy j = s.handledBy j := by
  rw [accepted, handledBy_startHeartbeat]
  simp only [handledBy]
  rcases Nat.lt_trichotomy j s.objects.length with hlt | rfl | hlt
  · rw [List.getElem?_append_left hlt]
  · rw [List.getElem?_concat_length, List.getElem?_eq_none (Nat.le_refl _)]
    rfl
  · rw [List.getElem?_eq_none (by rw [List.length_append]; exact hlt),
      List.getElem?_eq_none (by omega)]

/-- `handle_packet` handles the packet for its own session. -/
theorem handledBy_handlePacket (s : Server) (i j : ℕ) (p : Packet) (hi : i < s.objects.length) :
    (s.handlePacket i p).handledBy j =
      s.handledBy j ++ (Event.handlePacket i p).handles s.now j := by
  have hobjects : (s.handleResponse p).objects = s.objects := by
    rw [handleResponse]
    split <;> rfl
  simp only [handledBy, handlePacket, updateSession, hobjects, List.getElem?_modify, Event.handles]
  by_cases hij : i = j
  · subst hij
    rw [List.getElem?_eq_getElem hi]
    simp [handled_answer]
  · simp [hij]

/-- A session has handled the packets of its events. -/
theorem handledBy_step (h : step maxIdle s e = some t) (j : ℕ) :
    t.handledBy j = s.handledBy j ++ e.handles s.now j := by
  -- all steps but one see no packet
  have hsame (hhandled : t.handledBy j = s.handledBy j) (he : e.handles s.now j = []) :
      t.handledBy j = s.handledBy j ++ e.handles s.now j := by
    rw [hhandled, he, List.append_nil]
  cases stepped_of_step h with
  | accepted => exact hsame (s.handledBy_accepted j) rfl
  | acceptError => exact hsame rfl rfl
  | handlePacket i p c hc =>
    obtain ⟨hc, -⟩ := Option.filter_eq_some_iff.mp hc
    exact s.handledBy_handlePacket i j p (List.getElem?_eq_some_iff.mp hc).1
  | shortLength i => exact hsame (s.handledBy_updateSession i j fun _ => rfl) rfl
  | readError i c =>
    refine hsame ?_ rfl
    rw [← s.handledBy_removeSession c.sessionId j]
    exact handledBy_updateSession _ i j fun _ => rfl
  | writeDone i => exact hsame (s.handledBy_updateSession i j fun _ => rfl) rfl
  | writeError i =>
    refine hsame ?_ rfl
    rw [handledBy_removeSession]
    exact s.handledBy_updateSession i j fun _ => rfl
  | heartbeatExpire i => exact hsame (s.handledBy_updateSession i j fun _ => rfl) rfl
  | heartbeatTimeout i =>
    refine hsame ?_ rfl
    rw [handledBy_removeSession]
    exact s.handledBy_updateSession i j fun _ => rfl
  | startHeartbeat i =>
    refine hsame ?_ rfl
    rw [handledBy_startHeartbeat]
    exact s.handledBy_updateSession i j fun _ => rfl
  | checkExpiredSessions =>
    have hexpire (s : Server) (id : UInt64) :
        (s.expireSession id).handledBy j = s.handledBy j := rfl
    exact hsame (foldl_keeps (g := (handledBy · j)) hexpire s _) rfl
  | sendRequest => exact hsame rfl rfl
  | register => exact hsame rfl rfl
  | transmit k c =>
    have hsend (s : Server) (i : ℕ) :
        (s.sendPacket i ⟨c.requestType, 0, c.sequence, c.payload⟩).handledBy j = s.handledBy j :=
      s.handledBy_sendPacket i j _
    exact hsame (foldl_keeps (g := (handledBy · j)) hsend _ _) rfl
  | expire => exact hsame rfl rfl
  | timeout =>
    refine hsame ?_ rfl
    rw [onTimeout]
    split <;> rfl
  | tick => exact hsame rfl rfl

end Server

end TurboNet.Qwen
