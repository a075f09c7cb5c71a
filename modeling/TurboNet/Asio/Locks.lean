import TurboNet.Common.Locks
import TurboNet.Asio.Server

/-!
# The locks of the asio server

Reference: `claude/asio_server.cpp`, `TcpServer`, `Connection::processPacket`, the handlers of reads
and writes of `Connection`.

The server again, this time with its threads: `lockProgram` has the functions of the server
instruction by instruction, as far as it is about `mutex_` and `requestsMutex_`, the calls of the
callbacks of the application, and what these depend on. The steps between two instructions are those
of `TcpServer`. What `Connection::sendPacket` and `Connection::close` post to the strand of a
connection is left out. The handlers of one connection do not overlap.

The application calls seven of the public methods, those that answer a question, send something or
close one connection (`Method`). `stop` joins the threads of the pool, which are not objects of the
model; `registerConnection` and `unregisterConnection` are only called by the server itself, as
parts of its handlers, and `sendPacketTo` and `broadcastPacket` as parts of other methods.

`unregisterConnection` calls the closed callback while it holds `mutex_`, and `checkTimeouts` the
timeout callback while it holds `requestsMutex_`; `handleIncomingPacket` has released
`requestsMutex_` when it calls the callback of a request. `not_selfLock_of_permitted` says which
calls of the application in these callbacks make a thread wait for itself.
-/

namespace TurboNet.Asio

open Common

/-- `mutex_` and `requestsMutex_`. -/
inductive Mutex where
  | mutex
  | requestsMutex
deriving DecidableEq, Repr

/-- The callbacks of the application. -/
inductive AppCallback where
  | timeout
  | closed
  | response
  | packet
deriving DecidableEq, Repr

/-- `connections_.find(id)`. -/
inductive Lookup where
  | find (id : Int32)
deriving DecidableEq, Repr

/-- The server, with what matters for locks only. -/
structure Locked where
  server : TcpServer := {}
  /-- `closedCallback_` is set. -/
  closedCallback : Bool := false
  /-- The numbers of the connections that a handler is running for. -/
  strands : List ℕ := []
  /-- History: what `connectionCount` has returned. -/
  counts : List ℕ := []

/-- What the threads of the server do: calls of `setCallbacks`, `setTimeoutCallback` and `start`,
handlers of the acceptor, of the connection with number `j` and of the timer, and
`handleIncomingPacket`. Time passes, and the timer expires. -/
inductive Proc where
  | setCallbacks (packet closed : Bool)
  | setTimeoutCallback (set : Bool)
  | start
  | accept (error : Bool)
  | processPacket (j : ℕ) (p : Packet)
  | ioError (j : ℕ)
  | handleIncomingPacket (d : Dispatch)
  | checkTimeouts (error : Bool)
  | tick (d : ℕ)
  | expire
deriving DecidableEq

/-- The public methods that the application calls. `getNextSequence` and `getServerId` take no lock
and read nothing that is written under one; the others that are left out are named above. -/
inductive Method where
  | sendRequest (id : Int32) (data : List UInt8) (timeout : ℕ)
      (responseCallback timeoutCallback : Bool)
  | cancelRequest (sequence : UInt32)
  | sendTo (id : Int32) (packetId status : UInt8) (data : List UInt8)
  | broadcast (packetId status : UInt8) (data : List UInt8)
  | connectionCount
  | getClientInfo (id : Int32)
  | closeConnection (id : Int32)
deriving DecidableEq

abbrev ServerCode := Code Mutex Locked Lookup AppCallback Proc

namespace Locked

/-- Something that is done to the server. -/
def update (f : TcpServer → TcpServer) (s : Locked) : Locked := { s with server := f s.server }

/-- The handler of a connection returns. -/
def release (j : ℕ) (s : Locked) : Locked := { s with strands := s.strands.erase j }

/-- `connections_.size()`. -/
def count (s : Locked) : Locked :=
  { s with counts := s.counts ++ [s.server.connections.countP (·.registered)] }

/-- Take up a handler of a connection. -/
def occupy (j : ℕ) (s : Locked) : Option Locked :=
  if j ∈ s.strands ∨ s.server.connections.length ≤ j then none
  else some { s with strands := j :: s.strands }

end Locked

open Locked

/-! ## The public methods -/

/-- `sendPacketTo`. -/
def sendPacketToCode (id : Int32) (p : Packet) : ServerCode :=
  .lock .mutex <| .test (.find id) fun _ => .act (update (·.sendPacketTo id p)) fun _ =>
    .unlock .mutex .done

/-- `sendRequest`, from the registration of the request on. -/
def registerCode (k : ℕ) (c : RequestCall) : ServerCode :=
  .lock .requestsMutex <| .act (update (·.register k c)) fun _ => .unlock .requestsMutex <|
    -- `timeoutTimerRunning_` is read without the lock first
    .act id fun s =>
      if s.server.timeoutTimerRunning then .act (update (·.setPhase k c .done)) fun _ => .done
      else .lock .requestsMutex <| .act (update (·.ensureTimer k c)) fun _ =>
        .unlock .requestsMutex .done

/-- `sendRequest`. -/
def sendRequestCode (id : Int32) (data : List UInt8) (timeout : ℕ)
    (responseCallback timeoutCallback : Bool) : ServerCode :=
  .act (update (·.sendRequest id data timeout responseCallback timeoutCallback)) fun s =>
    let k := s.server.calls.length
    let c : RequestCall :=
      ⟨id, data, timeout, responseCallback, timeoutCallback, s.server.nextSequence, .drawn⟩
    .lock .mutex <| .test (.find id) fun found => .act (update (·.sendDrawn k c)) fun _ =>
      .unlock .mutex <| if found then registerCode k c else .done

/-- `connectionCount`. -/
def connectionCountCode : ServerCode :=
  .lock .mutex <| .act count fun _ => .unlock .mutex .done

/-- `getClientInfo` and `closeConnection` look the connection up under the lock. What they do with
it, to ask for its name or to post to its strand, is left out. -/
def findConnectionCode (id : Int32) : ServerCode :=
  .lock .mutex <| .test (.find id) fun _ => .unlock .mutex .done

def methodCode : Method → ServerCode
  | .sendRequest id data timeout responseCallback timeoutCallback =>
    sendRequestCode id data timeout responseCallback timeoutCallback
  | .cancelRequest sequence =>
    .lock .requestsMutex <| .act (update (·.cancelRequest sequence)) fun _ =>
      .unlock .requestsMutex .done
  | .sendTo id packetId status data => .act (update (·.getNextSequence)) fun s =>
      sendPacketToCode id (createPacket ⟨packetId, status, s.server.nextSequence, data⟩)
  | .broadcast packetId status data => .act (update (·.getNextSequence)) fun s =>
      .lock .mutex <| .act (update (·.broadcastPacket
        (createPacket ⟨packetId, status, s.server.nextSequence, data⟩))) fun _ =>
      .unlock .mutex .done
  | .connectionCount => connectionCountCode
  | .getClientInfo id => findConnectionCode id
  | .closeConnection id => findConnectionCode id

/-! ## The handlers -/

/-- `unregisterConnection`, followed by the rest of the handler. -/
def unregisterCode (id : Int32) (rest : ServerCode) : ServerCode :=
  .lock .mutex <|
  .act (update (·.updateWhere (·.id = id) ({ · with registered := false }))) fun s =>
    if s.closedCallback then .callback .closed (.unlock .mutex rest) else .unlock .mutex rest

/-- `packetCallback_` is called, by `processPacket` or by `handleIncomingPacket`. -/
def packetCallbackCode (callback : PacketCallback) (d : Dispatch) (rest : ServerCode) :
    ServerCode :=
  match callback with
  | .unset => rest
  | .user =>
    .act (update fun t => { t with userPackets := t.userPackets ++ [(d.connectionId, d.packet)] })
      fun _ => .callback .packet rest
  | .redirect => .call (.handleIncomingPacket d) rest

/-- `handleIncomingPacket`. -/
def handleIncomingPacketCode (d : Dispatch) : ServerCode :=
  let rest : ServerCode := .act id fun s => packetCallbackCode s.server.packetCallback d .done
  if d.packet.header.packetId = idResponse then
    .lock .requestsMutex <| .act (update (·.takePending d)) fun s => .unlock .requestsMutex <|
      if s.server.pendingRequests[d.packet.header.sequence]?.any (·.callback) then
        .callback .response rest
      else rest
  else rest

/-- `processPacket`. -/
def processPacketCode (serverId : List UInt8) (j : ℕ) (p : Packet) : ServerCode :=
  .act (update (·.updateConnection j (Connection.receive p))) fun s =>
    match s.server.connections[j]? with
    | some c =>
      let d : Dispatch := ⟨j, c.id, p, c.received.length⟩
      packetCallbackCode c.packetCallback d <|
        .act (update (·.callbackDone serverId d)) fun _ => .act (release j) fun _ => .done
    | none => .done

/-- The handler of a read or a write of the connection that has failed. -/
def ioErrorCode (j : ℕ) : ServerCode :=
  .act id fun s =>
    match s.server.connections[j]? with
    | some c => unregisterCode c.id <| .act (release j) fun _ => .done
    | none => .done

/-- `checkTimeouts`, after the sweep. -/
def finishSweepCode (hasPending : Bool) : ServerCode :=
  if hasPending then .act (update (·.armTimer)) fun _ => .done
  else .lock .requestsMutex <| .act (update ({ · with timeoutTimerRunning := false })) fun _ =>
    .unlock .requestsMutex .done

/-- The loop of `checkTimeouts` over the expired requests. -/
def sweepCode : List UInt32 → ServerCode
  | [] => .act id fun s =>
      .unlock .requestsMutex (finishSweepCode !s.server.pendingRequests.isEmpty)
  | sequence :: rest =>
    let erase : ServerCode := .act (update (·.cancelRequest sequence)) fun _ => sweepCode rest
    .act (update fun t => { t with
        timeouts := t.timeouts ++ (t.timeoutCallback.map (·, sequence)).toList }) fun s =>
      if s.server.timeoutCallback.isSome then .callback .timeout erase else erase

/-- `checkTimeouts`. -/
def checkTimeoutsCode (error : Bool) : ServerCode :=
  if error then
    .lock .requestsMutex <| .act (update ({ · with timeoutTimerRunning := false })) fun _ =>
      .unlock .requestsMutex .done
  else
    .act id fun now => .lock .requestsMutex <| .act id fun s =>
      sweepCode (keysWhere s.server.pendingRequests fun e => e.expiryTime ≤ now.server.now)

def procCode (serverId : List UInt8) : Proc → ServerCode
  | .accept error =>
    if error then .act (update (·.accepted true)) fun _ => .done
    else .lock .mutex <| .act (update (·.accepted false)) fun _ => .unlock .mutex .done
  | .processPacket j p => processPacketCode serverId j p
  | .ioError j => ioErrorCode j
  | .handleIncomingPacket d => handleIncomingPacketCode d
  | .checkTimeouts error => checkTimeoutsCode error
  | _ => .done

/-- What happens to the server when a thread takes up one of these. -/
def takeUp (q : Proc) (s : Locked) : Option Locked :=
  match q with
  | .setCallbacks packet closed => some { s with
      server := { s.server with packetCallback := if packet then .user else .unset }
      closedCallback := closed }
  | .setTimeoutCallback set => some (s.update fun t =>
      { t with timeoutCallback := if set then some .global else none })
  | .start => some (s.update ({ · with started := true, packetCallback := .redirect }))
  | .accept _ => if s.server.started then some s else none
  | .processPacket j _ => s.occupy j
  | .ioError j => s.occupy j
  -- only called by code
  | .handleIncomingPacket _ => none
  | .checkTimeouts error =>
    (if error then s.server.timeoutTimer.takeAborted
      else s.server.timeoutTimer.takeDue).map fun x => s.update ({ · with timeoutTimer := x.2 })
  | .tick d => some (s.update fun t => { t with now := t.now + d })
  | .expire => (s.server.timeoutTimer.expire s.server.now).map fun timer =>
      s.update ({ · with timeoutTimer := timer })

def lockProgram (serverId : List UInt8) :
    LockProgram Mutex Locked Lookup AppCallback Proc Method where
  eval
    | .find id, s => s.server.isRegistered id
  proc := procCode serverId
  method := methodCode
  takeUp := takeUp

/-! ## What callbacks may do -/

/-- What is held at a callback. -/
def atCallback : AppCallback → Set Mutex
  | .timeout => {.requestsMutex}
  | .closed => {.mutex}
  | .response | .packet => ∅

/-- The method is `cancelRequest`. -/
def Method.cancels : Method → Bool
  | .cancelRequest _ => true
  | _ => false

/-- The method is `sendRequest`. -/
def Method.requests : Method → Bool
  | .sendRequest .. => true
  | _ => false

/-- The closed callback may call `cancelRequest` only, and the timeout callback everything else. -/
def MayCall : AppCallback → Method → Prop
  | .timeout, a => a.cancels = false
  | .closed, a => a.cancels = true
  | _, _ => True

instance : (c : AppCallback) → (a : Method) → Decidable (MayCall c a)
  | .timeout, a => inferInstanceAs (Decidable (a.cancels = false))
  | .closed, a => inferInstanceAs (Decidable (a.cancels = true))
  | .response, _ | .packet, _ => isTrue trivial

/-- A `sendRequest` that the timeout callback calls may not find its connection. -/
def MayFind (c : AppCallback) (a : Method) (_ : Lookup) (found : Bool) : Prop :=
  c = .timeout → a.requests = true → found = false

instance (c : AppCallback) (a : Method) (t : Lookup) (found : Bool) :
    Decidable (MayFind c a t found) :=
  inferInstanceAs (Decidable (c = .timeout → a.requests = true → found = false))

/-! ## The code is safe -/

section Safe

variable {R : Lookup → Bool → Prop} {base held : Set Mutex} {rest : ServerCode}

/-- A critical section that does one thing. -/
theorem safe_section {m : Mutex} (f : Locked → Locked) (hm : m ∉ held)
    (h : Safe atCallback R base held rest) :
    Safe atCallback R base held (.lock m <| .act f fun _ => .unlock m rest) :=
  ⟨hm, fun _ => h.unlock_insert hm⟩

/-- A handler that is through gives back what it holds. -/
theorem safe_done : Safe atCallback R held held (.done : ServerCode) := rfl

/-- `sendPacketTo` takes and gives back `mutex_`. -/
theorem safe_sendPacketTo (hm : .mutex ∉ held) (hR : ∀ t b, R t b) (id : Int32) (p : Packet) :
    Safe atCallback R held held (sendPacketToCode id p) :=
  ⟨hm, fun b => ⟨fun _ _ => safe_done.unlock_insert hm, fun h => absurd (hR _ b) h⟩⟩

/-- Looking a connection up takes and gives back `mutex_`. -/
theorem safe_findConnection (hm : .mutex ∉ held) (hR : ∀ t b, R t b) (id : Int32) :
    Safe atCallback R held held (findConnectionCode id) :=
  ⟨hm, fun b => ⟨fun _ => safe_done.unlock_insert hm, fun h => absurd (hR _ b) h⟩⟩

/-- The registration of a request takes and gives back `requestsMutex_`. -/
theorem safe_register (hm : .requestsMutex ∉ held) (k : ℕ) (c : RequestCall) :
    Safe atCallback R held held (registerCode k c) := by
  refine safe_section _ hm fun s => ?_
  dsimp only
  split
  · exact fun _ => rfl
  · exact safe_section _ hm safe_done

/-- `sendRequest` takes the two locks one after the other. -/
theorem safe_sendRequest (hmutex : .mutex ∉ held) (hrequests : .requestsMutex ∉ held)
    (hR : ∀ t b, R t b) (id : Int32) (data : List UInt8) (timeout : ℕ)
    (responseCallback timeoutCallback : Bool) :
    Safe atCallback R held held
      (sendRequestCode id data timeout responseCallback timeoutCallback) := by
  refine fun s => ⟨hmutex, fun found => ⟨fun _ _ => Safe.unlock_insert hmutex ?_, fun h => ?_⟩⟩
  · cases found with
    | false => exact safe_done
    | true => exact safe_register hrequests _ _
  · exact absurd (hR _ found) h

/-- Under `requestsMutex_`, `sendRequest` must not find the connection. -/
theorem safe_sendRequest_of_not_found (hmutex : .mutex ∉ held) (hrequests : .requestsMutex ∈ held)
    (hR : ∀ t b, R t b ↔ b = false) (id : Int32) (data : List UInt8) (timeout : ℕ)
    (responseCallback timeoutCallback : Bool) :
    Safe atCallback R held held
      (sendRequestCode id data timeout responseCallback timeoutCallback) := by
  refine fun s => ⟨hmutex, fun found => ⟨fun hfound _ => Safe.unlock_insert hmutex ?_, fun h => ?_⟩⟩
  · obtain rfl := (hR _ found).mp hfound
    exact safe_done
  · obtain rfl : found = true := by
      cases found with
      | true => rfl
      | false => exact absurd ((hR _ false).mpr rfl) h
    refine fun _ => ⟨Set.mem_insert _ _, ?_⟩
    rw [Set.insert_sdiff_self_of_notMem hmutex]
    exact hrequests

/-- A packet callback is called with no lock held. -/
theorem safe_packetCallback (callback : PacketCallback) (d : Dispatch)
    (h : Safe atCallback R base ∅ rest) :
    Safe atCallback R base ∅ (packetCallbackCode callback d rest) := by
  cases callback with
  | unset => exact h
  | user => exact fun _ => ⟨rfl, h⟩
  | redirect => exact ⟨rfl, h⟩

/-- `handleIncomingPacket` calls back with no lock held. -/
theorem safe_handleIncomingPacket (d : Dispatch) :
    Safe atCallback R ∅ ∅ (handleIncomingPacketCode d) := by
  have hrest : Safe atCallback R ∅ ∅
      (.act id fun s => packetCallbackCode s.server.packetCallback d .done) :=
    fun s => safe_packetCallback _ d safe_done
  rw [handleIncomingPacketCode]
  split
  · refine ⟨Set.notMem_empty _, fun s => Safe.unlock_insert (Set.notMem_empty _) ?_⟩
    split
    · exact ⟨rfl, hrest⟩
    · exact hrest
  · exact hrest

/-- `processPacket` calls back with no lock held. -/
theorem safe_processPacket (serverId : List UInt8) (j : ℕ) (p : Packet) :
    Safe atCallback R ∅ ∅ (processPacketCode serverId j p) := by
  intro s
  dsimp only
  cases s.server.connections[j]? with
  | none => exact safe_done
  | some c =>
    refine safe_packetCallback _ _ ?_
    exact fun _ _ => rfl

/-- A failed read or write unregisters the connection with no lock held. -/
theorem safe_ioError (j : ℕ) : Safe atCallback R ∅ ∅ (ioErrorCode j) := by
  intro s
  dsimp only
  cases s.server.connections[j]? with
  | none => exact safe_done
  | some c =>
    have hend : Safe atCallback R ∅ (insert .mutex ∅)
        (.unlock .mutex (.act (release j) fun _ => .done) : ServerCode) :=
      Safe.unlock_insert (Set.notMem_empty _) fun _ => rfl
    refine ⟨Set.notMem_empty _, fun s => ?_⟩
    dsimp only
    split
    · exact ⟨insert_empty_eq Mutex.mutex, hend⟩
    · exact hend

/-- The end of a sweep takes no lock. -/
theorem safe_finishSweep (hasPending : Bool) :
    Safe atCallback R ∅ ∅ (finishSweepCode hasPending) := by
  cases hasPending with
  | true => exact fun _ => rfl
  | false => exact safe_section _ (Set.notMem_empty _) safe_done

/-- The loop of `checkTimeouts` keeps `requestsMutex_`. -/
theorem safe_sweep (sequences : List UInt32) :
    Safe atCallback R ∅ {.requestsMutex} (sweepCode sequences) := by
  induction sequences with
  | nil =>
    intro s
    rw [← insert_empty_eq Mutex.requestsMutex]
    exact (safe_finishSweep _).unlock_insert (Set.notMem_empty _)
  | cons sequence rest ih =>
    intro s
    dsimp only
    split
    · exact ⟨rfl, fun _ => ih⟩
    · exact fun _ => ih

/-- A sweep holds `requestsMutex_` while it calls back, and gives it back. -/
theorem safe_checkTimeouts (error : Bool) :
    Safe atCallback R ∅ ∅ (checkTimeoutsCode error) := by
  cases error with
  | true => exact safe_section _ (Set.notMem_empty _) safe_done
  | false =>
    refine fun now => ⟨Set.notMem_empty _, fun s => ?_⟩
    rw [insert_empty_eq]
    exact safe_sweep _

/-- Every handler of the server is disciplined in its locks. -/
theorem safe_proc (serverId : List UInt8) (q : Proc) :
    Safe atCallback R ∅ ∅ (procCode serverId q) := by
  cases q with
  | accept error =>
    cases error with
    | true => exact fun _ => rfl
    | false => exact safe_section _ (Set.notMem_empty _) safe_done
  | processPacket j p => exact safe_processPacket serverId j p
  | ioError j => exact safe_ioError j
  | handleIncomingPacket d => exact safe_handleIncomingPacket d
  | checkTimeouts error => exact safe_checkTimeouts error
  | _ => exact safe_done

/-- A method other than `sendRequest` and `cancelRequest` takes `mutex_` only. -/
theorem safe_method_of_mutex (hm : .mutex ∉ held) (hR : ∀ t b, R t b) {a : Method}
    (hrequests : a.requests = false) (hcancels : a.cancels = false) :
    Safe atCallback R held held (methodCode a) := by
  cases a with
  | sendRequest id data timeout responseCallback timeoutCallback =>
    exact absurd hrequests (by simp [Method.requests])
  | cancelRequest sequence => exact absurd hcancels (by simp [Method.cancels])
  | sendTo id packetId status data => exact fun _ => safe_sendPacketTo hm hR _ _
  | broadcast packetId status data => exact fun _ => safe_section _ hm safe_done
  | connectionCount => exact safe_section _ hm safe_done
  | getClientInfo id => exact safe_findConnection hm hR id
  | closeConnection id => exact safe_findConnection hm hR id

/-- `cancelRequest` takes and gives back `requestsMutex_`. -/
theorem safe_cancelRequest (hm : .requestsMutex ∉ held) (sequence : UInt32) :
    Safe atCallback R held held (methodCode (.cancelRequest sequence)) :=
  safe_section _ hm safe_done

/-- Without locks, every method is safe. -/
theorem safe_method (hR : ∀ t b, R t b) (a : Method) : Safe atCallback R ∅ ∅ (methodCode a) := by
  cases a with
  | sendRequest id data timeout responseCallback timeoutCallback =>
    exact safe_sendRequest (Set.notMem_empty _) (Set.notMem_empty _) hR _ _ _ _ _
  | cancelRequest sequence => exact safe_cancelRequest (Set.notMem_empty _) sequence
  | _ => exact safe_method_of_mutex (Set.notMem_empty _) hR rfl rfl

/-- Under `mutex_`, every method but `cancelRequest` takes it again. -/
theorem doomed_method (hm : .mutex ∈ held) {a : Method} (hcancels : a.cancels = false) :
    Doomed held (methodCode a) := by
  cases a with
  | sendRequest id data timeout responseCallback timeoutCallback => exact fun _ => hm
  | cancelRequest sequence => exact absurd hcancels (by simp [Method.cancels])
  | sendTo id packetId status data => exact fun _ => hm
  | broadcast packetId status data => exact fun _ => hm
  | connectionCount => exact hm
  | getClientInfo id => exact hm
  | closeConnection id => exact hm

end Safe

/-- The server keeps the discipline that the two conditions on the callbacks complete. -/
theorem disciplined (serverId : List UInt8) :
    Disciplined (lockProgram serverId) atCallback MayCall MayFind where
  proc q := safe_proc serverId q
  method a := safe_method (fun _ _ => trivial) a
  callback c a hcall := by
    cases c with
    | timeout =>
      have hmutex : Mutex.mutex ∉ atCallback .timeout := by simp [atCallback]
      -- with the lock of the requests held, a `sendRequest` may not get as far as to register
      cases hrequests : a.requests with
      | false =>
        refine safe_method_of_mutex hmutex (fun t b _ hr => ?_) hrequests hcall
        exact absurd (hrequests.symm.trans hr) (by simp)
      | true =>
        cases a with
        | sendRequest id data timeout responseCallback timeoutCallback =>
          refine safe_sendRequest_of_not_found hmutex (Set.mem_singleton _) (fun t b => ?_)
            _ _ _ _ _
          exact ⟨fun h => h rfl rfl, fun h _ _ => h⟩
        | _ => exact absurd hrequests (by simp [Method.requests])
    | closed =>
      cases a with
      | cancelRequest sequence => exact safe_cancelRequest (by simp [atCallback]) sequence
      | _ => exact absurd hcall (by simp [MayCall, Method.cancels])
    | response => exact safe_method (fun t b h => absurd h (by simp)) a
    | packet => exact safe_method (fun t b h => absurd h (by simp)) a
  doomed c a hnot := by
    cases c with
    | timeout =>
      cases a with
      | cancelRequest sequence => exact Set.mem_singleton _
      | _ => exact absurd rfl hnot
    | closed =>
      -- whatever takes the lock of the connections is doomed where that lock is held
      exact doomed_method (Set.mem_singleton _) (Bool.eq_false_iff.mpr hnot)
    | response => exact absurd trivial hnot
    | packet => exact absurd trivial hnot

/-- **Locks.** In a run in which the closed callback calls nothing but `cancelRequest`, and the
timeout callback does not call `cancelRequest`, nor a `sendRequest` that finds its connection, no
thread comes to a mutex that it holds. The condition is needed: any other call of a callback, or
lookup of a `sendRequest`, that follows such a run can be continued until a thread does. -/
theorem not_selfLock_of_permitted (serverId : List UInt8) {es : List (LockEvent Proc Method)}
    (h : EveryStep (lockProgram serverId).step { shared := {} } es
      (Permitted (lockProgram serverId) MayCall MayFind)) :
    (EveryState (lockProgram serverId).step { shared := {} } es fun w => ¬ w.SelfLock) ∧
      ∀ w e v, run (lockProgram serverId).step { shared := {} } es = some w →
        ¬ Permitted (lockProgram serverId) MayCall MayFind w e →
        (lockProgram serverId).step w e = some v →
        ∃ fs u, run (lockProgram serverId).step v fs = some u ∧ u.SelfLock := by
  refine ⟨(disciplined serverId).not_selfLock h, fun w e v hw he hstep => ?_⟩
  exact (disciplined serverId).exists_selfLock h hw he hstep

/-- A connection is accepted and fails; thread 0 is in the closed callback. -/
def connectionLost : List (LockEvent Proc Method) :=
  [.takeUp 0 (.setCallbacks true true), .advance 0, .takeUp 0 .start, .advance 0,
    .takeUp 0 (.accept false), .advance 0, .advance 0, .advance 0, .advance 0,
    .takeUp 0 (.ioError 0), .advance 0, .advance 0, .advance 0, .advance 0]

/-- The closed callback calls `cancelRequest`, and the handler returns. -/
theorem not_selfLock_of_permitted_cancel :
    ∃ w, run (lockProgram []).step { shared := {} } (connectionLost ++
        [.invoke 0 (.cancelRequest 7), .advance 0, .advance 0, .advance 0, .advance 0, .ret 0,
          .advance 0, .advance 0, .advance 0]) = some w ∧
      w.shared.server.isRegistered 1 = false ∧ (w.frames 0).length = 0 ∧ ¬ w.SelfLock := by
  obtain ⟨w, hrun, hgone, hframes⟩ : ∃ w, run (lockProgram []).step { shared := {} }
      (connectionLost ++ [.invoke 0 (.cancelRequest 7), .advance 0, .advance 0, .advance 0,
        .advance 0, .ret 0, .advance 0, .advance 0, .advance 0]) = some w ∧
      w.shared.server.isRegistered 1 = false ∧ (w.frames 0).length = 0 :=
    ⟨_, rfl, by decide, by decide⟩
  exact ⟨w, hrun, hgone, hframes, (not_selfLock_of_permitted [] (by decide)).1.last hrun⟩

/-- The closed callback asks how many connections there are. Its thread holds `mutex_`, and waits
for it. -/
theorem closed_callback_selfLock :
    ∃ w, run (lockProgram []).step { shared := {} }
        (connectionLost ++ [.invoke 0 .connectionCount]) = some w ∧
      w.owner .mutex = some 0 ∧ w.SelfLock :=
  ⟨_, rfl, rfl, 0, rfl⟩

end TurboNet.Asio
