import TurboNet.Common.Baton
import TurboNet.Common.Lists
import TurboNet.Common.Races
import TurboNet.Asio.Locks

/-!
# Data races of the asio server

Reference: `claude/asio_server.cpp`, `TcpServer::sendRequest`, `TcpServer::checkTimeouts`.

`connections_` is touched under `mutex_`, and `pendingRequests_` under `requestsMutex_`. For
`timeoutTimer_` there is no lock: `sendRequest` sets it under `requestsMutex_`, and `checkTimeouts`
without. It is not raced for all the same, since `timeoutTimerRunning_` is set for as long as a wait
is pending or a thread is in `checkTimeouts`: that thread carries a `baton`. The flag itself is read
by `sendRequest` without the lock that it is written under. What callbacks of the application do
makes no difference.
-/

namespace TurboNet.Asio

open Common Locked

/-! ## The variables -/

/-- `connections_`: which connections are registered. -/
def connectionsVar : Variable Locked (List Bool) where
  get s := s.server.connections.map (·.registered)
  forget := update fun t =>
    { t with connections := t.connections.map ({ · with registered := false }) }

def pendingVar : Variable Locked (Std.TreeMap UInt32 PendingRequest) where
  get s := s.server.pendingRequests
  forget := update ({ · with pendingRequests := ∅ })

def timerVar : Variable Locked (Timer Unit) where
  get s := s.server.timeoutTimer
  forget := update ({ · with timeoutTimer := {} })

/-- `timeoutTimerRunning_`. -/
def runningVar : Variable Locked Bool where
  get s := s.server.timeoutTimerRunning
  forget := update ({ · with timeoutTimerRunning := false })

/-- The members of the server that its threads share. -/
inductive Shared where
  | connections
  | pendingRequests
  | timeoutTimer
  | timeoutTimerRunning
deriving DecidableEq, Repr

/-- Two threads race for the member. -/
def Shared.Race (serverId : List UInt8) (w : World Mutex Locked Lookup AppCallback Proc Method) :
    Shared → Prop
  | .connections => w.Race (lockProgram serverId).eval connectionsVar
  | .pendingRequests => w.Race (lockProgram serverId).eval pendingVar
  | .timeoutTimer => w.Race (lockProgram serverId).eval timerVar
  | .timeoutTimerRunning => w.Race (lockProgram serverId).eval runningVar

/-! ## What is done under which lock -/

/-- The end of `checkTimeouts`, which sets the timer without a lock. -/
def Rearms (code : ServerCode) : Prop := ∃ next, code = .act (update (·.armTimer)) next

/-- What a thread may touch with the locks that it holds. Without the lock the timer is left alone,
except by the end of `checkTimeouts`, and with the lock it is as long as the flag is set. -/
structure Protected (serverId : List UInt8) (held : Set Mutex) (code : ServerCode) : Prop where
  connections : .mutex ∈ held ∨ ∀ s, code.Spares (lockProgram serverId).eval connectionsVar s
  pendingRequests : .requestsMutex ∈ held ∨
    ∀ s, code.Spares (lockProgram serverId).eval pendingVar s
  timer : Rearms code ∨
    (.requestsMutex ∈ held ∨ ∀ s, code.Spares (lockProgram serverId).eval timerVar s) ∧
    ∀ s, s.server.timeoutTimerRunning = true →
      code.Spares (lockProgram serverId).eval timerVar s

section Protected

variable {serverId : List UInt8} {held base : Set Mutex} {rest : ServerCode}
  {f : Locked → Locked} {next : Locked → ServerCode} {V : Type}

/-- The instruction touches none of them. -/
theorem protected_of_spares {code : ServerCode}
    (hconnections : ∀ s, code.Spares (lockProgram serverId).eval connectionsVar s)
    (hpending : ∀ s, code.Spares (lockProgram serverId).eval pendingVar s)
    (htimer : ∀ s, code.Spares (lockProgram serverId).eval timerVar s) :
    Protected serverId held code :=
  ⟨Or.inr hconnections, Or.inr hpending, Or.inr ⟨Or.inr htimer, fun s _ => htimer s⟩⟩

/-- Taking a lock touches no variable. -/
theorem protected_lock (m : Mutex) : Protected serverId held (.lock m rest) :=
  protected_of_spares (fun _ => trivial) (fun _ => trivial) fun _ => trivial

/-- Giving a lock back touches no variable. -/
theorem protected_unlock (m : Mutex) : Protected serverId held (.unlock m rest) :=
  protected_of_spares (fun _ => trivial) (fun _ => trivial) fun _ => trivial

/-- Under `mutex_`, the registered connections may be touched. -/
theorem protected_mutex (hm : .mutex ∈ held)
    (hpending : ∀ s, (Code.act f next : ServerCode).Spares (lockProgram serverId).eval pendingVar s)
    (htimer : ∀ s, (Code.act f next : ServerCode).Spares (lockProgram serverId).eval timerVar s) :
    Protected serverId held (.act f next) :=
  ⟨Or.inl hm, Or.inr hpending, Or.inr ⟨Or.inr htimer, fun s _ => htimer s⟩⟩

/-- Under `requestsMutex_`, the requests may be touched. -/
theorem protected_requestsMutex (hm : .requestsMutex ∈ held)
    (hconnections : ∀ s,
      (Code.act f next : ServerCode).Spares (lockProgram serverId).eval connectionsVar s)
    (htimer : ∀ s, (Code.act f next : ServerCode).Spares (lockProgram serverId).eval timerVar s) :
    Protected serverId held (.act f next) :=
  ⟨Or.inr hconnections, Or.inl hm, Or.inr ⟨Or.inl hm, fun s _ => htimer s⟩⟩

/-- A critical section of `mutex_` that does one thing. -/
theorem obeys_mutexSection {f : Locked → Locked} {next : Locked → ServerCode}
    (hpending : ∀ s, (Code.act f fun s => .unlock .mutex (next s) : ServerCode).Spares
      (lockProgram serverId).eval pendingVar s)
    (htimer : ∀ s, (Code.act f fun s => .unlock .mutex (next s) : ServerCode).Spares
      (lockProgram serverId).eval timerVar s)
    (h : ∀ s, Obeys (Protected serverId) atCallback base held (next s)) :
    Obeys (Protected serverId) atCallback base held
      (.lock .mutex <| .act f fun s => .unlock .mutex (next s)) :=
  ⟨protected_lock _, fun hm => ⟨protected_mutex (Set.mem_insert _ _) hpending htimer,
    fun s => (h s).unlock_insert (protected_unlock _) hm⟩⟩

/-- A critical section of `requestsMutex_` that does one thing. -/
theorem obeys_requestsSection {f : Locked → Locked} {next : Locked → ServerCode}
    (hconnections : ∀ s, (Code.act f fun s => .unlock .requestsMutex (next s) : ServerCode).Spares
      (lockProgram serverId).eval connectionsVar s)
    (htimer : ∀ s, (Code.act f fun s => .unlock .requestsMutex (next s) : ServerCode).Spares
      (lockProgram serverId).eval timerVar s)
    (h : ∀ s, Obeys (Protected serverId) atCallback base held (next s)) :
    Obeys (Protected serverId) atCallback base held
      (.lock .requestsMutex <| .act f fun s => .unlock .requestsMutex (next s)) :=
  ⟨protected_lock _, fun hm =>
    ⟨protected_requestsMutex (Set.mem_insert _ _) hconnections htimer,
      fun s => (h s).unlock_insert (protected_unlock _) hm⟩⟩

/-- Something that touches none of the variables. -/
theorem obeys_act
    (hconnections : ∀ s,
      (Code.act f next : ServerCode).Spares (lockProgram serverId).eval connectionsVar s)
    (hpending : ∀ s, (Code.act f next : ServerCode).Spares (lockProgram serverId).eval pendingVar s)
    (htimer : ∀ s, (Code.act f next : ServerCode).Spares (lockProgram serverId).eval timerVar s)
    (h : ∀ s, Obeys (Protected serverId) atCallback base held (next s)) :
    Obeys (Protected serverId) atCallback base held (.act f next) :=
  ⟨protected_of_spares hconnections hpending htimer, h⟩

/-- Code that has come to its end touches nothing. -/
theorem obeys_done : Obeys (Protected serverId) atCallback held held .done :=
  ⟨protected_of_spares (fun _ => trivial) (fun _ => trivial) fun _ => trivial, rfl⟩

/-! ## The public methods -/

/-- `connections_.find`, under the lock. -/
theorem protected_find (hm : .mutex ∈ held) (id : Int32) (next : Bool → ServerCode) :
    Protected serverId held (.test (.find id) next) := by
  have htimer : ∀ s, (Code.test (.find id) next : ServerCode).Spares
      (lockProgram serverId).eval timerVar s :=
    Code.spares_test fun _ => rfl
  exact ⟨Or.inl hm, Or.inr (Code.spares_test fun _ => rfl),
    Or.inr ⟨Or.inr htimer, fun s _ => htimer s⟩⟩

/-- `sendPacketTo` looks up and sends under `mutex_`. -/
theorem obeys_sendPacketTo (id : Int32) (p : Packet) :
    Obeys (Protected serverId) atCallback held held (sendPacketToCode id p) := by
  refine ⟨protected_lock _, fun hm => ⟨protected_find (Set.mem_insert _ _) id _, fun _ => ⟨?_,
    fun _ => obeys_done.unlock_insert (protected_unlock _) hm⟩⟩⟩
  refine protected_mutex (Set.mem_insert _ _) ?_ ?_
  · exact Variable.Apart.spares ⟨fun _ => rfl, fun _ => rfl⟩ fun _ => rfl
  · exact Variable.Apart.spares ⟨fun _ => rfl, fun _ => rfl⟩ fun _ => rfl

/-- With the flag set, the timer is left alone. -/
theorem spares_ensureTimer (k : ℕ) (c : RequestCall) {s : Locked}
    (hs : s.server.timeoutTimerRunning = true) :
    (Code.act (update (·.ensureTimer k c)) fun _ => rest : ServerCode).Spares
      (lockProgram serverId).eval timerVar s := by
  have hset {s : Locked} (hs : s.server.timeoutTimerRunning = true) :
      s.update (·.ensureTimer k c) = s.update (·.setPhase k c .done) :=
    congrArg (fun t => { s with server := t }) (if_pos hs)
  intro s' hs'
  have hrunning : s'.server.timeoutTimerRunning = true :=
    (congrArg (·.server.timeoutTimerRunning) hs').trans hs
  rw [hset hs, hset hrunning]
  exact ⟨congrArg (update (·.setPhase k c .done)) hs', rfl, rfl⟩

/-- `ensureTimer` is a choice between two updates, by the flag. -/
theorem update_ensureTimer (k : ℕ) (c : RequestCall) :
    update (·.ensureTimer k c) = fun s =>
      if s.server.timeoutTimerRunning then s.update (·.setPhase k c .done)
      else s.update fun t =>
        { t.setPhase k c .done with timeoutTimerRunning := true }.armTimer :=
  funext fun s => apply_ite (fun t => { s with server := t }) _ _ _

/-- `sendDrawn` is a choice between two updates, by whether the connection is registered. -/
theorem update_sendDrawn (k : ℕ) (c : RequestCall) :
    update (·.sendDrawn k c) = fun s =>
      if s.server.isRegistered c.connectionId then s.update fun t =>
        (t.sendPacketTo c.connectionId (createPacket ⟨idRequest, 0, c.sequence, c.data⟩)).setPhase
          k c .sent
      else s.update (·.setPhase k c .failed) :=
  funext fun s => apply_ite (fun t => { s with server := t }) _ _ _

/-- The request is entered, and the timer set, under `requestsMutex_`; the test of the flag before
touches none of the guarded variables. -/
theorem obeys_register (k : ℕ) (c : RequestCall) :
    Obeys (Protected serverId) atCallback held held (registerCode k c) := by
  refine obeys_requestsSection ?_ ?_ fun _ => obeys_act ?_ ?_ ?_ fun s => ?_
  · exact Variable.Apart.spares ⟨fun _ => rfl, fun _ => rfl⟩ fun _ => rfl
  · exact Variable.Apart.spares ⟨fun _ => rfl, fun _ => rfl⟩ fun _ => rfl
  · exact Variable.Apart.spares ⟨fun _ => rfl, fun _ => rfl⟩ fun _ => rfl
  · exact Variable.Apart.spares ⟨fun _ => rfl, fun _ => rfl⟩ fun _ => rfl
  · exact Variable.Apart.spares ⟨fun _ => rfl, fun _ => rfl⟩ fun _ => rfl
  · split
    · refine obeys_act ?_ ?_ ?_ fun _ => obeys_done
      all_goals exact Variable.Apart.spares ⟨fun _ => rfl, fun _ => rfl⟩ fun _ => rfl
    · refine ⟨protected_lock _, fun hm => ⟨?_, fun _ =>
        obeys_done.unlock_insert (protected_unlock _) hm⟩⟩
      have hlock : Mutex.requestsMutex ∈ insert Mutex.requestsMutex held := Set.mem_insert _ _
      refine ⟨Or.inr ?_, Or.inl hlock, Or.inr ⟨Or.inl hlock, fun s hs =>
        spares_ensureTimer k c hs⟩⟩
      rw [update_ensureTimer]
      refine Variable.Apart.spares (.ite (fun _ => Iff.rfl) ?_ ?_) fun _ => rfl
      · exact ⟨fun _ => rfl, fun _ => rfl⟩
      · exact ⟨fun _ => rfl, fun _ => rfl⟩

/-- `sendRequest` draws its number without a lock, and does the rest under the one lock or the
other. -/
theorem obeys_sendRequest (id : Int32) (data : List UInt8) (timeout : ℕ)
    (responseCallback timeoutCallback : Bool) :
    Obeys (Protected serverId) atCallback held held
      (sendRequestCode id data timeout responseCallback timeoutCallback) := by
  refine obeys_act ?_ ?_ ?_ fun s => ⟨protected_lock _, fun hm =>
    ⟨protected_find (Set.mem_insert _ _) _ _, fun found => ⟨?_, fun _ =>
      Obeys.unlock_insert (protected_unlock _) hm ?_⟩⟩⟩
  · exact Variable.Apart.spares ⟨fun _ => rfl, fun _ => rfl⟩ fun _ => rfl
  · exact Variable.Apart.spares ⟨fun _ => rfl, fun _ => rfl⟩ fun _ => rfl
  · exact Variable.Apart.spares ⟨fun _ => rfl, fun _ => rfl⟩ fun _ => rfl
  · rw [update_sendDrawn]
    refine protected_mutex (Set.mem_insert _ _) ?_ ?_
    all_goals
      refine Variable.Apart.spares (.ite (fun _ => Iff.rfl) ?_ ?_) fun _ => rfl
      · exact ⟨fun _ => rfl, fun _ => rfl⟩
      · exact ⟨fun _ => rfl, fun _ => rfl⟩
  · cases found with
    | false => exact obeys_done
    | true => exact obeys_register _ _

/-- `connectionCount` counts under the lock. -/
theorem obeys_connectionCount :
    Obeys (Protected serverId) atCallback held held connectionCountCode := by
  refine obeys_mutexSection ?_ ?_ fun _ => obeys_done
  all_goals exact Variable.Apart.spares ⟨fun _ => rfl, fun _ => rfl⟩ fun _ => rfl

/-- `getClientInfo` and `closeConnection` look up under the lock. -/
theorem obeys_findConnection (id : Int32) :
    Obeys (Protected serverId) atCallback held held (findConnectionCode id) :=
  ⟨protected_lock _, fun hm => ⟨protected_find (Set.mem_insert _ _) id _, fun _ =>
    obeys_done.unlock_insert (protected_unlock _) hm⟩⟩

/-- All methods touch only what they may, whatever is held when they are called. -/
theorem obeys_method (a : Method) :
    Obeys (Protected serverId) atCallback held held (methodCode a) := by
  cases a with
  | sendRequest id data timeout responseCallback timeoutCallback =>
    exact obeys_sendRequest id data timeout responseCallback timeoutCallback
  | cancelRequest sequence =>
    refine obeys_requestsSection ?_ ?_ fun _ => obeys_done
    all_goals exact Variable.Apart.spares ⟨fun _ => rfl, fun _ => rfl⟩ fun _ => rfl
  | sendTo id packetId status data =>
    refine obeys_act ?_ ?_ ?_ fun _ => obeys_sendPacketTo _ _
    all_goals exact Variable.Apart.spares ⟨fun _ => rfl, fun _ => rfl⟩ fun _ => rfl
  | broadcast packetId status data =>
    refine obeys_act ?_ ?_ ?_ fun _ => obeys_mutexSection ?_ ?_ fun _ => obeys_done
    all_goals exact Variable.Apart.spares ⟨fun _ => rfl, fun _ => rfl⟩ fun _ => rfl
  | connectionCount => exact obeys_connectionCount
  | getClientInfo id => exact obeys_findConnection id
  | closeConnection id => exact obeys_findConnection id

/-! ## The handlers -/

/-- A call of the application touches no variable. -/
theorem protected_callback (c : AppCallback) : Protected serverId held (.callback c rest) :=
  protected_of_spares (fun _ => trivial) (fun _ => trivial) fun _ => trivial

/-- A call of a procedure touches no variable. -/
theorem protected_call (q : Proc) : Protected serverId held (.call q rest) :=
  protected_of_spares (fun _ => trivial) (fun _ => trivial) fun _ => trivial

/-- To call `packetCallback_` touches none of the variables. -/
theorem obeys_packetCallback (callback : PacketCallback) (d : Dispatch)
    (h : Obeys (Protected serverId) atCallback base ∅ rest) :
    Obeys (Protected serverId) atCallback base ∅ (packetCallbackCode callback d rest) := by
  cases callback with
  | unset => exact h
  | user =>
    refine obeys_act ?_ ?_ ?_ fun _ => ⟨protected_callback _, rfl, h⟩
    all_goals exact Variable.Apart.spares ⟨fun _ => rfl, fun _ => rfl⟩ fun _ => rfl
  | redirect => exact ⟨protected_call _, rfl, h⟩

/-- `takePending` is a choice between two updates, by whether the request is pending. -/
theorem update_takePending {d : Dispatch} (hid : d.packet.header.packetId = idResponse) :
    update (·.takePending d) = fun s =>
      if s.server.pendingRequests[d.packet.header.sequence]?.isSome then s.update fun t => { t with
        pendingRequests := t.pendingRequests.erase d.packet.header.sequence
        taken := t.taken ++ (t.pendingRequests[d.packet.header.sequence]?.map fun e =>
          ⟨e.call, d.connectionId, d.packet, e.callback⟩).toList }
      else s := by
  funext s
  simp only [update, TcpServer.takePending, if_pos hid]
  cases h : s.server.pendingRequests[d.packet.header.sequence]? with
  | none => rfl
  | some e => simp

/-- `handleIncomingPacket` takes the request out under `requestsMutex_`. -/
theorem obeys_handleIncomingPacket (d : Dispatch) :
    Obeys (Protected serverId) atCallback ∅ ∅ (handleIncomingPacketCode d) := by
  have hrest : Obeys (Protected serverId) atCallback ∅ ∅
      (.act id fun s => packetCallbackCode s.server.packetCallback d .done) := by
    refine obeys_act ?_ ?_ ?_ fun s => obeys_packetCallback _ d obeys_done
    all_goals exact Variable.Apart.spares ⟨fun _ => rfl, fun _ => rfl⟩ fun _ => rfl
  rw [handleIncomingPacketCode]
  split
  · rename_i hid
    refine obeys_requestsSection ?_ ?_ fun s => ?_
    · rw [update_takePending hid]
      refine Variable.Apart.spares (.ite (fun _ => Iff.rfl) ?_ ?_) fun _ => rfl
      · exact ⟨fun _ => rfl, fun _ => rfl⟩
      · exact ⟨fun _ => rfl, fun _ => rfl⟩
    · rw [update_takePending hid]
      refine Variable.Apart.spares (.ite (fun _ => Iff.rfl) ?_ ?_) fun _ => rfl
      · exact ⟨fun _ => rfl, fun _ => rfl⟩
      · exact ⟨fun _ => rfl, fun _ => rfl⟩
    · split
      · exact ⟨protected_callback _, rfl, hrest⟩
      · exact hrest
  · exact hrest

/-- Something is done to a connection that leaves it registered or not. -/
theorem spares_updateConnection (j : ℕ) {g : Connection → Connection}
    (hforget : ∀ c, { g c with registered := false } = g { c with registered := false })
    (hget : ∀ c, (g c).registered = c.registered)
    (hnext : ∀ s, next s = next (connectionsVar.forget s)) (s : Locked) :
    (Code.act (update (·.updateConnection j g)) next).Spares (lockProgram serverId).eval
      connectionsVar s := by
  revert s
  refine Variable.Apart.spares ⟨fun s => ?_, fun s => ?_⟩ hnext
  · exact congrArg (fun l => s.update ({ · with connections := l })) (map_modify hforget _ j)
  · have hmap : ∀ l : List Connection, (l.modify j g).map (·.registered) =
        (l.map (·.registered)).modify j id := fun l => map_modify hget l j
    exact (hmap _).trans (List.modify_id _ _)

/-- `processPacket` reads and answers a connection, and leaves alone whether it is registered. -/
theorem obeys_processPacket (serverId : List UInt8) (j : ℕ) (p : Packet) :
    Obeys (Protected serverId) atCallback ∅ ∅ (processPacketCode serverId j p) := by
  refine obeys_act ?_ ?_ ?_ fun s => ?_
  · refine spares_updateConnection j (fun _ => rfl) (fun _ => rfl) fun s => ?_
    simp only [connectionsVar, update, List.getElem?_map]
    cases s.server.connections[j]? <;> rfl
  · exact Variable.Apart.spares ⟨fun _ => rfl, fun _ => rfl⟩ fun _ => rfl
  · exact Variable.Apart.spares ⟨fun _ => rfl, fun _ => rfl⟩ fun _ => rfl
  · cases s.server.connections[j]? with
    | none => exact obeys_done
    | some c =>
      refine obeys_packetCallback _ _ (obeys_act ?_ ?_ ?_ fun _ => obeys_act ?_ ?_ ?_ fun _ =>
        obeys_done)
      · refine spares_updateConnection _ (fun c => ?_) (fun c => ?_) fun _ => rfl
        all_goals
          simp only [Connection.answer]
          split
          · rfl
          · split <;> rfl
      all_goals exact Variable.Apart.spares ⟨fun _ => rfl, fun _ => rfl⟩ fun _ => rfl

/-- The handler of an error unregisters the connection under `mutex_`. -/
theorem obeys_ioError (j : ℕ) : Obeys (Protected serverId) atCallback ∅ ∅ (ioErrorCode j) := by
  refine obeys_act ?_ ?_ ?_ fun s => ?_
  · refine Variable.Apart.spares ⟨fun _ => rfl, fun _ => rfl⟩ fun s => ?_
    simp only [connectionsVar, update, List.getElem?_map]
    cases s.server.connections[j]? <;> rfl
  · exact Variable.Apart.spares ⟨fun _ => rfl, fun _ => rfl⟩ fun _ => rfl
  · exact Variable.Apart.spares ⟨fun _ => rfl, fun _ => rfl⟩ fun _ => rfl
  · cases s.server.connections[j]? with
    | none => exact obeys_done
    | some c =>
      have hend : Obeys (Protected serverId) atCallback ∅ (insert .mutex ∅)
          (.unlock .mutex (.act (Locked.release j) fun _ => .done) : ServerCode) := by
        refine Obeys.unlock_insert (protected_unlock _) (Set.notMem_empty _) ?_
        refine obeys_act ?_ ?_ ?_ fun _ => obeys_done
        all_goals exact Variable.Apart.spares ⟨fun _ => rfl, fun _ => rfl⟩ fun _ => rfl
      refine ⟨protected_lock _, fun _ => ⟨?_, fun s => ?_⟩⟩
      · refine protected_mutex (Set.mem_insert _ _) ?_ ?_
        all_goals exact Variable.Apart.spares ⟨fun _ => rfl, fun _ => rfl⟩ fun _ => rfl
      · dsimp only
        split
        · exact ⟨protected_callback _, insert_empty_eq Mutex.mutex, hend⟩
        · exact hend

/-- The end of `checkTimeouts` sets the timer without a lock, or clears the flag under it. -/
theorem obeys_finishSweep (hasPending : Bool) :
    Obeys (Protected serverId) atCallback ∅ ∅ (finishSweepCode hasPending) := by
  cases hasPending with
  | true =>
    refine ⟨⟨Or.inr ?_, Or.inr ?_, Or.inl ⟨_, rfl⟩⟩, fun _ => obeys_done⟩
    all_goals exact Variable.Apart.spares ⟨fun _ => rfl, fun _ => rfl⟩ fun _ => rfl
  | false =>
    refine obeys_requestsSection ?_ ?_ fun _ => obeys_done
    all_goals exact Variable.Apart.spares ⟨fun _ => rfl, fun _ => rfl⟩ fun _ => rfl

/-- The loop of `checkTimeouts` keeps `requestsMutex_`. -/
theorem obeys_sweep (sequences : List UInt32) :
    Obeys (Protected serverId) atCallback ∅ {.requestsMutex} (sweepCode sequences) := by
  have hmem : Mutex.requestsMutex ∈ ({.requestsMutex} : Set Mutex) := Set.mem_singleton _
  induction sequences with
  | nil =>
    refine ⟨protected_requestsMutex hmem ?_ ?_, fun s => ?_⟩
    · exact Variable.Apart.spares ⟨fun _ => rfl, fun _ => rfl⟩ fun _ => rfl
    · exact Variable.Apart.spares ⟨fun _ => rfl, fun _ => rfl⟩ fun _ => rfl
    · rw [← insert_empty_eq Mutex.requestsMutex]
      exact (obeys_finishSweep _).unlock_insert (protected_unlock _) (Set.notMem_empty _)
  | cons sequence rest ih =>
    have herase : Obeys (Protected serverId) atCallback ∅ {.requestsMutex}
        (.act (update (·.cancelRequest sequence)) fun _ => sweepCode rest) := by
      refine ⟨protected_requestsMutex hmem ?_ ?_, fun _ => ih⟩
      all_goals exact Variable.Apart.spares ⟨fun _ => rfl, fun _ => rfl⟩ fun _ => rfl
    refine ⟨protected_requestsMutex hmem ?_ ?_, fun s => ?_⟩
    · exact Variable.Apart.spares ⟨fun _ => rfl, fun _ => rfl⟩ fun _ => rfl
    · exact Variable.Apart.spares ⟨fun _ => rfl, fun _ => rfl⟩ fun _ => rfl
    · dsimp only
      split
      · exact ⟨protected_callback _, rfl, herase⟩
      · exact herase

/-- `checkTimeouts` reads the clock without a lock, and sweeps under `requestsMutex_`. -/
theorem obeys_checkTimeouts (error : Bool) :
    Obeys (Protected serverId) atCallback ∅ ∅ (checkTimeoutsCode error) := by
  cases error with
  | true =>
    refine obeys_requestsSection ?_ ?_ fun _ => obeys_done
    all_goals exact Variable.Apart.spares ⟨fun _ => rfl, fun _ => rfl⟩ fun _ => rfl
  | false =>
    refine obeys_act ?_ ?_ ?_ fun now => ⟨protected_lock _, fun _ => ⟨?_, fun s => ?_⟩⟩
    · exact Variable.Apart.spares ⟨fun _ => rfl, fun _ => rfl⟩ fun _ => rfl
    · exact Variable.Apart.spares ⟨fun _ => rfl, fun _ => rfl⟩ fun _ => rfl
    · exact Variable.Apart.spares ⟨fun _ => rfl, fun _ => rfl⟩ fun _ => rfl
    · refine protected_requestsMutex (Set.mem_insert _ _) ?_ ?_
      all_goals exact Variable.Apart.spares ⟨fun _ => rfl, fun _ => rfl⟩ fun _ => rfl
    · rw [insert_empty_eq]
      exact obeys_sweep _

/-- All handlers touch only what they may. -/
theorem obeys_proc (q : Proc) :
    Obeys (Protected serverId) atCallback ∅ ∅ (procCode serverId q) := by
  cases q with
  | accept error =>
    cases error with
    | true =>
      refine obeys_act ?_ ?_ ?_ fun _ => obeys_done
      all_goals exact Variable.Apart.spares ⟨fun _ => rfl, fun _ => rfl⟩ fun _ => rfl
    | false =>
      refine obeys_mutexSection ?_ ?_ fun _ => obeys_done
      all_goals exact Variable.Apart.spares ⟨fun _ => rfl, fun _ => rfl⟩ fun _ => rfl
  | processPacket j p => exact obeys_processPacket serverId j p
  | ioError j => exact obeys_ioError j
  | handleIncomingPacket d => exact obeys_handleIncomingPacket d
  | checkTimeouts error => exact obeys_checkTimeouts error
  | _ => exact obeys_done

end Protected

/-- Whatever the callbacks call, the threads touch only what they may. -/
theorem obedient (serverId : List UInt8) :
    Obedient (lockProgram serverId) (Protected serverId) atCallback fun _ _ => True where
  proc := obeys_proc
  method := obeys_method
  callback _ a _ := obeys_method a

/-! ## The baton of the timer -/

/-- The timer does not run, or one wait is outstanding. -/
inductive Lies : Timer Unit → Bool → Prop where
  | stopped : Lies {} false
  | waiting (d : ℕ) : Lies { wait := some (d, ()) } true
  | due : Lies { due := [()] } true

/-- Without the flag no wait is outstanding. -/
theorem Lies.eq_of_stopped {timer : Timer Unit} (h : Lies timer false) : timer = {} := by
  cases h
  rfl

/-- A pending wait expires. -/
theorem Lies.expire {timer timer' : Timer Unit} {running : Bool} {now : ℕ} (h : Lies timer running)
    (hexpire : timer.expire now = some timer') : Lies timer' running := by
  cases h with
  | stopped => cases hexpire
  | waiting d =>
    obtain ⟨-, heq⟩ := Option.ite_none_right_eq_some.mp hexpire
    obtain rfl := Option.some.inj heq
    exact .due
  | due => cases hexpire

/-- The handler of an expired wait begins. -/
theorem Lies.takeDue {timer : Timer Unit} {running : Bool} {x : Unit × Timer Unit}
    (h : Lies timer running) (htake : timer.takeDue = some x) : x.2 = {} ∧ running = true := by
  cases h with
  | stopped => cases htake
  | waiting d => cases htake
  | due =>
    obtain rfl := Option.some.inj htake
    exact ⟨rfl, rfl⟩

/-- No wait is ever aborted. -/
theorem Lies.takeAborted {timer : Timer Unit} {running : Bool} (h : Lies timer running) :
    timer.takeAborted = none := by
  cases h <;> rfl

/-- When the timer has been set, one wait is outstanding. -/
theorem lies_armTimer {t : TcpServer} (htimer : t.timeoutTimer = {}) :
    Lies t.armTimer.timeoutTimer true := by
  show Lies (t.timeoutTimer.arm (t.now + 100) ()) true
  rw [htimer]
  exact .waiting _

/-- Whoever is in `checkTimeouts` has the baton. -/
def baton : Baton Locked where
  lies s := Lies s.server.timeoutTimer s.server.timeoutTimerRunning
  away s := s.server.timeoutTimer = {} ∧ s.server.timeoutTimerRunning = true

/-- What the code of the server calls. -/
def Callable (q : Proc) : Prop := ∃ d, q = .handleIncomingPacket d

section Passes

variable {b : Bool} {f : Locked → Locked} {next : Locked → ServerCode} {rest : ServerCode}

/-- Something that leaves the timer and the flag alone. -/
theorem passes_act (htimer : ∀ s, (f s).server.timeoutTimer = s.server.timeoutTimer)
    (hrunning : ∀ s, (f s).server.timeoutTimerRunning = s.server.timeoutTimerRunning)
    (h : ∀ s, baton.Passes Callable b (next s)) : baton.Passes Callable b (.act f next) := by
  have hlies (s : Locked) (hs : baton.lies s) : baton.lies (f s) := by
    show Lies _ _
    rw [htimer, hrunning]
    exact hs
  have haway (s : Locked) (hs : baton.away s) : baton.away (f s) := by
    exact ⟨(htimer s).trans hs.1, (hrunning s).trans hs.2⟩
  cases b with
  | false => exact fun s => ⟨hlies s, haway s, h s⟩
  | true => exact fun s hs => Or.inl ⟨haway s hs, h s⟩

/-- `sendPacketTo` has nothing to do with the timer. -/
theorem passes_sendPacketTo (id : Int32) (p : Packet) :
    baton.Passes Callable false (sendPacketToCode id p) :=
  fun _ => passes_act (fun _ => rfl) (fun _ => rfl) fun _ => rfl

/-- `ensureTimer` sets the timer only if the flag is not set, hence while the baton lies. -/
theorem passes_ensureTimer (k : ℕ) (c : RequestCall) (h : baton.Passes Callable false rest) :
    baton.Passes Callable false (.act (update (·.ensureTimer k c)) fun _ => rest) := by
  intro s
  rw [update_ensureTimer]
  dsimp only
  refine ⟨fun hs => ?_, fun hs => ?_, h⟩
  · by_cases hrunning : s.server.timeoutTimerRunning = true
    · rw [if_pos hrunning]
      exact hs
    · rw [if_neg hrunning]
      have hstopped : Lies s.server.timeoutTimer false := eq_false_of_ne_true hrunning ▸ hs
      exact lies_armTimer (t := { s.server.setPhase k c .done with timeoutTimerRunning := true })
        hstopped.eq_of_stopped
  · rw [if_pos hs.2]
    exact hs

/-- The rest of `sendRequest` does not touch the baton but by `ensureTimer`. -/
theorem passes_register (k : ℕ) (c : RequestCall) :
    baton.Passes Callable false (registerCode k c) := by
  refine passes_act (fun _ => rfl) (fun _ => rfl) fun s => ?_
  refine passes_act (fun _ => rfl) (fun _ => rfl) fun s => ?_
  split
  · exact passes_act (fun _ => rfl) (fun _ => rfl) fun _ => rfl
  · exact passes_ensureTimer k c rfl

/-- No method takes the baton. -/
theorem passes_method (a : Method) : baton.Passes Callable false (methodCode a) := by
  cases a with
  | sendRequest id data timeout responseCallback timeoutCallback =>
    refine passes_act (fun _ => rfl) (fun _ => rfl) fun s found => ?_
    refine passes_act (fun s => ?_) (fun s => ?_) fun _ => ?_
    · rw [update_sendDrawn]
      dsimp only
      split <;> rfl
    · rw [update_sendDrawn]
      dsimp only
      split <;> rfl
    · cases found with
      | false => rfl
      | true => exact passes_register _ _
  | cancelRequest sequence => exact passes_act (fun _ => rfl) (fun _ => rfl) fun _ => rfl
  | sendTo id packetId status data =>
    exact passes_act (fun _ => rfl) (fun _ => rfl) fun _ => passes_sendPacketTo _ _
  | broadcast packetId status data =>
    refine passes_act (fun _ => rfl) (fun _ => rfl) fun _ => ?_
    exact passes_act (fun _ => rfl) (fun _ => rfl) fun _ => rfl
  | connectionCount => exact passes_act (fun _ => rfl) (fun _ => rfl) fun _ => rfl
  | getClientInfo id | closeConnection id => exact fun _ => rfl

/-- To call `packetCallback_` leaves the baton where it is. -/
theorem passes_packetCallback (callback : PacketCallback) (d : Dispatch)
    (h : baton.Passes Callable false rest) :
    baton.Passes Callable false (packetCallbackCode callback d rest) := by
  cases callback with
  | unset => exact h
  | user => exact passes_act (fun _ => rfl) (fun _ => rfl) fun _ => h
  | redirect => exact ⟨⟨d, rfl⟩, h⟩

/-- `handleIncomingPacket` leaves the baton where it is. -/
theorem passes_handleIncomingPacket (d : Dispatch) :
    baton.Passes Callable false (handleIncomingPacketCode d) := by
  have hrest : baton.Passes Callable false
      (.act id fun s => packetCallbackCode s.server.packetCallback d .done) :=
    passes_act (fun _ => rfl) (fun _ => rfl) fun s => passes_packetCallback _ d rfl
  rw [handleIncomingPacketCode]
  split
  · rename_i hid
    rw [update_takePending hid]
    refine passes_act (fun s => ?_) (fun s => ?_) fun s => ?_
    · split <;> rfl
    · split <;> rfl
    · split <;> exact hrest
  · exact hrest

/-- `processPacket` leaves the baton where it is. -/
theorem passes_processPacket (serverId : List UInt8) (j : ℕ) (p : Packet) :
    baton.Passes Callable false (processPacketCode serverId j p) := by
  refine passes_act (fun _ => rfl) (fun _ => rfl) fun s => ?_
  cases s.server.connections[j]? with
  | none => rfl
  | some c =>
    refine passes_packetCallback _ _ (passes_act (fun _ => rfl) (fun _ => rfl) fun _ => ?_)
    exact passes_act (fun _ => rfl) (fun _ => rfl) fun _ => rfl

/-- The handler of an error leaves the baton where it is. -/
theorem passes_ioError (j : ℕ) : baton.Passes Callable false (ioErrorCode j) := by
  refine passes_act (fun _ => rfl) (fun _ => rfl) fun s => ?_
  cases s.server.connections[j]? with
  | none => rfl
  | some c =>
    refine passes_act (fun _ => rfl) (fun _ => rfl) fun s => ?_
    split <;> exact passes_act (fun _ => rfl) (fun _ => rfl) fun _ => rfl

/-- `checkTimeouts` lays the baton down at its end: a wait is pending, or the flag is cleared. -/
theorem passes_finishSweep (hasPending : Bool) :
    baton.Passes Callable true (finishSweepCode hasPending) := by
  cases hasPending with
  | true =>
    refine fun s hs => Or.inr ⟨?_, rfl⟩
    show Lies s.server.armTimer.timeoutTimer s.server.timeoutTimerRunning
    rw [hs.2]
    exact lies_armTimer hs.1
  | false =>
    refine fun s hs => Or.inr ⟨?_, rfl⟩
    show Lies s.server.timeoutTimer false
    rw [hs.1]
    exact .stopped

/-- The sweep keeps the baton up to its end. -/
theorem passes_sweep (sequences : List UInt32) :
    baton.Passes Callable true (sweepCode sequences) := by
  induction sequences with
  | nil => exact passes_act (fun _ => rfl) (fun _ => rfl) fun s => passes_finishSweep _
  | cons sequence rest ih =>
    refine passes_act (fun _ => rfl) (fun _ => rfl) fun s => ?_
    split <;> exact passes_act (fun _ => rfl) (fun _ => rfl) fun _ => ih

/-- `checkTimeouts` begins with the baton and lays it down. -/
theorem passes_checkTimeouts : baton.Passes Callable true (checkTimeoutsCode false) := by
  refine passes_act (fun _ => rfl) (fun _ => rfl) fun now => ?_
  exact passes_act (fun _ => rfl) (fun _ => rfl) fun s => passes_sweep _

end Passes

/-- All other procedures begin without the baton. -/
theorem passes_proc (serverId : List UInt8) {q : Proc} (hq : ∀ error, q ≠ .checkTimeouts error) :
    baton.Passes Callable false (procCode serverId q) := by
  cases q with
  | accept error => cases error <;> exact passes_act (fun _ => rfl) (fun _ => rfl) fun _ => rfl
  | processPacket j p => exact passes_processPacket serverId j p
  | ioError j => exact passes_ioError j
  | handleIncomingPacket d => exact passes_handleIncomingPacket d
  | checkTimeouts error => exact absurd rfl (hq error)
  | _ => rfl

/-- Other threads leave the timer alone when they take something up, and so does time. -/
theorem takeUp_timer {q : Proc} {s s' : Locked} (hq : ∀ error, q ≠ .checkTimeouts error)
    (hexpire : q ≠ .expire) (h : takeUp q s = some s') :
    s'.server.timeoutTimer = s.server.timeoutTimer ∧
      s'.server.timeoutTimerRunning = s.server.timeoutTimerRunning := by
  cases q with
  | setCallbacks packet closed =>
    obtain rfl := Option.some.inj h
    exact ⟨rfl, rfl⟩
  | setTimeoutCallback set =>
    obtain rfl := Option.some.inj h
    exact ⟨rfl, rfl⟩
  | start =>
    obtain rfl := Option.some.inj h
    exact ⟨rfl, rfl⟩
  | accept error =>
    obtain ⟨-, heq⟩ := Option.ite_none_right_eq_some.mp h
    obtain rfl := Option.some.inj heq
    exact ⟨rfl, rfl⟩
  | processPacket j p | ioError j =>
    obtain ⟨-, heq⟩ := Option.ite_none_left_eq_some.mp h
    obtain rfl := Option.some.inj heq
    exact ⟨rfl, rfl⟩
  | handleIncomingPacket d => cases h
  | checkTimeouts error => exact absurd rfl (hq error)
  | tick d =>
    obtain rfl := Option.some.inj h
    exact ⟨rfl, rfl⟩
  | expire => exact absurd rfl hexpire

/-- Who takes up the handler of an expired wait takes up the baton, and nobody else does. -/
theorem passing (serverId : List UInt8) : baton.Passing (lockProgram serverId) Callable where
  lies q s s' htake hs := by
    by_cases hq : ∀ error, q ≠ .checkTimeouts error
    · refine Or.inl ⟨?_, passes_proc serverId hq⟩
      -- the wait may expire, or something is taken up that does not touch the timer
      by_cases hexpire : q = .expire
      · subst hexpire
        obtain ⟨timer, htimer, rfl⟩ := Option.map_eq_some_iff.mp htake
        exact Lies.expire hs htimer
      · obtain ⟨htimer, hrunning⟩ := takeUp_timer hq hexpire htake
        show Lies _ _
        rw [htimer, hrunning]
        exact hs
    · obtain ⟨error, rfl⟩ : ∃ error, q = .checkTimeouts error := by
        simpa only [not_forall, not_not] using hq
      -- the wait has expired: who takes up its handler takes the baton with it
      obtain ⟨x, hx, rfl⟩ := Option.map_eq_some_iff.mp htake
      cases error with
      | true => cases (Lies.takeAborted hs).symm.trans hx
      | false => exact Or.inr ⟨Lies.takeDue hs hx, passes_checkTimeouts⟩
  away q s s' htake hs := by
    obtain ⟨htimer, hrunning⟩ := hs
    by_cases hq : ∀ error, q ≠ .checkTimeouts error
    · refine ⟨?_, passes_proc serverId hq⟩
      by_cases hexpire : q = .expire
      · subst hexpire
        obtain ⟨timer, hnone, rfl⟩ := Option.map_eq_some_iff.mp htake
        rw [htimer] at hnone
        cases hnone
      · obtain ⟨htimer', hrunning'⟩ := takeUp_timer hq hexpire htake
        exact ⟨htimer'.trans htimer, hrunning'.trans hrunning⟩
    · obtain ⟨error, rfl⟩ : ∃ error, q = .checkTimeouts error := by
        simpa only [not_forall, not_not] using hq
      -- no wait is outstanding
      obtain ⟨x, hx, rfl⟩ := Option.map_eq_some_iff.mp htake
      rw [htimer] at hx
      cases error <;> cases hx
  proc q := by
    rintro ⟨d, rfl⟩
    exact passes_handleIncomingPacket d
  method := passes_method

/-- Without the baton nobody is at the end of `checkTimeouts`. -/
theorem not_rearms_of_passes {code : ServerCode} (h : baton.Passes Callable false code) :
    ¬ Rearms code := by
  rintro ⟨next, rfl⟩
  let s : Locked :=
    { server := { timeoutTimer := { wait := some (0, ()) }, timeoutTimerRunning := true } }
  have hlies : Lies { wait := some (100, ()), aborted := [()] } true := (h s).1 (.waiting 0)
  cases hlies

/-! ## Races -/

section Races

variable {serverId : List UInt8} {w : World Mutex Locked Lookup AppCallback Proc Method}
  {carrier : Option ℕ}

/-- Who touches the timer has the baton, or `requestsMutex_` while it lies. -/
theorem not_race_timer (hheld : baton.Held Callable w carrier)
    (hkeeps : ∀ i code, w.code? i = some code → Protected serverId (w.heldBy i) code) :
    ¬ w.Race (lockProgram serverId).eval timerVar := by
  cases carrier with
  | none =>
    refine World.not_race_of_guarded (m := .requestsMutex) fun i code hcode htouches => ?_
    obtain ⟨b, hpasses, hcarrier⟩ := hheld.passes hcode
    cases b with
    | true => cases hcarrier rfl
    | false =>
      rcases (hkeeps i code hcode).timer with hrearms | ⟨hm | hspares, -⟩
      · exact absurd hrearms (not_rearms_of_passes hpasses)
      · exact hm
      · exact absurd (hspares _) htouches
  | some k =>
    obtain ⟨-, hrunning⟩ := hheld.place
    refine World.not_race_of_only (k := k) fun i code hcode htouches => ?_
    obtain ⟨b, hpasses, hcarrier⟩ := hheld.passes hcode
    cases b with
    | true => exact (Option.some.inj (hcarrier rfl)).symm
    | false =>
      rcases (hkeeps i code hcode).timer with hrearms | ⟨-, hspares⟩
      · exact absurd hrearms (not_rearms_of_passes hpasses)
      · exact absurd (hspares _ hrunning) htouches

/-- What every thread is next to do, in every run. -/
theorem protected_run {es : List (LockEvent Proc Method)}
    (hw : run (lockProgram serverId).step { shared := {} } es = some w) {i : ℕ} {code : ServerCode}
    (hcode : w.code? i = some code) : Protected serverId (w.heldBy i) code := by
  have hcalls : EveryStep (lockProgram serverId).step { shared := {} } es
      (CallsOnly fun _ _ => True) :=
    fun _ _ _ _ _ _ => CallsOnly.of_any _ _
  exact ((obedient serverId).keeps hcalls).last hw i code hcode

end Races

/-- Two threads call `sendRequest`. Thread 0 is next to test `timeoutTimerRunning_`, and thread 1 to
set it. -/
def flagTested : List (LockEvent Proc Method) :=
  [.takeUp 0 .start, .advance 0, .takeUp 0 (.accept false)] ++ List.replicate 4 (.advance 0) ++
    .invoke 0 (.sendRequest 1 [] 0 false false) :: List.replicate 8 (.advance 0) ++
    .invoke 1 (.sendRequest 1 [] 0 false false) :: List.replicate 10 (.advance 1)

/-- What the two threads are next to do after `flagTested`. -/
theorem run_flagTested (serverId : List UInt8) :
    ∃ w c next, run (lockProgram serverId).step { shared := {} } flagTested = some w ∧
      w.shared.server.timeoutTimerRunning = false ∧
      w.code? 0 = some (.act id fun s =>
        if s.server.timeoutTimerRunning then .act (update (·.setPhase 0 c .done)) fun _ => .done
        else .lock .requestsMutex <| .act (update (·.ensureTimer 0 c)) fun _ =>
          .unlock .requestsMutex .done) ∧
      w.code? 1 = some (.act (update (·.ensureTimer 1 { c with sequence := 2 })) next) :=
  ⟨_, ⟨1, [], 0, false, false, 1, .drawn⟩, _, rfl, rfl, rfl, rfl⟩

/-- **Data races.** Whatever an application does in its threads and callbacks, no threads of the
server ever race for `connections_`, `pendingRequests_` or `timeoutTimer_`. They may race for
`timeoutTimerRunning_`. -/
theorem races_iff (serverId : List UInt8) (x : Shared) :
    (∃ es w, run (lockProgram serverId).step { shared := {} } es = some w ∧ x.Race serverId w) ↔
      x = .timeoutTimerRunning := by
  constructor
  · rintro ⟨es, w, hw, hrace⟩
    cases x with
    | connections =>
      refine absurd hrace (World.not_race_of_keeps (m := .mutex) fun i code hcode => ?_)
      exact (protected_run hw hcode).connections
    | pendingRequests =>
      refine absurd hrace (World.not_race_of_keeps (m := .requestsMutex) fun i code hcode => ?_)
      exact (protected_run hw hcode).pendingRequests
    | timeoutTimer =>
      -- one thread at a time has to do with the timer, so no lock is needed
      obtain ⟨carrier, hheld⟩ := (passing serverId).held (s := {}) Lies.stopped hw
      exact absurd hrace (not_race_timer hheld fun i code => protected_run hw)
    | timeoutTimerRunning => rfl
  · rintro rfl
    -- one `sendRequest` is about to look at the flag without the lock, and another one to set it
    obtain ⟨w, c, next, hw, hrunning, h0, h1⟩ := run_flagTested serverId
    refine ⟨flagTested, w, hw, 1, 0, by decide, ⟨_, h1, w.shared, rfl, ?_⟩, _, h0,
      fun hspares => ?_⟩
    · show (update _ w.shared).server.timeoutTimerRunning ≠ w.shared.server.timeoutTimerRunning
      rw [update_ensureTimer]
      dsimp only
      rw [if_neg (ne_true_of_eq_false hrunning), hrunning]
      exact Bool.noConfusion
    · have hsame := (hspares (w.shared.update ({ · with timeoutTimerRunning := true })) rfl).2.2
      dsimp only at hsame
      rw [hrunning] at hsame
      cases hsame

/-- **The timer.** In every run of the threads at most one wait of the timer is outstanding, and
none while `timeoutTimerRunning_` is not set; and no wait is ever aborted. -/
theorem one_wait (serverId : List UInt8) (es : List (LockEvent Proc Method))
    (w : World Mutex Locked Lookup AppCallback Proc Method)
    (hw : run (lockProgram serverId).step { shared := {} } es = some w) :
    w.shared.server.timeoutTimer.aborted = [] ∧
      w.shared.server.timeoutTimer.wait.toList.length +
        w.shared.server.timeoutTimer.due.length ≤ w.shared.server.timeoutTimerRunning.toNat := by
  obtain ⟨carrier, hheld⟩ := (passing serverId).held (s := {}) Lies.stopped hw
  cases carrier with
  | none =>
    have hlies : Lies _ _ := hheld.place
    generalize w.shared.server.timeoutTimer = timer,
      w.shared.server.timeoutTimerRunning = running at hlies
    cases hlies <;> exact ⟨rfl, Nat.le_refl _⟩
  | some i =>
    obtain ⟨htimer, hrunning⟩ := hheld.place
    rw [htimer, hrunning]
    exact ⟨rfl, Nat.zero_le _⟩

/-- After `flagTested` both calls return, and one wait is outstanding. -/
theorem one_wait_flagTested :
    ∃ w, run (lockProgram []).step { shared := {} } (flagTested ++ List.replicate 3 (.advance 1) ++
        List.replicate 3 (.advance 0)) = some w ∧
      w.frames 0 = [] ∧ w.shared.server.pendingRequests.size = 2 ∧
      w.shared.server.timeoutTimer.aborted = [] ∧
      w.shared.server.timeoutTimer.wait.toList.length +
        w.shared.server.timeoutTimer.due.length ≤ 1 := by
  obtain ⟨w, hw, hframes, hsize, hrunning⟩ : ∃ w,
      run (lockProgram []).step { shared := {} } (flagTested ++ List.replicate 3 (.advance 1) ++
        List.replicate 3 (.advance 0)) = some w ∧ w.frames 0 = [] ∧
        w.shared.server.pendingRequests.size = 2 ∧
        w.shared.server.timeoutTimerRunning = true :=
    ⟨_, rfl, rfl, rfl, rfl⟩
  obtain ⟨haborted, hone⟩ := one_wait [] _ w hw
  rw [hrunning] at hone
  exact ⟨w, hw, hframes, hsize, haborted, hone⟩

end TurboNet.Asio
