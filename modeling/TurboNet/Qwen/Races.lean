import TurboNet.Common.Races
import TurboNet.Qwen.Deadlock

/-!
# Data races of the qwen server

Reference: `qwen/server.cpp`, `server`.

The three tables of sessions are touched under `sessions_mutex_`, and `pending_requests_` under
`pending_requests_mutex_`. `send_request_to_session` has released `sessions_mutex_` when it sends,
but knows the session by then. What the callback calls makes no difference.
-/

namespace TurboNet.Qwen

open Common Server

/-- `sessions_`, `session_metadata_` and `session_start_times_`. -/
def sessionTables : Variable Server
    (Std.TreeMap UInt64 ℕ × Std.TreeMap UInt64 SessionMetadata × Std.TreeMap UInt64 ℕ) where
  get s := (s.sessions, s.sessionMetadata, s.sessionStartTimes)
  forget s := { s with sessions := ∅, sessionMetadata := ∅, sessionStartTimes := ∅ }

/-- `pending_requests_`. -/
def requestTable : Variable Server (Std.TreeMap UInt32 PendingRequest) where
  get s := s.pendingRequests
  forget s := { s with pendingRequests := ∅ }

/-! ## What is done to the other tables -/

/-- To do nothing has nothing to do with any variable. -/
theorem apart_id {V : Type} (x : Variable Server V) : x.Apart id := ⟨fun _ => rfl, fun _ => rfl⟩

/-- To close a session has nothing to do with requests. -/
theorem requestTable_closeSession (id : UInt64) : requestTable.Apart (·.closeSession id) where
  forget s := by
    have hsessions : (requestTable.forget s).sessions[id]? = s.sessions[id]? := rfl
    rw [closeSession, closeSession, hsessions]
    cases s.sessions[id]? with
    | none => rfl
    | some j =>
      have halive : (requestTable.forget s).alive j = s.alive j := rfl
      dsimp only
      rw [halive]
      split <;> rfl
  get s := by
    rw [closeSession]
    split
    · split <;> rfl
    · rfl

/-- `remove_session` has nothing to do with requests. -/
theorem requestTable_removeSession (id : UInt64) : requestTable.Apart (·.removeSession id) := by
  have hleave : requestTable.Apart fun s : Server =>
      { s with activeSessionsCount := s.activeSessionsCount - 1 } :=
    ⟨fun _ => rfl, fun _ => rfl⟩
  have herase : requestTable.Apart fun s : Server =>
      if s.sessionMetadata.contains id then
        { s with
          sessionStartTimes := s.sessionStartTimes.erase id
          sessionMetadata := s.sessionMetadata.erase id }
      else s :=
    .ite (fun _ => Iff.rfl) ⟨fun _ => rfl, fun _ => rfl⟩ ⟨fun _ => rfl, fun _ => rfl⟩
  exact hleave.comp (herase.comp (requestTable_closeSession id))

/-- `update_last_active_time` has nothing to do with requests. -/
theorem requestTable_updateLastActiveTime (id : UInt64) :
    requestTable.Apart (·.updateLastActiveTime id) where
  forget s := by
    show requestTable.forget (s.updateLastActiveTime id) =
      updateLastActiveTime { s with pendingRequests := ∅ } id
    simp only [updateLastActiveTime]
    cases s.sessionMetadata[id]? <;> rfl
  get s := by
    rw [updateLastActiveTime]
    split <;> rfl

/-- `check_expired_sessions` has nothing to do with requests. -/
theorem requestTable_checkExpiredSessions (maxIdle : ℤ) :
    requestTable.Apart (·.checkExpiredSessions maxIdle) := by
  have hexpire (id : UInt64) : requestTable.Apart (·.expireSession id) :=
    ⟨fun _ => rfl, fun _ => rfl⟩
  exact ⟨fun s => (Variable.Apart.foldl hexpire _).forget s,
    fun s => (Variable.Apart.foldl hexpire _).get s⟩

/-- To erase a request has nothing to do with the tables of sessions. -/
theorem sessionTables_eraseFound (sequence : UInt32) (r : PendingRequest) :
    sessionTables.Apart (·.eraseFound sequence r) :=
  .ite (fun _ => Iff.rfl) ⟨fun _ => rfl, fun _ => rfl⟩ ⟨fun _ => rfl, fun _ => rfl⟩

/-- To enter a request has nothing to do with the tables of sessions. -/
theorem sessionTables_registerCall (k : ℕ) : sessionTables.Apart (·.registerCall k) where
  forget s := by
    show sessionTables.forget ((s.calls[k]?.map (s.register k)).getD s) =
      (s.calls[k]?.map ((sessionTables.forget s).register k)).getD (sessionTables.forget s)
    cases s.calls[k]? <;> rfl
  get s := by
    show sessionTables.get ((s.calls[k]?.map (s.register k)).getD s) = _
    cases s.calls[k]? <;> rfl

/-- What a packet for one session leaves alone, packets for several do. -/
theorem apart_transmitTo {V : Type} {x : Variable Server V} {p : Packet}
    (h : ∀ j, x.Apart (·.sendPacket j p)) (l : List ℕ) : x.Apart (·.transmitTo l p) :=
  .foldl h l

/-! ## What is done under which lock -/

/-- What a thread may touch with the locks that it holds. -/
structure Protected (maxIdle : ℤ) (held : Set Mutex) (code : ServerCode) : Prop where
  sessions : Guarded (lockProgram maxIdle).eval sessionTables .sessions held code
  pendingRequests : Guarded (lockProgram maxIdle).eval requestTable .pendingRequests held code

section Protected

variable {maxIdle : ℤ} {held base : Set Mutex} {rest : ServerCode} {f : Server → Server}
  {next : Server → ServerCode}

/-- Taking a lock touches no table. -/
theorem protected_lock (m : Mutex) : Protected maxIdle held (.lock m rest) :=
  ⟨Or.inr fun _ => trivial, Or.inr fun _ => trivial⟩

/-- Giving a lock back touches no table. -/
theorem protected_unlock (m : Mutex) : Protected maxIdle held (.unlock m rest) :=
  ⟨Or.inr fun _ => trivial, Or.inr fun _ => trivial⟩

/-- A call of the application touches no table. -/
theorem protected_callback (c : AppCallback) : Protected maxIdle held (.callback c rest) :=
  ⟨Or.inr fun _ => trivial, Or.inr fun _ => trivial⟩

/-- Code that has come to its end touches nothing. -/
theorem obeys_done : Obeys (Protected maxIdle) atCallback held held .done :=
  ⟨⟨Or.inr fun _ => trivial, Or.inr fun _ => trivial⟩, rfl⟩

/-- Under `sessions_mutex_`, the tables of sessions may be touched. -/
theorem protected_sessions (hm : .sessions ∈ held) (hf : requestTable.Apart f)
    (hnext : ∀ s, next s = next (requestTable.forget s)) :
    Protected maxIdle held (.act f next) :=
  ⟨Or.inl hm, Or.inr (hf.spares hnext)⟩

/-- Under `pending_requests_mutex_`, `pending_requests_` may be touched. -/
theorem protected_pendingRequests (hm : .pendingRequests ∈ held) (hf : sessionTables.Apart f)
    (hnext : ∀ s, next s = next (sessionTables.forget s)) :
    Protected maxIdle held (.act f next) :=
  ⟨Or.inr (hf.spares hnext), Or.inl hm⟩

/-- Without a lock, neither may be touched. -/
theorem protected_act (hsessions : sessionTables.Apart f) (hrequests : requestTable.Apart f)
    (hnext : ∀ s, next s = next (sessionTables.forget s))
    (hnext' : ∀ s, next s = next (requestTable.forget s)) :
    Protected maxIdle held (.act f next) :=
  ⟨Or.inr (hsessions.spares hnext), Or.inr (hrequests.spares hnext')⟩

/-- A critical section of `sessions_mutex_` that does one thing. -/
theorem obeys_sessionsSection (hf : requestTable.Apart f)
    (h : Obeys (Protected maxIdle) atCallback base held rest) :
    Obeys (Protected maxIdle) atCallback base held
      (.lock .sessions <| .act f fun _ => .unlock .sessions rest) :=
  ⟨protected_lock _, fun hm => ⟨protected_sessions (Set.mem_insert _ _) hf fun _ => rfl,
    fun _ => h.unlock_insert (protected_unlock _) hm⟩⟩

/-- `remove_session` works on the tables of sessions under their lock. -/
theorem obeys_removeSession (id : UInt64)
    (h : Obeys (Protected maxIdle) atCallback base held rest) :
    Obeys (Protected maxIdle) atCallback base held (removeSessionCode id rest) :=
  obeys_sessionsSection (requestTable_removeSession id) h

/-! ## The public methods -/

/-- The sessions that are sent to are found under the lock. -/
theorem obeys_transmit (c : RequestCall) :
    Obeys (Protected maxIdle) atCallback held held (transmitCode c) := by
  refine ⟨protected_lock _, fun hm => ⟨protected_sessions (Set.mem_insert _ _) (apart_id _)
    fun _ => rfl, fun s => ?_⟩⟩
  have hsend {held : Set Mutex} {rest : ServerCode} : Protected maxIdle held
      (.act (·.transmitTo (s.recipients c) ⟨c.requestType, 0, c.sequence, c.payload⟩) fun _ =>
        rest) :=
    protected_act (apart_transmitTo (fun _ => ⟨fun _ => rfl, fun _ => rfl⟩) _)
      (apart_transmitTo (fun _ => ⟨fun _ => rfl, fun _ => rfl⟩) _) (fun _ => rfl) fun _ => rfl
  dsimp only
  split
  · exact Obeys.unlock_insert (protected_unlock _) hm ⟨hsend, fun _ => obeys_done⟩
  · exact ⟨hsend, fun _ => obeys_done.unlock_insert (protected_unlock _) hm⟩

/-- A request is entered under `pending_requests_mutex_`, and sent as `obeys_transmit` says. -/
theorem obeys_sendRequest (session : Option UInt64) (requestType : UInt8) (payload : List UInt8)
    (callback : Bool) (expectedType : UInt8) (timeout : ℕ) :
    Obeys (Protected maxIdle) atCallback held held
      (sendRequestCode session requestType payload callback expectedType timeout) := by
  refine ⟨protected_act ⟨fun _ => rfl, fun _ => rfl⟩ ⟨fun _ => rfl, fun _ => rfl⟩ (fun _ => rfl)
    fun _ => rfl, fun s => ?_⟩
  dsimp only
  split
  · refine ⟨protected_lock _, fun hm => ⟨?_, fun _ =>
      (obeys_transmit _).unlock_insert (protected_unlock _) hm⟩⟩
    exact protected_pendingRequests (Set.mem_insert _ _) (sessionTables_registerCall _) fun _ => rfl
  · exact obeys_transmit _

/-- Whoever can take `pending_requests_mutex_` has no other lock. -/
theorem insert_pendingRequests (hheld : held ⊆ {.pendingRequests}) (hm : .pendingRequests ∉ held) :
    insert .pendingRequests held = atCallback .response := by
  rcases Set.subset_singleton_iff_eq.mp hheld with rfl | rfl
  · exact insert_empty_eq Mutex.pendingRequests
  · exact absurd rfl hm

/-- `handle_response` keeps the lock while it calls the callback. -/
theorem obeys_handleResponse (p : Packet)
    (hheld : held ⊆ {.pendingRequests}) (h : Obeys (Protected maxIdle) atCallback base held rest) :
    Obeys (Protected maxIdle) atCallback base held (handleResponseCode p rest) := by
  refine ⟨protected_lock _, fun hm => ⟨?_, fun s => ?_⟩⟩
  · exact protected_pendingRequests (Set.mem_insert _ _) (apart_id _) fun _ => rfl
  · have hlock : Mutex.pendingRequests ∈ insert Mutex.pendingRequests held := Set.mem_insert _ _
    dsimp only
    split
    · rename_i r hr
      have herase : Obeys (Protected maxIdle) atCallback base (insert .pendingRequests held)
          (.act (·.eraseFound p.sequence r) fun _ => .unlock .pendingRequests rest) := by
        refine ⟨protected_pendingRequests hlock (sessionTables_eraseFound _ _) fun _ => rfl, ?_⟩
        exact fun _ => h.unlock_insert (protected_unlock _) hm
      refine ⟨protected_pendingRequests hlock ⟨fun _ => rfl, fun _ => rfl⟩ fun _ => rfl, ?_⟩
      intro _
      split
      · refine ⟨protected_pendingRequests hlock ⟨fun _ => rfl, fun _ => rfl⟩ fun _ => rfl, ?_⟩
        intro _
        refine ⟨protected_callback _, ?_, herase⟩
        exact insert_pendingRequests hheld hm
      · exact herase
    · exact h.unlock_insert (protected_unlock _) hm

/-- The methods touch only what they may, also when they are called from a callback. -/
theorem obeys_method (hheld : held ⊆ {.pendingRequests}) (a : Method) :
    Obeys (Protected maxIdle) atCallback held held (methodCode a) := by
  cases a with
  | sendRequest session requestType payload callback expectedType timeout =>
    exact obeys_sendRequest session requestType payload callback expectedType timeout
  | handleResponse p => exact obeys_handleResponse p hheld obeys_done
  | updateLastActiveTime id =>
    exact obeys_sessionsSection (requestTable_updateLastActiveTime id) obeys_done
  | removeSession id => exact obeys_removeSession id obeys_done
  | getStatistics => exact obeys_done

/-! ## The handlers -/

/-- Something that is done to neither. -/
theorem obeys_act (hsessions : sessionTables.Apart f) (hrequests : requestTable.Apart f)
    (h : Obeys (Protected maxIdle) atCallback base held rest) :
    Obeys (Protected maxIdle) atCallback base held (.act f fun _ => rest) :=
  ⟨protected_act hsessions hrequests (fun _ => rfl) fun _ => rfl, fun _ => h⟩

/-- A handler that ends a session finds its id without a lock, and removes it under one. -/
theorem obeys_endSession (j : ℕ) (h : Obeys (Protected maxIdle) atCallback base held rest) :
    Obeys (Protected maxIdle) atCallback base held (endSessionCode j rest) := by
  refine ⟨protected_act (apart_id _) (apart_id _) (fun _ => rfl) fun _ => rfl, fun s => ?_⟩
  dsimp only
  split
  · exact obeys_removeSession _ h
  · exact h

/-- The handler of the timer of a request keeps the lock while it calls the callback. -/
theorem obeys_timeout (sequence : UInt32) (k : ℕ) :
    Obeys (Protected maxIdle) atCallback ∅ ∅ (procCode maxIdle (.timeout k sequence)) := by
  have hlock : Mutex.pendingRequests ∈ insert Mutex.pendingRequests (∅ : Set Mutex) :=
    Set.mem_insert _ _
  have hend : Obeys (Protected maxIdle) atCallback ∅ (insert .pendingRequests ∅)
      (.unlock .pendingRequests .done) :=
    obeys_done.unlock_insert (protected_unlock _) (Set.notMem_empty _)
  refine ⟨protected_lock _, fun hm => ⟨?_, fun s => ?_⟩⟩
  · exact protected_pendingRequests hlock (apart_id _) fun _ => rfl
  · dsimp only
    split
    · refine ⟨protected_pendingRequests hlock ⟨fun _ => rfl, fun _ => rfl⟩ fun _ => rfl, ?_⟩
      refine fun _ => ⟨protected_callback _, insert_pendingRequests (Set.empty_subset _) hm, ?_⟩
      exact ⟨protected_pendingRequests hlock (sessionTables_eraseFound _ _) fun _ => rfl,
        fun _ => hend⟩
    · exact hend

/-- All handlers touch only what they may. -/
theorem obeys_proc (q : Proc) : Obeys (Protected maxIdle) atCallback ∅ ∅ (procCode maxIdle q) := by
  cases q with
  | accept =>
    refine ⟨protected_lock _, fun hm => ⟨?_, fun s => ?_⟩⟩
    · exact protected_sessions (Set.mem_insert _ _) ⟨fun _ => rfl, fun _ => rfl⟩ fun _ => rfl
    · refine Obeys.unlock_insert (protected_unlock _) hm (obeys_act ?_ ?_ obeys_done)
      · exact ⟨fun _ => rfl, fun _ => rfl⟩
      · exact ⟨fun _ => rfl, fun _ => rfl⟩
  | handlePacket j p =>
    refine obeys_handleResponse p (Set.empty_subset _) (obeys_act ?_ ?_ obeys_done)
    · exact ⟨fun _ => rfl, fun _ => rfl⟩
    · exact ⟨fun _ => rfl, fun _ => rfl⟩
  | readError j =>
    refine obeys_endSession j (obeys_act ?_ ?_ obeys_done)
    · exact ⟨fun _ => rfl, fun _ => rfl⟩
    · exact ⟨fun _ => rfl, fun _ => rfl⟩
  | writeError j => exact obeys_endSession j obeys_done
  | heartbeatTimeout j => exact obeys_endSession j obeys_done
  | checkExpiredSessions =>
    exact obeys_sessionsSection (requestTable_checkExpiredSessions maxIdle) obeys_done
  | timeout k sequence => exact obeys_timeout sequence k
  | other e => exact obeys_done

end Protected

/-- Whatever the callbacks call, the threads touch only what they may. -/
theorem obedient (maxIdle : ℤ) :
    Obedient (lockProgram maxIdle) (Protected maxIdle) atCallback fun _ _ => True where
  proc := obeys_proc
  method := obeys_method (Set.empty_subset _)
  callback c a _ := by
    cases c
    exact obeys_method Set.Subset.rfl a

/-- What every thread is next to do, in every run. -/
theorem protected_run {maxIdle : ℤ} {s : Server} {es : List (LockEvent Proc Method)} :
    EveryState (lockProgram maxIdle).step { shared := s } es fun w =>
      ∀ i code, w.code? i = some code → Protected maxIdle (w.heldBy i) code :=
  (obedient maxIdle).keeps fun _ _ _ _ _ _ => CallsOnly.of_any _ _

/-- **Data races.** Whatever an application does in its threads and callbacks, no threads of the
server ever race for its tables. -/
theorem tables_not_raced (maxIdle : ℤ) (s : Server) (es : List (LockEvent Proc Method)) :
    EveryState (lockProgram maxIdle).step { shared := s } es fun w =>
      ¬ w.Race (lockProgram maxIdle).eval sessionTables ∧
        ¬ w.Race (lockProgram maxIdle).eval requestTable := by
  refine fun pre post w heq hw => ⟨World.not_race_of_keeps (m := .sessions) fun i code hcode => ?_,
    World.not_race_of_keeps (m := .pendingRequests) fun i code hcode => ?_⟩
  · exact (protected_run pre post w heq hw i code hcode).sessions
  · exact (protected_run pre post w heq hw i code hcode).pendingRequests

end TurboNet.Qwen
