import TurboNet.Common.LockOrder
import TurboNet.Qwen.Server

/-!
# Deadlocks of the qwen server

Reference: `qwen/server.cpp`, `server`.

`lockProgram` has the functions of the server instruction by instruction, as far as it is about
`sessions_mutex_` and `pending_requests_mutex_` and the calls of `response_callback`. The steps
between two instructions are those of `Server`. `handle_response` and the handler of the timer of a
request call the callback under `pending_requests_mutex_`. Handlers of one session may overlap
here, which they do not do in the program; this only adds runs.

`callbackDeadlockFree_iff` says what the callback may call.
-/

namespace TurboNet.Qwen

open Common

/-- `sessions_mutex_` and `pending_requests_mutex_`. -/
inductive Mutex where
  | sessions
  | pendingRequests
deriving DecidableEq, Repr

/-- The callback of the application. -/
inductive AppCallback where
  | response
deriving DecidableEq, Repr

/-- What the threads of the server do: handlers of the acceptor, of the session at place `j`, of the
expiration timer and of the timer of call `k`; and steps that take no lock. -/
inductive Proc where
  | accept
  | handlePacket (j : ℕ) (p : Packet)
  | readError (j : ℕ)
  | writeError (j : ℕ)
  | heartbeatTimeout (j : ℕ)
  | checkExpiredSessions
  | timeout (k : ℕ) (sequence : UInt32)
  | other (e : Server.Event)
deriving DecidableEq

/-- The public methods. -/
inductive Method where
  /-- `send_request_to_session`, or `send_request_to_all` without a session. -/
  | sendRequest (session : Option UInt64) (requestType : UInt8) (payload : List UInt8)
      (callback : Bool) (expectedType : UInt8) (timeout : ℕ)
  | handleResponse (p : Packet)
  | updateLastActiveTime (id : UInt64)
  | removeSession (id : UInt64)
  | getStatistics
deriving DecidableEq

abbrev ServerCode := Code Mutex Server Empty AppCallback Proc

namespace Server

/-- What the handler of `async_accept` does under the lock. -/
def enter (s : Server) : Server :=
  { s with
    objects := s.objects ++ [({ sessionId := s.nextSessionId } : Session)]
    nextSessionId := s.nextSessionId + 1
    sessions := s.sessions.insert s.nextSessionId s.objects.length
    sessionMetadata := s.sessionMetadata.insert s.nextSessionId ⟨s.now, s.now⟩
    sessionStartTimes := s.sessionStartTimes.insert s.nextSessionId s.now
    activeSessionsCount := s.activeSessionsCount + 1 }

/-- `update_last_active_time`. -/
def updateLastActiveTime (s : Server) (id : UInt64) : Server :=
  match s.sessionMetadata[id]? with
  | some m => { s with
      sessionMetadata := s.sessionMetadata.insert id { m with lastActiveTime := s.now } }
  | none => s

/-- The call with this number is entered into `pending_requests_`. -/
def registerCall (s : Server) (k : ℕ) : Server := (s.calls[k]?.map (s.register k)).getD s

/-- The packet of the call is sent to these sessions. -/
def transmitTo (s : Server) (recipients : List ℕ) (p : Packet) : Server :=
  recipients.foldl (fun s j => s.sendPacket j p) s

/-- The callback of a request is called. -/
def deliver (s : Server) (v : Verdict) : Server := { s with verdicts := s.verdicts ++ [v] }

/-- `pending_requests_.erase(it)`, where `it` was found at this entry. If the entry is not there any
more the iterator is invalid; what happens then plays no part, since it never is. -/
def eraseFound (s : Server) (sequence : UInt32) (r : PendingRequest) : Server :=
  if s.pendingRequests[sequence]? = some r then
    { s with pendingRequests := s.pendingRequests.erase sequence }
  else s

end Server

open Server

/-! ## The methods -/

/-- The end of `send_request_to_session` and `send_request_to_all`: the former has released the lock
when it sends. -/
def transmitCode (c : RequestCall) : ServerCode :=
  let p : Packet := ⟨c.requestType, 0, c.sequence, c.payload⟩
  .lock .sessions <| .act id fun s =>
    if c.session.isSome then
      .unlock .sessions <| .act (·.transmitTo (s.recipients c) p) fun _ => .done
    else .act (·.transmitTo (s.recipients c) p) fun _ => .unlock .sessions .done

/-- `send_request_to_session` and `send_request_to_all`. -/
def sendRequestCode (session : Option UInt64) (requestType : UInt8) (payload : List UInt8)
    (callback : Bool) (expectedType : UInt8) (timeout : ℕ) : ServerCode :=
  .act (·.sendRequest session requestType payload callback expectedType timeout) fun s =>
    let c : RequestCall :=
      { session, requestType, payload, callback, expectedType, timeout,
        sequence := s.sequenceGenerator }
    if c.tracked then
      .lock .pendingRequests <| .act (·.registerCall s.calls.length) fun _ =>
        .unlock .pendingRequests <| transmitCode c
    else transmitCode c

/-- `handle_response`, followed by the rest of the handler. -/
def handleResponseCode (p : Packet) (rest : ServerCode) : ServerCode :=
  .lock .pendingRequests <| .act id fun s =>
    match s.pendingRequests[p.sequence]? with
    | some r =>
      let erase : ServerCode :=
        .act (·.eraseFound p.sequence r) fun _ => .unlock .pendingRequests rest
      .act (·.updateTimer r.call Timer.cancel) fun _ =>
        if r.expectedType = p.packetId then
          .act (·.deliver ⟨r.call, p.payload, p.status, some p⟩) fun _ => .callback .response erase
        else erase
    | none => .unlock .pendingRequests rest

/-- `remove_session`, followed by the rest of the handler. -/
def removeSessionCode (id : UInt64) (rest : ServerCode) : ServerCode :=
  .lock .sessions <| .act (·.removeSession id) fun _ => .unlock .sessions rest

def methodCode : Method → ServerCode
  | .sendRequest session requestType payload callback expectedType timeout =>
    sendRequestCode session requestType payload callback expectedType timeout
  | .handleResponse p => handleResponseCode p .done
  | .updateLastActiveTime id =>
    .lock .sessions <| .act (·.updateLastActiveTime id) fun _ => .unlock .sessions .done
  | .removeSession id => removeSessionCode id .done
  | .getStatistics => .done

/-! ## The handlers -/

/-- A handler of the session at place `j` that ends the session. -/
def endSessionCode (j : ℕ) (rest : ServerCode) : ServerCode :=
  .act id fun s =>
    match s.objects[j]? with
    | some c => removeSessionCode c.sessionId rest
    | none => rest

def procCode (maxIdle : ℤ) : Proc → ServerCode
  | .accept => .lock .sessions <| .act enter fun s => .unlock .sessions <|
      .act (·.startHeartbeat s.objects.length) fun _ => .done
  | .handlePacket j p => handleResponseCode p <| .act (fun s => s.updateSession j fun c =>
      { c with handled := c.handled ++ [(s.now, p)] }.answer p) fun _ => .done
  | .readError j => endSessionCode j <|
      .act (·.updateSession j ({ · with reading := false })) fun _ => .done
  | .writeError j => endSessionCode j .done
  | .heartbeatTimeout j => endSessionCode j .done
  | .checkExpiredSessions =>
    .lock .sessions <| .act (·.checkExpiredSessions maxIdle) fun _ => .unlock .sessions .done
  | .timeout _ sequence => .lock .pendingRequests <| .act id fun s =>
      match s.pendingRequests[sequence]? with
      | some r =>
        .act (·.deliver ⟨r.call, [], pktTimeoutStatus, none⟩) fun _ => .callback .response <|
          .act (·.eraseFound sequence r) fun _ => .unlock .pendingRequests .done
      | none => .unlock .pendingRequests .done
  | .other _ => .done

/-- The steps of `Server` that take no lock. -/
def lockFree : Server.Event → Bool
  | .shortLength _ | .writeDone _ | .heartbeatExpire _ | .startHeartbeat _ | .expire _ | .tick _ =>
    true
  | _ => false

/-- What happens to the server when a thread takes up one of these. -/
def takeUp (maxIdle : ℤ) (q : Proc) (s : Server) : Option Server :=
  match q with
  | .accept => some s
  | .handlePacket j _ | .readError j => (s.readingAt j).map fun _ => s
  | .writeError j => (s.writingAt j).map fun _ => s.updateSession j ({ · with writing := false })
  | .heartbeatTimeout j => s.objects[j]?.bind fun c => c.heartbeatTimer.takeDue.map fun x =>
      s.updateSession j ({ · with heartbeatTimer := x.2 })
  | .checkExpiredSessions => some s
  | .timeout k sequence => (s.calls[k]?.filter (·.sequence = sequence)).bind fun c =>
      c.timer.takeDue.map fun x => s.updateTimer k fun _ => x.2
  | .other e => if lockFree e then s.step maxIdle e else none

def lockProgram (maxIdle : ℤ) : LockProgram Mutex Server Empty AppCallback Proc Method where
  eval t := nomatch t
  proc := procCode maxIdle
  method := methodCode
  takeUp := takeUp maxIdle

/-- What is held at a callback. -/
def atCallback : AppCallback → Set Mutex
  | .response => {.pendingRequests}

/-! ## What the callback may call -/

/-- The method takes `pending_requests_mutex_`: a request that waits for an answer, or
`handle_response`. -/
def Method.takesPending : Method → Bool
  | .sendRequest _ _ _ callback expectedType _ => callback && expectedType ≠ 0
  | .handleResponse _ => true
  | _ => false

/-- `pending_requests_mutex_` comes before `sessions_mutex_`. -/
def rank : Mutex → ℕ
  | .pendingRequests => 0
  | .sessions => 1

section Climbs

variable {held base : Set Mutex} {rest : ServerCode}

/-- Sending takes the lock of the sessions above what is held. -/
theorem climbs_transmit (hm : .sessions ∉ held) (hrank : ∀ n ∈ held, rank n < rank .sessions)
    (c : RequestCall) : Climbs rank atCallback held held (transmitCode c) := by
  refine ⟨hrank, fun s => ?_⟩
  split
  · exact Climbs.unlock_insert hm fun _ => rfl
  · refine fun _ => Climbs.unlock_insert hm ?_
    rfl

/-- Without locks, or under `pending_requests_mutex_` only, `sessions_mutex_` may be taken. -/
theorem sessions_above (hheld : held ⊆ {.pendingRequests}) :
    Mutex.sessions ∉ held ∧ ∀ n ∈ held, rank n < rank .sessions := by
  refine ⟨fun hmem => absurd (hheld hmem) (by simp), fun n hn => ?_⟩
  obtain rfl := Set.mem_singleton_iff.mp (hheld hn)
  decide

/-- A section under the lock of the sessions may stand inside one of the pending requests. -/
theorem climbs_section (hheld : held ⊆ {.pendingRequests}) (f : Server → Server)
    (h : Climbs rank atCallback base held rest) :
    Climbs rank atCallback base held (.lock .sessions <| .act f fun _ => .unlock .sessions rest) :=
  .section f (sessions_above hheld).2 h

/-- `handle_response` calls back with the lock of the pending requests held. -/
theorem climbs_handleResponse (p : Packet) (h : Climbs rank atCallback base ∅ rest) :
    Climbs rank atCallback base ∅ (handleResponseCode p rest) := by
  refine ⟨fun n hn => absurd hn (Set.notMem_empty n), fun s => ?_⟩
  have hend : Climbs rank atCallback base (insert .pendingRequests ∅)
      (.unlock .pendingRequests rest) :=
    h.unlock_insert (Set.notMem_empty _)
  dsimp only
  split
  · intro _
    split
    · exact fun _ => ⟨insert_empty_eq Mutex.pendingRequests, fun _ => hend⟩
    · exact fun _ => hend
  · exact hend

/-- The end of a session takes one lock. -/
theorem climbs_endSession (j : ℕ) (h : Climbs rank atCallback base ∅ rest) :
    Climbs rank atCallback base ∅ (endSessionCode j rest) := by
  intro s
  dsimp only
  split
  · exact climbs_section (Set.empty_subset _) _ h
  · exact h

/-- Every handler takes its locks in order. -/
theorem climbs_proc (maxIdle : ℤ) (q : Proc) :
    Climbs rank atCallback ∅ ∅ (procCode maxIdle q) := by
  cases q with
  | accept =>
    refine ⟨(sessions_above (Set.empty_subset _)).2, fun s => ?_⟩
    exact Climbs.unlock_insert (Set.notMem_empty _) fun _ => rfl
  | handlePacket j p => exact climbs_handleResponse p fun _ => rfl
  | readError j => exact climbs_endSession j fun _ => rfl
  | writeError j => exact climbs_endSession j rfl
  | heartbeatTimeout j => exact climbs_endSession j rfl
  | checkExpiredSessions => exact climbs_section (Set.empty_subset _) _ rfl
  | timeout k sequence =>
    refine ⟨fun n hn => absurd hn (Set.notMem_empty n), fun s => ?_⟩
    have hend : Climbs rank atCallback ∅ (insert .pendingRequests ∅)
        (.unlock .pendingRequests .done : ServerCode) :=
      Climbs.unlock_insert (Set.notMem_empty _) rfl
    dsimp only
    split
    · exact fun _ => ⟨insert_empty_eq Mutex.pendingRequests, fun _ => hend⟩
    · exact hend
  | other e => rfl

/-- A method that does not take `pending_requests_mutex_` may be called where that is held. -/
theorem climbs_method_of_takesPending (hheld : held ⊆ {.pendingRequests}) {a : Method}
    (ha : a.takesPending = false) : Climbs rank atCallback held held (methodCode a) := by
  obtain ⟨hm, hrank⟩ := sessions_above hheld
  cases a with
  | sendRequest session requestType payload callback expectedType timeout =>
    intro s
    dsimp only
    split
    · rename_i htracked
      exact absurd (htracked.symm.trans ha) (by simp)
    · exact climbs_transmit hm hrank _
  | handleResponse p => cases ha
  | updateLastActiveTime id => exact climbs_section hheld _ rfl
  | removeSession id => exact climbs_section hheld _ rfl
  | getStatistics => rfl

/-- Every method takes its locks in order when none is held. -/
theorem climbs_method (a : Method) : Climbs rank atCallback ∅ ∅ (methodCode a) := by
  cases ha : a.takesPending with
  | false => exact climbs_method_of_takesPending (Set.empty_subset _) ha
  | true =>
    cases a with
    | sendRequest session requestType payload callback expectedType timeout =>
      obtain ⟨hm, hrank⟩ := sessions_above (Set.empty_subset {Mutex.pendingRequests})
      intro s
      dsimp only
      split
      · refine Climbs.section _ (fun n hn => absurd hn (Set.notMem_empty n)) ?_
        exact climbs_transmit hm hrank _
      · exact climbs_transmit hm hrank _
    | handleResponse p => exact climbs_handleResponse p rfl
    | _ => cases ha

end Climbs

/-- The server takes its locks in order, if its callbacks call no method that takes that of the
pending requests. -/
theorem ordered (maxIdle : ℤ) {Q : AppCallback → Method → Prop}
    (hQ : ∀ c a, Q c a → a.takesPending = false) :
    LockOrdered (lockProgram maxIdle) rank atCallback Q where
  proc := climbs_proc maxIdle
  method := climbs_method
  callback c a hcall := climbs_method_of_takesPending Set.Subset.rfl (hQ c a hcall)

/-! ## The callback waits for its own thread -/

/-- A request that waits for an answer is sent to nobody, and its time is over: thread 0 is in the
callback. -/
def requestTimedOut : List (LockEvent Proc Method) :=
  [.invoke 0 (.sendRequest none pktSubmitReq [] true pktSubmitResp 0)] ++
  List.replicate 9 (.advance 0) ++ [.takeUp 0 (.other (.expire 0)), .advance 0,
    .takeUp 0 (.timeout 0 1)] ++ List.replicate 4 (.advance 0)

/-- After `requestTimedOut` the callback calls a method that takes `pending_requests_mutex_`. -/
theorem deadlock_of_takesPending (maxIdle : ℤ) {a : Method} (ha : a.takesPending = true) :
    ∃ es w, EveryStep (lockProgram maxIdle).step { shared := {} } es
        (CallsOnly fun _ b => b = a) ∧
      run (lockProgram maxIdle).step { shared := {} } es = some w ∧ w.Deadlock := by
  obtain ⟨w, rest, hrun, hframes, howner⟩ :
      ∃ w rest, run (lockProgram maxIdle).step { shared := {} } requestTimedOut = some w ∧
        w.frames 0 = .app .response :: rest ∧ w.owner .pendingRequests = some 0 :=
    ⟨_, _, rfl, rfl, rfl⟩
  have hbefore : EveryStep (lockProgram maxIdle).step { shared := {} } requestTimedOut
      (CallsOnly fun _ _ => False) :=
    of_decide_eq_true rfl
  have hcalls : EveryStep (lockProgram maxIdle).step { shared := {} }
      (requestTimedOut ++ [.invoke 0 a]) (CallsOnly fun _ b => b = a) := by
    refine everyStep_append_singleton.mpr ⟨fun pre e post t heq ht => ?_, fun t _ c _ => rfl⟩
    exact (hbefore pre e post t heq ht).mono fun _ _ h => h.elim
  have hinvoke : (lockProgram maxIdle).step w (.invoke 0 a) =
      some (w.setFrames 0 (.code (some (some .response, a)) (methodCode a) ::
        .app .response :: rest)) := by
    simp only [LockProgram.step, hframes]
    rfl
  generalize hv : w.setFrames 0 _ = v at hinvoke
  have hvframes := hv ▸ frames_setFrames w 0 _
  have hvowner : v.owner .pendingRequests = some 0 := by rw [← hv]; exact howner
  have hvrun : run (lockProgram maxIdle).step { shared := {} } (requestTimedOut ++ [.invoke 0 a]) =
      some v :=
    run_append_eq_some.mpr ⟨w, hrun, (run_singleton _ _).trans hinvoke⟩
  cases a with
  | handleResponse p =>
    refine ⟨_, v, hcalls, hvrun, World.SelfLock.deadlock ⟨0, ?_⟩⟩
    rw [World.SelfLockOf, hvframes]
    exact hvowner
  | sendRequest session requestType payload callback expectedType timeout =>
    -- the number is drawn first
    have hstep : (lockProgram maxIdle).step v (.advance 0) = some _ := step_advance hvframes
    refine ⟨requestTimedOut ++ [.invoke 0 _] ++ [.advance 0], _, ?_,
      run_append_eq_some.mpr ⟨v, hvrun, (run_singleton _ _).trans hstep⟩,
      World.SelfLock.deadlock ⟨0, ?_⟩⟩
    · exact everyStep_append_singleton.mpr ⟨hcalls, fun _ _ => trivial⟩
    · have htracked (n : UInt32) : RequestCall.tracked
          { session, requestType, payload, callback, expectedType, timeout, sequence := n } =
            true := ha
      simp only [World.SelfLockOf, frames_setFrames, htracked, if_true]
      exact hvowner
  | _ => cases ha

/-- **Deadlocks.** Whatever threads of the application do, no threads of the server ever wait for
each other, exactly when the callback of a request calls neither `handle_response` nor a request
that waits for an answer. -/
theorem callbackDeadlockFree_iff (maxIdle : ℤ) (P : Method → Prop) :
    (∀ es, EveryStep (lockProgram maxIdle).step { shared := {} } es (CallsOnly fun _ a => P a) →
      EveryState (lockProgram maxIdle).step { shared := {} } es fun w => ¬ w.Deadlock) ↔
    ∀ a, P a → a.takesPending = false := by
  constructor
  · intro h a ha
    by_contra htakes
    obtain ⟨es, w, hes, hw, hdeadlock⟩ :=
      deadlock_of_takesPending maxIdle (Bool.not_eq_false _ ▸ htakes)
    refine (h es fun pre e post t heq ht => (hes pre e post t heq ht).mono ?_).last hw hdeadlock
    rintro _ b rfl
    exact ha
  · intro hP es hes
    have hbound : ∀ m, rank m ≤ 1 := fun m => by cases m <;> decide
    exact (ordered maxIdle fun _ a => hP a).not_deadlock hbound hes

end TurboNet.Qwen
