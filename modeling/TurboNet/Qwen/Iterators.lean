import TurboNet.Common.Critical
import TurboNet.Qwen.Races

/-!
# Iterators of the qwen server

Reference: `qwen/server.cpp`, `server::handle_response`, `server::send_request_to_session`.

`handle_response` and the handler of the timer of a request find an entry of `pending_requests_`,
call the callback of the application, and then erase the entry by the iterator that they have found
it with. The iterator is still valid, whatever the callback has done: the lock is held all along,
and under the key is still the entry that was found.
-/

namespace TurboNet.Qwen

open Common Server

/-- The entry that is erased is the one that was found, and is there. -/
def ErasesFound (known : Option (Std.TreeMap UInt32 PendingRequest)) (code : ServerCode) : Prop :=
  ∀ sequence r next, code = .act (·.eraseFound sequence r) next →
    ∃ table ∈ known, table[sequence]? = some r

/-- What is done to `pending_requests_`, of which the thread knows this. -/
abbrev KnowsRequests (base known : Option (Std.TreeMap UInt32 PendingRequest)) (code : ServerCode) :
    Prop :=
  Knows ErasesFound requestTable .pendingRequests base known code

/-- Only this request is pending. -/
def onlyPending (sequence : UInt32) (r : PendingRequest) : Server :=
  { pendingRequests := (∅ : Std.TreeMap UInt32 PendingRequest).insert sequence r }

section KnowsRequests

variable {known base : Option (Std.TreeMap UInt32 PendingRequest)} {rest : ServerCode}
  {f : Server → Server} {next : Server → ServerCode}

/-- The one pending request is found. -/
theorem getElem?_onlyPending (sequence : UInt32) (r : PendingRequest) :
    (onlyPending sequence r).pendingRequests[sequence]? = some r :=
  Std.TreeMap.getElem?_insert_self

/-- What `erase(it)` does tells which entry it was found at. -/
theorem eraseFound_injective {sequence sequence' : UInt32} {r r' : PendingRequest}
    (h : (·.eraseFound sequence r : Server → Server) = (·.eraseFound sequence' r')) :
    sequence = sequence' ∧ r = r' := by
  have hgone : ((onlyPending sequence r).eraseFound sequence r).pendingRequests[sequence]? =
      none := by
    rw [eraseFound, if_pos (getElem?_onlyPending sequence r)]
    exact Std.TreeMap.getElem?_erase_self
  have hsame : (onlyPending sequence r).eraseFound sequence r =
      (onlyPending sequence r).eraseFound sequence' r' :=
    congrFun h _
  rw [hsame, eraseFound] at hgone
  -- the other one has erased the entry as well, so it was found at it
  split at hgone
  · rename_i hfound
    rw [onlyPending, Std.TreeMap.getElem?_insert] at hfound
    split at hfound
    · rename_i heq
      exact ⟨Std.LawfulEqCmp.eq_of_compare heq, Option.some.inj hfound⟩
    · simp at hfound
  · rw [getElem?_onlyPending] at hgone
    cases hgone

/-- Erasing the entry that is in the map keeps the rule. -/
theorem erasesFound_eraseFound {a : Std.TreeMap UInt32 PendingRequest} {sequence : UInt32}
    {r : PendingRequest} (h : a[sequence]? = some r) :
    ErasesFound (some a) (.act (·.eraseFound sequence r) next) := by
  intro sequence' r' next' heq
  injection heq with hf
  obtain ⟨rfl, rfl⟩ := eraseFound_injective hf
  exact ⟨a, rfl, h⟩

/-- Something else is done than to erase an entry. -/
theorem erasesFound_of_mem
    (h : ∀ sequence r, sequence ∈ (f (onlyPending sequence r)).pendingRequests) :
    ErasesFound known (.act f next) := by
  intro sequence r next' heq
  injection heq with hf
  have hmem := h sequence r
  rw [hf] at hmem
  simp [eraseFound, getElem?_onlyPending] at hmem

/-- An instruction that leaves the map alone leaves what the thread knows of it. -/
theorem knows_act (hget : ∀ s, requestTable.get (f s) = requestTable.get s)
    (h : ∀ s, (∀ a ∈ known, requestTable.get s = a) → KnowsRequests base known (next s)) :
    KnowsRequests base known (.act f next) := by
  refine .act_of_get (erasesFound_of_mem fun sequence r => ?_) hget h
  have hsame : (f (onlyPending sequence r)).pendingRequests =
      (onlyPending sequence r).pendingRequests :=
    hget _
  rw [hsame]
  simp [onlyPending]

/-! ## The methods and handlers -/

/-- So does a section under the lock of the sessions. -/
theorem knows_sessionsSection (hget : ∀ s, requestTable.get (f s) = requestTable.get s)
    (h : KnowsRequests base known rest) :
    KnowsRequests base known (.lock .sessions <| .act f fun _ => .unlock .sessions rest) :=
  .lock_of_ne (by decide) (knows_act hget fun _ _ => .unlock_of_ne (by decide) h)

/-- Sending touches no entry of the map. -/
theorem knows_transmit (c : RequestCall) : KnowsRequests known known (transmitCode c) := by
  have hsend (l : List ℕ) (p : Packet) : requestTable.Apart (·.transmitTo l p) :=
    apart_transmitTo (fun _ => ⟨fun _ => rfl, fun _ => rfl⟩) l
  refine .lock_of_ne (by decide) (knows_act (fun _ => rfl) fun s _ => ?_)
  split
  · exact .unlock_of_ne (by decide) (knows_act (hsend _ _).get fun _ _ => rfl)
  · exact knows_act (hsend _ _).get fun _ _ => .unlock_of_ne (by decide) rfl

/-- `send_request` inserts an entry and erases none. -/
theorem knows_sendRequest (session : Option UInt64) (requestType : UInt8) (payload : List UInt8)
    (callback : Bool) (expectedType : UInt8) (timeout : ℕ) :
    KnowsRequests known known
      (sendRequestCode session requestType payload callback expectedType timeout) := by
  refine knows_act (fun _ => rfl) fun s _ => ?_
  dsimp only
  split
  · refine .lock_self fun hnone a => ⟨erasesFound_of_mem fun sequence _ => ?_, fun _ _ => ?_⟩
    · simp [onlyPending, registerCall]
    · subst hnone
      exact .unlock_self (knows_transmit _)
  · exact knows_transmit _

/-- The entry that is found is still there after the callback. -/
theorem knows_handleResponse (p : Packet) (h : KnowsRequests base known rest) :
    KnowsRequests base known (handleResponseCode p rest) := by
  refine .lock_self fun hnone a => knows_act (fun _ => rfl) fun s hs => ?_
  subst hnone
  dsimp only
  split
  · rename_i r hr
    have hfound : a[p.sequence]? = some r := hs a rfl ▸ hr
    have herase : KnowsRequests base (some a)
        (.act (·.eraseFound p.sequence r) fun _ => .unlock .pendingRequests rest) :=
      ⟨erasesFound_eraseFound hfound, fun _ _ => .unlock_self h⟩
    refine knows_act (fun _ => rfl) fun _ _ => ?_
    split
    · exact knows_act (fun _ => rfl) fun _ _ => herase
    · exact herase
  · exact .unlock_self h

/-- The handler of a timer erases the entry that it has found under the same lock. -/
theorem knows_timeout (maxIdle : ℤ) (k : ℕ) (sequence : UInt32) :
    KnowsRequests none none (procCode maxIdle (.timeout k sequence)) := by
  refine .lock_self fun _ a => knows_act (fun _ => rfl) fun s hs => ?_
  split
  · rename_i r hr
    have hfound : a[sequence]? = some r := hs a rfl ▸ hr
    refine knows_act (fun _ => rfl) fun _ _ => ?_
    exact ⟨erasesFound_eraseFound hfound, fun _ _ => .unlock_self rfl⟩
  · exact .unlock_self rfl

/-- The end of a session touches no entry of the map. -/
theorem knows_endSession (j : ℕ) (h : KnowsRequests base known rest) :
    KnowsRequests base known (endSessionCode j rest) := by
  refine knows_act (fun _ => rfl) fun s _ => ?_
  split
  · exact knows_sessionsSection (requestTable_removeSession _).get h
  · exact h

/-- No method of the server erases an entry. -/
theorem knows_method (a : Method) : KnowsRequests known known (methodCode a) := by
  cases a with
  | sendRequest session requestType payload callback expectedType timeout =>
    exact knows_sendRequest session requestType payload callback expectedType timeout
  | handleResponse p => exact knows_handleResponse p rfl
  | updateLastActiveTime id =>
    exact knows_sessionsSection (requestTable_updateLastActiveTime id).get rfl
  | removeSession id => exact knows_sessionsSection (requestTable_removeSession id).get rfl
  | getStatistics => rfl

/-- Every handler erases only an entry that it has found and that is still there. -/
theorem knows_proc (maxIdle : ℤ) (q : Proc) : KnowsRequests none none (procCode maxIdle q) := by
  cases q with
  | accept =>
    refine .lock_of_ne (by decide) (knows_act (fun _ => rfl) fun s _ => ?_)
    exact .unlock_of_ne (by decide) (knows_act (fun _ => rfl) fun _ _ => rfl)
  | handlePacket j p =>
    exact knows_handleResponse p (knows_act (fun _ => rfl) fun _ _ => rfl)
  | readError j => exact knows_endSession j (knows_act (fun _ => rfl) fun _ _ => rfl)
  | writeError j => exact knows_endSession j rfl
  | heartbeatTimeout j => exact knows_endSession j rfl
  | checkExpiredSessions =>
    exact knows_sessionsSection (requestTable_checkExpiredSessions maxIdle).get rfl
  | timeout k sequence => exact knows_timeout maxIdle k sequence
  | other e => rfl

end KnowsRequests

/-- Nothing that is taken up changes `pending_requests_`. -/
theorem takeUp_requestTable {maxIdle : ℤ} {q : Proc} {s s' : Server}
    (h : takeUp maxIdle q s = some s') : requestTable.get s' = requestTable.get s := by
  cases q with
  | accept | checkExpiredSessions =>
    obtain rfl := Option.some.inj h
    rfl
  | handlePacket | readError | writeError =>
    obtain ⟨c, -, rfl⟩ := Option.map_eq_some_iff.mp h
    rfl
  | heartbeatTimeout | timeout =>
    obtain ⟨c, -, h⟩ := Option.bind_eq_some_iff.mp h
    obtain ⟨x, -, rfl⟩ := Option.map_eq_some_iff.mp h
    rfl
  | other e =>
    obtain ⟨hfree, h⟩ := Option.ite_none_right_eq_some.mp h
    cases stepped_of_step h with
    | shortLength | writeDone | heartbeatExpire | startHeartbeat | expire | tick => rfl
    | _ => cases hfree

/-- The server keeps to the rule in all its threads. -/
theorem informed (maxIdle : ℤ) :
    Informed (lockProgram maxIdle) ErasesFound requestTable .pendingRequests where
  proc := knows_proc maxIdle
  method _ := knows_method
  takeUp _ _ _ := takeUp_requestTable

/-- **Iterators.** Whatever an application does in its threads and callbacks: a thread that is next
to erase an entry of `pending_requests_` has the lock, and under the key is still the entry that it
has found there. -/
theorem erase_valid (maxIdle : ℤ) (s : Server) (es : List (LockEvent Proc Method)) :
    EveryState (lockProgram maxIdle).step { shared := s } es fun w => ∀ i sequence r next,
      w.code? i = some (.act (·.eraseFound sequence r) next) →
        w.owner .pendingRequests = some i ∧ w.shared.pendingRequests[sequence]? = some r := by
  have hguarded : EveryState (lockProgram maxIdle).step { shared := s } es fun w => ∀ i code,
      w.code? i = some code →
        Guarded (lockProgram maxIdle).eval requestTable .pendingRequests (w.heldBy i) code :=
    fun pre post w heq hw i code hcode =>
      (protected_run pre post w heq hw i code hcode).pendingRequests
  intro pre post w heq hw i sequence r next hcode
  have herases := (informed maxIdle).keeps hguarded pre post w heq hw i _ next hcode
  obtain ⟨table, hknown, hfound⟩ := herases sequence r next rfl
  obtain ⟨howner, rfl⟩ := World.known_eq_some.mp hknown
  exact ⟨howner, hfound⟩

/-- The callback returns, and the entry is still there. -/
theorem erase_valid_requestTimedOut :
    ∃ w r next, run (lockProgram 300).step { shared := {} } (requestTimedOut ++ [.ret 0]) =
        some w ∧
      w.code? 0 = some (.act (·.eraseFound 1 r) next) ∧
      w.owner .pendingRequests = some 0 ∧ w.shared.pendingRequests[(1 : UInt32)]? = some r := by
  obtain ⟨w, r, next, hw, hcode⟩ : ∃ w r next,
      run (lockProgram 300).step { shared := {} } (requestTimedOut ++ [.ret 0]) = some w ∧
        w.code? 0 = some (.act (·.eraseFound 1 r) next) :=
    ⟨_, _, _, rfl, rfl⟩
  exact ⟨w, r, next, hw, hcode, (erase_valid 300 {} _).last hw 0 1 r next hcode⟩

end TurboNet.Qwen
