import TurboNet.Common.Critical
import TurboNet.Asio.Races

/-!
# The sweep among other threads

Reference: `claude/asio_server.cpp`, `TcpServer::checkTimeouts`.

`checkTimeouts` collects the numbers of the expired requests, and then calls `timeoutCallback_` for
each of them before it erases the request. Since it keeps `requestsMutex_` all along, each of these
requests is still pending when the callback is called, whatever the callbacks before have done.
-/

namespace TurboNet.Asio

open Common Locked

/-- A request that is reported as expired is pending. -/
def ReportsPending (known : Option (Std.TreeMap UInt32 PendingRequest)) (code : ServerCode) :
    Prop :=
  ∀ sequence rest, code = sweepCode (sequence :: rest) → ∃ table ∈ known, sequence ∈ table

/-- What is done to `pendingRequests_`, of which the thread knows this. -/
abbrev KnowsPending (base known : Option (Std.TreeMap UInt32 PendingRequest)) (code : ServerCode) :
    Prop :=
  Knows ReportsPending pendingVar .requestsMutex base known code

/-- A timeout callback is set, and has not been called. -/
def unreported : Locked := { server := { timeoutCallback := some .global } }

section KnowsPending

variable {known base : Option (Std.TreeMap UInt32 PendingRequest)} {rest : ServerCode}
  {f : Locked → Locked} {next : Locked → ServerCode}

/-- Something else is done than to report a request. -/
theorem reportsPending_of_unreported (h : (f unreported).server.timeouts = []) :
    ReportsPending known (.act f next) := by
  intro sequence rest heq
  rw [sweepCode] at heq
  injection heq with hf
  rw [hf] at h
  cases h

/-- The next request that is reported is one of those that the thread knows to be pending. -/
theorem reportsPending_sweep {a : Std.TreeMap UInt32 PendingRequest} {sequence : UInt32}
    {rest : List UInt32} (h : sequence ∈ a) :
    ReportsPending (some a) (sweepCode (sequence :: rest)) := by
  intro sequence' rest' heq
  rw [sweepCode, sweepCode] at heq
  injection heq with hf
  have hsame := congrArg (·.server.timeouts) (congrFun hf unreported)
  obtain rfl : sequence = sequence' := by simpa [unreported, update] using hsame
  exact ⟨a, rfl, h⟩

/-- Something that leaves the requests alone and reports none. -/
theorem knows_act (hget : ∀ s, pendingVar.get (f s) = pendingVar.get s)
    (hreport : (f unreported).server.timeouts = [])
    (h : ∀ s, (∀ a ∈ known, pendingVar.get s = a) → KnowsPending base known (next s)) :
    KnowsPending base known (.act f next) :=
  .act_of_get (reportsPending_of_unreported hreport) hget h

/-! ## The public methods -/

/-- `sendPacketTo` leaves the requests alone. -/
theorem knows_sendPacketTo (id : Int32) (p : Packet) :
    KnowsPending known known (sendPacketToCode id p) :=
  .lock_of_ne (by decide) fun _ => knows_act (fun _ => rfl) rfl fun _ _ =>
    .unlock_of_ne (by decide) rfl

/-- `sendRequest` enters its request, under the lock. -/
theorem knows_register (k : ℕ) (c : RequestCall) : KnowsPending known known (registerCode k c) := by
  refine .lock_self fun hnone a => ⟨reportsPending_of_unreported rfl, fun _ _ => ?_⟩
  subst hnone
  refine .unlock_self (knows_act (fun _ => rfl) rfl fun s _ => ?_)
  split
  · exact knows_act (fun _ => rfl) rfl fun _ _ => rfl
  · refine .lock_self fun _ a => knows_act (fun s => ?_) rfl fun _ _ => .unlock_self rfl
    rw [update_ensureTimer]
    dsimp only
    split <;> rfl

/-- `sendRequest` reports nothing. -/
theorem knows_sendRequest (id : Int32) (data : List UInt8) (timeout : ℕ)
    (responseCallback timeoutCallback : Bool) :
    KnowsPending known known
      (sendRequestCode id data timeout responseCallback timeoutCallback) := by
  refine knows_act (fun _ => rfl) rfl fun s _ => .lock_of_ne (by decide) fun found => ?_
  refine knows_act (fun s => ?_) rfl fun _ _ => .unlock_of_ne (by decide) ?_
  · rw [update_sendDrawn]
    dsimp only
    split <;> rfl
  · cases found with
    | false => rfl
    | true => exact knows_register _ _

/-- No method reports anything, whether it is called under the lock or not. -/
theorem knows_method (a : Method) : KnowsPending known known (methodCode a) := by
  have hfind (id : Int32) : KnowsPending known known (findConnectionCode id) :=
    .lock_of_ne (by decide) fun _ => .unlock_of_ne (by decide) rfl
  cases a with
  | sendRequest id data timeout responseCallback timeoutCallback =>
    exact knows_sendRequest id data timeout responseCallback timeoutCallback
  | cancelRequest sequence =>
    refine .lock_self fun hnone a => ⟨reportsPending_of_unreported rfl, fun _ _ => ?_⟩
    subst hnone
    exact .unlock_self rfl
  | sendTo id packetId status data =>
    exact knows_act (fun _ => rfl) rfl fun _ _ => knows_sendPacketTo _ _
  | broadcast packetId status data =>
    refine knows_act (fun _ => rfl) rfl fun _ _ => .lock_of_ne (by decide) ?_
    exact knows_act (fun _ => rfl) rfl fun _ _ => .unlock_of_ne (by decide) rfl
  | connectionCount =>
    refine .lock_of_ne (by decide) (knows_act (fun _ => rfl) rfl fun _ _ => ?_)
    exact .unlock_of_ne (by decide) rfl
  | getClientInfo id => exact hfind id
  | closeConnection id => exact hfind id

/-! ## The handlers -/

/-- To call `packetCallback_` reports nothing. -/
theorem knows_packetCallback (callback : PacketCallback) (d : Dispatch)
    (h : KnowsPending none none rest) :
    KnowsPending none none (packetCallbackCode callback d rest) := by
  cases callback with
  | unset => exact h
  | user => exact knows_act (fun _ => rfl) rfl fun _ _ => h
  | redirect => exact ⟨rfl, h⟩

/-- `handleIncomingPacket` takes a request out under the lock, and reports nothing as expired. -/
theorem knows_handleIncomingPacket (d : Dispatch) :
    KnowsPending none none (handleIncomingPacketCode d) := by
  have hrest : KnowsPending none none
      (.act id fun s => packetCallbackCode s.server.packetCallback d .done) :=
    knows_act (fun _ => rfl) rfl fun s _ => knows_packetCallback _ d rfl
  rw [handleIncomingPacketCode]
  split
  · rename_i hid
    refine .lock_self fun _ a => ⟨reportsPending_of_unreported ?_, fun s _ => .unlock_self ?_⟩
    · rw [update_takePending hid]
      rfl
    · split <;> exact hrest
  · exact hrest

/-- `processPacket` leaves the requests alone. -/
theorem knows_processPacket (serverId : List UInt8) (j : ℕ) (p : Packet) :
    KnowsPending none none (processPacketCode serverId j p) := by
  refine knows_act (fun _ => rfl) rfl fun s _ => ?_
  cases s.server.connections[j]? with
  | none => rfl
  | some c =>
    refine knows_packetCallback _ _ (knows_act (fun _ => rfl) rfl fun _ _ => ?_)
    exact knows_act (fun _ => rfl) rfl fun _ _ => rfl

/-- The handler of an error leaves the requests alone. -/
theorem knows_ioError (j : ℕ) : KnowsPending none none (ioErrorCode j) := by
  refine knows_act (fun _ => rfl) rfl fun s _ => ?_
  cases s.server.connections[j]? with
  | none => rfl
  | some c =>
    have hend : KnowsPending none none
        (.unlock .mutex (.act (Locked.release j) fun _ => .done) : ServerCode) :=
      .unlock_of_ne (by decide) (knows_act (fun _ => rfl) rfl fun _ _ => rfl)
    refine .lock_of_ne (by decide) (knows_act (fun _ => rfl) rfl fun s _ => ?_)
    split <;> exact hend

/-- The end of `checkTimeouts` leaves the requests alone. -/
theorem knows_finishSweep (hasPending : Bool) :
    KnowsPending none none (finishSweepCode hasPending) := by
  cases hasPending with
  | true => exact knows_act (fun _ => rfl) rfl fun _ _ => rfl
  | false =>
    exact .lock_self fun _ a => knows_act (fun _ => rfl) rfl fun _ _ => .unlock_self rfl

/-- The rest of the expired requests is pending. -/
theorem knows_sweep {a : Std.TreeMap UInt32 PendingRequest} {sequences : List UInt32}
    (hnodup : sequences.Nodup) (hmem : ∀ sequence ∈ sequences, sequence ∈ a) :
    KnowsPending none (some a) (sweepCode sequences) := by
  induction sequences generalizing a with
  | nil => exact knows_act (fun _ => rfl) rfl fun s _ => .unlock_self (knows_finishSweep _)
  | cons sequence rest ih =>
    obtain ⟨hnot, hnodup⟩ := List.nodup_cons.mp hnodup
    have herase : KnowsPending none (some a)
        (.act (update (·.cancelRequest sequence)) fun _ => sweepCode rest) := by
      refine ⟨reportsPending_of_unreported rfl, fun s hs => ?_⟩
      show KnowsPending none (some ((pendingVar.get s).erase sequence)) (sweepCode rest)
      rw [hs a rfl]
      refine ih hnodup fun sequence' hmem' => Std.TreeMap.mem_erase.mpr ⟨?_, ?_⟩
      · intro heq
        exact hnot (Std.LawfulEqCmp.eq_of_compare heq ▸ hmem')
      · exact hmem sequence' (List.mem_cons_of_mem _ hmem')
    refine .act_of_get (reportsPending_sweep (hmem sequence List.mem_cons_self)) (fun _ => rfl)
      fun s _ => ?_
    split
    · exact herase
    · exact herase

/-- What `checkTimeouts` collects is pending, since it has the lock. -/
theorem knows_checkTimeouts (error : Bool) : KnowsPending none none (checkTimeoutsCode error) := by
  cases error with
  | true => exact .lock_self fun _ a => knows_act (fun _ => rfl) rfl fun _ _ => .unlock_self rfl
  | false =>
    refine knows_act (fun _ => rfl) rfl fun now _ => .lock_self fun _ a => ?_
    refine knows_act (fun _ => rfl) rfl fun s hs => ?_
    refine knows_sweep (nodup_keysWhere _ _) fun sequence hmem => ?_
    obtain ⟨e, he, -⟩ := mem_keysWhere.mp hmem
    rw [← hs a rfl]
    exact Std.TreeMap.mem_iff_isSome_getElem?.mpr (Option.isSome_of_eq_some he)

/-- All handlers report pending requests only. -/
theorem knows_proc (serverId : List UInt8) (q : Proc) :
    KnowsPending none none (procCode serverId q) := by
  cases q with
  | accept error =>
    cases error with
    | true => exact knows_act (fun _ => rfl) rfl fun _ _ => rfl
    | false =>
      exact .lock_of_ne (by decide) (knows_act (fun _ => rfl) rfl fun _ _ =>
        .unlock_of_ne (by decide) rfl)
  | processPacket j p => exact knows_processPacket serverId j p
  | ioError j => exact knows_ioError j
  | handleIncomingPacket d => exact knows_handleIncomingPacket d
  | checkTimeouts error => exact knows_checkTimeouts error
  | _ => rfl

end KnowsPending

/-- Nothing that is taken up changes `pendingRequests_`. -/
theorem takeUp_pendingVar {q : Proc} {s s' : Locked} (h : takeUp q s = some s') :
    pendingVar.get s' = pendingVar.get s := by
  cases q with
  | setCallbacks | setTimeoutCallback | start | tick =>
    obtain rfl := Option.some.inj h
    rfl
  | accept error =>
    obtain ⟨-, heq⟩ := Option.ite_none_right_eq_some.mp h
    obtain rfl := Option.some.inj heq
    rfl
  | processPacket j p | ioError j =>
    obtain ⟨-, heq⟩ := Option.ite_none_left_eq_some.mp h
    obtain rfl := Option.some.inj heq
    rfl
  | handleIncomingPacket d => cases h
  | checkTimeouts error | expire =>
    obtain ⟨x, -, rfl⟩ := Option.map_eq_some_iff.mp h
    rfl

/-- Whatever the callbacks call, only pending requests are reported. -/
theorem informed (serverId : List UInt8) :
    Informed (lockProgram serverId) ReportsPending pendingVar .requestsMutex where
  proc := knows_proc serverId
  method _ := knows_method
  takeUp _ _ _ := takeUp_pendingVar

/-- **The sweep.** Whatever an application does in its threads and callbacks: a thread in
`checkTimeouts` that is next to report a request as expired has the lock, and the request is
pending. -/
theorem reported_pending (serverId : List UInt8) (es : List (LockEvent Proc Method)) :
    EveryState (lockProgram serverId).step { shared := {} } es fun w => ∀ i sequence rest,
      w.code? i = some (sweepCode (sequence :: rest)) →
        w.owner .requestsMutex = some i ∧ sequence ∈ w.shared.server.pendingRequests := by
  have hguarded : EveryState (lockProgram serverId).step { shared := {} } es fun w => ∀ i code,
      w.code? i = some code →
        Guarded (lockProgram serverId).eval pendingVar .requestsMutex (w.heldBy i) code :=
    fun pre post w heq hw i code hcode => (protected_run hw hcode).pendingRequests
  intro pre post w heq hw i sequence rest hcode
  have hreports := (informed serverId).keeps hguarded pre post w heq hw i _ _ hcode
  obtain ⟨table, hknown, hmem⟩ := hreports sequence rest rfl
  obtain ⟨howner, rfl⟩ := World.known_eq_some.mp hknown
  exact ⟨howner, hmem⟩

/-- After `flagTested` both calls return, and thread 2 sweeps: the callback for the first request
has returned. -/
def firstReported : List (LockEvent Proc Method) :=
  [.takeUp 0 (.setTimeoutCallback true), .advance 0] ++ flagTested ++
    List.replicate 3 (.advance 1) ++ List.replicate 3 (.advance 0) ++
    [.takeUp 2 (.tick 100), .advance 2, .takeUp 2 .expire, .advance 2,
      .takeUp 2 (.checkTimeouts false)] ++ List.replicate 5 (.advance 2) ++ [.ret 2, .advance 2]

/-- The next report after `firstReported`. -/
theorem reported_pending_firstReported :
    ∃ w, run (lockProgram []).step { shared := {} } firstReported = some w ∧
      w.code? 2 = some (sweepCode [2]) ∧ w.shared.server.timeouts = [(.global, 1)] ∧
      w.owner .requestsMutex = some 2 ∧ 2 ∈ w.shared.server.pendingRequests := by
  obtain ⟨w, hw, hcode, htimeouts⟩ : ∃ w,
      run (lockProgram []).step { shared := {} } firstReported = some w ∧
        w.code? 2 = some (sweepCode [2]) ∧ w.shared.server.timeouts = [(.global, 1)] :=
    ⟨_, rfl, rfl, rfl⟩
  exact ⟨w, hw, hcode, htimeouts, (reported_pending [] _).last hw 2 2 [] hcode⟩

end TurboNet.Asio
