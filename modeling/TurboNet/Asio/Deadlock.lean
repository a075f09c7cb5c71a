import TurboNet.Common.LockOrder
import TurboNet.Asio.Locks

/-!
# Deadlocks of the asio server

Reference: `claude/asio_server.cpp`, `TcpServer::checkTimeouts`, `TcpServer::unregisterConnection`.

`checkTimeouts` calls the timeout callback under `requestsMutex_`, and `unregisterConnection` the
closed callback under `mutex_`. What an application calls in the one may therefore wait for what it
calls in the other, on another thread. Both orders of the two mutexes occur as soon as both
callbacks call a method; as long as only one of them does, the server takes the mutexes in one order
(`ordered`).

A `Policy` says which of the seven methods of `Method` the callbacks of an application call.
`deadlockFree_iff` is the exact condition on it under which no threads of the server ever wait for
each other.
-/

namespace TurboNet.Asio

open Common

/-- The methods of `Method`, by name. -/
inductive MethodName where
  | sendRequest
  | cancelRequest
  | sendTo
  | broadcast
  | connectionCount
  | getClientInfo
  | closeConnection
deriving DecidableEq, Repr

def Method.name : Method → MethodName
  | .sendRequest .. => .sendRequest
  | .cancelRequest _ => .cancelRequest
  | .sendTo .. => .sendTo
  | .broadcast .. => .broadcast
  | .connectionCount => .connectionCount
  | .getClientInfo _ => .getClientInfo
  | .closeConnection _ => .closeConnection

/-- Which methods the callbacks of an application call, with whatever arguments. -/
abbrev Policy := AppCallback → MethodName → Prop

/-- The closed callback calls `cancelRequest` only, the timeout callback neither that nor
`sendRequest`, and at most one of the two calls anything. -/
structure Policy.Safe (P : Policy) : Prop where
  closed : ∀ a, P .closed a → a = .cancelRequest
  timeout : ∀ a, P .timeout a → a ≠ .cancelRequest ∧ a ≠ .sendRequest
  apart : (∀ a, ¬ P .timeout a) ∨ ∀ a, ¬ P .closed a

/-- The callbacks keep to the policy. -/
def Policy.Kept (P : Policy) : World Mutex Locked Lookup AppCallback Proc Method →
    LockEvent Proc Method → Prop :=
  CallsOnly fun c a => P c a.name

instance {P : Policy} [∀ c a, Decidable (P c a)]
    (w : World Mutex Locked Lookup AppCallback Proc Method) (e : LockEvent Proc Method) :
    Decidable (P.Kept w e) :=
  inferInstanceAs (Decidable (CallsOnly (fun c a => P c a.name) w e))

/-! ## The code climbs -/

section Climbs

variable {rank : Mutex → ℕ} {base held : Set Mutex} {rest : ServerCode}

/-- Code that has come to its end climbs. -/
theorem climbs_done : Climbs rank atCallback held held (.done : ServerCode) := rfl

/-- A lock that is above all that are held is not one of them. -/
theorem notMem_of_lt {m : Mutex} (hm : ∀ n ∈ held, rank n < rank m) : m ∉ held :=
  fun hmem => absurd (hm m hmem) (Nat.lt_irrefl _)

/-- Every lock is above none. -/
theorem lt_of_mem_empty (m : Mutex) : ∀ n ∈ (∅ : Set Mutex), rank n < rank m :=
  fun _ hn => absurd hn (Set.notMem_empty _)

/-- `sendPacketTo` takes `mutex_` only. -/
theorem climbs_sendPacketTo (hm : ∀ n ∈ held, rank n < rank .mutex) (id : Int32) (p : Packet) :
    Climbs rank atCallback held held (sendPacketToCode id p) :=
  ⟨hm, fun _ _ => climbs_done.unlock_insert (notMem_of_lt hm)⟩

/-- `getClientInfo` and `closeConnection` take `mutex_` only. -/
theorem climbs_findConnection (hm : ∀ n ∈ held, rank n < rank .mutex) (id : Int32) :
    Climbs rank atCallback held held (findConnectionCode id) :=
  ⟨hm, fun _ => climbs_done.unlock_insert (notMem_of_lt hm)⟩

/-- The rest of `sendRequest` takes `requestsMutex_` only. -/
theorem climbs_register (hm : ∀ n ∈ held, rank n < rank .requestsMutex) (k : ℕ)
    (c : RequestCall) : Climbs rank atCallback held held (registerCode k c) := by
  refine .section _ hm fun s => ?_
  dsimp only
  split
  · exact fun _ => rfl
  · exact .section _ hm climbs_done

/-- `sendRequest` takes both mutexes, one after the other. -/
theorem climbs_sendRequest (hmutex : ∀ n ∈ held, rank n < rank .mutex)
    (hrequests : ∀ n ∈ held, rank n < rank .requestsMutex) (id : Int32) (data : List UInt8)
    (timeout : ℕ) (responseCallback timeoutCallback : Bool) :
    Climbs rank atCallback held held
      (sendRequestCode id data timeout responseCallback timeoutCallback) := by
  refine fun s => ⟨hmutex, fun found _ => Climbs.unlock_insert (notMem_of_lt hmutex) ?_⟩
  cases found with
  | false => exact climbs_done
  | true => exact climbs_register hrequests _ _

/-- `cancelRequest` takes `requestsMutex_` only. -/
theorem climbs_cancelRequest (hm : ∀ n ∈ held, rank n < rank .requestsMutex)
    (sequence : UInt32) : Climbs rank atCallback held held (methodCode (.cancelRequest sequence)) :=
  .section _ hm climbs_done

/-- A method other than `sendRequest` and `cancelRequest` takes `mutex_` only. -/
theorem climbs_method_of_mutex (hm : ∀ n ∈ held, rank n < rank .mutex) {a : Method}
    (hcancels : a.name ≠ .cancelRequest) (hrequests : a.name ≠ .sendRequest) :
    Climbs rank atCallback held held (methodCode a) := by
  cases a with
  | sendRequest id data timeout responseCallback timeoutCallback => exact absurd rfl hrequests
  | cancelRequest sequence => exact absurd rfl hcancels
  | sendTo id packetId status data => exact fun _ => climbs_sendPacketTo hm _ _
  | broadcast packetId status data => exact fun _ => .section _ hm climbs_done
  | connectionCount => exact .section _ hm climbs_done
  | getClientInfo id => exact climbs_findConnection hm id
  | closeConnection id => exact climbs_findConnection hm id

/-- Without locks, every method climbs. -/
theorem climbs_method (a : Method) : Climbs rank atCallback ∅ ∅ (methodCode a) := by
  by_cases hcancels : a.name = .cancelRequest
  · cases a with
    | cancelRequest sequence => exact climbs_cancelRequest (lt_of_mem_empty _) sequence
    | _ => cases hcancels
  · by_cases hrequests : a.name = .sendRequest
    · cases a with
      | sendRequest id data timeout responseCallback timeoutCallback =>
        exact climbs_sendRequest (lt_of_mem_empty _) (lt_of_mem_empty _) _ _ _ _ _
      | _ => cases hrequests
    · exact climbs_method_of_mutex (lt_of_mem_empty _) hcancels hrequests

/-- `packetCallback_` is called without locks. -/
theorem climbs_packetCallback (callback : PacketCallback) (d : Dispatch)
    (h : Climbs rank atCallback base ∅ rest) :
    Climbs rank atCallback base ∅ (packetCallbackCode callback d rest) := by
  cases callback with
  | unset => exact h
  | user => exact fun _ => ⟨rfl, h⟩
  | redirect => exact ⟨rfl, h⟩

/-- `handleIncomingPacket` gives `requestsMutex_` back before it calls back. -/
theorem climbs_handleIncomingPacket (d : Dispatch) :
    Climbs rank atCallback ∅ ∅ (handleIncomingPacketCode d) := by
  have hrest : Climbs rank atCallback ∅ ∅
      (.act id fun s => packetCallbackCode s.server.packetCallback d .done) :=
    fun s => climbs_packetCallback _ d climbs_done
  rw [handleIncomingPacketCode]
  split
  · refine ⟨lt_of_mem_empty _, fun s => Climbs.unlock_insert (Set.notMem_empty _) ?_⟩
    split
    · exact ⟨rfl, hrest⟩
    · exact hrest
  · exact hrest

/-- `processPacket` takes no lock of its own. -/
theorem climbs_processPacket (serverId : List UInt8) (j : ℕ) (p : Packet) :
    Climbs rank atCallback ∅ ∅ (processPacketCode serverId j p) := by
  intro s
  dsimp only
  cases s.server.connections[j]? with
  | none => exact climbs_done
  | some c =>
    refine climbs_packetCallback _ _ ?_
    exact fun _ _ => rfl

/-- The handler of an error calls back under `mutex_`. -/
theorem climbs_ioError (j : ℕ) : Climbs rank atCallback ∅ ∅ (ioErrorCode j) := by
  intro s
  dsimp only
  cases s.server.connections[j]? with
  | none => exact climbs_done
  | some c =>
    have hend : Climbs rank atCallback ∅ (insert .mutex ∅)
        (.unlock .mutex (.act (Locked.release j) fun _ => .done) : ServerCode) :=
      Climbs.unlock_insert (Set.notMem_empty _) fun _ => rfl
    refine ⟨lt_of_mem_empty _, fun s => ?_⟩
    dsimp only
    split
    · exact ⟨insert_empty_eq Mutex.mutex, hend⟩
    · exact hend

/-- The end of `checkTimeouts` takes `requestsMutex_` at most. -/
theorem climbs_finishSweep (hasPending : Bool) :
    Climbs rank atCallback ∅ ∅ (finishSweepCode hasPending) := by
  cases hasPending with
  | true => exact fun _ => rfl
  | false => exact .section _ (lt_of_mem_empty _) climbs_done

/-- The loop of `checkTimeouts` keeps `requestsMutex_`. -/
theorem climbs_sweep (sequences : List UInt32) :
    Climbs rank atCallback ∅ {.requestsMutex} (sweepCode sequences) := by
  induction sequences with
  | nil =>
    intro s
    rw [← insert_empty_eq Mutex.requestsMutex]
    exact (climbs_finishSweep _).unlock_insert (Set.notMem_empty _)
  | cons sequence rest ih =>
    intro s
    dsimp only
    split
    · exact ⟨rfl, fun _ => ih⟩
    · exact fun _ => ih

/-- `checkTimeouts` calls back under `requestsMutex_`. -/
theorem climbs_checkTimeouts (error : Bool) :
    Climbs rank atCallback ∅ ∅ (checkTimeoutsCode error) := by
  cases error with
  | true => exact .section _ (lt_of_mem_empty _) climbs_done
  | false =>
    refine fun now => ⟨lt_of_mem_empty _, fun s => ?_⟩
    rw [insert_empty_eq]
    exact climbs_sweep _

/-- The handlers climb in every order of the mutexes: outside of callbacks the server holds at most
one of them. -/
theorem climbs_proc (serverId : List UInt8) (q : Proc) :
    Climbs rank atCallback ∅ ∅ (procCode serverId q) := by
  cases q with
  | accept error =>
    cases error with
    | true => exact fun _ => rfl
    | false => exact .section _ (lt_of_mem_empty _) climbs_done
  | processPacket j p => exact climbs_processPacket serverId j p
  | ioError j => exact climbs_ioError j
  | handleIncomingPacket d => exact climbs_handleIncomingPacket d
  | checkTimeouts error => exact climbs_checkTimeouts error
  | _ => exact climbs_done

end Climbs

/-! ## An order for a safe policy -/

/-- `requestsMutex_` before `mutex_`, which is what the timeout callback needs, or the other way
round, for the closed callback. -/
def rankOf (timeoutCalls : Bool) : Mutex → ℕ
  | .mutex => if timeoutCalls then 1 else 0
  | .requestsMutex => if timeoutCalls then 0 else 1

/-- There are two ranks. -/
theorem rankOf_le (timeoutCalls : Bool) (m : Mutex) : rankOf timeoutCalls m ≤ 1 := by
  cases timeoutCalls <;> cases m <;> decide

/-- Under a safe policy the mutexes are taken in one order or the other. -/
theorem ordered {P : Policy} (hP : P.Safe) (serverId : List UInt8) :
    ∃ timeoutCalls, LockOrdered (lockProgram serverId) (rankOf timeoutCalls) atCallback
      fun c a => P c a.name := by
  -- the callback that calls nothing decides which of the two locks comes first
  rcases hP.apart with hnone | hnone
  · refine ⟨false, climbs_proc serverId, climbs_method, fun c a hcall => ?_⟩
    cases c with
    | timeout => exact absurd hcall (hnone a.name)
    | closed =>
      have hcancels := hP.closed a.name hcall
      cases a with
      | cancelRequest sequence =>
        refine climbs_cancelRequest (fun n hn => ?_) sequence
        obtain rfl := Set.mem_singleton_iff.mp hn
        decide
      | _ => cases hcancels
    | response => exact climbs_method a
    | packet => exact climbs_method a
  · refine ⟨true, climbs_proc serverId, climbs_method, fun c a hcall => ?_⟩
    cases c with
    | timeout =>
      obtain ⟨hcancels, hrequests⟩ := hP.timeout a.name hcall
      refine climbs_method_of_mutex (fun n hn => ?_) hcancels hrequests
      obtain rfl := Set.mem_singleton_iff.mp hn
      decide
    | closed => exact absurd hcall (hnone a.name)
    | response => exact climbs_method a
    | packet => exact climbs_method a

/-! ## Deadlocks under an unsafe policy -/

/-- A call of the method. -/
def MethodName.call : MethodName → Method
  | .sendRequest => .sendRequest 1 [] 0 false false
  | .cancelRequest => .cancelRequest 1
  | .sendTo => .sendTo 1 idRequest 0 []
  | .broadcast => .broadcast idRequest 0 []
  | .connectionCount => .connectionCount
  | .getClientInfo => .getClientInfo 1
  | .closeConnection => .closeConnection 1

/-- The instructions of the method before its first lock, taken by thread `i`. -/
def MethodName.approach (i : ℕ) : MethodName → List (LockEvent Proc Method)
  | .sendRequest | .sendTo | .broadcast => [.advance i]
  | _ => []

/-- In a callback, thread `i` calls the method, and comes to its first lock. -/
def MethodName.invoke (i : ℕ) (a : MethodName) : List (LockEvent Proc Method) :=
  .invoke i a.call :: a.approach i

/-- A connection is accepted and a request is sent to it, which expires: thread 0 is in the timeout
callback. -/
def requestExpired : List (LockEvent Proc Method) :=
  [.takeUp 0 (.setCallbacks true true), .advance 0, .takeUp 0 (.setTimeoutCallback true),
    .advance 0, .takeUp 0 .start, .advance 0, .takeUp 0 (.accept false)] ++
  List.replicate 4 (.advance 0) ++ [.invoke 0 (.sendRequest 1 [] 0 false false)] ++
  List.replicate 13 (.advance 0) ++ [.takeUp 0 (.tick 100), .advance 0, .takeUp 0 .expire,
    .advance 0, .takeUp 0 (.checkTimeouts false)] ++ List.replicate 5 (.advance 0)

/-- In addition the connection fails: thread 1 is in the closed callback. -/
def expiredAndLost : List (LockEvent Proc Method) :=
  requestExpired ++ .takeUp 1 (.ioError 0) :: List.replicate 4 (.advance 1)

/-- A deadlock that a run leads to, in which only these two callbacks call these two methods. -/
def DeadlockBy (serverId : List UInt8) (a b : AppCallback × MethodName) : Prop :=
  ∃ es w, EveryStep (lockProgram serverId).step { shared := {} } es
      (Policy.Kept fun c x => (c, x) = a ∨ (c, x) = b) ∧
    run (lockProgram serverId).step { shared := {} } es = some w ∧ w.Deadlock

/-- Any method but `cancelRequest`, called in the closed callback, waits for `mutex_`. -/
theorem deadlock_of_closed (serverId : List UInt8) {a : MethodName} (ha : a ≠ .cancelRequest) :
    DeadlockBy serverId (.closed, a) (.closed, a) := by
  refine ⟨connectionLost ++ a.invoke 0, ?_⟩
  cases a with
  | cancelRequest => exact absurd rfl ha
  | _ => exact ⟨_, of_decide_eq_true rfl, rfl, World.SelfLock.deadlock ⟨0, rfl⟩⟩

/-- `cancelRequest` and `sendRequest`, called in the timeout callback, wait for `requestsMutex_`;
the latter when it has found its connection. -/
theorem deadlock_of_timeout (serverId : List UInt8) {a : MethodName}
    (ha : a = .cancelRequest ∨ a = .sendRequest) :
    DeadlockBy serverId (.timeout, a) (.timeout, a) := by
  obtain rfl | rfl := ha
  · refine ⟨requestExpired ++ MethodName.cancelRequest.invoke 0, ?_⟩
    exact ⟨_, of_decide_eq_true rfl, rfl, World.SelfLock.deadlock ⟨0, rfl⟩⟩
  · refine ⟨requestExpired ++ (MethodName.sendRequest.invoke 0 ++
      List.replicate 4 (.advance 0)), ?_⟩
    exact ⟨_, of_decide_eq_true rfl, rfl, World.SelfLock.deadlock ⟨0, rfl⟩⟩

/-- Any other method, called in the timeout callback, waits for `mutex_`, which `cancelRequest`,
called in the closed callback, holds while it waits for `requestsMutex_`. -/
theorem deadlock_of_both (serverId : List UInt8) {a : MethodName}
    (ha : a ≠ .cancelRequest ∧ a ≠ .sendRequest) :
    DeadlockBy serverId (.timeout, a) (.closed, .cancelRequest) := by
  refine ⟨expiredAndLost ++ a.invoke 0 ++ MethodName.cancelRequest.invoke 1, ?_⟩
  have hcycle {w : World Mutex Locked Lookup AppCallback Proc Method}
      (h0 : w.next? 0 = some .mutex) (h1 : w.next? 1 = some .requestsMutex)
      (hmutex : w.owner .mutex = some 1) (hrequests : w.owner .requestsMutex = some 0) :
      w.Deadlock := by
    refine ⟨{0, 1}, Set.insert_nonempty _ _, ?_⟩
    rintro i (rfl | rfl)
    · exact ⟨_, h0, 1, by simp, hmutex⟩
    · exact ⟨_, h1, 0, by simp, hrequests⟩
  cases a with
  | cancelRequest => exact absurd rfl ha.1
  | sendRequest => exact absurd rfl ha.2
  | _ => exact ⟨_, of_decide_eq_true rfl, rfl, hcycle rfl rfl rfl rfl⟩

/-- **Deadlocks.** Whatever an application does with the methods of `Method` in threads of its own
and in its packet and response callbacks, no threads of the server ever wait for each other, exactly
when the closed callback calls `cancelRequest` only, the timeout callback neither `cancelRequest`
nor `sendRequest`, and at most one of the two callbacks calls anything. -/
theorem deadlockFree_iff (serverId : List UInt8) (P : Policy) :
    (∀ es, EveryStep (lockProgram serverId).step { shared := {} } es P.Kept →
      EveryState (lockProgram serverId).step { shared := {} } es fun w => ¬ w.Deadlock) ↔
    P.Safe := by
  constructor
  · intro h
    -- what a policy allows cannot lead to a deadlock
    have hfree {a b : AppCallback × MethodName} (ha : P a.1 a.2) (hb : P b.1 b.2) :
        ¬ DeadlockBy serverId a b := by
      rintro ⟨es, w, hes, hw, hdeadlock⟩
      refine (h es fun pre e post t heq ht => (hes pre e post t heq ht).mono ?_).last hw hdeadlock
      rintro c x (hx | hx)
      · subst hx
        exact ha
      · subst hx
        exact hb
    constructor
    · intro a ha
      by_contra hne
      exact hfree (a := (.closed, a)) ha ha (deadlock_of_closed serverId hne)
    · intro a ha
      rw [← not_or]
      exact fun hor => hfree (a := (.timeout, a)) ha ha (deadlock_of_timeout serverId hor)
    · by_contra hboth
      obtain ⟨⟨a, ha⟩, b, hb⟩ : (∃ a, P .timeout a) ∧ ∃ b, P .closed b := by
        simpa only [not_or, not_forall, not_not] using hboth
      have hne : a ≠ .cancelRequest ∧ a ≠ .sendRequest := by
        rw [← not_or]
        exact fun hor => hfree (a := (.timeout, a)) ha ha (deadlock_of_timeout serverId hor)
      obtain rfl : b = .cancelRequest := by
        by_contra hb'
        exact hfree (a := (.closed, b)) hb hb (deadlock_of_closed serverId hb')
      exact hfree (a := (.timeout, a)) (b := (.closed, .cancelRequest)) ha hb
        (deadlock_of_both serverId hne)
  · rintro hP es hes
    obtain ⟨timeoutCalls, hordered⟩ := ordered hP serverId
    exact hordered.not_deadlock (rankOf_le timeoutCalls) hes

end TurboNet.Asio
