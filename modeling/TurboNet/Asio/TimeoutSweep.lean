import TurboNet.Asio.FastResponse

/-!
# The timeout timer of the asio server

Reference: `claude/asio_server.cpp`, `TcpServer::sendRequest`, `TcpServer::checkTimeouts`.

`timeoutTimerRunning_` says that somebody looks after the pending requests: the timer is armed, or
its handler is due, or `checkTimeouts` is half way (`Timed`). `checkTimeouts` decides in one
critical section that nothing is pending and clears the flag in another one. A request that is
entered in between, and whose `sendRequest` still finds the flag set, does not arm the timer, and
never times out. `wakes_of_everyStep` says that this is all that goes wrong: if whenever the flag is
cleared the `sendRequest` of every pending request has still to look at it, the timer is armed in
every state with a pending request and nothing half way.
-/

namespace TurboNet.Asio

open Common

namespace TcpServer

variable {serverId : List UInt8} {t t' : TcpServer} {e : Event}

/-! ## What a step does to the timer -/

/-- The timer, the flag and the calls of `checkTimeouts` that are half way. -/
def timing (t : TcpServer) : Timer Unit × Bool × List Bool :=
  (t.timeoutTimer, t.timeoutTimerRunning, t.sweeps)

/-- What a step does to the timer. -/
inductive TimerChange (t : TcpServer) (e : Event) (t' : TcpServer) : Prop where
  | same (hne : ∀ k, e = .ensureTimer k → t.timeoutTimerRunning = true)
      (hsame : t'.timing = t.timing)
  | arm (k : ℕ) (he : e = .ensureTimer k) (hrunning : t.timeoutTimerRunning = false)
      (htiming : t'.timing = (t.timeoutTimer.arm (t.now + 100) (), true, t.sweeps))
  | expire (timer : Timer Unit) (he : e = .expire)
      (htimer : t.timeoutTimer.expire t.now = some timer)
      (htiming : t'.timing = (timer, t.timeoutTimerRunning, t.sweeps))
  | sweep (timer : Timer Unit) (hasPending : Bool) (he : e = .sweep)
      (htimer : t.timeoutTimer.takeDue = some ((), timer))
      (htiming : t'.timing = (timer, t.timeoutTimerRunning, t.sweeps ++ [hasPending]))
  | rearm (j : ℕ) (he : e = .finishSweep j) (hj : t.sweeps[j]? = some true)
      (htiming : t'.timing =
        (t.timeoutTimer.arm (t.now + 100) (), t.timeoutTimerRunning, t.sweeps.eraseIdx j))
  | clear (j : ℕ) (he : e = .finishSweep j) (hj : t.sweeps[j]? = some false)
      (htiming : t'.timing = (t.timeoutTimer, false, t.sweeps.eraseIdx j))
  | aborted (timer : Timer Unit) (he : e = .timerAborted)
      (htimer : t.timeoutTimer.takeAborted = some ((), timer))
      (htiming : t'.timing = (timer, false, t.sweeps))

/-- A packet callback does not touch the timer. -/
@[simp] theorem callBack_timing (t : TcpServer) (callback : PacketCallback) (d : Dispatch) :
    (t.callBack serverId callback d).timing = t.timing := by
  cases callback <;> rfl

/-- Taking a request out does not touch the timer. -/
theorem takePending_timing (t : TcpServer) (d : Dispatch) :
    (t.takePending d).timing = t.timing := by
  rcases t.takePending_cases d with ⟨r, -, -, h⟩ | ⟨-, h⟩
  · rw [h]
    rfl
  · rw [h]

/-- What a step does to the timer is one of the listed changes. -/
theorem timerChange_of_step (h : step serverId t e = some t') : TimerChange t e t' := by
  cases stepped_of_step h with
  | processPacket => exact .same (by simp) (by rw [processPacket, callBack_timing]; rfl)
  | handleIncomingPacket =>
    exact .same (by simp) (by rw [handleIncomingPacket, callBack_timing, takePending_timing]; rfl)
  | sendDrawn =>
    rw [sendDrawn]
    split
    · exact .same (by simp) rfl
    · exact .same (by simp) rfl
  | ensureTimer k =>
    rw [ensureTimer]
    cases hrunning : t.timeoutTimerRunning with
    | true =>
      refine .same (fun _ _ => hrunning) ?_
      rw [if_pos (by exact hrunning)]
      rfl
    | false =>
      refine .arm k rfl hrunning ?_
      rw [if_neg (by simp [setPhase, hrunning])]
      rfl
  | expire timer htimer => exact .expire timer rfl htimer rfl
  | sweep timer htimer => exact .sweep timer _ rfl htimer rfl
  | finishSweep j hasPending hj =>
    cases hasPending with
    | true => exact .rearm j rfl hj rfl
    | false => exact .clear j rfl hj rfl
  | timerAborted timer htimer => exact .aborted timer rfl htimer rfl
  -- the others leave the timer alone
  | _ => exact .same (by simp) rfl

/-! ## One token -/

/-- How many waits of a timer are outstanding, and how many handlers of it are due. -/
def outstanding (timer : Timer Unit) : ℕ := (timer.wait.toList).length + timer.due.length

/-- The timer is looked after by one wait, handler or `checkTimeouts` while the flag is set, and by
none while it is not. No wait is ever aborted. -/
structure Timed (t : TcpServer) : Prop where
  aborted : t.timeoutTimer.aborted = []
  tokens : outstanding t.timeoutTimer + t.sweeps.length =
    if t.timeoutTimerRunning then 1 else 0

/-- Nobody looks after the timer before the first request. -/
theorem timed_start : Timed {} := ⟨rfl, rfl⟩

/-- Arming a timer for which nobody waits leaves one wait. -/
theorem outstanding_arm {timer : Timer Unit} (deadline : ℕ) (h : outstanding timer = 0)
    (haborted : timer.aborted = []) :
    outstanding (timer.arm deadline ()) = 1 ∧ (timer.arm deadline ()).aborted = [] := by
  obtain ⟨wait, due, aborted⟩ := timer
  cases wait with
  | none =>
    obtain rfl : due = [] := by simpa [outstanding] using h
    exact ⟨rfl, by simpa [Timer.arm, Timer.cancel] using haborted⟩
  | some x => simp [outstanding] at h

/-- A server whose timer is looked after by one is timed. -/
theorem timed_of_timing {timer : Timer Unit} {running : Bool} {sweeps : List Bool}
    (h : t.timing = (timer, running, sweeps)) (haborted : timer.aborted = [])
    (htokens : outstanding timer + sweeps.length = if running then 1 else 0) : t.Timed := by
  simp only [timing, Prod.mk.injEq] at h
  obtain ⟨rfl, rfl, rfl⟩ := h
  exact ⟨haborted, htokens⟩

/-- Every step keeps the timer looked after by one while the flag is set. -/
theorem Timed.step (hI : t.Timed) (h : step serverId t e = some t') : t'.Timed := by
  obtain ⟨haborted, htokens⟩ := hI
  have hlength {j : ℕ} {b : Bool} (hj : t.sweeps[j]? = some b) :
      (t.sweeps.eraseIdx j).length + 1 = t.sweeps.length := by
    obtain ⟨hlt, -⟩ := List.getElem?_eq_some_iff.mp hj
    rw [List.length_eraseIdx_of_lt hlt]
    omega
  cases timerChange_of_step h with
  | same _ hsame => exact timed_of_timing hsame haborted htokens
  | arm k _ hrunning htiming =>
    rw [hrunning] at htokens
    simp only [Bool.false_eq_true, if_false] at htokens
    obtain ⟨hone, hnone⟩ := outstanding_arm (t.now + 100) (by omega) haborted
    refine timed_of_timing htiming hnone ?_
    rw [hone, if_pos rfl]
    omega
  | expire timer _ htimer htiming =>
    obtain ⟨d, a, hwait, rfl⟩ := Timer.expire_eq_some htimer
    rw [outstanding, hwait] at htokens
    simp only [Option.toList_some, List.length_singleton] at htokens
    refine timed_of_timing htiming haborted ?_
    rw [outstanding]
    simp only [Option.toList_none, List.length_nil, List.length_append, List.length_singleton]
    omega
  | sweep timer hasPending _ htimer htiming =>
    obtain ⟨hdue, hwait⟩ := Timer.takeDue_eq_some htimer
    have haborted' := Timer.takeDue_aborted htimer
    rw [outstanding, hdue, List.length_cons] at htokens
    refine timed_of_timing htiming (haborted'.trans haborted) ?_
    rw [outstanding, hwait, List.length_append, List.length_singleton]
    omega
  -- the sweep gives the timer back to a wait, or clears the flag
  | rearm j _ hj htiming =>
    have hlen := hlength hj
    have hzero : outstanding t.timeoutTimer = 0 := by split at htokens <;> omega
    obtain ⟨hone, hnone⟩ := outstanding_arm (t.now + 100) hzero haborted
    refine timed_of_timing htiming hnone ?_
    rw [hone]
    omega
  | clear j _ hj htiming =>
    have hlen := hlength hj
    refine timed_of_timing htiming haborted ?_
    rw [if_neg (by simp)]
    split at htokens <;> omega
  | aborted timer _ htimer _ =>
    rw [Timer.takeAborted, haborted] at htimer
    exact absurd htimer (by simp)

/-! ## No lost wake-up -/

/-- No `sendRequest` and no `checkTimeouts` is half way. -/
def Quiescent (t : TcpServer) : Prop :=
  (∀ c ∈ t.calls, c.phase = .done ∨ c.phase = .failed) ∧ t.sweeps = []

/-- If a request is pending and nothing is half way, the timer is armed, or its handler is due. -/
def Wakes (t : TcpServer) : Prop :=
  t.Quiescent → t.pendingRequests.isEmpty = false → 0 < outstanding t.timeoutTimer

/-- The call has entered its request and has still to look at the flag. -/
def looks (t : TcpServer) (k : ℕ) : Bool :=
  (t.calls[k]?).any fun c => decide (c.phase = .registered)

/-- The `sendRequest` of every pending request has still to look at the flag. -/
def Watched (t : TcpServer) : Prop := ∀ x ∈ t.pendingRequests.toList, t.looks x.2.call = true

instance (t : TcpServer) : Decidable t.Watched :=
  inferInstanceAs (Decidable (∀ x ∈ t.pendingRequests.toList, t.looks x.2.call = true))

/-- The call of `checkTimeouts` that an event lets go on. -/
def Event.finishes : Event → Option ℕ
  | .finishSweep j => some j
  | _ => none

/-- The flag is cleared only while the `sendRequest` of every pending request has still to look at
it. -/
def ClearsWatched (t : TcpServer) (e : Event) : Prop :=
  ∀ j ∈ e.finishes, t.sweeps[j]? = some false → t.Watched

instance (t : TcpServer) (e : Event) : Decidable (ClearsWatched t e) :=
  inferInstanceAs (Decidable (∀ j ∈ e.finishes, t.sweeps[j]? = some false → t.Watched))

/-- The `sendRequest` of every entry in the table has still to look at the flag. -/
theorem watched_iff : t.Watched ↔ ∀ (s : UInt32) (r : PendingRequest),
    t.pendingRequests[s]? = some r → t.looks r.call = true := by
  constructor
  · exact fun h s r hr => h (s, r) (Std.TreeMap.mem_toList_iff_getElem?_eq_some.mpr hr)
  · exact fun h x hx => h x.1 x.2 (Std.TreeMap.mem_toList_iff_getElem?_eq_some.mp hx)

/-- A call has still to look at the flag between registering and arming. -/
theorem looks_iff {k : ℕ} : t.looks k = true ↔ ∃ c : RequestCall, t.calls[k]? = some c ∧
    c.phase = .registered := by
  simp [looks, Option.any_eq_true]

/-- Only its own look at the flag ends the time in which a call has still to look. -/
theorem looks_step {k : ℕ} (hk : t.looks k = true) (h : step serverId t e = some t')
    (he : ∀ i, e ≠ .ensureTimer i) : t'.looks k = true := by
  obtain ⟨c, hc, hphase⟩ := looks_iff.mp hk
  rw [looks_iff]
  -- a call that goes on to another phase is not this one
  have hset (i : ℕ) (b b' : RequestCall) (hcalls : t'.calls = t.calls.set i b')
      (hb : t.calls[i]? = some b) (hne : b.phase ≠ .registered) :
      ∃ c' : RequestCall, t'.calls[k]? = some c' ∧ c'.phase = .registered := by
    refine ⟨c, ?_, hphase⟩
    have hik : i ≠ k := by
      rintro rfl
      obtain rfl := Option.some.inj (hc.symm.trans hb)
      exact hne hphase
    rw [hcalls, List.getElem?_set_ne hik, hc]
  cases change_step h with
  | same _ hcalls => exact ⟨c, hcalls ▸ hc, hphase⟩
  | call b _ _ hcalls => exact ⟨c, hcalls ▸ getElem?_append_of_some hc _, hphase⟩
  | send i b _ _ hb hphase' _ hcalls => exact hset i b _ hcalls hb (by simp [hphase'])
  | register i b _ _ hb hphase' hcalls => exact hset i b _ hcalls hb (by simp [hphase'])
  | finish i _ he' => exact absurd he' (he i)

/-- Every step but a look at the flag keeps the pending requests watched. -/
theorem Watched.step (hW : t.Watched) (h : step serverId t e = some t')
    (he : ∀ i, e ≠ .ensureTimer i) : t'.Watched := by
  rw [watched_iff] at hW ⊢
  intro s r hr
  rw [getElem?_pending_step h] at hr
  rcases lookupAfter_eq_some hr with hinserts | ⟨-, hr⟩
  · -- a request that has just been entered
    obtain ⟨rfl, -⟩ := inserts_eq_some hinserts
    obtain ⟨c, hc, rfl⟩ := Option.map_eq_some_iff.mp h
    obtain ⟨hc, -⟩ := callIn_eq_some hc
    refine looks_iff.mpr ⟨{ c with phase := .registered }, ?_, rfl⟩
    exact List.getElem?_set_self (List.getElem?_eq_some_iff.mp hc).1
  · exact looks_step (hW s r hr) h he

/-- Either somebody looks after the pending requests, or their `sendRequest` will. -/
structure Guarded (t : TcpServer) : Prop where
  timed : t.Timed
  watched : t.timeoutTimerRunning = false → t.Watched

/-- A step that clears the flag only over watched requests keeps them guarded. -/
theorem Guarded.step (hI : t.Guarded) (hC : ClearsWatched t e) (h : step serverId t e = some t') :
    t'.Guarded where
  timed := hI.timed.step h
  watched := by
    intro hrunning'
    -- if the flag has not been set or cleared, the requests were watched before
    have hkeep (hrunning : t'.timeoutTimerRunning = t.timeoutTimerRunning)
        (he : ∀ i, e = .ensureTimer i → t.timeoutTimerRunning = true) : t'.Watched := by
      refine (hI.watched (hrunning.symm.trans hrunning')).step h fun i hi => ?_
      exact absurd ((he i hi).symm.trans (hrunning.symm.trans hrunning')) (by simp)
    cases timerChange_of_step h with
    | same hne hsame => exact hkeep (congrArg (·.2.1) hsame) hne
    | arm k _ _ htiming =>
      exact absurd (hrunning'.symm.trans (congrArg (·.2.1) htiming)) (by simp)
    | expire _ he _ htiming => exact hkeep (congrArg (·.2.1) htiming) (by simp [he])
    | sweep _ _ he _ htiming => exact hkeep (congrArg (·.2.1) htiming) (by simp [he])
    | rearm j he _ htiming => exact hkeep (congrArg (·.2.1) htiming) (by simp [he])
    | clear j he hj _ =>
      subst he
      exact (hC j rfl hj).step h nofun
    | aborted timer _ htimer _ =>
      rw [Timer.takeAborted, hI.timed.aborted] at htimer
      exact absurd htimer (by simp)

/-- A guarded table wakes up: the flag is set with nothing half way, so the timer waits. -/
theorem Guarded.wakes (hI : t.Guarded) : t.Wakes := by
  rintro ⟨hcalls, hsweeps⟩ hpending
  have hrunning : t.timeoutTimerRunning = true := by
    by_contra hrunning
    have hW := watched_iff.mp (hI.watched (by simpa using hrunning))
    obtain ⟨s, hs⟩ : ∃ s, s ∈ t.pendingRequests := by
      by_contra hnone
      have hempty := Std.TreeMap.isEmpty_iff_forall_not_mem.mpr (not_exists.mp hnone)
      exact absurd (hempty.symm.trans hpending) (by simp)
    obtain ⟨r, hr⟩ : ∃ r, t.pendingRequests[s]? = some r := by
      rwa [← Option.isSome_iff_exists, Std.TreeMap.isSome_getElem?_eq_contains]
    obtain ⟨c, hc, hphase⟩ := looks_iff.mp (hW s r hr)
    rcases hcalls c (List.mem_of_getElem? hc) with hdone | hfailed
    · exact absurd (hphase.symm.trans hdone) (by simp)
    · exact absurd (hphase.symm.trans hfailed) (by simp)
  have htokens := hI.timed.tokens
  rw [hrunning, hsweeps, if_pos rfl] at htokens
  simp only [List.length_nil] at htokens
  omega

/-- **The timer of pending requests.** In a run in which `timeoutTimerRunning_` is cleared only
while the `sendRequest` of every pending request has still to look at it, the timer is armed, or its
handler is due, in every state with a pending request in which no `sendRequest` and no
`checkTimeouts` is half way. -/
theorem wakes_of_everyStep (serverId : List UInt8) (es : List Event)
    (hC : EveryStep (step serverId) {} es ClearsWatched) :
    EveryState (step serverId) {} es Wakes := by
  have hguarded : EveryState (step serverId) {} es Guarded := by
    refine hC.everyState ⟨timed_start, fun _ => List.forall_mem_nil _⟩ ?_
    exact fun t e t' hC hI ht => hI.step hC ht
  exact fun pre post t heq ht => (hguarded pre post t heq ht).wakes

/-- The steps of a call of `sendRequest` that comes after the sweep of an empty table. -/
def lateRequest (rest : List Event) : List Event :=
  [.start, .accept false, .sendRequest 1 [0x61] 50 true false, .sendDrawn 0, .register 0,
    .ensureTimer 0, .tick 100, .expire, .sweep, .sendRequest 1 [0x61] 50 true false, .sendDrawn 1,
    .register 1] ++ rest

/-- The flag is cleared before the second `sendRequest` looks at it, which arms the timer. -/
theorem wakes_of_everyStep_cleared :
    EveryState (step [0x53]) {} (lateRequest [.finishSweep 0, .ensureTimer 1]) Wakes :=
  wakes_of_everyStep [0x53] _ (by decide)

/-- The flag is cleared after the second `sendRequest` has looked at it: the request is pending,
nothing is half way, and nobody looks after it. -/
theorem wakeup_lost :
    ∃ u, run (step [0x53]) {} (lateRequest [.ensureTimer 1, .finishSweep 0]) = some u ∧
      u.pendingRequests.contains 2 = true ∧ outstanding u.timeoutTimer = 0 ∧ ¬ Wakes u := by
  refine ⟨_, rfl, rfl, rfl, fun hwakes => ?_⟩
  exact absurd (hwakes ⟨by decide, rfl⟩ rfl) (by decide)

end TcpServer

end TurboNet.Asio
