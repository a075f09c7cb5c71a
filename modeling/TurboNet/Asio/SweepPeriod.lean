import TurboNet.Asio.Requests

/-!
# The sweep period of the asio client

Reference: `claude/asio_client.cpp`, `TcpClient::startTimeoutTimer`, `TcpClient::checkTimeouts`,
`TcpClient::sendRequest`.

`checkTimeouts` runs 100 ms after the timer was armed. It arms the timer again if something is left,
and so does the handler that every `sendRequest` posts, which gives up the wait that was there. A
request that has expired and is still pending when that happens has to wait for 100 ms more.

`promptStep` is the client in an environment without delays: time passes only when no posted handler
is left, no function is half way and no handler of a timer is due, and never beyond the deadline of
the timer. `stop` ends the thread that runs the handlers and is not a step of it.
-/

namespace TurboNet.Asio

open Common

namespace TcpClient

variable {clientId : List UInt8} {t t' : TcpClient} {e : Event}

/-- Handlers that have been posted run at once, those of the timer at its deadline, and functions
take no time. -/
def Prompt (t : TcpClient) : Event → Prop
  | .tick d => d = 0 ∨ t.timerPosts = 0 ∧ (∀ c ∈ t.calls, c.phase ≠ .registered) ∧
      t.handler = none ∧ t.timer.due = [] ∧ ∀ wait ∈ t.timer.wait, t.now + d ≤ wait.1
  | .stop => False
  | _ => True

instance (t : TcpClient) : (e : Event) → Decidable (Prompt t e)
  | .tick _ => inferInstanceAs (Decidable (_ ∨ _))
  | .stop => isFalse id
  | .start | .setAutoReconnect _ | .runConnect | .connectDone _ | .drawBind | .sendBind
  | .handleDisconnect | .clearRequests | .processPacket _ | .sendRequest _ _ _ | .draw _
  | .sendDrawn _ | .register _ | .startTimeoutTimer _ | .sendPacket _ | .cancelRequest _
  | .runTimerPost | .expire | .sweep | .finishSweep | .reconnectExpire | .reconnect =>
    isTrue trivial

def promptStep (clientId : List UInt8) (t : TcpClient) (e : Event) : Option TcpClient :=
  if Prompt t e then step clientId t e else none

/-- No request is pending for more than 100 ms after it has expired. -/
def OnTime (t : TcpClient) : Prop :=
  ∀ (s : UInt32) (r : PendingRequest), t.pendingRequests[s]? = some r →
    t.now ≤ r.expiryTime + 100

/-- The event is not the handler of `startTimeoutTimer` at a time when a request that is pending has
expired, unless the handler of the timer is due anyway. -/
def RearmsInTime (t : TcpClient) : Event → Prop
  | .runTimerPost => t.timer.due ≠ [] ∨
      ∀ (s : UInt32) (r : PendingRequest), t.pendingRequests[s]? = some r → t.now ≤ r.expiryTime
  | _ => True

/-- All pending requests, as entries of the list or of the map. -/
theorem forall_pending_iff {p : PendingRequest → Prop} :
    (∀ x ∈ t.pendingRequests.toList, p x.2) ↔
      ∀ (s : UInt32) (r : PendingRequest), t.pendingRequests[s]? = some r → p r := by
  simp only [Prod.forall, Std.TreeMap.mem_toList_iff_getElem?_eq_some]

instance (t : TcpClient) : (e : Event) → Decidable (RearmsInTime t e)
  | .runTimerPost =>
    decidable_of_iff
      (t.timer.due ≠ [] ∨ ∀ x ∈ t.pendingRequests.toList, t.now ≤ x.2.expiryTime)
      (or_congr_right (forall_pending_iff (p := fun r => t.now ≤ r.expiryTime)))
  | .start | .stop | .setAutoReconnect _ | .runConnect | .connectDone _ | .drawBind | .sendBind
  | .handleDisconnect | .clearRequests | .processPacket _ | .sendRequest _ _ _ | .draw _
  | .sendDrawn _ | .register _ | .startTimeoutTimer _ | .sendPacket _ | .cancelRequest _ | .tick _
  | .expire | .sweep | .finishSweep | .reconnectExpire | .reconnect => isTrue trivial

/-! ## What a step does to the timer -/

/-- The timer is going to be armed by a handler that has been posted or is about to be. -/
def Arming (t : TcpClient) : Prop := 0 < t.timerPosts ∨ ∃ c ∈ t.calls, c.phase = .registered

/-- `checkTimeouts` is half way, with its `hasPending`. -/
def sweeping (t : TcpClient) : Option Bool :=
  match t.handler with
  | some (.checkTimeouts hasPending) => some hasPending
  | _ => none

inductive SweepChange (t : TcpClient) : Event → TcpClient → Prop where
  | tick (d : ℕ) : SweepChange t (.tick d) { t with now := t.now + d }
  | stop : SweepChange t .stop t.stop
  | runTimerPost (hhandler : t.handler = none) (hposts : t.timerPosts ≠ 0) :
      SweepChange t .runTimerPost t.runTimerPost
  | expire (timer : Timer Unit) (htimer : t.timer.expire t.now = some timer) :
      SweepChange t .expire { t with timer := timer }
  | sweep (timer : Timer Unit) (htimer : t.timer.takeDue = some ((), timer)) :
      SweepChange t .sweep { t with timer := timer }.sweep
  | finishSweep (hasPending : Bool) (hhandler : t.handler = some (.checkTimeouts hasPending)) :
      SweepChange t .finishSweep (t.finishSweep hasPending)
  /-- The timer is left alone; what is new in `pending_requests_` has not expired and will arm
  it. -/
  | other {e : Event} {t' : TcpClient} (hnow : t'.now = t.now) (htimer : t'.timer = t.timer)
      (hsweeping : t'.sweeping = t.sweeping) (harming : t.Arming → t'.Arming)
      (hpending : ∀ (s : UInt32) (r : PendingRequest), t'.pendingRequests[s]? = some r →
        t.pendingRequests[s]? = some r ∨ t.now ≤ r.expiryTime ∧ t'.Arming)
      (hevent : ∀ d, e ≠ .tick d) (hevent' : e ≠ .runTimerPost) : SweepChange t e t'

/-- A call that was not registered goes on; those that are stay so. -/
theorem Arming.set {k : ℕ} {c c' : RequestCall} (h : t.Arming) (hc : t.calls[k]? = some c)
    (hphase : c.phase ≠ .registered) (hposts : t'.timerPosts = t.timerPosts)
    (hcalls : t'.calls = t.calls.set k c') : t'.Arming := by
  rcases h with h | ⟨b, hb, hregistered⟩
  · exact .inl (hposts ▸ h)
  · obtain ⟨i, hi⟩ := List.mem_iff_getElem?.mp hb
    have hne : k ≠ i := by
      rintro rfl
      obtain rfl := Option.some.inj (hc.symm.trans hi)
      exact hphase hregistered
    refine .inr ⟨b, List.mem_of_getElem? (i := i) ?_, hregistered⟩
    rw [hcalls, List.getElem?_set_ne hne, hi]

/-- It matters only what has been posted, and which calls there are. -/
theorem Arming.of_eq (h : t.Arming) (hposts : t'.timerPosts = t.timerPosts)
    (hcalls : t.calls <+: t'.calls) : t'.Arming := by
  rcases h with h | ⟨b, hb, hregistered⟩
  · exact .inl (hposts ▸ h)
  · exact .inr ⟨b, hcalls.subset hb, hregistered⟩

/-- What is pending after a step that inserts nothing was pending before. -/
theorem pending_of_inserts_none (h : step clientId t e = some t') (hinserts : t.inserts e = none)
    {s : UInt32} {r : PendingRequest} (hr : t'.pendingRequests[s]? = some r) :
    t.pendingRequests[s]? = some r := by
  rw [(transition_of_step h).pending] at hr
  rcases lookupAfter_eq_some hr with hinserted | ⟨-, hr⟩
  · simp [hinserts] at hinserted
  · exact hr

/-- Only `checkTimeouts` sweeps. -/
theorem sweeping_of_handler {handler : Option Handler} (h : t.handler = handler)
    (hne : ∀ b, handler ≠ some (.checkTimeouts b)) : t.sweeping = none := by
  rw [sweeping, h]
  split
  · rename_i b
    exact absurd rfl (hne b)
  · rfl

/-- What the clock, the timer, the sweep and the posted handlers are. -/
def timing (t : TcpClient) : ℕ × Timer Unit × Option Bool × ℕ :=
  (t.now, t.timer, t.sweeping, t.timerPosts)

/-- `scheduleReconnect` has nothing to do with the sweep. -/
theorem timing_scheduleReconnect (t : TcpClient) :
    t.scheduleReconnect.timing = t.timing ∧ t.scheduleReconnect.calls = t.calls := by
  rw [scheduleReconnect]
  split <;> exact ⟨rfl, rfl⟩

/-- `sendPacket` has nothing to do with the sweep. -/
theorem timing_sendPacket (t : TcpClient) (p : Packet) :
    (t.sendPacket p).timing = t.timing ∧ (t.sendPacket p).calls = t.calls := by
  rw [sendPacket]
  split <;> exact ⟨rfl, rfl⟩

/-- A handler of another kind begins or ends. -/
theorem timing_of_handler (handler : Option Handler) (ht : t.sweeping = none)
    (hne : ∀ b, handler ≠ some (.checkTimeouts b)) :
    ({ t with handler := handler } : TcpClient).timing = t.timing := by
  have hsweeping : ({ t with handler := handler } : TcpClient).sweeping = t.sweeping := by
    rw [sweeping_of_handler rfl hne, ht]
  rw [timing, hsweeping]
  rfl

/-- `handleDisconnect`, up to the lock, has nothing to do with the sweep. -/
theorem timing_handleDisconnect (ht : t.sweeping = none) :
    t.handleDisconnect.timing = t.timing ∧ t.handleDisconnect.calls = t.calls := by
  rw [handleDisconnect]
  split
  · exact ⟨timing_of_handler (some .disconnecting) ht (by simp), rfl⟩
  · exact ⟨rfl, rfl⟩

/-- To connect anew has nothing to do with the sweep. -/
theorem timing_reconnect (t : TcpClient) :
    t.reconnect.timing = t.timing ∧ t.reconnect.calls = t.calls := by
  rw [reconnect]
  split <;> exact ⟨rfl, rfl⟩

/-- A step that leaves the timer alone and inserts nothing. -/
theorem sweepChange_of_timing (h : step clientId t e = some t') (htiming : t'.timing = t.timing)
    (harming : t.Arming → t'.Arming) (hinserts : t.inserts e = none) (hevent : ∀ d, e ≠ .tick d)
    (hevent' : e ≠ .runTimerPost) : SweepChange t e t' := by
  simp only [timing, Prod.mk.injEq] at htiming
  exact .other htiming.1 htiming.2.1 htiming.2.2.1 harming
    (fun s r hr => .inl (pending_of_inserts_none h hinserts hr)) hevent hevent'

/-- The posted handlers are part of the timing. -/
theorem timerPosts_of_timing (h : t'.timing = t.timing) : t'.timerPosts = t.timerPosts := by
  simp only [timing, Prod.mk.injEq] at h
  exact h.2.2.2

/-- A call that hands its packet over has nothing to do with the sweep. -/
theorem sweepChange_sendDrawn {k : ℕ} {c : RequestCall} (hc : t.calls[k]? = some c)
    (hphase : c.phase = .drawn) (h : step clientId t (.sendDrawn k) = some (t.sendDrawn k c)) :
    SweepChange t (.sendDrawn k) (t.sendDrawn k c) := by
  obtain ⟨htiming, hcalls⟩ :=
    timing_sendPacket t (createPacket ⟨idRequest, 0, c.sequence, c.data⟩)
  have htiming : (t.sendDrawn k c).timing = t.timing := htiming
  have hset : (t.sendDrawn k c).calls =
      t.calls.set k { c with phase := if t.connected then .sent else .failed } := by
    rw [sendDrawn, setCall, hcalls]
  refine sweepChange_of_timing h htiming (fun harming => ?_) rfl (by simp) (by simp)
  exact harming.set hc (by simp [hphase]) (timerPosts_of_timing htiming) hset

/-- The new entry comes with a call that has still to post its handler. -/
theorem sweepChange_register {k : ℕ} {c : RequestCall} (hcall : t.callIn k .sent = some c)
    (h : step clientId t (.register k) = some (t.register k c)) :
    SweepChange t (.register k) (t.register k c) := by
  obtain ⟨hc, hphase⟩ := callIn_eq_some hcall
  have harming : (t.register k c).Arming := by
    refine .inr ⟨{ c with phase := .registered }, List.mem_of_getElem? (i := k) ?_, rfl⟩
    exact List.getElem?_set_self (List.getElem?_eq_some_iff.mp hc).1
  refine .other rfl rfl rfl (fun _ => harming) (fun s r hr => ?_) (by simp) (by simp)
  rw [(transition_of_step h).pending] at hr
  rcases lookupAfter_eq_some hr with hinserted | ⟨-, hr⟩
  · rw [inserts, hcall] at hinserted
    obtain ⟨-, rfl⟩ := Prod.mk.inj (Option.some.inj hinserted)
    exact .inr ⟨Nat.le_add_right _ _, harming⟩
  · exact .inl hr

/-- Every step is one of the changes. -/
theorem sweepChange_of_step (h : step clientId t e = some t') : SweepChange t e t' := by
  -- most steps leave the timer, the handler of the sweep and the calls alone
  have hsame (htiming : t'.timing = t.timing) (hcalls : t'.calls = t.calls)
      (hinserts : t.inserts e = none) (hevent : ∀ d, e ≠ .tick d) (hevent' : e ≠ .runTimerPost) :
      SweepChange t e t' :=
    sweepChange_of_timing h htiming (fun harming => harming.of_eq (timerPosts_of_timing htiming)
      (hcalls ▸ List.prefix_rfl)) hinserts hevent hevent'
  cases stepped_of_step h with
  | tick d => exact .tick d
  | stop => exact .stop
  | runTimerPost hhandler hposts => exact .runTimerPost hhandler hposts
  | expire timer htimer => exact .expire timer htimer
  | sweep timer _ htimer => exact .sweep timer htimer
  | finishSweep hasPending hhandler => exact .finishSweep hasPending hhandler
  | start => exact hsame rfl rfl rfl (by simp) (by simp)
  | setAutoReconnect => exact hsame rfl rfl rfl (by simp) (by simp)
  | runConnect => exact hsame rfl rfl rfl (by simp) (by simp)
  | connectDone error hhandler =>
    have hsweeping := sweeping_of_handler hhandler (by simp)
    cases error with
    | true =>
      obtain ⟨htiming, hcalls⟩ :=
        timing_scheduleReconnect { t with connecting := t.connecting - 1 }
      exact hsame htiming hcalls rfl (by simp) (by simp)
    | false =>
      exact hsame (timing_of_handler (some .connected) hsweeping (by simp)) rfl rfl
        (by simp) (by simp)
  | drawBind hhandler =>
    have hsweeping := sweeping_of_handler hhandler (by simp)
    exact hsame (timing_of_handler _ hsweeping (by simp)) rfl rfl (by simp) (by simp)
  | sendBind sequence hhandler =>
    have hsweeping := sweeping_of_handler hhandler (by simp)
    obtain ⟨htiming, hcalls⟩ := timing_sendPacket { t with handler := none }
      (createPacket ⟨idBind, 0, sequence, clientId⟩)
    exact hsame (htiming.trans (timing_of_handler _ hsweeping (by simp))) hcalls rfl (by simp)
      (by simp)
  | handleDisconnect hhandler =>
    obtain ⟨htiming, hcalls⟩ := timing_handleDisconnect (sweeping_of_handler hhandler (by simp))
    exact hsame htiming hcalls rfl (by simp) (by simp)
  | clearRequests hhandler =>
    have hsweeping := sweeping_of_handler hhandler (by simp)
    obtain ⟨htiming, hcalls⟩ :=
      timing_scheduleReconnect { t with handler := none, pendingRequests := ∅ }
    have hnone := timing_of_handler none hsweeping (by simp)
    exact hsame (htiming.trans hnone) hcalls rfl (by simp) (by simp)
  | processPacket p =>
    rw [processPacket_eq] at hsame ⊢
    exact hsame rfl rfl rfl (by simp) (by simp)
  | sendRequest =>
    exact sweepChange_of_timing h rfl
      (fun harming => harming.of_eq rfl (List.prefix_append _ _)) rfl (by simp) (by simp)
  | draw k c hcall =>
    obtain ⟨hc, hphase⟩ := callIn_eq_some hcall
    exact sweepChange_of_timing h rfl
      (fun harming => harming.set hc (by simp [hphase]) rfl rfl) rfl (by simp) (by simp)
  | sendDrawn k c hcall =>
    obtain ⟨hc, hphase⟩ := callIn_eq_some hcall
    exact sweepChange_sendDrawn hc hphase h
  | register k c hcall => exact sweepChange_register hcall h
  | startTimeoutTimer =>
    refine .other rfl rfl rfl (fun _ => .inl (Nat.succ_pos _)) (fun s r hr => .inl hr) (by simp)
      (by simp)
  | sendPacket p =>
    obtain ⟨htiming, hcalls⟩ := timing_sendPacket t p
    exact hsame htiming hcalls rfl (by simp) (by simp)
  | cancelRequest => exact hsame rfl rfl rfl (by simp) (by simp)
  | reconnectExpire => exact hsame rfl rfl rfl (by simp) (by simp)
  | reconnect timer =>
    obtain ⟨htiming, hcalls⟩ := timing_reconnect { t with reconnectTimer := timer }
    exact hsame htiming hcalls rfl (by simp) (by simp)

/-! ## Every request is looked after -/

/-- A sweep is near enough: its handler is due, `checkTimeouts` is about to arm the timer, the timer
has a deadline in time, or it will be armed before the request expires. -/
def Covered (t : TcpClient) (r : PendingRequest) : Prop :=
  t.timer.due ≠ [] ∨ t.sweeping = some true ∨
    (∃ deadline, t.timer.wait = some (deadline, ()) ∧ deadline ≤ r.expiryTime + 100) ∨
    (t.Arming ∧ t.now ≤ r.expiryTime)

/-- Every pending request is looked after, and none of them has expired while `checkTimeouts` is
half way. -/
structure LookedAfter (t : TcpClient) : Prop where
  onTime : t.OnTime
  covered : ∀ (s : UInt32) (r : PendingRequest), t.pendingRequests[s]? = some r → t.Covered r
  swept : ∀ (s : UInt32) (r : PendingRequest), t.sweeping.isSome = true →
    t.pendingRequests[s]? = some r → t.now ≤ r.expiryTime

/-- Nothing is pending at the start. -/
theorem lookedAfter_start : LookedAfter {} where
  onTime s r hr := by simp at hr
  covered s r hr := by simp at hr
  swept s r _ hr := by simp at hr

/-- It matters only when the timer fires and what is going to arm it. -/
theorem Covered.of_eq {r : PendingRequest} (h : t.Covered r) (hnow : t'.now = t.now)
    (htimer : t'.timer = t.timer) (hsweeping : t'.sweeping = t.sweeping)
    (harming : t.Arming → t'.Arming) : t'.Covered r := by
  unfold Covered at h ⊢
  rw [hnow, htimer, hsweeping]
  exact h.imp_right (Or.imp_right (Or.imp_right fun hc => ⟨harming hc.1, hc.2⟩))

/-- When time passes only the timer is there to wait for. -/
theorem LookedAfter.tick (h : t.LookedAfter) {d : ℕ} (hprompt : Prompt t (.tick d)) :
    LookedAfter { t with now := t.now + d } := by
  obtain rfl | ⟨hposts, hcalls, hhandler, hdue, hwait⟩ := hprompt
  · exact h
  have hidle : t.sweeping = none := sweeping_of_handler hhandler (by simp)
  have hdeadline : ∀ (s : UInt32) (r : PendingRequest), t.pendingRequests[s]? = some r →
      ∃ deadline, t.timer.wait = some (deadline, ()) ∧ deadline ≤ r.expiryTime + 100 := by
    intro s r hr
    obtain hd | hs | hw | ⟨hposted | ⟨c, hc, hregistered⟩, -⟩ := h.covered s r hr
    · exact absurd hdue hd
    · simp [hidle] at hs
    · exact hw
    · omega
    · exact absurd hregistered (hcalls c hc)
  refine ⟨fun s r hr => ?_, fun s r hr => .inr (.inr (.inl (hdeadline s r hr))), ?_⟩
  · obtain ⟨deadline, hw, hle⟩ := hdeadline s r hr
    have hnow := hwait _ hw
    change t.now + d ≤ deadline at hnow
    change t.now + d ≤ _
    omega
  · intro s r hs
    exact absurd hs (by rw [show sweeping { t with now := t.now + d } = none from hidle]; simp)

/-- A handler of `startTimeoutTimer` that comes in time arms the timer for everything that is
pending. -/
theorem LookedAfter.runTimerPost (h : t.LookedAfter) (hhandler : t.handler = none)
    (hrearms : RearmsInTime t .runTimerPost) : t.runTimerPost.LookedAfter := by
  have hidle : t.sweeping = none := sweeping_of_handler hhandler (by simp)
  rw [TcpClient.runTimerPost]
  cases hempty : t.pendingRequests.isEmpty with
  | true =>
    have hnone (s : UInt32) : t.pendingRequests[s]? = none :=
      Std.TreeMap.getElem?_of_isEmpty hempty
    refine ⟨fun s r hr => ?_, fun s r hr => ?_, fun s r _ hr => ?_⟩ <;>
      simp [hnone] at hr
  | false =>
    refine ⟨fun s r hr => h.onTime s r hr, fun s r hr => ?_, fun s r hs => ?_⟩
    · rcases hrearms with hdue | hfresh
      · exact .inl hdue
      · exact .inr (.inr (.inl ⟨t.now + 100, rfl, Nat.add_le_add_right (hfresh s r hr) 100⟩))
    · exact absurd hs (by
        change ¬ t.sweeping.isSome = true
        simp [hidle])

/-- A sweep takes out what has expired, and is about to arm the timer for the rest. -/
theorem LookedAfter.sweep (h : t.LookedAfter) (timer : Timer Unit) :
    ({ t with timer := timer } : TcpClient).sweep.LookedAfter := by
  have hpending {s : UInt32} {r : PendingRequest}
      (hr : ({ t with timer := timer } : TcpClient).sweep.pendingRequests[s]? = some r) :
      t.pendingRequests[s]? = some r ∧ t.now < r.expiryTime := by
    change (eraseAll t.pendingRequests t.expiredSequences)[s]? = some r at hr
    rw [getElem?_eraseAll] at hr
    split at hr
    · exact absurd hr (by simp)
    · rename_i hmem
      refine ⟨hr, Nat.lt_of_not_le fun hle => hmem ?_⟩
      exact mem_keysWhere.mpr ⟨r, hr, decide_eq_true hle⟩
  refine ⟨fun s r hr => h.onTime s r (hpending hr).1, fun s r hr => .inr (.inl ?_),
    fun s r _ hr => Nat.le_of_lt (hpending hr).2⟩
  -- something is left, so the timer will be armed again
  have hleft : (eraseAll t.pendingRequests t.expiredSequences).isEmpty = false := by
    by_contra hempty
    change (eraseAll t.pendingRequests t.expiredSequences)[s]? = some r at hr
    rw [Std.TreeMap.getElem?_of_isEmpty (by simpa using hempty)] at hr
    exact absurd hr (by simp)
  change some (!(eraseAll t.pendingRequests t.expiredSequences).isEmpty) = some true
  rw [hleft]
  rfl

/-- The end of `checkTimeouts` arms the timer, if a request is pending. -/
theorem LookedAfter.finishSweep (h : t.LookedAfter) {hasPending : Bool}
    (hhandler : t.handler = some (.checkTimeouts hasPending)) :
    (t.finishSweep hasPending).LookedAfter := by
  have hsweeping : t.sweeping = some hasPending := by rw [sweeping, hhandler]
  have hfresh (s : UInt32) (r : PendingRequest) (hr : t.pendingRequests[s]? = some r) :
      t.now ≤ r.expiryTime := h.swept s r (by rw [hsweeping]; rfl) hr
  cases hasPending with
  | true =>
    refine ⟨fun s r hr => h.onTime s r hr, fun s r hr => .inr (.inr (.inl ?_)), fun s r hs => ?_⟩
    · exact ⟨t.now + 100, rfl, Nat.add_le_add_right (hfresh s r hr) 100⟩
    · exact absurd hs (by simp [TcpClient.finishSweep, armTimer, sweeping])
  | false =>
    refine ⟨fun s r hr => h.onTime s r hr, fun s r hr => ?_, fun s r hs => ?_⟩
    · obtain hd | hs | hw | ha := h.covered s r hr
      · exact .inl hd
      · simp [hsweeping] at hs
      · exact .inr (.inr (.inl hw))
      · exact .inr (.inr (.inr ha))
    · exact absurd hs (by simp [TcpClient.finishSweep, sweeping])

/-- A prompt step is a step. -/
theorem promptStep_eq_some (h : promptStep clientId t e = some t') :
    Prompt t e ∧ step clientId t e = some t' := by
  rw [promptStep] at h
  split at h
  · rename_i hprompt
    exact ⟨hprompt, h⟩
  · exact absurd h (by simp)

/-- Every step keeps the pending requests looked after, if it does not put the timer off when one of
them has expired. -/
theorem LookedAfter.step (h : t.LookedAfter) (hrearms : RearmsInTime t e)
    (hstep : promptStep clientId t e = some t') : t'.LookedAfter := by
  obtain ⟨hprompt, hstep⟩ := promptStep_eq_some hstep
  cases sweepChange_of_step hstep with
  | tick d => exact h.tick hprompt
  | stop => exact hprompt.elim
  | runTimerPost hhandler hposts => exact h.runTimerPost hhandler hrearms
  | expire timer htimer =>
    refine ⟨h.onTime, fun s r _ => .inl (Timer.due_of_expire htimer), h.swept⟩
  | sweep timer htimer => exact h.sweep timer
  | finishSweep hasPending hhandler => exact h.finishSweep hhandler
  | other hnow htimer hsweeping harming hpending hevent hevent' =>
    refine ⟨fun s r hr => ?_, fun s r hr => ?_, fun s r hs hr => ?_⟩
    · rw [hnow]
      rcases hpending s r hr with hr | ⟨hle, -⟩
      · exact h.onTime s r hr
      · omega
    · rcases hpending s r hr with hr | ⟨hle, harmed⟩
      · exact (h.covered s r hr).of_eq hnow htimer hsweeping harming
      · exact .inr (.inr (.inr ⟨harmed, hnow ▸ hle⟩))
    · rw [hnow]
      rcases hpending s r hr with hr | ⟨hle, -⟩
      · exact h.swept s r (hsweeping ▸ hs) hr
      · exact hle

/-! ## A sweep that is pushed back -/

/-- The timer has just been armed, and this request is among those that wait for it. -/
structure PushedBack (s : UInt32) (r : PendingRequest) (time : ℕ) (t : TcpClient) : Prop where
  now : t.now = time
  handler : t.handler = none
  due : t.timer.due = []
  wait : t.timer.wait = some (time + 100, ())
  pending : t.pendingRequests[s]? = some r

/-- The handler of `startTimeoutTimer` arms the timer anew while a request is pending. -/
theorem runTimerPost_of_pending {s : UInt32} {r : PendingRequest}
    (hr : t.pendingRequests[s]? = some r) :
    t.runTimerPost = { t with timerPosts := t.timerPosts - 1 }.armTimer := by
  have hleft : t.pendingRequests.isEmpty = false := by
    by_contra hempty
    rw [Std.TreeMap.getElem?_of_isEmpty (by simpa using hempty)] at hr
    exact absurd hr (by simp)
  simp only [runTimerPost, hleft, Bool.false_eq_true, ↓reduceIte]

/-- Then the request waits for the timer that has just been armed. -/
theorem PushedBack.runTimerPost {s : UInt32} {r : PendingRequest} (hhandler : t.handler = none)
    (hdue : t.timer.due = []) (hr : t.pendingRequests[s]? = some r) :
    PushedBack s r t.now t.runTimerPost := by
  rw [runTimerPost_of_pending hr]
  exact ⟨rfl, hhandler, hdue, rfl, hr⟩

/-- What is still to be done before time can pass. -/
def unsettled (t : TcpClient) : ℕ :=
  2 * t.calls.countP (fun c => c.phase = .registered) + t.timerPosts

/-- The calls that are half way go on and the handlers that have been posted run, and none of them
brings the sweep forward. -/
theorem PushedBack.settles (clientId : List UInt8) {s : UInt32} {r : PendingRequest} {time : ℕ}
    (h : PushedBack s r time t) :
    ∃ es u, run (promptStep clientId) t es = some u ∧ PushedBack s r time u ∧
      u.timerPosts = 0 ∧ ∀ c ∈ u.calls, c.phase ≠ .registered := by
  refine run_reaches (Q := fun u => PushedBack s r time u ∧ u.timerPosts = 0 ∧
    ∀ c ∈ u.calls, c.phase ≠ .registered) (f := unsettled) h fun t h hQ => ?_
  -- first the calls of `startTimeoutTimer` that are to come, then the posts they leave
  by_cases hcalls : ∀ c ∈ t.calls, c.phase ≠ .registered
  · have hposts : t.timerPosts ≠ 0 := fun hposts => hQ ⟨h, hposts, hcalls⟩
    have hnext : promptStep clientId t .runTimerPost = some t.runTimerPost := by
      simp [promptStep, Prompt, step, onStrand, h.handler, hposts]
    refine ⟨.runTimerPost, t.runTimerPost, hnext, ?_, ?_⟩
    · have hpushed := PushedBack.runTimerPost h.handler h.due h.pending
      rwa [h.now] at hpushed
    · rw [runTimerPost_of_pending h.pending]
      simp only [unsettled, armTimer]
      omega
  · simp only [not_forall, not_not] at hcalls
    obtain ⟨c, hmem, hphase⟩ := hcalls
    obtain ⟨k, hk⟩ := List.mem_iff_getElem?.mp hmem
    have hnext : promptStep clientId t (.startTimeoutTimer k) =
        some (t.startTimeoutTimer k c) := by
      simp [promptStep, Prompt, step, callIn, hk, hphase]
    refine ⟨.startTimeoutTimer k, _, hnext, ⟨h.now, h.handler, h.due, h.wait, h.pending⟩, ?_⟩
    have hcount := countP_set_add (fun c : RequestCall => decide (c.phase = .registered))
      (b := { c with phase := .done }) hk
    simp only [hphase, decide_true, ↓reduceIte, reduceCtorEq, decide_false, Bool.false_eq_true]
      at hcount
    simp only [unsettled, startTimeoutTimer, setCall]
    omega

/-- A request that had expired when the sweep was pushed back can be late. -/
theorem PushedBack.late (clientId : List UInt8) {s : UInt32} {r : PendingRequest} {time : ℕ}
    (h : PushedBack s r time t) (hexpired : r.expiryTime < time) :
    ∃ es u, run (promptStep clientId) t es = some u ∧ ¬ u.OnTime := by
  obtain ⟨es, u, hrun, hu, hposts, hcalls⟩ := h.settles clientId
  refine ⟨es ++ [Event.tick (r.expiryTime + 101 - time)],
    { u with now := u.now + (r.expiryTime + 101 - time) }, ?_, fun honTime => ?_⟩
  · refine run_append_eq_some.mpr ⟨u, hrun, ?_⟩
    rw [run_singleton, promptStep, if_pos]
    · rfl
    · refine .inr ⟨hposts, hcalls, hu.handler, hu.due, fun wait hwait => ?_⟩
      obtain rfl := Option.some.inj (hu.wait.symm.trans hwait)
      have := hu.now
      dsimp only
      omega
  · have hle := honTime s r hu.pending
    have := hu.now
    dsimp only at hle
    omega

/-- **The sweep period of the client.** While handlers are prompt: if no handler of
`startTimeoutTimer` finds a request that is pending and has expired, unless the handler of the timer
is due anyway, then no request is ever pending for more than 100 ms after it has expired. And
whenever such a handler does find one, the run can go on until that request is late. -/
theorem onTime_of_rearmsInTime (clientId : List UInt8) :
    (∀ es, EveryStep (promptStep clientId) {} es RearmsInTime →
      EveryState (promptStep clientId) {} es OnTime) ∧
    ∀ es t t', run (promptStep clientId) {} es = some t → ¬ RearmsInTime t .runTimerPost →
      promptStep clientId t .runTimerPost = some t' →
      ∃ fs u, run (promptStep clientId) {} (es ++ Event.runTimerPost :: fs) = some u ∧
        ¬ u.OnTime := by
  constructor
  · intro es hrearms
    have hall : EveryState (promptStep clientId) {} es LookedAfter :=
      hrearms.everyState lookedAfter_start fun _ _ _ hC hI hstep => hI.step hC hstep
    exact fun pre post t heq ht => (hall pre post t heq ht).onTime
  · intro es t t' hrun hrearms hstep
    obtain ⟨-, hpost⟩ := promptStep_eq_some hstep
    obtain ⟨hhandler, -⟩ := onStrand_eq_some hpost
    obtain ⟨hdue, hexpired⟩ : t.timer.due = [] ∧ ∃ (s : UInt32) (r : PendingRequest),
        t.pendingRequests[s]? = some r ∧ r.expiryTime < t.now := by
      simpa [RearmsInTime, not_or] using hrearms
    obtain ⟨s, r, hr, hlt⟩ := hexpired
    obtain rfl : t' = t.runTimerPost := by
      cases sweepChange_of_step hpost with
      | runTimerPost _ _ => rfl
      | other _ _ _ _ _ _ hevent => exact absurd rfl hevent
    obtain ⟨fs, u, hfs, hlate⟩ :=
      (PushedBack.runTimerPost hhandler hdue hr).late clientId hlt
    exact ⟨fs, u, run_append_eq_some.mpr ⟨t, hrun, run_cons_eq_some.mpr ⟨_, hstep, hfs⟩⟩, hlate⟩

/-- The `k`-th call of `sendRequest` and the handler it posts. -/
def requesting (k timeout : ℕ) : List Event :=
  [.sendRequest [] timeout true, .draw k, .sendDrawn k, .register k, .startTimeoutTimer k,
    .runTimerPost]

/-- The second request comes before the first one has expired. -/
theorem onTime_of_rearmsInTime_two_requests :
    EveryState (promptStep []) {}
      (connects ++ requesting 0 50 ++ [Event.tick 40] ++ requesting 1 50 ++
        [Event.tick 100, .expire, .sweep, .finishSweep]) OnTime := by
  refine (onTime_of_rearmsInTime []).1 _ ?_
  decide

/-- The first request expires at 50 ms and would be reported at 100 ms. The second one, at 60 ms,
puts that off to 160 ms: at 151 ms the first one is still pending. -/
theorem later_request_delays_report :
    ∃ u, run (promptStep []) {}
        (connects ++ requesting 0 50 ++ [Event.tick 60] ++ requesting 1 50 ++
          [Event.tick 91]) = some u ∧
      ¬ u.OnTime := by
  refine ⟨_, rfl, fun h => ?_⟩
  exact absurd (h 2 ⟨50, true, 0⟩ (by decide)) (by decide)

end TcpClient

end TurboNet.Asio
