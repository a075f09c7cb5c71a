import TurboNet.Client.Client

/-!
# Response timeouts of the client

Reference: `turbonet_client.cpp`, `startResponseTimer`, `checkAndFireResponseTimers`, `onReadBody`.

Two things are expected of the response timers. A sweep comes in time: the timer is set to the
earliest expiry or earlier. A sweep on behalf of a request that has been answered reports nothing.
Neither holds of every run. A new request sets the timer to the full timeout from now, whatever is
in the queue, and so pushes back a deadline that was earlier; and a sweep sets it to what it has
seen in the queue, whatever has come since. `sweepOnTime_iff` says when they do no harm. And
`onReadBody` does not call `cancelResponseTimer`, so an answered request stays in the map;
`noTimeoutAfterAnswer_iff` says which runs are spared.
-/

namespace TurboNet

open Common

/-! ## What a step does to the response table -/

/-- The response table with the entry of the next request. -/
def Client.entered (cfg : ClientConfig) (c : Client) : Responses :=
  let expiry := c.now + millis cfg.responseTimeoutMs
  c.responses.insert (cfg.place c.responses.responseQueue ⟨c.sequenceCounter, expiry⟩)
    c.sequenceCounter expiry

/-- The event is a call of `sendRequest`, or the first half of one. -/
def Client.Event.requests : Client.Event → Bool
  | .sendRequest _ _ | .startRequest _ => true
  | _ => false

/-- What a step of the client can do to the response table. -/
inductive Responses.Acts (cfg : ClientConfig) (c : Client) : Client.Event → Responses → Prop where
  | request (data : List UInt8) (gap : ℕ) (hon : ¬ cfg.responseTimeoutMs ≤ 0) :
    Acts cfg c (.sendRequest data gap)
      ((c.entered cfg).armStarted ⟨c.sequenceCounter, c.now + millis cfg.responseTimeoutMs⟩
        (c.now + gap + millis cfg.responseTimeoutMs))
  | start (data : List UInt8) (hon : ¬ cfg.responseTimeoutMs ≤ 0) :
    Acts cfg c (.startRequest data) (c.entered cfg)
  | arm (q : ResponseEntry) (hq : q ∈ c.responses.starting) :
    Acts cfg c (.armStarted q)
      (c.responses.armStarted q (c.now + millis cfg.responseTimeoutMs))
  | fire (t : Timer Unit) (hdue : c.responses.responseSweepTimer.takeDue = some ((), t)) :
    Acts cfg c (.timerDue .response) ({ c.responses with responseSweepTimer := t }.sweep c.now)
  | aborted (t : Timer Unit)
    (haborted : c.responses.responseSweepTimer.takeAborted = some ((), t)) :
    Acts cfg c (.timerAborted .response) { c.responses with responseSweepTimer := t }
  | expire (t : Timer Unit) (hexpire : c.responses.responseSweepTimer.expire c.now = some t) :
    Acts cfg c (.expire .response) { c.responses with responseSweepTimer := t }
  | look (now : ℕ) (hsweeping : c.responses.sweeping = some (.fired now)) :
    Acts cfg c .sweepNext
      { c.responses with sweeping := some (.scheduled (c.responses.next now)) }
  | rearm (next : ℕ) (hsweeping : c.responses.sweeping = some (.scheduled next)) :
    Acts cfg c .sweepRearm (c.responses.reschedule next)
  | close : Acts cfg c .close
      { c.responses with responseSweepTimer := c.responses.responseSweepTimer.cancel }
  | same (e : Client.Event) (hsweep : e ≠ .timerDue .response ∧ e ≠ .sweepRearm)
    (harm : ∀ q, e ≠ .armStarted q) (hoff : e.requests = true → cfg.responseTimeoutMs ≤ 0) :
    Acts cfg c e c.responses

namespace Client

/-- Connecting does not touch the response table. -/
theorem onConnect_responses (cfg : ClientConfig) (c : Client) (ec : Bool) :
    (c.onConnect cfg ec).responses = c.responses := by
  cases ec with
  | true => rfl
  | false =>
    cases hid : cfg.clientId.isEmpty <;>
      simp only [onConnect, hid, Bool.false_eq_true, ↓reduceIte] <;> rfl

/-- Neither does a posted `sendPacket`. -/
theorem runPosted_responses (cfg : ClientConfig) (c : Client) (pkt : List UInt8)
    (rest : List (List UInt8)) : (c.runPosted cfg pkt rest).responses = c.responses := by
  simp only [runPosted]
  split <;> rfl

/-- The first half of `sendRequest` enters the request. -/
theorem startRequest_responses (cfg : ClientConfig) (c : Client) (data : List UInt8) :
    (c.startRequest cfg data).responses =
      if cfg.responseTimeoutMs ≤ 0 then c.responses else c.entered cfg := by
  rw [startRequest, enterResponse]
  split <;> rfl

/-- `sendRequest` enters the request and sets the timer. -/
theorem sendRequest_responses (cfg : ClientConfig) (c : Client) (data : List UInt8) (gap : ℕ) :
    (c.sendRequest cfg data gap).responses =
      if cfg.responseTimeoutMs ≤ 0 then c.responses
      else (c.entered cfg).armStarted
        ⟨c.sequenceCounter, c.now + millis cfg.responseTimeoutMs⟩
        (c.now + gap + millis cfg.responseTimeoutMs) := by
  rw [sendRequest, startResponseTimer, enterResponse]
  split <;> rfl

/-- Every step does one of these things to the response table. -/
theorem step_responses {cfg : ClientConfig} {c c' : Client} {e : Event}
    (h : step cfg c e = some c') : c'.responses.Acts cfg c e := by
  cases acts_of_step h with
  | sendPacket p => exact .same _ (by simp) (by simp) (by simp [Event.requests])
  | sendRequest data gap =>
    rw [sendRequest_responses]
    split
    · rename_i hoff
      exact .same _ (by simp) (by simp) fun _ => hoff
    · rename_i hon
      exact .request data gap hon
  | startRequest data =>
    rw [startRequest_responses]
    split
    · rename_i hoff
      exact .same _ (by simp) (by simp) fun _ => hoff
    · rename_i hon
      exact .start data hon
  | armStarted q hq => exact .arm q hq
  | close => exact .close
  | connectDone ec =>
    rw [onConnect_responses]
    exact .same _ (by simp) (by simp) (by simp [Event.requests])
  | runPosted pkt rest hposted =>
    rw [runPosted_responses]
    exact .same _ (by simp) (by simp) (by simp [Event.requests])
  | writeDone ec hwriting => exact .same _ (by simp) (by simp) (by simp [Event.requests])
  | sweepFire t hdue =>
    rw [sweepFire_eq]
    exact .fire t hdue
  | sweepAborted t haborted => exact .aborted t haborted
  | sweepExpire t hexpire => exact .expire t hexpire
  | sweepNext now hsweeping => exact .look now hsweeping
  | sweepRearm next hsweeping => exact .rearm next hsweeping
  | tick d => exact .same _ (by simp) (by simp) (by simp [Event.requests])
  -- nothing else has to do with the table
  | other e c' hquiet hsame =>
    rw [hsame.responses]
    refine .same e ⟨?_, ?_⟩ ?_ ?_
    · rintro rfl
      exact absurd hquiet (by simp [Event.quiet])
    · rintro rfl
      exact absurd hquiet (by simp [Event.quiet])
    · rintro q rfl
      exact absurd hquiet (by simp [Event.quiet])
    · cases e <;> simp [Event.quiet, Event.requests] at hquiet ⊢

end Client

/-- A step keeps the queue sorted by expiry. -/
theorem Responses.Acts.ordered {cfg : ClientConfig} {c : Client} {e : Client.Event} {r : Responses}
    (ha : r.Acts cfg c e) (h : c.responses.Ordered) : r.Ordered := by
  cases ha with
  | request data gap hon => exact h.insert _ _ _
  | start data hon => exact h.insert _ _ _
  | fire t hdue =>
    have ht : Ordered { c.responses with responseSweepTimer := t } := h
    exact ht.sweep c.now
  | _ => exact h

/-! ## The deadline of the sweep -/

namespace Responses

/-- Every queued expiry is met: a sweep is under way, its handler is due, or the timer is set to a
deadline no later than the expiry. This is not asked of an entry whose own call of
`startResponseTimer` has not set the timer yet. -/
def SweepOnTime (r : Responses) : Prop :=
  ∀ q ∈ r.responseQueue, q ∈ r.starting ∨ r.sweeping.isSome = true ∨
    r.responseSweepTimer.FiresBy q.expiry

/-- To set the timer to the deadline does no harm to these entries: a handler is due already, or
none of them expires before it. Entries of calls that are still to set the timer do not count. -/
def Meets (r : Responses) (queue starting : List ResponseEntry) (deadline : ℕ) : Prop :=
  r.responseSweepTimer.due ≠ [] ∨ ∀ q ∈ queue, q ∈ starting ∨ deadline ≤ q.expiry

instance (r : Responses) (queue starting : List ResponseEntry) (deadline : ℕ) :
    Decidable (r.Meets queue starting deadline) :=
  inferInstanceAs (Decidable (_ ∨ _))

/-- Only which entries there are matters. -/
theorem Meets.congr {r r' : Responses} {queue queue' starting starting' : List ResponseEntry}
    {deadline : ℕ} (hdue : r'.responseSweepTimer.due = r.responseSweepTimer.due)
    (hqueue : queue'.Perm queue) (hstarting : starting'.Perm starting) :
    r'.Meets queue' starting' deadline ↔ r.Meets queue starting deadline := by
  rw [Meets, Meets, hdue]
  simp only [hqueue.mem_iff, hstarting.mem_iff]

/-- After the timer has been set every expiry is met exactly when a sweep is under way or the
deadline does no harm. -/
theorem armed_onTime_iff {r r' : Responses} {deadline : ℕ}
    (htimer : r'.responseSweepTimer = r.responseSweepTimer.arm deadline ()) :
    r'.SweepOnTime ↔
      r'.sweeping.isSome = true ∨ r.Meets r'.responseQueue r'.starting deadline := by
  rw [SweepOnTime, Meets, htimer]
  simp only [Timer.arm_firesBy]
  by_cases hsweeping : r'.sweeping.isSome = true
  · simp [hsweeping]
  by_cases hdue : r.responseSweepTimer.due ≠ []
  · simp [hdue]
  · simp [hsweeping, hdue]

/-- What a sweep has seen in the queue does no harm, as long as nothing comes after it. -/
theorem Ordered.meets_next {r : Responses} (h : r.Ordered) (starting : List ResponseEntry)
    (now : ℕ) : r.Meets r.responseQueue starting (r.next now) :=
  .inr fun _ hq => .inr (next_le h now hq)

end Responses

namespace Client

/-- The event does not push the sweep back. When a request sets the timer, a sweep is under way, or
the timeout from now does no harm to the entries, its own included; that means that the clock has
not moved since its entry was made. When a sweep sets the timer, what it has seen in the queue does
no harm to the entries that are there now. -/
def ArmsOnTime (cfg : ClientConfig) (c : Client) : Event → Prop
  | .sendRequest _ gap =>
    cfg.responseTimeoutMs ≤ 0 ∨ c.responses.sweeping.isSome = true ∨
      c.responses.Meets
        (⟨c.sequenceCounter, c.now + millis cfg.responseTimeoutMs⟩ :: c.responses.responseQueue)
        c.responses.starting (c.now + gap + millis cfg.responseTimeoutMs)
  | .armStarted q =>
    c.responses.sweeping.isSome = true ∨
      c.responses.Meets c.responses.responseQueue (c.responses.starting.erase q)
        (c.now + millis cfg.responseTimeoutMs)
  | .sweepRearm => ∀ next ∈ c.responses.sweeping.bind SweepPhase.next?,
      c.responses.Meets c.responses.responseQueue c.responses.starting next
  | _ => True

instance (cfg : ClientConfig) (c : Client) : (e : Event) → Decidable (ArmsOnTime cfg c e)
  | .sendRequest _ _ => inferInstanceAs (Decidable (_ ∨ _ ∨ _))
  | .armStarted _ => inferInstanceAs (Decidable (_ ∨ _))
  | .sweepRearm => inferInstanceAs (Decidable (∀ next ∈ c.responses.sweeping.bind _, _))
  | .connect _ | .sendPacket _ | .close | .startRequest _ | .connectDone _ | .runPosted
  | .readDone _ | .readFail | .writeDone _ | .timerDue _ | .timerAborted _ | .sweepNext | .tick _
  | .expire _ => isTrue trivial

/-- A sweep that nothing interrupts sets the timer in time: as long as nothing has happened since it
looked at the queue, what it has seen does no harm. -/
theorem armsOnTime_of_sweepNext {cfg : ClientConfig} {c : Client} {es : List Event}
    (hrun : run (step cfg) {} (es ++ [.sweepNext]) = some c) : ArmsOnTime cfg c .sweepRearm := by
  obtain ⟨t, ht, hlast⟩ := run_append_eq_some.mp hrun
  rw [run_singleton] at hlast
  have hempty : Responses.Ordered {} := List.Pairwise.nil
  have hordered : t.responses.Ordered :=
    run_induction (P := fun c : Client => c.responses.Ordered) hempty
      (fun _ _ _ h hstep => (step_responses hstep).ordered h) ht
  cases transition_of_step hlast with
  | sweepNext now hsweeping =>
    intro next hnext
    obtain rfl : t.responses.next now = next := by
      simpa [sweepNext, SweepPhase.next?] using hnext
    exact hordered.meets_next _ _

/-- A step keeps the sweep on time exactly when it does not push it back. -/
theorem sweepOnTime_step {cfg : ClientConfig} {c c' : Client} {e : Event}
    (honTime : c.responses.SweepOnTime) (he : e ≠ .close) (hstep : step cfg c e = some c') :
    c'.responses.SweepOnTime ↔ ArmsOnTime cfg c e := by
  generalize hr : c'.responses = r
  have ha := step_responses hstep
  rw [hr] at ha
  cases ha with
  | request data gap hon =>
    let q : ResponseEntry := ⟨c.sequenceCounter, c.now + millis cfg.responseTimeoutMs⟩
    -- the new entry is in the queue, and its call is no longer one that is to set the timer
    have hqueue : (c.entered cfg).responseQueue.Perm (q :: c.responses.responseQueue) :=
      Responses.pushEntry_perm q _ _
    have hstarting : ((c.responses.starting ++ [q]).erase q).Perm c.responses.starting := by
      have hperm : (c.responses.starting ++ [q]).Perm (q :: c.responses.starting) :=
        List.perm_append_comm
      simpa using hperm.erase q
    rw [Responses.armed_onTime_iff (r := c.responses) rfl, ArmsOnTime]
    simp only [hon, false_or]
    exact or_congr_right (Responses.Meets.congr rfl hqueue hstarting)
  | start data hon =>
    -- nothing is asked of the new entry
    refine iff_of_true (fun q hq => ?_) trivial
    rcases Responses.mem_insert.mp hq with rfl | hq
    · exact .inl (List.mem_append_right _ List.mem_cons_self)
    · exact (honTime q hq).imp_left (List.mem_append_left _)
  | arm q hq => exact Responses.armed_onTime_iff (r := c.responses) rfl
  | fire t hdue => exact iff_of_true (fun q _ => .inr (.inl rfl)) trivial
  | aborted t haborted =>
    refine iff_of_true (fun q hq => ?_) trivial
    exact (honTime q hq).imp_right (Or.imp_right (Timer.takeAborted_firesBy haborted _).mpr)
  | expire t hexpire =>
    exact iff_of_true (fun q _ => .inr (.inr (.inl (Timer.due_of_expire hexpire)))) trivial
  | look now hsweeping => exact iff_of_true (fun q _ => .inr (.inl rfl)) trivial
  | rearm next hsweeping =>
    rw [Responses.armed_onTime_iff (r := c.responses) rfl, ArmsOnTime, hsweeping]
    simp [Responses.reschedule, Responses.armSweep, SweepPhase.next?]
  | close => exact absurd rfl he
  | same e hsweep harm hoff =>
    refine iff_of_true honTime ?_
    cases e with
    | sendRequest data gap => exact .inl (hoff rfl)
    | armStarted q => exact absurd rfl (harm q)
    | sweepRearm => exact absurd rfl hsweep.2
    | _ => trivial

/-- **The response sweep is never late** before `close`, in every state of a run, exactly when no
request and no sweep of the run pushes it back. -/
theorem sweepOnTime_iff (cfg : ClientConfig) (es : List Event) (c : Client)
    (hrun : run (step cfg) {} es = some c) (hopen : Event.close ∉ es) :
    EveryState (step cfg) {} es (fun c => c.responses.SweepOnTime) ↔
      EveryStep (step cfg) {} es (ArmsOnTime cfg) :=
  everyState_iff_everyStep (I := fun _ => True) (fun q hq => absurd hq (by simp)) trivial
    (fun _ _ _ _ _ _ _ => trivial)
    (fun t e t' he _ _ hP ht => sweepOnTime_step hP (fun hc => hopen (hc ▸ he)) ht) hrun

/-- A client whose requests time out after 10 ms. -/
def tenMs : ClientConfig := { host := .little, responseTimeoutMs := 10 }

/-- Two requests at the same time, a sweep that reports both, and a third request. Another thread is
in a fourth call all the time that the sweep takes. -/
theorem sweepOnTime_iff_after_sweep :
    EveryState (step tenMs) {}
      [.sendRequest [] 0, .sendRequest [] 0, .tick (millis 10), .expire .response,
        .timerDue .response, .startRequest [], .sweepNext, .sweepRearm,
        .armStarted ⟨3, millis 20⟩, .timerAborted .response, .sendRequest [] 0]
      (fun c => c.responses.SweepOnTime) := by
  refine (sweepOnTime_iff _ _ _ rfl ?_).mpr ?_
  · decide
  · decide

/-- A request 5 ms after another: the first expires at 10 ms and the sweep is set to 15 ms. -/
theorem second_request_delays_sweep :
    ∃ c, run (step tenMs) {} [.sendRequest [] 0, .tick (millis 5), .sendRequest [] 0] = some c ∧
      ¬ c.responses.SweepOnTime ∧ ⟨1, millis 10⟩ ∈ c.responses.responseQueue ∧
      c.responses.starting = [] ∧ c.responses.sweeping = none ∧
      c.responses.responseSweepTimer.wait = some (millis 15, ()) := by
  refine ⟨_, rfl, fun h => ?_, by decide, rfl, rfl, rfl⟩
  rcases h ⟨1, millis 10⟩ (by decide) with hstarting | hsweeping | hdue | ⟨d, _, hd, hle⟩
  · exact absurd hstarting (by decide)
  · exact absurd hsweeping (by decide)
  · exact absurd hdue (by decide)
  · obtain ⟨rfl, -⟩ := Prod.mk.inj (Option.some.inj hd)
    exact absurd hle (by decide)

/-! ## Sequence numbers and the table -/

/-- A step draws the next sequence number or none; a request draws one, and so does the connection
of a client that has an id. -/
theorem step_drawn {cfg : ClientConfig} {c c' : Client} {e : Event} (h : step cfg c e = some c') :
    (c'.drawn = c.drawn ∧ c'.sequenceCounter = c.sequenceCounter ∧ e.requests = false) ∨
    (c'.drawn = c.drawn ++ [c.sequenceCounter] ∧ c'.sequenceCounter = c.sequenceCounter + 1 ∧
      (cfg.clientId.isEmpty = true → e.requests = true)) := by
  cases acts_of_step h with
  | sendPacket p => exact .inl ⟨rfl, rfl, rfl⟩
  | sendRequest data gap =>
    obtain ⟨r, now, heq⟩ := sendRequest_eq cfg c data gap
    rw [heq]
    exact .inr ⟨rfl, rfl, fun _ => rfl⟩
  | startRequest data =>
    obtain ⟨r, heq⟩ := startRequest_eq cfg c data
    rw [heq]
    exact .inr ⟨rfl, rfl, fun _ => rfl⟩
  | armStarted q hq => exact .inl ⟨rfl, rfl, rfl⟩
  | close => exact .inl ⟨rfl, rfl, rfl⟩
  | connectDone ec =>
    cases ec with
    | true => exact .inl ⟨rfl, rfl, rfl⟩
    | false =>
      -- a client without an id draws no number for a bind request
      cases hid : cfg.clientId.isEmpty with
      | true =>
        refine .inl ⟨?_, ?_, rfl⟩ <;> simp only [onConnect, hid] <;> rfl
      | false =>
        refine .inr ⟨?_, ?_, by simp⟩ <;> simp only [onConnect, hid] <;> rfl
  | runPosted pkt rest hposted =>
    refine .inl ⟨?_, ?_, rfl⟩ <;> simp only [runPosted] <;> split <;> rfl
  | writeDone ec hwriting => exact .inl ⟨rfl, rfl, rfl⟩
  | sweepFire t hdue =>
    rw [sweepFire_eq]
    exact .inl ⟨rfl, rfl, rfl⟩
  | sweepAborted t haborted => exact .inl ⟨rfl, rfl, rfl⟩
  | sweepExpire t hexpire => exact .inl ⟨rfl, rfl, rfl⟩
  | sweepNext now hsweeping => exact .inl ⟨rfl, rfl, rfl⟩
  | sweepRearm next hsweeping => exact .inl ⟨rfl, rfl, rfl⟩
  | tick d => exact .inl ⟨rfl, rfl, rfl⟩
  | other e c' hquiet hsame =>
    refine .inl ⟨hsame.drawn, hsame.sequenceCounter, ?_⟩
    cases e <;> simp [Event.quiet, Event.requests] at hquiet ⊢

/-- No number is given back. -/
theorem length_drawn_le_of_step {cfg : ClientConfig} {c c' : Client} {e : Event}
    (h : step cfg c e = some c') : c.drawn.length ≤ c'.drawn.length := by
  rcases step_drawn h with ⟨hdrawn, -, -⟩ | ⟨hdrawn, -, -⟩
  · rw [hdrawn]
  · rw [hdrawn, List.length_append]
    omega

/-- Not over a whole run either. -/
theorem length_drawn_le_of_run {cfg : ClientConfig} {c c' : Client} {es : List Event}
    (h : run (step cfg) c es = some c') : c.drawn.length ≤ c'.drawn.length :=
  run_induction (P := fun t => c.drawn.length ≤ t.drawn.length) (Nat.le_refl _)
    (fun _ _ _ hle ht => hle.trans (length_drawn_le_of_step ht)) h

/-- The counter has been through the numbers from 1 on, and the table holds drawn numbers only. -/
structure Tracked (c : Client) : Prop where
  counter : c.sequenceCounter = UInt32.ofNat (1 + c.drawn.length)
  drawn : ∀ s ∈ c.drawn, ∃ k, 0 < k ∧ k ≤ c.drawn.length ∧ s = UInt32.ofNat k
  tabled : c.responses.Tabled
  queue_drawn : ∀ q ∈ c.responses.responseQueue, q.sequence ∈ c.drawn

/-- No number has been drawn at the start. -/
theorem Tracked.init : Tracked {} where
  counter := rfl
  drawn := by simp
  tabled := ⟨List.Pairwise.nil, List.nodup_nil, fun s x h => absurd h (by simp)⟩
  queue_drawn := by simp

/-- Up to 2^32 draws the counter shows a new number. -/
theorem Tracked.fresh {c : Client} (h : Tracked c) (hfew : c.drawn.length < 2 ^ 32) :
    c.sequenceCounter ∉ c.drawn := by
  intro hmem
  obtain ⟨k, hpos, hle, hk⟩ := h.drawn _ hmem
  rw [h.counter] at hk
  have hmod : (1 + c.drawn.length) % 2 ^ 32 = k % 2 ^ 32 := by
    simpa using congrArg UInt32.toNat hk
  omega

/-- The queue after a step: what was there, and the entry of a request. -/
theorem step_queue {cfg : ClientConfig} {c c' : Client} {e : Event} (hord : c.responses.Ordered)
    (h : step cfg c e = some c') :
    ∀ q ∈ c'.responses.responseQueue, q ∈ c.responses.responseQueue ∨
      q.sequence = c.sequenceCounter ∧ e.requests = true := by
  generalize hr : c'.responses = r
  have ha := step_responses h
  rw [hr] at ha
  cases ha with
  | request data gap hon | start data hon =>
    intro q hq
    rcases Responses.mem_insert.mp hq with rfl | hq
    · exact .inr ⟨rfl, rfl⟩
    · exact .inl hq
  | fire t hdue =>
    have ht : Responses.Ordered { c.responses with responseSweepTimer := t } := hord
    exact fun q hq => .inl ((Responses.mem_sweep ht c.now).mp hq).1
  | _ => exact fun q hq => .inl hq

/-- Every step keeps the table to numbers that have been drawn. -/
theorem Tracked.step {cfg : ClientConfig} {c c' : Client} {e : Event} (h : Tracked c)
    (hfew : c.drawn.length < 2 ^ 32) (hstep : step cfg c e = some c') : Tracked c' := by
  have hqueue := step_queue h.tabled.ordered hstep
  have htabled : c'.responses.Tabled := by
    generalize hr : c'.responses = r
    have ha := step_responses hstep
    rw [hr] at ha
    -- the counter has not gone round, so the next number is in use nowhere
    have hnew : c.sequenceCounter ∉ c.responses.responseQueue.map ResponseEntry.sequence := by
      intro hmem
      obtain ⟨q, hq, hseq⟩ := List.mem_map.mp hmem
      exact h.fresh hfew (hseq ▸ h.queue_drawn q hq)
    cases ha with
    | request data gap hon => exact (h.tabled.insert hnew _ _).of_eq rfl rfl
    | start data hon => exact h.tabled.insert hnew _ _
    | fire t hdue =>
      have ht : Responses.Tabled { c.responses with responseSweepTimer := t } :=
        h.tabled.of_eq rfl rfl
      exact ht.sweep c.now
    | _ => exact h.tabled.of_eq rfl rfl
  rcases step_drawn hstep with ⟨hdrawn, hcounter, hno⟩ | ⟨hdrawn, hcounter, -⟩
  · refine ⟨by rw [hcounter, hdrawn, h.counter], by rw [hdrawn]; exact h.drawn, htabled, ?_⟩
    intro q hq
    rw [hdrawn]
    rcases hqueue q hq with hold | ⟨-, hrequests⟩
    · exact h.queue_drawn q hold
    · exact absurd (hno.symm.trans hrequests) (by simp)
  · refine ⟨?_, fun s hs => ?_, htabled, fun q hq => ?_⟩
    · rw [hcounter, hdrawn, List.length_append, ← Nat.add_assoc, UInt32.ofNat_add, ← h.counter]
      rfl
    · rw [hdrawn, List.length_append]
      rw [hdrawn, List.mem_append, List.mem_singleton] at hs
      rcases hs with hs | rfl
      · obtain ⟨k, hpos, hle, hk⟩ := h.drawn s hs
        exact ⟨k, hpos, Nat.le_add_right_of_le hle, hk⟩
      · exact ⟨1 + c.drawn.length, by omega, by simp; omega, h.counter⟩
    · rw [hdrawn, List.mem_append, List.mem_singleton]
      exact (hqueue q hq).imp (h.queue_drawn q) And.left

/-- The table holds drawn numbers only in every run of fewer than 2^32 draws. -/
theorem tracked_of_run {cfg : ClientConfig} {c : Client} {es : List Event}
    (h : run (Client.step cfg) {} es = some c) (hfew : c.drawn.length < 2 ^ 32) : Tracked c := by
  refine run_induction (P := fun t => t.drawn.length < 2 ^ 32 → Tracked t)
    (fun _ => Tracked.init) ?_ h hfew
  intro t e t' ht hstep hfew'
  have hle := length_drawn_le_of_step hstep
  exact (ht (by omega)).step (by omega) hstep

/-! ## Answered requests -/

/-- The timeouts reported are among the calls. -/
theorem timeouts_of_calls {c c' : Client} (h : c'.calls = c.calls) : c'.timeouts = c.timeouts := by
  rw [timeouts, timeouts, h]

/-- A sweep reports its numbers after those before. -/
theorem timeouts_report (c : Client) (seqs : List UInt32) :
    timeouts { c with calls := c.calls ++ seqs.map .timeout } = c.timeouts ++ seqs := by
  simp [timeouts, List.filterMap_map]

/-- Only a sweep reports timeouts. -/
theorem step_timeouts {cfg : ClientConfig} {c c' : Client} {e : Event}
    (h : step cfg c e = some c') :
    c'.timeouts = c.timeouts ++
      if e = .timerDue .response ∧ cfg.onTimeout = true then c.responses.expired c.now else [] := by
  -- only a sweep whose handler is due reports timeouts
  have hsame (he : e ≠ .timerDue .response) (heq : c'.timeouts = c.timeouts) :
      c'.timeouts = c.timeouts ++
        if e = .timerDue .response ∧ cfg.onTimeout = true then c.responses.expired c.now
        else [] := by
    rw [if_neg (fun hc => he hc.1), List.append_nil, heq]
  cases acts_of_step h with
  | sendPacket p => exact hsame (by simp) rfl
  | sendRequest data gap =>
    refine hsame (by simp) (timeouts_of_calls ?_)
    obtain ⟨r, now, heq⟩ := sendRequest_eq cfg c data gap
    rw [heq]
    rfl
  | startRequest data =>
    refine hsame (by simp) (timeouts_of_calls ?_)
    obtain ⟨r, heq⟩ := startRequest_eq cfg c data
    rw [heq]
    rfl
  | armStarted q hq => exact hsame (by simp) rfl
  | sweepNext now hsweeping => exact hsame (by simp) rfl
  | close => exact hsame (by simp) (timeouts_call (by simp))
  | connectDone ec =>
    refine hsame (by simp) ((timeouts_call (by simp)).trans (timeouts_of_calls ?_))
    cases ec with
    | true => rfl
    | false =>
      cases cfg.clientId.isEmpty <;> simp only [Bool.false_eq_true, ↓reduceIte] <;> rfl
  | runPosted pkt rest hposted =>
    refine hsame (by simp) (timeouts_of_calls ?_)
    simp only [runPosted]
    split <;> rfl
  | writeDone ec hwriting => exact hsame (by simp) rfl
  | sweepFire t hdue =>
    rw [sweepFire_eq]
    cases hset : cfg.onTimeout with
    | false => simp [timeouts]
    | true =>
      simp only [↓reduceIte, and_self]
      exact timeouts_report _ _
  | sweepAborted t haborted => exact hsame (by simp) rfl
  | sweepExpire t hexpire => exact hsame (by simp) rfl
  | sweepRearm now hsweeping => exact hsame (by simp) rfl
  | tick d => exact hsame (by simp) rfl
  | other e c' hquiet hcore =>
    refine hsame ?_ hcore.timeouts
    rintro rfl
    exact absurd hquiet (by simp [Event.quiet])

/-- The step delivers an answer to the outstanding request `s` before its expiry `x`: `onReadBody`
runs on a response packet with that sequence. -/
def Answers (c : Client) (e : Event) (s : UInt32) (x : ℕ) : Prop :=
  (∃ bs n, e = .readDone bs ∧ c.rx.reading = some (.body n)) ∧
    c.rx.lastPacketId = 0x82 ∧ c.rx.lastSequence = s ∧
    c.responses.responseMap s = some x ∧ c.now < x

/-- No request is reported as timed out after it has been answered in time. -/
def NoTimeoutAfterAnswer (cfg : ClientConfig) (es : List Event) : Prop :=
  ∀ pre e post c c' s x, es = pre ++ e :: post → run (step cfg) {} pre = some c →
    step cfg c e = some c' → Answers c e s x →
    EveryState (step cfg) c' post fun t => t.timeouts.count s = c'.timeouts.count s

/-- After a request has been answered in time, no sweep runs at or after its expiry, if there is a
handler to report to. -/
def NoSweepAfterAnswer (cfg : ClientConfig) (es : List Event) : Prop :=
  ∀ pre e post c c' s x, es = pre ++ e :: post → run (step cfg) {} pre = some c →
    step cfg c e = some c' → Answers c e s x → cfg.onTimeout = true →
    EveryStep (step cfg) c' post fun t e => e = .timerDue .response → t.now < x

/-- A request stays in the map until a sweep at or after its expiry. -/
theorem responseMap_step {cfg : ClientConfig} {c c' : Client} {e : Event} {s : UInt32} {x : ℕ}
    (h : Tracked c) (hfew : c.drawn.length < 2 ^ 32) (hmap : c.responses.responseMap s = some x)
    (hstep : step cfg c e = some c') (he : e = .timerDue .response → c.now < x) :
    c'.responses.responseMap s = some x := by
  generalize hr : c'.responses = r
  have ha := step_responses hstep
  rw [hr] at ha
  cases ha with
  | request data gap hon | start data hon =>
    have hne : s ≠ c.sequenceCounter := by
      rintro rfl
      exact h.fresh hfew (h.queue_drawn _ (h.tabled.queued _ x hmap))
    exact (Function.update_of_ne hne _ _).trans hmap
  | fire t hdue =>
    have ht : Responses.Tabled { c.responses with responseSweepTimer := t } :=
      h.tabled.of_eq rfl rfl
    exact (ht.sweep_map_eq_some c.now).mpr ⟨hmap, he rfl⟩
  | _ => exact hmap

/-- A step reports an outstanding request exactly when it is a sweep at or after its expiry. -/
theorem count_timeouts_step {cfg : ClientConfig} {c c' : Client} {e : Event} {s : UInt32} {x : ℕ}
    (h : Tracked c) (hon : cfg.onTimeout = true) (hmap : c.responses.responseMap s = some x)
    (hstep : step cfg c e = some c') :
    c'.timeouts.count s = c.timeouts.count s ↔ (e = .timerDue .response → c.now < x) := by
  rw [step_timeouts hstep, List.count_append]
  by_cases he : e = .timerDue .response
  · rw [if_pos ⟨he, hon⟩]
    have hiff := h.tabled.mem_expired_iff c.now hmap
    rw [← List.count_pos_iff] at hiff
    constructor
    · intro heq _
      omega
    · intro hlt
      have := hlt he
      omega
  · rw [if_neg (fun hc => he hc.1)]
    exact iff_of_true rfl fun hc => absurd hc he

/-- From a state in which `s` is outstanding: no report exactly when no sweep runs at or after its
expiry. -/
theorem noTimeout_iff {cfg : ClientConfig} {c u : Client} {es : List Event} {s : UInt32} {x : ℕ}
    (h : Tracked c) (hmap : c.responses.responseMap s = some x) (hon : cfg.onTimeout = true)
    (hrun : run (step cfg) c es = some u) (hfew : u.drawn.length < 2 ^ 32) :
    EveryState (step cfg) c es (fun t => t.timeouts.count s = c.timeouts.count s) ↔
      EveryStep (step cfg) c es fun t e => e = .timerDue .response → t.now < x := by
  have hbound {t t' : Client} {e : Event} (ht : step cfg t e = some t')
      (hend : ∃ fs, run (step cfg) t' fs = some u) : t.drawn.length < 2 ^ 32 := by
    obtain ⟨fs, hfs⟩ := hend
    have := length_drawn_le_of_run (run_cons_eq_some.mpr ⟨t', ht, hfs⟩)
    omega
  -- as long as `s` has not been reported it is in the map
  refine everyState_iff_everyStep (I := fun t => Tracked t ∧
      c.timeouts.count s ≤ t.timeouts.count s ∧
      (t.timeouts.count s = c.timeouts.count s → t.responses.responseMap s = some x))
    rfl ⟨h, Nat.le_refl _, fun _ => hmap⟩ ?_ ?_ hrun
  · rintro t e t' - hend ⟨htracked, hle, hkept⟩ ht
    have hgrow : t.timeouts.count s ≤ t'.timeouts.count s := by
      rw [step_timeouts ht, List.count_append]
      omega
    refine ⟨htracked.step (hbound ht hend) ht, by omega, fun heq => ?_⟩
    have hmap' := hkept (by omega)
    refine responseMap_step htracked (hbound ht hend) hmap' ht ?_
    exact (count_timeouts_step htracked hon hmap' ht).mp (by omega)
  · rintro t e t' - hend ⟨htracked, -, hkept⟩ hP ht
    rw [← hP]
    exact count_timeouts_step htracked hon (hkept hP) ht

/-- **Timeouts of answered requests.** In a run in which fewer than 2^32 sequence numbers are drawn,
no request is reported as timed out after it has been answered in time, exactly when no sweep runs
at or after the expiry of a request answered in time, or nobody listens. -/
theorem noTimeoutAfterAnswer_iff (cfg : ClientConfig) (es : List Event) (u : Client)
    (hrun : run (step cfg) {} es = some u) (hfew : u.drawn.length < 2 ^ 32) :
    NoTimeoutAfterAnswer cfg es ↔ NoSweepAfterAnswer cfg es := by
  refine forall₅_congr fun pre e post c c' => forall₂_congr fun s x => ?_
  refine forall₄_congr fun hes hpre hstep hanswers => ?_
  obtain ⟨c₁, hc₁, hrest⟩ := run_append_eq_some.mp (hes ▸ hrun)
  obtain rfl : c = c₁ := Option.some.inj (hpre.symm.trans hc₁)
  obtain ⟨c₂, hc₂, hpost⟩ := run_cons_eq_some.mp hrest
  obtain rfl : c' = c₂ := Option.some.inj (hstep.symm.trans hc₂)
  have hle := length_drawn_le_of_run hrest
  have htracked := tracked_of_run hpre (by omega)
  obtain ⟨⟨bs, n, rfl, -⟩, -, -, hmap, -⟩ := hanswers
  have hmap' := responseMap_step htracked (by omega) hmap hstep (by simp)
  cases hon : cfg.onTimeout with
  | true =>
    have hiff := noTimeout_iff (htracked.step (by omega) hstep) hmap' hon hpost hfew
    simpa using hiff
  | false =>
    refine iff_of_true ?_ (by simp)
    refine EveryStep.everyState (C := fun _ _ => True) (fun _ _ _ _ _ _ => trivial) rfl ?_
    rintro t e t' - hP ht
    rw [step_timeouts ht, if_neg (by simp [hon]), List.append_nil, hP]

/-- A request is sent and the header of its response received. -/
def requested : List Event :=
  [.connect 0, .connectDone false, .sendRequest [] 0, .runPosted, .writeDone false,
    .readDone (Packet.header ⟨0x82, 0, 1, []⟩)]

/-- The request is answered at once and the client closed before the request expires. -/
theorem noTimeoutAfterAnswer_iff_closed :
    NoTimeoutAfterAnswer tenMs (requested ++ [.readDone [], .tick (millis 5), .close,
      .tick (millis 5), .timerAborted .response]) := by
  refine (noTimeoutAfterAnswer_iff _ _ _ rfl (by decide)).mpr ?_
  rintro pre e post c c' s x hes - - - - pre' e' post' t rfl - rfl
  have hmem : Event.timerDue .response ∈ pre ++ e :: (pre' ++ .timerDue .response :: post') := by
    simp
  rw [← hes] at hmem
  exact absurd hmem (by decide)

/-- The request is answered at once, and its timeout is reported 10 ms later. -/
theorem answered_request_times_out :
    ¬ NoTimeoutAfterAnswer tenMs (requested ++ [.readDone [], .tick (millis 10),
      .expire .response, .timerDue .response]) := by
  intro h
  have hafter := h requested (.readDone [])
    [.tick (millis 10), .expire .response, .timerDue .response] _ _ 1 (millis 10) rfl rfl rfl
    ⟨⟨[], 0, rfl, rfl⟩, by decide, by decide, by decide, by decide⟩
  exact absurd (hafter.last rfl) (by decide)

end Client

end TurboNet
