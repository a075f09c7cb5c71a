import TurboNet.Common.Lists
import TurboNet.Common.Table
import TurboNet.Smpp.Session

/-!
# Responses and timeouts of an SMPP session

Reference: `new_chatgpt/main.cpp`, `SmppSession::send_pdu`, `SmppSession::parse_pdu`.

`Exchange.step` runs a session with its timers: PDUs are sent and come in, time passes, waits expire
and their handlers run, in any order. All of it runs on the strand, so a call of `send_pdu` is one
step. `parse_pdu` erases the number of a response from `pending_timers_` and cancels its timer; if
the wait has expired by then, its handler is still to run, and it does not look the number up before
it calls `on_timeout`.

A number goes through the phases of `Phase`, and the invariant says of every assigned number which
phase it is in.
-/

namespace TurboNet.Smpp

open Common

structure Exchange where
  now : ℕ := 0
  session : Session
  /-- `on_timeout` is set. -/
  onTimeout : Bool
  /-- History: the numbers assigned by `send_pdu`. -/
  assigned : List UInt32 := []
  /-- History: the numbers of the PDUs passed to `on_response`. -/
  responses : List UInt32 := []
  /-- History: the numbers `on_timeout` was called with. -/
  timeouts : List UInt32 := []

namespace Exchange

inductive Event where
  | sendPdu (timeout : ℕ)
  | parsePdu (pdu : SmppPdu)
  | tick (d : ℕ)
  /-- The wait of the `i`-th timer expires. -/
  | expire (i : ℕ)
  /-- The handler of the `i`-th timer runs, without an error or with one. -/
  | timerDue (i : ℕ)
  | timerAborted (i : ℕ)
deriving DecidableEq, Repr

def setTimer (t : Exchange) (i : ℕ) (timer : Timer UInt32) : Exchange :=
  { t with session := { t.session with timers := t.session.timers.set i timer } }

/-- The handler of the wait in `send_pdu`. -/
def onWait (t : Exchange) (ec : Bool) (seq : UInt32) : Exchange :=
  if ec then t
  else
    { t with
      session := { t.session with pendingTimers := t.session.pendingTimers.erase seq }
      timeouts := if t.onTimeout then t.timeouts ++ [seq] else t.timeouts }

/-- `parse_pdu`, with what it calls. -/
def receive (t : Exchange) (pdu : SmppPdu) : Exchange :=
  { t with
    session := (t.session.parsePdu pdu).1
    responses :=
      if (t.session.parsePdu pdu).2 = some .onResponse then t.responses ++ [pdu.sequenceNumber]
      else t.responses }

def step (t : Exchange) : Event → Option Exchange
  | .sendPdu timeout =>
    some { t with
      session := t.session.sendPdu t.now timeout
      assigned := t.assigned ++ [t.session.seq] }
  | .parsePdu pdu => some (t.receive pdu)
  | .tick d => some { t with now := t.now + d }
  | .expire i =>
    t.session.timers[i]?.bind fun timer => (timer.expire t.now).map (t.setTimer i)
  | .timerDue i =>
    t.session.timers[i]?.bind fun timer =>
      timer.takeDue.map fun (seq, timer) => (t.setTimer i timer).onWait false seq
  | .timerAborted i =>
    t.session.timers[i]?.bind fun timer =>
      timer.takeAborted.map fun (seq, timer) => (t.setTimer i timer).onWait true seq

/-- The session before it has sent anything. -/
def init (onRequest onResponse onTimeout : Bool) : Exchange where
  session := { onRequest := onRequest, onResponse := onResponse }
  onTimeout := onTimeout

/-- For each number at most one of the two callbacks has been called, and at most once. -/
def AnsweredOrTimedOut (t : Exchange) : Prop :=
  ∀ s, t.responses.count s + t.timeouts.count s ≤ 1

/-- The number whose expired wait has its handler at the `i`-th timer. -/
def dueNumber (t : Exchange) (i : ℕ) : Option UInt32 :=
  t.session.timers[i]?.bind fun timer => timer.due.head?

/-- The event is not the handler of an expired wait whose number is no longer in
`pending_timers_`. It does no harm if one of the callbacks is not set. -/
def HandlerInTable (t : Exchange) : Event → Prop
  | .timerDue i =>
    ∀ seq ∈ t.dueNumber i, t.session.onResponse = true → t.onTimeout = true →
      t.session.pendingTimers.contains seq = true
  | _ => True

instance (t : Exchange) : (e : Event) → Decidable (HandlerInTable t e)
  | .timerDue i => Option.decidableForallMem (t.dueNumber i)
  | .sendPdu _ | .parsePdu _ | .tick _ | .expire _ | .timerAborted _ => isTrue trivial

/-! ## The phases of a number -/

/-- Where a number is: its request waits, the wait has expired, it was answered before that or
after it, it has timed out, or both. -/
inductive Phase where
  | waiting (deadline : ℕ)
  | due
  /-- Answered while waiting; the aborted handler has not run yet. -/
  | cancelled
  | answered
  /-- Answered after the wait had expired; the handler has not run yet. -/
  | answeredDue
  | timedOut
  | both
deriving DecidableEq, Repr

namespace Phase

/-- The timer of the number. -/
def timer (s : UInt32) : Phase → Timer UInt32
  | .waiting deadline => { wait := some (deadline, s) }
  | .due | .answeredDue => { due := [s] }
  | .cancelled => { aborted := [s] }
  | .answered | .timedOut | .both => {}

/-- The number is in `pending_timers_`. -/
def pending : Phase → Bool
  | .waiting _ | .due => true
  | _ => false

def isAnswered : Phase → Bool
  | .cancelled | .answered | .answeredDue | .both => true
  | _ => false

def isTimedOut : Phase → Bool
  | .timedOut | .both => true
  | _ => false

end Phase

/-- The number `s`, assigned by the `i`-th call of `send_pdu`, is in this phase. -/
structure At (t : Exchange) (i : ℕ) (s : UInt32) (ph : Phase) : Prop where
  timer : t.session.timers[i]? = some (ph.timer s)
  pending : t.session.pendingTimers[s]? = if ph.pending then some i else none
  responses : t.responses.count s = if ph.isAnswered && t.session.onResponse then 1 else 0
  timeouts : t.timeouts.count s = if ph.isTimedOut && t.onTimeout then 1 else 0

/-- Every assigned number is in some phase, and nothing is known of any other. -/
structure Phased (t : Exchange) : Prop where
  length : t.session.timers.length = t.assigned.length
  nodup : t.assigned.Nodup
  phase : ∀ i s, t.assigned[i]? = some s → ∃ ph, At t i s ph
  pending : ∀ s ∉ t.assigned, t.session.pendingTimers[s]? = none
  responses : ∀ s ∉ t.assigned, t.responses.count s = 0
  timeouts : ∀ s ∉ t.assigned, t.timeouts.count s = 0

/-- No number has been assigned at the start. -/
theorem Phased.init (onRequest onResponse onTimeout : Bool) :
    Phased (init onRequest onResponse onTimeout) where
  length := rfl
  nodup := List.nodup_nil
  phase := by simp [Exchange.init]
  pending := by simp [Exchange.init]
  responses := by simp [Exchange.init]
  timeouts := by simp [Exchange.init]

/-! ## One number moves on -/

/-- How often the callbacks have been called for a number in this phase. -/
theorem Phase.calls_le_one_iff (ph : Phase) (onResponse onTimeout : Bool) :
    (if ph.isAnswered && onResponse then 1 else 0) + (if ph.isTimedOut && onTimeout then 1 else 0)
      ≤ 1 ↔ (onResponse = true → onTimeout = true → ph ≠ .both) := by
  cases ph <;> cases onResponse <;> cases onTimeout <;> simp [isAnswered, isTimedOut]

/-- From `t` to `t'` the number `s`, assigned by the `i`-th call, has come into phase `ph`, and
nothing has happened to any other. -/
structure Moves (t : Exchange) (i : ℕ) (s : UInt32) (ph : Phase) (t' : Exchange) : Prop where
  assigned : t'.assigned = t.assigned
  onResponse : t'.session.onResponse = t.session.onResponse
  onTimeout : t'.onTimeout = t.onTimeout
  timers : t'.session.timers = t.session.timers.set i (ph.timer s)
  pending : ∀ s' ≠ s, t'.session.pendingTimers[s']? = t.session.pendingTimers[s']?
  responses : ∀ s' ≠ s, t'.responses.count s' = t.responses.count s'
  timeouts : ∀ s' ≠ s, t'.timeouts.count s' = t.timeouts.count s'
  self : At t' i s ph

/-- Every other number stays in its phase. -/
theorem Moves.at_of_ne {t t' : Exchange} {i i' : ℕ} {s s' : UInt32} {ph ph' : Phase}
    (h : Moves t i s ph t') (hi : i' ≠ i) (hs : s' ≠ s) (hat : At t i' s' ph') :
    At t' i' s' ph' where
  timer := by rw [h.timers, List.getElem?_set_ne hi.symm, hat.timer]
  pending := by rw [h.pending s' hs, hat.pending]
  responses := by rw [h.responses s' hs, h.onResponse, hat.responses]
  timeouts := by rw [h.timeouts s' hs, h.onTimeout, hat.timeouts]

/-- When one number moves to a phase, all are still in one. -/
theorem Phased.moves {t t' : Exchange} {i : ℕ} {s : UInt32} {ph : Phase} (h : Phased t)
    (hi : t.assigned[i]? = some s) (hmoves : Moves t i s ph t') : Phased t' := by
  have hs : s ∈ t.assigned := List.mem_of_getElem? hi
  have hne {s' : UInt32} (hs' : s' ∉ t'.assigned) : s' ≠ s := by
    rintro rfl
    exact hs' (hmoves.assigned ▸ hs)
  refine ⟨?_, hmoves.assigned ▸ h.nodup, fun i' s' hi' => ?_, fun s' hs' => ?_, fun s' hs' => ?_,
    fun s' hs' => ?_⟩
  · rw [hmoves.timers, List.length_set, hmoves.assigned, h.length]
  · rw [hmoves.assigned] at hi'
    by_cases heq : i' = i
    · subst heq
      obtain rfl : s = s' := Option.some.inj (hi.symm.trans hi')
      exact ⟨ph, hmoves.self⟩
    · obtain ⟨ph', hat⟩ := h.phase i' s' hi'
      have hseq : s' ≠ s := by
        rintro rfl
        obtain ⟨hlt, -⟩ := List.getElem?_eq_some_iff.mp hi'
        exact heq ((List.getElem?_inj hlt h.nodup).mp (hi'.trans hi.symm))
      exact ⟨ph', hmoves.at_of_ne heq hseq hat⟩
  · rw [hmoves.pending s' (hne hs'), h.pending s' (hmoves.assigned ▸ hs')]
  · rw [hmoves.responses s' (hne hs'), h.responses s' (hmoves.assigned ▸ hs')]
  · rw [hmoves.timeouts s' (hne hs'), h.timeouts s' (hmoves.assigned ▸ hs')]

/-- Both callbacks are called for a number if and only if it moves into the last phase. -/
theorem Moves.answeredOrTimedOut_iff {t t' : Exchange} {i : ℕ} {s : UInt32} {ph : Phase}
    (hmoves : Moves t i s ph t') (h : t.AnsweredOrTimedOut) :
    t'.AnsweredOrTimedOut ↔
      (t.session.onResponse = true → t.onTimeout = true → ph ≠ .both) := by
  rw [← Phase.calls_le_one_iff, ← hmoves.onResponse, ← hmoves.onTimeout, ← hmoves.self.responses,
    ← hmoves.self.timeouts]
  refine ⟨fun h' => h' s, fun hle s' => ?_⟩
  by_cases hs : s' = s
  · rw [hs]
    exact hle
  · rw [hmoves.responses s' hs, hmoves.timeouts s' hs]
    exact h s'

/-! ## What a step does -/

/-- What a step can do to the numbers. Only the handler of an expired wait can bring one into the
last phase. -/
inductive Acts (t : Exchange) : Event → Exchange → Prop where
  | send (timeout : ℕ) :
    Acts t (.sendPdu timeout)
      { t with
        session := t.session.sendPdu t.now timeout
        assigned := t.assigned ++ [t.session.seq] }
  | move (e : Event) (i : ℕ) (s : UInt32) (ph : Phase) (t' : Exchange)
    (hi : t.assigned[i]? = some s) (hmoves : Moves t i s ph t')
    (hiff : (t.session.onResponse = true → t.onTimeout = true → ph ≠ .both) ↔
      HandlerInTable t e) : Acts t e t'
  | same (e : Event) (t' : Exchange) (hsession : t'.session = t.session)
    (honTimeout : t'.onTimeout = t.onTimeout) (hassigned : t'.assigned = t.assigned)
    (hresponses : t'.responses = t.responses) (htimeouts : t'.timeouts = t.timeouts)
    (hcond : HandlerInTable t e) : Acts t e t'

/-- The timer at a place belongs to an assigned number. -/
theorem Phased.exists_at {t : Exchange} (h : Phased t) {i : ℕ} {timer : Timer UInt32}
    (htimer : t.session.timers[i]? = some timer) :
    ∃ s ph, t.assigned[i]? = some s ∧ At t i s ph ∧ timer = ph.timer s := by
  obtain ⟨hlt, -⟩ := List.getElem?_eq_some_iff.mp htimer
  rw [h.length] at hlt
  have hi : t.assigned[i]? = some t.assigned[i] := List.getElem?_eq_getElem hlt
  obtain ⟨ph, hat⟩ := h.phase i _ hi
  exact ⟨_, ph, hi, hat, Option.some.inj (htimer.symm.trans hat.timer)⟩

/-- A number of `pending_timers_` is an assigned one that waits or is due. -/
theorem Phased.exists_pending {t : Exchange} (h : Phased t) {i : ℕ} {s : UInt32}
    (hpending : t.session.pendingTimers[s]? = some i) :
    ∃ ph, t.assigned[i]? = some s ∧ At t i s ph ∧ ph.pending = true := by
  have hs : s ∈ t.assigned := by
    by_contra hs
    simp [h.pending s hs] at hpending
  obtain ⟨i', hi'⟩ := List.mem_iff_getElem?.mp hs
  obtain ⟨ph, hat⟩ := h.phase i' s hi'
  rw [hat.pending] at hpending
  split at hpending
  · rename_i hph
    obtain rfl := Option.some.inj hpending
    exact ⟨ph, hi', hat, hph⟩
  · exact absurd hpending (by simp)

/-- Every number has a timer. -/
theorem lt_timers_length {t : Exchange} {i : ℕ} {s : UInt32} {ph : Phase} (hat : At t i s ph) :
    i < t.session.timers.length := (List.getElem?_eq_some_iff.mp hat.timer).1

/-- A response cancels the timer of its number, which may be too late. -/
theorem moves_receive {t : Exchange} {pdu : SmppPdu} {i : ℕ} {ph : Phase}
    (hpending : t.session.pendingTimers[pdu.sequenceNumber]? = some i)
    (hat : At t i pdu.sequenceNumber ph) (hph : ph.pending = true) :
    Moves t i pdu.sequenceNumber (if ph = .due then .answeredDue else .cancelled)
      (t.receive pdu) := by
  have hsession : (t.receive pdu).session = { t.session with
      timers := t.session.timers.modify i Timer.cancel
      pendingTimers := t.session.pendingTimers.erase pdu.sequenceNumber } := by
    rw [receive, Session.parsePdu, hpending]
  have hresponses : (t.receive pdu).responses =
      t.responses ++ if t.session.onResponse then [pdu.sequenceNumber] else [] := by
    rw [receive, Session.parsePdu, hpending]
    cases t.session.onResponse <;> simp
  -- a wait that has expired has its handler due all the same
  have hcancel : (ph.timer pdu.sequenceNumber).cancel =
      (if ph = .due then Phase.answeredDue else .cancelled).timer pdu.sequenceNumber := by
    cases ph with
    | waiting deadline => rfl
    | due => rfl
    | _ => simp [Phase.pending] at hph
  have htimers : (t.receive pdu).session.timers = t.session.timers.set i
      ((if ph = .due then Phase.answeredDue else .cancelled).timer pdu.sequenceNumber) := by
    rw [hsession, ← hcancel]
    exact modify_eq_set_of_some hat.timer _
  refine ⟨rfl, by rw [hsession], rfl, htimers, fun s' hs' => ?_, fun s' hs' => ?_,
    fun s' _ => rfl, ?_, ?_, ?_, ?_⟩
  · rw [hsession]
    exact getElem?_erase_of_ne _ hs'
  · rw [hresponses, List.count_append]
    split <;> simp [hs'.symm]
  · rw [htimers, List.getElem?_set_self (lt_timers_length hat)]
  · rw [hsession]
    split <;> simp [Phase.pending]
  · rw [hresponses, List.count_append, hat.responses, hsession]
    cases ph with
    | waiting deadline => cases t.session.onResponse <;> simp [Phase.isAnswered]
    | due => cases t.session.onResponse <;> simp [Phase.isAnswered]
    | _ => simp [Phase.pending] at hph
  · change t.timeouts.count _ = _
    rw [hat.timeouts]
    cases ph with
    | waiting deadline => rfl
    | due => rfl
    | _ => simp [Phase.pending] at hph

/-- The timer of a number moves on, and nothing else happens. -/
theorem moves_setTimer {t : Exchange} {i : ℕ} {s : UInt32} {ph ph' : Phase} (hat : At t i s ph)
    (hpending : ph'.pending = ph.pending) (hanswered : ph'.isAnswered = ph.isAnswered)
    (htimedOut : ph'.isTimedOut = ph.isTimedOut) :
    Moves t i s ph' (t.setTimer i (ph'.timer s)) where
  assigned := rfl
  onResponse := rfl
  onTimeout := rfl
  timers := rfl
  pending _ _ := rfl
  responses _ _ := rfl
  timeouts _ _ := rfl
  self :=
    { timer := List.getElem?_set_self (lt_timers_length hat)
      pending := by rw [hpending]; exact hat.pending
      responses := by rw [hanswered]; exact hat.responses
      timeouts := by rw [htimedOut]; exact hat.timeouts }

/-- The handler of an expired wait makes a timeout of its number, whether it was answered or
not. -/
theorem moves_onWait {t : Exchange} {i : ℕ} {s : UInt32} {ph : Phase} (hat : At t i s ph)
    (hdue : ph = .due ∨ ph = .answeredDue) :
    Moves t i s (if ph = .due then .timedOut else .both) ((t.setTimer i {}).onWait false s) := by
  have htimeouts : ((t.setTimer i {}).onWait false s).timeouts =
      t.timeouts ++ if t.onTimeout then [s] else [] := by
    change (if t.onTimeout then t.timeouts ++ [s] else t.timeouts) = _
    split <;> simp
  have htimer : (if ph = .due then Phase.timedOut else .both).timer s = {} := by
    split <;> rfl
  refine ⟨rfl, rfl, rfl, by rw [htimer]; rfl, fun s' hs' => ?_, fun _ _ => rfl, fun s' hs' => ?_,
    ?_, ?_, ?_, ?_⟩
  · exact getElem?_erase_of_ne _ hs'
  · rw [htimeouts, List.count_append]
    split <;> simp [hs'.symm]
  · rw [htimer]
    exact List.getElem?_set_self (lt_timers_length hat)
  · refine (Std.TreeMap.getElem?_erase_self).trans ?_
    split <;> rfl
  · refine hat.responses.trans ?_
    obtain rfl | rfl := hdue <;> rfl
  · rw [htimeouts, List.count_append, hat.timeouts]
    obtain rfl | rfl := hdue <;>
      cases honTimeout : t.onTimeout <;>
      simp [Phase.isTimedOut, onWait, setTimer, honTimeout]

/-- A handler can run when the wait has expired, before or after the answer. -/
theorem Phase.takeDue_timer {ph : Phase} {s seq : UInt32} {timer : Timer UInt32}
    (h : (ph.timer s).takeDue = some (seq, timer)) :
    (ph = .due ∨ ph = .answeredDue) ∧ seq = s ∧ timer = {} := by
  cases ph with
  | due =>
    obtain ⟨rfl, rfl⟩ := Prod.mk.inj (Option.some.inj h)
    exact ⟨.inl rfl, rfl, rfl⟩
  | answeredDue =>
    obtain ⟨rfl, rfl⟩ := Prod.mk.inj (Option.some.inj h)
    exact ⟨.inr rfl, rfl, rfl⟩
  | _ => simp [Phase.timer, Timer.takeDue] at h

/-- The number is still in the table exactly when it has not been answered. -/
theorem At.handlerInTable_iff {t : Exchange} {i : ℕ} {s : UInt32} {ph : Phase} (hat : At t i s ph)
    (hph : ph = .due ∨ ph = .answeredDue) :
    (t.session.onResponse = true → t.onTimeout = true → ph = .due) ↔
      HandlerInTable t (.timerDue i) := by
  have hnumber : t.dueNumber i = some s := by
    rw [dueNumber, hat.timer]
    obtain rfl | rfl := hph <;> rfl
  have hcontains : t.session.pendingTimers.contains s = true ↔ ph = .due := by
    rw [Std.TreeMap.contains_eq_isSome_getElem?, hat.pending]
    obtain rfl | rfl := hph <;> simp [Phase.pending]
  rw [← hcontains, HandlerInTable, hnumber]
  simp

/-- What a step does to the numbers is one of the listed acts. -/
theorem acts_of_step {t t' : Exchange} {e : Event} (h : Phased t) (hstep : step t e = some t') :
    Acts t e t' := by
  cases e with
  | sendPdu timeout =>
    obtain rfl := Option.some.inj hstep
    exact .send timeout
  | parsePdu pdu =>
    obtain rfl := Option.some.inj hstep
    cases hpending : t.session.pendingTimers[pdu.sequenceNumber]? with
    | some i =>
      obtain ⟨ph, hi, hat, hph⟩ := h.exists_pending hpending
      refine .move _ i _ _ _ hi (moves_receive hpending hat hph) (iff_of_true ?_ trivial)
      intro _ _
      split <;> simp
    | none =>
      have hparse : t.session.parsePdu pdu =
          (t.session, if t.session.onRequest then some .onRequest else none) := by
        rw [Session.parsePdu, hpending]
      refine .same _ _ ?_ rfl rfl ?_ rfl trivial
      · rw [receive, hparse]
      · rw [receive, hparse]
        cases t.session.onRequest <;> simp
  | tick d =>
    obtain rfl := Option.some.inj hstep
    exact .same _ _ rfl rfl rfl rfl rfl trivial
  | expire i =>
    obtain ⟨timer, htimer, hmap⟩ := Option.bind_eq_some_iff.mp hstep
    obtain ⟨timer', hexpire, rfl⟩ := Option.map_eq_some_iff.mp hmap
    obtain ⟨s, ph, hi, hat, rfl⟩ := h.exists_at htimer
    obtain ⟨deadline, a, hwait, rfl⟩ := Timer.expire_eq_some hexpire
    cases ph with
    | waiting deadline' =>
      obtain ⟨-, rfl⟩ := Prod.mk.inj (Option.some.inj hwait)
      refine .move _ i s .due _ hi (moves_setTimer hat rfl rfl rfl) (iff_of_true ?_ trivial)
      simp
    | _ => simp [Phase.timer] at hwait
  | timerDue i =>
    obtain ⟨timer, htimer, hmap⟩ := Option.bind_eq_some_iff.mp hstep
    obtain ⟨⟨seq, timer'⟩, hdue, rfl⟩ := Option.map_eq_some_iff.mp hmap
    obtain ⟨s, ph, hi, hat, rfl⟩ := h.exists_at htimer
    obtain ⟨hph, rfl, rfl⟩ := Phase.takeDue_timer hdue
    refine .move _ i seq _ _ hi (moves_onWait hat hph) ?_
    -- the handler of an expired wait brings a number that has been answered into the last phase
    have hnext : (if ph = .due then Phase.timedOut else .both) ≠ .both ↔ ph = .due := by
      split <;> simp [*]
    rw [hnext]
    exact hat.handlerInTable_iff hph
  | timerAborted i =>
    obtain ⟨timer, htimer, hmap⟩ := Option.bind_eq_some_iff.mp hstep
    obtain ⟨⟨seq, timer'⟩, haborted, rfl⟩ := Option.map_eq_some_iff.mp hmap
    obtain ⟨s, ph, hi, hat, rfl⟩ := h.exists_at htimer
    cases ph with
    | cancelled =>
      obtain ⟨rfl, rfl⟩ := Prod.mk.inj (Option.some.inj haborted)
      refine .move _ i s .answered _ hi (moves_setTimer hat rfl rfl rfl) (iff_of_true ?_ trivial)
      simp
    | _ => simp [Phase.timer, Timer.takeAborted] at haborted

/-- A new number leaves the timers of the others. -/
theorem getElem?_insertIfNew_of_ne (m : Std.TreeMap UInt32 ℕ) {s s' : UInt32} (hs : s' ≠ s)
    (i : ℕ) : (m.insertIfNew s i)[s']? = m[s']? := by
  rw [Std.TreeMap.getElem?_insertIfNew, if_neg]
  rintro ⟨hcompare, -⟩
  exact hs.symm (Std.compare_eq_iff_eq.mp hcompare)

/-- A new number waits. -/
theorem Phased.send {t : Exchange} (h : Phased t) (timeout : ℕ)
    (hnew : t.session.seq ∉ t.assigned) :
    Phased { t with
      session := t.session.sendPdu t.now timeout
      assigned := t.assigned ++ [t.session.seq] } := by
  have hnone := h.pending _ hnew
  have hcontains : t.session.pendingTimers.contains t.session.seq = false := by
    rw [Std.TreeMap.contains_eq_isSome_getElem?, hnone]
    rfl
  have htimers : (t.session.sendPdu t.now timeout).timers =
      t.session.timers ++ [(Phase.waiting (t.now + timeout)).timer t.session.seq] := by
    simp only [Session.sendPdu, hcontains]
    rfl
  have hother {s : UInt32} (hs : s ≠ t.session.seq) :
      (t.session.sendPdu t.now timeout).pendingTimers[s]? = t.session.pendingTimers[s]? :=
    getElem?_insertIfNew_of_ne _ hs _
  have hold {s : UInt32} (hs : s ∉ t.assigned ++ [t.session.seq]) :
      s ∉ t.assigned ∧ s ≠ t.session.seq := by
    simpa [not_or] using hs
  refine ⟨?_, ?_, fun i s hi => ?_, fun s hs => ?_, fun s hs => h.responses s (hold hs).1,
    fun s hs => h.timeouts s (hold hs).1⟩
  · rw [htimers, List.length_append, List.length_append, h.length]
    rfl
  · refine List.nodup_append.mpr ⟨h.nodup, by simp, ?_⟩
    rintro s hs _ hs' rfl
    exact hnew (List.mem_singleton.mp hs' ▸ hs)
  · -- the calls before this one keep their numbers, and the new one waits
    rcases Nat.lt_or_ge i t.assigned.length with hlt | hge
    · rw [List.getElem?_append_left hlt] at hi
      obtain ⟨ph, hat⟩ := h.phase i s hi
      have hs : s ≠ t.session.seq := by
        rintro rfl
        exact hnew (List.mem_of_getElem? hi)
      refine ⟨ph, ?_, (hother hs).trans hat.pending, hat.responses, hat.timeouts⟩
      rw [htimers]
      exact getElem?_append_of_some hat.timer _
    · rw [List.getElem?_append_right hge] at hi
      obtain ⟨hlast, rfl⟩ := List.getElem?_eq_some_iff.mp hi
      rw [List.length_singleton] at hlast
      obtain rfl : i = t.assigned.length := by omega
      simp only [Nat.sub_self, List.getElem_cons_zero]
      refine ⟨.waiting (t.now + timeout), ?_, ?_, ?_, ?_⟩
      · rw [htimers, ← h.length, List.getElem?_concat_length]
      · simp only [Session.sendPdu, Phase.pending, ↓reduceIte, ← h.length]
        rw [Std.TreeMap.getElem?_insertIfNew, if_pos]
        refine ⟨Std.ReflCmp.compare_self, ?_⟩
        rw [← Std.TreeMap.contains_iff_mem, hcontains]
        simp
      · exact h.responses _ hnew
      · exact h.timeouts _ hnew
  · exact (hother (hold hs).2).trans (h.pending s (hold hs).1)

/-- Every step keeps each number in a phase, while the numbers are different. -/
theorem Phased.step {t t' : Exchange} {e : Event} (h : Phased t) (hnodup : t'.assigned.Nodup)
    (hstep : step t e = some t') : Phased t' := by
  cases acts_of_step h hstep with
  | send timeout =>
    refine h.send timeout fun hmem => ?_
    exact (List.nodup_append.mp hnodup).2.2 _ hmem _ (List.mem_singleton_self _) rfl
  | move e i s ph t' hi hmoves hiff => exact h.moves hi hmoves
  | same e t' hsession honTimeout hassigned hresponses htimeouts hcond =>
    refine ⟨by rw [hsession, hassigned, h.length], hassigned ▸ h.nodup, fun i s hi => ?_, ?_, ?_,
      ?_⟩
    · rw [hassigned] at hi
      obtain ⟨ph, hat⟩ := h.phase i s hi
      exact ⟨ph, by rw [hsession, hat.timer], by rw [hsession, hat.pending],
        by rw [hresponses, hsession, hat.responses], by rw [htimeouts, honTimeout, hat.timeouts]⟩
    · rw [hassigned, hsession]
      exact h.pending
    · rw [hassigned, hresponses]
      exact h.responses
    · rw [hassigned, htimeouts]
      exact h.timeouts

/-- A step keeps the callbacks apart exactly when it is not a handler whose number is gone. -/
theorem answeredOrTimedOut_step {t t' : Exchange} {e : Event} (h : Phased t)
    (hP : t.AnsweredOrTimedOut) (hstep : step t e = some t') :
    t'.AnsweredOrTimedOut ↔ HandlerInTable t e := by
  cases acts_of_step h hstep with
  | send timeout => exact iff_of_true hP trivial
  | move e i s ph t' hi hmoves hiff => rw [hmoves.answeredOrTimedOut_iff hP, hiff]
  | same e t' hsession honTimeout hassigned hresponses htimeouts hcond =>
    refine iff_of_true ?_ hcond
    rw [AnsweredOrTimedOut, hresponses, htimeouts]
    exact hP

/-- Numbers that have been assigned stay so. -/
theorem assigned_prefix_of_run {t u : Exchange} {es : List Event}
    (hrun : run step t es = some u) : t.assigned <+: u.assigned := by
  refine run_induction (P := fun t' => t.assigned <+: t'.assigned) (List.prefix_refl _) ?_ hrun
  intro t₁ e t₂ hinitial hstep
  cases e with
  | sendPdu timeout =>
    obtain rfl := Option.some.inj hstep
    exact hinitial.trans (List.prefix_append _ _)
  | parsePdu pdu =>
    obtain rfl := Option.some.inj hstep
    exact hinitial
  | tick d =>
    obtain rfl := Option.some.inj hstep
    exact hinitial
  | expire i =>
    obtain ⟨timer, -, hmap⟩ := Option.bind_eq_some_iff.mp hstep
    obtain ⟨timer', -, rfl⟩ := Option.map_eq_some_iff.mp hmap
    exact hinitial
  | timerDue i =>
    obtain ⟨timer, -, hmap⟩ := Option.bind_eq_some_iff.mp hstep
    obtain ⟨⟨seq, timer'⟩, -, rfl⟩ := Option.map_eq_some_iff.mp hmap
    exact hinitial
  | timerAborted i =>
    obtain ⟨timer, -, hmap⟩ := Option.bind_eq_some_iff.mp hstep
    obtain ⟨⟨seq, timer'⟩, -, rfl⟩ := Option.map_eq_some_iff.mp hmap
    exact hinitial

/-- **Answered or timed out, never both.** In a run with pairwise distinct numbers, `on_response`
and `on_timeout` are together called at most once for each number, exactly when every handler of an
expired wait finds its number in `pending_timers_`, or one of the two callbacks is not set. -/
theorem neverBoth_iff (onRequest onResponse onTimeout : Bool) (es : List Event) (u : Exchange)
    (hrun : run step (init onRequest onResponse onTimeout) es = some u)
    (hdistinct : u.assigned.Nodup) :
    EveryState step (init onRequest onResponse onTimeout) es AnsweredOrTimedOut ↔
      EveryStep step (init onRequest onResponse onTimeout) es HandlerInTable := by
  refine everyState_iff_everyStep (I := Phased) (fun s => by simp [init])
    (Phased.init onRequest onResponse onTimeout) ?_ ?_ hrun
  · rintro t e t' - ⟨fs, hfs⟩ hphased hstep
    exact hphased.step (hdistinct.sublist (assigned_prefix_of_run hfs).sublist) hstep
  · intro t e t' _ _ hphased hP hstep
    exact answeredOrTimedOut_step hphased hP hstep

/-- A response with this number. -/
def responsePdu (seq : UInt32) : SmppPdu := ⟨16, bindTransceiverRespId, 0, seq, []⟩

/-- Of two requests one is answered in time and the other times out; its late answer is then taken
for a request. -/
theorem neverBoth_iff_two_requests :
    EveryState step (init true true true)
      [.sendPdu 30, .sendPdu 30, .tick 10, .parsePdu (responsePdu 1), .timerAborted 0, .tick 20,
        .expire 1, .timerDue 1, .parsePdu (responsePdu 2)] AnsweredOrTimedOut := by
  refine (neverBoth_iff true true true _ _ rfl ?_).mpr ?_
  · decide
  · decide

/-- The response comes when the wait has expired and its handler has not run: both callbacks are
called. -/
theorem response_and_timeout :
    ∃ u, run step (init true true true)
        [.sendPdu 30, .tick 30, .expire 0, .parsePdu (responsePdu 1), .timerDue 0] = some u ∧
      u.assigned.Nodup ∧ ¬ u.AnsweredOrTimedOut := by
  refine ⟨_, rfl, by decide, fun h => ?_⟩
  exact absurd (h 1) (by decide)

end Exchange

end TurboNet.Smpp
