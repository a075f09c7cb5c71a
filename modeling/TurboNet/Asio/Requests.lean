import Mathlib.Data.List.Nodup
import TurboNet.Asio.Client

/-!
# What becomes of a request of the asio client

Reference: `claude/asio_client.cpp`, `TcpClient::sendRequest`, `TcpClient::cancelRequest`,
`TcpClient::processPacket`, `TcpClient::checkTimeouts`, `TcpClient::handleDisconnect`.

Four functions take entries out of `pending_requests_`, each under the lock, and tell the
application after that. The account of a number says how often it has been entered into the table,
whether it is there now, and how often it has been reported: by `processPacket`, by
`timeout_callback_`, or by a `cancelRequest` that returned true. A number is never reported more
often than it was entered (`account_step`), and while fewer than 2^32 numbers are drawn it is
entered once at most (`numbered_step`).

So a request is resolved at most once and in one way (`resolved_once`). It is not always resolved:
`handleDisconnect` drops what is pending and tells nobody. `noneVanishes_iff` says that this, and an
answer to a request without a callback, are the only ways for a request to vanish.
-/

namespace TurboNet.Asio

open Common

namespace TcpClient

variable {clientId : List UInt8} {t t' : TcpClient} {e : Event}

/-! ## Numbers are drawn once -/

/-- The call has drawn the number `s` and has not failed. -/
def RequestCall.holds (s : UInt32) (c : RequestCall) : Bool :=
  decide (c.sequence = s) && decide (c.phase ≠ .checked) && decide (c.phase ≠ .failed)

/-- The call has entered the number `s` into `pending_requests_`. -/
def RequestCall.entered (s : UInt32) (c : RequestCall) : Bool :=
  decide (c.sequence = s) && (decide (c.phase = .registered) || decide (c.phase = .done))

/-- How many calls have drawn the number. -/
def holders (t : TcpClient) (s : UInt32) : ℕ := t.calls.countP (RequestCall.holds s)

/-- How many calls have entered the number. -/
def entries (t : TcpClient) (s : UInt32) : ℕ := t.calls.countP (RequestCall.entered s)

/-- A number that has been entered has been drawn. -/
theorem RequestCall.holds_of_entered {s : UInt32} {c : RequestCall} (h : c.entered s = true) :
    c.holds s = true := by
  simp only [RequestCall.entered, RequestCall.holds, Bool.and_eq_true, Bool.or_eq_true,
    decide_eq_true_eq] at h ⊢
  rcases h with ⟨hs, hphase | hphase⟩ <;> simp [hs, hphase]

/-- A number is entered no more often than it has been drawn. -/
theorem entries_le_holders (t : TcpClient) (s : UInt32) : t.entries s ≤ t.holders s :=
  List.countP_mono_left fun _ _ => RequestCall.holds_of_entered

/-- A number that has one more holder has just been drawn. -/
theorem holders_step (h : step clientId t e = some t') (s : UInt32) :
    t'.holders s ≤ t.holders s + if e.draws = 1 ∧ t.nextSequence = s then 1 else 0 := by
  -- a call that goes on holds its number if it has held it before
  have hset (k : ℕ) (c c' : RequestCall) (hcalls : t'.calls = t.calls.set k c')
      (hc : t.calls[k]? = some c) (himp : c'.holds s = true → c.holds s = true) :
      t'.holders s ≤ t.holders s := by
    have hcount := countP_set_add (b := c') (RequestCall.holds s) hc
    rw [holders, hcalls, holders]
    split at hcount
    · split at hcount <;> omega
    · rename_i hholds
      rw [if_neg fun hc' => hholds (himp hc')] at hcount
      omega
  cases (transition_of_step h).change with
  | same _ _ hcalls => rw [holders, hcalls, holders]; omega
  | call c _ _ hphase hcalls =>
    have hholds : c.holds s = false := by
      rcases hphase with hp | hp <;> simp [RequestCall.holds, hp]
    rw [holders, hcalls, List.countP_append, holders, List.countP_singleton, hholds]
    simp
  | draw k c _ hdraws hc hphase hcalls =>
    have hcount := countP_set_add (b := { c with sequence := t.nextSequence, phase := .drawn })
      (RequestCall.holds s) hc
    rw [holders, hcalls, holders]
    simp only [RequestCall.holds, hphase] at hcount
    simp only [hdraws, true_and]
    simp at hcount
    exact hcount.le
  | send k c phase _ _ hc hphase _ hcalls =>
    refine (hset k c _ hcalls hc fun hholds => ?_).trans (Nat.le_add_right _ _)
    simp only [RequestCall.holds, Bool.and_eq_true, decide_eq_true_eq] at hholds ⊢
    simp [hholds.1.1, hphase]
  | register k c _ _ _ hc hphase hcalls =>
    refine (hset k c _ hcalls hc fun hholds => ?_).trans (Nat.le_add_right _ _)
    simp only [RequestCall.holds, Bool.and_eq_true, decide_eq_true_eq] at hholds ⊢
    simp [hholds.1.1, hphase]
  | finish k c _ _ hc hphase hcalls =>
    refine (hset k c _ hcalls hc fun hholds => ?_).trans (Nat.le_add_right _ _)
    simp only [RequestCall.holds, Bool.and_eq_true, decide_eq_true_eq] at hholds ⊢
    simp [hholds.1.1, hphase]

/-- No two calls have the same number. -/
structure Numbered (t : TcpClient) : Prop where
  next : t.nextSequence = UInt32.ofNat (t.drawn + 1)
  bound : ∀ s, 0 < t.holders s → s.toNat ≤ t.drawn
  unique : ∀ s, t.holders s ≤ 1

/-- There are no calls at the start. -/
theorem numbered_start : Numbered {} where
  next := rfl
  bound s hs := absurd hs (by simp [holders])
  unique s := by simp [holders]

/-- The number that is drawn next, while there is one left. -/
theorem Numbered.toNat_nextSequence (hI : t.Numbered) (h : t.drawn + 1 < 2 ^ 32) :
    t.nextSequence.toNat = t.drawn + 1 := by
  rw [hI.next]
  exact UInt32.toNat_ofNat_of_lt' (by rwa [UInt32.size])

/-- As long as the counter has not gone round, a step draws a new number. -/
theorem Numbered.step (hI : t.Numbered) (h : step clientId t e = some t')
    (hdrawn : t'.drawn < 2 ^ 32) : t'.Numbered := by
  have htransition := transition_of_step h
  have hdrawn' := htransition.drawn
  -- the number that may be drawn now is new
  have hfresh (s : UInt32) (hdraws : e.draws = 1) (hs : t.nextSequence = s) :
      s.toNat = t.drawn + 1 ∧ t.holders s = 0 := by
    have hto : s.toNat = t.drawn + 1 := hs ▸ hI.toNat_nextSequence (by omega)
    refine ⟨hto, Nat.eq_zero_of_not_pos fun hpos => ?_⟩
    have hbound := hI.bound s hpos
    omega
  constructor
  · rw [htransition.nextSequence, hI.next, hdrawn', ← UInt32.ofNat_add]
    congr 1
    omega
  · intro s hpos
    have hle := holders_step h s
    split at hle
    · rename_i hdraw
      have := (hfresh s hdraw.1 hdraw.2).1
      omega
    · have := hI.bound s (by omega)
      omega
  · intro s
    have hle := holders_step h s
    have hone := hI.unique s
    split at hle
    · rename_i hdraw
      have := (hfresh s hdraw.1 hdraw.2).2
      omega
    · omega

/-- In a run numbers are drawn and never given back. -/
theorem drawn_run {u : TcpClient} {es : List Event} (h : run (step clientId) t es = some u) :
    t.drawn ≤ u.drawn := by
  refine run_induction (P := fun v => t.drawn ≤ v.drawn) le_rfl (fun v e v' hle hv => ?_) h
  have hdrawn := (transition_of_step hv).drawn
  omega

/-! ## The account of a number -/

/-- Whether the number is in `pending_requests_`, counted. -/
def present (t : TcpClient) (s : UInt32) : ℕ := if (t.pendingRequests[s]?).isSome then 1 else 0

/-- How often the number has been reported. -/
def outcomes (t : TcpClient) (s : UInt32) : ℕ :=
  t.completed.countP (fun x => decide (x.packet.header.sequence = s)) + t.timeouts.count s +
    t.cancelled.count s

/-- How often an event reports the number. -/
def reported (t : TcpClient) (e : Event) (s : UInt32) : ℕ :=
  (t.completes e).countP (fun x => decide (x.packet.header.sequence = s)) + (t.expires e).count s +
    (t.cancels e).count s

/-- The event enters the number, counted. -/
def enters (t : TcpClient) (e : Event) (s : UInt32) : ℕ :=
  if (t.inserts e).map Prod.fst = some s then 1 else 0

/-- A step adds the outcomes that it reports. -/
theorem outcomes_step (h : step clientId t e = some t') (s : UInt32) :
    t'.outcomes s = t.outcomes s + t.reported e s := by
  obtain ⟨-, -, hcompleted, htimeouts, hcancelled, -⟩ := transition_of_step h
  rw [outcomes, hcompleted, htimeouts, hcancelled, outcomes, reported, List.countP_append,
    List.count_append, List.count_append]
  omega

/-- A step adds the entry that it makes. -/
theorem entries_step (h : step clientId t e = some t') (s : UInt32) :
    t'.entries s = t.entries s + t.enters e s := by
  -- a call that goes on has entered its number if it had entered it before
  have hset (k : ℕ) (c c' : RequestCall) (hcalls : t'.calls = t.calls.set k c')
      (hc : t.calls[k]? = some c) (hinserts : t.inserts e = none)
      (hsame : c'.entered s = c.entered s) : t'.entries s = t.entries s + t.enters e s := by
    have hcount := countP_set_add (b := c') (RequestCall.entered s) hc
    rw [entries, hcalls, entries, enters, hinserts]
    rw [hsame] at hcount
    simpa using hcount
  cases (transition_of_step h).change with
  | same hinserts _ hcalls => rw [entries, hcalls, entries, enters, hinserts]; rfl
  | call c hinserts _ hphase hcalls =>
    have hentered : c.entered s = false := by
      rcases hphase with hp | hp <;> simp [RequestCall.entered, hp]
    rw [entries, hcalls, List.countP_append, List.countP_singleton, hentered, entries, enters,
      hinserts]
    rfl
  | draw k c hinserts _ hc hphase hcalls =>
    exact hset k c _ hcalls hc hinserts (by simp [RequestCall.entered, hphase])
  | send k c phase hinserts _ hc hphase hphase' hcalls =>
    refine hset k c _ hcalls hc hinserts ?_
    rcases hphase' with rfl | rfl <;> simp [RequestCall.entered, hphase]
  | register k c _ hinserts _ hc hphase hcalls =>
    have hcount := countP_set_add (b := { c with phase := .registered }) (RequestCall.entered s) hc
    rw [entries, hcalls, entries, enters, hinserts]
    simpa [RequestCall.entered, hphase] using hcount
  | finish k c hinserts _ hc hphase hcalls =>
    exact hset k c _ hcalls hc hinserts (by simp [RequestCall.entered, hphase])

/-- A number that is pending counts once. -/
theorem present_eq_one {s : UInt32} {r : PendingRequest} (h : t.pendingRequests[s]? = some r) :
    t.present s = 1 := by
  rw [present, h]
  rfl

/-- What is reported is taken out of the table, and nothing is entered. -/
theorem reported_cases (t : TcpClient) (e : Event) (s : UInt32) :
    t.reported e s = 0 ∨ t.reported e s = 1 ∧ t.present s = 1 ∧ s ∈ t.removes e ∧
      t.inserts e = none := by
  -- a packet, a sweep and a cancellation report; each takes out what it reports
  cases e with
  | processPacket p =>
    cases hr : t.takes p with
    | none => exact Or.inl (by simp [reported, completes, expires, cancels, hr])
    | some r =>
      by_cases hs : p.header.sequence = s
      · refine Or.inr ⟨?_, ?_, ?_, rfl⟩
        · simp [reported, completes, expires, cancels, hr, hs]
        · exact present_eq_one (hs ▸ (takes_eq_some hr).2)
        · simp [removes, hr, hs]
      · exact Or.inl (by simp [reported, completes, expires, cancels, hr, hs])
  | sweep =>
    by_cases hs : s ∈ t.expiredSequences
    · obtain ⟨r, hr, -⟩ := mem_keysWhere.mp hs
      refine Or.inr ⟨?_, present_eq_one hr, hs, rfl⟩
      have hcount : t.expiredSequences.count s = 1 :=
        List.count_eq_one_of_mem (nodup_keysWhere _ _) hs
      simpa [reported, completes, expires, cancels] using hcount
    · exact Or.inl (by simp [reported, completes, expires, cancels, List.count_eq_zero.mpr hs])
  | cancelRequest sequence =>
    by_cases hmem : sequence ∈ t.pendingRequests
    · by_cases hs : sequence = s
      · subst hs
        refine Or.inr ⟨?_, ?_, ?_, rfl⟩
        · simp [reported, completes, expires, cancels, hmem]
        · rw [present, Std.TreeMap.isSome_getElem?_eq_contains]
          exact if_pos hmem
        · simp [removes, cancels, hmem]
      · exact Or.inl (by simp [reported, completes, expires, cancels, hmem, hs])
    · exact Or.inl (by simp [reported, completes, expires, cancels, hmem])
  | _ => exact Or.inl rfl

/-- A number becomes pending by being entered only. -/
theorem present_step (h : step clientId t e = some t') (s : UInt32) :
    t'.present s ≤ t.present s + t.enters e s := by
  cases hr : t'.pendingRequests[s]? with
  | none => simp [present, hr]
  | some r =>
    rw [present_eq_one hr]
    rw [(transition_of_step h).pending] at hr
    rcases lookupAfter_eq_some hr with hinserts | ⟨-, hr⟩
    · simp [enters, hinserts]
    · rw [present_eq_one hr]
      omega

/-- A number that is taken out is not pending any more. -/
theorem present_of_mem_removes (h : step clientId t e = some t') {s : UInt32}
    (hinserts : t.inserts e = none) (hs : s ∈ t.removes e) : t'.present s = 0 := by
  rw [present, (transition_of_step h).pending, hinserts]
  simp [lookupAfter, hs]

/-- A number is pending or reported no more often than it was entered. -/
def Accounted (t : TcpClient) : Prop := ∀ s, t.present s + t.outcomes s ≤ t.entries s

/-- A step pays for what it reports with an entry that it takes out. -/
theorem Accounted.step (hI : t.Accounted) (h : step clientId t e = some t') : t'.Accounted := by
  intro s
  have hle := hI s
  have houtcomes := outcomes_step h s
  have hentries := entries_step h s
  rcases t.reported_cases e s with hzero | ⟨hone, hpresent, hremoves, hinserts⟩
  · have hpresent := present_step h s
    omega
  · -- the entry becomes a report
    have hgone := present_of_mem_removes h hinserts hremoves
    omega

/-! ## A request is resolved at most once -/

/-- How often the callback of a call has been invoked. -/
def invocations (t : TcpClient) (k : ℕ) : ℕ :=
  t.completed.countP fun x => decide (x.call = k) && x.invoked

/-- What holds while fewer than 2^32 numbers have been drawn. -/
structure Exclusive (t : TcpClient) : Prop where
  tracked : t.Tracked
  numbered : t.Numbered
  accounted : t.Accounted

/-- Nothing has been drawn at the start. -/
theorem exclusive_start : Exclusive {} where
  tracked := tracked_start
  numbered := numbered_start
  accounted s := by simp [present, outcomes]

/-- Every step keeps this, as long as fewer than 2^32 numbers have been drawn. -/
theorem Exclusive.step (hI : t.Exclusive) (h : step clientId t e = some t')
    (hdrawn : t'.drawn < 2 ^ 32) : t'.Exclusive where
  tracked := hI.tracked.step h
  numbered := hI.numbered.step h hdrawn
  accounted := hI.accounted.step h

/-- It holds in every run of fewer than 2^32 numbers. -/
theorem exclusive_run {u : TcpClient} {es : List Event} (h : run (step clientId) {} es = some u)
    (hdrawn : u.drawn < 2 ^ 32) : u.Exclusive := by
  refine run_induction (P := fun t => t.drawn < 2 ^ 32 → t.Exclusive) (fun _ => exclusive_start)
    (fun t e t' hI ht hlt => ?_) h hdrawn
  have hle := (transition_of_step ht).drawn
  exact (hI (by omega)).step ht hlt

/-- A number is pending or has been reported, and not more than once. -/
theorem Exclusive.account_le_one (hI : t.Exclusive) (s : UInt32) :
    t.present s + t.outcomes s ≤ 1 :=
  (hI.accounted s).trans ((t.entries_le_holders s).trans (hI.numbered.unique s))

/-- The invocations of a callback are among the reports of the number of its call. -/
theorem Tracked.invocations_le (hI : t.Tracked) {k : ℕ} {c : RequestCall}
    (hc : t.calls[k]? = some c) :
    t.invocations k ≤
      t.completed.countP fun x => decide (x.packet.header.sequence = c.sequence) := by
  refine List.countP_mono_left fun x hx hcall => ?_
  simp only [Bool.and_eq_true, decide_eq_true_eq] at hcall ⊢
  obtain ⟨c', hc', -, hsequence⟩ := hI.completed x hx
  obtain rfl := Option.some.inj (hc.symm.trans (hcall.1 ▸ hc'))
  exact hsequence.symm

/-- **Requests are resolved once.** In a run in which fewer than 2^32 numbers are drawn, the
callback of a request is invoked at most once and `timeout_callback_` is called with its number at
most once, never both, and neither if a `cancelRequest` of it has returned true, which happens at
most once. -/
theorem resolved_once (clientId : List UInt8) (es : List Event) (u : TcpClient)
    (hrun : run (step clientId) {} es = some u) (hdrawn : u.drawn < 2 ^ 32) (k : ℕ)
    (c : RequestCall) (hc : u.calls[k]? = some c) :
    u.invocations k ≤ 1 ∧ u.timeouts.count c.sequence ≤ 1 ∧
      ¬ (0 < u.invocations k ∧ c.sequence ∈ u.timeouts) ∧
      (c.sequence ∈ u.cancelled → u.invocations k = 0 ∧ c.sequence ∉ u.timeouts) ∧
      u.cancelled.count c.sequence ≤ 1 := by
  have hI := exclusive_run hrun hdrawn
  have hle := hI.account_le_one c.sequence
  have hinvocations := hI.tracked.invocations_le hc
  rw [outcomes] at hle
  refine ⟨by omega, by omega, ?_, ?_, by omega⟩
  · rintro ⟨hpos, hmem⟩
    have := List.count_pos_iff.mpr hmem
    omega
  · intro hmem
    have hpos := List.count_pos_iff.mpr hmem
    exact ⟨by omega, List.count_eq_zero.mp (by omega)⟩

/-- The client has connected and sent its `BIND`, which takes the number 1. -/
def connects : List Event :=
  [.start, .runConnect, .connectDone false, .drawBind, .sendBind]

/-- A call of `sendRequest` with a callback, up to its return. -/
def requests (k : ℕ) : List Event :=
  [.sendRequest [0x61] 5000 true, .draw k, .sendDrawn k, .register k, .startTimeoutTimer k]

/-- The answer comes in twice; then the request is cancelled, in vain. -/
theorem resolved_once_duplicate :
    ∃ u, run (step [0x43]) {} (connects ++ requests 0 ++
        [.processPacket (createPacket ⟨idResponse, 0, 2, [0x62]⟩),
          .processPacket (createPacket ⟨idResponse, 0, 2, [0x62]⟩), .cancelRequest 2]) = some u ∧
      u.invocations 0 = 1 ∧ u.received.length = 2 ∧ (2 : UInt32) ∉ u.timeouts ∧
      u.cancelled = [] := by
  obtain ⟨u, hrun, hdrawn, hc, hinvocations, hreceived, hcancelled⟩ :
      ∃ u, run (step [0x43]) {} (connects ++ requests 0 ++
          [.processPacket (createPacket ⟨idResponse, 0, 2, [0x62]⟩),
            .processPacket (createPacket ⟨idResponse, 0, 2, [0x62]⟩), .cancelRequest 2]) = some u ∧
        u.drawn = 2 ∧ u.calls[0]? = some ⟨[0x61], 5000, true, 2, .done⟩ ∧ u.invocations 0 = 1 ∧
        u.received.length = 2 ∧ u.cancelled = [] :=
    ⟨_, rfl, rfl, rfl, rfl, rfl, rfl⟩
  have honce := resolved_once [0x43] _ u hrun (by rw [hdrawn]; decide) 0 _ hc
  exact ⟨u, hrun, hinvocations, hreceived,
    fun hmem => honce.2.2.1 ⟨by rw [hinvocations]; decide, hmem⟩, hcancelled⟩

/-! ## Entries and the calls that made them -/

/-- A call that has entered its number goes on having done so. -/
theorem RequestCall.Goes.entered {c c' : RequestCall} {s : UInt32} (h : c.Goes c')
    (hc : c.entered s = true) : c'.entered s = true := by
  simp only [RequestCall.entered, Bool.and_eq_true, Bool.or_eq_true, decide_eq_true_eq] at hc ⊢
  cases h with
  | refl => exact hc
  | draw _ hphase => simp [hphase] at hc
  | send _ hphase _ => simp [hphase] at hc
  | register => simp [hc.1]
  | finish => simp [hc.1]

/-- A call keeps its callback. -/
theorem RequestCall.Goes.responseCallback_eq {c c' : RequestCall} (h : c.Goes c') :
    c'.responseCallback = c.responseCallback := by
  cases h <;> rfl

/-- Every entry was made by a call that has entered its number, and has the callback of the call. -/
def Enrolled (t : TcpClient) : Prop :=
  ∀ (s : UInt32) (r : PendingRequest), t.pendingRequests[s]? = some r →
    ∃ c : RequestCall, t.calls[r.call]? = some c ∧ c.entered s = true ∧
      c.responseCallback = r.callback

/-- Nothing is pending at the start. -/
theorem enrolled_start : Enrolled {} := fun s r hr => absurd hr (by simp)

/-- The call whose entry is inserted has entered its number. -/
theorem entered_of_inserts (h : step clientId t e = some t') {s : UInt32} {r : PendingRequest}
    (hinserts : t.inserts e = some (s, r)) :
    ∃ c : RequestCall, t'.calls[r.call]? = some c ∧ c.entered s = true ∧
      c.responseCallback = r.callback := by
  cases (transition_of_step h).change with
  | register k c expiry hinserts' _ hc _ hcalls =>
    obtain ⟨rfl, rfl⟩ := Prod.mk.inj (Option.some.inj (hinserts.symm.trans hinserts'))
    refine ⟨{ c with phase := .registered }, ?_, ?_, rfl⟩
    · rw [hcalls, List.getElem?_set_self (List.getElem?_eq_some_iff.mp hc).1]
    · simp [RequestCall.entered]
  | same hnone => exact absurd (hinserts.symm.trans hnone) (by simp)
  | call _ hnone => exact absurd (hinserts.symm.trans hnone) (by simp)
  | draw _ _ hnone => exact absurd (hinserts.symm.trans hnone) (by simp)
  | send _ _ _ hnone => exact absurd (hinserts.symm.trans hnone) (by simp)
  | finish _ _ hnone => exact absurd (hinserts.symm.trans hnone) (by simp)

/-- A step enters requests of its calls only. -/
theorem Enrolled.step (hI : t.Enrolled) (h : step clientId t e = some t') : t'.Enrolled := by
  intro s r hr
  rw [(transition_of_step h).pending] at hr
  rcases lookupAfter_eq_some hr with hinserts | ⟨-, hr⟩
  · exact entered_of_inserts h hinserts
  · obtain ⟨c, hc, hentered, hcallback⟩ := hI s r hr
    obtain ⟨c', hc', hgoes⟩ := call_step h hc
    exact ⟨c', hc', hgoes.entered hentered, hgoes.responseCallback_eq.trans hcallback⟩

/-- A call that has entered its number had done so before, or its entry has just been inserted. -/
theorem entered_step {k : ℕ} {c' : RequestCall} {s : UInt32} (h : step clientId t e = some t')
    (hc' : t'.calls[k]? = some c') (hentered : c'.entered s = true) :
    (∃ c : RequestCall, t.calls[k]? = some c ∧ c.entered s = true) ∨
      ∃ r, t.inserts e = some (s, r) ∧ r.call = k := by
  -- another call than the one that goes on is as it was
  have hset (i : ℕ) (b : RequestCall) (hcalls : t'.calls = t.calls.set i b) :
      i = k ∧ c' = b ∨ t.calls[k]? = some c' := by
    rw [hcalls] at hc'
    by_cases hik : i = k
    · subst hik
      rw [List.getElem?_set_self (by simpa using (List.getElem?_eq_some_iff.mp hc').1)] at hc'
      exact Or.inl ⟨rfl, (Option.some.inj hc').symm⟩
    · rw [List.getElem?_set_ne hik] at hc'
      exact Or.inr hc'
  cases (transition_of_step h).change with
  | same _ _ hcalls => exact Or.inl ⟨c', hcalls ▸ hc', hentered⟩
  | call b _ _ hphase hcalls =>
    rw [hcalls, List.getElem?_append] at hc'
    split at hc'
    · exact Or.inl ⟨c', hc', hentered⟩
    · obtain rfl := List.mem_singleton.mp (List.mem_of_getElem? hc')
      rcases hphase with hp | hp <;> simp [RequestCall.entered, hp] at hentered
  | draw i b _ _ _ _ hcalls =>
    rcases hset i _ hcalls with ⟨-, rfl⟩ | hc
    · simp [RequestCall.entered] at hentered
    · exact Or.inl ⟨c', hc, hentered⟩
  | send i b phase _ _ _ _ hphase' hcalls =>
    rcases hset i _ hcalls with ⟨-, rfl⟩ | hc
    · rcases hphase' with rfl | rfl <;> simp [RequestCall.entered] at hentered
    · exact Or.inl ⟨c', hc, hentered⟩
  | register i b _ hinserts _ _ _ hcalls =>
    rcases hset i _ hcalls with ⟨rfl, rfl⟩ | hc
    · obtain rfl : b.sequence = s := by simpa [RequestCall.entered] using hentered
      exact Or.inr ⟨_, hinserts, rfl⟩
    · exact Or.inl ⟨c', hc, hentered⟩
  | finish i b _ _ hb hphase hcalls =>
    rcases hset i _ hcalls with ⟨rfl, rfl⟩ | hc
    · refine Or.inl ⟨b, hb, ?_⟩
      simpa [RequestCall.entered, hphase] using hentered
    · exact Or.inl ⟨c', hc, hentered⟩

/-! ## No request vanishes -/

/-- The application has been told what became of the request with this call and number. -/
def Reported (t : TcpClient) (k : ℕ) (s : UInt32) : Prop :=
  0 < t.invocations k ∨ s ∈ t.timeouts ∨ s ∈ t.cancelled

/-- A request that has been entered is pending or has been reported. -/
def Complete (t : TcpClient) : Prop :=
  ∀ (k : ℕ) (c : RequestCall) (s : UInt32), t.calls[k]? = some c → c.entered s = true →
    (t.pendingRequests[s]?).isSome = true ∨ t.Reported k s

/-- No request has vanished, if no handler is half way. -/
def NoneVanishes (t : TcpClient) : Prop := t.handler = none → t.Complete

/-- What the event takes out of the table it reports: the connection is not lost while a request is
pending, and an answer is not for a request without a callback. -/
def Reports (t : TcpClient) (e : Event) : Prop :=
  (e = .clearRequests → t.pendingRequests.isEmpty = true) ∧
    ∀ p ∈ e.packets, ∀ r ∈ t.takes p, r.callback = true

instance (t : TcpClient) (e : Event) : Decidable (Reports t e) :=
  inferInstanceAs (Decidable ((e = .clearRequests → t.pendingRequests.isEmpty = true) ∧
    ∀ p ∈ e.packets, ∀ r ∈ t.takes p, r.callback = true))

/-- A step adds the callbacks that it invokes. -/
theorem invocations_step (h : step clientId t e = some t') (k : ℕ) :
    t'.invocations k = t.invocations k +
      (t.completes e).countP fun x => decide (x.call = k) && x.invoked := by
  rw [invocations, (transition_of_step h).completed, List.countP_append, invocations]

/-- What has been reported stays reported. -/
theorem Reported.step {k : ℕ} {s : UInt32} (hP : t.Reported k s)
    (h : step clientId t e = some t') : t'.Reported k s := by
  obtain ⟨-, -, -, htimeouts, hcancelled, -⟩ := transition_of_step h
  rw [Reported, invocations_step h, htimeouts, hcancelled]
  rcases hP with hinvoked | htimeout | hcancel
  · exact Or.inl (by omega)
  · exact Or.inr (Or.inl (List.mem_append_left _ htimeout))
  · exact Or.inr (Or.inr (List.mem_append_left _ hcancel))

/-- The entry of a number belongs to the only call that has entered it. -/
theorem Exclusive.call_eq (hI : t.Exclusive) (hen : t.Enrolled) {k : ℕ} {c : RequestCall}
    {s : UInt32} {r : PendingRequest} (hc : t.calls[k]? = some c) (hentered : c.entered s = true)
    (hr : t.pendingRequests[s]? = some r) : r.call = k := by
  obtain ⟨c', hc', hentered', -⟩ := hen s r hr
  have hle : t.entries s ≤ 1 := (t.entries_le_holders s).trans (hI.numbered.unique s)
  exact eq_of_countP_le_one hle hc' hc hentered' hentered

/-- An entry that is taken out by an event that reports is reported. -/
theorem reported_of_mem_removes (hI : t.Exclusive) (hen : t.Enrolled) (hC : Reports t e)
    (h : step clientId t e = some t') {k : ℕ} {c : RequestCall} {s : UInt32}
    (hc : t.calls[k]? = some c) (hentered : c.entered s = true)
    (hpresent : (t.pendingRequests[s]?).isSome = true) (hs : s ∈ t.removes e) :
    t'.Reported k s := by
  obtain ⟨-, -, -, htimeouts, hcancelled, -⟩ := transition_of_step h
  obtain ⟨r, hr⟩ := Option.isSome_iff_exists.mp hpresent
  cases e with
  | processPacket p =>
    obtain ⟨hsome, rfl⟩ : (t.takes p).isSome = true ∧ s = p.header.sequence := by
      simp only [removes] at hs
      split at hs
      · rename_i hsome
        exact ⟨hsome, List.mem_singleton.mp hs⟩
      · exact absurd hs (by simp)
    obtain ⟨r', hr'⟩ := Option.isSome_iff_exists.mp hsome
    obtain rfl := Option.some.inj (hr.symm.trans (takes_eq_some hr').2)
    have hcall := hI.call_eq hen hc hentered hr
    have hcallback := hC.2 p (List.mem_singleton_self _) r hr'
    refine Or.inl ?_
    rw [invocations_step h]
    simp [completes, hr', hcall, hcallback]
  | sweep => exact Or.inr (Or.inl (htimeouts ▸ List.mem_append_right _ hs))
  | cancelRequest => exact Or.inr (Or.inr (hcancelled ▸ List.mem_append_right _ hs))
  | clearRequests =>
    have hempty := hC.1 rfl
    rw [Std.TreeMap.isEmpty_iff_forall_not_mem] at hempty
    exact absurd (Std.TreeMap.mem_keys.mp hs) (hempty s)
  | _ => exact absurd hs (by simp [removes, cancels])

/-- A step that reports what it takes out keeps every request accounted for. -/
theorem Complete.step (hP : t.Complete) (hI : t.Exclusive) (hen : t.Enrolled) (hC : Reports t e)
    (h : step clientId t e = some t') : t'.Complete := by
  intro k c' s hc' hentered'
  have hpending := (transition_of_step h).pending s
  rcases entered_step h hc' hentered' with ⟨c, hc, hentered⟩ | ⟨r, hinserts, -⟩
  · rcases hP k c s hc hentered with hpresent | hreported
    · by_cases hs : s ∈ t.removes e
      · exact Or.inr (reported_of_mem_removes hI hen hC h hc hentered hpresent hs)
      · left
        rw [hpending]
        exact isSome_lookupAfter hpresent hs _
    · exact Or.inr (hreported.step h)
  · left
    rw [hpending, hinserts]
    simp [lookupAfter]

/-- What is pending has not been reported. -/
theorem Exclusive.outcomes_eq_zero (hI : t.Exclusive) {s : UInt32} {r : PendingRequest}
    (hr : t.pendingRequests[s]? = some r) : t.outcomes s = 0 := by
  have hle := hI.account_le_one s
  rw [present_eq_one hr] at hle
  omega

/-- The call of an entry that is taken out without a report has vanished. -/
theorem not_complete_of_unreported (hI : t.Exclusive) (hen : t.Enrolled)
    (h : step clientId t e = some t') {s : UInt32} {r : PendingRequest}
    (hr : t.pendingRequests[s]? = some r) (hremoves : s ∈ t.removes e)
    (hinserts : t.inserts e = none)
    (hinvoked : (t.completes e).countP (fun x => decide (x.call = r.call) && x.invoked) = 0)
    (hexpires : t.expires e = []) (hcancels : t.cancels e = []) : ¬ t'.Complete := by
  intro hP
  obtain ⟨-, -, -, htimeouts, hcancelled, -, -, hpending, -⟩ := transition_of_step h
  obtain ⟨c, hc, hentered, -⟩ := hen s r hr
  obtain ⟨c', hc', hgoes⟩ := call_step h hc
  have hs : c.sequence = s := by
    simp only [RequestCall.entered, Bool.and_eq_true, decide_eq_true_eq] at hentered
    exact hentered.1
  have hinvocations := hI.tracked.invocations_le hc
  have houtcomes := hI.outcomes_eq_zero hr
  rw [outcomes] at houtcomes
  rw [hs] at hinvocations
  rcases hP r.call c' s hc' (hgoes.entered hentered) with hpresent | hcalled | htimeout | hcancel
  · rw [hpending, hinserts] at hpresent
    simp [lookupAfter, hremoves] at hpresent
  · rw [invocations_step h, hinvoked] at hcalled
    omega
  · rw [htimeouts, hexpires, List.append_nil] at htimeout
    have := List.count_pos_iff.mpr htimeout
    omega
  · rw [hcancelled, hcancels, List.append_nil] at hcancel
    have := List.count_pos_iff.mpr hcancel
    omega

/-- A request that vanishes is missed at once. -/
theorem reports_of_complete (hI : t.Exclusive) (hen : t.Enrolled) (hP : t'.Complete)
    (h : step clientId t e = some t') : Reports t e := by
  constructor
  · rintro rfl
    rw [Std.TreeMap.isEmpty_iff_forall_not_mem]
    intro s hs
    obtain ⟨r, hr⟩ : ∃ r, t.pendingRequests[s]? = some r := by
      rwa [← Option.isSome_iff_exists, Std.TreeMap.isSome_getElem?_eq_contains]
    refine not_complete_of_unreported hI hen h hr ?_ rfl rfl rfl rfl hP
    exact Std.TreeMap.mem_keys.mpr hs
  · intro p hp r hr
    cases e with
    | processPacket q =>
      obtain rfl := List.mem_singleton.mp hp
      cases hcallback : r.callback with
      | true => rfl
      | false =>
        refine (not_complete_of_unreported hI hen h (takes_eq_some hr).2 ?_ rfl ?_ rfl rfl hP).elim
        · simp [removes, Option.mem_def.mp hr]
        · simp [completes, Option.mem_def.mp hr, hcallback]
    | _ => exact absurd hp (by simp [Event.packets])

/-- An event that does not report what it takes out leaves no handler half way. -/
theorem handler_step_of_not_reports (h : step clientId t e = some t') (hC : ¬ Reports t e) :
    t'.handler = none := by
  cases stepped_of_step h with
  | clearRequests =>
    rw [clearRequests, scheduleReconnect]
    split <;> rfl
  | processPacket p hhandler =>
    rw [processPacket_eq]
    exact hhandler
  | _ => exact absurd ⟨by simp, List.forall_mem_nil _⟩ hC

/-- **Requests that vanish.** In a run in which fewer than 2^32 numbers are drawn, in every state
with no handler half way a request that was entered into `pending_requests_` is still there or has
been reported, exactly when the connection is never lost while a request is pending and no answer is
for a request without a callback. -/
theorem noneVanishes_iff (clientId : List UInt8) (es : List Event) (u : TcpClient)
    (hrun : run (step clientId) {} es = some u) (hdrawn : u.drawn < 2 ^ 32) :
    EveryState (step clientId) {} es NoneVanishes ↔ EveryStep (step clientId) {} es Reports := by
  constructor
  · intro hP pre e post t heq ht
    rw [heq, run_append, ht, Option.bind_some] at hrun
    obtain ⟨t', ht', hpost⟩ := run_cons_eq_some.mp hrun
    have hle : t'.drawn ≤ u.drawn := drawn_run hpost
    have hle' := (transition_of_step ht').drawn
    have hI : t.Exclusive := exclusive_run ht (by omega)
    have hen : t.Enrolled := run_induction enrolled_start (fun _ _ _ hI h => hI.step h) ht
    by_contra hC
    -- the step has taken an entry out without a report, and nothing can report it later
    refine hC (reports_of_complete hI hen ?_ ht')
    have hinitial : run (step clientId) {} (pre ++ [e]) = some t' := by
      rw [run_append, ht, Option.bind_some, run_cons, ht']
      rfl
    exact hP (pre ++ [e]) post t' (by rw [heq, List.append_assoc]; rfl) hinitial
      (handler_step_of_not_reports ht' hC)
  · intro hC pre post t heq ht _
    have hlt : t.drawn < 2 ^ 32 := by
      rw [heq, run_append, ht, Option.bind_some] at hrun
      exact (drawn_run hrun).trans_lt hdrawn
    -- while the numbers last, every request has its entry or its report
    have hall : EveryState (step clientId) {} es fun t =>
        t.drawn < 2 ^ 32 → t.Exclusive ∧ t.Enrolled ∧ t.Complete := by
      refine hC.everyState (fun _ => ⟨exclusive_start, enrolled_start, ?_⟩) ?_
      · exact fun k c s hc => absurd hc (by simp)
      · intro t e t' hC hI h hlt'
        have hle := (transition_of_step h).drawn
        obtain ⟨hI, hen, hP⟩ := hI (by omega)
        exact ⟨hI.step h hlt', hen.step h, hP.step hI hen hC h⟩
    exact (hall pre post t heq ht hlt).2.2

/-- A request is answered, the next one times out, and then the connection is lost and made
again. -/
theorem noneVanishes_iff_reconnect :
    EveryState (step [0x43]) {} ([.setAutoReconnect true] ++ connects ++ requests 0 ++
      [.processPacket (createPacket ⟨idResponse, 0, 2, [0x62]⟩)] ++ requests 1 ++
      [.runTimerPost, .runTimerPost, .tick 5000, .expire, .sweep, .finishSweep,
        .handleDisconnect, .clearRequests, .tick 3000, .reconnectExpire, .reconnect, .runConnect,
        .connectDone false, .drawBind, .sendBind]) NoneVanishes := by
  refine (noneVanishes_iff [0x43] _ _ rfl ?_).mpr (by decide)
  decide

/-- The connection is lost while a request is pending: nobody is told about the request. -/
theorem request_vanishes :
    ∃ u, run (step [0x43]) {} (connects ++ requests 0 ++ [.handleDisconnect, .clearRequests]) =
        some u ∧ u.drawn < 2 ^ 32 ∧ u.calls[0]? = some ⟨[0x61], 5000, true, 2, .done⟩ ∧
      ¬ NoneVanishes u := by
  refine ⟨_, rfl, by decide, rfl, fun hP => ?_⟩
  have hcomplete := hP rfl 0 _ 2 rfl rfl
  rcases hcomplete with hpresent | hcalled | htimeout | hcancel
  · exact absurd hpresent (by decide)
  · exact absurd hcalled (by decide)
  · exact absurd htimeout (by decide)
  · exact absurd hcancel (by decide)

end TcpClient

end TurboNet.Asio
