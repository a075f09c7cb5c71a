import TurboNet.Asio.ReturnValue

/-!
# Synchronous requests of the asio client

Reference: `claude/asio_client.cpp`, `TcpClient::sendRequestSync`, `TcpClient::cancelRequest`,
`TcpClient::processPacket`.

`sendRequestSync` is `sendRequest` with a callback that sets a promise, a wait for that promise, and
`cancelRequest` if the wait is in vain. `syncStep` is a client with one such call among everything
else that the client does: the steps of its `sendRequest` are steps of the client, and what comes
after them is its own. `processPacket` invokes the callback when it has given up the lock, so the
promise is set in a step of its own, and until then no other handler runs on the strand.

The promise is also held by the caller, so it is never broken: a caller whose request is dropped
waits until its time is over. `sendRequestSync_cleans_up` is about every way in which the call can
end.
-/

namespace TurboNet.Asio

open Common

namespace TcpClient

/-- How a call of `sendRequestSync` ends: with a packet, or with one of its two errors. -/
inductive SyncOutcome where
  | returned (p : Packet)
  | notConnected
  | timedOut
deriving DecidableEq

/-- Where a call of `sendRequestSync` has got to: in `sendRequest`, in `wait_for` with its deadline,
before `cancelRequest`, or at its end. -/
inductive SyncPhase where
  | requesting
  | waiting (sequence : UInt32) (deadline : ℕ)
  | expired (sequence : UInt32)
  | ended (outcome : SyncOutcome)
deriving DecidableEq

/-- A call of `sendRequestSync`. -/
structure SyncCall where
  /-- The number of its call of `sendRequest`. -/
  request : ℕ
  phase : SyncPhase := .requesting
  /-- The packet that `set_value` is about to be called with. -/
  setting : Option Packet := none
  /-- The packets that `set_value` has been called with. -/
  promise : List Packet := []
deriving DecidableEq

structure SyncClient where
  client : TcpClient := {}
  sync : Option SyncCall := none

inductive SyncEvent where
  /-- Anything that the client does, the steps of `sendRequest` for this call included. -/
  | client (e : Event)
  | sendRequestSync (data : List UInt8) (timeout : ℕ)
  /-- `sendRequest` has returned. -/
  | sendReturned
  /-- The callback sets the promise. -/
  | setValue
  /-- `wait_for` returns. -/
  | waitOver
  | cancelRequest
deriving DecidableEq

/-- The event is a handler on the strand, or goes on with one. -/
def Event.runsOnStrand : Event → Bool
  | .runConnect => true
  | .connectDone _ => true
  | .drawBind => true
  | .sendBind => true
  | .handleDisconnect => true
  | .clearRequests => true
  | .processPacket _ => true
  | .runTimerPost => true
  | .sweep => true
  | .finishSweep => true
  | .reconnect => true
  | _ => false

/-- The strand is in the callback of this call. -/
def SyncCall.blocks (x : SyncCall) (e : Event) : Bool := x.setting.isSome && e.runsOnStrand

/-- The callback of this call is invoked with the packet. -/
def SyncCall.answeredBy (t : TcpClient) (x : SyncCall) (p : Packet) : Bool :=
  (t.takes p).any fun r => decide (r.call = x.request) && r.callback

/-- What an event of the client does to the call. -/
def SyncCall.hears (t : TcpClient) (x : SyncCall) : Event → SyncCall
  | .processPacket p => if x.answeredBy t p then { x with setting := some p } else x
  | _ => x

/-- `sendRequest` has returned a number: 0 is an error, for any other one the wait begins. -/
def SyncCall.sendReturned (t : TcpClient) (x : SyncCall) (c : RequestCall) (sequence : UInt32) :
    SyncCall :=
  { x with phase :=
      if sequence = 0 then .ended .notConnected else .waiting sequence (t.now + c.timeout) }

/-- `wait_for`: the promise is set, or the time is over. -/
def SyncCall.waitOver (t : TcpClient) (x : SyncCall) : Option SyncCall :=
  match x.phase, x.promise with
  | .waiting _ _, p :: _ => some { x with phase := .ended (.returned p) }
  | .waiting sequence deadline, [] =>
    if deadline ≤ t.now then some { x with phase := .expired sequence } else none
  | _, _ => none

def syncStep (clientId : List UInt8) (u : SyncClient) : SyncEvent → Option SyncClient
  | .client e =>
    if u.sync.any (·.blocks e) then none
    else (step clientId u.client e).map fun t => ⟨t, u.sync.map (·.hears u.client e)⟩
  | .sendRequestSync data timeout =>
    if u.sync.isSome then none
    else some ⟨u.client.sendRequest data timeout true, some { request := u.client.calls.length }⟩
  | .sendReturned => do
    let x ← u.sync
    let c ← u.client.calls[x.request]?
    let sequence ← c.returned
    if x.phase = .requesting then some { u with sync := some (x.sendReturned u.client c sequence) }
    else none
  | .setValue => do
    let x ← u.sync
    let p ← x.setting
    some { u with sync := some { x with setting := none, promise := x.promise ++ [p] } }
  | .waitOver => do
    let x ← u.sync
    let x' ← x.waitOver u.client
    some { u with sync := some x' }
  | .cancelRequest =>
    match u.sync with
    | some ⟨request, .expired sequence, setting, promise⟩ =>
      some ⟨u.client.cancelRequest sequence, some ⟨request, .ended .timedOut, setting, promise⟩⟩
    | _ => none

/-! ## What a step does -/

variable {clientId : List UInt8}

inductive SyncChange (clientId : List UInt8) (u : SyncClient) : SyncEvent → SyncClient → Prop where
  | client {e : Event} {t : TcpClient} (hblocks : u.sync.any (·.blocks e) = false)
      (hstep : step clientId u.client e = some t) :
      SyncChange clientId u (.client e) ⟨t, u.sync.map (·.hears u.client e)⟩
  | call {data : List UInt8} {timeout : ℕ} (hsync : u.sync = none) :
      SyncChange clientId u (.sendRequestSync data timeout)
        ⟨u.client.sendRequest data timeout true, some { request := u.client.calls.length }⟩
  | sendReturned {x : SyncCall} {c : RequestCall} {sequence : UInt32} (hsync : u.sync = some x)
      (hphase : x.phase = .requesting) (hc : u.client.calls[x.request]? = some c)
      (hreturned : c.returned = some sequence) :
      SyncChange clientId u .sendReturned ⟨u.client, some (x.sendReturned u.client c sequence)⟩
  | setValue {x : SyncCall} {p : Packet} (hsync : u.sync = some x) (hsetting : x.setting = some p) :
      SyncChange clientId u .setValue
        ⟨u.client, some { x with setting := none, promise := x.promise ++ [p] }⟩
  | returned {x : SyncCall} {p : Packet} {ps : List Packet} {sequence : UInt32} {deadline : ℕ}
      (hsync : u.sync = some x) (hphase : x.phase = .waiting sequence deadline)
      (hpromise : x.promise = p :: ps) :
      SyncChange clientId u .waitOver
        ⟨u.client, some { x with phase := .ended (.returned p) }⟩
  | expired {x : SyncCall} {sequence : UInt32} {deadline : ℕ} (hsync : u.sync = some x)
      (hphase : x.phase = .waiting sequence deadline) (hpromise : x.promise = []) :
      SyncChange clientId u .waitOver ⟨u.client, some { x with phase := .expired sequence }⟩
  | cancel {x : SyncCall} {sequence : UInt32} (hsync : u.sync = some x)
      (hphase : x.phase = .expired sequence) :
      SyncChange clientId u .cancelRequest
        ⟨u.client.cancelRequest sequence, some { x with phase := .ended .timedOut }⟩

/-- Every step is one of the changes. -/
theorem syncChange_of_syncStep {u u' : SyncClient} {e : SyncEvent}
    (h : syncStep clientId u e = some u') : SyncChange clientId u e u' := by
  cases e with
  | client e =>
    simp only [syncStep] at h
    split at h
    · exact absurd h (by simp)
    · obtain ⟨t, hstep, rfl⟩ := Option.map_eq_some_iff.mp h
      exact .client (Bool.not_eq_true _ ▸ ‹_›) hstep
  | sendRequestSync data timeout =>
    simp only [syncStep] at h
    split at h
    · exact absurd h (by simp)
    · cases h
      exact .call (by simpa using ‹¬ u.sync.isSome = true›)
  | sendReturned =>
    obtain ⟨x, hsync, h⟩ := Option.bind_eq_some_iff.mp h
    obtain ⟨c, hc, h⟩ := Option.bind_eq_some_iff.mp h
    obtain ⟨sequence, hreturned, h⟩ := Option.bind_eq_some_iff.mp h
    split at h
    · cases h
      exact .sendReturned hsync ‹_› hc hreturned
    · exact absurd h (by simp)
  | setValue =>
    obtain ⟨x, hsync, h⟩ := Option.bind_eq_some_iff.mp h
    obtain ⟨p, hsetting, h⟩ := Option.bind_eq_some_iff.mp h
    cases h
    exact .setValue hsync hsetting
  | waitOver =>
    obtain ⟨x, hsync, h⟩ := Option.bind_eq_some_iff.mp h
    obtain ⟨x', hx', h⟩ := Option.bind_eq_some_iff.mp h
    cases h
    -- the wait is over when the promise has its value, or at the timeout
    unfold SyncCall.waitOver at hx'
    split at hx'
    · cases hx'
      exact .returned hsync ‹_› ‹_›
    · split at hx'
      · cases hx'
        exact .expired hsync ‹_› ‹_›
      · exact absurd hx' (by simp)
    · exact absurd hx' (by simp)
  | cancelRequest =>
    simp only [syncStep] at h
    split at h
    · cases h
      exact .cancel ‹_› rfl
    · exact absurd h (by simp)

/-- The client takes steps of its own only. -/
theorem run_client_of_syncStep {u u' : SyncClient} {e : SyncEvent}
    (h : syncStep clientId u e = some u') :
    ∃ es, run (step clientId) u.client es = some u'.client := by
  cases syncChange_of_syncStep h with
  | client _ hstep => exact ⟨[_], by rw [run_singleton, hstep]⟩
  | @call data timeout _ => exact ⟨[.sendRequest data timeout true], rfl⟩
  | @cancel _ sequence _ _ => exact ⟨[.cancelRequest sequence], rfl⟩
  | _ => exact ⟨[], rfl⟩

/-! ## Numbers that are spent -/

variable {t t' : TcpClient} {e : Event}

/-- The number has been drawn, or is 0, and no call has it any more. -/
def Spent (t : TcpClient) (s : UInt32) : Prop := t.holders s = 0 ∧ s.toNat ≤ t.drawn

/-- A number that is spent stays spent, since it is not drawn again. -/
theorem Spent.step {s : UInt32} (hs : t.Spent s) (hI : t.Numbered)
    (h : step clientId t e = some t') (hdrawn : t'.drawn < 2 ^ 32) : t'.Spent s := by
  have hle := holders_step h s
  have hdrawn' := (transition_of_step h).drawn
  obtain ⟨hzero, hbound⟩ := hs
  refine ⟨?_, by omega⟩
  split at hle
  · rename_i hdraw
    have hto : s.toNat = t.drawn + 1 := hdraw.2 ▸ hI.toNat_nextSequence (by omega)
    omega
  · omega

/-- Under a number that is spent nothing is pending. -/
theorem Spent.getElem?_eq_none {s : UInt32} (hs : t.Spent s) (hI : t.Accounted) :
    t.pendingRequests[s]? = none := by
  have hle := (hI s).trans (t.entries_le_holders s)
  rw [hs.1] at hle
  have hpresent : t.present s = 0 := by omega
  cases hr : t.pendingRequests[s]? with
  | none => rfl
  | some r => exact absurd (present_eq_one hr) (by omega)

/-- The number of a call that has failed is spent, and so is 0. -/
structure Retired (t : TcpClient) : Prop where
  zero : t.Spent 0
  failed : ∀ c ∈ t.calls, c.phase = .failed → t.Spent c.sequence

/-- No call has failed at the start. -/
theorem retired_start : Retired {} where
  zero := ⟨rfl, Nat.le_refl _⟩
  failed := List.forall_mem_nil _

/-- A call that has just been made has drawn no number. -/
theorem sequence_of_append {c : RequestCall} (h : step clientId t e = some t')
    (hcalls : t'.calls = t.calls ++ [c]) : c.sequence = 0 := by
  have hmove := callMove_of_step t.calls.length h
  rw [List.getElem?_eq_none (Nat.le_refl _), hcalls, List.getElem?_concat_length] at hmove
  cases hmove with
  | make _ =>
    cases h
    obtain rfl := List.singleton_inj.mp (List.append_cancel_left hcalls)
    rfl

/-- A call that fails was the only one that had its number. -/
theorem spent_of_failed {k : ℕ} {c : RequestCall} (hI : t.Numbered)
    (h : step clientId t e = some t') (hc : t.calls[k]? = some c) (hphase : c.phase = .drawn)
    (hcalls : t'.calls = t.calls.set k { c with phase := .failed }) : t'.Spent c.sequence := by
  have hholds : c.holds c.sequence = true := by simp [RequestCall.holds, hphase]
  have hpos : 0 < t.holders c.sequence :=
    List.countP_pos_iff.mpr ⟨c, List.mem_of_getElem? hc, hholds⟩
  have hbound := hI.bound _ hpos
  have hunique := hI.unique c.sequence
  have hdrawn := (transition_of_step h).drawn
  have hcount := countP_set_add (b := { c with phase := .failed })
    (RequestCall.holds c.sequence) hc
  rw [if_pos hholds, if_neg (by simp [RequestCall.holds]), ← hcalls] at hcount
  refine ⟨?_, by omega⟩
  rw [holders] at hunique ⊢
  omega

/-- The number of a call that fails is spent from then on. -/
theorem Retired.step (hR : t.Retired) (hI : t.Numbered) (h : step clientId t e = some t')
    (hdrawn : t'.drawn < 2 ^ 32) : t'.Retired := by
  have hkeep {s : UInt32} (hs : t.Spent s) : t'.Spent s := hs.step hI h hdrawn
  refine ⟨hkeep hR.zero, ?_⟩
  -- a number stays spent, and only a call that fails spends another one
  have hset (i : ℕ) (b : RequestCall) (hcalls : t'.calls = t.calls.set i b)
      (hb : b.phase = .failed → t'.Spent b.sequence) :
      ∀ c ∈ t'.calls, c.phase = .failed → t'.Spent c.sequence := by
    intro c hc hphase
    rw [hcalls] at hc
    rcases List.mem_or_eq_of_mem_set hc with hmem | rfl
    · exact hkeep (hR.failed c hmem hphase)
    · exact hb hphase
  cases (transition_of_step h).change with
  | same _ _ hcalls => exact fun c hc hphase => hkeep (hR.failed c (hcalls ▸ hc) hphase)
  | call b _ _ _ hcalls =>
    have hsequence := sequence_of_append h hcalls
    intro c hc hphase
    rw [hcalls] at hc
    rcases List.mem_append.mp hc with hmem | hmem
    · exact hkeep (hR.failed c hmem hphase)
    · rw [List.mem_singleton.mp hmem, hsequence]
      exact hkeep hR.zero
  | draw k c _ _ _ _ hcalls => exact hset k _ hcalls (by simp)
  | send k c phase _ _ hc hphase _ hcalls =>
    refine hset k _ hcalls fun hfailed => ?_
    obtain rfl : phase = .failed := hfailed
    have hspent : t'.Spent c.sequence := spent_of_failed hI h hc hphase hcalls
    exact hspent
  | register k c _ _ _ _ _ hcalls => exact hset k _ hcalls (by simp)
  | finish k c _ _ _ _ hcalls => exact hset k _ hcalls (by simp)

/-! ## The invariant -/

/-- What holds of the client while fewer than 2^32 numbers have been drawn. -/
structure Orderly (t : TcpClient) : Prop where
  exclusive : t.Exclusive
  enrolled : t.Enrolled
  retired : t.Retired

/-- The client is orderly at the start. -/
theorem orderly_start : Orderly {} := ⟨exclusive_start, enrolled_start, retired_start⟩

/-- Every step keeps the client orderly. -/
theorem Orderly.step (hI : t.Orderly) (h : step clientId t e = some t')
    (hdrawn : t'.drawn < 2 ^ 32) : t'.Orderly where
  exclusive := hI.exclusive.step h hdrawn
  enrolled := hI.enrolled.step h
  retired := hI.retired.step hI.exclusive.numbered h hdrawn

/-- The call of `sendRequest` has returned, and there is no entry for its number. -/
structure Settled (t : TcpClient) (c : RequestCall) : Prop where
  phase : c.phase = .done ∨ c.phase = .failed
  pending : t.pendingRequests[c.sequence]? = none

/-- A call that has failed is settled. -/
theorem settled_of_failed {k : ℕ} {c : RequestCall} (hI : t.Orderly) (hc : t.calls[k]? = some c)
    (hphase : c.phase = .failed) : t.Settled c :=
  ⟨.inr hphase, (hI.retired.failed c (List.mem_of_getElem? hc) hphase).getElem?_eq_none
    hI.exclusive.accounted⟩

/-- A call that has returned does not go on. -/
theorem RequestCall.Goes.eq_of_returned {c c' : RequestCall} (h : c.Goes c')
    (hphase : c.phase = .done ∨ c.phase = .failed) : c' = c := by
  cases h with
  | refl => rfl
  | draw _ hp => simp [hp] at hphase
  | send _ hp _ => simp [hp] at hphase
  | register hp => simp [hp] at hphase
  | finish hp => simp [hp] at hphase

/-- A call that has returned stays as it is. -/
theorem getElem?_calls_step {k : ℕ} {c : RequestCall} (h : step clientId t e = some t')
    (hc : t.calls[k]? = some c) (hphase : c.phase = .done ∨ c.phase = .failed) :
    t'.calls[k]? = some c := by
  obtain ⟨c', hc', hgoes⟩ := call_step h hc
  rwa [hgoes.eq_of_returned hphase] at hc'

/-- Nobody enters the number of a call that has returned. -/
theorem Settled.step {k : ℕ} {c : RequestCall} (hS : t.Settled c) (hI' : t'.Orderly)
    (hc : t.calls[k]? = some c) (h : step clientId t e = some t') : t'.Settled c := by
  have hc' := getElem?_calls_step h hc hS.phase
  rcases hS.phase with hdone | hfailed
  · refine ⟨hS.phase, ?_⟩
    cases hr : t'.pendingRequests[c.sequence]? with
    | none => rfl
    | some r =>
      have hentered : c.entered c.sequence = true := by simp [RequestCall.entered, hdone]
      obtain rfl := hI'.exclusive.call_eq hI'.enrolled hc' hentered hr
      rw [(transition_of_step h).pending] at hr
      rcases lookupAfter_eq_some hr with hinserts | ⟨-, hr⟩
      · obtain ⟨-, b, hb, hsent, -⟩ := inserts_eq_some hinserts
        obtain rfl := Option.some.inj (hc.symm.trans hb)
        exact absurd (hdone.symm.trans hsent) (by simp)
      · exact absurd (hS.pending.symm.trans hr) (by simp)
  · exact settled_of_failed hI' hc' hfailed

/-- The call of `sendRequest` has got as far as the phase says. -/
def SyncPhase.Fits (t : TcpClient) (c : RequestCall) : SyncPhase → Prop
  | .requesting => True
  | .waiting sequence _ => c.phase = .done ∧ c.sequence = sequence
  | .expired sequence => c.phase = .done ∧ c.sequence = sequence
  | .ended _ => t.Settled c

/-- A step of the client leaves the call of `sendRequest` where the phase says, or takes it
further. -/
theorem SyncPhase.Fits.step {k : ℕ} {c : RequestCall} {phase : SyncPhase} (hP : phase.Fits t c)
    (hI' : t'.Orderly) (hc : t.calls[k]? = some c) (h : step clientId t e = some t') :
    ∃ c', t'.calls[k]? = some c' ∧ phase.Fits t' c' := by
  cases phase with
  | requesting =>
    obtain ⟨c', hc', -⟩ := call_step h hc
    exact ⟨c', hc', trivial⟩
  | waiting => exact ⟨c, getElem?_calls_step h hc (.inl hP.1), hP⟩
  | expired => exact ⟨c, getElem?_calls_step h hc (.inl hP.1), hP⟩
  | ended => exact ⟨c, getElem?_calls_step h hc hP.phase, Settled.step hP hI' hc h⟩

/-- The call of `sendRequestSync` and the client agree: the promise has been set, or is about to be,
whenever `processPacket` has invoked the callback, with an answer to this request. -/
structure SyncValid (t : TcpClient) (x : SyncCall) : Prop where
  call : ∃ c, t.calls[x.request]? = some c ∧ x.phase.Fits t c
  invoked : t.invocations x.request = x.promise.length + x.setting.toList.length
  values : ∀ p ∈ x.promise ++ x.setting.toList,
    p.header.packetId = idResponse ∧ t.Drawn x.request p.header.sequence
  returned : ∀ p, x.phase = .ended (.returned p) → p ∈ x.promise

section Hears

variable (t : TcpClient) (x : SyncCall) (e : Event)

/-- An event of the client leaves the request of the call as it is. -/
@[simp] theorem SyncCall.hears_request : (x.hears t e).request = x.request := by
  cases e with
  | processPacket p => simp only [hears]; split <;> rfl
  | _ => rfl

/-- An event of the client leaves the phase of the call as it is. -/
@[simp] theorem SyncCall.hears_phase : (x.hears t e).phase = x.phase := by
  cases e with
  | processPacket p => simp only [hears]; split <;> rfl
  | _ => rfl

/-- An event of the client does not set the promise. -/
@[simp] theorem SyncCall.hears_promise : (x.hears t e).promise = x.promise := by
  cases e with
  | processPacket p => simp only [hears]; split <;> rfl
  | _ => rfl

end Hears

/-- The callback of the call is invoked when the call hears of it. -/
theorem SyncCall.length_setting_hears {x : SyncCall} (hblocks : x.blocks e = false) :
    (x.hears t e).setting.toList.length = x.setting.toList.length +
      (t.completes e).countP fun y => decide (y.call = x.request) && y.invoked := by
  cases e with
  | processPacket p =>
    have hnone : x.setting = none := by simpa [blocks, Event.runsOnStrand] using hblocks
    cases hr : t.takes p with
    | none => simp [hears, answeredBy, completes, hr]
    | some r =>
      cases hanswered : decide (r.call = x.request) && r.callback <;>
        simp [hears, answeredBy, completes, hr, hanswered, hnone]
  | _ => rfl

/-- The promise is about to be set because it was before, or because the event takes the entry of
the request. -/
theorem SyncCall.mem_setting_hears {x : SyncCall} {p : Packet}
    (h : p ∈ (x.hears t e).setting) :
    p ∈ x.setting ∨ ∃ r, t.takes p = some r ∧ r.call = x.request := by
  cases e with
  | processPacket q =>
    simp only [hears] at h
    split at h
    · rename_i hanswered
      obtain rfl : q = p := by simpa using h
      obtain ⟨r, hr, hcall⟩ := (Option.any_eq_true _ _).mp hanswered
      simp only [Bool.and_eq_true, decide_eq_true_eq] at hcall
      exact .inr ⟨r, hr, hcall.1⟩
    · exact .inl h
  | _ => exact .inl h

/-- A step of the client keeps the agreement. -/
theorem SyncValid.client {x : SyncCall} (hx : SyncValid t x) (hI : t.Orderly) (hI' : t'.Orderly)
    (hblocks : x.blocks e = false) (h : step clientId t e = some t') :
    SyncValid t' (x.hears t e) where
  call := by
    obtain ⟨c, hc, hfits⟩ := hx.call
    simpa using hfits.step hI' hc h
  invoked := by
    rw [SyncCall.hears_request, invocations_step h, hx.invoked, SyncCall.hears_promise,
      SyncCall.length_setting_hears hblocks]
    omega
  values p hp := by
    rw [SyncCall.hears_promise] at hp
    rw [SyncCall.hears_request]
    have hold (hp : p ∈ x.promise ++ x.setting.toList) :
        p.header.packetId = idResponse ∧ t'.Drawn x.request p.header.sequence :=
      ⟨(hx.values p hp).1, (hx.values p hp).2.step h⟩
    rcases List.mem_append.mp hp with hp | hp
    · exact hold (List.mem_append_left _ hp)
    · rcases SyncCall.mem_setting_hears (Option.mem_toList.mp hp) with hp | ⟨r, hr, hcall⟩
      · exact hold (List.mem_append_right _ (Option.mem_toList.mpr hp))
      · obtain ⟨hid, hpending⟩ := takes_eq_some hr
        exact ⟨hid, hcall ▸ (hI.exclusive.tracked.pending _ r hpending).step h⟩
  returned p hp := by
    rw [SyncCall.hears_phase] at hp
    rw [SyncCall.hears_promise]
    exact hx.returned p hp

/-- A call that is about to be made has been answered by nobody. -/
theorem Tracked.invocations_eq_zero (hI : t.Tracked) : t.invocations t.calls.length = 0 := by
  refine List.countP_eq_zero.mpr fun y hy hcall => ?_
  obtain ⟨c, hc, -⟩ := hI.completed y hy
  simp only [Bool.and_eq_true, decide_eq_true_eq] at hcall
  rw [hcall.1, List.getElem?_eq_none (Nat.le_refl _)] at hc
  exact absurd hc (by simp)

/-- A call that has returned a number other than 0 has entered it. -/
theorem Orderly.returned_cases {k : ℕ} {c : RequestCall} {sequence : UInt32} (hI : t.Orderly)
    (hc : t.calls[k]? = some c) (hreturned : c.returned = some sequence) :
    sequence = 0 ∧ t.Settled c ∨ sequence ≠ 0 ∧ c.phase = .done ∧ c.sequence = sequence := by
  rcases RequestCall.returned_cases hreturned with ⟨hphase, rfl⟩ | ⟨hphase, rfl⟩
  · exact .inl ⟨rfl, settled_of_failed hI hc hphase⟩
  · refine .inr ⟨fun hzero => ?_, hphase, rfl⟩
    have hpos : 0 < t.holders 0 := by
      refine List.countP_pos_iff.mpr ⟨c, List.mem_of_getElem? hc, ?_⟩
      simp [RequestCall.holds, hzero, hphase]
    exact absurd hI.retired.zero.1 (Nat.ne_of_gt hpos)

/-- When the callback has been invoked, the entry is gone. -/
theorem Orderly.getElem?_eq_none {k : ℕ} {c : RequestCall} (hI : t.Orderly)
    (hc : t.calls[k]? = some c) (hinvoked : 0 < t.invocations k) :
    t.pendingRequests[c.sequence]? = none := by
  have hle := hI.exclusive.account_le_one c.sequence
  have hinvocations := hI.exclusive.tracked.invocations_le hc
  rw [outcomes] at hle
  cases hr : t.pendingRequests[c.sequence]? with
  | none => rfl
  | some r => exact absurd (present_eq_one hr) (by omega)

section OwnSteps

variable {x : SyncCall}

/-- A new call and the client agree. -/
theorem syncValid_sendRequest (hI : t.Orderly) (data : List UInt8) (timeout : ℕ) :
    SyncValid (t.sendRequest data timeout true) { request := t.calls.length } where
  call := ⟨_, List.getElem?_concat_length, trivial⟩
  invoked := hI.exclusive.tracked.invocations_eq_zero
  values := by simp
  returned := by simp

/-- The return of `sendRequest` keeps the agreement. -/
theorem SyncValid.sendReturned {c : RequestCall} {sequence : UInt32} (hx : SyncValid t x)
    (hI : t.Orderly) (hc : t.calls[x.request]? = some c)
    (hreturned : c.returned = some sequence) : SyncValid t (x.sendReturned t c sequence) where
  call := by
    refine ⟨c, hc, ?_⟩
    rcases hI.returned_cases hc hreturned with ⟨hzero, hsettled⟩ | ⟨hne, hdone⟩
    · rwa [SyncCall.sendReturned, if_pos hzero]
    · rwa [SyncCall.sendReturned, if_neg hne]
  invoked := hx.invoked
  values := hx.values
  returned p hp := by
    simp only [SyncCall.sendReturned] at hp
    split at hp <;> simp at hp

/-- The callback sets the promise. -/
theorem SyncValid.setValue {p : Packet} (hx : SyncValid t x) (hsetting : x.setting = some p) :
    SyncValid t { x with setting := none, promise := x.promise ++ [p] } where
  call := hx.call
  invoked := by simpa [hsetting] using hx.invoked
  values := by simpa [hsetting] using hx.values
  returned q hq := List.mem_append_left _ (hx.returned q hq)

/-- The promise has been set, so the entry is gone. -/
theorem SyncValid.waitReturned {p : Packet} {ps : List Packet} {sequence : UInt32} {deadline : ℕ}
    (hx : SyncValid t x) (hI : t.Orderly) (hphase : x.phase = .waiting sequence deadline)
    (hpromise : x.promise = p :: ps) :
    SyncValid t { x with phase := .ended (.returned p) } where
  call := by
    obtain ⟨c, hc, hfits⟩ := hx.call
    rw [hphase] at hfits
    refine ⟨c, hc, .inl hfits.1, hI.getElem?_eq_none hc ?_⟩
    rw [hx.invoked, hpromise, List.length_cons]
    omega
  invoked := hx.invoked
  values := hx.values
  returned q hq := by
    obtain rfl : p = q := by simpa using hq
    exact hpromise ▸ List.mem_cons_self

/-- The end of `wait_for` keeps the agreement. -/
theorem SyncValid.waitExpired {sequence : UInt32} {deadline : ℕ} (hx : SyncValid t x)
    (hphase : x.phase = .waiting sequence deadline) :
    SyncValid t { x with phase := .expired sequence } where
  call := by
    obtain ⟨c, hc, hfits⟩ := hx.call
    exact ⟨c, hc, by rwa [hphase] at hfits⟩
  invoked := hx.invoked
  values := hx.values
  returned := by simp

/-- `cancelRequest` takes the entry out if nobody else has. -/
theorem SyncValid.cancelRequest {sequence : UInt32} (hx : SyncValid t x)
    (hphase : x.phase = .expired sequence) :
    SyncValid (t.cancelRequest sequence) { x with phase := .ended .timedOut } where
  call := by
    obtain ⟨c, hc, hfits⟩ := hx.call
    rw [hphase] at hfits
    obtain ⟨hdone, rfl⟩ := hfits
    exact ⟨c, hc, .inl hdone, Std.TreeMap.getElem?_erase_self⟩
  invoked := hx.invoked
  values := hx.values
  returned := by simp

end OwnSteps

/-- What holds of a client with a call of `sendRequestSync`. -/
structure Synced (u : SyncClient) : Prop where
  client : u.client.Orderly
  sync : ∀ x, u.sync = some x → SyncValid u.client x

/-- There is no call at the start. -/
theorem synced_start : Synced {} := ⟨orderly_start, fun x hx => absurd hx (by simp)⟩

/-- Every step keeps what holds of a client with a call. -/
theorem Synced.step {u u' : SyncClient} {e : SyncEvent} (hI : Synced u)
    (h : syncStep clientId u e = some u') (hdrawn : u'.client.drawn < 2 ^ 32) : Synced u' := by
  -- the call is the one that the step has left
  have hone {t : TcpClient} {x : SyncCall} (ht : t.Orderly) (hx : SyncValid t x) :
      Synced ⟨t, some x⟩ := ⟨ht, fun y hy => Option.some.inj hy ▸ hx⟩
  cases syncChange_of_syncStep h with
  | @client e t hblocks hstep =>
    have hI' := hI.client.step hstep hdrawn
    refine ⟨hI', fun x' hx' => ?_⟩
    obtain ⟨x, hx, rfl⟩ := Option.map_eq_some_iff.mp hx'
    rw [hx] at hblocks
    exact (hI.sync x hx).client hI.client hI' hblocks hstep
  | @call data timeout hsync =>
    have hstep : TcpClient.step clientId u.client (.sendRequest data timeout true) =
        some (u.client.sendRequest data timeout true) := rfl
    exact hone (hI.client.step hstep hdrawn) (syncValid_sendRequest hI.client data timeout)
  | sendReturned hsync _ hc hreturned =>
    exact hone hI.client ((hI.sync _ hsync).sendReturned hI.client hc hreturned)
  | setValue hsync hsetting => exact hone hI.client ((hI.sync _ hsync).setValue hsetting)
  | returned hsync hphase hpromise =>
    exact hone hI.client ((hI.sync _ hsync).waitReturned hI.client hphase hpromise)
  | expired hsync hphase _ => exact hone hI.client ((hI.sync _ hsync).waitExpired hphase)
  | @cancel x sequence hsync hphase =>
    have hstep : TcpClient.step clientId u.client (.cancelRequest sequence) =
        some (u.client.cancelRequest sequence) := rfl
    exact hone (hI.client.step hstep hdrawn) ((hI.sync x hsync).cancelRequest hphase)

/-! ## A synchronous request cleans up -/

/-- The event is a step of the call of `sendRequestSync` or of its callback. -/
def Own (u : SyncClient) : SyncEvent → Prop
  | .client e => ∃ x, u.sync = some x ∧
      e ∈ [.draw x.request, .sendDrawn x.request, .register x.request, .startTimeoutTimer x.request]
  | _ => True

/-- The entries of all other requests are there after the event as they were before. -/
def KeepsOthers (clientId : List UInt8) (u : SyncClient) (e : SyncEvent) : Prop :=
  ∀ u', syncStep clientId u e = some u' → ∀ (s : UInt32) (r : PendingRequest),
    u.client.pendingRequests[s]? = some r → (∀ x, u.sync = some x → r.call ≠ x.request) →
    u'.client.pendingRequests[s]? = some r

/-- A number that is about to be entered is not the number of an entry of another request. -/
theorem Orderly.call_eq_of_sent {k : ℕ} {c : RequestCall} {r : PendingRequest} (hI : t.Orderly)
    (hc : t.calls[k]? = some c) (hphase : c.phase = .sent)
    (hr : t.pendingRequests[c.sequence]? = some r) : r.call = k := by
  obtain ⟨b, hb, hentered, -⟩ := hI.enrolled _ r hr
  exact eq_of_countP_le_one (hI.exclusive.numbered.unique c.sequence) hb hc
    (RequestCall.holds_of_entered hentered) (by simp [RequestCall.holds, hphase])

/-- The steps of the call leave the entries of other requests alone. -/
theorem Synced.keepsOthers {u : SyncClient} {e : SyncEvent} (hI : Synced u) (hown : Own u e) :
    KeepsOthers clientId u e := by
  intro u' h s r hr hother
  cases syncChange_of_syncStep h with
  | client _ hstep =>
    obtain ⟨x, hx, hmem⟩ := hown
    rw [(transition_of_step hstep).pending]
    simp only [List.mem_cons, List.not_mem_nil, or_false] at hmem
    -- only the registration touches the table, under the number of the call
    rcases hmem with rfl | rfl | rfl | rfl
    · exact hr
    · exact hr
    · obtain ⟨c, hcall, -⟩ := Option.map_eq_some_iff.mp hstep
      obtain ⟨hc, hphase⟩ := callIn_eq_some hcall
      have hne : c.sequence ≠ s := by
        rintro rfl
        exact hother x hx (hI.client.call_eq_of_sent hc hphase hr)
      simpa [inserts, hcall, removes, cancels, lookupAfter, hne] using hr
    · exact hr
  | @cancel x sequence hsync hphase =>
    obtain ⟨c, hc, hfits⟩ := (hI.sync x hsync).call
    rw [hphase] at hfits
    obtain ⟨hdone, rfl⟩ := hfits
    have hne : c.sequence ≠ s := by
      rintro rfl
      have hentered : c.entered c.sequence = true := by simp [RequestCall.entered, hdone]
      exact hother x hsync (hI.client.exclusive.call_eq hI.client.enrolled hc hentered hr)
    simpa [cancelRequest, Std.TreeMap.getElem?_erase, hne] using hr
  | _ => exact hr

/-- In a run numbers are drawn and never given back. -/
theorem drawn_syncRun {u v : SyncClient} {es : List SyncEvent}
    (h : run (syncStep clientId) u es = some v) : u.client.drawn ≤ v.client.drawn := by
  refine run_induction (P := fun w => u.client.drawn ≤ w.client.drawn) le_rfl
    (fun w e w' hle hw => ?_) h
  obtain ⟨es, hes⟩ := run_client_of_syncStep hw
  exact hle.trans (drawn_run hes)

/-- What holds of a client with a call holds in every run of fewer than 2^32 numbers. -/
theorem synced_run {u : SyncClient} {es : List SyncEvent}
    (h : run (syncStep clientId) {} es = some u) (hdrawn : u.client.drawn < 2 ^ 32) : Synced u := by
  refine run_induction (P := fun u => u.client.drawn < 2 ^ 32 → Synced u) (fun _ => synced_start)
    (fun u e u' hI hu hlt => ?_) h hdrawn
  obtain ⟨es, hes⟩ := run_client_of_syncStep hu
  exact (hI ((drawn_run hes).trans_lt hlt)).step hu hlt

/-- **A synchronous request cleans up.** In a run in which fewer than 2^32 numbers are drawn, the
promise of `sendRequestSync` is set at most once. When the call is over, in whatever way, there is
no entry for the number it used, and a packet that it has returned is a `RESPONSE` with this number.
No step of the call takes out the entry of another request. -/
theorem sendRequestSync_cleans_up (clientId : List UInt8) (es : List SyncEvent) (u : SyncClient)
    (hrun : run (syncStep clientId) {} es = some u) (hdrawn : u.client.drawn < 2 ^ 32) :
    (∀ x, u.sync = some x → x.promise.length ≤ 1 ∧
      ∀ outcome, x.phase = .ended outcome → ∃ c, u.client.calls[x.request]? = some c ∧
        u.client.pendingRequests[c.sequence]? = none ∧
        ∀ p, outcome = .returned p →
          p.header.packetId = idResponse ∧ p.header.sequence = c.sequence) ∧
    EveryStep (syncStep clientId) {} es fun t e => Own t e → KeepsOthers clientId t e := by
  constructor
  · intro x hx
    have hI := synced_run hrun hdrawn
    obtain ⟨⟨c, hc, hfits⟩, hinvoked, hvalues, hreturned⟩ := hI.sync x hx
    constructor
    · have hle := hI.client.exclusive.account_le_one c.sequence
      have hinvocations := hI.client.exclusive.tracked.invocations_le hc
      rw [outcomes] at hle
      omega
    · intro outcome houtcome
      rw [houtcome] at hfits
      refine ⟨c, hc, hfits.pending, fun p hp => ?_⟩
      have hmem := hreturned p (hp ▸ houtcome)
      obtain ⟨hid, b, hb, -, hsequence⟩ := hvalues p (List.mem_append_left _ hmem)
      obtain rfl := Option.some.inj (hc.symm.trans hb)
      exact ⟨hid, hsequence.symm⟩
  · intro pre e post t heq ht hown
    rw [heq, run_append, ht, Option.bind_some] at hrun
    exact (synced_run ht ((drawn_syncRun hrun).trans_lt hdrawn)).keepsOthers hown

/-- Another request is pending when the call is made. The answer comes before the request has been
entered and is lost; it comes again and takes the entry, but the time is over before the promise is
set. -/
def answeredTooLate : List SyncEvent :=
  (connects ++ requests 0).map SyncEvent.client ++
    [SyncEvent.sendRequestSync [0x61] 20, .client (.draw 1), .client (.sendDrawn 1),
      .client (.processPacket (createPacket ⟨idResponse, 0, 3, [0x62]⟩)), .client (.register 1),
      .client (.startTimeoutTimer 1), .sendReturned, .client (.tick 20),
      .client (.processPacket (createPacket ⟨idResponse, 0, 3, [0x62]⟩)), .waitOver, .setValue,
      .cancelRequest]

/-- After `answeredTooLate` the call has timed out, its promise is set, and its entry is gone. -/
theorem sendRequestSync_cleans_up_late :
    ∃ u x, run (syncStep [0x43]) {} answeredTooLate = some u ∧ u.sync = some x ∧
      x.phase = .ended .timedOut ∧ x.promise.length = 1 ∧
      ∃ c, u.client.calls[1]? = some c ∧ u.client.pendingRequests[c.sequence]? = none := by
  obtain ⟨u, hrun, hdrawn, hsync⟩ : ∃ u, run (syncStep [0x43]) {} answeredTooLate = some u ∧
      u.client.drawn = 3 ∧
      u.sync = some ⟨1, .ended .timedOut, none, [createPacket ⟨idResponse, 0, 3, [0x62]⟩]⟩ :=
    ⟨_, rfl, rfl, rfl⟩
  obtain ⟨-, hover⟩ :=
    (sendRequestSync_cleans_up [0x43] _ u hrun (by rw [hdrawn]; decide)).1 _ hsync
  obtain ⟨c, hc, hpending, -⟩ := hover _ rfl
  exact ⟨u, _, hrun, hsync, rfl, rfl, c, hc, hpending⟩

end TcpClient

end TurboNet.Asio
