import TurboNet.Asio.Requests
import TurboNet.Asio.Dispatch

/-!
# What `sendRequest` returns

Reference: `claude/asio_client.cpp`, `TcpClient::sendRequest`, `TcpClient::sendRequestSync`,
`TcpClient::getNextSequence`; `claude/asio_server.cpp`, `TcpServer::sendRequest`,
`TcpServer::getNextSequence`.

Both `sendRequest` return the number of the request, and 0 if it could not be sent. The numbers come
from a 32-bit counter that starts at 1 and wraps, so 0 is a number as well. `returned_zero_iff` says
that this is the only clash: a call that has returned means failure by 0, and nothing else by it,
unless it drew its number when the counter stood at 0 and its packet was accepted.
-/

namespace TurboNet.Asio

open Common

/-! ## The client -/

namespace TcpClient

variable {clientId : List UInt8} {t t' u : TcpClient} {e : Event} {es : List Event} {k : ℕ}
  {c : RequestCall}

/-- The packet of the call has been accepted by `sendPacket`. -/
def RequestPhase.handed : RequestPhase → Bool
  | .sent => true
  | .registered => true
  | .done => true
  | _ => false

/-- The request of the call has been entered into `pending_requests_`. -/
def RequestPhase.listed : RequestPhase → Bool
  | .registered => true
  | .done => true
  | _ => false

/-- What the call has returned, if it has. -/
def RequestCall.returned (c : RequestCall) : Option UInt32 :=
  match c.phase with
  | .done => some c.sequence
  | .failed => some 0
  | _ => none

/-- `sendRequestSync` throws the error that says that there is no connection, if this is its call of
`sendRequest`. -/
def RequestCall.throwsNotConnected (c : RequestCall) : Bool := c.returned = some 0

/-- Call `k` draws its number when the counter stands at 0. -/
def DrawsZero (k : ℕ) (t : TcpClient) (e : Event) : Prop := e = .draw k ∧ t.nextSequence = 0

/-- Call `k` comes to `sendPacket` when there is a connection. -/
def FindsConnection (k : ℕ) (t : TcpClient) (e : Event) : Prop :=
  e = .sendDrawn k ∧ t.connected = true

/-- Call `k` hands over a packet. -/
def Hands (clientId : List UInt8) (k : ℕ) (t : TcpClient) (e : Event) : Prop :=
  e = .sendDrawn k ∧ ∃ t', step clientId t e = some t' ∧ t'.sent ≠ t.sent

/-- An entry of call `k` is inserted into `pending_requests_`. -/
def Enters (k : ℕ) (t : TcpClient) (e : Event) : Prop :=
  ∃ (s : UInt32) (r : PendingRequest), t.inserts e = some (s, r) ∧ r.call = k

/-- In the run call `k` has left nothing behind: no packet and no entry. -/
def LeavesNothing (clientId : List UInt8) (es : List Event) (k : ℕ) : Prop :=
  ¬ SomeStep (step clientId) {} es (Hands clientId k) ∧ ¬ SomeStep (step clientId) {} es (Enters k)

/-- In the run call `k` has drawn the number 0 and found a connection. -/
def SendsZero (clientId : List UInt8) (es : List Event) (k : ℕ) : Prop :=
  SomeStep (step clientId) {} es (DrawsZero k) ∧ SomeStep (step clientId) {} es (FindsConnection k)

/-- What a step makes of call `k`. -/
inductive CallMove (t : TcpClient) (k : ℕ) :
    Event → Option RequestCall → Option RequestCall → Prop where
  | idle {e : Event} {c : Option RequestCall}
      (hidle : e ∉ [Event.draw k, .sendDrawn k, .register k]) : CallMove t k e c c
  | make {data : List UInt8} {timeout : ℕ} {responseCallback : Bool} {c : RequestCall}
      (hphase : c.phase = .checked ∨ c.phase = .failed) :
      CallMove t k (.sendRequest data timeout responseCallback) none (some c)
  | draw {c : RequestCall} (hphase : c.phase = .checked) :
      CallMove t k (.draw k) (some c)
        (some { c with sequence := t.nextSequence, phase := .drawn })
  | send {c : RequestCall} (hphase : c.phase = .drawn) :
      CallMove t k (.sendDrawn k) (some c)
        (some { c with phase := if t.connected then .sent else .failed })
  | register {c : RequestCall} (hphase : c.phase = .sent) :
      CallMove t k (.register k) (some c) (some { c with phase := .registered })
  | finish {c : RequestCall} (hphase : c.phase = .registered) :
      CallMove t k (.startTimeoutTimer k) (some c) (some { c with phase := .done })

/-- What has nothing to do with requests leaves the calls alone. -/
theorem Quiet.calls_eq (h : Quiet t t') : t'.calls = t.calls := by
  have hsame := h.same
  simp only [Prod.mk.injEq] at hsame
  exact hsame.2.2.2.2.2.2.2

/-- The call with number `j` goes on: call `k` moves if it is this one. -/
theorem callMove_set {j : ℕ} {c c' : RequestCall} (hc : t.calls[j]? = some c)
    (hcalls : t'.calls = t.calls.set j c') (hmove : j = k → CallMove t k e (some c) (some c'))
    (hidle : j ≠ k → e ∉ [Event.draw k, .sendDrawn k, .register k]) :
    CallMove t k e t.calls[k]? t'.calls[k]? := by
  rw [hcalls]
  by_cases hjk : j = k
  · subst hjk
    rw [List.getElem?_set_self (List.getElem?_eq_some_iff.mp hc).1, hc]
    exact hmove rfl
  · rw [List.getElem?_set_ne hjk]
    exact .idle (hidle hjk)

/-- Every step moves a call in one of these ways. -/
theorem callMove_of_step (k : ℕ) (h : step clientId t e = some t') :
    CallMove t k e t.calls[k]? t'.calls[k]? := by
  -- most steps leave the calls alone
  have hsame (hcalls : t'.calls = t.calls)
      (hidle : e ∉ [Event.draw k, .sendDrawn k, .register k]) :
      CallMove t k e t.calls[k]? t'.calls[k]? := hcalls ▸ .idle hidle
  cases stepped_of_step h with
  | sendRequest =>
    by_cases hk : k < t.calls.length
    · rw [sendRequest, List.getElem?_append_left hk]
      exact .idle (by simp)
    · rw [List.getElem?_eq_none (Nat.not_lt.mp hk), sendRequest]
      rcases Nat.eq_or_lt_of_le (Nat.not_lt.mp hk) with rfl | hlt
      · rw [List.getElem?_concat_length]
        refine .make ?_
        split
        · exact Or.inl rfl
        · exact Or.inr rfl
      · rw [List.getElem?_eq_none (by rw [List.length_append]; exact hlt)]
        exact .idle (by simp)
  | draw j c hcall =>
    obtain ⟨hc, hphase⟩ := callIn_eq_some hcall
    exact callMove_set hc rfl (fun hjk => hjk ▸ .draw hphase) (by simp)
  | sendDrawn j c hcall =>
    obtain ⟨hc, hphase⟩ := callIn_eq_some hcall
    have hcalls : (t.sendDrawn j c).calls =
        t.calls.set j { c with phase := if t.connected then .sent else .failed } := by
      rw [sendDrawn, setCall, (t.quiet_sendPacket _).calls_eq]
    exact callMove_set hc hcalls (fun hjk => hjk ▸ .send hphase) (by simp)
  | register j c hcall =>
    obtain ⟨hc, hphase⟩ := callIn_eq_some hcall
    exact callMove_set hc rfl (fun hjk => hjk ▸ .register hphase) (by simp)
  | startTimeoutTimer j c hcall =>
    obtain ⟨hc, hphase⟩ := callIn_eq_some hcall
    exact callMove_set hc rfl (fun hjk => hjk ▸ .finish hphase) (by simp)
  | start => exact hsame rfl (by simp)
  | stop => exact hsame rfl (by simp)
  | setAutoReconnect => exact hsame rfl (by simp)
  | tick => exact hsame rfl (by simp)
  | cancelRequest => exact hsame rfl (by simp)
  | sendPacket p => exact hsame (t.quiet_sendPacket p).calls_eq (by simp)
  | runConnect => exact hsame rfl (by simp)
  | connectDone error => exact hsame (t.quiet_connectDone error).calls_eq (by simp)
  | processPacket p => exact hsame (by rw [processPacket_eq]) (by simp)
  | drawBind => exact hsame rfl (by simp)
  | sendBind => exact hsame (quiet_sendPacket { t with handler := none } _).calls_eq (by simp)
  | handleDisconnect => exact hsame t.quiet_handleDisconnect.calls_eq (by simp)
  | clearRequests =>
    have hquiet := quiet_scheduleReconnect { t with handler := none, pendingRequests := ∅ }
    exact hsame hquiet.calls_eq (by simp)
  | runTimerPost => exact hsame t.quiet_runTimerPost.calls_eq (by simp)
  | expire => exact hsame rfl (by simp)
  | sweep => exact hsame rfl (by simp)
  | finishSweep hasPending => cases hasPending <;> exact hsame rfl (by simp)
  | reconnectExpire => exact hsame rfl (by simp)
  | reconnect timer =>
    exact hsame (quiet_reconnect { t with reconnectTimer := timer }).calls_eq (by simp)

/-! ## The history of a call of the client -/

/-- A call hands its packet over exactly when it comes to `sendPacket` and there is a connection. -/
theorem hands_iff (h : step clientId t e = some t') :
    Hands clientId k t e ↔ FindsConnection k t e := by
  refine and_congr_right fun he => ?_
  subst he
  obtain ⟨c, hc, rfl⟩ := Option.map_eq_some_iff.mp h
  have hstep : step clientId t (.sendDrawn k) = some (t.sendDrawn k c) := by
    rw [step, hc]
    rfl
  rw [hstep]
  simp only [Option.some.injEq, exists_eq_left', sendDrawn, sendPacket, setCall]
  split
  · simp [*]
  · simp [*]

/-- An entry is inserted by `register` only. -/
theorem enters_iff (h : step clientId t e = some t') : Enters k t e ↔ e = .register k := by
  constructor
  · rintro ⟨s, r, hinserts, rfl⟩
    exact (inserts_eq_some hinserts).1
  · rintro rfl
    obtain ⟨c, hc, -⟩ := Option.map_eq_some_iff.mp h
    exact ⟨c.sequence, _, by rw [inserts, hc]; rfl, rfl⟩

/-- A call has got past `sendPacket` when it has found a connection there. -/
theorem handed_step (h : step clientId t e = some t') :
    (∃ c : RequestCall, t'.calls[k]? = some c ∧ c.phase.handed = true) ↔
      FindsConnection k t e ∨
        ∃ c : RequestCall, t.calls[k]? = some c ∧ c.phase.handed = true := by
  have hmove := callMove_of_step k h
  generalize t.calls[k]? = old, t'.calls[k]? = new at hmove ⊢
  cases hmove with
  | idle hidle => simp_all [FindsConnection]
  | make hphase => rcases hphase with hp | hp <;> simp [FindsConnection, RequestPhase.handed, hp]
  | draw hphase => simp [FindsConnection, RequestPhase.handed, hphase]
  | send hphase =>
    cases hconnected : t.connected <;>
      simp [FindsConnection, RequestPhase.handed, hphase, hconnected]
  | register hphase => simp [FindsConnection, RequestPhase.handed, hphase]
  | finish hphase => simp [FindsConnection, RequestPhase.handed, hphase]

/-- A call has entered its request when it has registered it. -/
theorem listed_step (h : step clientId t e = some t') :
    (∃ c : RequestCall, t'.calls[k]? = some c ∧ c.phase.listed = true) ↔
      Enters k t e ∨ ∃ c : RequestCall, t.calls[k]? = some c ∧ c.phase.listed = true := by
  rw [enters_iff h]
  have hmove := callMove_of_step k h
  generalize t.calls[k]? = old, t'.calls[k]? = new at hmove ⊢
  cases hmove with
  | idle hidle => simp_all
  | make hphase => rcases hphase with hp | hp <;> simp [RequestPhase.listed, hp]
  | draw hphase => simp [RequestPhase.listed, hphase]
  | send hphase => cases t.connected <;> simp [RequestPhase.listed, hphase]
  | register hphase => simp [RequestPhase.listed]
  | finish hphase => simp [RequestPhase.listed, hphase]

/-- Whether a call has found a connection can be seen from where it has got to. -/
theorem findsConnection_iff (hrun : run (step clientId) {} es = some u)
    (hc : u.calls[k]? = some c) :
    SomeStep (step clientId) {} es (FindsConnection k) ↔ c.phase.handed = true := by
  have hiff := run_iff_someStep (A := FindsConnection k) (by simp) (fun _ _ _ h => handed_step h)
    hrun
  rw [← hiff]
  simp [hc]

/-- A call leaves nothing behind exactly when it has not handed its packet over. -/
theorem leavesNothing_iff (hrun : run (step clientId) {} es = some u)
    (hc : u.calls[k]? = some c) : LeavesNothing clientId es k ↔ c.phase.handed = false := by
  have hhands := run_iff_someStep (A := Hands clientId k) (by simp)
    (fun _ _ _ h => (handed_step h).trans (or_congr_left (hands_iff h).symm)) hrun
  have henters := run_iff_someStep (A := Enters k) (by simp) (fun _ _ _ h => listed_step h) hrun
  rw [LeavesNothing, ← hhands, ← henters]
  -- what has been entered has been handed over before
  cases hphase : c.phase <;> simp [hc, hphase, RequestPhase.handed, RequestPhase.listed]

/-- A call that has not failed has drawn 0 exactly when its number is 0. -/
theorem drawsZero_iff (hrun : run (step clientId) {} es = some u) (hc : u.calls[k]? = some c)
    (hphase : c.phase ≠ .failed) :
    SomeStep (step clientId) {} es (DrawsZero k) ↔ c.phase ≠ .checked ∧ c.sequence = 0 := by
  -- a call that has not been made yet has drawn nothing
  suffices hhistory : (u.calls[k]? = none → ¬ SomeStep (step clientId) {} es (DrawsZero k)) ∧
      ∀ c : RequestCall, u.calls[k]? = some c → c.phase ≠ .failed →
        (SomeStep (step clientId) {} es (DrawsZero k) ↔ c.phase ≠ .checked ∧ c.sequence = 0) from
    hhistory.2 c hc hphase
  clear hc hphase
  induction es using List.reverseRecOn generalizing u with
  | nil =>
    obtain rfl : {} = u := by simpa using hrun
    exact ⟨fun _ => not_someStep_nil, by simp⟩
  | append_singleton es e ih =>
    obtain ⟨t, ht, hlast⟩ := run_append_eq_some.mp hrun
    rw [run_singleton] at hlast
    have hmove := callMove_of_step k hlast
    obtain ⟨hnone, hsome⟩ := ih ht
    simp only [someStep_append_singleton ht]
    generalize t.calls[k]? = old, u.calls[k]? = new at hmove hnone hsome ⊢
    cases hmove with
    | idle hidle =>
      have hdraws : ¬ DrawsZero k t e := fun h => hidle (by simp [h.1])
      simpa only [hdraws, or_false] using And.intro hnone hsome
    | make hphase =>
      rcases hphase with hp | hp <;> simp [DrawsZero, hnone rfl, hp]
    | draw hphase => simp [DrawsZero, hsome _ rfl, hphase]
    | send hphase =>
      cases t.connected <;> simp [DrawsZero, hsome _ rfl, hphase]
    | register hphase => simp [DrawsZero, hsome _ rfl, hphase]
    | finish hphase => simp [DrawsZero, hsome _ rfl, hphase]

/-- Whether a call has sent a packet under the number 0 can be seen from the call. -/
theorem sendsZero_iff (hrun : run (step clientId) {} es = some u) (hc : u.calls[k]? = some c)
    (hphase : c.phase ≠ .failed) :
    SendsZero clientId es k ↔ c.sequence = 0 ∧ c.phase.handed = true := by
  rw [SendsZero, drawsZero_iff hrun hc hphase, findsConnection_iff hrun hc]
  cases hp : c.phase <;> simp [RequestPhase.handed]

/-- A call returns 0 after it has failed, and its number otherwise. -/
theorem RequestCall.returned_cases {v : UInt32} (h : c.returned = some v) :
    c.phase = .failed ∧ v = 0 ∨ c.phase = .done ∧ v = c.sequence := by
  unfold RequestCall.returned at h
  split at h
  · exact Or.inr ⟨‹_›, (Option.some.inj h).symm⟩
  · exact Or.inl ⟨‹_›, (Option.some.inj h).symm⟩
  · exact absurd h (by simp)

/-- The return value tells whether anything was left behind, unless a packet was sent under the
number 0. -/
theorem zero_iff_leavesNothing {v : UInt32} (hrun : run (step clientId) {} es = some u)
    (hc : u.calls[k]? = some c) (hv : c.returned = some v) :
    (v = 0 ↔ LeavesNothing clientId es k) ↔ ¬ SendsZero clientId es k := by
  rw [leavesNothing_iff hrun hc]
  rcases RequestCall.returned_cases hv with ⟨hphase, rfl⟩ | ⟨hphase, rfl⟩
  · have hfinds := findsConnection_iff hrun hc
    simp [SendsZero, hfinds, hphase, RequestPhase.handed]
  · rw [sendsZero_iff hrun hc (by simp [hphase])]
    simp [hphase, RequestPhase.handed]

end TcpClient

/-! ## The server -/

/-- The packet of the call has been handed to a connection. -/
def RequestPhase.handed : RequestPhase → Bool
  | .sent => true
  | .registered => true
  | .done => true
  | _ => false

/-- The request of the call has been entered into `pendingRequests_`. -/
def RequestPhase.listed : RequestPhase → Bool
  | .registered => true
  | .done => true
  | _ => false

/-- What the call has returned, if it has. -/
def RequestCall.returned (c : RequestCall) : Option UInt32 :=
  match c.phase with
  | .done => some c.sequence
  | .failed => some 0
  | _ => none

/-- A call returns 0 after it has failed, and its number otherwise. -/
theorem RequestCall.returned_cases {c : RequestCall} {v : UInt32} (h : c.returned = some v) :
    c.phase = .failed ∧ v = 0 ∨ c.phase = .done ∧ v = c.sequence := by
  unfold RequestCall.returned at h
  split at h
  · exact Or.inr ⟨‹_›, (Option.some.inj h).symm⟩
  · exact Or.inl ⟨‹_›, (Option.some.inj h).symm⟩
  · exact absurd h (by simp)

namespace TcpServer

variable {serverId : List UInt8} {t t' u : TcpServer} {e : Event} {es : List Event} {k : ℕ}
  {c : RequestCall}

/-- Call `k` is made when the counter stands at 0, which is the number it draws. -/
def DrawsZero (k : ℕ) (t : TcpServer) (e : Event) : Prop :=
  (∃ id data timeout responseCallback timeoutCallback,
    e = .sendRequest id data timeout responseCallback timeoutCallback) ∧
    t.calls.length = k ∧ t.nextSequence = 0

/-- Call `k` comes to `sendPacketTo` when its connection is registered. -/
def FindsConnection (k : ℕ) (t : TcpServer) (e : Event) : Prop :=
  e = .sendDrawn k ∧ ∃ c : RequestCall, t.calls[k]? = some c ∧ t.isRegistered c.connectionId = true

/-- Call `k` hands a packet to a connection. -/
def Hands (serverId : List UInt8) (k : ℕ) (t : TcpServer) (e : Event) : Prop :=
  e = .sendDrawn k ∧ ∃ t', step serverId t e = some t' ∧
    t'.connections.map Connection.sent ≠ t.connections.map Connection.sent

/-- An entry of call `k` is inserted into `pendingRequests_`. -/
def Enters (k : ℕ) (t : TcpServer) (e : Event) : Prop :=
  ∃ (s : UInt32) (r : PendingRequest), t.inserts e = some (s, r) ∧ r.call = k

/-- In the run call `k` has left nothing behind: no packet and no entry. -/
def LeavesNothing (serverId : List UInt8) (es : List Event) (k : ℕ) : Prop :=
  ¬ SomeStep (step serverId) {} es (Hands serverId k) ∧ ¬ SomeStep (step serverId) {} es (Enters k)

/-- In the run call `k` has drawn the number 0 and found its connection. -/
def SendsZero (serverId : List UInt8) (es : List Event) (k : ℕ) : Prop :=
  SomeStep (step serverId) {} es (DrawsZero k) ∧ SomeStep (step serverId) {} es (FindsConnection k)

/-- What a step makes of call `k`. -/
inductive CallMove (t : TcpServer) (k : ℕ) :
    Event → Option RequestCall → Option RequestCall → Prop where
  | idle {e : Event} {c : Option RequestCall} (hsend : e ≠ .sendDrawn k)
      (hregister : e ≠ .register k) (hdraws : ¬ DrawsZero k t e) : CallMove t k e c c
  | make (id : Int32) (data : List UInt8) (timeout : ℕ) (responseCallback timeoutCallback : Bool)
      (hk : t.calls.length = k) :
      CallMove t k (.sendRequest id data timeout responseCallback timeoutCallback) none
        (some ⟨id, data, timeout, responseCallback, timeoutCallback, t.nextSequence, .drawn⟩)
  | send {c : RequestCall} (hphase : c.phase = .drawn) :
      CallMove t k (.sendDrawn k) (some c)
        (some { c with phase := if t.isRegistered c.connectionId then .sent else .failed })
  | register {c : RequestCall} (hphase : c.phase = .sent) :
      CallMove t k (.register k) (some c) (some { c with phase := .registered })
  | finish {c : RequestCall} (hphase : c.phase = .registered) :
      CallMove t k (.ensureTimer k) (some c) (some { c with phase := .done })

/-- The call with number `j` goes on: call `k` moves if it is this one. -/
theorem callMove_set {j : ℕ} {c c' : RequestCall} (hc : t.calls[j]? = some c)
    (hcalls : t'.calls = t.calls.set j c') (hmove : j = k → CallMove t k e (some c) (some c'))
    (hidle : j ≠ k → e ≠ .sendDrawn k ∧ e ≠ .register k ∧ ¬ DrawsZero k t e) :
    CallMove t k e t.calls[k]? t'.calls[k]? := by
  rw [hcalls]
  by_cases hjk : j = k
  · subst hjk
    rw [List.getElem?_set_self (List.getElem?_eq_some_iff.mp hc).1, hc]
    exact hmove rfl
  · rw [List.getElem?_set_ne hjk]
    obtain ⟨hsend, hregister, hdraws⟩ := hidle hjk
    exact .idle hsend hregister hdraws

/-- The call goes on as sent or as failed. -/
theorem sendDrawn_calls (t : TcpServer) (j : ℕ) (c : RequestCall) :
    (t.sendDrawn j c).calls =
      t.calls.set j
        { c with phase := if t.isRegistered c.connectionId then .sent else .failed } := by
  rw [sendDrawn]
  split <;> rfl

/-- The call is done. -/
theorem ensureTimer_calls (t : TcpServer) (j : ℕ) (c : RequestCall) :
    (t.ensureTimer j c).calls = t.calls.set j { c with phase := .done } := by
  simp only [ensureTimer]
  split <;> rfl

/-- Every step moves a call in one of these ways. -/
theorem callMove_of_step (k : ℕ) (h : step serverId t e = some t') :
    CallMove t k e t.calls[k]? t'.calls[k]? := by
  -- most steps leave the calls alone
  have hsame (hcalls : t'.calls = t.calls) (hsend : e ≠ .sendDrawn k) (hregister : e ≠ .register k)
      (hdraws : ¬ DrawsZero k t e) : CallMove t k e t.calls[k]? t'.calls[k]? :=
    hcalls ▸ .idle hsend hregister hdraws
  cases stepped_of_step h with
  | sendRequest id data timeout responseCallback timeoutCallback =>
    rcases Nat.lt_trichotomy k t.calls.length with hlt | rfl | hlt
    · rw [sendRequest, List.getElem?_append_left hlt]
      exact .idle (by simp) (by simp) (fun hdraws => by have := hdraws.2.1; omega)
    · rw [sendRequest, List.getElem?_concat_length, List.getElem?_eq_none (Nat.le_refl _)]
      exact .make id data timeout responseCallback timeoutCallback rfl
    · rw [sendRequest, List.getElem?_eq_none (by omega),
        List.getElem?_eq_none (by rw [List.length_append]; exact hlt)]
      exact .idle (by simp) (by simp) (fun hdraws => by have := hdraws.2.1; omega)
  | sendDrawn j c hcall =>
    obtain ⟨hc, hphase⟩ := callIn_eq_some hcall
    exact callMove_set hc (sendDrawn_calls t j c) (fun hjk => hjk ▸ .send hphase)
      (by simp [DrawsZero])
  | register j c hcall =>
    obtain ⟨hc, hphase⟩ := callIn_eq_some hcall
    exact callMove_set hc rfl (fun hjk => hjk ▸ .register hphase) (by simp [DrawsZero])
  | ensureTimer j c hcall =>
    obtain ⟨hc, hphase⟩ := callIn_eq_some hcall
    exact callMove_set hc (ensureTimer_calls t j c) (fun hjk => hjk ▸ .finish hphase)
      (by simp [DrawsZero])
  | processPacket =>
    refine hsame ?_ (by simp) (by simp) (by simp [DrawsZero])
    rw [processPacket, callBack_calls]
    rfl
  | handleIncomingPacket =>
    refine hsame ?_ (by simp) (by simp) (by simp [DrawsZero])
    rw [handleIncomingPacket, callBack_calls, takePending_calls]
  | finishSweep j hasPending =>
    cases hasPending <;> exact hsame rfl (by simp) (by simp) (by simp [DrawsZero])
  | _ => exact hsame rfl (by simp) (by simp) (by simp [DrawsZero])

/-! ## The history of a call of the server -/

/-- A packet for a registered connection can be seen among what the connections were handed. -/
theorem sendPacketTo_sent_ne {id : Int32} (p : Packet) (h : t.isRegistered id = true) :
    (t.sendPacketTo id p).connections.map Connection.sent ≠
      t.connections.map Connection.sent := by
  obtain ⟨d, hd, hmatch⟩ := List.any_eq_true.mp h
  intro heq
  rw [sendPacketTo, updateWhere, List.map_map, List.map_inj_left] at heq
  have hsent := heq d hd
  simp only [Function.comp_apply, hmatch, if_true, Connection.sendPacket] at hsent
  exact absurd (congrArg List.length hsent) (by simp)

/-- A call hands its packet over exactly when it comes to `sendPacketTo` and its connection is
registered. -/
theorem hands_iff (h : step serverId t e = some t') :
    Hands serverId k t e ↔ FindsConnection k t e := by
  refine and_congr_right fun he => ?_
  subst he
  obtain ⟨c, hcall, rfl⟩ := Option.map_eq_some_iff.mp h
  have hstep : step serverId t (.sendDrawn k) = some (t.sendDrawn k c) := by
    rw [step, hcall]
    rfl
  rw [hstep]
  simp only [Option.some.injEq, exists_eq_left', (callIn_eq_some hcall).1, sendDrawn]
  cases hregistered : t.isRegistered c.connectionId with
  | true => exact iff_of_true (sendPacketTo_sent_ne _ hregistered) rfl
  | false => exact iff_of_false (fun hne => hne rfl) (by simp)

/-- An entry is inserted by `register` only. -/
theorem enters_iff (h : step serverId t e = some t') : Enters k t e ↔ e = .register k := by
  constructor
  · rintro ⟨s, r, hinserts, rfl⟩
    exact (inserts_eq_some hinserts).1
  · rintro rfl
    obtain ⟨c, hc, -⟩ := Option.map_eq_some_iff.mp h
    exact ⟨c.sequence, _, by rw [inserts, hc]; rfl, rfl⟩

/-- A call has got past `sendPacketTo` when it has found its connection there. -/
theorem handed_step (h : step serverId t e = some t') :
    (∃ c : RequestCall, t'.calls[k]? = some c ∧ c.phase.handed = true) ↔
      FindsConnection k t e ∨
        ∃ c : RequestCall, t.calls[k]? = some c ∧ c.phase.handed = true := by
  have hmove := callMove_of_step k h
  rw [FindsConnection]
  generalize t.calls[k]? = old, t'.calls[k]? = new at hmove ⊢
  cases hmove with
  | idle hsend => simp [hsend]
  | make => simp [RequestPhase.handed]
  | send hphase =>
    cases hregistered : t.isRegistered _ <;> simp [RequestPhase.handed, hphase, hregistered]
  | register hphase => simp [RequestPhase.handed, hphase]
  | finish hphase => simp [RequestPhase.handed, hphase]

/-- A call has entered its request when it has registered it. -/
theorem listed_step (h : step serverId t e = some t') :
    (∃ c : RequestCall, t'.calls[k]? = some c ∧ c.phase.listed = true) ↔
      Enters k t e ∨ ∃ c : RequestCall, t.calls[k]? = some c ∧ c.phase.listed = true := by
  rw [enters_iff h]
  have hmove := callMove_of_step k h
  generalize t.calls[k]? = old, t'.calls[k]? = new at hmove ⊢
  cases hmove with
  | idle _ hregister => simp [hregister]
  | make => simp [RequestPhase.listed]
  | send hphase => split <;> simp [RequestPhase.listed, hphase]
  | register hphase => simp [RequestPhase.listed]
  | finish hphase => simp [RequestPhase.listed, hphase]

/-- The number of a call is 0 when it was made with the counter at 0. -/
theorem sequence_zero_step (h : step serverId t e = some t') :
    (∃ c : RequestCall, t'.calls[k]? = some c ∧ c.sequence = 0) ↔
      DrawsZero k t e ∨ ∃ c : RequestCall, t.calls[k]? = some c ∧ c.sequence = 0 := by
  have hmove := callMove_of_step k h
  generalize t.calls[k]? = old, t'.calls[k]? = new at hmove ⊢
  cases hmove with
  | idle _ _ hdraws => simp [hdraws]
  | make _ _ _ _ _ hk => simp [DrawsZero, hk]
  | send => simp [DrawsZero]
  | register => simp [DrawsZero]
  | finish => simp [DrawsZero]

/-- A call leaves nothing behind exactly when it has not handed its packet over. -/
theorem leavesNothing_iff (hrun : run (step serverId) {} es = some u)
    (hc : u.calls[k]? = some c) : LeavesNothing serverId es k ↔ c.phase.handed = false := by
  have hhands := run_iff_someStep (A := Hands serverId k) (by simp)
    (fun _ _ _ h => (handed_step h).trans (or_congr_left (hands_iff h).symm)) hrun
  have henters := run_iff_someStep (A := Enters k) (by simp) (fun _ _ _ h => listed_step h) hrun
  rw [LeavesNothing, ← hhands, ← henters]
  -- what has been entered has been handed over before
  cases hphase : c.phase <;> simp [hc, hphase, RequestPhase.handed, RequestPhase.listed]

/-- Whether a call has sent a packet under the number 0 can be seen from the call. -/
theorem sendsZero_iff (hrun : run (step serverId) {} es = some u) (hc : u.calls[k]? = some c) :
    SendsZero serverId es k ↔ c.sequence = 0 ∧ c.phase.handed = true := by
  have hdraws := run_iff_someStep (A := DrawsZero k) (by simp)
    (fun _ _ _ h => sequence_zero_step h) hrun
  have hfinds := run_iff_someStep (A := FindsConnection k) (by simp)
    (fun _ _ _ h => handed_step h) hrun
  rw [SendsZero, ← hdraws, ← hfinds]
  simp [hc]

/-- The return value tells whether anything was left behind, unless a packet was sent under the
number 0. -/
theorem zero_iff_leavesNothing {v : UInt32} (hrun : run (step serverId) {} es = some u)
    (hc : u.calls[k]? = some c) (hv : c.returned = some v) :
    (v = 0 ↔ LeavesNothing serverId es k) ↔ ¬ SendsZero serverId es k := by
  rw [leavesNothing_iff hrun hc, sendsZero_iff hrun hc]
  rcases RequestCall.returned_cases hv with ⟨hphase, rfl⟩ | ⟨hphase, rfl⟩
  · simp [hphase, RequestPhase.handed]
  · simp [hphase, RequestPhase.handed]

end TcpServer

/-! ## Zero means failure -/

/-- **Zero means failure.** A call of `sendRequest` that has returned returned 0 exactly when it
left no packet and no entry behind, unless it drew its number when the counter stood at 0 and its
packet was accepted; and in that case it did not. So a `sendRequestSync` that says that there is no
connection has left nothing behind with the same exception. -/
theorem returned_zero_iff (clientId serverId : List UInt8) :
    (∀ (es : List TcpClient.Event) (u : TcpClient) (k : ℕ) (c : TcpClient.RequestCall) (v : UInt32),
      run (TcpClient.step clientId) {} es = some u → u.calls[k]? = some c → c.returned = some v →
      ((v = 0 ↔ TcpClient.LeavesNothing clientId es k) ↔ ¬ TcpClient.SendsZero clientId es k)) ∧
    (∀ (es : List TcpClient.Event) (u : TcpClient) (k : ℕ) (c : TcpClient.RequestCall),
      run (TcpClient.step clientId) {} es = some u → u.calls[k]? = some c →
      c.throwsNotConnected = true →
      (TcpClient.LeavesNothing clientId es k ↔ ¬ TcpClient.SendsZero clientId es k)) ∧
    (∀ (es : List TcpServer.Event) (u : TcpServer) (k : ℕ) (c : RequestCall) (v : UInt32),
      run (TcpServer.step serverId) {} es = some u → u.calls[k]? = some c → c.returned = some v →
      ((v = 0 ↔ TcpServer.LeavesNothing serverId es k) ↔ ¬ TcpServer.SendsZero serverId es k)) := by
  refine ⟨fun es u k c v hrun hc hv => TcpClient.zero_iff_leavesNothing hrun hc hv, ?_,
    fun es u k c v hrun hc hv => TcpServer.zero_iff_leavesNothing hrun hc hv⟩
  intro es u k c hrun hc hthrows
  have hv : c.returned = some 0 := of_decide_eq_true hthrows
  have hiff := TcpClient.zero_iff_leavesNothing hrun hc hv
  simpa using hiff

/-- A request of a connected client, a request of a client that is not, and a request of a server to
a connection that does not exist. -/
theorem returned_zero_iff_ordinary :
    ¬ TcpClient.LeavesNothing [0x43] (TcpClient.connects ++ TcpClient.requests 0) 0 ∧
    TcpClient.LeavesNothing [0x43] [.sendRequest [0x61] 5000 true] 0 ∧
    TcpServer.LeavesNothing [0x53] [.start, .sendRequest 1 [0x61] 5000 true false, .sendDrawn 0]
      0 := by
  obtain ⟨hreturned, hthrows, hserver⟩ := returned_zero_iff [0x43] [0x53]
  refine ⟨fun hnothing => ?_, ?_, ?_⟩
  · obtain ⟨u, hrun, hc⟩ : ∃ u, run (TcpClient.step [0x43]) {}
        (TcpClient.connects ++ TcpClient.requests 0) = some u ∧
        u.calls[0]? = some ⟨[0x61], 5000, true, 2, .done⟩ := ⟨_, rfl, rfl⟩
    have hzero : ¬ TcpClient.SendsZero [0x43] (TcpClient.connects ++ TcpClient.requests 0) 0 :=
      fun h => absurd ((TcpClient.sendsZero_iff hrun hc (by decide)).mp h).1 (by decide)
    exact absurd (((hreturned _ u 0 _ 2 hrun hc rfl).mpr hzero).mpr hnothing) (by decide)
  · obtain ⟨u, hrun, hc⟩ : ∃ u, run (TcpClient.step [0x43]) {}
        [.sendRequest [0x61] 5000 true] = some u ∧
        u.calls[0]? = some ⟨[0x61], 5000, true, 0, .failed⟩ := ⟨_, rfl, rfl⟩
    refine (hthrows _ u 0 _ hrun hc rfl).mpr fun h => ?_
    exact absurd ((TcpClient.findsConnection_iff hrun hc).mp h.2) (by decide)
  · obtain ⟨u, hrun, hc⟩ : ∃ u, run (TcpServer.step [0x53]) {}
        [.start, .sendRequest 1 [0x61] 5000 true false, .sendDrawn 0] = some u ∧
        u.calls[0]? = some ⟨1, [0x61], 5000, true, false, 1, .failed⟩ := ⟨_, rfl, rfl⟩
    refine ((hserver _ u 0 _ 0 hrun hc rfl).mpr fun h => ?_).mp rfl
    exact absurd ((TcpServer.sendsZero_iff hrun hc).mp h).1 (by decide)

/-! ## The counter comes round -/

/-- A connected client sends a request. -/
theorem TcpClient.run_requests (clientId : List UInt8) {t : TcpClient} (h : t.connected = true) :
    ∃ t', run (step clientId) t (requests t.calls.length) = some t' ∧ t'.connected = true ∧
      t'.nextSequence = t.nextSequence + 1 ∧
      t'.calls = t.calls ++ [⟨[0x61], 5000, true, t.nextSequence, .done⟩] := by
  simp [requests, run, step, sendRequest, h, callIn, draw, setCall, getNextSequence, sendDrawn,
    sendPacket, register, startTimeoutTimer, Option.filter]

/-- A client connects and sends `n` requests. -/
theorem TcpClient.exists_run_requests (clientId : List UInt8) (n : ℕ) :
    ∃ es u, run (step clientId) {} es = some u ∧ u.connected = true ∧ u.calls.length = n ∧
      u.nextSequence = 2 + UInt32.ofNat n := by
  induction n with
  | zero => exact ⟨connects, _, rfl, rfl, rfl, rfl⟩
  | succ n ih =>
    obtain ⟨es, t, hrun, hconnected, hlength, hnext⟩ := ih
    obtain ⟨u, hu, hconnected, hnext', hcalls⟩ := run_requests clientId hconnected
    refine ⟨_, u, run_append_eq_some.mpr ⟨t, hrun, hu⟩, hconnected, ?_, ?_⟩
    · rw [hcalls, List.length_append, hlength]
      rfl
    · rw [hnext', hnext, UInt32.ofNat_add, UInt32.add_assoc]
      rfl

/-- The heartbeats of a server without connections. -/
theorem TcpServer.run_broadcasts (serverId : List UInt8) (n : ℕ) (t : TcpServer)
    (h : t.connections = []) :
    run (step serverId) t (List.replicate n (.broadcast idResponse 0 [])) =
      some { t with nextSequence := t.nextSequence + UInt32.ofNat n } := by
  induction n generalizing t with
  | zero => simp
  | succ n ih =>
    have hstep : step serverId t (.broadcast idResponse 0 []) =
        some { t with nextSequence := t.nextSequence + 1 } := by
      simp [step, broadcast, getNextSequence, broadcastPacket, updateWhere, h]
    rw [List.replicate_succ, run_cons, hstep, Option.bind_some,
      ih { t with nextSequence := t.nextSequence + 1 } h, UInt32.ofNat_add, UInt32.add_assoc,
      UInt32.add_comm 1]
    rfl

/-- The counter has come round. A client sends its 2^32 - 1st request, which gets the number 0, and
a server that has sent 2^32 - 1 heartbeats sends its first one. Both calls return 0, and their
packets and entries are there; to the caller of `sendRequestSync` there is no connection. -/
theorem request_zero_returned :
    (∃ es u c, run (TcpClient.step [0x43]) {} es = some u ∧ u.calls[2 ^ 32 - 2]? = some c ∧
      c.returned = some 0 ∧ c.throwsNotConnected = true ∧
      ¬ TcpClient.LeavesNothing [0x43] es (2 ^ 32 - 2)) ∧
    (∃ es u c, run (TcpServer.step [0x53]) {} es = some u ∧ u.calls[0]? = some c ∧
      c.returned = some 0 ∧ u.pendingRequests.contains 0 = true ∧
      ¬ TcpServer.LeavesNothing [0x53] es 0) := by
  constructor
  · obtain ⟨es, t, hrun, hconnected, hlength, hnext⟩ :=
      TcpClient.exists_run_requests [0x43] (2 ^ 32 - 2)
    obtain ⟨u, hu, -, -, hcalls⟩ := TcpClient.run_requests [0x43] hconnected
    have hzero : t.nextSequence = 0 := by rw [hnext]; decide
    have hc : u.calls[2 ^ 32 - 2]? = some ⟨[0x61], 5000, true, 0, .done⟩ := by
      rw [hcalls, ← hlength, List.getElem?_concat_length, hzero]
    have hrun := run_append_eq_some.mpr ⟨t, hrun, hu⟩
    refine ⟨_, u, _, hrun, hc, rfl, rfl, fun h => ?_⟩
    exact absurd ((TcpClient.leavesNothing_iff hrun hc).mp h) (by decide)
  · have hbeats := TcpServer.run_broadcasts [0x53] (2 ^ 32 - 1) {} rfl
    obtain ⟨u, hu, hc, hpending⟩ : ∃ u, run (TcpServer.step [0x53]) { nextSequence := 0 }
        [.start, .accept false, .sendRequest 1 [0x61] 5000 true false, .sendDrawn 0, .register 0,
          .ensureTimer 0] = some u ∧
        u.calls[0]? = some ⟨1, [0x61], 5000, true, false, 0, .done⟩ ∧
        u.pendingRequests.contains 0 = true := ⟨_, rfl, rfl, rfl⟩
    have hzero : (1 : UInt32) + UInt32.ofNat (2 ^ 32 - 1) = 0 := by decide
    have hrun := run_append_eq_some.mpr ⟨_, hbeats, hzero ▸ hu⟩
    refine ⟨_, u, _, hrun, hc, rfl, hpending, fun h => ?_⟩
    exact absurd ((TcpServer.leavesNothing_iff hrun hc).mp h) (by decide)

end TurboNet.Asio
