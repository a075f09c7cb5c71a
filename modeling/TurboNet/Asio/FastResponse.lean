import TurboNet.Asio.Requests
import TurboNet.Asio.Dispatch

/-!
# Answers that come too soon

Reference: `claude/asio_client.cpp`, `TcpClient::sendRequest`, `TcpClient::processPacket`;
`claude/asio_server.cpp`, `TcpServer::sendRequest`, `TcpServer::handleIncomingPacket`.

Both `sendRequest` hand the packet to the connection first and enter the request into the pending
table after that. The peer may answer in between, and the handler of the answer runs on another
thread: it finds nothing, and the callback of the request is not called. `response_invokes_iff` says
that this order is the only one that goes wrong. From the step that sends the packet on, as long as
nothing ends the request, a `RESPONSE` with its number calls its callback exactly when the request
has been entered before the `RESPONSE` is handled, and its entry has not been replaced by another
call with the same number.
-/

namespace TurboNet.Asio

open Common

/-! ## The client -/

namespace TcpClient

variable {clientId : List UInt8} {t t' : TcpClient} {k : ℕ} {c : RequestCall}

/-- The event ends the request of call `k` with number `s`: it takes its entry out of
`pending_requests_`, because the request is cancelled or expires, the connection is lost, or an
answer has come. -/
def Ends (k : ℕ) (s : UInt32) (t : TcpClient) (e : Event) : Prop :=
  Owned PendingRequest.call s k t.pendingRequests ∧ s ∈ t.removes e

instance (k : ℕ) (s : UInt32) (t : TcpClient) (e : Event) : Decidable (Ends k s t e) :=
  inferInstanceAs (Decidable (Owned PendingRequest.call s k t.pendingRequests ∧ s ∈ t.removes e))

/-- In a run of `es` from `t` call `k` enters the number `s`, and no other call does after that. -/
def RegisteredIn (clientId : List UInt8) (k : ℕ) (s : UInt32) (t : TcpClient) (es : List Event) :
    Prop :=
  InsertedIn (step clientId) inserts PendingRequest.call s k t es

/-- A call that has only sent its packet has no entry. -/
theorem Enrolled.not_owned (hI : t.Enrolled) (hc : t.calls[k]? = some c) (hphase : c.phase = .sent)
    (s : UInt32) : ¬ Owned PendingRequest.call s k t.pendingRequests := by
  rintro ⟨r, hr, rfl⟩
  obtain ⟨c', hc', hentered, -⟩ := hI s r hr
  obtain rfl := Option.some.inj (hc.symm.trans hc')
  simp [RequestCall.entered, hphase] at hentered

/-- A `RESPONSE` calls the callback of the call whose entry is found under its sequence. -/
theorem Enrolled.completed_iff (hI : t.Enrolled) (hc : t.calls[k]? = some c)
    (hcallback : c.responseCallback = true) {p : Packet} (hid : p.header.packetId = idResponse)
    (h : TcpClient.step clientId t (.processPacket p) = some t') :
    t'.completed = t.completed ++ [⟨k, p, t.received.length, true⟩] ↔
      Owned PendingRequest.call p.header.sequence k t.pendingRequests := by
  rw [(transition_of_step h).completed, List.append_cancel_left_eq, completes, takes, if_pos hid]
  cases hr : t.pendingRequests[p.header.sequence]? with
  | none => simp [Owned, hr]
  | some r =>
    simp only [Option.map_some, Option.toList_some, List.cons.injEq, and_true, Owned, hr,
      Option.some.injEq, exists_eq_left', Completed.mk.injEq, true_and]
    constructor
    · exact And.left
    · rintro rfl
      obtain ⟨c', hc', -, hcallback'⟩ := hI _ r hr
      obtain rfl := Option.some.inj (hc.symm.trans hc')
      exact ⟨rfl, hcallback'.symm.trans hcallback⟩

/-- A call keeps its callback. -/
theorem responseCallback_run {es : List Event} (h : run (TcpClient.step clientId) t es = some t')
    (hc : t.calls[k]? = some c) :
    ∃ c' : RequestCall, t'.calls[k]? = some c' ∧ c'.responseCallback = c.responseCallback := by
  refine run_induction (P := fun t => ∃ c' : RequestCall, t.calls[k]? = some c' ∧
    c'.responseCallback = c.responseCallback) ⟨c, hc, rfl⟩ ?_ h
  rintro t e t' ⟨c', hc', hcallback⟩ ht
  obtain ⟨c'', hc'', hgoes⟩ := call_step ht hc'
  exact ⟨c'', hc'', hgoes.responseCallback_eq.trans hcallback⟩

/-- A request is sent, and after the events `mid`, none of which ends it, a `RESPONSE` with its
number is handled: call `k` sends its packet and leaves the client in state `t₁`, the `RESPONSE` `p`
finds it in state `t₂` and leaves it in state `t₃`. -/
structure Exchange (clientId : List UInt8) (k : ℕ) (c : RequestCall) (p : Packet)
    (mid : List Event) (t₁ t₂ t₃ : TcpClient) : Prop where
  sends : ∃ pre t, run (step clientId) {} pre = some t ∧ step clientId t (.sendDrawn k) = some t₁
  call : t₁.calls[k]? = some c
  phase : c.phase = .sent
  callback : c.responseCallback = true
  run_mid : run (step clientId) t₁ mid = some t₂
  not_ended : EveryStep (step clientId) t₁ mid fun t e => ¬ Ends k c.sequence t e
  packetId : p.header.packetId = idResponse
  sequence : p.header.sequence = c.sequence
  handles : step clientId t₂ (.processPacket p) = some t₃

/-- The `RESPONSE` calls the callback exactly when the request has been entered before. -/
theorem Exchange.invokes_iff {p : Packet} {mid : List Event} {t₁ t₂ t₃ : TcpClient}
    (h : Exchange clientId k c p mid t₁ t₂ t₃) :
    t₃.completed = t₂.completed ++ [⟨k, p, t₂.received.length, true⟩] ↔
      RegisteredIn clientId k c.sequence t₁ mid := by
  obtain ⟨pre, t, ht, ht₁⟩ := h.sends
  have hen : t.Enrolled := run_induction enrolled_start (fun _ _ _ hI h => hI.step h) ht
  have hen₁ : t₁.Enrolled := hen.step ht₁
  have hen₂ : t₂.Enrolled := run_induction hen₁ (fun _ _ _ hI h => hI.step h) h.run_mid
  obtain ⟨c', hc', hcallback⟩ := responseCallback_run h.run_mid h.call
  rw [hen₂.completed_iff hc' (hcallback.trans h.callback) h.packetId h.handles, h.sequence]
  exact owned_run pendingRequests removes (fun t e t' ht => (transition_of_step ht).pending _)
    (hen₁.not_owned h.call h.phase _) h.not_ended h.run_mid

end TcpClient

/-! ## The server -/

/-- A call keeps its callback as it goes on. -/
theorem RequestCall.Goes.responseCallback_eq {c c' : RequestCall} (h : c.Goes c') :
    c'.responseCallback = c.responseCallback := by
  cases h <;> rfl

/-- The call has entered its number into `pendingRequests_`. -/
def RequestCall.entered (c : RequestCall) : Bool :=
  decide (c.phase = .registered) || decide (c.phase = .done)

/-- A call that has entered its number has done so for good. -/
theorem RequestCall.Goes.entered {c c' : RequestCall} (h : c.Goes c') (hc : c.entered = true) :
    c'.entered = true := by
  cases h with
  | refl => exact hc
  | send _ hphase _ => simp [RequestCall.entered, hphase] at hc
  | register => rfl
  | finish => rfl

namespace TcpServer

variable {serverId : List UInt8} {t t' : TcpServer} {e : Event} {k : ℕ} {c : RequestCall}

/-- The event ends the request of call `k` with number `s`: it takes its entry out of
`pendingRequests_`, because the request is cancelled or expires, or an answer has come. -/
def Ends (k : ℕ) (s : UInt32) (t : TcpServer) (e : Event) : Prop :=
  Owned PendingRequest.call s k t.pendingRequests ∧ s ∈ t.removes e

instance (k : ℕ) (s : UInt32) (t : TcpServer) (e : Event) : Decidable (Ends k s t e) :=
  inferInstanceAs (Decidable (Owned PendingRequest.call s k t.pendingRequests ∧ s ∈ t.removes e))

/-- In a run of `es` from `t` call `k` enters the number `s`, and no other call does after that. -/
def RegisteredIn (serverId : List UInt8) (k : ℕ) (s : UInt32) (t : TcpServer) (es : List Event) :
    Prop :=
  InsertedIn (step serverId) inserts PendingRequest.call s k t es

/-- Every entry was made by a call that has entered its number, and has the callback of the call. -/
def Enrolled (t : TcpServer) : Prop :=
  ∀ (s : UInt32) (r : PendingRequest), t.pendingRequests[s]? = some r →
    ∃ c : RequestCall, t.calls[r.call]? = some c ∧ c.entered = true ∧
      c.responseCallback = r.callback

/-- The table is empty at the start. -/
theorem enrolled_start : Enrolled {} := fun s r hr => absurd hr (by simp)

/-- Every step keeps the entries those of calls that have entered. -/
theorem Enrolled.step (hI : t.Enrolled) (h : step serverId t e = some t') : t'.Enrolled := by
  intro s r hr
  rw [getElem?_pending_step h] at hr
  rcases lookupAfter_eq_some hr with hinserts | ⟨-, hr⟩
  · obtain ⟨rfl, c, hc, hphase, -, -, hcallback⟩ := inserts_eq_some hinserts
    obtain ⟨c', hc', rfl⟩ := Option.map_eq_some_iff.mp h
    obtain ⟨hc', -⟩ := callIn_eq_some hc'
    obtain rfl := Option.some.inj (hc.symm.trans hc')
    refine ⟨{ c with phase := .registered }, ?_, rfl, hcallback⟩
    exact List.getElem?_set_self (List.getElem?_eq_some_iff.mp hc).1
  · obtain ⟨c, hc, hentered, hcallback⟩ := hI s r hr
    obtain ⟨c', hc', hgoes⟩ := call_step h hc
    exact ⟨c', hc', hgoes.entered hentered, hgoes.responseCallback_eq.trans hcallback⟩

/-- A call that has only sent its packet has no entry. -/
theorem Enrolled.not_owned (hI : t.Enrolled) (hc : t.calls[k]? = some c) (hphase : c.phase = .sent)
    (s : UInt32) : ¬ Owned PendingRequest.call s k t.pendingRequests := by
  rintro ⟨r, hr, rfl⟩
  obtain ⟨c', hc', hentered, -⟩ := hI s r hr
  obtain rfl := Option.some.inj (hc.symm.trans hc')
  simp [RequestCall.entered, hphase] at hentered

/-- The handling of a `RESPONSE` calls the callback of the call whose entry is found under its
sequence. -/
theorem Enrolled.taken_iff (hI : t.Enrolled) (hc : t.calls[k]? = some c)
    (hcallback : c.responseCallback = true) {j : ℕ} {d : Dispatch} (hd : t.dispatches[j]? = some d)
    (hid : d.packet.header.packetId = idResponse)
    (h : TcpServer.step serverId t (.handleIncomingPacket j) = some t') :
    t'.taken = t.taken ++ [⟨k, d.connectionId, d.packet, true⟩] ↔
      Owned PendingRequest.call d.packet.header.sequence k t.pendingRequests := by
  rw [taken_step h, List.append_cancel_left_eq, takes, hd, Option.bind_some, if_pos hid]
  cases hr : t.pendingRequests[d.packet.header.sequence]? with
  | none => simp [Owned, hr]
  | some r =>
    simp only [takenBy, Option.map_some, Option.toList_some, List.cons.injEq, and_true, Owned, hr,
      Option.some.injEq, exists_eq_left', Taken.mk.injEq, true_and]
    constructor
    · exact And.left
    · rintro rfl
      obtain ⟨c', hc', -, hcallback'⟩ := hI _ r hr
      obtain rfl := Option.some.inj (hc.symm.trans hc')
      exact ⟨rfl, hcallback'.symm.trans hcallback⟩

/-- A call keeps its callback. -/
theorem responseCallback_run {es : List Event} (h : run (TcpServer.step serverId) t es = some t')
    (hc : t.calls[k]? = some c) :
    ∃ c' : RequestCall, t'.calls[k]? = some c' ∧ c'.responseCallback = c.responseCallback := by
  refine run_induction (P := fun t => ∃ c' : RequestCall, t.calls[k]? = some c' ∧
    c'.responseCallback = c.responseCallback) ⟨c, hc, rfl⟩ ?_ h
  rintro t e t' ⟨c', hc', hcallback⟩ ht
  obtain ⟨c'', hc'', hgoes⟩ := call_step ht hc'
  exact ⟨c'', hc'', hgoes.responseCallback_eq.trans hcallback⟩

/-- A request is sent, and after the events `mid`, none of which ends it, a `RESPONSE` with its
number is handled, by the `j`-th of the calls of `handleIncomingPacket` under way. -/
structure Exchange (serverId : List UInt8) (k : ℕ) (c : RequestCall) (j : ℕ) (d : Dispatch)
    (mid : List Event) (t₁ t₂ t₃ : TcpServer) : Prop where
  sends : ∃ pre t, run (TcpServer.step serverId) {} pre = some t ∧
    TcpServer.step serverId t (.sendDrawn k) = some t₁
  call : t₁.calls[k]? = some c
  phase : c.phase = .sent
  callback : c.responseCallback = true
  run_mid : run (TcpServer.step serverId) t₁ mid = some t₂
  not_ended : EveryStep (TcpServer.step serverId) t₁ mid fun t e => ¬ Ends k c.sequence t e
  dispatch : t₂.dispatches[j]? = some d
  packetId : d.packet.header.packetId = idResponse
  sequence : d.packet.header.sequence = c.sequence
  handles : TcpServer.step serverId t₂ (.handleIncomingPacket j) = some t₃

/-- The `RESPONSE` calls the callback exactly when the request has been entered before. -/
theorem Exchange.invokes_iff {j : ℕ} {d : Dispatch} {mid : List Event} {t₁ t₂ t₃ : TcpServer}
    (h : Exchange serverId k c j d mid t₁ t₂ t₃) :
    t₃.taken = t₂.taken ++ [⟨k, d.connectionId, d.packet, true⟩] ↔
      RegisteredIn serverId k c.sequence t₁ mid := by
  obtain ⟨pre, t, ht, ht₁⟩ := h.sends
  have hen : t.Enrolled := run_induction enrolled_start (fun _ _ _ hI h => hI.step h) ht
  have hen₁ : t₁.Enrolled := hen.step ht₁
  have hen₂ : t₂.Enrolled := run_induction hen₁ (fun _ _ _ hI h => hI.step h) h.run_mid
  obtain ⟨c', hc', hcallback⟩ := responseCallback_run h.run_mid h.call
  rw [hen₂.taken_iff hc' (hcallback.trans h.callback) h.dispatch h.packetId h.handles, h.sequence]
  exact owned_run pendingRequests removes (fun t e t' ht => getElem?_pending_step ht _)
    (hen₁.not_owned h.call h.phase _) h.not_ended h.run_mid

end TcpServer

/-! ## Fast answers -/

/-- **Fast answers.** A request whose packet has been sent is answered by a `RESPONSE` with its
number before it expires, is cancelled or is dropped. In the client and in the server the `RESPONSE`
calls the callback of the request exactly when, between the sending of the packet and the handling
of the `RESPONSE`, the request has been entered into the pending table, and no other request has
been entered under its number since. -/
theorem response_invokes_iff (clientId serverId : List UInt8) :
    (∀ (k : ℕ) (c : TcpClient.RequestCall) (p : Packet) (mid : List TcpClient.Event)
        (t₁ t₂ t₃ : TcpClient), TcpClient.Exchange clientId k c p mid t₁ t₂ t₃ →
      (t₃.completed = t₂.completed ++ [⟨k, p, t₂.received.length, true⟩] ↔
        TcpClient.RegisteredIn clientId k c.sequence t₁ mid)) ∧
    ∀ (k : ℕ) (c : RequestCall) (j : ℕ) (d : Dispatch) (mid : List TcpServer.Event)
        (t₁ t₂ t₃ : TcpServer), TcpServer.Exchange serverId k c j d mid t₁ t₂ t₃ →
      (t₃.taken = t₂.taken ++ [⟨k, d.connectionId, d.packet, true⟩] ↔
        TcpServer.RegisteredIn serverId k c.sequence t₁ mid) :=
  ⟨fun _ _ _ _ _ _ _ h => h.invokes_iff, fun _ _ _ _ _ _ _ _ h => h.invokes_iff⟩

/-- The client has drawn a number for its first request. -/
def clientDraws : List TcpClient.Event :=
  TcpClient.connects ++ [.sendRequest [0x61] 5000 true, .draw 0]

/-- The answer to this request. -/
def clientAnswer : Packet := createPacket ⟨idResponse, 0, 2, [0x62]⟩

/-- The server has a connection and has drawn a number for its first request. -/
def serverDraws : List TcpServer.Event :=
  [.start, .accept false, .sendRequest 1 [0x61] 5000 true false]

/-- The answer to this request. -/
def serverAnswer : Packet := createPacket ⟨idResponse, 0, 1, [0x62]⟩

/-- The requests are entered before the answers are handled: the callbacks are called. -/
theorem response_invokes_iff_registered :
    (∃ t₁ t₂ t₃, TcpClient.Exchange [0x43] 0 ⟨[0x61], 5000, true, 2, .sent⟩ clientAnswer
        [.register 0] t₁ t₂ t₃ ∧
      t₃.completed = t₂.completed ++ [⟨0, clientAnswer, t₂.received.length, true⟩]) ∧
    ∃ t₁ t₂ t₃, TcpServer.Exchange [0x53] 0 ⟨1, [0x61], 5000, true, false, 1, .sent⟩ 0
        ⟨0, 1, serverAnswer, 0⟩ [.processPacket 0 serverAnswer, .register 0] t₁ t₂ t₃ ∧
      t₃.taken = t₂.taken ++ [⟨0, 1, serverAnswer, true⟩] := by
  constructor
  · obtain ⟨t₁, t₂, t₃, h, hin⟩ : ∃ t₁ t₂ t₃, TcpClient.Exchange [0x43] 0
        ⟨[0x61], 5000, true, 2, .sent⟩ clientAnswer [.register 0] t₁ t₂ t₃ ∧
        TcpClient.RegisteredIn [0x43] 0 2 t₁ [.register 0] := by
      refine ⟨_, _, _, ⟨⟨clientDraws, _, rfl, rfl⟩, rfl, rfl, rfl, rfl, by decide, rfl, rfl, rfl⟩,
        ?_⟩
      exact ⟨[], .register 0, [], _, _, rfl, rfl, ⟨_, rfl, rfl⟩, rfl, everyStep_nil⟩
    exact ⟨t₁, t₂, t₃, h, ((response_invokes_iff [0x43] [0x53]).1 0 _ _ _ t₁ t₂ t₃ h).mpr hin⟩
  · obtain ⟨t₁, t₂, t₃, h, hin⟩ : ∃ t₁ t₂ t₃, TcpServer.Exchange [0x53] 0
        ⟨1, [0x61], 5000, true, false, 1, .sent⟩ 0 ⟨0, 1, serverAnswer, 0⟩
        [.processPacket 0 serverAnswer, .register 0] t₁ t₂ t₃ ∧
        TcpServer.RegisteredIn [0x53] 0 1 t₁ [.processPacket 0 serverAnswer, .register 0] := by
      refine ⟨_, _, _, ⟨⟨serverDraws, _, rfl, rfl⟩, rfl, rfl, rfl, rfl, by decide, rfl, rfl, rfl,
        rfl⟩, ?_⟩
      exact ⟨[_], .register 0, [], _, _, rfl, rfl, ⟨_, rfl, rfl⟩, rfl, everyStep_nil⟩
    exact ⟨t₁, t₂, t₃, h, ((response_invokes_iff [0x43] [0x53]).2 0 _ 0 _ _ t₁ t₂ t₃ h).mpr hin⟩

/-- The answers are handled before the requests are entered: no callback is called, and the requests
are entered after that for nothing. -/
theorem fast_response_lost :
    (∃ t₁ t₃ t₄,
      TcpClient.Exchange [0x43] 0 ⟨[0x61], 5000, true, 2, .sent⟩ clientAnswer [] t₁ t₁ t₃ ∧
      t₃.completed = [] ∧ TcpClient.step [0x43] t₃ (.register 0) = some t₄ ∧
      t₄.pendingRequests.contains 2 = true) ∧
    ∃ t₁ t₂ t₃ t₄, TcpServer.Exchange [0x53] 0 ⟨1, [0x61], 5000, true, false, 1, .sent⟩ 0
        ⟨0, 1, serverAnswer, 0⟩ [.processPacket 0 serverAnswer] t₁ t₂ t₃ ∧
      t₃.taken = [] ∧ TcpServer.step [0x53] t₃ (.register 0) = some t₄ ∧
      t₄.pendingRequests.contains 1 = true := by
  refine ⟨⟨_, _, _, ⟨⟨clientDraws, _, rfl, rfl⟩, rfl, rfl, rfl, rfl, everyStep_nil, rfl, rfl, rfl⟩,
    rfl, rfl, rfl⟩, ⟨_, _, _, _, ⟨⟨serverDraws, _, rfl, rfl⟩, rfl, rfl, rfl, rfl, by decide, rfl,
    rfl, rfl, rfl⟩, rfl, rfl, rfl⟩⟩

end TurboNet.Asio
