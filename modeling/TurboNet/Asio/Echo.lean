import TurboNet.Asio.Delivery
import TurboNet.Asio.Requests

/-!
# A request gets its own data back

Reference: `claude/asio_client.cpp`, `TcpClient::sendRequest`, `TcpClient::processPacket`;
`claude/asio_server.cpp`, `Connection::processPacket`.

The server answers a `REQUEST` with a `RESPONSE` that carries its number and its data, and the
client looks for the request by the number alone. So an answer finds the call that made the request
when no two calls have the same number and every `REQUEST` on the connection is one of `sendRequest`
(`Asked`). `echoes` follows such a call from its bytes to the server and back.
-/

namespace TurboNet.Asio

open Common

namespace TcpClient

variable {clientId : List UInt8} {t t' : TcpClient} {e : Event}

/-- The event is not a call of `sendPacket` with a `REQUEST` that the application has made. -/
def Event.genuine : Event → Bool
  | .sendPacket p => decide (p.header.packetId ≠ idRequest)
  | _ => true

/-! ## What has been asked -/

/-- The call has sent its packet, with the number `s`. -/
def RequestCall.asked (s : UInt32) (c : RequestCall) : Bool :=
  decide (c.sequence = s) && decide (c.phase ∈ [.sent, .registered, .done])

/-- A call that has entered its number has sent its packet. -/
theorem RequestCall.asked_of_entered {s : UInt32} {c : RequestCall} (h : c.entered s = true) :
    c.asked s = true := by
  simp only [RequestCall.entered, RequestCall.asked, Bool.and_eq_true, Bool.or_eq_true,
    decide_eq_true_eq] at h ⊢
  refine ⟨h.1, ?_⟩
  rcases h.2 with hphase | hphase <;> simp [hphase]

/-- A call that has sent its packet holds its number. -/
theorem RequestCall.holds_of_asked {s : UInt32} {c : RequestCall} (h : c.asked s = true) :
    c.holds s = true := by
  simp only [RequestCall.asked, RequestCall.holds, Bool.and_eq_true, decide_eq_true_eq,
    List.mem_cons, List.not_mem_nil, or_false] at h ⊢
  rcases h with ⟨hs, hphase | hphase | hphase⟩ <;> simp [hs, hphase]

/-- A call that has sent its packet has sent it for good. -/
theorem RequestCall.Goes.asked {c c' : RequestCall} {s : UInt32} (h : c.Goes c')
    (hc : c.asked s = true) : c'.asked s = true := by
  simp only [RequestCall.asked, Bool.and_eq_true, decide_eq_true_eq] at hc ⊢
  cases h with
  | refl => exact hc
  | draw _ hphase => simp [hphase] at hc
  | send _ hphase _ => simp [hphase] at hc
  | register => simp [hc.1]
  | finish => simp [hc.1]

/-- A call keeps its data as it goes on. -/
theorem RequestCall.Goes.data_eq {c c' : RequestCall} (h : c.Goes c') : c'.data = c.data := by
  cases h <;> rfl

/-- The packet is the `REQUEST` of one of the calls. -/
def Posed (t : TcpClient) (q : Packet) : Prop :=
  ∃ (k : ℕ) (c : RequestCall), t.calls[k]? = some c ∧ c.asked q.header.sequence = true ∧
    q.payload = c.data

/-- The packet is a `RESPONSE` that has come in, and the call has its number. -/
def Matched (t : TcpClient) (x : Completed) : Prop :=
  t.received[x.index]? = some x.packet ∧ x.packet.header.packetId = idResponse ∧
    ∃ c : RequestCall, t.calls[x.call]? = some c ∧ c.asked x.packet.header.sequence = true

/-- Every `REQUEST` that has been sent is that of a call, and every entry that a packet has taken
was made by a call with the number of the packet. -/
structure Asked (t : TcpClient) : Prop where
  enrolled : t.Enrolled
  sent : ∀ q ∈ t.sent, q.header.packetId = idRequest → t.Posed q
  completed : ∀ x ∈ t.completed, t.Matched x

/-- Nothing has been sent at the start. -/
theorem asked_start : Asked {} :=
  ⟨enrolled_start, List.forall_mem_nil _, List.forall_mem_nil _⟩

/-- A `REQUEST` of a call stays one. -/
theorem Posed.step {q : Packet} (hq : t.Posed q) (h : step clientId t e = some t') :
    t'.Posed q := by
  obtain ⟨k, c, hc, hasked, hdata⟩ := hq
  obtain ⟨c', hc', hgoes⟩ := call_step h hc
  exact ⟨k, c', hc', hgoes.asked hasked, hdata.trans hgoes.data_eq.symm⟩

/-- A match stays one. -/
theorem Matched.step {x : Completed} (hx : t.Matched x) (h : step clientId t e = some t') :
    t'.Matched x := by
  obtain ⟨hreceived, hid, c, hc, hasked⟩ := hx
  obtain ⟨c', hc', hgoes⟩ := call_step h hc
  refine ⟨?_, hid, c', hc', hgoes.asked hasked⟩
  rw [(transition_of_step h).received]
  exact getElem?_append_of_some hreceived _

/-- What `sendPacket` adds to what has been sent. -/
theorem mem_sendPacket {p q : Packet} (h : q ∈ (t.sendPacket p).sent) :
    q ∈ t.sent ∨ q = p ∧ t.connected = true := by
  rw [sendPacket] at h
  split at h
  · rename_i hconnected
    rcases List.mem_append.mp h with h | h
    · exact Or.inl h
    · exact Or.inr ⟨List.mem_singleton.mp h, hconnected⟩
  · exact Or.inl h

/-- A `REQUEST` that has just been sent is that of a call. -/
theorem posed_step (hgenuine : e.genuine = true) (h : step clientId t e = some t') {q : Packet}
    (hq : q ∈ t'.sent) (hid : q.header.packetId = idRequest) : q ∈ t.sent ∨ t'.Posed q := by
  cases stepped_of_step h with
  | sendBind sequence =>
    rcases mem_sendPacket hq with hq | ⟨rfl, -⟩
    · exact Or.inl hq
    · exact absurd hid (by simp [createPacket, idBind, idRequest])
  | sendPacket p =>
    rcases mem_sendPacket hq with hq | ⟨rfl, -⟩
    · exact Or.inl hq
    · exact absurd hid (of_decide_eq_true hgenuine)
  | sendDrawn k c hcall =>
    rcases mem_sendPacket hq with hq | ⟨rfl, hconnected⟩
    · exact Or.inl hq
    · -- the call goes on with its packet sent
      have hcalls : (t.sendDrawn k c).calls =
          t.calls.set k { c with phase := if t.connected then .sent else .failed } := by
        simp only [sendDrawn, setCall, TcpClient.sendPacket]
        split <;> rfl
      refine Or.inr ⟨k, { c with phase := .sent }, ?_, ?_, rfl⟩
      · rw [hcalls, if_pos hconnected]
        exact List.getElem?_set_self (List.getElem?_eq_some_iff.mp (callIn_eq_some hcall).1).1
      · simp [RequestCall.asked, createPacket]
  | connectDone error => exact Or.inl (ClientSocket.connectDone_sent t error ▸ hq)
  | handleDisconnect => exact Or.inl (ClientSocket.handleDisconnect_sent t ▸ hq)
  | processPacket p => exact Or.inl (ClientSocket.processPacket_sent t p ▸ hq)
  | clearRequests =>
    rw [clearRequests, scheduleReconnect] at hq
    split at hq <;> exact Or.inl hq
  | runTimerPost =>
    simp only [runTimerPost] at hq
    split at hq <;> exact Or.inl hq
  | finishSweep hasPending => cases hasPending <;> exact Or.inl hq
  | reconnect timer =>
    rw [reconnect] at hq
    split at hq <;> exact Or.inl hq
  | _ => exact Or.inl hq

/-- An entry is taken by a packet that has the number of its call. -/
theorem matched_completes (hI : t.Enrolled) (h : step clientId t e = some t') {x : Completed}
    (hx : x ∈ t.completes e) : t'.Matched x := by
  obtain ⟨rfl, r, hr, hxr⟩ := mem_completes hx
  obtain ⟨hid, hpending⟩ := takes_eq_some hr
  obtain ⟨c, hc, hentered, -⟩ := hI _ r hpending
  obtain ⟨c', hc', hgoes⟩ := call_step h hc
  refine ⟨?_, hid, c', ?_, hgoes.asked (RequestCall.asked_of_entered hentered)⟩
  · rw [(transition_of_step h).received, hxr]
    exact List.getElem?_concat_length
  · rw [hxr]
    exact hc'

/-- Every genuine step keeps what has been sent that of a call. -/
theorem Asked.step (hI : t.Asked) (hgenuine : e.genuine = true)
    (h : step clientId t e = some t') : t'.Asked where
  enrolled := hI.enrolled.step h
  sent q hq hid := by
    rcases posed_step hgenuine h hq hid with hq | hposed
    · exact (hI.sent q hq hid).step h
    · exact hposed
  completed x hx := by
    rw [(transition_of_step h).completed] at hx
    rcases List.mem_append.mp hx with hx | hx
    · exact (hI.completed x hx).step h
    · exact matched_completes hI.enrolled h hx

/-- Every run of genuine steps keeps it. -/
theorem asked_run {es : List Event} (hI : t.Asked) (hgenuine : ∀ e ∈ es, e.genuine = true)
    (h : run (step clientId) t es = some t') : t'.Asked := by
  induction es generalizing t with
  | nil =>
    obtain rfl : t = t' := by simpa using h
    exact hI
  | cons e es ih =>
    obtain ⟨u, hu, hrest⟩ := run_cons_eq_some.mp h
    obtain ⟨he, hes⟩ := List.forall_mem_cons.mp hgenuine
    exact ih (hI.step he hu) hes hrest

/-- A `REQUEST` and a `RESPONSE` with its number are of one call. -/
theorem Posed.call_eq (hI : t.Numbered) {q : Packet} {x : Completed} (hq : t.Posed q)
    (hx : t.Matched x) (heq : x.packet.header.sequence = q.header.sequence) :
    ∃ c : RequestCall, t.calls[x.call]? = some c ∧ c.sequence = q.header.sequence ∧
      q.payload = c.data := by
  obtain ⟨k, b, hb, hasked, hdata⟩ := hq
  obtain ⟨-, -, c, hc, hasked'⟩ := hx
  rw [heq] at hasked'
  have hcall : x.call = k := eq_of_countP_le_one (hI.unique q.header.sequence) hc hb
    (RequestCall.holds_of_asked hasked') (RequestCall.holds_of_asked hasked)
  obtain rfl := Option.some.inj (hc.symm.trans (hcall ▸ hb))
  simp only [RequestCall.asked, Bool.and_eq_true, decide_eq_true_eq] at hasked
  exact ⟨c, hc, hasked.1, hdata⟩

end TcpClient

/-! ## On the connection -/

namespace ClientSocket

variable {host : Endian} {clientId : List UInt8} {t t' : ClientSocket} {e : Event}

/-- The same for the steps of the client with its socket. -/
def Event.genuine : Event → Bool
  | .client e _ => e.genuine
  | _ => true

/-- A genuine step of the socket is a genuine one of the client. -/
theorem genuine_clientEvents (hgenuine : e.genuine = true) :
    ∀ f ∈ t.clientEvents host e, f.genuine = true := by
  intro f hf
  cases e with
  | client e padding => exact List.mem_singleton.mp hf ▸ hgenuine
  | resolved error =>
    cases error with
    | true => exact List.mem_singleton.mp hf ▸ rfl
    | false => cases hf
  | readDone i bs =>
    simp only [clientEvents] at hf
    split at hf
    · obtain ⟨p, -, rfl⟩ := List.mem_map.mp hf
      rfl
    · cases hf
  | connectDone | readFailed | writeFailed => exact List.mem_singleton.mp hf ▸ rfl
  | nextEndpoint | runSend | readAborted | writeDone | writeAborted => cases hf

end ClientSocket

namespace ByteLink

variable {clientHost serverHost : Endian} {serverId clientId : List UInt8} {w w' : ByteLink}
  {e : Event}

/-- The same for the steps of both sides. -/
def Event.genuine : Event → Bool
  | .client e => e.genuine
  | _ => true

/-- Each side takes steps of its own. -/
theorem sides_run {es : List Event} (hgenuine : ∀ e ∈ es, e.genuine = true)
    (hrun : run (step clientHost serverHost serverId clientId) {} es = some w) :
    (∃ fs, (∀ f ∈ fs, f.genuine = true) ∧
        run (TcpClient.step clientId) {} fs = some w.client.client) ∧
      ∃ fs, run (TcpServer.step serverId) {} fs = some w.server.server := by
  have hsteps := (everyStep_iff_forall_mem hrun).mpr hgenuine
  refine (hsteps.everyState (P := fun w => (∃ fs, (∀ f ∈ fs, f.genuine = true) ∧
      run (TcpClient.step clientId) {} fs = some w.client.client) ∧
    ∃ fs, run (TcpServer.step serverId) {} fs = some w.server.server) ?_ ?_).last hrun
  · exact ⟨⟨[], List.forall_mem_nil _, rfl⟩, [], rfl⟩
  · rintro w e w' he ⟨⟨fs, hfs, hclient⟩, gs, hserver⟩ h
    rcases sides_of_step h with ⟨⟨e', rfl, ht⟩, hsame⟩ | ⟨⟨e', hs⟩, hsame⟩ | ⟨hsame, hsame'⟩
    · refine ⟨⟨fs ++ w.client.clientEvents clientHost e', ?_, ?_⟩, gs, hsame ▸ hserver⟩
      · exact List.forall_mem_append.mpr ⟨hfs, ClientSocket.genuine_clientEvents he⟩
      · exact run_append_eq_some.mpr ⟨_, hclient, ClientSocket.client_step ht⟩
    · refine ⟨⟨fs, hfs, hsame ▸ hclient⟩, gs ++ w.server.serverEvents serverHost e', ?_⟩
      exact run_append_eq_some.mpr ⟨_, hserver, ServerSockets.server_step hs⟩
    · exact ⟨⟨fs, hfs, hsame ▸ hclient⟩, gs, hsame' ▸ hserver⟩

/-- **Echo.** As long as the packets that are sent are readable and fewer than 2^32 numbers are
drawn, if the application hands no `REQUEST` to `sendPacket` and the connection of the server has
sent no `RESPONSE` of its own accord, whatever completes a call of `sendRequest` is the `RESPONSE`
with the number of this call and the data that it was called with. -/
theorem echoes (clientHost serverHost : Endian) (serverId clientId : List UInt8) (es : List Event)
    (w : ByteLink)
    (hlegible : EveryStep (step clientHost serverHost serverId clientId) {} es
      fun w _ => w.Legible)
    (hrun : run (step clientHost serverHost serverId clientId) {} es = some w)
    (hgenuine : ∀ e ∈ es, e.genuine = true) (hdrawn : w.client.client.drawn < 2 ^ 32) (j : ℕ)
    (c : Connection) (hj : w.accepted = some j)
    (hc : w.server.server.connections[j]? = some c)
    (hown : ∀ o ∈ c.sent, o.packet.header.packetId = idResponse → o.answers.isSome = true) :
    ∀ x ∈ w.client.client.completed, ∃ b : TcpClient.RequestCall,
      w.client.client.calls[x.call]? = some b ∧
        x.packet = createPacket ⟨idResponse, 0, b.sequence, b.data⟩ := by
  obtain ⟨up, down, hup, -, hdown, -⟩ := streams_of_run hlegible hrun hj hc
  obtain ⟨⟨fs, hfs, hclient⟩, gs, hserver⟩ := sides_run hgenuine hrun
  have hasked := TcpClient.asked_run TcpClient.asked_start hfs hclient
  have hnumbered := (TcpClient.exclusive_run hclient hdrawn).numbered
  have hanswering : w.server.server.Answering serverId :=
    run_induction (TcpServer.answering_start serverId) (fun _ _ _ h hs => h.step hs) hserver
  intro x hx
  obtain ⟨hreceived, hid, -⟩ := hasked.completed x hx
  -- the packet is one that the connection has sent, as an answer
  have hsent := hdown ▸ getElem?_append_of_some hreceived down
  rw [List.getElem?_map] at hsent
  obtain ⟨o, ho, hpacket⟩ := Option.map_eq_some_iff.mp hsent
  have hmem := List.mem_of_getElem? ho
  obtain ⟨k, hk⟩ := Option.isSome_iff_exists.mp (hown o hmem (hpacket ▸ hid))
  -- what it answers has come from the client
  obtain ⟨q, hq, hanswers⟩ := hanswering.faithful c (List.mem_of_getElem? hc) o hmem k hk
  obtain ⟨hqid, hanswer⟩ := hanswers.request (hpacket ▸ hid)
  have hqsent : q ∈ w.client.client.sent :=
    hup ▸ List.mem_append_left _ (List.mem_of_getElem? hq)
  rw [hpacket] at hanswer
  obtain ⟨b, hb, hsequence, hdata⟩ := (hasked.sent q hqsent hqid).call_eq hnumbered
    (hasked.completed x hx) (by rw [hanswer]; rfl)
  exact ⟨b, hb, by rw [hanswer, hsequence, hdata]⟩

/-- After `bindAnswered` the client sends a request, and the server answers it. -/
def requestEchoed : List Event :=
  bindAnswered ++ [.client (.client (.sendRequest [0x61, 0x62] 5000 true) (0, 0)),
    .client (.client (.draw 0) (0, 0)), .client (.client (.sendDrawn 0) (3, 3)),
    .client (.client (.register 0) (0, 0)), .client (.client (.startTimeoutTimer 0) (0, 0)),
    .client .runSend, .carryUp 100, .client (.writeDone 0),
    .server (.readDone 0 [0, 0, 0, 14, 2, 0, 3, 3, 0, 0, 0, 2] (0, 0)),
    .server (.readDone 0 [0x61, 0x62] (0, 0)), .server (.server (.handleIncomingPacket 0) (5, 5)),
    .server (.runPost 0), .carryDown 100, .server (.writeDone 0 0),
    .client (.readDone 0 [0, 0, 0, 14, 0x82, 0, 5, 5, 0, 0, 0, 2]),
    .client (.readDone 0 [0x61, 0x62])]

/-- The run does complete a request, with the data that its call has sent. -/
theorem echoes_requestEchoed :
    ∃ w x b, run (step .little .big [0x53] [0x43]) {} requestEchoed = some w ∧
      w.client.client.completed = [x] ∧ w.client.client.calls[x.call]? = some b ∧
      x.packet = createPacket ⟨idResponse, 0, b.sequence, b.data⟩ := by
  obtain ⟨w, x, c, hrun, hcompleted, hdrawn, hj, hc, hown⟩ : ∃ w x c,
      run (step .little .big [0x53] [0x43]) {} requestEchoed = some w ∧
        w.client.client.completed = [x] ∧ w.client.client.drawn = 2 ∧ w.accepted = some 0 ∧
        w.server.server.connections[0]? = some c ∧
        ∀ o ∈ c.sent, o.packet.header.packetId = idResponse → o.answers.isSome = true :=
    ⟨_, _, _, rfl, rfl, rfl, rfl, rfl, of_decide_eq_true rfl⟩
  obtain ⟨b, hb, hpacket⟩ := echoes .little .big [0x53] [0x43] requestEchoed w
    (of_decide_eq_true rfl) hrun (of_decide_eq_true rfl) (by rw [hdrawn]; decide) 0 c hj hc hown x
    (hcompleted ▸ List.mem_singleton_self x)
  exact ⟨w, x, b, hrun, hcompleted, hb, hpacket⟩

end ByteLink

end TurboNet.Asio
