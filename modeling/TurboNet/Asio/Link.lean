import TurboNet.Asio.Dispatch
import TurboNet.Asio.Client

/-!
# A client and the server

Reference: `claude/asio_client.cpp`, `TcpClient::processPacket`, `TcpClient::sendRequest`;
`claude/asio_server.cpp`, `Connection::processPacket`, `TcpServer::sendTo`, `TcpServer::broadcast`.

`Link.step` runs a client and the server side by side, with a connection between them that delivers
packets in order and as wholes. The server may have other connections, with any packets coming in on
them. The client may lose its connection and make a new one; of what it had sent, some may be lost
with the old connection and the rest goes out on the new one.

The client numbers its requests with its own counter and the server numbers what it sends of its own
accord with another, and the client looks for a request by the sequence of a `RESPONSE` alone.
`ownAnswers_iff` says what follows: all callbacks of a run are called with the automatic answers of
the server to the requests of the client exactly when no `RESPONSE` that is not an answer reaches
the client while a request with a callback is pending under its sequence.
-/

namespace TurboNet.Asio

open Common

/-! ## Automatic answers -/

/-- `processPacket` answers the first packet with the second. -/
def Answers (serverId : List UInt8) (q p : Packet) : Prop :=
  q.header.packetId = idBind ∧ p = createPacket ⟨idBindResp, 0, q.header.sequence, serverId⟩ ∨
    q.header.packetId = idRequest ∧ p = createPacket ⟨idResponse, 0, q.header.sequence, q.payload⟩

/-- A `RESPONSE` is the answer to a `REQUEST`. -/
theorem Answers.request {serverId : List UInt8} {q p : Packet} (h : Answers serverId q p)
    (hid : p.header.packetId = idResponse) :
    q.header.packetId = idRequest ∧
      p = createPacket ⟨idResponse, 0, q.header.sequence, q.payload⟩ := by
  rcases h with ⟨-, rfl⟩ | h
  · exact absurd hid (by simp [createPacket, idBindResp, idResponse])
  · exact h

namespace Connection

variable {serverId : List UInt8} {c c' : Connection}

/-- What the connection has sent as an answer to a packet is the answer to that packet. -/
def Faithful (serverId : List UInt8) (c : Connection) : Prop :=
  ∀ o ∈ c.sent, ∀ k, o.answers = some k →
    ∃ q, c.received[k]? = some q ∧ Answers serverId q o.packet

/-- A packet that comes in leaves the answers before as they are. -/
theorem Faithful.receive (hc : c.Faithful serverId) (p : Packet) :
    (c.receive p).Faithful serverId := by
  intro o ho k hk
  obtain ⟨q, hq, hanswers⟩ := hc o ho k hk
  exact ⟨q, getElem?_append_of_some hq _, hanswers⟩

/-- A packet is sent of the connection's own accord, or as the answer to one that has come in. -/
theorem Faithful.sendPacket (hc : c.Faithful serverId) {answers : Option ℕ} {p : Packet}
    (hp : ∀ k, answers = some k → ∃ q, c.received[k]? = some q ∧ Answers serverId q p) :
    (c.sendPacket answers p).Faithful serverId := by
  intro o ho k hk
  rcases List.mem_append.mp ho with ho | ho
  · exact hc o ho k hk
  · obtain rfl := List.mem_singleton.mp ho
    exact hp k hk

/-- What `processPacket` sends is the answer to its packet. -/
theorem Faithful.answer (hc : c.Faithful serverId) {i : ℕ} {p : Packet}
    (hi : c.received[i]? = some p) : (c.answer serverId i p).Faithful serverId := by
  rw [Connection.answer]
  split
  · rename_i hid
    refine hc.sendPacket fun k hk => ?_
    obtain rfl := Option.some.inj hk
    exact ⟨p, hi, Or.inl ⟨hid, rfl⟩⟩
  · split
    · rename_i hid
      refine hc.sendPacket fun k hk => ?_
      obtain rfl := Option.some.inj hk
      exact ⟨p, hi, Or.inr ⟨hid, rfl⟩⟩
    · exact hc

/-- A faithful connection stays so. -/
theorem Faithful.goes (hc : c.Faithful serverId) (h : c.Goes serverId c') :
    c'.Faithful serverId := by
  cases h with
  | refl => exact hc
  | unregister => exact hc
  | send p => exact hc.sendPacket nofun
  | answer hi => exact hc.answer hi

end Connection

namespace TcpServer

variable {serverId : List UInt8} {t t' : TcpServer} {e : Event}

/-- All connections of the server are faithful, and what is being handled has been received. -/
structure Answering (serverId : List UInt8) (t : TcpServer) : Prop where
  dispatching : t.Dispatching
  faithful : ∀ c ∈ t.connections, c.Faithful serverId

/-- There are no connections at the start. -/
theorem answering_start (serverId : List UInt8) : Answering serverId {} :=
  ⟨List.forall_mem_nil _, List.forall_mem_nil _⟩

/-- Packets that come in leave all connections faithful. -/
theorem faithful_received (h : ∀ c ∈ t.connections, c.Faithful serverId) (e : Event) :
    ∀ c ∈ t.received e, c.Faithful serverId := by
  cases e with
  | processPacket j p =>
    intro c hc
    obtain ⟨i, hi⟩ := List.getElem?_of_mem hc
    simp only [received, List.getElem?_modify] at hi
    obtain ⟨b, hb, rfl⟩ := Option.map_eq_some_iff.mp hi
    have hfaithful := h b (List.mem_of_getElem? hb)
    split
    · exact hfaithful.receive p
    · exact hfaithful
  | _ => exact h

/-- A connection that has been accepted comes last. -/
theorem accept_connections (h : step serverId t (.accept false) = some t') :
    t'.connections.length = t.connections.length + 1 ∧ t'.connections[t.connections.length]? =
      some ⟨t.nextConnectionId, t.packetCallback, true, [], []⟩ := by
  simp only [step] at h
  split at h
  · cases h
    simp [accepted, updateWhere]
  · cases h

/-- Every step keeps the connections faithful. -/
theorem Answering.step (hI : t.Answering serverId) (h : step serverId t e = some t') :
    t'.Answering serverId where
  dispatching := hI.dispatching.step h
  faithful c' hc' := by
    have hgrows := connections_step hI.dispatching h
    obtain ⟨j, hj⟩ := List.getElem?_of_mem hc'
    cases hb : (t.received e)[j]? with
    | none =>
      intro o ho
      rw [(hgrows.new j c' hb hj).2] at ho
      exact absurd ho (by simp)
    | some b =>
      obtain ⟨c, hc, hgoes⟩ := hgrows.old j b hb
      obtain rfl := Option.some.inj (hc.symm.trans hj)
      exact (faithful_received hI.faithful e b (List.mem_of_getElem? hb)).goes hgoes

end TcpServer

/-! ## The link as a machine -/

structure Link where
  server : TcpServer := {}
  client : TcpClient := {}
  /-- The socket of the client is connected. -/
  opened : Bool := false
  /-- The number of its connection on the server, once that has been accepted. -/
  accepted : Option ℕ := none
  /-- How many packets of the client have been delivered or lost. -/
  up : ℕ := 0
  /-- How many packets of this connection have been delivered. -/
  down : ℕ := 0
  /-- History: the packets delivered to the client, and on which connection. -/
  delivered : List (ℕ × Outgoing) := []

namespace Link

inductive Event where
  /-- The server takes a step that has nothing to do with the connection of the client. -/
  | server (e : TcpServer.Event)
  /-- The client takes a step. -/
  | client (e : TcpClient.Event)
  /-- The connection of the client is accepted. -/
  | accept
  /-- The next packet is delivered. -/
  | toServer
  | toClient
  /-- The next packet of the client is lost with an old connection. -/
  | lose

/-- A packet that comes in on the connection of the client is one of the client. -/
def foreign (l : Link) : TcpServer.Event → Bool
  | .processPacket j _ => l.accepted ≠ some j
  | _ => true

/-- The client gets packets from this connection only. -/
def own : TcpClient.Event → Bool
  | .processPacket _ => false
  | _ => true

/-- The socket of the client when it takes a step. -/
def socket (l : Link) : TcpClient.Event → Bool × Option ℕ
  | .runConnect => (false, none)
  | .connectDone error => (!error, if error then none else l.accepted)
  | _ => (l.opened, l.accepted)

/-- The next packet for the client. -/
def nextDown (l : Link) : Option (ℕ × Outgoing) :=
  if l.opened then
    l.accepted.bind fun j => l.server.connections[j]?.bind fun c => c.sent[l.down]?.map (j, ·)
  else none

/-- The next packet for the server, and the connection. -/
def nextUp (l : Link) : Option (ℕ × Packet) :=
  if l.opened then l.accepted.bind fun j => l.client.sent[l.up]?.map (j, ·) else none

def step (serverId clientId : List UInt8) (l : Link) : Event → Option Link
  | .server e =>
    if l.foreign e then (l.server.step serverId e).map fun s => { l with server := s } else none
  | .client e =>
    if own e then
      (l.client.step clientId e).map fun c =>
        { l with client := c, opened := (l.socket e).1, accepted := (l.socket e).2 }
    else none
  | .accept =>
    if l.accepted.isNone && (l.opened || 0 < l.client.connecting) then
      (l.server.step serverId (.accept false)).map fun s =>
        { l with server := s, accepted := some l.server.connections.length, down := 0 }
    else none
  | .toServer => l.nextUp.bind fun (j, p) =>
      (l.server.step serverId (.processPacket j p)).map fun s =>
        { l with server := s, up := l.up + 1 }
  | .toClient => l.nextDown.bind fun (j, o) =>
      (l.client.step clientId (.processPacket o.packet)).map fun c =>
        { l with client := c, down := l.down + 1, delivered := l.delivered ++ [(j, o)] }
  | .lose =>
    if !l.opened && l.up < l.client.sent.length then some { l with up := l.up + 1 } else none

/-! ## What a step does -/

variable {serverId clientId : List UInt8} {l l' : Link} {e : Event}

inductive Transition (serverId clientId : List UInt8) (l : Link) : Event → Link → Prop where
  | server {e : TcpServer.Event} {s : TcpServer} (hforeign : l.foreign e = true)
      (hs : l.server.step serverId e = some s) :
      Transition serverId clientId l (.server e) { l with server := s }
  | client {e : TcpClient.Event} {c : TcpClient} (he : ∀ p, e ≠ .processPacket p)
      (hc : l.client.step clientId e = some c) :
      Transition serverId clientId l (.client e)
        { l with client := c, opened := (l.socket e).1, accepted := (l.socket e).2 }
  | accept {s : TcpServer} (hs : l.server.step serverId (.accept false) = some s) :
      Transition serverId clientId l .accept
        { l with server := s, accepted := some l.server.connections.length, down := 0 }
  | toServer {j : ℕ} {p : Packet} {s : TcpServer} (hnext : l.nextUp = some (j, p))
      (hs : l.server.step serverId (.processPacket j p) = some s) :
      Transition serverId clientId l .toServer { l with server := s, up := l.up + 1 }
  | toClient {j : ℕ} {o : Outgoing} {c : TcpClient} (hnext : l.nextDown = some (j, o))
      (hc : l.client.step clientId (.processPacket o.packet) = some c) :
      Transition serverId clientId l .toClient
        { l with client := c, down := l.down + 1, delivered := l.delivered ++ [(j, o)] }
  | lose : Transition serverId clientId l .lose { l with up := l.up + 1 }

/-- Every step is one of the transitions. -/
theorem transition_of_step (h : step serverId clientId l e = some l') :
    Transition serverId clientId l e l' := by
  cases e with
  | server e =>
    simp only [step] at h
    split at h
    · rename_i hforeign
      obtain ⟨s, hs, rfl⟩ := Option.map_eq_some_iff.mp h
      exact .server hforeign hs
    · cases h
  | client e =>
    simp only [step] at h
    split at h
    · rename_i hown
      obtain ⟨c, hc, rfl⟩ := Option.map_eq_some_iff.mp h
      -- the packets of the server come over the link
      refine .client (fun p heq => ?_) hc
      rw [heq] at hown
      exact absurd hown (by simp [own])
    · cases h
  | accept =>
    simp only [step] at h
    split at h
    · obtain ⟨s, hs, rfl⟩ := Option.map_eq_some_iff.mp h
      exact .accept hs
    · cases h
  | toServer =>
    obtain ⟨⟨j, p⟩, hnext, h⟩ := Option.bind_eq_some_iff.mp h
    obtain ⟨s, hs, rfl⟩ := Option.map_eq_some_iff.mp h
    exact .toServer hnext hs
  | toClient =>
    obtain ⟨⟨j, o⟩, hnext, h⟩ := Option.bind_eq_some_iff.mp h
    obtain ⟨c, hc, rfl⟩ := Option.map_eq_some_iff.mp h
    exact .toClient hnext hc
  | lose =>
    simp only [step] at h
    split at h
    · cases h
      exact .lose
    · cases h

/-- The next packet for the server was sent by the client. -/
theorem nextUp_eq_some {j : ℕ} {p : Packet} (h : l.nextUp = some (j, p)) :
    l.accepted = some j ∧ p ∈ l.client.sent := by
  rw [nextUp] at h
  split at h
  · obtain ⟨j', hj, h⟩ := Option.bind_eq_some_iff.mp h
    obtain ⟨p', hp, heq⟩ := Option.map_eq_some_iff.mp h
    obtain ⟨rfl, rfl⟩ := Prod.mk.inj heq
    exact ⟨hj, List.mem_of_getElem? hp⟩
  · cases h

/-- The next packet for the client was sent by the connection. -/
theorem nextDown_eq_some {j : ℕ} {o : Outgoing} (h : l.nextDown = some (j, o)) :
    l.accepted = some j ∧ ∃ c : Connection, l.server.connections[j]? = some c ∧ o ∈ c.sent := by
  rw [nextDown] at h
  split at h
  · obtain ⟨j', hj, h⟩ := Option.bind_eq_some_iff.mp h
    obtain ⟨c, hc, h⟩ := Option.bind_eq_some_iff.mp h
    obtain ⟨o', ho, heq⟩ := Option.map_eq_some_iff.mp h
    obtain ⟨rfl, rfl⟩ := Prod.mk.inj heq
    exact ⟨hj, c, hc, List.mem_of_getElem? ho⟩
  · cases h

/-- The server has answered as it should, the client knows its requests, and what has come in on the
connection of the client was sent by the client. -/
structure Joined (serverId : List UInt8) (l : Link) : Prop where
  answering : l.server.Answering serverId
  tracked : l.client.Tracked
  delivered : l.delivered.length = l.client.received.length
  accepted : ∀ j, l.accepted = some j → ∃ c : Connection, l.server.connections[j]? = some c ∧
    ∀ q ∈ c.received, q ∈ l.client.sent

/-- Nothing has been sent at the start. -/
theorem joined_start (serverId : List UInt8) : Joined serverId {} :=
  ⟨TcpServer.answering_start serverId, TcpClient.tracked_start, rfl, nofun⟩

/-- The connection of the client gets nothing from a step of the server that is not about it. -/
theorem packetsOf_of_foreign {e : TcpServer.Event} {j : ℕ} (h : l.foreign e = true)
    (hj : l.accepted = some j) : e.packetsOf j = [] := by
  cases e with
  | processPacket i p =>
    rw [foreign, hj, decide_eq_true_iff] at h
    have hij : i ≠ j := fun hij => h (congrArg some hij.symm)
    exact if_neg hij
  | _ => rfl

/-- A connection that goes on was there before. -/
theorem socket_accepted {e : TcpClient.Event} {j : ℕ} (h : (l.socket e).2 = some j) :
    l.accepted = some j := by
  cases e with
  | runConnect => exact absurd h (by simp [socket])
  | connectDone error =>
    cases error with
    | false => exact h
    | true => exact absurd h (by simp [socket])
  | _ => exact h

/-- Every step keeps this. -/
theorem Joined.step (hI : l.Joined serverId) (h : step serverId clientId l e = some l') :
    l'.Joined serverId := by
  cases transition_of_step h with
  | server hforeign hs =>
    refine ⟨hI.answering.step hs, hI.tracked, hI.delivered, fun j hj => ?_⟩
    obtain ⟨c, hc, hsent⟩ := hI.accepted j hj
    obtain ⟨c', hc', -, hreceived⟩ := TcpServer.connection_step hI.answering.dispatching hs hc
    rw [packetsOf_of_foreign hforeign hj, List.append_nil] at hreceived
    exact ⟨c', hc', fun q hq => hsent q (hreceived ▸ hq)⟩
  | client he hc =>
    refine ⟨hI.answering, hI.tracked.step hc, ?_, fun j hj => ?_⟩
    · rw [(TcpClient.completed_step hc he).2]
      exact hI.delivered
    · obtain ⟨c, hc', hsent⟩ := hI.accepted j (socket_accepted hj)
      exact ⟨c, hc', fun q hq => (TcpClient.sent_step hc).subset (hsent q hq)⟩
  | accept hs =>
    refine ⟨hI.answering.step hs, hI.tracked, hI.delivered, fun j hj => ?_⟩
    obtain rfl := Option.some.inj hj
    -- nothing has come in on the new connection
    exact ⟨_, (TcpServer.accept_connections hs).2, List.forall_mem_nil _⟩
  | toServer hnext hs =>
    refine ⟨hI.answering.step hs, hI.tracked, hI.delivered, fun j hj => ?_⟩
    obtain ⟨c, hc, hsent⟩ := hI.accepted j hj
    obtain ⟨c', hc', -, hreceived⟩ := TcpServer.connection_step hI.answering.dispatching hs hc
    obtain ⟨hj', hp⟩ := nextUp_eq_some hnext
    refine ⟨c', hc', fun q hq => ?_⟩
    rw [hreceived] at hq
    rcases List.mem_append.mp hq with hq | hq
    · exact hsent q hq
    · obtain rfl := Option.some.inj (hj.symm.trans hj')
      rw [TcpServer.Event.packetsOf, if_pos rfl, List.mem_singleton] at hq
      exact hq ▸ hp
  | toClient hnext hc =>
    refine ⟨hI.answering, hI.tracked.step hc, ?_, fun j hj => ?_⟩
    · rw [TcpClient.step_processPacket hc, TcpClient.processPacket_eq, List.length_append,
        List.length_append, hI.delivered]
      rfl
    · obtain ⟨c, hc', hsent⟩ := hI.accepted j hj
      exact ⟨c, hc', fun q hq => (TcpClient.sent_step hc).subset (hsent q hq)⟩
  | lose => exact ⟨hI.answering, hI.tracked, hI.delivered, hI.accepted⟩

/-- What a run has made known stays so. -/
structure Continues (l l' : Link) : Prop where
  delivered : l.delivered <+: l'.delivered
  received : ∀ (j : ℕ) (c : Connection), l.server.connections[j]? = some c →
    ∃ c' : Connection, l'.server.connections[j]? = some c' ∧ c.received <+: c'.received
  sent : l.client.sent <+: l'.client.sent
  drawn : ∀ (k : ℕ) (s : UInt32), l.client.Drawn k s → l'.client.Drawn k s

/-- What a step has made known stays so. -/
theorem continues_step (hI : l.Joined serverId) (h : step serverId clientId l e = some l') :
    l.Continues l' := by
  have hserver {e : TcpServer.Event} {s : TcpServer} (hs : l.server.step serverId e = some s)
      (j : ℕ) (c : Connection) (hc : l.server.connections[j]? = some c) :
      ∃ c' : Connection, s.connections[j]? = some c' ∧ c.received <+: c'.received := by
    obtain ⟨c', hc', -, hreceived⟩ := TcpServer.connection_step hI.answering.dispatching hs hc
    exact ⟨c', hc', hreceived ▸ List.prefix_append _ _⟩
  have hsame (j : ℕ) (c : Connection) (hc : l.server.connections[j]? = some c) :
      ∃ c' : Connection, l.server.connections[j]? = some c' ∧ c.received <+: c'.received :=
    ⟨c, hc, List.prefix_rfl⟩
  cases transition_of_step h with
  | server _ hs => exact ⟨List.prefix_rfl, hserver hs, List.prefix_rfl, fun _ _ h => h⟩
  | client _ hc =>
    exact ⟨List.prefix_rfl, hsame, TcpClient.sent_step hc, fun _ _ h => h.step hc⟩
  | accept hs => exact ⟨List.prefix_rfl, hserver hs, List.prefix_rfl, fun _ _ h => h⟩
  | toServer _ hs => exact ⟨List.prefix_rfl, hserver hs, List.prefix_rfl, fun _ _ h => h⟩
  | toClient _ hc =>
    exact ⟨List.prefix_append _ _, hsame, TcpClient.sent_step hc, fun _ _ h => h.step hc⟩
  | lose => exact ⟨List.prefix_rfl, hsame, List.prefix_rfl, fun _ _ h => h⟩

/-! ## Only its own answer completes a request -/

/-- The packet is the answer of the server to a `REQUEST` of the client with the number that the
call has drawn. -/
def OwnAnswer (l : Link) (x : TcpClient.Completed) : Prop :=
  ∃ (j k : ℕ) (c : Connection) (q : Packet),
    l.delivered[x.index]? = some (j, ⟨x.packet, some k⟩) ∧
    l.server.connections[j]? = some c ∧ c.received[k]? = some q ∧ q ∈ l.client.sent ∧
    q.header.packetId = idRequest ∧ l.client.Drawn x.call q.header.sequence ∧
    x.packet = createPacket ⟨idResponse, 0, q.header.sequence, q.payload⟩

/-- All response callbacks that have been called were called with the answers to their requests. -/
def OwnAnswers (l : Link) : Prop :=
  ∀ x ∈ l.client.completed, x.invoked = true → l.OwnAnswer x

/-- The entry that an event takes out of `pending_requests_`, with the packet that does so. -/
def takes (l : Link) : Event → Option (Outgoing × TcpClient.PendingRequest)
  | .toClient => l.nextDown.bind fun (_, o) => (l.client.takes o.packet).map fun r => (o, r)
  | _ => none

/-- The event is not the delivery of a `RESPONSE` that the server has sent of its own accord, while
a request with a callback is pending under its sequence. -/
def Solicited (l : Link) (e : Event) : Prop :=
  ∀ x ∈ l.takes e, x.2.callback = true → x.1.answers.isSome = true

instance (l : Link) (e : Event) : Decidable (Solicited l e) :=
  inferInstanceAs (Decidable (∀ x ∈ l.takes e, x.2.callback = true → x.1.answers.isSome = true))

/-- An answer stays the answer to its request. -/
theorem OwnAnswer.continues {x : TcpClient.Completed} (hx : l.OwnAnswer x) (h : l.Continues l') :
    l'.OwnAnswer x := by
  obtain ⟨j, k, c, q, hdelivered, hc, hq, hsent, hid, hdrawn, hpacket⟩ := hx
  obtain ⟨c', hc', hreceived⟩ := h.received j c hc
  exact ⟨j, k, c', q, getElem?_of_prefix h.delivered hdelivered, hc',
    getElem?_of_prefix hreceived hq, h.sent.subset hsent, hid, h.drawn _ _ hdrawn, hpacket⟩

/-- A step completes at most the request that it takes out. -/
theorem completed_step (h : step serverId clientId l e = some l') :
    l'.client.completed = l.client.completed ++ ((l.takes e).map fun x =>
      ⟨x.2.call, x.1.packet, l.client.received.length, x.2.callback⟩).toList := by
  cases transition_of_step h with
  | server => simp [takes]
  | client he hc => simp [takes, TcpClient.completed_step hc he]
  | accept => simp [takes]
  | toServer => simp [takes]
  | toClient hnext hc =>
    rw [TcpClient.step_processPacket hc, TcpClient.processPacket_eq]
    simp [takes, hnext, Function.comp_def]
  | lose => simp [takes]

/-- A request is taken out by the packet that the server sent next. -/
theorem takes_eq_some {o : Outgoing} {r : TcpClient.PendingRequest}
    (h : l.takes e = some (o, r)) :
    ∃ j, e = .toClient ∧ l.nextDown = some (j, o) ∧ l.client.takes o.packet = some r := by
  cases e with
  | toClient =>
    obtain ⟨⟨j, o'⟩, hnext, h⟩ := Option.bind_eq_some_iff.mp h
    obtain ⟨r', hr, heq⟩ := Option.map_eq_some_iff.mp h
    obtain ⟨rfl, rfl⟩ := Prod.mk.inj heq
    exact ⟨j, rfl, hnext, hr⟩
  | _ => cases h

/-- A callback is called with the answer to its request exactly when the packet is an answer. -/
theorem ownAnswer_takes_iff (hI : l.Joined serverId) (h : step serverId clientId l e = some l')
    {o : Outgoing} {r : TcpClient.PendingRequest} (hx : l.takes e = some (o, r)) :
    l'.OwnAnswer ⟨r.call, o.packet, l.client.received.length, r.callback⟩ ↔
      o.answers.isSome = true := by
  obtain ⟨j, rfl, hnext, hr⟩ := takes_eq_some hx
  obtain ⟨hid, hpending⟩ := TcpClient.takes_eq_some hr
  have hdelivered : l'.delivered[l.client.received.length]? = some (j, o) := by
    cases transition_of_step h with
    | toClient hnext' =>
      obtain ⟨rfl, rfl⟩ := Prod.mk.inj (Option.some.inj (hnext.symm.trans hnext'))
      rw [← hI.delivered, List.getElem?_concat_length]
  constructor
  · rintro ⟨j', k, c, q, hdelivered', -⟩
    obtain ⟨-, ho⟩ := Prod.mk.inj (Option.some.inj (hdelivered.symm.trans hdelivered'))
    rw [ho]
    rfl
  · intro hsome
    obtain ⟨k, hk⟩ := Option.isSome_iff_exists.mp hsome
    obtain ⟨hj, c, hc, ho⟩ := nextDown_eq_some hnext
    -- the server made it for a packet that came in on this connection, so for one of the client
    obtain ⟨q, hq, hanswers⟩ := hI.answering.faithful c (List.mem_of_getElem? hc) o ho k hk
    obtain ⟨hqid, hpacket⟩ := hanswers.request hid
    obtain ⟨b, hb, hsent⟩ := hI.accepted j hj
    obtain rfl := Option.some.inj (hc.symm.trans hb)
    have hcontinues := continues_step hI h
    obtain ⟨c', hc', hreceived⟩ := hcontinues.received j c hc
    have hdrawn := hI.tracked.pending _ r hpending
    rw [hpacket] at hdrawn
    exact ⟨j, k, c', q, by rw [hdelivered, ← hk], hc', getElem?_of_prefix hreceived hq,
      hcontinues.sent.subset (hsent q (List.mem_of_getElem? hq)), hqid, hcontinues.drawn _ _ hdrawn,
      hpacket⟩

/-- Callbacks go on being called with their own answers exactly when what arrives is solicited. -/
theorem ownAnswers_step (hI : l.Joined serverId) (hP : l.OwnAnswers)
    (h : step serverId clientId l e = some l') : l'.OwnAnswers ↔ Solicited l e := by
  -- the callbacks called before keep their answers, so only the one called now counts
  have hold : ∀ x ∈ l.client.completed, x.invoked = true → l'.OwnAnswer x :=
    fun x hx hinvoked => (hP x hx hinvoked).continues (continues_step hI h)
  rw [OwnAnswers, Solicited, completed_step h, List.forall_mem_append, and_iff_right hold]
  cases hx : l.takes e with
  | none => simp
  | some x =>
    obtain ⟨o, r⟩ := x
    simpa using imp_congr_right fun _ => ownAnswer_takes_iff hI h hx

/-- **Answers to the requests of a client.** In every state of a run the response callbacks that
have been called were called with the `RESPONSE` that the server made for a `REQUEST` of this client
with the number of the request, exactly when no `RESPONSE` that the server has sent of its own
accord reaches the client while a request with a callback is pending under its sequence. -/
theorem ownAnswers_iff (serverId clientId : List UInt8) (es : List Event) (u : Link)
    (hrun : run (step serverId clientId) {} es = some u) :
    EveryState (step serverId clientId) {} es OwnAnswers ↔
      EveryStep (step serverId clientId) {} es Solicited := by
  refine everyState_iff_everyStep (I := Joined serverId) (List.forall_mem_nil _)
    (joined_start serverId) ?_ ?_ hrun
  · exact fun t e t' _ _ hI ht => hI.step ht
  · exact fun t e t' _ _ hI hP ht => ownAnswers_step hI hP ht

/-- The server has started and has sent one heartbeat. Then a client connects and sends `BIND`, with
sequence 1, and a request, with sequence 2. -/
def connectAndAsk : List Event :=
  [.server .start, .server (.broadcast idResponse 0 [0x30]), .client .start, .client .runConnect,
    .client (.connectDone false), .accept, .server (.setCallbacks true), .client .drawBind,
    .client .sendBind, .client (.sendRequest [0x61] 5000 true), .client (.draw 0),
    .client (.sendDrawn 0), .client (.register 0), .client (.startTimeoutTimer 0)]

/-- The server answers both packets, and the answers are delivered. -/
theorem ownAnswers_iff_answered :
    EveryState (step [0x53] [0x43]) {} (connectAndAsk ++ [.toServer,
      .server (.handleIncomingPacket 0), .toServer, .server (.handleIncomingPacket 0), .toClient,
      .toClient]) OwnAnswers :=
  (ownAnswers_iff [0x53] [0x43] (connectAndAsk ++ [.toServer, .server (.handleIncomingPacket 0),
    .toServer, .server (.handleIncomingPacket 0), .toClient, .toClient]) _ rfl).mpr (by decide)

/-- The next heartbeat has sequence 2 and reaches the client before the answer. The callback of the
request is called with the heartbeat. -/
theorem heartbeat_completes_request :
    ∃ u, run (step [0x53] [0x43]) {} (connectAndAsk ++ [.server (.broadcast idResponse 0 [0x31]),
        .toClient]) = some u ∧
      u.client.completed = [⟨0, createPacket ⟨idResponse, 0, 2, [0x31]⟩, 0, true⟩] ∧
      u.delivered = [(0, ⟨createPacket ⟨idResponse, 0, 2, [0x31]⟩, none⟩)] ∧ ¬ OwnAnswers u := by
  obtain ⟨u, hrun, hcompleted, hdelivered⟩ : ∃ u, run (step [0x53] [0x43]) {} (connectAndAsk ++
        [.server (.broadcast idResponse 0 [0x31]), .toClient]) = some u ∧
      u.client.completed = [⟨0, createPacket ⟨idResponse, 0, 2, [0x31]⟩, 0, true⟩] ∧
      u.delivered = [(0, ⟨createPacket ⟨idResponse, 0, 2, [0x31]⟩, none⟩)] :=
    ⟨_, rfl, rfl, rfl⟩
  refine ⟨u, hrun, hcompleted, hdelivered, fun hP => ?_⟩
  obtain ⟨j, k, c, q, hown, -⟩ := hP _ (hcompleted ▸ List.mem_singleton_self _) rfl
  rw [hdelivered] at hown
  exact absurd hown (by simp)

end Link

end TurboNet.Asio
