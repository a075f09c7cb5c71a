import TurboNet.Common.Lists
import TurboNet.Asio.Server

/-!
# Who answers a request of the server

Reference: `claude/asio_server.cpp`, `TcpServer::handleIncomingPacket`, `TcpServer::sendRequest`,
`PendingRequest`.

An entry of `pendingRequests_` remembers the connection the request was sent to, but
`handleIncomingPacket` looks for an entry by the sequence of the packet alone. So an entry may be
taken by a `RESPONSE` of another connection, which chooses its sequence freely.
`answeredByAsked_iff` says that this is the only way: in a run only the asked connections answer
exactly when no `RESPONSE` is handled while a request to another connection is pending under its
sequence.
-/

namespace TurboNet.Asio

open Common

/-! ## What connections go through -/

namespace Connection

/-- What a step of the server can do to a connection, apart from handing it a packet. An automatic
answer is to a packet that has been received. -/
inductive Goes (serverId : List UInt8) (c : Connection) : Connection → Prop where
  | refl : Goes serverId c c
  | unregister : Goes serverId c { c with registered := false }
  | send (p : Packet) : Goes serverId c (c.sendPacket none p)
  | answer {i : ℕ} {p : Packet} (hi : c.received[i]? = some p) :
      Goes serverId c (c.answer serverId i p)

variable {serverId : List UInt8} {c c' : Connection}

/-- An answer leaves the id as it is. -/
@[simp] theorem answer_id (c : Connection) (i : ℕ) (p : Packet) :
    (c.answer serverId i p).id = c.id := by
  rw [answer]
  split
  · rfl
  · split <;> rfl

/-- An answer leaves what has come in as it is. -/
@[simp] theorem answer_received (c : Connection) (i : ℕ) (p : Packet) :
    (c.answer serverId i p).received = c.received := by
  rw [answer]
  split
  · rfl
  · split <;> rfl

/-- A connection that goes on keeps its id. -/
theorem Goes.id_eq (h : c.Goes serverId c') : c'.id = c.id := by
  cases h with
  | refl => rfl
  | unregister => rfl
  | send => rfl
  | answer => exact answer_id _ _ _

/-- A connection that goes on has received the same packets. -/
theorem Goes.received_eq (h : c.Goes serverId c') : c'.received = c.received := by
  cases h with
  | refl => rfl
  | unregister => rfl
  | send => rfl
  | answer => exact answer_received _ _ _

end Connection

/-! ## Connections of a server

What is said here of a server looks at its connections only, so it is said of a list of
connections. -/

/-- The connections have gone on, and there may be new ones. -/
structure Grows (serverId : List UInt8) (cs cs' : List Connection) : Prop where
  old : ∀ (j : ℕ) (c : Connection), cs[j]? = some c →
    ∃ c' : Connection, cs'[j]? = some c' ∧ c.Goes serverId c'
  new : ∀ (j : ℕ) (c' : Connection), cs[j]? = none → cs'[j]? = some c' →
    c'.received = [] ∧ c'.sent = []

/-- The call is about a packet that its connection has received. -/
def Dispatched (cs : List Connection) (d : Dispatch) : Prop :=
  ∃ c : Connection, cs[d.connection]? = some c ∧ c.id = d.connectionId ∧
    c.received[d.index]? = some d.packet

section Connections

variable {serverId : List UInt8} {cs cs' : List Connection} {d : Dispatch}

/-- Nothing happens to the connections. -/
theorem Grows.refl (cs : List Connection) : Grows serverId cs cs where
  old _ c hc := ⟨c, hc, .refl⟩
  new _ c' hnone hc' := absurd (hnone.symm.trans hc') (by simp)

/-- One connection goes on. -/
theorem grows_modify (cs : List Connection) (j : ℕ) {f : Connection → Connection}
    (hf : ∀ c : Connection, cs[j]? = some c → c.Goes serverId (f c)) :
    Grows serverId cs (cs.modify j f) where
  old i c hc := by
    simp only [List.getElem?_modify, hc, Option.map_eq_map, Option.map_some]
    refine ⟨_, rfl, ?_⟩
    split
    · rename_i hij
      exact hf c (hij ▸ hc)
    · exact .refl
  new i c' hnone hc' := by
    simp [List.getElem?_modify, hnone] at hc'

/-- The connections of a kind go on. -/
theorem grows_map (cs : List Connection) (p : Connection → Bool) {f : Connection → Connection}
    (hf : ∀ c : Connection, c.Goes serverId (f c)) :
    Grows serverId cs (cs.map fun c => if p c then f c else c) where
  old i c hc := by
    simp only [List.getElem?_map, hc, Option.map_some]
    refine ⟨_, rfl, ?_⟩
    split
    · exact hf c
    · exact .refl
  new i c' hnone hc' := by
    simp [List.getElem?_map, hnone] at hc'

/-- A connection has been accepted. -/
theorem Grows.append (h : Grows serverId cs cs') (id : Int32) (callback : PacketCallback) :
    Grows serverId cs (cs' ++ [⟨id, callback, true, [], []⟩]) where
  old j c hc := by
    obtain ⟨c', hc', hgoes⟩ := h.old j c hc
    exact ⟨c', getElem?_append_of_some hc' _, hgoes⟩
  new j c' hnone hc' := by
    by_cases hj : j < cs'.length
    · rw [List.getElem?_append_left hj] at hc'
      exact h.new j c' hnone hc'
    · rw [List.getElem?_append_right (Nat.le_of_not_lt hj)] at hc'
      obtain rfl := List.mem_singleton.mp (List.mem_of_getElem? hc')
      exact ⟨rfl, rfl⟩

/-- A call under way belongs to its connection also when the connections have grown. -/
theorem Dispatched.grows (hd : Dispatched cs d) (h : Grows serverId cs cs') : Dispatched cs' d := by
  obtain ⟨c, hc, hid, hreceived⟩ := hd
  obtain ⟨c', hc', hgoes⟩ := h.old _ c hc
  exact ⟨c', hc', hgoes.id_eq.trans hid, by rw [hgoes.received_eq, hreceived]⟩

/-- A call under way belongs to its connection also when another packet has come in. -/
theorem Dispatched.receive (hd : Dispatched cs d) (j : ℕ) (p : Packet) :
    Dispatched (cs.modify j (Connection.receive p)) d := by
  obtain ⟨c, hc, hid, hreceived⟩ := hd
  simp only [Dispatched, List.getElem?_modify, hc, Option.map_eq_map, Option.map_some]
  refine ⟨_, rfl, ?_, ?_⟩
  · split <;> exact hid
  · split
    · exact getElem?_append_of_some hreceived _
    · exact hreceived

/-- A packet that has just been received. -/
theorem dispatched_receive {j : ℕ} {c : Connection} (hc : cs[j]? = some c) (p : Packet) :
    Dispatched (cs.modify j (Connection.receive p)) ⟨j, c.id, p, c.received.length⟩ := by
  refine ⟨c.receive p, ?_, rfl, ?_⟩
  · simp [hc]
  · simp [Connection.receive]

/-- The packet of a call may be answered. -/
theorem Dispatched.goes_answer (hd : Dispatched cs d) {c : Connection}
    (hc : cs[d.connection]? = some c) :
    c.Goes serverId (c.answer serverId d.index d.packet) := by
  obtain ⟨c', hc', -, hreceived⟩ := hd
  obtain rfl := Option.some.inj (hc.symm.trans hc')
  exact .answer hreceived

end Connections

/-- How a call of `sendRequest` goes on. -/
inductive RequestCall.Goes (c : RequestCall) : RequestCall → Prop where
  | refl : c.Goes c
  | send (phase : RequestPhase) (hphase : c.phase = .drawn)
      (hphase' : phase = .sent ∨ phase = .failed) : c.Goes { c with phase := phase }
  | register (hphase : c.phase = .sent) : c.Goes { c with phase := .registered }
  | finish (hphase : c.phase = .registered) : c.Goes { c with phase := .done }

namespace TcpServer

variable {serverId : List UInt8} {t t' : TcpServer} {e : Event}

/-! ## What a step does to connections -/

/-- A callback leaves the connections as they are, or lets one of them answer. -/
theorem callBack_connections (t : TcpServer) (callback : PacketCallback) (d : Dispatch) :
    (t.callBack serverId callback d).connections = t.connections ∨
      (t.callBack serverId callback d).connections =
        t.connections.modify d.connection fun c => c.answer serverId d.index d.packet := by
  cases callback with
  | unset => exact Or.inr rfl
  | user => exact Or.inr rfl
  | redirect => exact Or.inl rfl

/-- A callback adds its own call to those under way at most. -/
theorem mem_callBack_dispatches {t : TcpServer} {callback : PacketCallback} {d d' : Dispatch}
    (h : d' ∈ (t.callBack serverId callback d).dispatches) : d' ∈ t.dispatches ∨ d' = d := by
  cases callback with
  | unset => exact Or.inl h
  | user => exact Or.inl h
  | redirect => simpa [callBack] using h

/-- In a callback the connections grow. -/
theorem grows_callBack {cs : List Connection} {d : Dispatch} (ht : t.connections = cs)
    (hd : Dispatched cs d) (callback : PacketCallback) :
    Grows serverId cs (t.callBack serverId callback d).connections := by
  subst ht
  rcases t.callBack_connections callback d with h | h
  · rw [h]
    exact .refl _
  · rw [h]
    exact grows_modify _ _ fun _ hc => hd.goes_answer hc

/-- An idle connection is the one at its place. -/
theorem idle_eq_some {j : ℕ} {c : Connection} (h : t.idle j = some c) :
    t.connections[j]? = some c := by
  rw [idle] at h
  split at h
  · exact absurd h (by simp)
  · exact h

/-- Every call of `handleIncomingPacket` under way is about a packet that its connection has
received. -/
def Dispatching (t : TcpServer) : Prop :=
  ∀ d ∈ t.dispatches, Dispatched t.connections d

/-! ## What a step does

`processPacket` and `handleIncomingPacket` apart, a step leaves the calls of `handleIncomingPacket`
alone and takes no entry. -/

/-- The entry that an event takes out of `pendingRequests_`, with the call of
`handleIncomingPacket` that does so. -/
def takes (t : TcpServer) : Event → Option (Dispatch × PendingRequest)
  | .handleIncomingPacket j => t.dispatches[j]?.bind fun d =>
      if d.packet.header.packetId = idResponse then
        t.pendingRequests[d.packet.header.sequence]?.map fun r => (d, r)
      else none
  | _ => none

/-- What is taken out is the pending request with the number of a `RESPONSE` under way. -/
theorem takes_eq_some {d : Dispatch} {r : PendingRequest} (h : t.takes e = some (d, r)) :
    d ∈ t.dispatches ∧ d.packet.header.packetId = idResponse ∧
      t.pendingRequests[d.packet.header.sequence]? = some r := by
  cases e <;> simp only [takes, reduceCtorEq] at h
  obtain ⟨d', hd', hif⟩ := Option.bind_eq_some_iff.mp h
  split at hif
  · rename_i hid
    obtain ⟨r', hr', heq⟩ := Option.map_eq_some_iff.mp hif
    obtain ⟨rfl, rfl⟩ := Prod.mk.inj heq
    exact ⟨List.mem_of_getElem? hd', hid, hr'⟩
  · exact absurd hif (by simp)

/-- What is recorded of it. -/
def takenBy (x : Dispatch × PendingRequest) : Taken :=
  ⟨x.2.call, x.1.connectionId, x.1.packet, x.2.callback⟩

/-- The connections when a packet has been handed to one of them, before the server goes on. -/
def received (t : TcpServer) : Event → List Connection
  | .processPacket j p => t.connections.modify j (Connection.receive p)
  | _ => t.connections

/-- The entries that an event takes out of `pendingRequests_`. -/
def removes (t : TcpServer) : Event → List UInt32
  | .handleIncomingPacket j =>
    ((t.takes (.handleIncomingPacket j)).map fun x => x.1.packet.header.sequence).toList
  | .sweep => t.expiredSequences
  | .cancelRequest sequence => if t.pendingRequests.contains sequence then [sequence] else []
  | _ => []

/-- The entry that an event inserts into `pendingRequests_`. -/
def inserts (t : TcpServer) : Event → Option (UInt32 × PendingRequest)
  | .register k => (t.callIn k .sent).map fun c =>
      (c.sequence, ⟨t.now + c.timeout, c.connectionId, c.responseCallback, k⟩)
  | _ => none

/-- What a step does to the calls of `sendRequest`. -/
inductive RequestChange (t : TcpServer) (e : Event) (t' : TcpServer) : Prop where
  | same (hinserts : t.inserts e = none) (hcalls : t'.calls = t.calls)
  | call (c : RequestCall) (hinserts : t.inserts e = none) (hphase : c.phase = .drawn)
      (hcalls : t'.calls = t.calls ++ [c])
  | send (k : ℕ) (c : RequestCall) (phase : RequestPhase) (hinserts : t.inserts e = none)
      (hc : t.calls[k]? = some c) (hphase : c.phase = .drawn)
      (hphase' : phase = .sent ∨ phase = .failed)
      (hcalls : t'.calls = t.calls.set k { c with phase := phase })
  | register (k : ℕ) (c : RequestCall) (expiry : ℕ)
      (hinserts : t.inserts e =
        some (c.sequence, ⟨expiry, c.connectionId, c.responseCallback, k⟩))
      (hc : t.calls[k]? = some c) (hphase : c.phase = .sent)
      (hcalls : t'.calls = t.calls.set k { c with phase := .registered })
  | finish (k : ℕ) (c : RequestCall) (he : e = .ensureTimer k) (hinserts : t.inserts e = none)
      (hc : t.calls[k]? = some c) (hphase : c.phase = .registered)
      (hcalls : t'.calls = t.calls.set k { c with phase := .done })

/-- What most steps leave alone. Connections may have gone on. -/
structure Frame (serverId : List UInt8) (t t' : TcpServer) : Prop where
  connections : Grows serverId t.connections t'.connections
  dispatches : t'.dispatches = t.dispatches
  taken : t'.taken = t.taken

inductive Transition (serverId : List UInt8) (t : TcpServer) : Event → TcpServer → Prop where
  | processPacket {j : ℕ} {p : Packet} {c : Connection} (hc : t.connections[j]? = some c) :
      Transition serverId t (.processPacket j p) (t.processPacket serverId j c p)
  | handleIncomingPacket {j : ℕ} {d : Dispatch} (hd : t.dispatches[j]? = some d) :
      Transition serverId t (.handleIncomingPacket j)
        ({ t with dispatches := t.dispatches.eraseIdx j }.handleIncomingPacket serverId d)
  | other {e : Event} {t' : TcpServer} (hreceived : t.received e = t.connections)
      (htakes : t.takes e = none) (hframe : Frame serverId t t')
      (hpending : ∀ s, t'.pendingRequests[s]? =
        lookupAfter t.pendingRequests (t.removes e) (t.inserts e) s)
      (hchange : RequestChange t e t') : Transition serverId t e t'

/-- A call in a phase is a call, and is in the phase. -/
theorem callIn_eq_some {k : ℕ} {phase : RequestPhase} {c : RequestCall}
    (h : t.callIn k phase = some c) : t.calls[k]? = some c ∧ c.phase = phase := by
  obtain ⟨hc, hphase⟩ := Option.filter_eq_some_iff.mp h
  exact ⟨hc, of_decide_eq_true hphase⟩

/-- The table stays as it is when nothing is taken out or inserted. -/
theorem pending_of_eq (hpending : t'.pendingRequests = t.pendingRequests)
    (hevent : (t.removes e, t.inserts e) = ([], none)) (s : UInt32) :
    t'.pendingRequests[s]? = lookupAfter t.pendingRequests (t.removes e) (t.inserts e) s := by
  obtain ⟨hremoves, hinserts⟩ := Prod.mk.inj hevent
  simp [hpending, hremoves, hinserts, lookupAfter]

/-- Every step is one of the transitions. -/
theorem transition_of_step (h : step serverId t e = some t') : Transition serverId t e t' := by
  -- connections may go on, and all that is said of the rest is true by definition
  have hquiet (hgrows : Grows serverId t.connections t'.connections)
      (hsame : (t'.dispatches, t'.taken, t'.pendingRequests, t'.calls, t.received e, t.takes e) =
        (t.dispatches, t.taken, t.pendingRequests, t.calls, t.connections, none))
      (hevent : (t.removes e, t.inserts e) = ([], none)) : Transition serverId t e t' := by
    simp only [Prod.mk.injEq] at hsame
    obtain ⟨hdispatches, htaken, hpending, hcalls, hreceived, htakes⟩ := hsame
    exact .other hreceived htakes ⟨hgrows, hdispatches, htaken⟩ (pending_of_eq hpending hevent)
      (.same (Prod.mk.inj hevent).2 hcalls)
  cases stepped_of_step h with
  | start => exact hquiet (.refl _) rfl rfl
  | setCallbacks => exact hquiet (.refl _) rfl rfl
  | setTimeoutCallback => exact hquiet (.refl _) rfl rfl
  | accept error =>
    cases error with
    | false => exact hquiet ((grows_map _ _ fun _ => .unregister).append _ _) rfl rfl
    | true => exact hquiet (.refl _) rfl rfl
  | unregisterConnection => exact hquiet (grows_map _ _ fun _ => .unregister) rfl rfl
  | processPacket j p c hc => exact .processPacket (idle_eq_some hc)
  | handleIncomingPacket j d hd => exact .handleIncomingPacket hd
  | sendRequest =>
    exact .other rfl rfl ⟨.refl _, rfl, rfl⟩ (pending_of_eq rfl rfl) (.call _ rfl rfl rfl)
  | sendDrawn k c hcall =>
    obtain ⟨hc, hphase⟩ := callIn_eq_some hcall
    rw [sendDrawn]
    split
    · exact .other rfl rfl ⟨grows_map _ _ fun _ => .send _, rfl, rfl⟩ (pending_of_eq rfl rfl)
        (.send k c .sent rfl hc hphase (Or.inl rfl) rfl)
    · exact .other rfl rfl ⟨.refl _, rfl, rfl⟩ (pending_of_eq rfl rfl)
        (.send k c .failed rfl hc hphase (Or.inr rfl) rfl)
  | register k c hcall =>
    obtain ⟨hc, hphase⟩ := callIn_eq_some hcall
    have hinserts : t.inserts (.register k) =
        some (c.sequence, ⟨t.now + c.timeout, c.connectionId, c.responseCallback, k⟩) := by
      rw [inserts, hcall]
      rfl
    refine .other rfl rfl ⟨.refl _, rfl, rfl⟩ (fun s => ?_) (.register k c _ hinserts hc hphase rfl)
    rw [hinserts]
    exact getElem?_insert_eq _ _ _ _
  | ensureTimer k c hcall =>
    obtain ⟨hc, hphase⟩ := callIn_eq_some hcall
    simp only [ensureTimer]
    split <;>
      exact .other rfl rfl ⟨.refl _, rfl, rfl⟩ (pending_of_eq rfl rfl)
        (.finish k c rfl rfl hc hphase rfl)
  | cancelRequest =>
    exact .other rfl rfl ⟨.refl _, rfl, rfl⟩ (fun s => getElem?_erase_eq _ _ _) (.same rfl rfl)
  | sendPacketTo id p => exact hquiet (grows_map _ _ fun _ => .send p) rfl rfl
  | sendTo => exact hquiet (grows_map _ _ fun _ => .send _) rfl rfl
  | broadcastPacket p => exact hquiet (grows_map _ _ fun _ => .send p) rfl rfl
  | broadcast => exact hquiet (grows_map _ _ fun _ => .send _) rfl rfl
  | tick => exact hquiet (.refl _) rfl rfl
  | expire => exact hquiet (.refl _) rfl rfl
  | sweep =>
    exact .other rfl rfl ⟨.refl _, rfl, rfl⟩ (fun s => getElem?_eraseAll_eq _ _ _) (.same rfl rfl)
  | finishSweep j hasPending => cases hasPending <;> exact hquiet (.refl _) rfl rfl
  | timerAborted => exact hquiet (.refl _) rfl rfl

/-- A callback leaves the pending requests as they are. -/
@[simp] theorem callBack_pendingRequests (t : TcpServer) (callback : PacketCallback)
    (d : Dispatch) : (t.callBack serverId callback d).pendingRequests = t.pendingRequests := by
  cases callback <;> rfl

/-- A callback leaves the calls of `sendRequest` as they are. -/
@[simp] theorem callBack_calls (t : TcpServer) (callback : PacketCallback) (d : Dispatch) :
    (t.callBack serverId callback d).calls = t.calls := by
  cases callback <;> rfl

/-- A callback takes no request out. -/
@[simp] theorem callBack_taken (t : TcpServer) (callback : PacketCallback) (d : Dispatch) :
    (t.callBack serverId callback d).taken = t.taken := by
  cases callback <;> rfl

/-! ## `handleIncomingPacket` -/

/-- `takePending` by cases: an entry is taken, or nothing happens. -/
theorem takePending_cases (t : TcpServer) (d : Dispatch) :
    (∃ r, d.packet.header.packetId = idResponse ∧
      t.pendingRequests[d.packet.header.sequence]? = some r ∧
      t.takePending d = { t with
        pendingRequests := t.pendingRequests.erase d.packet.header.sequence
        taken := t.taken ++ [takenBy (d, r)] }) ∨
    ((d.packet.header.packetId = idResponse →
      t.pendingRequests[d.packet.header.sequence]? = none) ∧ t.takePending d = t) := by
  rw [takePending]
  split
  · rename_i hid
    cases hr : t.pendingRequests[d.packet.header.sequence]? with
    | some r => exact Or.inl ⟨r, hid, rfl, rfl⟩
    | none => exact Or.inr ⟨fun _ => rfl, rfl⟩
  · rename_i hid
    exact Or.inr ⟨fun h => absurd h hid, rfl⟩

/-- To take a request out leaves the connections as they are. -/
theorem takePending_connections (t : TcpServer) (d : Dispatch) :
    (t.takePending d).connections = t.connections := by
  rcases t.takePending_cases d with ⟨r, -, -, h⟩ | ⟨-, h⟩ <;> rw [h]

/-- To take a request out leaves the calls under way as they are. -/
theorem takePending_dispatches (t : TcpServer) (d : Dispatch) :
    (t.takePending d).dispatches = t.dispatches := by
  rcases t.takePending_cases d with ⟨r, -, -, h⟩ | ⟨-, h⟩ <;> rw [h]

/-- To take a request out leaves the calls of `sendRequest` as they are. -/
theorem takePending_calls (t : TcpServer) (d : Dispatch) : (t.takePending d).calls = t.calls := by
  rcases t.takePending_cases d with ⟨r, -, -, h⟩ | ⟨-, h⟩ <;> rw [h]

/-! ## Along a step -/

/-- In a step the connections grow, apart from the packets that come in. -/
theorem connections_step (hdisp : t.Dispatching) (h : step serverId t e = some t') :
    Grows serverId (t.received e) t'.connections := by
  cases transition_of_step h with
  | processPacket hc =>
    refine grows_callBack ?_ (dispatched_receive hc _) _
    rfl
  | handleIncomingPacket hd =>
    refine grows_callBack ?_ (hdisp _ (List.mem_of_getElem? hd)) _
    exact takePending_connections _ _
  | other hreceived _ hframe _ _ => exact hreceived ▸ hframe.connections

/-- The packets that an event hands to the `j`-th connection. -/
def Event.packetsOf (j : ℕ) : Event → List Packet
  | .processPacket i p => if i = j then [p] else []
  | _ => []

/-- A step appends to what a connection has received the packets that come in on it. -/
theorem connection_step {j : ℕ} {c : Connection} (hdisp : t.Dispatching)
    (h : step serverId t e = some t') (hc : t.connections[j]? = some c) :
    ∃ c' : Connection, t'.connections[j]? = some c' ∧ c'.id = c.id ∧
      c'.received = c.received ++ e.packetsOf j := by
  -- first what the event itself hands to the connection, then what the server does
  obtain ⟨b, hb, hid, hreceived⟩ : ∃ b : Connection, (t.received e)[j]? = some b ∧ b.id = c.id ∧
      b.received = c.received ++ e.packetsOf j := by
    cases e with
    | processPacket i p =>
      simp only [received, List.getElem?_modify, hc, Option.map_eq_map, Option.map_some,
        Event.packetsOf]
      refine ⟨_, rfl, ?_⟩
      split <;> simp [Connection.receive]
    | _ => exact ⟨c, hc, rfl, (List.append_nil _).symm⟩
  obtain ⟨c', hc', hgoes⟩ := (connections_step hdisp h).old j b hb
  exact ⟨c', hc', hgoes.id_eq.trans hid, hgoes.received_eq.trans hreceived⟩

/-- In every step the calls under way go on belonging to their connections. -/
theorem Dispatching.step (hdisp : t.Dispatching) (h : step serverId t e = some t') :
    t'.Dispatching := by
  have hgrows := connections_step hdisp h
  cases transition_of_step h with
  | @processPacket j p c hc =>
    intro d hd
    rcases mem_callBack_dispatches hd with hd | rfl
    · exact ((hdisp d hd).receive j p).grows hgrows
    · exact (dispatched_receive hc p).grows hgrows
  | @handleIncomingPacket j d hd =>
    intro d' hd'
    -- a call that is made by this one has its arguments
    have hmem : d' ∈ t.dispatches := by
      rcases mem_callBack_dispatches hd' with hd' | rfl
      · rw [takePending_dispatches] at hd'
        exact List.mem_of_mem_eraseIdx hd'
      · exact List.mem_of_getElem? hd
    exact (hdisp d' hmem).grows hgrows
  | other hreceived _ hframe _ _ =>
    intro d hd
    rw [hframe.dispatches] at hd
    exact (hdisp d hd).grows (hreceived ▸ hgrows)

/-- A step appends to `taken` what it takes out. -/
theorem taken_step (h : step serverId t e = some t') :
    t'.taken = t.taken ++ ((t.takes e).map takenBy).toList := by
  cases transition_of_step h with
  | processPacket => simp [processPacket, takes, updateConnection]
  | other _ htakes hframe _ _ => simp [hframe.taken, htakes]
  | @handleIncomingPacket j d hd =>
    rw [handleIncomingPacket, takes, hd, Option.bind_some]
    rcases takePending_cases { t with dispatches := t.dispatches.eraseIdx j } d with
      ⟨r, hid, hr, htake⟩ | ⟨hnone, htake⟩
    · rw [htake, if_pos hid, hr]
      simp
    · rw [htake]
      split
      · rename_i hid
        rw [hnone hid]
        simp
      · simp

/-- What is found in the table after a step. -/
theorem getElem?_pending_step (h : step serverId t e = some t') (s : UInt32) :
    t'.pendingRequests[s]? = lookupAfter t.pendingRequests (t.removes e) (t.inserts e) s := by
  cases transition_of_step h with
  | processPacket =>
    rw [processPacket, callBack_pendingRequests]
    simp [updateConnection, removes, inserts, lookupAfter]
  | @handleIncomingPacket j d hd =>
    rw [handleIncomingPacket, callBack_pendingRequests]
    simp only [inserts, removes, takes, hd, Option.bind_some]
    -- only a response to a pending request takes an entry out
    rcases takePending_cases { t with dispatches := t.dispatches.eraseIdx j } d with
      ⟨r, hid, hr, htake⟩ | ⟨hnone, htake⟩
    · have hmem : t.pendingRequests.contains d.packet.header.sequence = true := by
        rw [Std.TreeMap.contains_eq_isSome_getElem?, show t.pendingRequests[_]? = some r from hr]
        rfl
      have herase := getElem?_erase_eq t.pendingRequests d.packet.header.sequence s
      rw [hmem, if_pos rfl] at herase
      rw [htake, if_pos hid, show t.pendingRequests[_]? = some r from hr]
      exact herase
    · rw [htake]
      split
      · rename_i hid
        rw [show t.pendingRequests[_]? = none from hnone hid]
        rfl
      · rfl
  | other _ _ _ hpending _ => exact hpending s

/-- What a step does to the pending requests and the calls. -/
theorem change_step (h : step serverId t e = some t') : RequestChange t e t' := by
  cases transition_of_step h with
  | processPacket => exact .same rfl (by rw [processPacket, callBack_calls]; rfl)
  | handleIncomingPacket =>
    exact .same rfl (by rw [handleIncomingPacket, callBack_calls, takePending_calls])
  | other _ _ _ _ hchange => exact hchange

/-- An entry that is inserted is that of a call that has sent its packet. -/
theorem inserts_eq_some {s : UInt32} {r : PendingRequest} (h : t.inserts e = some (s, r)) :
    e = .register r.call ∧ ∃ c : RequestCall, t.calls[r.call]? = some c ∧ c.phase = .sent ∧
      c.sequence = s ∧ c.connectionId = r.connectionId ∧ c.responseCallback = r.callback := by
  cases e with
  | register k =>
    obtain ⟨c, hc, heq⟩ := Option.map_eq_some_iff.mp h
    obtain ⟨rfl, rfl⟩ := Prod.mk.inj heq
    obtain ⟨hc, hphase⟩ := callIn_eq_some hc
    exact ⟨rfl, c, hc, hphase, rfl, rfl, rfl⟩
  | _ => exact absurd h (by simp [inserts])

/-- An entry that is found after a step was there before, or belongs to the call that has made
it. -/
theorem pending_step {s : UInt32} {r : PendingRequest} (h : step serverId t e = some t')
    (hr : t'.pendingRequests[s]? = some r) :
    t.pendingRequests[s]? = some r ∨ ∃ c : RequestCall, t.calls[r.call]? = some c ∧
      c.connectionId = r.connectionId ∧ c.sequence = s := by
  rw [getElem?_pending_step h] at hr
  rcases lookupAfter_eq_some hr with hinserts | ⟨-, hr⟩
  · obtain ⟨-, c, hc, -, hsequence, hconnection, -⟩ := inserts_eq_some hinserts
    exact Or.inr ⟨c, hc, hconnection, hsequence⟩
  · exact Or.inl hr

/-- In a step a call of `sendRequest` goes on. -/
theorem call_step {k : ℕ} {c : RequestCall} (h : step serverId t e = some t')
    (hc : t.calls[k]? = some c) :
    ∃ c' : RequestCall, t'.calls[k]? = some c' ∧ c.Goes c' := by
  -- another call goes on, or this one does
  have hset (i : ℕ) (b b' : RequestCall) (hcalls : t'.calls = t.calls.set i b')
      (hb : t.calls[i]? = some b) (hgoes : b.Goes b') :
      ∃ c' : RequestCall, t'.calls[k]? = some c' ∧ c.Goes c' := by
    rw [hcalls]
    refine exists_getElem?_set hc .refl fun hik => ?_
    obtain rfl := Option.some.inj (hc.symm.trans (hik ▸ hb))
    exact hgoes
  cases change_step h with
  | same _ hcalls => exact ⟨c, hcalls ▸ hc, .refl⟩
  | call b _ _ hcalls => exact ⟨c, hcalls ▸ getElem?_append_of_some hc _, .refl⟩
  | send i b phase _ hb hphase hphase' hcalls =>
    exact hset i b _ hcalls hb (.send phase hphase hphase')
  | register i b _ _ hb hphase hcalls => exact hset i b _ hcalls hb (.register hphase)
  | finish i b _ _ hb hphase hcalls => exact hset i b _ hcalls hb (.finish hphase)

/-- A call of `sendRequest` keeps its arguments and its number. -/
theorem calls_step {k : ℕ} {c : RequestCall} (h : step serverId t e = some t')
    (hc : t.calls[k]? = some c) :
    ∃ c' : RequestCall, t'.calls[k]? = some c' ∧ c'.connectionId = c.connectionId ∧
      c'.sequence = c.sequence := by
  obtain ⟨c', hc', hgoes⟩ := call_step h hc
  refine ⟨c', hc', ?_⟩
  cases hgoes <;> exact ⟨rfl, rfl⟩

/-! ## Only the asked connection answers -/

/-- The packet that took the entry is a `RESPONSE` with the number of the request, and came in on
the connection that the request was sent to. -/
def AskedFor (t : TcpServer) (x : Taken) : Prop :=
  ∃ c : RequestCall, t.calls[x.call]? = some c ∧ x.connectionId = c.connectionId ∧
    x.packet.header.packetId = idResponse ∧ x.packet.header.sequence = c.sequence ∧
    ∃ k ∈ t.connections, k.id = x.connectionId ∧ x.packet ∈ k.received

/-- Every entry that a packet has taken, with or without a callback, was taken by the connection
that was asked. -/
def AnsweredByAsked (t : TcpServer) : Prop := ∀ x ∈ t.taken, t.AskedFor x

/-- The event is not the handling of a `RESPONSE` while a request to another connection is pending
under its sequence. -/
def FromAsked (t : TcpServer) (e : Event) : Prop :=
  ∀ x ∈ t.takes e, x.2.connectionId = x.1.connectionId

instance (t : TcpServer) (e : Event) : Decidable (FromAsked t e) :=
  inferInstanceAs (Decidable (∀ x ∈ t.takes e, x.2.connectionId = x.1.connectionId))

/-- Every entry belongs to a call of `sendRequest`, to the same connection and with the number it is
found under; and what is being handled has been received. -/
structure Tracked (t : TcpServer) : Prop where
  pending : ∀ (s : UInt32) (r : PendingRequest), t.pendingRequests[s]? = some r →
    ∃ c : RequestCall, t.calls[r.call]? = some c ∧ c.connectionId = r.connectionId ∧ c.sequence = s
  dispatching : t.Dispatching

/-- Nothing is pending at the start. -/
theorem tracked_start : Tracked {} where
  pending s r hr := by simp at hr
  dispatching := List.forall_mem_nil _

/-- Every step keeps track of the entries. -/
theorem Tracked.step (hI : t.Tracked) (h : step serverId t e = some t') : t'.Tracked where
  pending s r hr := by
    obtain ⟨c, hc, hconnection, hsequence⟩ : ∃ c : RequestCall, t.calls[r.call]? = some c ∧
        c.connectionId = r.connectionId ∧ c.sequence = s := by
      rcases pending_step h hr with hr | hcall
      · exact hI.pending s r hr
      · exact hcall
    obtain ⟨c', hc', hconnection', hsequence'⟩ := calls_step h hc
    exact ⟨c', hc', hconnection'.trans hconnection, hsequence'.trans hsequence⟩
  dispatching := hI.dispatching.step h

/-- What was asked for stays asked for. -/
theorem AskedFor.step {x : Taken} (hx : t.AskedFor x) (hI : t.Tracked)
    (h : step serverId t e = some t') : t'.AskedFor x := by
  obtain ⟨c, hc, hconnection, hid, hsequence, k, hk, hkid, hmem⟩ := hx
  obtain ⟨c', hc', hconnection', hsequence'⟩ := calls_step h hc
  obtain ⟨j, hj⟩ := List.getElem?_of_mem hk
  obtain ⟨k', hk', hid', hreceived⟩ := connection_step hI.dispatching h hj
  exact ⟨c', hc', hconnection.trans hconnection'.symm, hid, hsequence.trans hsequence'.symm, k',
    List.mem_of_getElem? hk', hid'.trans hkid, hreceived ▸ List.mem_append_left _ hmem⟩

/-- An entry was taken by the asked connection exactly when its connection is that of the packet. -/
theorem askedFor_takenBy_iff (hI : t.Tracked) (h : step serverId t e = some t') {d : Dispatch}
    {r : PendingRequest} (hx : t.takes e = some (d, r)) :
    t'.AskedFor (takenBy (d, r)) ↔ r.connectionId = d.connectionId := by
  obtain ⟨hd, hid, hr⟩ := takes_eq_some hx
  obtain ⟨c, hc, hconnection, hsequence⟩ := hI.pending _ r hr
  constructor
  · rintro ⟨c', hc', hconnection', -⟩
    obtain ⟨c'', hc'', hsame, -⟩ := calls_step h hc
    obtain rfl := Option.some.inj (hc''.symm.trans hc')
    exact (hconnection'.trans (hsame.trans hconnection)).symm
  · intro heq
    obtain ⟨k, hk, hkid, hreceived⟩ := hI.dispatching d hd
    have hasked : t.AskedFor (takenBy (d, r)) :=
      ⟨c, hc, heq.symm.trans hconnection.symm, hid, hsequence.symm, k, List.mem_of_getElem? hk,
        hkid, List.mem_of_getElem? hreceived⟩
    exact hasked.step hI h

/-- A step keeps the property exactly when the packet that it handles is from the connection that
was asked. -/
theorem answeredByAsked_step (hI : t.Tracked) (hP : t.AnsweredByAsked)
    (h : step serverId t e = some t') : t'.AnsweredByAsked ↔ FromAsked t e := by
  -- what was taken before stays as it was, so only what is taken now counts
  have hold : ∀ x ∈ t.taken, t'.AskedFor x := fun x hx => (hP x hx).step hI h
  rw [AnsweredByAsked, FromAsked, taken_step h, List.forall_mem_append]
  cases hx : t.takes e with
  | none => simpa using hold
  | some x =>
    obtain ⟨d, r⟩ := x
    rw [and_iff_right hold]
    simpa using askedFor_takenBy_iff hI h hx

/-- **Answers to the requests of the server.** In every state of a run the entries that packets have
taken out of `pendingRequests_`, and the callbacks they have called, were taken and called by a
`RESPONSE` with the sequence of the request from the connection that was asked, exactly when no
`RESPONSE` is ever handled while a request to another connection is pending under its sequence. -/
theorem answeredByAsked_iff (serverId : List UInt8) (es : List Event) (u : TcpServer)
    (hrun : run (step serverId) {} es = some u) :
    EveryState (step serverId) {} es AnsweredByAsked ↔
      EveryStep (step serverId) {} es FromAsked := by
  refine everyState_iff_everyStep (I := Tracked) (List.forall_mem_nil _) tracked_start ?_ ?_ hrun
  · exact fun t e t' _ _ hI ht => hI.step ht
  · exact fun t e t' _ _ hI hP ht => answeredByAsked_step hI hP ht

/-- The server with two connections, which has sent a request to the first. The application has set
its packet callback after `start`. -/
def askFirst : List Event :=
  [.start, .accept false, .accept false, .setCallbacks true,
    .sendRequest 1 [0x61] 5000 true false, .sendDrawn 0, .register 0, .ensureTimer 0]

/-- A `RESPONSE` with sequence 1 comes in on the `j`-th connection. -/
def responds (j : ℕ) : List Event :=
  [.processPacket j (createPacket ⟨idResponse, 0, 1, [0x62]⟩), .handleIncomingPacket 0]

/-- The connection that was asked answers. -/
theorem answeredByAsked_iff_asked :
    EveryState (step [0x53]) {} (askFirst ++ responds 0) AnsweredByAsked :=
  (answeredByAsked_iff [0x53] (askFirst ++ responds 0) _ rfl).mpr (by decide)

/-- The other connection answers. The callback of the request is called, the entry is gone, and the
answer of the connection that was asked finds nothing. -/
theorem other_connection_answers :
    ∃ t u, run (step [0x53]) {} (askFirst ++ responds 1) = some t ∧
      t.taken = [⟨0, 2, createPacket ⟨idResponse, 0, 1, [0x62]⟩, true⟩] ∧
      t.pendingRequests[(1 : UInt32)]? = none ∧ ¬ AnsweredByAsked t ∧
      run (step [0x53]) t (responds 0) = some u ∧ u.taken = t.taken := by
  refine ⟨_, _, rfl, rfl, by decide, fun hP => ?_, rfl, rfl⟩
  obtain ⟨c, hc, hconnection, -⟩ := hP ⟨0, 2, createPacket ⟨idResponse, 0, 1, [0x62]⟩, true⟩
    (List.mem_singleton_self _)
  obtain rfl := Option.some.inj hc
  exact absurd hconnection (by decide)

end TcpServer

end TurboNet.Asio
