import TurboNet.Asio.Delivery

/-!
# The automatic answers of the asio server

Reference: `claude/asio_server.cpp`, `Connection::processPacket`,
`TcpServer::handleIncomingPacket`.

A connection answers a `BIND` and a `REQUEST` itself, when the packet callback has returned. The
callbacks of one connection run one after another, and `handleIncomingPacket` may call itself, so a
packet is not answered until the last of these calls returns. `answers_in_order` says which answers
a connection has sent at any time; with `arrives` it says that a client gets an answer to everything
it asks (`everyRequest_answered`).
-/

namespace TurboNet.Asio

open Common

/-- The automatic answer to a packet. -/
def answerTo (serverId : List UInt8) (p : Packet) : Option Packet :=
  if p.header.packetId = idBind then
    some (createPacket ⟨idBindResp, 0, p.header.sequence, serverId⟩)
  else if p.header.packetId = idRequest then
    some (createPacket ⟨idResponse, 0, p.header.sequence, p.payload⟩)
  else none

namespace Connection

variable {serverId : List UInt8}

/-- The automatic answers among what the connection has sent. -/
def automatic (c : Connection) : List Packet :=
  (c.sent.filter (·.answers.isSome)).map Outgoing.packet

/-- Receiving answers nothing. -/
@[simp] theorem automatic_receive (c : Connection) (p : Packet) :
    (c.receive p).automatic = c.automatic := rfl

/-- What the application sends is no automatic answer. -/
@[simp] theorem automatic_sendPacket_none (c : Connection) (p : Packet) :
    (c.sendPacket none p).automatic = c.automatic := by
  simp [automatic, sendPacket]

/-- The answer to a packet is an automatic answer. -/
theorem automatic_sendData (c : Connection) (i : ℕ) (p : TurboNet.Packet) :
    (c.sendData (some i) p).automatic = c.automatic ++ [createPacket p] := by
  simp [automatic, sendData, sendPacket]

/-- `answer` adds the automatic answer to a packet, if it has one. -/
theorem automatic_answer (c : Connection) (i : ℕ) (p : Packet) :
    (c.answer serverId i p).automatic = c.automatic ++ (answerTo serverId p).toList := by
  rw [answer, answerTo]
  split
  · exact automatic_sendData _ _ _
  · split
    · exact automatic_sendData _ _ _
    · exact (List.append_nil _).symm

end Connection

namespace TcpServer

variable {serverId : List UInt8} {t t' : TcpServer} {e : Event}

/-- A call of `handleIncomingPacket` for the `j`-th connection is under way. -/
def underWay (t : TcpServer) (j : ℕ) : Bool := t.dispatches.any (·.connection = j)

/-- The packets that the `j`-th connection has done with. -/
def handled (t : TcpServer) (j : ℕ) (c : Connection) : List Packet :=
  if t.underWay j then c.received.dropLast else c.received

/-- At most one call is under way for a connection, for the last packet that it has received, and
what has been handled before is answered. -/
structure Answered (serverId : List UInt8) (t : TcpServer) : Prop where
  distinct : (t.dispatches.map Dispatch.connection).Nodup
  last : ∀ d ∈ t.dispatches, ∃ c, t.connections[d.connection]? = some c ∧
    c.received.getLast? = some d.packet
  answers : ∀ (j : ℕ) (c : Connection), t.connections[j]? = some c →
    c.automatic = (t.handled j c).filterMap (answerTo serverId)

/-- Nothing has come in at the start. -/
theorem answered_start (serverId : List UInt8) : Answered serverId {} where
  distinct := List.nodup_nil
  last := List.forall_mem_nil _
  answers j c hc := absurd hc (by simp)

/-! ## Steps that are not about packets that come in -/

/-- Connections have gone on without receiving or answering, and there may be new ones. -/
structure Quiet (cs cs' : List Connection) : Prop where
  old : ∀ (j : ℕ) (c : Connection), cs[j]? = some c → ∃ c' : Connection, cs'[j]? = some c' ∧
    c'.received = c.received ∧ c'.automatic = c.automatic
  new : ∀ (j : ℕ) (c' : Connection), cs[j]? = none → cs'[j]? = some c' →
    c'.received = [] ∧ c'.automatic = []

/-- Connections that stay as they are have been quiet. -/
theorem Quiet.refl (cs : List Connection) : Quiet cs cs where
  old _ c hc := ⟨c, hc, rfl, rfl⟩
  new _ c' hnone hc' := absurd (hnone.symm.trans hc') (by simp)

/-- An update that leaves what came in and what was answered alone is quiet. -/
theorem quiet_map (cs : List Connection) (p : Connection → Bool) {f : Connection → Connection}
    (hf : ∀ c : Connection, (f c).received = c.received ∧ (f c).automatic = c.automatic) :
    Quiet cs (cs.map fun c => if p c then f c else c) where
  old i c hc := by
    simp only [List.getElem?_map, hc, Option.map_some]
    refine ⟨_, rfl, ?_⟩
    split
    · exact hf c
    · exact ⟨rfl, rfl⟩
  new i c' hnone hc' := by
    simp [List.getElem?_map, hnone] at hc'

/-- A connection has been accepted. -/
theorem Quiet.append {cs cs' : List Connection} (h : Quiet cs cs') (id : Int32)
    (callback : PacketCallback) : Quiet cs (cs' ++ [⟨id, callback, true, [], []⟩]) where
  old j c hc := by
    obtain ⟨c', hc', hsame⟩ := h.old j c hc
    exact ⟨c', getElem?_append_of_some hc' _, hsame⟩
  new j c' hnone hc' := by
    by_cases hj : j < cs'.length
    · rw [List.getElem?_append_left hj] at hc'
      exact h.new j c' hnone hc'
    · rw [List.getElem?_append_right (Nat.le_of_not_lt hj)] at hc'
      obtain rfl := List.mem_singleton.mp (List.mem_of_getElem? hc')
      exact ⟨rfl, rfl⟩

/-- Quiet connections keep the invariant while nothing is dispatched. -/
theorem Answered.quiet (hI : t.Answered serverId) (h : Quiet t.connections t'.connections)
    (hdispatches : t'.dispatches = t.dispatches) : t'.Answered serverId where
  distinct := hdispatches ▸ hI.distinct
  last d hd := by
    obtain ⟨c, hc, hlast⟩ := hI.last d (hdispatches ▸ hd)
    obtain ⟨c', hc', hreceived, -⟩ := h.old _ c hc
    exact ⟨c', hc', hreceived ▸ hlast⟩
  answers j c' hc' := by
    have hunder : t'.underWay j = t.underWay j := by rw [underWay, underWay, hdispatches]
    cases hc : t.connections[j]? with
    | some c =>
      obtain ⟨c'', hc'', hreceived, hautomatic⟩ := h.old j c hc
      obtain rfl := Option.some.inj (hc''.symm.trans hc')
      have hanswers := hI.answers j c hc
      rw [handled] at hanswers ⊢
      rw [hautomatic, hanswers, hunder, hreceived]
    | none =>
      obtain ⟨hreceived, hautomatic⟩ := h.new j c' hc hc'
      rw [handled, hautomatic, hreceived]
      split <;> rfl

/-! ## A callback is called -/

/-- A call is under way for the connection of a dispatch. -/
theorem underWay_eq_true {j : ℕ} :
    t.underWay j = true ↔ j ∈ t.dispatches.map Dispatch.connection := by
  simp only [underWay, List.any_eq_true, decide_eq_true_eq, List.mem_map]

/-- No call is under way for a connection without a dispatch. -/
theorem underWay_eq_false {j : ℕ} :
    t.underWay j = false ↔ j ∉ t.dispatches.map Dispatch.connection := by
  rw [← underWay_eq_true, Bool.not_eq_true]

/-- The packet callback is about to be called for the last packet of a connection of which nothing
else is under way. -/
structure Calling (serverId : List UInt8) (t : TcpServer) (d : Dispatch) : Prop where
  distinct : (t.dispatches.map Dispatch.connection).Nodup
  fresh : d.connection ∉ t.dispatches.map Dispatch.connection
  last : ∀ d' ∈ t.dispatches, ∃ c, t.connections[d'.connection]? = some c ∧
    c.received.getLast? = some d'.packet
  current : ∃ c, t.connections[d.connection]? = some c ∧ c.received.getLast? = some d.packet ∧
    c.automatic = c.received.dropLast.filterMap (answerTo serverId)
  answers : ∀ (j : ℕ) (c : Connection), j ≠ d.connection → t.connections[j]? = some c →
    c.automatic = (t.handled j c).filterMap (answerTo serverId)

/-- The callback returns and the packet is answered. -/
theorem Calling.callbackDone {d : Dispatch} (h : Calling serverId t d) :
    (t.callbackDone serverId d).Answered serverId := by
  obtain ⟨b, hb, hlast, hautomatic⟩ := h.current
  refine ⟨h.distinct, fun d' hd' => ?_, fun j c' hc' => ?_⟩
  · obtain ⟨c, hc, hlast'⟩ := h.last d' hd'
    have hne : d'.connection ≠ d.connection := fun heq =>
      h.fresh (heq ▸ List.mem_map_of_mem hd')
    refine ⟨c, ?_, hlast'⟩
    rw [TcpServer.callbackDone, updateConnection, List.getElem?_modify_ne _ _ hne.symm]
    exact hc
  · -- the connection of the call answers its last packet, and no other connection changes
    by_cases hj : j = d.connection
    · subst hj
      rw [TcpServer.callbackDone, updateConnection, List.getElem?_modify_eq, hb] at hc'
      obtain rfl := Option.some.inj hc'
      have hidle : (t.callbackDone serverId d).underWay d.connection = false :=
        underWay_eq_false.mpr h.fresh
      obtain ⟨front, hfront⟩ := List.getLast?_eq_some_iff.mp hlast
      rw [handled, hidle, Connection.automatic_answer, Connection.answer_received, hautomatic,
        hfront, List.dropLast_concat, if_neg Bool.false_ne_true, List.filterMap_append]
      cases hanswer : answerTo serverId d.packet with
      | none => rw [List.filterMap_cons_none hanswer]; rfl
      | some q => rw [List.filterMap_cons_some hanswer]; rfl
    · rw [TcpServer.callbackDone, updateConnection, List.getElem?_modify_ne _ _ (Ne.symm hj)] at hc'
      exact h.answers j c' hj hc'

/-- Another call of `handleIncomingPacket` is under way. -/
theorem Calling.redirect {d : Dispatch} (h : Calling serverId t d) :
    ({ t with dispatches := t.dispatches ++ [d] } : TcpServer).Answered serverId := by
  obtain ⟨b, hb, hlast, hautomatic⟩ := h.current
  refine ⟨?_, fun d' hd' => ?_, fun j c hc => ?_⟩
  · rw [List.map_append, List.map_singleton]
    exact h.distinct.append (List.nodup_singleton _) (List.disjoint_singleton.mpr h.fresh)
  · rcases List.mem_append.mp hd' with hd' | hd'
    · exact h.last d' hd'
    · obtain rfl := List.mem_singleton.mp hd'
      exact ⟨b, hb, hlast⟩
  · by_cases hj : j = d.connection
    · subst hj
      obtain rfl := Option.some.inj (hb.symm.trans hc)
      rw [handled, if_pos (by simp [underWay]), hautomatic]
    · have hunder : ({ t with dispatches := t.dispatches ++ [d] } : TcpServer).underWay j =
          t.underWay j := by
        simp [underWay, Ne.symm hj]
      have hanswers := h.answers j c hj hc
      rw [handled] at hanswers ⊢
      rwa [hunder]

/-- The packet callback keeps the invariant, whichever it is: a redirect is under way afterwards,
and everything else has been handled. -/
theorem Calling.callBack {d : Dispatch} (h : Calling serverId t d) (callback : PacketCallback) :
    (t.callBack serverId callback d).Answered serverId := by
  cases callback with
  | unset => exact h.callbackDone
  | user =>
    exact Calling.callbackDone (t := { t with
      userPackets := t.userPackets ++ [(d.connectionId, d.packet)] })
      ⟨h.distinct, h.fresh, h.last, h.current, h.answers⟩
  | redirect => exact h.redirect

/-- A connection of which nothing is under way receives a packet. -/
theorem Answered.processPacket (hI : t.Answered serverId) {j : ℕ} {c : Connection}
    (hc : t.idle j = some c) (p : Packet) : (t.processPacket serverId j c p).Answered serverId := by
  have hj := idle_eq_some hc
  have hidle : t.underWay j = false := by
    rw [idle] at hc
    by_contra hunder
    rw [Bool.not_eq_false] at hunder
    rw [underWay] at hunder
    simp [hunder] at hc
  have hfresh := underWay_eq_false.mp hidle
  -- the packet is the last of its connection, which has answered all that came before
  refine Calling.callBack (t := t.updateConnection j (Connection.receive p))
    (d := ⟨j, c.id, p, c.received.length⟩)
    ⟨hI.distinct, hfresh, fun d hd => ?_, ⟨c.receive p, ?_, ?_, ?_⟩, fun i b hi hb => ?_⟩ _
  · obtain ⟨b, hb, hlast⟩ := hI.last d hd
    have hne : d.connection ≠ j := fun heq => hfresh (heq ▸ List.mem_map_of_mem hd)
    refine ⟨b, ?_, hlast⟩
    rw [updateConnection, List.getElem?_modify_ne _ _ hne.symm]
    exact hb
  · simp [updateConnection, hj]
  · simp [Connection.receive]
  · have hanswers := hI.answers j c hj
    rw [handled, hidle, if_neg Bool.false_ne_true] at hanswers
    rw [Connection.automatic_receive, hanswers]
    simp [Connection.receive]
  · rw [updateConnection, List.getElem?_modify_ne _ _ (Ne.symm hi)] at hb
    exact hI.answers i b hb

/-- A call of `handleIncomingPacket` goes on to `packetCallback_`. -/
theorem Answered.handleIncomingPacket (hI : t.Answered serverId) {k : ℕ} {d : Dispatch}
    (hd : t.dispatches[k]? = some d) :
    ({ t with dispatches := t.dispatches.eraseIdx k }.handleIncomingPacket serverId d).Answered
      serverId := by
  obtain ⟨hlt, heq⟩ := List.getElem?_eq_some_iff.mp hd
  have hperm : (d :: t.dispatches.eraseIdx k).Perm t.dispatches :=
    heq ▸ List.getElem_cons_eraseIdx_perm hlt
  have hdistinct := (hperm.map Dispatch.connection).nodup_iff.mpr hI.distinct
  -- no other call is under way for the connection of this one
  obtain ⟨hfresh, hrest⟩ := List.nodup_cons.mp hdistinct
  obtain ⟨c, hc, hlast⟩ := hI.last d (List.mem_of_getElem? hd)
  refine Calling.callBack ⟨?_, ?_, fun d' hd' => ?_, ⟨c, ?_, hlast, ?_⟩, fun i b hi hb => ?_⟩ _
  · rwa [takePending_dispatches]
  · rwa [takePending_dispatches]
  · rw [takePending_dispatches] at hd'
    rw [takePending_connections]
    exact hI.last d' (List.mem_of_mem_eraseIdx hd')
  · rwa [takePending_connections]
  · have hanswers := hI.answers _ c hc
    rwa [handled, if_pos] at hanswers
    exact underWay_eq_true.mpr (List.mem_map_of_mem (List.mem_of_getElem? hd))
  · rw [takePending_connections] at hb
    have hunder : (({ t with dispatches := t.dispatches.eraseIdx k } : TcpServer).takePending
        d).underWay i = t.underWay i := by
      rw [Bool.eq_iff_iff, underWay_eq_true, underWay_eq_true, takePending_dispatches,
        ← (hperm.map Dispatch.connection).mem_iff, List.map_cons, List.mem_cons, or_iff_right hi]
    have hanswers := hI.answers i b hb
    rw [handled] at hanswers ⊢
    rwa [hunder]

/-- Every step of the server keeps the invariant. -/
theorem Answered.step (hI : t.Answered serverId) (h : TcpServer.step serverId t e = some t') :
    t'.Answered serverId := by
  have hsend (p : Connection → Bool) (q : Packet) :
      Quiet t.connections (t.connections.map fun c => if p c then c.sendPacket none q else c) :=
    quiet_map _ p fun c => ⟨rfl, c.automatic_sendPacket_none q⟩
  -- only a packet and a call of `handleIncomingPacket` can answer; all other steps are quiet
  cases stepped_of_step h with
  | accept error =>
    cases error with
    | false =>
      have hunregistered : Quiet t.connections (t.updateWhere (·.id = t.nextConnectionId)
          fun c => { c with registered := false }).connections :=
        quiet_map _ _ fun _ => ⟨rfl, rfl⟩
      exact hI.quiet (hunregistered.append _ _) rfl
    | true => exact hI.quiet (.refl _) rfl
  | unregisterConnection id => exact hI.quiet (quiet_map _ _ fun _ => ⟨rfl, rfl⟩) rfl
  | processPacket j p c hc => exact hI.processPacket hc p
  | handleIncomingPacket j d hd => exact hI.handleIncomingPacket hd
  | sendDrawn k c =>
    rw [sendDrawn]
    split
    · exact hI.quiet (hsend _ _) rfl
    · exact hI.quiet (.refl _) rfl
  | ensureTimer k c =>
    simp only [ensureTimer]
    split
    · exact hI.quiet (.refl _) rfl
    · exact hI.quiet (.refl _) rfl
  | sendPacketTo | sendTo | broadcastPacket | broadcast => exact hI.quiet (hsend _ _) rfl
  | finishSweep j hasPending =>
    cases hasPending with
    | true => exact hI.quiet (.refl _) rfl
    | false => exact hI.quiet (.refl _) rfl
  | _ => exact hI.quiet (.refl _) rfl

/-- Every run of the server keeps the invariant. -/
theorem Answered.run (hI : t.Answered serverId) {es : List Event}
    (hrun : Common.run (TcpServer.step serverId) t es = some t') : t'.Answered serverId :=
  run_induction hI (fun _ _ _ hI h => hI.step h) hrun

/-- **Automatic answers.** In every state of a run the automatic answers that a connection has sent
are the answers to the packets that it has received, in order and each once, except to the one whose
callback has not returned. -/
theorem answers_in_order (serverId : List UInt8) (es : List Event) (t : TcpServer)
    (hrun : run (step serverId) {} es = some t) (j : ℕ) (c : Connection)
    (hc : t.connections[j]? = some c) :
    c.automatic = (t.handled j c).filterMap (answerTo serverId) :=
  ((answered_start serverId).run hrun).answers j c hc

/-- `BIND` is answered, and a request is being handled. -/
theorem answers_in_order_underWay :
    ∃ t c, run (step [0x53]) {} [.start, .accept false, .setCallbacks true,
        .processPacket 0 (createPacket ⟨idBind, 0, 1, [0x43]⟩), .handleIncomingPacket 0,
        .processPacket 0 (createPacket ⟨idRequest, 0, 2, [0x61]⟩)] = some t ∧
      t.connections[0]? = some c ∧ c.received.length = 2 ∧
      c.automatic = [createPacket ⟨idBindResp, 0, 1, [0x53]⟩] := by
  obtain ⟨t, c, hrun, hc, hlength, hhandled⟩ : ∃ t c, run (step [0x53]) {} [.start, .accept false,
        .setCallbacks true, .processPacket 0 (createPacket ⟨idBind, 0, 1, [0x43]⟩),
        .handleIncomingPacket 0, .processPacket 0 (createPacket ⟨idRequest, 0, 2, [0x61]⟩)] =
          some t ∧
      t.connections[0]? = some c ∧ c.received.length = 2 ∧
      t.handled 0 c = [createPacket ⟨idBind, 0, 1, [0x43]⟩] :=
    ⟨_, _, rfl, rfl, rfl, rfl⟩
  refine ⟨t, c, hrun, hc, hlength, ?_⟩
  rw [answers_in_order [0x53] _ t hrun 0 c hc, hhandled]
  rfl

end TcpServer

/-! ## A client and the server -/

namespace ByteLink

/-- The server answers in order in every run of the two sides. -/
theorem answered_run {clientHost serverHost : Endian} {serverId clientId : List UInt8}
    {es : List Event} {w : ByteLink}
    (hrun : run (step clientHost serverHost serverId clientId) {} es = some w) :
    w.server.server.Answered serverId := by
  refine run_induction (P := fun w => w.server.server.Answered serverId)
    (TcpServer.answered_start serverId) (fun w e w' hI h => ?_) hrun
  rcases sides_of_step h with ⟨-, hserver⟩ | ⟨⟨e', hs⟩, -⟩ | ⟨-, hserver⟩
  · rwa [hserver]
  · exact hI.run (ServerSockets.server_step hs)
  · rwa [hserver]

/-- **Requests are answered.** A client whose packets, like those of the server, are readable gets
the answers to all its requests, in order, when nothing is under way between the two sides; and
nothing else, if the server sends nothing of its own accord. -/
theorem everyRequest_answered (clientHost serverHost : Endian) (serverId clientId : List UInt8)
    (es : List Event) (w : ByteLink)
    (hlegible : EveryStep (step clientHost serverHost serverId clientId) {} es
      fun w _ => w.Legible)
    (hrun : run (step clientHost serverHost serverId clientId) {} es = some w) (j : ℕ)
    (c : Connection) (hj : w.accepted = some j) (hc : w.server.server.connections[j]? = some c)
    (hup : w.UpIdle) (hdown : w.DownIdle) (hidle : w.server.server.underWay j = false) :
    (w.client.client.sent.filterMap (answerTo serverId)).Sublist w.client.client.received ∧
      ((∀ o ∈ c.sent, o.answers.isSome = true) →
        w.client.client.received = w.client.client.sent.filterMap (answerTo serverId)) := by
  obtain ⟨up, down, hsent, hupNil, hreceived, hdownNil⟩ := streams_of_run hlegible hrun hj hc
  rw [hupNil hup, List.append_nil] at hsent
  rw [hdownNil hdown, List.append_nil] at hreceived
  have hanswers := (answered_run hrun).answers j c hc
  rw [TcpServer.handled, hidle, if_neg Bool.false_ne_true] at hanswers
  rw [hsent, ← hanswers, ← hreceived]
  refine ⟨List.Sublist.map _ List.filter_sublist, fun hall => ?_⟩
  rw [Connection.automatic, List.filter_eq_self.mpr hall]

/-- After `bindAnswered` the client has the answer to its `BIND`, and nothing else. -/
theorem everyRequest_answered_bind :
    ∃ w, run (step .little .big [0x53] [0x43]) {} bindAnswered = some w ∧
      w.client.client.received = w.client.client.sent.filterMap (answerTo [0x53]) := by
  obtain ⟨w, c, hrun, hj, hc, hup, hdown, hidle, hall⟩ : ∃ w c,
      run (step .little .big [0x53] [0x43]) {} bindAnswered = some w ∧ w.accepted = some 0 ∧
        w.server.server.connections[0]? = some c ∧ w.UpIdle ∧ w.DownIdle ∧
        w.server.server.underWay 0 = false ∧ ∀ o ∈ c.sent, o.answers.isSome = true :=
    ⟨_, _, rfl, rfl, rfl, ⟨rfl, rfl, rfl, rfl⟩, ⟨List.cons_ne_nil _ _, rfl, rfl, rfl⟩, rfl,
      by decide⟩
  have hanswered := everyRequest_answered .little .big [0x53] [0x43] bindAnswered w (by decide) hrun
    0 c hj hc hup hdown hidle
  exact ⟨w, hrun, hanswered.2 hall⟩

end ByteLink

end TurboNet.Asio
