import TurboNet.Asio.ByteLink

/-!
# What arrives

Reference: `claude/asio_client.cpp`, `TcpClient::processPacket`; `claude/asio_server.cpp`,
`Connection::processPacket`.

Whatever a side of a connection has received is what its reader has processed, in every run of
its sockets (`received_step` of both programs). With `ByteLink` this says what arrives at the other
side: the first of the packets that were sent, in order and each once, and all of them when nothing
is under way any more (`arrives`).
-/

namespace TurboNet.Asio

open Common

/-- The record of processed packets only grows. -/
theorem PacketReader.processed_prefix_onRead (host : Endian) (r : PacketReader) (bs : List UInt8) :
    r.processed <+: (r.onRead host bs).processed := by
  have hfinish {r r' : PacketReader} (h : r'.processed = r.processed) :
      r.processed <+: r'.finishPacket.processed := by
    rw [← h]
    exact List.prefix_append _ _
  rw [onRead]
  split
  · simp only [onReadHeader]
    split
    · split
      · exact List.prefix_rfl
      · split
        · exact List.prefix_rfl
        · exact hfinish rfl
    · exact List.prefix_rfl
  · simp only [onReadPayload]
    split
    · exact hfinish rfl
    · exact List.prefix_rfl
  · exact List.prefix_rfl

/-! ## The client -/

namespace TcpClient

variable {clientId : List UInt8} {t t' : TcpClient}

/-- The client has received the packets of its events, in order. -/
theorem received_run {es : List Event} (h : run (step clientId) t es = some t') :
    t'.received = t.received ++ es.flatMap Event.packets := by
  induction es generalizing t with
  | nil =>
    obtain rfl : t = t' := by simpa using h
    rw [List.flatMap_nil, List.append_nil]
  | cons e es ih =>
    obtain ⟨u, hu, hrest⟩ := run_cons_eq_some.mp h
    rw [ih hrest, (transition_of_step hu).received, List.flatMap_cons, List.append_assoc]

end TcpClient

namespace ClientSocket

variable {host : Endian} {clientId : List UInt8} {t t' : ClientSocket} {e : Event}

/-- A read adds the packets that it completes. -/
theorem readerAfter_processed (t : ClientSocket) (r : Read) (bs : List UInt8) :
    (t.readerAfter host r bs).processed = t.reader.processed ++ t.packetsAfter host r bs := by
  have hprefix : t.reader.processed <+: (t.readerAfter host r bs).processed := by
    have h := PacketReader.processed_prefix_onRead host
      { t.reader with reading := some r.state, closed := false } bs
    rw [readerAfter]
    cases hstate : r.state with
    | header =>
      rw [hstate] at h
      exact h
    | payload =>
      rw [hstate] at h
      exact h
  obtain ⟨new, hnew⟩ := hprefix
  rw [packetsAfter, ← hnew, List.drop_left]

/-- The client has received what its reader has processed. -/
theorem received_step (hI : t.client.received = t.reader.processed)
    (h : step host clientId t e = some t') : t'.client.received = t'.reader.processed := by
  rw [TcpClient.received_run (client_step h), hI]
  -- only a read passes packets on: those that its reader completes
  cases e with
  | readDone i bs =>
    obtain ⟨-, r, hr, -, rfl⟩ := readDone_eq_some h
    have hreader : ({ t with reads := t.reads.eraseIdx i }.onRead host r bs).reader =
        t.readerAfter host r bs := by
      simp only [onRead]
      split
      · exact close_reader _
      · rfl
    rw [hreader, readerAfter_processed, clientEvents, hr, List.flatMap_map]
    exact congrArg _ (List.flatMap_singleton' _)
  | client e padding =>
    rw [processed_step h (by simp)]
    have hpackets : e.packets = [] := by
      cases e with
      | processPacket p => simp [step, isHandler] at h
      | _ => rfl
    simp [clientEvents, hpackets]
  | resolved error =>
    rw [processed_step h (by simp)]
    cases error <;> simp [clientEvents, TcpClient.Event.packets]
  | _ =>
    rw [processed_step h (by simp)]
    simp [clientEvents, TcpClient.Event.packets]

end ClientSocket

/-! ## The server -/

namespace TcpServer

variable {serverId : List UInt8} {t t' : TcpServer}

/-- A connection has received the packets of its events, in order. -/
theorem received_run (hdisp : t.Dispatching) {es : List Event}
    (h : run (step serverId) t es = some t') {j : ℕ} {c : Connection}
    (hc : t.connections[j]? = some c) : ∃ c' : Connection, t'.connections[j]? = some c' ∧
      c'.received = c.received ++ es.flatMap (Event.packetsOf j) := by
  induction es generalizing t c with
  | nil =>
    obtain rfl : t = t' := by simpa using h
    exact ⟨c, hc, by rw [List.flatMap_nil, List.append_nil]⟩
  | cons e es ih =>
    obtain ⟨u, hu, hrest⟩ := run_cons_eq_some.mp h
    obtain ⟨b, hb, -, hreceived⟩ := connection_step hdisp hu hc
    obtain ⟨c', hc', hreceived'⟩ := ih (hdisp.step hu) hrest hb
    refine ⟨c', hc', ?_⟩
    rw [hreceived', hreceived, List.flatMap_cons, List.append_assoc]

end TcpServer

namespace ServerSockets

variable {host : Endian} {serverId : List UInt8} {t t' : ServerSockets} {e : Event}

/-- The connections have received what their readers have processed. -/
def Received (t : ServerSockets) : Prop :=
  ∀ (j : ℕ) (c : Connection) (io : ConnectionSocket), t.server.connections[j]? = some c →
    t.sockets[j]? = some io → c.received = io.reader.processed

/-- A read of the server adds the packets that it completes. -/
theorem readerAfter_processed (io : ConnectionSocket) (bs : List UInt8) :
    (io.readerAfter host bs).processed = io.reader.processed ++ io.packetsAfter host bs := by
  obtain ⟨new, hnew⟩ :=
    PacketReader.processed_prefix_onRead host { io.reader with closed := false } bs
  have hafter : (io.readerAfter host bs).processed = io.reader.processed ++ new := hnew.symm
  rw [ConnectionSocket.packetsAfter, hafter, List.drop_left]

/-- A step in which no packet comes in on the connection. -/
theorem processed_of_change {new : List (List UInt8)} {j : ℕ} {io io' : ConnectionSocket}
    (h : SocketChange host e j new io io') (hread : ∀ bs padding, e ≠ .readDone j bs padding) :
    io'.reader.processed = io.reader.processed := by
  cases h with
  | runPost post =>
    cases post with
    | send bytes => rfl
    | close => rfl
  | readDone bs padding posts he => exact absurd he (hread bs padding)
  | endRead | post | complete | fail => rfl

/-- Packets come in on a connection only when it reads. -/
theorem packetsOf_serverEvents {j : ℕ} (h : step host serverId t e = some t')
    (hread : ∀ bs padding, e ≠ .readDone j bs padding) :
    (t.serverEvents host e).flatMap (TcpServer.Event.packetsOf j) = [] := by
  rw [List.flatMap_eq_nil_iff]
  intro f hf
  cases transition_of_step h with
  | @server f' padding server he =>
    obtain rfl := List.mem_singleton.mp hf
    cases f with
    | processPacket => cases he
    | _ => rfl
  | @readDone i bs padding _ io _ _ hio =>
    simp only [serverEvents, hio, Option.map_some, Option.getD_some] at hf
    obtain ⟨p, -, rfl⟩ := List.mem_map.mp hf
    refine if_neg fun hij => ?_
    subst hij
    exact hread bs padding rfl
  | readFailed hc | writeFailed hc =>
    simp only [serverEvents, hc] at hf
    obtain rfl := List.mem_singleton.mp hf
    rfl
  | closeConnection | runPost | readAborted | writeDone | writeAborted => cases hf

/-- What the connections have received is what their readers have processed, step by step. -/
theorem Received.step (hI : t.Received) (haligned : t.Aligned) (hdisp : t.server.Dispatching)
    (h : ServerSockets.step host serverId t e = some t') : t'.Received := by
  intro j c' io' hc' hio'
  have hrun := server_step h
  cases hio : t.sockets[j]? with
  | none =>
    -- the connection has just been accepted
    obtain ⟨rfl, e', padding, -, -, hserver⟩ := new_of_step haligned h hio hio'
    have hnone : t.server.connections[j]? = none := by
      rw [List.getElem?_eq_none_iff, ← haligned]
      exact List.getElem?_eq_none_iff.mp hio
    have hreceived : (t.server.received e')[j]? = none := by
      have hsent := TcpServer.getElem?_received t.server e' j
      rwa [hnone, Option.map_none, Option.map_eq_none_iff] at hsent
    rw [((TcpServer.connections_step hdisp hserver).new j c' hreceived hc').1]
    rfl
  | some io =>
    obtain ⟨c, hc⟩ : ∃ c, t.server.connections[j]? = some c := by
      refine ⟨_, List.getElem?_eq_getElem ?_⟩
      rw [← haligned]
      exact (List.getElem?_eq_some_iff.mp hio).1
    obtain ⟨c'', hc'', hreceived⟩ := TcpServer.received_run hdisp hrun hc
    obtain rfl := Option.some.inj (hc''.symm.trans hc')
    rw [hreceived, hI j c io hc hio]
    by_cases hread : ∃ bs padding, e = .readDone j bs padding
    · obtain ⟨bs, padding, rfl⟩ := hread
      rw [serverEvents, hio, Option.map_some, Option.getD_some, List.flatMap_map]
      have hpackets : (fun p => TcpServer.Event.packetsOf j (.processPacket j p)) = ([·]) := by
        funext p
        exact if_pos rfl
      rw [hpackets, List.flatMap_singleton', ← readerAfter_processed]
      rw [(readDone_eq_some h hio hio').2]
    · obtain ⟨io'', padding, hio'', hchange⟩ := socketChange_of_step h hio
      obtain rfl := Option.some.inj (hio''.symm.trans hio')
      have hread' (bs : List UInt8) (padding : Padding) : e ≠ .readDone j bs padding :=
        fun he => hread ⟨bs, padding, he⟩
      rw [packetsOf_serverEvents h hread', List.append_nil, processed_of_change hchange hread']

end ServerSockets

/-! ## Both sides -/

/-- A reader that reads, and has nothing to come, has all packets. -/
theorem PacketReader.Awaits.eq_nil {sender : Endian} {r : PacketReader} {packets : List Packet}
    (h : r.Awaits sender packets []) (hreading : r.reading.isSome = true) : packets = [] := by
  cases h with
  | header frames _ _ hframes hrest =>
    cases hframes with
    | nil => rfl
    | @cons frame p _ _ hframe _ =>
      obtain ⟨padding, rfl⟩ := hframe
      have hnil := List.flatten_eq_nil_iff.mp hrest.symm _ List.mem_cons_self
      have hlength := Packet.length_serialize sender padding p
      rw [hnil, List.length_nil, sizeofHeader] at hlength
      omega
  | payload frames p _ hr _ _ hrest =>
    exact absurd (List.append_eq_nil_iff.mp hrest.symm).1 hr.payload
  | ended hnone => simp [hnone] at hreading

namespace ByteLink

variable {clientHost serverHost : Endian} {serverId clientId : List UInt8} {w w' : ByteLink}
  {e : Event}

/-- A step of the machine is one of the client's socket, one of the server's, or neither. -/
theorem sides_of_step (h : step clientHost serverHost serverId clientId w e = some w') :
    (∃ e', e = .client e' ∧
        ClientSocket.step clientHost clientId w.client e' = some w'.client) ∧
        w'.server = w.server ∨
      (∃ e', ServerSockets.step serverHost serverId w.server e' = some w'.server) ∧
        w'.client = w.client ∨
      w'.client = w.client ∧ w'.server = w.server := by
  cases e with
  | client e =>
    obtain ⟨-, h⟩ := Option.ite_none_left_eq_some.mp h
    obtain ⟨down, -, h⟩ := Option.bind_eq_some_iff.mp h
    obtain ⟨t, ht, rfl⟩ := Option.map_eq_some_iff.mp h
    exact Or.inl ⟨⟨e, rfl, ht⟩, rfl⟩
  | server e =>
    obtain ⟨up, -, h⟩ := Option.bind_eq_some_iff.mp h
    obtain ⟨s, hs, rfl⟩ := Option.map_eq_some_iff.mp h
    exact Or.inr (Or.inl ⟨⟨e, hs⟩, rfl⟩)
  | accept padding =>
    obtain ⟨-, h⟩ := Option.ite_none_right_eq_some.mp h
    obtain ⟨s, hs, rfl⟩ := Option.map_eq_some_iff.mp h
    exact Or.inr (Or.inl ⟨⟨_, hs⟩, rfl⟩)
  | carryUp n =>
    obtain ⟨-, h⟩ := Option.ite_none_right_eq_some.mp h
    obtain rfl := Option.some.inj h
    exact Or.inr (Or.inr ⟨rfl, rfl⟩)
  | carryDown n =>
    obtain ⟨-, h⟩ := Option.ite_none_right_eq_some.mp h
    obtain rfl := Option.some.inj h
    exact Or.inr (Or.inr ⟨rfl, rfl⟩)

/-- Both sides have received what their readers have processed. -/
structure Received (w : ByteLink) : Prop where
  client : w.client.client.received = w.client.reader.processed
  server : w.server.Received
  aligned : w.server.Aligned
  dispatching : w.server.server.Dispatching

/-- Nothing has been received at the start. -/
theorem received_start : ({} : ByteLink).Received where
  client := rfl
  server _ _ _ hc := absurd hc (by simp)
  aligned := rfl
  dispatching := List.forall_mem_nil _

/-- Every step of the two sides keeps it. -/
theorem Received.step (hI : w.Received)
    (h : ByteLink.step clientHost serverHost serverId clientId w e = some w') : w'.Received := by
  rcases sides_of_step h with ⟨⟨e', -, ht⟩, hserver⟩ | ⟨⟨e', hs⟩, hclient⟩ | ⟨hclient, hserver⟩
  · refine ⟨ClientSocket.received_step hI.client ht, ?_, ?_, ?_⟩
    · exact hserver ▸ hI.server
    · exact hserver ▸ hI.aligned
    · exact hserver ▸ hI.dispatching
  · refine ⟨hclient ▸ hI.client, hI.server.step hI.aligned hI.dispatching hs,
      hI.aligned.step hs, ?_⟩
    exact (TcpServer.sentOf_run hI.dispatching (ServerSockets.server_step hs)).1
  · refine ⟨hclient ▸ hI.client, ?_, ?_, ?_⟩
    · exact hserver ▸ hI.server
    · exact hserver ▸ hI.aligned
    · exact hserver ▸ hI.dispatching

/-- The server still reads, and nothing is under way to it: not with the network, not in the queue
of the client and not in its posted handlers. -/
structure UpIdle (w : ByteLink) : Prop where
  reading : w.io.reader.reading.isSome = true
  transit : w.up.transit = []
  queue : w.client.output.queue = []
  posts : w.client.posts = []

/-- The same for the client. -/
structure DownIdle (w : ByteLink) : Prop where
  reading : w.client.reads ≠ []
  transit : w.down.transit = []
  queue : w.io.output.queue = []
  posts : w.io.posts = []

/-- Nothing is left for a server that is idle and still reads. -/
theorem UpFlow.eq_nil {packets : List Packet} {rest : List UInt8}
    (h : UpFlow clientHost w.client w.io.reader w.up packets rest) (hidle : w.UpIdle) :
    packets = [] := by
  have hawaits := h.awaits
  rw [h.carries.eq_nil hidle.transit hidle.queue hidle.posts] at hawaits
  exact hawaits.eq_nil hidle.reading

/-- Nothing is left for a client that is idle and still reads. -/
theorem DownFlow.eq_nil {packets sent : List Packet} {rest : List UInt8}
    (h : DownFlow serverHost w.client w.io sent w.down packets rest) (hidle : w.DownIdle) :
    packets = [] := by
  have hawaits := h.awaits
  rw [h.carries.eq_nil hidle.transit hidle.queue (by rw [hidle.posts]; rfl)] at hawaits
  cases hawaits with
  | fresh _ _ hnone => exact absurd hnone hidle.reading
  | reading r _ _ hstate _ hawaits => exact hawaits.eq_nil (by rw [hstate]; rfl)
  | ended _ hnone => exact absurd hnone hidle.reading

/-- What the two sides of the connection have received, and what they have still to get. -/
theorem streams_of_run {es : List Event} {j : ℕ} {c : Connection}
    (hlegible : EveryStep (step clientHost serverHost serverId clientId) {} es
      fun w _ => w.Legible)
    (hrun : run (step clientHost serverHost serverId clientId) {} es = some w)
    (hj : w.accepted = some j) (hc : w.server.server.connections[j]? = some c) :
    ∃ up down, w.client.client.sent = c.received ++ up ∧ (w.UpIdle → up = []) ∧
      c.sent.map Outgoing.packet = w.client.client.received ++ down ∧ (w.DownIdle → down = []) := by
  obtain ⟨hI, -⟩ := joined_run hlegible hrun
  have hreceived : w.Received :=
    run_induction received_start (fun _ _ _ h hstep => h.step hstep) hrun
  obtain ⟨io, hio⟩ := hI.accepted j hj
  obtain ⟨up, upRest, hup⟩ := hI.up
  obtain ⟨down, downRest, hdown⟩ := hI.down
  have hserver : c.received = w.io.reader.processed := by
    rw [hreceived.server j c io hc hio, io_eq hj hio]
  have hsent : w.serverPackets = c.sent.map Outgoing.packet := by
    rw [serverPackets_eq hj, ServerSockets.packetsOf, ServerSockets.sentOf, hc]
    rfl
  refine ⟨up, down, ?_, hup.eq_nil, ?_, hdown.eq_nil⟩
  · rw [hserver, hup.sent]
  · rw [← hsent, hdown.sent, hreceived.client]

/-- **Arrival.** As long as the packets that are sent are readable, the connection of the server has
received the first of the packets that the client has sent, in order and each once, and the client
the first of those of the connection. A side that still reads has all of them when nothing is under
way to it. -/
theorem arrives (clientHost serverHost : Endian) (serverId clientId : List UInt8) (es : List Event)
    (w : ByteLink)
    (hlegible : EveryStep (step clientHost serverHost serverId clientId) {} es
      fun w _ => w.Legible)
    (hrun : run (step clientHost serverHost serverId clientId) {} es = some w) (j : ℕ)
    (c : Connection) (hj : w.accepted = some j)
    (hc : w.server.server.connections[j]? = some c) :
    c.received <+: w.client.client.sent ∧ (w.UpIdle → c.received = w.client.client.sent) ∧
      w.client.client.received <+: c.sent.map Outgoing.packet ∧
      (w.DownIdle → w.client.client.received = c.sent.map Outgoing.packet) := by
  obtain ⟨up, down, hup, hupNil, hdown, hdownNil⟩ := streams_of_run hlegible hrun hj hc
  rw [hup, hdown]
  refine ⟨List.prefix_append _ _, fun hidle => ?_, List.prefix_append _ _, fun hidle => ?_⟩
  · rw [hupNil hidle, List.append_nil]
  · rw [hdownNil hidle, List.append_nil]

/-- After `bindAnswered` nothing is under way. -/
theorem arrives_bindAnswered :
    ∃ w c, run (step .little .big [0x53] [0x43]) {} bindAnswered = some w ∧
      w.server.server.connections[0]? = some c ∧ c.received = w.client.client.sent ∧
      w.client.client.received = c.sent.map Outgoing.packet := by
  obtain ⟨w, c, hrun, hj, hc, hup, hdown⟩ : ∃ w c,
      run (step .little .big [0x53] [0x43]) {} bindAnswered = some w ∧ w.accepted = some 0 ∧
        w.server.server.connections[0]? = some c ∧ w.UpIdle ∧ w.DownIdle :=
    ⟨_, _, rfl, rfl, rfl, ⟨rfl, rfl, rfl, rfl⟩, ⟨List.cons_ne_nil _ _, rfl, rfl, rfl⟩⟩
  obtain ⟨-, hserver, -, hclient⟩ :=
    arrives .little .big [0x53] [0x43] bindAnswered w (by decide) hrun 0 c hj hc
  exact ⟨w, c, hrun, hc, hserver hup, hclient hdown⟩

end ByteLink

end TurboNet.Asio
