import Mathlib.Data.List.Forall2
import TurboNet.Asio.ClientSocket
import TurboNet.Asio.ServerSockets

/-!
# The write queues of the asio programs

Reference: `claude/asio_server.cpp`, `Connection::sendPacket`, `Connection::doWrite`;
`claude/asio_client.cpp`, `TcpClient::sendPacket`, `TcpClient::doWrite`.

Both programs post a handler for each packet, which puts the serialized packet into `write_queue_`
and begins a write if the queue was empty; the handler of a write takes the front away and begins
the next write. As long as no write fails the queue is a `Fifo`, and what comes into it are the
packets that `sendPacket` was called with, serialized, in their order (`writes_in_order`).
-/

namespace TurboNet.Asio

open Common

/-- The frames are these packets, serialized. -/
def Frames (host : Endian) (frames : List (List UInt8)) (packets : List Packet) : Prop :=
  List.Forall₂ (fun bytes p => ∃ padding, bytes = p.serialize host padding) frames packets

/-- Packets that are sent are serialized. -/
theorem Frames.append {host : Endian} {frames : List (List UInt8)} {packets packets' : List Packet}
    (h : Frames host frames packets) (hle : packets <+: packets') (padding : Padding) :
    Frames host (frames ++ (packets'.drop packets.length).map fun p => p.serialize host padding)
      packets' := by
  obtain ⟨new, rfl⟩ := hle
  rw [List.drop_left]
  refine List.rel_append h ?_
  rw [List.forall₂_map_left_iff, List.forall₂_same]
  exact fun p _ => ⟨padding, rfl⟩

/-! ## The client -/

namespace ClientSocket

variable {host : Endian} {clientId : List UInt8} {t t' : ClientSocket} {e : Event}

/-- What `sendPacket` has accepted, serialized: what has been put into the queue, and what is still
to be put there. -/
def frames (t : ClientSocket) : List (List UInt8) := (t.output.pushed ++ t.posts).map Send.bytes

/-- The queue is a `Fifo` of what `sendPacket` has accepted. -/
structure InOrder (host : Endian) (t : ClientSocket) : Prop where
  fifo : t.output.Fifo
  frames : Frames host t.frames t.client.sent

/-- `processPacket` of the client sends nothing. -/
theorem processPacket_sent (c : TcpClient) (p : Packet) : (c.processPacket p).sent = c.sent := by
  rw [TcpClient.processPacket_eq]

/-- `handleDisconnect` sends nothing. -/
theorem handleDisconnect_sent (c : TcpClient) : c.handleDisconnect.sent = c.sent := by
  rw [TcpClient.handleDisconnect]
  split <;> rfl

/-- The handler of a connect sends nothing. -/
theorem connectDone_sent (c : TcpClient) (error : Bool) : (c.connectDone error).sent = c.sent := by
  cases error with
  | true =>
    simp only [TcpClient.connectDone, TcpClient.scheduleReconnect, if_true]
    split <;> rfl
  | false => rfl

/-- A step of the client adds the frames of what it has sent. -/
theorem frames_withClient (t : ClientSocket) (padding : Padding) (e : TcpClient.Event)
    (c : TcpClient) : (t.withClient host padding e c).frames = t.frames ++
      (c.sent.drop t.client.sent.length).map fun p => p.serialize host padding := by
  simp [frames, withClient, accepted, Function.comp_def]

/-- What a step hands to `sendPacket` comes last. -/
theorem frames_step (h : step host clientId t e = some t') :
    t.client.sent <+: t'.client.sent ∧ ∃ padding, t'.frames = t.frames ++
      (t'.client.sent.drop t.client.sent.length).map fun p => p.serialize host padding := by
  -- the handlers on the strand leave what has been sent alone
  have hsame (hsent : t'.client.sent = t.client.sent) (hframes : t'.frames = t.frames) :
      t.client.sent <+: t'.client.sent ∧ ∃ padding, t'.frames = t.frames ++
        (t'.client.sent.drop t.client.sent.length).map fun p => p.serialize host padding := by
    rw [hsent, List.drop_length]
    refine ⟨List.prefix_rfl, (0, 0), ?_⟩
    rw [List.map_nil, List.append_nil, hframes]
  cases transition_of_step h with
  | @client e padding c he hne hc =>
    exact ⟨(TcpClient.transition_of_step hc).sent, padding, t.frames_withClient padding e c⟩
  | @runConnect padding c hc =>
    have hclient : (t.withClient host padding .runConnect c).runConnect.client = c := by
      simp [ClientSocket.runConnect, withClient]
    have hframes : (t.withClient host padding .runConnect c).runConnect.frames =
        (t.withClient host padding .runConnect c).frames := by
      simp [frames, ClientSocket.runConnect]
    rw [hclient, hframes]
    exact ⟨(TcpClient.transition_of_step hc).sent, padding, t.frames_withClient padding _ c⟩
  | @stop padding c hc =>
    have hclient : (t.withClient host padding .stop c).close.client = c := close_client _
    have hframes : (t.withClient host padding .stop c).close.frames =
        (t.withClient host padding .stop c).frames := by
      simp [frames]
    rw [hclient, hframes]
    exact ⟨(TcpClient.transition_of_step hc).sent, padding, t.frames_withClient padding _ c⟩
  | opened => exact hsame rfl rfl
  | connectFailed _ _ hc =>
    obtain rfl := TcpClient.step_connectDone hc
    exact hsame (connectDone_sent _ true) rfl
  | connected hc =>
    obtain rfl := TcpClient.step_connectDone hc
    exact hsame (connectDone_sent _ false) rfl
  | runSend hposts =>
    refine hsame rfl ?_
    simp [frames, WriteQueue.pushed_push, hposts]
  | @readDone i bs r =>
    refine hsame ?_ ?_
    · rw [onRead_client]
      exact foldl_keeps processPacket_sent _ _
    · simp only [onRead]
      split
      · simp [frames]
      · rfl
  | readFailed => exact hsame (handleDisconnect_sent _) rfl
  | readAborted => exact hsame rfl rfl
  | writeDone houtput =>
    refine hsame rfl ?_
    rw [frames, frames, WriteQueue.pushed_complete houtput]
  | writeFailed _ houtput =>
    refine hsame (handleDisconnect_sent _) ?_
    rw [frames, frames, WriteQueue.pushed_fail houtput]
  | writeAborted _ _ houtput =>
    refine hsame rfl ?_
    rw [frames, frames, WriteQueue.pushed_fail houtput]

/-- A step in which no write fails keeps the order. -/
theorem InOrder.step (hI : t.InOrder host)
    (he : ∀ i, e ≠ .writeFailed i ∧ e ≠ .writeAborted i)
    (h : ClientSocket.step host clientId t e = some t') : t'.InOrder host := by
  constructor
  · cases outputChange_of_step h with
    | other _ _ houtput | connected _ _ houtput =>
      rw [houtput]
      exact hI.fifo
    | push f _ _ _ houtput =>
      rw [houtput]
      exact hI.fifo.push _ f
    | complete i _ _ houtput => exact hI.fifo.complete houtput
    | fail i he' => exact absurd he' (he i).1
    | abort i _ he' => exact absurd he' (he i).2
  · obtain ⟨hle, padding, hframes⟩ := frames_step h
    rw [hframes]
    exact hI.frames.append hle padding

/-- What is being written, and what waits, is not touched by anything but its completion. -/
theorem kept_step (he : ∀ i, e ≠ .writeDone i ∧ e ≠ .writeFailed i ∧ e ≠ .writeAborted i)
    (h : step host clientId t e = some t') : t.output.Kept t'.output := by
  cases outputChange_of_step h with
  | other _ _ houtput | connected _ _ houtput =>
    rw [houtput]
    exact .refl _
  | push f _ _ _ houtput =>
    rw [houtput]
    exact WriteQueue.kept_push _ _ f
  | complete i he' => exact absurd he' (he i).1
  | fail i he' => exact absurd he' (he i).2.1
  | abort i _ he' => exact absurd he' (he i).2.2

/-- No write fails in a run of these events. -/
def NoFailure (es : List Event) : Prop := ∀ i, .writeFailed i ∉ es ∧ .writeAborted i ∉ es

/-- No event of such a run is the failure of a write. -/
theorem NoFailure.ne {es pre post : List Event} (h : NoFailure es) (heq : es = pre ++ e :: post)
    (i : ℕ) : e ≠ .writeFailed i ∧ e ≠ .writeAborted i := by
  have hmem : e ∈ es := by simp [heq]
  exact ⟨fun he => (h i).1 (he ▸ hmem), fun he => (h i).2 (he ▸ hmem)⟩

/-- In a run in which no write fails the queue is in order in every state. -/
theorem everyState_inOrder {es : List Event} (hes : NoFailure es) :
    EveryState (step host clientId) {} es (InOrder host) := by
  have hsteps : EveryStep (step host clientId) {} es fun _ e =>
      ∀ i, e ≠ .writeFailed i ∧ e ≠ .writeAborted i :=
    fun pre e post t heq _ => hes.ne heq
  exact hsteps.everyState ⟨WriteQueue.fifo_empty, .nil⟩ fun t e t' he hI h => hI.step he h

end ClientSocket

/-! ## The server -/

/-- A connection keeps what it has been handed. -/
theorem Connection.Goes.sent_le {serverId : List UInt8} {c c' : Connection}
    (h : c.Goes serverId c') : c.sent <+: c'.sent := by
  cases h with
  | refl => exact List.prefix_rfl
  | unregister => exact List.prefix_rfl
  | send p => exact List.prefix_append _ _
  | answer =>
    rw [Connection.answer]
    split
    · exact List.prefix_append _ _
    · split
      · exact List.prefix_append _ _
      · exact List.prefix_rfl

namespace TcpServer

variable {serverId : List UInt8} {t t' : TcpServer} {e : TcpServer.Event}

/-- Packets that come in are not packets that are sent. -/
theorem getElem?_received (t : TcpServer) (e : TcpServer.Event) (j : ℕ) :
    (t.received e)[j]?.map Connection.sent = t.connections[j]?.map Connection.sent := by
  cases e with
  | processPacket i p =>
    rw [received, List.getElem?_modify]
    cases t.connections[j]? with
    | none => rfl
    | some c =>
      simp only [Option.map_eq_map, Option.map_some, Option.some.injEq]
      split <;> rfl
  | _ => rfl

/-- What has been handed to a connection stays. -/
theorem sentOf_step (hdisp : t.Dispatching) (h : step serverId t e = some t') (j : ℕ) :
    ServerSockets.sentOf t j <+: ServerSockets.sentOf t' j := by
  rw [ServerSockets.sentOf, ← getElem?_received t e j, ServerSockets.sentOf]
  cases hb : (t.received e)[j]? with
  | none => exact List.nil_prefix
  | some b =>
    obtain ⟨c', hc', hgoes⟩ := (connections_step hdisp h).old j b hb
    rw [hc']
    exact hgoes.sent_le

/-- Nothing has been handed to a connection that has just been accepted. -/
theorem sentOf_new (hdisp : t.Dispatching) (h : step serverId t e = some t') {j : ℕ}
    (hnone : t.connections[j]? = none) : ServerSockets.sentOf t' j = [] := by
  have hreceived := getElem?_received t e j
  rw [hnone, Option.map_none, Option.map_eq_none_iff] at hreceived
  rw [ServerSockets.sentOf]
  cases hc' : t'.connections[j]? with
  | none => rfl
  | some c' => exact ((connections_step hdisp h).new j c' hreceived hc').2

/-- What has been handed to a connection stays, in every run. -/
theorem sentOf_run (hdisp : t.Dispatching) {es : List TcpServer.Event}
    (h : run (step serverId) t es = some t') :
    t'.Dispatching ∧ ∀ j, ServerSockets.sentOf t j <+: ServerSockets.sentOf t' j := by
  refine run_induction (P := fun u => u.Dispatching ∧
    ∀ j, ServerSockets.sentOf t j <+: ServerSockets.sentOf u j)
    ⟨hdisp, fun j => List.prefix_rfl⟩ ?_ h
  rintro u e u' ⟨hdisp, hle⟩ hu
  exact ⟨hdisp.step hu, fun j => (hle j).trans (sentOf_step hdisp hu j)⟩

end TcpServer

namespace ServerSockets

variable {host : Endian} {serverId : List UInt8} {t t' : ServerSockets} {e : Event} {j : ℕ}

/-- The packets that have been handed to `sendPacket` of the `j`-th connection. -/
def packetsOf (t : ServerSockets) (j : ℕ) : List Packet := (sentOf t.server j).map Outgoing.packet

/-- The queue of the `j`-th connection is a `Fifo` of what has been handed to it. -/
def InOrder (host : Endian) (j : ℕ) (t : ServerSockets) : Prop :=
  ∀ io, t.sockets[j]? = some io → io.output.Fifo ∧ Frames host io.frames (t.packetsOf j)

/-- A socket gets the frames that are new for it. -/
theorem SocketChange.frames_eq {new : List (List UInt8)} {io io' : ConnectionSocket}
    (h : SocketChange host e j new io io') : io'.frames = io.frames ++ new := by
  cases h with
  | post posts hposts => simp [ConnectionSocket.frames, ConnectionSocket.post, hposts]
  | runPost post rest he hnew hposts =>
    cases post with
    | send bytes =>
      simp [ConnectionSocket.frames, ConnectionSocket.runPost, WriteQueue.pushed_push, hposts, hnew,
        Post.frame]
    | close =>
      rw [ConnectionSocket.frames, ConnectionSocket.frames, hposts, hnew, List.append_nil,
        List.filterMap_cons_none rfl]
      rfl
  | readDone bs padding posts he hwanted hposts =>
    have hclose : (if (io.readerAfter host bs).closed then [Post.close] else []).filterMap
        Post.frame = [] := by
      split <;> rfl
    simp [ConnectionSocket.frames, ConnectionSocket.post, ConnectionSocket.onRead, hposts, hclose]
  | endRead he hnew => simp [ConnectionSocket.frames, ConnectionSocket.endRead, hnew]
  | complete i output he hnew houtput =>
    simp [ConnectionSocket.frames, hnew, WriteQueue.pushed_complete houtput]
  | fail i output he hnew houtput =>
    simp [ConnectionSocket.frames, hnew, WriteQueue.pushed_fail houtput]

/-- The queue of a connection stays in order as long as no write of it fails. -/
theorem SocketChange.fifo {new : List (List UInt8)} {io io' : ConnectionSocket}
    (h : SocketChange host e j new io io') (hfifo : io.output.Fifo)
    (he : ∀ i, e ≠ .writeFailed j i ∧ e ≠ .writeAborted j i) : io'.output.Fifo := by
  cases h with
  | post => exact hfifo
  | runPost post rest =>
    cases post with
    | send bytes => exact hfifo.push () bytes
    | close => exact hfifo
  | readDone => exact hfifo
  | endRead => exact hfifo
  | complete i output _ _ houtput => exact hfifo.complete houtput
  | fail i output he' =>
    rcases he' with he' | ⟨he', -⟩
    · exact absurd he' (he i).1
    · exact absurd he' (he i).2

/-- What is being written, and what waits, is not touched by anything but its completion. -/
theorem SocketChange.kept {new : List (List UInt8)} {io io' : ConnectionSocket}
    (h : SocketChange host e j new io io')
    (he : ∀ i, e ≠ .writeDone j i ∧ e ≠ .writeFailed j i ∧ e ≠ .writeAborted j i) :
    io.output.Kept io'.output := by
  cases h with
  | post => exact .refl _
  | runPost post rest =>
    cases post with
    | send bytes => exact WriteQueue.kept_push _ () bytes
    | close => exact .refl _
  | readDone => exact .refl _
  | endRead => exact .refl _
  | complete i output he' => exact absurd he' (he i).1
  | fail i output he' =>
    rcases he' with he' | ⟨he', -⟩
    · exact absurd he' (he i).2.1
    · exact absurd he' (he i).2.2

/-- What the order of the writes rests on. -/
structure Ordered (host : Endian) (j : ℕ) (t : ServerSockets) : Prop where
  aligned : t.Aligned
  dispatching : t.server.Dispatching
  inOrder : t.InOrder host j

/-- A step in which no write of the connection fails keeps the order. -/
theorem Ordered.step (hI : t.Ordered host j)
    (he : ∀ i, e ≠ .writeFailed j i ∧ e ≠ .writeAborted j i)
    (h : ServerSockets.step host serverId t e = some t') : t'.Ordered host j := by
  obtain ⟨hdisp, hle⟩ := TcpServer.sentOf_run hI.dispatching (server_step h)
  refine ⟨hI.aligned.step h, hdisp, fun io' hio' => ?_⟩
  cases hio : t.sockets[j]? with
  | some io =>
    obtain ⟨io'', padding, hio'', hchange⟩ := socketChange_of_step h hio
    obtain rfl := Option.some.inj (hio''.symm.trans hio')
    obtain ⟨hfifo, hframes⟩ := hI.inOrder io hio
    refine ⟨hchange.fifo hfifo he, ?_⟩
    have happend := hframes.append (List.IsPrefix.map Outgoing.packet (hle j)) padding
    rw [hchange.frames_eq]
    rwa [packetsOf, List.length_map, ← List.map_drop, List.map_map] at happend
  | none =>
    obtain ⟨rfl, e', padding, -, -, hserver⟩ := new_of_step hI.aligned h hio hio'
    refine ⟨WriteQueue.fifo_empty, ?_⟩
    have hnone : t.server.connections[j]? = none := by
      rw [List.getElem?_eq_none_iff, ← hI.aligned]
      exact List.getElem?_eq_none_iff.mp hio
    rw [packetsOf, TcpServer.sentOf_new hI.dispatching hserver hnone]
    exact .nil

/-- No write of the `j`-th connection fails in a run of these events. -/
def NoFailure (j : ℕ) (es : List Event) : Prop :=
  ∀ i, .writeFailed j i ∉ es ∧ .writeAborted j i ∉ es

/-- No event of such a run is the failure of a write of the connection. -/
theorem NoFailure.ne {es pre post : List Event} (h : NoFailure j es) (heq : es = pre ++ e :: post)
    (i : ℕ) : e ≠ .writeFailed j i ∧ e ≠ .writeAborted j i := by
  have hmem : e ∈ es := by simp [heq]
  exact ⟨fun he => (h i).1 (he ▸ hmem), fun he => (h i).2 (he ▸ hmem)⟩

/-- In a run in which no write of the connection fails its queue is in order in every state. -/
theorem everyState_inOrder {es : List Event} (hes : NoFailure j es) :
    EveryState (step host serverId) {} es (InOrder host j) := by
  have hsteps : EveryStep (step host serverId) {} es fun _ e =>
      ∀ i, e ≠ .writeFailed j i ∧ e ≠ .writeAborted j i :=
    fun pre e post t heq _ => hes.ne heq
  have hordered : EveryState (step host serverId) {} es (Ordered host j) :=
    hsteps.everyState ⟨rfl, List.forall_mem_nil _, fun io h => absurd h (by simp)⟩
      fun t e t' he hI h => hI.step he h
  exact fun pre post t heq ht => (hordered pre post t heq ht).inOrder

end ServerSockets

/-! ## Both programs -/

/-- **The write queues are faithful.** In every run of the client in which no write fails, in every
state exactly the front of `write_queue_` is being written and nothing when the queue is empty; what
has been written and what is queued is what the posted handlers have put there, which are the
packets that `sendPacket` has accepted, serialized, in their order; and no step but the completion
of a write touches what is being written or takes away what is queued. So it is for every connection
of the server, in every run in which none of its writes fails. -/
theorem writes_in_order (host : Endian) (clientId serverId : List UInt8) :
    (∀ es : List ClientSocket.Event, ClientSocket.NoFailure es →
      EveryState (ClientSocket.step host clientId) {} es (ClientSocket.InOrder host) ∧
      EveryStep (ClientSocket.step host clientId) {} es fun t e =>
        (∀ i, e ≠ .writeDone i) → ∀ t', ClientSocket.step host clientId t e = some t' →
          t.output.Kept t'.output) ∧
    (∀ (es : List ServerSockets.Event) (j : ℕ), ServerSockets.NoFailure j es →
      EveryState (ServerSockets.step host serverId) {} es (ServerSockets.InOrder host j) ∧
      EveryStep (ServerSockets.step host serverId) {} es fun t e =>
        (∀ i, e ≠ .writeDone j i) → ∀ t', ServerSockets.step host serverId t e = some t' →
          ∀ io, t.sockets[j]? = some io → ∃ io', t'.sockets[j]? = some io' ∧
            io.output.Kept io'.output) := by
  constructor
  · intro es hes
    refine ⟨ClientSocket.everyState_inOrder hes, fun pre e post t heq _ hdone t' h => ?_⟩
    exact ClientSocket.kept_step (fun i => ⟨hdone i, hes.ne heq i⟩) h
  · intro es j hes
    refine ⟨ServerSockets.everyState_inOrder hes, fun pre e post t heq _ hdone t' h io hio => ?_⟩
    obtain ⟨io', padding, hio', hchange⟩ := ServerSockets.socketChange_of_step h hio
    exact ⟨io', hio', hchange.kept fun i => ⟨hdone i, hes.ne heq i⟩⟩

/-- The client sends a packet while its `BIND` is being written. -/
def sendsTwo : List ClientSocket.Event :=
  [.client .start (0, 0), .client .runConnect (0, 0), .resolved false, .connectDone false,
    .client .drawBind (0, 0), .client .sendBind (0, 0), .runSend,
    .client (.sendPacket (createPacket ⟨idRequest, 0, 2, [0x61]⟩)) (0, 0), .runSend,
    .writeDone 0, .writeDone 0]

/-- The server sends a packet while its answer to a `BIND` is being written. -/
def answersBind : List ServerSockets.Event :=
  [.server .start (0, 0), .server (.setCallbacks true) (0, 0), .server (.accept false) (0, 0),
    .readDone 0 (PacketHeader.wire (0, 0) ⟨12, idBind, 0, 1⟩) (0, 0), .runPost 0,
    .server (.sendTo 1 idRequest 0 []) (0, 0), .runPost 0, .writeDone 0 0, .writeDone 0 0]

/-- In both runs the two packets are written, one after the other. -/
theorem writes_in_order_two :
    (∃ u, run (ClientSocket.step .little [0x43]) {} sendsTwo = some u ∧
      u.output.written.length = 2 ∧ u.InOrder .little) ∧
    ∃ u, run (ServerSockets.step .little [0x53]) {} answersBind = some u ∧
      u.sockets.map (·.output.written.length) = [2] ∧ u.InOrder .little 0 := by
  constructor
  · refine ⟨_, rfl, by decide, ?_⟩
    exact ((writes_in_order .little [0x43] [0x53]).1 sendsTwo
      fun i => by simp [sendsTwo]).1.last rfl
  · refine ⟨_, rfl, by decide, ?_⟩
    exact ((writes_in_order .little [0x43] [0x53]).2 answersBind 0
      fun i => by simp [answersBind]).1.last rfl

end TurboNet.Asio
