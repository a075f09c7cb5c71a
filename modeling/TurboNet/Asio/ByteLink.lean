import TurboNet.Asio.SocketStreams
import TurboNet.Asio.Link

/-!
# A client and the server, byte by byte

Reference: `claude/asio_client.cpp`, `TcpClient::sendPacket`, `doWrite`, `readHeader`,
`readPayload`; `claude/asio_server.cpp`, the same functions of `Connection`.

`ByteLink.step` is a client with its socket and the server with its sockets, and a connection
between them that carries bytes: the writes in flight go out in pieces, and a read completes with
the bytes that come next. The server may have other connections, with any bytes coming in on them.
The machine follows the client from its first start to the end of its first connection: it does not
connect anew, and is not stopped, when it has been connected.

`refines` says that `Link`, whose connection delivers whole packets, is a sound account of this as
long as the packets that are sent are `Legible`.
-/

namespace TurboNet.Asio

open Common

structure ByteLink where
  client : ClientSocket := {}
  server : ServerSockets := {}
  /-- The number of the connection on the server, once it has been accepted. -/
  accepted : Option ℕ := none
  /-- What the client writes, and what the server writes on the connection. -/
  up : Pipe UInt8 := {}
  down : Pipe UInt8 := {}

namespace ByteLink

/-- The socket at the server's end. -/
def io (w : ByteLink) : ServerSockets.ConnectionSocket :=
  (w.accepted.bind (w.server.sockets[·]?)).getD {}

/-- The packets that the server has been handed for the connection. -/
def serverPackets (w : ByteLink) : List Packet :=
  (w.accepted.map w.server.packetsOf).getD []

/-! ## The machine -/

inductive Event where
  | client (e : ClientSocket.Event)
  | server (e : ServerSockets.Event)
  /-- The connection of the client is accepted. -/
  | accept (padding : Padding)
  /-- The network takes up to `n` bytes from the client, or from the server. -/
  | carryUp (n : ℕ)
  | carryDown (n : ℕ)

/-- The client has been connected, and the event would end the connection. -/
def ends (w : ByteLink) : ClientSocket.Event → Bool
  | .client .runConnect _ | .client .stop _ | .resolved _ | .nextEndpoint | .connectDone _ =>
    !w.client.made.isEmpty
  | _ => false

/-- The bytes for the client when it has taken those of the event. A write completes when the
network has taken all of it. -/
def readDown (w : ByteLink) : ClientSocket.Event → Option (Pipe UInt8)
  | .readDone _ bs => w.down.read bs
  | .writeDone _ => if w.up.left = [] then some w.down else none
  | _ => some w.down

/-- The same for the server. -/
def readUp (w : ByteLink) : ServerSockets.Event → Option (Pipe UInt8)
  | .readDone j bs _ => if w.accepted = some j then w.up.read bs else some w.up
  | .writeDone j _ => if w.accepted = some j ∧ w.down.left ≠ [] then none else some w.up
  | _ => some w.up

/-- The connection at the server's end when the client has taken a step: an attempt to connect that
is over has nothing to do with the next one. -/
def acceptedAfter (w : ByteLink) : ClientSocket.Event → Option ℕ
  | .client .runConnect _ | .resolved true | .connectDone true => none
  | _ => w.accepted

/-- The client has taken a step. -/
def withClient (w : ByteLink) (e : ClientSocket.Event) (down : Pipe UInt8) (t : ClientSocket) :
    ByteLink :=
  { w with
    client := t
    accepted := w.acceptedAfter e
    up := w.up.write ClientSocket.Send.bytes w.client.output t.output
    down := if w.acceptedAfter e = w.accepted then down else {} }

/-- The server has taken a step. -/
def withServer (w : ByteLink) (up : Pipe UInt8) (s : ServerSockets) : ByteLink :=
  { w with
    server := s
    up := up
    down := w.down.write id w.io.output { w with server := s }.io.output }

def step (clientHost serverHost : Endian) (serverId clientId : List UInt8) (w : ByteLink) :
    Event → Option ByteLink
  | .client e =>
    if w.ends e then none
    else (w.readDown e).bind fun down =>
      (ClientSocket.step clientHost clientId w.client e).map (w.withClient e down)
  | .server e => (w.readUp e).bind fun up =>
      (ServerSockets.step serverHost serverId w.server e).map (w.withServer up)
  | .accept padding =>
    if w.accepted.isNone && (!w.client.made.isEmpty || 0 < w.client.client.connecting) then
      (ServerSockets.step serverHost serverId w.server (.server (.accept false) padding)).map
        fun s => { w with
          server := s
          accepted := some w.server.server.connections.length }
    else none
  | .carryUp n =>
    if w.client.made ≠ [] ∧ w.client.output.writes ≠ [] then some { w with up := w.up.carry n }
    else none
  | .carryDown n =>
    if w.io.isOpen = true ∧ w.io.output.writes ≠ [] then some { w with down := w.down.carry n }
    else none

/-- What has been sent on the connection so far is readable. -/
def Legible (w : ByteLink) : Prop :=
  Asio.Legible w.client.client.sent ∧ Asio.Legible w.serverPackets

instance (w : ByteLink) : Decidable w.Legible :=
  inferInstanceAs (Decidable (_ ∧ _))

variable {clientHost serverHost : Endian} {serverId clientId : List UInt8} {w w' : ByteLink}
  {t t' : ClientSocket} {reader : PacketReader} {up down : Pipe UInt8}
  {io : ServerSockets.ConnectionSocket} {packets sent : List Packet} {rest : List UInt8}

/-! ## The stream from the client -/

/-- Of what the client has sent, the server has processed the first part, and has the rest still to
process. Before the client is connected nothing goes out. -/
structure UpFlow (clientHost : Endian) (t : ClientSocket) (reader : PacketReader) (up : Pipe UInt8)
    (packets : List Packet) (rest : List UInt8) : Prop where
  sent : t.client.sent = reader.processed ++ packets
  carries : Pipe.Carries ClientSocket.Send.bytes t.output t.posts up rest
  awaits : reader.Awaits clientHost packets rest
  quiet : t.made = [] → up.transit = [] ∧ reader.processed = [] ∧
    ∃ frames, Frames clientHost frames packets ∧ rest = frames.flatten

/-- Nothing has been sent at the start. -/
theorem upFlow_start (clientHost : Endian) :
    UpFlow clientHost {} PacketReader.start {} [] [] where
  sent := rfl
  carries := Pipe.carries_empty
  awaits := PacketReader.awaits_start clientHost
  quiet _ := ⟨rfl, rfl, [], .nil, rfl⟩

/-- A step of the client adds what it has sent to the rest. -/
theorem UpFlow.client (h : UpFlow clientHost t reader up packets rest) {e : ClientSocket.Event}
    (ht : ClientSocket.step clientHost clientId t e = some t')
    (hdone : ∀ i, e = .writeDone i → up.left = []) :
    ∃ packets' rest', UpFlow clientHost t' reader
      (up.write ClientSocket.Send.bytes t.output t'.output) packets' rest' := by
  obtain ⟨frames, hframes, hcarries⟩ := ClientSocket.carries_step h.carries ht hdone
  obtain ⟨new, hnew⟩ := (ClientSocket.frames_step ht).1
  rw [← hnew, List.drop_left] at hframes
  refine ⟨packets ++ new, rest ++ frames.flatten, ?_, hcarries, h.awaits.append hframes, ?_⟩
  · rw [← hnew, h.sent, List.append_assoc]
  · intro hmade
    have hbefore : t.made = [] := List.prefix_nil.mp (hmade ▸ ClientSocket.made_step ht)
    obtain ⟨htransit, hprocessed, frames', hframes', hrest⟩ := h.quiet hbefore
    refine ⟨htransit, hprocessed, frames' ++ frames, hframes'.append_frames hframes, ?_⟩
    rw [hrest, List.flatten_append]

/-- The connection at the server's end is another one, which has not read anything. -/
theorem UpFlow.restart (h : UpFlow clientHost t reader up packets rest) (hmade : t.made = []) :
    UpFlow clientHost t PacketReader.start up packets rest := by
  obtain ⟨htransit, hprocessed, frames, hframes, hrest⟩ := h.quiet hmade
  refine ⟨?_, h.carries, ?_, fun _ => ⟨htransit, rfl, frames, hframes, hrest⟩⟩
  · rw [h.sent, hprocessed]
    rfl
  · exact .header frames .start (fun hne => absurd rfl hne) hframes hrest

/-- The network takes bytes, which leaves the rest as it is. -/
theorem UpFlow.carry (h : UpFlow clientHost t reader up packets rest) (hmade : t.made ≠ [])
    (n : ℕ) : UpFlow clientHost t reader (up.carry n) packets rest :=
  ⟨h.sent, h.carries.carry n, h.awaits, fun hnil => absurd hnil hmade⟩

/-- A step of the server in which it does not read from this connection. -/
theorem UpFlow.server (h : UpFlow clientHost t io.reader up packets rest)
    {io' : ServerSockets.ConnectionSocket} {e : ServerSockets.Event} {j : ℕ}
    {new : List (List UInt8)} (hchange : ServerSockets.SocketChange serverHost e j new io io')
    (hread : ∀ bs padding, e ≠ .readDone j bs padding) :
    UpFlow clientHost t io'.reader up packets rest ∧
      io'.reader.processed = io.reader.processed := by
  obtain ⟨hawaits, hprocessed⟩ := hchange.awaits h.awaits hread
  refine ⟨⟨?_, h.carries, hawaits, ?_⟩, hprocessed⟩
  · rw [h.sent, hprocessed]
  · rw [hprocessed]
    exact h.quiet

/-- The server reads from this connection. -/
theorem UpFlow.read (serverHost : Endian) (h : UpFlow clientHost t io.reader up packets rest)
    (hlegible : Asio.Legible t.client.sent) {bs : List UInt8} {up' : Pipe UInt8}
    (hwanted : io.reader.wanted = some bs.length) (hup : up.read bs = some up') :
    ∃ new packets', (new = [] ∨ ∃ p, new = [p]) ∧ packets = new ++ packets' ∧ t.made ≠ [] ∧
      io.packetsAfter serverHost bs = new ∧
      (io.readerAfter serverHost bs).processed = io.reader.processed ++ new ∧
      UpFlow clientHost t (io.readerAfter serverHost bs) up' packets' (rest.drop bs.length) := by
  obtain ⟨hbs, hcarries⟩ := h.carries.read hup
  rw [h.sent] at hlegible
  obtain ⟨new, packets', hone, hpackets, hafter, hprocessed, hawaits⟩ :=
    ServerSockets.reads_of_readDone serverHost h.awaits hlegible hwanted hbs
  have hmade : t.made ≠ [] := by
    intro hnil
    have htransit := (Pipe.read_eq_some hup).1
    rw [(h.quiet hnil).1, List.prefix_nil] at htransit
    rw [htransit] at hwanted
    exact h.awaits.wanted_ne hwanted
  refine ⟨new, packets', hone, hpackets, hmade, hafter, hprocessed, ?_, hcarries, hawaits,
    fun hnil => absurd hnil hmade⟩
  rw [hprocessed, List.append_assoc, ← hpackets, h.sent]

/-! ## The stream to the client -/

/-- Of what the server has sent on the connection, the client has processed the first part, and has
the rest still to process. -/
structure DownFlow (serverHost : Endian) (t : ClientSocket) (io : ServerSockets.ConnectionSocket)
    (sent : List Packet) (down : Pipe UInt8) (packets : List Packet) (rest : List UInt8) :
    Prop where
  sent : sent = t.reader.processed ++ packets
  carries : Pipe.Carries id io.output (io.posts.filterMap ServerSockets.Post.frame) down rest
  awaits : t.Awaits serverHost packets rest

/-- Nothing has been sent at the start. -/
theorem downFlow_start (serverHost : Endian) : DownFlow serverHost {} {} [] {} [] [] where
  sent := rfl
  carries := Pipe.carries_empty
  awaits := ClientSocket.awaits_start serverHost

/-- A step of the client other than a read leaves what it has still to get. -/
theorem DownFlow.client (h : DownFlow serverHost t io sent down packets rest)
    {e : ClientSocket.Event} (ht : ClientSocket.step clientHost clientId t e = some t')
    (hread : ∀ i bs, e ≠ .readDone i bs)
    (hends : e = .connectDone false ∨ (∃ padding, e = .client .runConnect padding) → t.made = []) :
    DownFlow serverHost t' io sent down packets rest := by
  refine ⟨?_, h.carries, h.awaits.step ht hread hends⟩
  rw [h.sent, ClientSocket.processed_step ht hread]

/-- The connection is forgotten before the client has read anything. -/
theorem DownFlow.restart (h : DownFlow serverHost t io sent down packets rest)
    (hmade : t.made = []) : t.reader.processed = [] ∧ DownFlow serverHost t {} [] {} [] [] := by
  cases h.awaits with
  | fresh frames _ hreads hheader hpayload hprocessed =>
    refine ⟨hprocessed, by rw [hprocessed]; rfl, Pipe.carries_empty, ?_⟩
    exact .fresh [] hmade hreads hheader hpayload hprocessed .nil rfl
  | reading _ hne => exact absurd hmade hne
  | ended hne => exact absurd hmade hne

/-- The client reads. -/
theorem DownFlow.read (clientHost : Endian) (h : DownFlow serverHost t io sent down packets rest)
    (hlegible : Asio.Legible sent) {i : ℕ} {bs : List UInt8} {r : ClientSocket.Read}
    {down' : Pipe UInt8} (hr : t.reads[i]? = some r) (hsize : r.size = bs.length)
    (hdown : down.read bs = some down') :
    t.made ≠ [] ∧ ∃ new packets', (new = [] ∨ ∃ p, new = [p]) ∧ packets = new ++ packets' ∧
      t.packetsAfter clientHost r bs = new ∧
      ({ t with reads := t.reads.eraseIdx i }.onRead clientHost r bs).reader.processed =
        t.reader.processed ++ new ∧
      DownFlow serverHost ({ t with reads := t.reads.eraseIdx i }.onRead clientHost r bs) io sent
        down' packets' (rest.drop bs.length) := by
  obtain ⟨hbs, hcarries⟩ := h.carries.read hdown
  have hsent := h.sent
  rw [hsent] at hlegible
  obtain ⟨hmade, new, packets', hone, hpackets, hafter, hprocessed, hawaits⟩ :=
    h.awaits.onRead clientHost hlegible hr hsize hbs
  refine ⟨hmade, new, packets', hone, hpackets, hafter, hprocessed, ?_, hcarries, hawaits⟩
  rw [hprocessed, List.append_assoc, ← hpackets, hsent]

/-- The server takes a step, and the connection is handed new packets. -/
theorem DownFlow.server (h : DownFlow serverHost t io sent down packets rest)
    {io' : ServerSockets.ConnectionSocket} {e : ServerSockets.Event} {j : ℕ}
    {new : List (List UInt8)} {newPackets : List Packet}
    (hchange : ServerSockets.SocketChange serverHost e j new io io')
    (hnew : Frames serverHost new newPackets) (hdone : ∀ i, e = .writeDone j i → down.left = []) :
    DownFlow serverHost t io' (sent ++ newPackets) (down.write id io.output io'.output)
      (packets ++ newPackets) (rest ++ new.flatten) := by
  refine ⟨?_, hchange.carries h.carries hdone, h.awaits.append hnew⟩
  rw [h.sent, List.append_assoc]

/-! ## The machine and `Link` -/

/-- What holds of both flows. -/
structure Joined (clientHost serverHost : Endian) (w : ByteLink) : Prop where
  aligned : w.server.Aligned
  dispatching : w.server.server.Dispatching
  accepted : ∀ j, w.accepted = some j → ∃ io, w.server.sockets[j]? = some io
  up : ∃ packets rest, UpFlow clientHost w.client w.io.reader w.up packets rest
  down : ∃ packets rest, DownFlow serverHost w.client w.io w.serverPackets w.down packets rest

/-- Both flows at the start. -/
theorem joined_start (clientHost serverHost : Endian) : Joined clientHost serverHost {} where
  aligned := rfl
  dispatching := List.forall_mem_nil _
  accepted := nofun
  up := ⟨[], [], upFlow_start clientHost⟩
  down := ⟨[], [], downFlow_start serverHost⟩

/-- What the machine is as a state of `Link`. -/
structure Represents (w : ByteLink) (l : Link) : Prop where
  server : l.server = w.server.server
  client : l.client = w.client.client
  opened : l.opened = !w.client.made.isEmpty
  accepted : l.accepted = w.accepted
  up : l.up = w.io.reader.processed.length
  down : l.down = w.client.reader.processed.length

variable {l l' : Link}

/-- A step of the client that leaves the connection as it is. -/
theorem withClient_of_same {e : ClientSocket.Event} (h : w.acceptedAfter e = w.accepted) :
    w.withClient e down t = { w with
      client := t
      up := w.up.write ClientSocket.Send.bytes w.client.output t.output
      down := down } := by
  rw [withClient, if_pos h, h]

/-- Only a read takes bytes for the client, and a write completes when the network has taken all of
it. -/
theorem readDown_eq {e : ClientSocket.Event} (hread : ∀ i bs, e ≠ .readDone i bs)
    (h : w.readDown e = some down) :
    down = w.down ∧ ∀ i, e = .writeDone i → w.up.left = [] := by
  cases e with
  | readDone i bs => exact absurd rfl (hread i bs)
  | writeDone i =>
    obtain ⟨hleft, heq⟩ := Option.ite_none_right_eq_some.mp h
    exact ⟨(Option.some.inj heq).symm, fun _ _ => hleft⟩
  | _ => exact ⟨(Option.some.inj h).symm, nofun⟩

/-- The connection is forgotten only before the client is connected. -/
theorem made_of_acceptedAfter {e : ClientSocket.Event} (hends : w.ends e = false)
    (h : w.acceptedAfter e ≠ w.accepted) : w.client.made = [] ∧ w.acceptedAfter e = none := by
  have hempty {l : List ℕ} (h : (!l.isEmpty) = false) : l = [] := by simpa using h
  cases e with
  | client e padding =>
    cases e with
    | runConnect => exact ⟨hempty hends, rfl⟩
    | _ => exact absurd rfl h
  | resolved error =>
    cases error with
    | true => exact ⟨hempty hends, rfl⟩
    | false => exact absurd rfl h
  | connectDone error =>
    cases error with
    | true => exact ⟨hempty hends, rfl⟩
    | false => exact absurd rfl h
  | _ => exact absurd rfl h

/-- Where nothing ends, a client that connects has not been connected before. -/
theorem made_of_ends {e : ClientSocket.Event} (hends : w.ends e = false)
    (h : e = .connectDone false ∨ ∃ padding, e = .client .runConnect padding) :
    w.client.made = [] := by
  rcases h with rfl | ⟨padding, rfl⟩
  · simpa [ends] using hends
  · simpa [ends] using hends

/-- The steps that the client takes for an event other than a read. -/
theorem represents_client (serverId : List UInt8) (hR : w.Represents l)
    {e : ClientSocket.Event} {t : ClientSocket} (hends : w.ends e = false)
    (hread : ∀ i bs, e ≠ .readDone i bs)
    (ht : ClientSocket.step clientHost clientId w.client e = some t) :
    ∃ fs l', run (Link.step serverId clientId) l fs = some l' ∧ l'.server = l.server ∧
      l'.client = t.client ∧ l'.opened = (!t.made.isEmpty) ∧ l'.accepted = w.acceptedAfter e ∧
      l'.up = l.up ∧ l'.down = l.down := by
  -- what the socket does by itself is no step of the link
  have hquiet (hclient : t.client = w.client.client) (hmade : t.made = w.client.made)
      (haccepted : w.acceptedAfter e = w.accepted) : ∃ fs l',
      run (Link.step serverId clientId) l fs = some l' ∧ l'.server = l.server ∧
      l'.client = t.client ∧ l'.opened = (!t.made.isEmpty) ∧ l'.accepted = w.acceptedAfter e ∧
      l'.up = l.up ∧ l'.down = l.down := by
    refine ⟨[], l, rfl, rfl, ?_, ?_, ?_, rfl, rfl⟩
    · rw [hR.client, hclient]
    · rw [hR.opened, hmade]
    · rw [hR.accepted, haccepted]
  -- anything else is the same step of the client there
  have hone (f : TcpClient.Event) (hown : Link.own f = true)
      (hc : TcpClient.step clientId w.client.client f = some t.client)
      (hopened : (l.socket f).1 = !t.made.isEmpty)
      (haccepted : (l.socket f).2 = w.acceptedAfter e) :
      ∃ fs l', run (Link.step serverId clientId) l fs = some l' ∧ l'.server = l.server ∧
      l'.client = t.client ∧ l'.opened = (!t.made.isEmpty) ∧ l'.accepted = w.acceptedAfter e ∧
      l'.up = l.up ∧ l'.down = l.down := by
    have hstep : Link.step serverId clientId l (.client f) =
        some { l with
          client := t.client
          opened := (l.socket f).1
          accepted := (l.socket f).2 } := by
      rw [Link.step, if_pos hown, hR.client, hc]
      rfl
    exact ⟨[.client f], _, (run_singleton _ _).trans hstep, rfl, rfl, hopened, haccepted, rfl, rfl⟩
  cases ClientSocket.transition_of_step ht with
  | @client f padding c hf hne hc =>
    have hsocket : l.socket f = (l.opened, l.accepted) := by
      cases f with
      | runConnect => exact absurd rfl hne.1
      | connectDone error => cases hf
      | _ => rfl
    have haccepted : w.acceptedAfter (.client f padding) = w.accepted := by
      cases f with
      | runConnect => exact absurd rfl hne.1
      | _ => rfl
    refine hone f ?_ hc ?_ ?_
    · cases f with
      | processPacket p => cases hf
      | _ => rfl
    · rw [hsocket]
      exact hR.opened
    · rw [hsocket, haccepted]
      exact hR.accepted
  | runConnect hc =>
    have hmade := made_of_ends hends (Or.inr ⟨_, rfl⟩)
    refine hone .runConnect rfl (hc.trans ?_) ?_ rfl
    · simp [ClientSocket.runConnect, ClientSocket.withClient]
    · simp [ClientSocket.runConnect, ClientSocket.withClient, hmade, Link.socket]
  | stop hc =>
    refine hone .stop rfl (hc.trans ?_) ?_ hR.accepted
    · simp [ClientSocket.withClient]
    · simpa [ClientSocket.withClient, Link.socket] using hR.opened
  | opened _ he =>
    obtain rfl | rfl := he
    · exact hquiet rfl rfl rfl
    · exact hquiet rfl rfl rfl
  | connectFailed _ he hc =>
    have hmade : w.client.made = [] := by
      obtain rfl | rfl := he
      · simpa [ends] using hends
      · simpa [ends] using hends
    refine hone (.connectDone true) rfl hc ?_ ?_
    · simp [Link.socket, hmade]
    · obtain rfl | rfl := he
      · rfl
      · rfl
  | connected hc =>
    have hmade : w.client.made = [] := by simpa [ends] using hends
    refine hone (.connectDone false) rfl hc ?_ hR.accepted
    simp [Link.socket, ClientSocket.connected, ClientSocket.beginRead, hmade]
  | runSend => exact hquiet rfl rfl rfl
  | readDone => exact absurd rfl (hread _ _)
  | readFailed hhandler =>
    refine hone .handleDisconnect rfl ?_ hR.opened hR.accepted
    exact (run_singleton _ _).symm.trans (ClientSocket.run_handleDisconnect hhandler)
  | readAborted => exact hquiet rfl rfl rfl
  | writeDone => exact hquiet rfl rfl rfl
  | writeFailed hhandler =>
    refine hone .handleDisconnect rfl ?_ hR.opened hR.accepted
    exact (run_singleton _ _).symm.trans (ClientSocket.run_handleDisconnect hhandler)
  | writeAborted => exact hquiet rfl rfl rfl

/-- The client takes a step that is not a read. -/
theorem Joined.client (hI : w.Joined clientHost serverHost) (hR : w.Represents l)
    {e : ClientSocket.Event} {t : ClientSocket} (hends : w.ends e = false)
    (hread : ∀ i bs, e ≠ .readDone i bs) (hdown : w.readDown e = some down)
    (ht : ClientSocket.step clientHost clientId w.client e = some t) :
    (w.withClient e down t).Joined clientHost serverHost ∧
      ∃ fs l', run (Link.step serverId clientId) l fs = some l' ∧
        (w.withClient e down t).Represents l' := by
  obtain ⟨rfl, hdone⟩ := readDown_eq hread hdown
  obtain ⟨packets, rest, hup⟩ := hI.up
  obtain ⟨packets', rest', hup'⟩ := hup.client ht hdone
  obtain ⟨downPackets, downRest, hdown'⟩ := hI.down
  have hdown'' := hdown'.client ht hread (made_of_ends hends)
  obtain ⟨fs, l', hrun, hserver, hclient, hopened, haccepted, hlup, hldown⟩ :=
    represents_client serverId hR hends hread ht
  by_cases hsame : w.acceptedAfter e = w.accepted
  · rw [withClient_of_same hsame]
    refine ⟨⟨hI.aligned, hI.dispatching, hI.accepted, ⟨_, _, hup'⟩, ⟨_, _, hdown''⟩⟩, fs, l', hrun,
      hserver.trans hR.server, hclient, hopened, haccepted.trans hsame, hlup.trans hR.up, ?_⟩
    rw [hldown, hR.down]
    exact congrArg List.length (ClientSocket.processed_step ht hread).symm
  · -- the connection is forgotten
    obtain ⟨hmade, hnone⟩ := made_of_acceptedAfter hends hsame
    have hmade' : t.made = [] := by
      rw [ClientSocket.made_step_of_ne ht (fun he => hsame (by rw [he]; rfl)), hmade]
    obtain ⟨hprocessed, hrestart⟩ := hdown''.restart hmade'
    have heq : w.withClient e w.down t = { w with
        client := t
        accepted := none
        up := w.up.write ClientSocket.Send.bytes w.client.output t.output
        down := {} } := by
      rw [withClient, if_neg hsame, hnone]
    rw [heq]
    refine ⟨⟨hI.aligned, hI.dispatching, nofun, ⟨_, _, hup'.restart hmade'⟩, ⟨_, _, hrestart⟩⟩, fs,
      l', hrun, hserver.trans hR.server, hclient, hopened, haccepted.trans hnone, ?_, ?_⟩
    · rw [hlup, hR.up, (hup.quiet hmade).2.1]
      rfl
    · rw [hldown, hR.down, ← ClientSocket.processed_step ht hread]

/-- The next packet is delivered to the client. -/
theorem step_toClient (serverId clientId : List UInt8) {j : ℕ} {p : Packet}
    (hopened : l.opened = true) (haccepted : l.accepted = some j)
    (hp : ((ServerSockets.sentOf l.server j).map Outgoing.packet)[l.down]? = some p)
    (hhandler : l.client.handler = none) :
    ∃ o, Link.step serverId clientId l .toClient = some { l with
      client := l.client.processPacket p
      down := l.down + 1
      delivered := l.delivered ++ [(j, o)] } := by
  rw [List.getElem?_map] at hp
  obtain ⟨o, ho, rfl⟩ := Option.map_eq_some_iff.mp hp
  have hnext : l.nextDown = some (j, o) := by
    rw [Link.nextDown, if_pos hopened, haccepted, Option.bind_some]
    cases hc : l.server.connections[j]? with
    | none => simp [ServerSockets.sentOf, hc] at ho
    | some c =>
      simp only [ServerSockets.sentOf, hc, Option.map_some, Option.getD_some] at ho
      rw [Option.bind_some, ho]
      rfl
  have hstep : TcpClient.step clientId l.client (.processPacket o.packet) =
      some (l.client.processPacket o.packet) := by
    simp [TcpClient.step, TcpClient.onStrand, hhandler]
  refine ⟨o, ?_⟩
  rw [Link.step, hnext, Option.bind_some]
  simp only [hstep, Option.map_some]

/-- The client reads. -/
theorem Joined.clientRead (hI : w.Joined clientHost serverHost) (hR : w.Represents l)
    (hlegible : w.Legible) {i : ℕ} {bs : List UInt8} {t : ClientSocket}
    (hdown : w.down.read bs = some down)
    (ht : ClientSocket.step clientHost clientId w.client (.readDone i bs) = some t) :
    (w.withClient (.readDone i bs) down t).Joined clientHost serverHost ∧
      ∃ fs l', run (Link.step serverId clientId) l fs = some l' ∧
        (w.withClient (.readDone i bs) down t).Represents l' := by
  obtain ⟨upPackets, upRest, hup⟩ := hI.up
  obtain ⟨upPackets', upRest', hup'⟩ := hup.client ht nofun
  obtain ⟨packets, rest, hflow⟩ := hI.down
  have hmade : t.made = w.client.made := ClientSocket.made_step_of_ne ht nofun
  obtain ⟨hhandler, r, hr, hsize, heq⟩ := ClientSocket.readDone_eq_some ht
  obtain ⟨hne, new, packets', hone, hpackets, hafter, hprocessed, hflow'⟩ :=
    hflow.read clientHost hlegible.2 hr hsize hdown
  have hclient : t.client = new.foldl TcpClient.processPacket w.client.client := by
    rw [heq, ClientSocket.onRead_client, ← hafter]
    rfl
  rw [← heq] at hprocessed hflow'
  rw [withClient_of_same rfl]
  refine ⟨⟨hI.aligned, hI.dispatching, hI.accepted, ⟨_, _, hup'⟩, ⟨_, _, hflow'⟩⟩, ?_⟩
  -- the read completes a packet, or none: then nothing happens on the link
  obtain rfl | ⟨p, rfl⟩ := hone
  · rw [List.append_nil] at hprocessed
    refine ⟨[], l, rfl, hR.server, hR.client.trans hclient.symm, ?_, hR.accepted, hR.up, ?_⟩
    · rw [hR.opened, hmade]
    · rw [hR.down, hprocessed]
  · have hsent : w.serverPackets = w.client.reader.processed ++ p :: packets' := by
      rw [hflow.sent, hpackets]
      rfl
    obtain ⟨j, hj⟩ : ∃ j, w.accepted = some j := by
      cases hnone : w.accepted with
      | none => simp [serverPackets, hnone] at hsent
      | some j => exact ⟨j, rfl⟩
    have hp : ((ServerSockets.sentOf l.server j).map Outgoing.packet)[l.down]? = some p := by
      rw [serverPackets, hj, Option.map_some, Option.getD_some, ServerSockets.packetsOf] at hsent
      rw [hR.server, hsent, hR.down, List.getElem?_append_right (Nat.le_refl _), Nat.sub_self]
      rfl
    have hopened : l.opened = true := by simpa [hR.opened] using hne
    obtain ⟨o, hstep⟩ := step_toClient serverId clientId hopened
      (hR.accepted.trans hj) hp (hR.client ▸ hhandler)
    refine ⟨[.toClient], _, (run_singleton _ _).trans hstep, hR.server, ?_, ?_, hR.accepted, hR.up,
      ?_⟩
    · rw [hclient, hR.client]
      rfl
    · rw [hmade, ← hR.opened]
    · rw [hprocessed, List.length_append, ← hR.down]
      rfl

/-- The server takes steps that have nothing to do with packets of the client. -/
theorem run_server (clientId : List UInt8) {fs : List TcpServer.Event} {s : TcpServer}
    (hforeign : ∀ f ∈ fs, l.foreign f = true)
    (hs : run (TcpServer.step serverId) l.server fs = some s) :
    run (Link.step serverId clientId) l (fs.map .server) = some { l with server := s } := by
  induction fs generalizing l with
  | nil =>
    obtain rfl : l.server = s := by simpa using hs
    rfl
  | cons f fs ih =>
    obtain ⟨u, hu, hrest⟩ := run_cons_eq_some.mp hs
    obtain ⟨hf, hfs⟩ := List.forall_mem_cons.mp hforeign
    have hstep : Link.step serverId clientId l (.server f) = some { l with server := u } := by
      rw [Link.step, if_pos hf, hu]
      rfl
    rw [List.map_cons, run_cons, hstep, Option.bind_some]
    exact ih (l := { l with server := u }) hfs hrest

/-- The next packet is delivered to the server. -/
theorem step_toServer (clientId : List UInt8) {j : ℕ} {p : Packet} {s : TcpServer}
    (hopened : l.opened = true) (haccepted : l.accepted = some j)
    (hp : l.client.sent[l.up]? = some p)
    (hs : TcpServer.step serverId l.server (.processPacket j p) = some s) :
    Link.step serverId clientId l .toServer = some { l with server := s, up := l.up + 1 } := by
  have hnext : l.nextUp = some (j, p) := by
    rw [Link.nextUp, if_pos hopened, haccepted, Option.bind_some, hp]
    rfl
  rw [Link.step, hnext, Option.bind_some]
  simp only [hs, Option.map_some]

/-- The socket of the accepted connection. -/
theorem io_eq {j : ℕ} {io : ServerSockets.ConnectionSocket} (hj : w.accepted = some j)
    (hio : w.server.sockets[j]? = some io) : w.io = io := by
  rw [ByteLink.io, hj, Option.bind_some, hio, Option.getD_some]

/-- The packets of the accepted connection. -/
theorem serverPackets_eq {j : ℕ} (hj : w.accepted = some j) :
    w.serverPackets = w.server.packetsOf j := by
  rw [serverPackets, hj, Option.map_some, Option.getD_some]

/-- What the connection is handed in a step of the server. -/
theorem downFlow_server (hI : w.Joined clientHost serverHost) {e : ServerSockets.Event}
    {s : ServerSockets} (hs : ServerSockets.step serverHost serverId w.server e = some s) {j : ℕ}
    (hj : w.accepted = some j) {io' : ServerSockets.ConnectionSocket}
    (hio' : s.sockets[j]? = some io') (hdone : ∀ i, e = .writeDone j i → w.down.left = []) :
    ∃ packets rest, DownFlow serverHost w.client io' (s.packetsOf j)
      (w.down.write id w.io.output io'.output) packets rest := by
  obtain ⟨io, hio⟩ := hI.accepted j hj
  obtain ⟨io'', padding, hio'', hchange⟩ := ServerSockets.socketChange_of_step hs hio
  obtain rfl := Option.some.inj (hio''.symm.trans hio')
  obtain ⟨packets, rest, hflow⟩ := hI.down
  obtain ⟨-, hle⟩ := TcpServer.sentOf_run hI.dispatching (ServerSockets.server_step hs)
  have hnew := hflow.server (io_eq hj hio ▸ hchange)
    (ServerSockets.frames_newFrames padding w.server.server s.server j) hdone
  have hsent : w.serverPackets ++ (((ServerSockets.sentOf s.server j).map Outgoing.packet).drop
      ((ServerSockets.sentOf w.server.server j).map Outgoing.packet).length) = s.packetsOf j := by
    rw [serverPackets_eq hj]
    obtain ⟨new, hnew⟩ := (hle j).map Outgoing.packet
    rw [ServerSockets.packetsOf, ServerSockets.packetsOf, ← hnew, List.drop_left]
  rw [hsent] at hnew
  exact ⟨_, _, hnew⟩

/-- The event has the server read from the connection of the client. -/
def ReadsUp (w : ByteLink) (e : ServerSockets.Event) : Prop :=
  ∃ j bs padding, w.accepted = some j ∧ e = .readDone j bs padding

/-- Only a read on the connection takes bytes for the server. -/
theorem readUp_eq {e : ServerSockets.Event} (hread : ¬ w.ReadsUp e) (h : w.readUp e = some up) :
    up = w.up := by
  cases e with
  | readDone j bs padding =>
    rw [readUp, if_neg fun hj => hread ⟨j, bs, padding, hj, rfl⟩] at h
    exact (Option.some.inj h).symm
  | writeDone j i => exact (Option.some.inj (Option.ite_none_left_eq_some.mp h).2).symm
  | _ => exact (Option.some.inj h).symm

/-- A write on the connection completes when the network has taken all of it. -/
theorem left_of_readUp {e : ServerSockets.Event} (h : w.readUp e = some up) {j : ℕ}
    (hj : w.accepted = some j) : ∀ i, e = .writeDone j i → w.down.left = [] := by
  rintro i rfl
  have hguard := (Option.ite_none_left_eq_some.mp h).1
  by_contra hne
  exact hguard ⟨hj, hne⟩

/-- The server takes a step in which it does not read from the connection of the client. -/
theorem foreign_of_not_readsUp {e : ServerSockets.Event} {s : ServerSockets}
    (hR : w.Represents l) (hread : ¬ w.ReadsUp e)
    (hs : ServerSockets.step serverHost serverId w.server e = some s) :
    ∀ f ∈ w.server.serverEvents serverHost e, l.foreign f = true := by
  -- the link lets everything pass but the packets of the accepted connection
  have hhandler {f : TcpServer.Event} (hf : ∀ i p, f ≠ .processPacket i p) :
      l.foreign f = true := by
    cases f with
    | processPacket i p => exact absurd rfl (hf i p)
    | _ => rfl
  intro f hf
  cases ServerSockets.transition_of_step hs with
  | server he =>
    obtain rfl := List.mem_singleton.mp hf
    refine hhandler fun i p heq => ?_
    rw [heq] at he
    cases he
  | @readDone i bs padding _ io _ _ hio =>
    simp only [ServerSockets.serverEvents, hio, Option.map_some, Option.getD_some] at hf
    obtain ⟨p, -, rfl⟩ := List.mem_map.mp hf
    refine decide_eq_true fun hj => hread ⟨i, bs, padding, ?_, rfl⟩
    rw [← hR.accepted, hj]
  | readFailed hc =>
    simp only [ServerSockets.serverEvents, hc] at hf
    obtain rfl := List.mem_singleton.mp hf
    exact hhandler (by simp)
  | writeFailed hc =>
    simp only [ServerSockets.serverEvents, hc] at hf
    obtain rfl := List.mem_singleton.mp hf
    exact hhandler (by simp)
  | closeConnection | runPost | readAborted | writeDone | writeAborted => cases hf

/-- A step of the server other than a read of the connection keeps both flows, and is one of
`Link`. -/
theorem Joined.server (hI : w.Joined clientHost serverHost) (hR : w.Represents l)
    {e : ServerSockets.Event} {s : ServerSockets} (hread : ¬ w.ReadsUp e)
    (hup : w.readUp e = some up)
    (hs : ServerSockets.step serverHost serverId w.server e = some s) :
    (w.withServer up s).Joined clientHost serverHost ∧
      ∃ fs l', run (Link.step serverId clientId) l fs = some l' ∧
        (w.withServer up s).Represents l' := by
  obtain rfl := readUp_eq hread hup
  have haligned := hI.aligned.step hs
  have hdispatching := (TcpServer.sentOf_run hI.dispatching (ServerSockets.server_step hs)).1
  have hrun := run_server clientId (foreign_of_not_readsUp hR hread hs)
    (hR.server ▸ ServerSockets.server_step hs)
  obtain ⟨packets, rest, hflow⟩ := hI.up
  -- the link does the same steps of the server, whatever becomes of the bytes
  have hrepresents (hprocessed : ({ w with server := s } : ByteLink).io.reader.processed =
      w.io.reader.processed) : ∃ fs l', run (Link.step serverId clientId) l fs = some l' ∧
        (w.withServer w.up s).Represents l' := by
    refine ⟨_, _, hrun, rfl, hR.client, hR.opened, hR.accepted, ?_, hR.down⟩
    exact hR.up.trans (congrArg List.length hprocessed.symm)
  -- before the connection is accepted no byte of it can be touched
  cases hj : w.accepted with
  | none =>
    have hio : ({ w with server := s } : ByteLink).io = w.io := by simp [ByteLink.io, hj]
    have hpackets : ({ w with server := s } : ByteLink).serverPackets = w.serverPackets := by
      simp [serverPackets, hj]
    obtain ⟨downPackets, downRest, hdown⟩ := hI.down
    refine ⟨⟨haligned, hdispatching, fun j hj' => ?_, ⟨packets, rest, ?_⟩,
      ⟨downPackets, downRest, ?_⟩⟩, hrepresents (by rw [hio])⟩
    · rw [withServer, hj] at hj'
      cases hj'
    · show UpFlow _ _ ({ w with server := s } : ByteLink).io.reader _ _ _
      rwa [hio]
    · show DownFlow _ _ ({ w with server := s } : ByteLink).io
        ({ w with server := s } : ByteLink).serverPackets
        (w.down.write id w.io.output ({ w with server := s } : ByteLink).io.output) _ _
      rwa [hio, hpackets, Pipe.write_of_begun rfl]
  | some j =>
    obtain ⟨io, hio⟩ := hI.accepted j hj
    obtain ⟨io', padding, hio', hchange⟩ := ServerSockets.socketChange_of_step hs hio
    rw [← io_eq hj hio] at hchange
    have heq : ({ w with server := s } : ByteLink).io = io' := io_eq hj hio'
    have hpackets : ({ w with server := s } : ByteLink).serverPackets = s.packetsOf j :=
      serverPackets_eq hj
    obtain ⟨hflow', hprocessed⟩ := hflow.server hchange fun bs padding he =>
      hread ⟨j, bs, padding, hj, he⟩
    refine ⟨⟨haligned, hdispatching, fun j' hj' => ?_, ⟨packets, rest, ?_⟩, ?_⟩,
      hrepresents (by rw [heq, hprocessed])⟩
    · obtain rfl := Option.some.inj (hj.symm.trans hj')
      exact ⟨io', hio'⟩
    · show UpFlow _ _ ({ w with server := s } : ByteLink).io.reader _ _ _
      rwa [heq]
    · show ∃ packets rest, DownFlow _ _ ({ w with server := s } : ByteLink).io
        ({ w with server := s } : ByteLink).serverPackets
        (w.down.write id w.io.output ({ w with server := s } : ByteLink).io.output) packets rest
      rw [heq, hpackets]
      exact downFlow_server hI hs hj hio' (left_of_readUp hup hj)

/-- The server reads from the connection of the client. -/
theorem Joined.serverRead (hI : w.Joined clientHost serverHost) (hR : w.Represents l)
    (hlegible : w.Legible) {j : ℕ} {bs : List UInt8} {padding : Padding} {s : ServerSockets}
    (hj : w.accepted = some j) (hup : w.up.read bs = some up)
    (hs : ServerSockets.step serverHost serverId w.server (.readDone j bs padding) = some s) :
    (w.withServer up s).Joined clientHost serverHost ∧
      ∃ fs l', run (Link.step serverId clientId) l fs = some l' ∧
        (w.withServer up s).Represents l' := by
  obtain ⟨packets, rest, hflow⟩ := hI.up
  obtain ⟨io, hio⟩ := hI.accepted j hj
  obtain ⟨io', -, hio', -⟩ := ServerSockets.socketChange_of_step hs hio
  obtain ⟨hwanted, hreader⟩ := ServerSockets.readDone_eq_some hs hio hio'
  have heq : ({ w with server := s } : ByteLink).io = io' := io_eq hj hio'
  have hpackets : ({ w with server := s } : ByteLink).serverPackets = s.packetsOf j :=
    serverPackets_eq hj
  have hserver := ServerSockets.server_step hs
  rw [io_eq hj hio] at hflow
  obtain ⟨new, packets', hone, hnew, hmade, hafter, hprocessed, hflow'⟩ :=
    hflow.read serverHost hlegible.1 hwanted hup
  refine ⟨⟨hI.aligned.step hs, ?_, fun j' hj' => ?_, ⟨packets', rest.drop bs.length, ?_⟩, ?_⟩, ?_⟩
  · exact (TcpServer.sentOf_run hI.dispatching hserver).1
  · obtain rfl := Option.some.inj (hj.symm.trans hj')
    exact ⟨io', hio'⟩
  · show UpFlow _ _ ({ w with server := s } : ByteLink).io.reader _ _ _
    rwa [heq, hreader]
  · show ∃ packets rest, DownFlow _ _ ({ w with server := s } : ByteLink).io
      ({ w with server := s } : ByteLink).serverPackets
      (w.down.write id w.io.output ({ w with server := s } : ByteLink).io.output) packets rest
    rw [heq, hpackets]
    exact downFlow_server hI hs hj hio' nofun
  · rw [ServerSockets.serverEvents, hio, Option.map_some, Option.getD_some, hafter, ← hR.server]
      at hserver
    have hprocessed' : (w.withServer up s).io.reader.processed = w.io.reader.processed ++ new := by
      rw [io_eq hj hio, ← hprocessed, ← hreader, ← heq]
      rfl
    -- the read completes a packet, or none: then nothing happens on the link
    obtain rfl | ⟨p, rfl⟩ := hone
    · have hsame : l.server = s.server := by simpa using hserver
      refine ⟨[], l, rfl, hsame, hR.client, hR.opened, hR.accepted, ?_, hR.down⟩
      rw [hprocessed', List.append_nil, hR.up]
    · have hp : l.client.sent[l.up]? = some p := by
        rw [hR.client, hflow.sent, hR.up, io_eq hj hio, hnew,
          List.getElem?_append_right (Nat.le_refl _), Nat.sub_self]
        rfl
      have hopened : l.opened = true := by simpa [hR.opened] using hmade
      have hstep := step_toServer clientId hopened (hR.accepted.trans hj) hp
        ((run_singleton _ _).symm.trans hserver)
      refine ⟨[.toServer], _, (run_singleton _ _).trans hstep, rfl, hR.client, hR.opened,
        hR.accepted, ?_, hR.down⟩
      rw [hprocessed', List.length_append, hR.up]
      rfl

/-- The connection of the client is accepted. -/
theorem Joined.accept (hI : w.Joined clientHost serverHost) (hR : w.Represents l)
    {padding : Padding} {s : ServerSockets} (hnone : w.accepted = none)
    (hguard : (!w.client.made.isEmpty || decide (0 < w.client.client.connecting)) = true)
    (hs : ServerSockets.step serverHost serverId w.server (.server (.accept false) padding) =
      some s) :
    ({ w with
      server := s
      accepted := some w.server.server.connections.length } :
        ByteLink).Joined clientHost serverHost ∧
      ∃ fs l', run (Link.step serverId clientId) l fs = some l' ∧
        ({ w with
          server := s
          accepted := some w.server.server.connections.length } : ByteLink).Represents l' := by
  have hio : w.io = {} := by rw [ByteLink.io, hnone]; rfl
  have hsent : w.serverPackets = [] := by rw [serverPackets, hnone]; rfl
  obtain ⟨packets, rest, hup⟩ := hI.up
  obtain ⟨downPackets, downRest, hdown⟩ := hI.down
  have hserver : TcpServer.step serverId w.server.server (.accept false) = some s.server :=
    (run_singleton _ _).symm.trans (ServerSockets.server_step hs)
  have haligned := hI.aligned.step hs
  generalize hj : w.server.server.connections.length = j
  have hbefore : w.server.sockets[j]? = none := by
    rw [List.getElem?_eq_none_iff, hI.aligned, hj]
  -- the new connection is the last one
  obtain ⟨io, hio'⟩ : ∃ io, s.sockets[j]? = some io := by
    have hlength : s.server.connections.length = j + 1 := by
      rw [(TcpServer.accept_connections hserver).1, hj]
    exact ⟨_, List.getElem?_eq_getElem (by rw [haligned, hlength]; omega)⟩
  obtain ⟨rfl, -⟩ := ServerSockets.new_of_step hI.aligned hs hbefore hio'
  have hnew : s.packetsOf j = [] := by
    rw [ServerSockets.packetsOf, TcpServer.sentOf_new hI.dispatching hserver]
    · rfl
    · rw [List.getElem?_eq_none_iff, hj]
  have heq : ({ w with server := s, accepted := some j } : ByteLink).io = {} := io_eq rfl hio'
  have hpackets : ({ w with server := s, accepted := some j } : ByteLink).serverPackets = [] :=
    (serverPackets_eq rfl).trans hnew
  refine ⟨⟨haligned, ?_, ?_, ⟨packets, rest, ?_⟩, ⟨downPackets, downRest, ?_⟩⟩, [.accept],
    { l with server := s.server, accepted := some j, down := 0 }, ?_, rfl, hR.client, hR.opened,
    rfl, ?_, ?_⟩
  · exact (TcpServer.sentOf_run hI.dispatching (ServerSockets.server_step hs)).1
  · rintro j' hj'
    obtain rfl := Option.some.inj hj'
    exact ⟨_, hio'⟩
  · rwa [heq, ← hio]
  · rwa [heq, hpackets, ← hio, ← hsent]
  · have hopened :
        (l.accepted.isNone && (l.opened || decide (0 < l.client.connecting))) = true := by
      rw [hR.accepted, hnone, hR.opened, hR.client]
      exact hguard
    rw [run_singleton, Link.step, if_pos hopened, hR.server, hserver, Option.map_some, hj]
  · rw [heq, hR.up, hio]
  · have hnil := hdown.sent
    rw [hsent] at hnil
    rw [(List.append_eq_nil_iff.mp hnil.symm).1]
    rfl

/-- One step of the machine is some steps of `Link`. -/
theorem Joined.step (hI : w.Joined clientHost serverHost) (hR : w.Represents l)
    (hlegible : w.Legible) {e : Event}
    (h : ByteLink.step clientHost serverHost serverId clientId w e = some w') :
    w'.Joined clientHost serverHost ∧
      ∃ fs l', run (Link.step serverId clientId) l fs = some l' ∧ w'.Represents l' := by
  cases e with
  | client e =>
    simp only [ByteLink.step] at h
    split at h
    · cases h
    · rename_i hends
      obtain ⟨down, hdown, h⟩ := Option.bind_eq_some_iff.mp h
      obtain ⟨t, ht, rfl⟩ := Option.map_eq_some_iff.mp h
      by_cases hread : ∃ i bs, e = .readDone i bs
      · obtain ⟨i, bs, rfl⟩ := hread
        exact hI.clientRead hR hlegible hdown ht
      · exact hI.client hR (by simpa using hends) (fun i bs he => hread ⟨i, bs, he⟩) hdown ht
  | server e =>
    obtain ⟨up, hup, h⟩ := Option.bind_eq_some_iff.mp h
    obtain ⟨s, hs, rfl⟩ := Option.map_eq_some_iff.mp h
    by_cases hread : w.ReadsUp e
    · obtain ⟨j, bs, padding, hj, rfl⟩ := hread
      rw [readUp, if_pos hj] at hup
      exact hI.serverRead hR hlegible hj hup hs
    · exact hI.server hR hread hup hs
  | accept padding =>
    obtain ⟨hguard, h⟩ := Option.ite_none_right_eq_some.mp h
    obtain ⟨s, hs, rfl⟩ := Option.map_eq_some_iff.mp h
    rw [Bool.and_eq_true] at hguard
    exact hI.accept hR (Option.isNone_iff_eq_none.mp hguard.1) hguard.2 hs
  -- bytes on their way are nothing that the link knows of
  | carryUp n =>
    obtain ⟨⟨hmade, -⟩, h⟩ := Option.ite_none_right_eq_some.mp h
    obtain rfl := Option.some.inj h
    obtain ⟨packets, rest, hup⟩ := hI.up
    exact ⟨⟨hI.aligned, hI.dispatching, hI.accepted, ⟨packets, rest, hup.carry hmade n⟩, hI.down⟩,
      [], l, rfl, hR.server, hR.client, hR.opened, hR.accepted, hR.up, hR.down⟩
  | carryDown n =>
    obtain ⟨-, h⟩ := Option.ite_none_right_eq_some.mp h
    obtain rfl := Option.some.inj h
    obtain ⟨packets, rest, hdown⟩ := hI.down
    refine ⟨⟨hI.aligned, hI.dispatching, hI.accepted, hI.up, ⟨packets, rest, ?_⟩⟩, [], l, rfl,
      hR.server, hR.client, hR.opened, hR.accepted, hR.up, hR.down⟩
    exact ⟨hdown.sent, hdown.carries.carry n, hdown.awaits⟩

/-- In every run both flows go on, and a run of `Link` does the same. -/
theorem joined_run {es : List Event}
    (hlegible : EveryStep (step clientHost serverHost serverId clientId) {} es
      fun w _ => w.Legible)
    (hrun : run (step clientHost serverHost serverId clientId) {} es = some w) :
    w.Joined clientHost serverHost ∧
      ∃ fs l, run (Link.step serverId clientId) {} fs = some l ∧ w.Represents l := by
  refine (hlegible.everyState (P := fun w => w.Joined clientHost serverHost ∧
    ∃ fs l, run (Link.step serverId clientId) {} fs = some l ∧ w.Represents l) ?_ ?_).last hrun
  · exact ⟨joined_start clientHost serverHost, [], {}, rfl, rfl, rfl, rfl, rfl, rfl, rfl⟩
  · rintro w e w' hw ⟨hI, fs, l, hl, hR⟩ hstep
    obtain ⟨hI', gs, l', hl', hR'⟩ := hI.step hR hw hstep
    exact ⟨hI', fs ++ gs, l', run_append_eq_some.mpr ⟨l, hl, hl'⟩, hR'⟩

/-- **Whole packets.** As long as the packets that are sent are readable, what the client and the
server do over a connection that carries bytes they can do over one that delivers packets in order
and as wholes. -/
theorem refines (clientHost serverHost : Endian) (serverId clientId : List UInt8) (es : List Event)
    (w : ByteLink)
    (hlegible : EveryStep (step clientHost serverHost serverId clientId) {} es
      fun w _ => w.Legible)
    (hrun : run (step clientHost serverHost serverId clientId) {} es = some w) :
    ∃ fs l, run (Link.step serverId clientId) {} fs = some l ∧
      l.server = w.server.server ∧ l.client = w.client.client := by
  obtain ⟨-, fs, l, hl, hR⟩ := joined_run hlegible hrun
  exact ⟨fs, l, hl, hR.server, hR.client⟩

/-- A client connects and sends `BIND`, which the network takes in two pieces. The server
answers. -/
def bindAnswered : List Event :=
  [.server (.server .start (0, 0)), .client (.client .start (0, 0)),
    .client (.client .runConnect (0, 0)), .client (.resolved false), .client (.connectDone false),
    .accept (0, 0), .server (.server (.setCallbacks true) (0, 0)),
    .client (.client .drawBind (0, 0)), .client (.client .sendBind (7, 7)), .client .runSend,
    .carryUp 5, .carryUp 8, .client (.writeDone 0),
    .server (.readDone 0 [0, 0, 0, 13, 1, 0, 7, 7, 0, 0, 0, 1] (0, 0)),
    .server (.readDone 0 [0x43] (0, 0)), .server (.server (.handleIncomingPacket 0) (9, 9)),
    .server (.runPost 0), .carryDown 100, .server (.writeDone 0 0),
    .client (.readDone 0 [0, 0, 0, 13, 0x81, 0, 9, 9, 0, 0, 0, 1]), .client (.readDone 0 [0x53])]

/-- The run of `Link` for `bindAnswered`. -/
theorem refines_bindAnswered :
    ∃ fs l, run (Link.step [0x53] [0x43]) {} fs = some l ∧
      l.client.received = [createPacket ⟨idBindResp, 0, 1, [0x53]⟩] := by
  obtain ⟨fs, l, hl, -, hclient⟩ :=
    refines .little .big [0x53] [0x43] bindAnswered _ (by decide) rfl
  refine ⟨fs, l, hl, ?_⟩
  rw [hclient]
  rfl

end ByteLink

end TurboNet.Asio
