import TurboNet.Common.WriteQueue
import TurboNet.Asio.PacketReader
import TurboNet.Asio.Dispatch

/-!
# The sockets of the asio server

Reference: `claude/asio_server.cpp`, `Connection::start`, `sendPacket`, `close`, `readHeader`,
`readPayload`, `doWrite`, `TcpServer::closeConnection`, `TcpServer::registerConnection`,
`TcpServer::unregisterConnection`.

`ServerSockets.step` is the server of `TcpServer.step` together with what its connections do to
their sockets. A connection works on its strand. Both `sendPacket` and `close` post a handler there,
and posted handlers run in the order in which they were posted; the handlers of reads and writes
come when they come. A read whose packet is being handled by the server goes on when that is over,
and counts as outstanding all the time. A socket that is closed aborts its operations, but an
operation that was over before still reports that.

`closedCallback_` is taken to be set. `server_run` says that the server in a run of this machine
takes steps of `TcpServer.step`.
-/

namespace TurboNet.Asio

open Common

/-! ## The registry of the server

What `connections_` says does not depend on the sockets. -/

namespace TcpServer

variable {serverId : List UInt8} {t t' : TcpServer} {e : TcpServer.Event}

/-- The ids of the connections that have been accepted, and whether they are in `connections_`. -/
def registry (t : TcpServer) : List (Int32 × Bool) :=
  t.connections.map fun c => (c.id, c.registered)

/-- The registry when the connections with this id have been taken out. -/
def without (registry : List (Int32 × Bool)) (id : Int32) : List (Int32 × Bool) :=
  registry.map fun x => if x.1 = id then (x.1, false) else x

/-- The registry after an event that takes no connection out. A new connection takes the place of
one that still has its id. -/
def registryAfter (t : TcpServer) : TcpServer.Event → List (Int32 × Bool)
  | .accept false => without t.registry t.nextConnectionId ++ [(t.nextConnectionId, true)]
  | _ => t.registry

/-- No connection leaves the registry altogether. -/
theorem length_without (registry : List (Int32 × Bool)) (id : Int32) :
    (without registry id).length = registry.length :=
  List.length_map _

/-- The ids stay. -/
theorem map_fst_without (registry : List (Int32 × Bool)) (id : Int32) :
    (without registry id).map Prod.fst = registry.map Prod.fst := by
  rw [without, List.map_map]
  refine List.map_congr_left fun x _ => ?_
  rw [Function.comp_apply]
  split <;> rfl

/-- A connection that has not been taken out was there before, and has another id. -/
theorem getElem?_without {registry : List (Int32 × Bool)} {id id' : Int32} {j : ℕ}
    (h : (without registry id')[j]? = some (id, true)) :
    registry[j]? = some (id, true) ∧ id ≠ id' := by
  rw [without, List.getElem?_map] at h
  obtain ⟨x, hx, heq⟩ := Option.map_eq_some_iff.mp h
  split at heq
  · exact absurd (Prod.mk.inj heq).2 (by simp)
  · rename_i hne
    subst heq
    exact ⟨hx, hne⟩

/-- Where no connection has the id, none is taken out. -/
theorem without_of_fresh {registry : List (Int32 × Bool)} {id : Int32}
    (h : id ∉ registry.map Prod.fst) : without registry id = registry := by
  refine (List.map_congr_left fun x hx => ?_).trans (List.map_id _)
  rw [if_neg, id_eq]
  rintro rfl
  exact h (List.mem_map_of_mem hx)

/-- All connections with an id leave `connections_`. -/
theorem registry_unregister (t : TcpServer) (id : Int32) :
    (t.updateWhere (·.id = id) fun c => { c with registered := false }).registry =
      without t.registry id := by
  rw [without, registry, registry, updateWhere, List.map_map, List.map_map]
  refine List.map_congr_left fun c _ => ?_
  simp only [Function.comp_apply, decide_eq_true_eq]
  split <;> rfl

/-- What leaves ids alone, and who is registered, leaves the registry alone. -/
theorem registry_updateWhere (t : TcpServer) (p : Connection → Bool) {f : Connection → Connection}
    (hf : ∀ c, ((f c).id, (f c).registered) = (c.id, c.registered)) :
    (t.updateWhere p f).registry = t.registry := by
  rw [registry, registry, updateWhere, List.map_map]
  refine List.map_congr_left fun c _ => ?_
  rw [Function.comp_apply]
  split
  · exact hf c
  · rfl

/-- The same for one connection. -/
theorem registry_updateConnection (t : TcpServer) (j : ℕ) {f : Connection → Connection}
    (hf : ∀ c, ((f c).id, (f c).registered) = (c.id, c.registered)) :
    (t.updateConnection j f).registry = t.registry := by
  rw [registry, registry, updateConnection]
  refine List.ext_getElem? fun i => ?_
  rw [List.getElem?_map, List.getElem?_map, List.getElem?_modify]
  cases t.connections[i]? with
  | none => rfl
  | some c =>
    simp only [Option.map_eq_map, Option.map_some, Option.some.injEq]
    split
    · exact hf c
    · rfl

/-- A callback leaves the registry alone. -/
theorem registry_callBack (t : TcpServer) (callback : PacketCallback) (d : Dispatch) :
    (t.callBack serverId callback d).registry = t.registry := by
  have hanswer (c : Connection) :
      ((c.answer serverId d.index d.packet).id, (c.answer serverId d.index d.packet).registered) =
        (c.id, c.registered) := by
    rw [Connection.answer]
    split
    · rfl
    · split <;> rfl
  cases callback with
  | unset => exact registry_updateConnection _ _ hanswer
  | user => exact registry_updateConnection _ _ hanswer
  | redirect => rfl

/-- To take a request out leaves the registry alone. -/
theorem takePending_registry (t : TcpServer) (d : Dispatch) :
    (t.takePending d).registry = t.registry := by
  rcases t.takePending_cases d with ⟨r, -, -, h⟩ | ⟨-, h⟩
  · rw [h]
    rfl
  · rw [h]

/-- What a step does to the registry, one that takes no connection out. -/
theorem registry_step (h : step serverId t e = some t')
    (he : ∀ id, e ≠ .unregisterConnection id) : t'.registry = t.registryAfter e := by
  cases stepped_of_step h with
  | accept error =>
    cases error with
    | true => rfl
    | false =>
      refine List.map_append.trans (congrArg (· ++ _) ?_)
      -- a connection under the same id is overwritten
      exact registry_unregister t t.nextConnectionId
  | unregisterConnection id => exact absurd rfl (he id)
  | processPacket =>
    rw [TcpServer.processPacket, registry_callBack]
    exact registry_updateConnection _ _ fun _ => rfl
  | handleIncomingPacket =>
    rw [TcpServer.handleIncomingPacket, registry_callBack, takePending_registry]
    rfl
  | sendDrawn =>
    rw [TcpServer.sendDrawn]
    split
    · exact registry_updateWhere _ _ fun _ => rfl
    · rfl
  | ensureTimer =>
    simp only [TcpServer.ensureTimer]
    split <;> rfl
  | sendPacketTo | sendTo | broadcastPacket | broadcast =>
    exact registry_updateWhere _ _ fun _ => rfl
  | finishSweep j hasPending =>
    cases hasPending with
    | true => rfl
    | false => rfl
  | _ => rfl

/-- Packets that come in leave the registry alone. -/
theorem registry_run_processPacket {j : ℕ} {packets : List Packet}
    (h : run (step serverId) t (packets.map (.processPacket j)) = some t') :
    t'.registry = t.registry := by
  induction packets generalizing t with
  | nil =>
    obtain rfl : t = t' := by simpa using h
    rfl
  | cons p packets ih =>
    obtain ⟨u, hu, hrest⟩ := run_cons_eq_some.mp h
    exact (ih hrest).trans (registry_step hu (by simp))

/-- All connections that have been accepted are in the registry. -/
theorem length_registry (t : TcpServer) : t.registry.length = t.connections.length :=
  List.length_map _

/-- No connection is forgotten, apart from what `unregisterConnection` does. -/
theorem length_connections_step (h : step serverId t e = some t')
    (he : ∀ id, e ≠ .unregisterConnection id) :
    t.connections.length ≤ t'.connections.length := by
  rw [← length_registry, ← length_registry, registry_step h he]
  cases e with
  | accept error =>
    cases error with
    | true => exact Nat.le_refl _
    | false => simp [registryAfter, without]
  | _ => exact Nat.le_refl _

/-- Packets that come in add no connection. -/
theorem length_run_processPacket {j : ℕ} {packets : List Packet}
    (h : run (step serverId) t (packets.map (.processPacket j)) = some t') :
    t'.connections.length = t.connections.length := by
  rw [← length_registry, ← length_registry, registry_run_processPacket h]

end TcpServer

namespace ServerSockets

/-- A handler posted by `Connection::sendPacket` or by `Connection::close`. -/
inductive Post where
  | send (bytes : List UInt8)
  | close
deriving DecidableEq, Repr

/-- The bytes that the handler puts into the write queue. -/
def Post.frame : Post → Option (List UInt8)
  | .send bytes => some bytes
  | .close => none

/-- What a connection does to its socket. -/
structure ConnectionSocket where
  isOpen : Bool := true
  reader : PacketReader := PacketReader.start
  /-- The posted handlers, oldest first. -/
  posts : List Post := []
  /-- `write_queue_`, and the writes in flight. -/
  output : WriteQueue Unit (List UInt8) := {}
deriving DecidableEq, Repr

namespace ConnectionSocket

/-- The oldest posted handler runs. -/
def runPost (io : ConnectionSocket) (post : Post) (rest : List Post) : ConnectionSocket :=
  match post with
  | .send bytes => { io with posts := rest, output := io.output.push () bytes }
  | .close => { io with posts := rest, isOpen := false }

/-- The reader when a read has completed. -/
def readerAfter (host : Endian) (io : ConnectionSocket) (bs : List UInt8) : PacketReader :=
  { io.reader with closed := false }.onRead host bs

/-- The packets that the handler of the read processes. -/
def packetsAfter (host : Endian) (io : ConnectionSocket) (bs : List UInt8) : List Packet :=
  (io.readerAfter host bs).processed.drop io.reader.processed.length

/-- The handlers of `readHeader` and `readPayload` without an error, `processPacket` apart. -/
def onRead (host : Endian) (io : ConnectionSocket) (bs : List UInt8) : ConnectionSocket :=
  { io with
    reader := io.readerAfter host bs
    -- a header with an invalid length: `close` is called
    posts := io.posts ++ if (io.readerAfter host bs).closed then [.close] else [] }

/-- The handlers of `readHeader` and `readPayload` with an error. -/
def endRead (io : ConnectionSocket) : ConnectionSocket :=
  { io with reader := { io.reader with reading := none } }

/-- Handlers are posted. -/
def post (io : ConnectionSocket) (posts : List Post) : ConnectionSocket :=
  { io with posts := io.posts ++ posts }

/-- What `sendPacket` has been called with, serialized: what has been put into the queue, and what
is still to be put there. -/
def frames (io : ConnectionSocket) : List (List UInt8) :=
  io.output.pushed ++ io.posts.filterMap Post.frame

/-- No handler of the connection is to come. -/
def Settled (io : ConnectionSocket) : Prop :=
  io.reader.reading = none ∧ io.posts = [] ∧ io.output.writes = []

end ConnectionSocket

end ServerSockets

open ServerSockets in
structure ServerSockets where
  server : TcpServer := {}
  /-- The sockets of the connections of `server`, in their order. -/
  sockets : List ConnectionSocket := []
  /-- History: the calls of `closedCallback_`. -/
  closedCalls : List Int32 := []

namespace ServerSockets

/-- The packets that have been handed to `sendPacket` of the `j`-th connection. -/
def sentOf (server : TcpServer) (j : ℕ) : List Outgoing :=
  (server.connections[j]?.map Connection.sent).getD []

/-- The serialized packets that steps of the server hand to the `j`-th connection. -/
def newFrames (host : Endian) (padding : Padding) (server server' : TcpServer) (j : ℕ) :
    List (List UInt8) :=
  ((sentOf server' j).drop (sentOf server j).length).map fun o => o.packet.serialize host padding

/-- The server has taken steps: what was handed to connections is posted, and a connection that has
been accepted is started. -/
def withServer (host : Endian) (padding : Padding) (t : ServerSockets) (server : TcpServer) :
    ServerSockets :=
  { t with
    server := server
    sockets := (t.sockets.mapIdx fun j io =>
        io.post ((newFrames host padding t.server server j).map .send)) ++
      List.replicate (server.connections.length - t.sockets.length) {} }

/-- `closeConnection`. -/
def closeConnection (t : ServerSockets) (id : Int32) : ServerSockets :=
  { t with sockets := t.sockets.mapIdx fun j io =>
      io.post (if t.server.connections[j]?.any fun c => c.registered && c.id = id then [.close]
        else []) }

/-- `unregisterConnection`. -/
def unregisterConnection (t : ServerSockets) (id : Int32) : ServerSockets :=
  { t with
    server := t.server.updateWhere (·.id = id) fun c => { c with registered := false }
    closedCalls := t.closedCalls ++ [id] }

/-- The socket of the `j`-th connection has changed. -/
def setSocket (t : ServerSockets) (j : ℕ) (io : ConnectionSocket) : ServerSockets :=
  { t with sockets := t.sockets.set j io }

/-! ## The server and its sockets as a machine -/

inductive Event where
  /-- A step of the server that is not one of a handler of a read or a write. -/
  | server (e : TcpServer.Event) (padding : Padding)
  | closeConnection (id : Int32)
  /-- The oldest handler posted to the `j`-th connection runs. -/
  | runPost (j : ℕ)
  /-- The handler of the read of the `j`-th connection runs, with bytes, with an error, or because
  the read was aborted. -/
  | readDone (j : ℕ) (bs : List UInt8) (padding : Padding)
  | readFailed (j : ℕ)
  | readAborted (j : ℕ)
  /-- The handler of the `i`-th write of the `j`-th connection runs. -/
  | writeDone (j i : ℕ)
  | writeFailed (j i : ℕ)
  | writeAborted (j i : ℕ)

/-- The steps of the server that handlers of reads and writes take. -/
def isHandler : TcpServer.Event → Bool
  | .processPacket _ _ => true
  | .unregisterConnection _ => true
  | _ => false

/-- The `j`-th connection, if a handler can run on its strand. -/
def onStrand (t : ServerSockets) (j : ℕ) : Option (Connection × ConnectionSocket) :=
  (t.server.idle j).bind fun c => t.sockets[j]?.map fun io => (c, io)

def step (host : Endian) (serverId : List UInt8) (t : ServerSockets) : Event → Option ServerSockets
  | .server e padding =>
    if isHandler e then none
    else (TcpServer.step serverId t.server e).map (t.withServer host padding)
  | .closeConnection id => some (t.closeConnection id)
  | .runPost j => (t.onStrand j).bind fun (_, io) =>
    match io.posts with
    | post :: rest => some (t.setSocket j (io.runPost post rest))
    | [] => none
  | .readDone j bs padding => (t.onStrand j).bind fun (_, io) =>
    if io.reader.wanted = some bs.length then
      (run (TcpServer.step serverId) t.server
        ((io.packetsAfter host bs).map (.processPacket j))).map
        ((t.setSocket j (io.onRead host bs)).withServer host padding)
    else none
  | .readFailed j => (t.onStrand j).bind fun (c, io) =>
    if io.reader.reading.isSome then
      some ((t.setSocket j io.endRead).unregisterConnection c.id)
    else none
  | .readAborted j => (t.onStrand j).bind fun (_, io) =>
    if io.reader.reading.isSome && !io.isOpen then some (t.setSocket j io.endRead) else none
  | .writeDone j i => (t.onStrand j).bind fun (_, io) =>
    (io.output.complete () i).map fun output => t.setSocket j { io with output := output }
  | .writeFailed j i => (t.onStrand j).bind fun (c, io) =>
    (io.output.fail i).map fun output =>
      (t.setSocket j { io with output := output }).unregisterConnection c.id
  | .writeAborted j i => (t.onStrand j).bind fun (_, io) =>
    if io.isOpen then none
    else (io.output.fail i).map fun output => t.setSocket j { io with output := output }

/-! ## What a step does -/

variable {host : Endian} {serverId : List UInt8} {t t' : ServerSockets} {e : Event}

/-- The step function, read backwards. -/
inductive Transition (host : Endian) (serverId : List UInt8) (t : ServerSockets) :
    Event → ServerSockets → Prop where
  | server {e : TcpServer.Event} {padding : Padding} {server : TcpServer}
      (he : isHandler e = false) (hserver : TcpServer.step serverId t.server e = some server) :
      Transition host serverId t (.server e padding) (t.withServer host padding server)
  | closeConnection {id : Int32} :
      Transition host serverId t (.closeConnection id) (t.closeConnection id)
  | runPost {j : ℕ} {c : Connection} {io : ConnectionSocket} {post : Post} {rest : List Post}
      (hc : t.server.connections[j]? = some c) (hio : t.sockets[j]? = some io)
      (hposts : io.posts = post :: rest) :
      Transition host serverId t (.runPost j) (t.setSocket j (io.runPost post rest))
  | readDone {j : ℕ} {bs : List UInt8} {padding : Padding} {c : Connection} {io : ConnectionSocket}
      {server : TcpServer} (hc : t.server.connections[j]? = some c) (hio : t.sockets[j]? = some io)
      (hwanted : io.reader.wanted = some bs.length)
      (hserver : run (TcpServer.step serverId) t.server
        ((io.packetsAfter host bs).map (.processPacket j)) = some server) :
      Transition host serverId t (.readDone j bs padding)
        ((t.setSocket j (io.onRead host bs)).withServer host padding server)
  | readFailed {j : ℕ} {c : Connection} {io : ConnectionSocket}
      (hc : t.server.connections[j]? = some c) (hio : t.sockets[j]? = some io) :
      Transition host serverId t (.readFailed j)
        ((t.setSocket j io.endRead).unregisterConnection c.id)
  | readAborted {j : ℕ} {c : Connection} {io : ConnectionSocket}
      (hc : t.server.connections[j]? = some c) (hio : t.sockets[j]? = some io)
      (hopen : io.isOpen = false) :
      Transition host serverId t (.readAborted j) (t.setSocket j io.endRead)
  | writeDone {j i : ℕ} {c : Connection} {io : ConnectionSocket}
      {output : WriteQueue Unit (List UInt8)} (hc : t.server.connections[j]? = some c)
      (hio : t.sockets[j]? = some io) (houtput : io.output.complete () i = some output) :
      Transition host serverId t (.writeDone j i) (t.setSocket j { io with output := output })
  | writeFailed {j i : ℕ} {c : Connection} {io : ConnectionSocket}
      {output : WriteQueue Unit (List UInt8)} (hc : t.server.connections[j]? = some c)
      (hio : t.sockets[j]? = some io) (houtput : io.output.fail i = some output) :
      Transition host serverId t (.writeFailed j i)
        ((t.setSocket j { io with output := output }).unregisterConnection c.id)
  | writeAborted {j i : ℕ} {c : Connection} {io : ConnectionSocket}
      {output : WriteQueue Unit (List UInt8)} (hc : t.server.connections[j]? = some c)
      (hio : t.sockets[j]? = some io) (hopen : io.isOpen = false)
      (houtput : io.output.fail i = some output) :
      Transition host serverId t (.writeAborted j i) (t.setSocket j { io with output := output })

/-- A handler runs on the strand of a connection. -/
theorem bind_onStrand_eq_some {j : ℕ} {f : Connection × ConnectionSocket → Option ServerSockets}
    (h : (t.onStrand j).bind f = some t') :
    ∃ c io, t.server.connections[j]? = some c ∧ t.sockets[j]? = some io ∧
      f (c, io) = some t' := by
  obtain ⟨x, hx, hf⟩ := Option.bind_eq_some_iff.mp h
  obtain ⟨c, hc, hmap⟩ := Option.bind_eq_some_iff.mp hx
  obtain ⟨io, hio, rfl⟩ := Option.map_eq_some_iff.mp hmap
  exact ⟨c, io, TcpServer.idle_eq_some hc, hio, hf⟩

/-- Every step is one of the transitions. -/
theorem transition_of_step (h : step host serverId t e = some t') :
    Transition host serverId t e t' := by
  cases e with
  | server e padding =>
    simp only [step] at h
    split at h
    · exact absurd h (by simp)
    · obtain ⟨server, hserver, rfl⟩ := Option.map_eq_some_iff.mp h
      exact .server (by simpa using ‹¬ isHandler e = true›) hserver
  | closeConnection id =>
    cases h
    exact .closeConnection
  | runPost j =>
    obtain ⟨c, io, hc, hio, h⟩ := bind_onStrand_eq_some h
    simp only at h
    split at h
    · rename_i post rest hposts
      cases h
      exact .runPost hc hio hposts
    · exact absurd h (by simp)
  | readDone j bs padding =>
    obtain ⟨c, io, hc, hio, h⟩ := bind_onStrand_eq_some h
    simp only at h
    split at h
    · rename_i hwanted
      obtain ⟨server, hserver, rfl⟩ := Option.map_eq_some_iff.mp h
      exact .readDone hc hio hwanted hserver
    · exact absurd h (by simp)
  | readFailed j =>
    obtain ⟨c, io, hc, hio, h⟩ := bind_onStrand_eq_some h
    simp only at h
    split at h
    · cases h
      exact .readFailed hc hio
    · exact absurd h (by simp)
  | readAborted j =>
    obtain ⟨c, io, hc, hio, h⟩ := bind_onStrand_eq_some h
    simp only at h
    split at h
    · rename_i hguard
      cases h
      rw [Bool.and_eq_true, Bool.not_eq_true'] at hguard
      exact .readAborted hc hio hguard.2
    · exact absurd h (by simp)
  -- writes complete one by one, by their place among those that are outstanding
  | writeDone j i =>
    obtain ⟨c, io, hc, hio, h⟩ := bind_onStrand_eq_some h
    obtain ⟨output, houtput, rfl⟩ := Option.map_eq_some_iff.mp h
    exact .writeDone hc hio houtput
  | writeFailed j i =>
    obtain ⟨c, io, hc, hio, h⟩ := bind_onStrand_eq_some h
    obtain ⟨output, houtput, rfl⟩ := Option.map_eq_some_iff.mp h
    exact .writeFailed hc hio houtput
  | writeAborted j i =>
    obtain ⟨c, io, hc, hio, h⟩ := bind_onStrand_eq_some h
    simp only at h
    split at h
    · exact absurd h (by simp)
    · rename_i hopen
      obtain ⟨output, houtput, rfl⟩ := Option.map_eq_some_iff.mp h
      exact .writeAborted hc hio (by simpa using hopen) houtput

/-! ## What a step does to one socket -/

/-- What a step does to the socket of the `j`-th connection, when the server hands it `new`. -/
inductive SocketChange (host : Endian) (e : Event) (j : ℕ) (new : List (List UInt8))
    (io : ConnectionSocket) : ConnectionSocket → Prop where
  | post (posts : List Post) (hposts : posts.filterMap Post.frame = new) :
      SocketChange host e j new io (io.post posts)
  | runPost (post : Post) (rest : List Post) (he : e = .runPost j) (hnew : new = [])
      (hposts : io.posts = post :: rest) : SocketChange host e j new io (io.runPost post rest)
  | readDone (bs : List UInt8) (padding : Padding) (posts : List Post)
      (he : e = .readDone j bs padding) (hwanted : io.reader.wanted = some bs.length)
      (hposts : posts.filterMap Post.frame = new) :
      SocketChange host e j new io ((io.onRead host bs).post posts)
  | endRead (he : e = .readFailed j ∨ e = .readAborted j ∧ io.isOpen = false) (hnew : new = []) :
      SocketChange host e j new io io.endRead
  | complete (i : ℕ) (output : WriteQueue Unit (List UInt8)) (he : e = .writeDone j i)
      (hnew : new = []) (houtput : io.output.complete () i = some output) :
      SocketChange host e j new io { io with output := output }
  | fail (i : ℕ) (output : WriteQueue Unit (List UInt8))
      (he : e = .writeFailed j i ∨ e = .writeAborted j i ∧ io.isOpen = false) (hnew : new = [])
      (houtput : io.output.fail i = some output) :
      SocketChange host e j new io { io with output := output }

/-- A socket that nothing happens to. -/
theorem SocketChange.refl (e : Event) (j : ℕ) (io : ConnectionSocket) :
    SocketChange host e j [] io io := by
  have h : SocketChange host e j [] io (io.post []) := .post [] rfl
  rwa [ConnectionSocket.post, List.append_nil] at h

/-- The frames of handlers that send. -/
theorem filterMap_send (frames : List (List UInt8)) :
    (frames.map Post.send).filterMap Post.frame = frames := by
  rw [List.filterMap_map]
  exact List.filterMap_some

/-- Without a step of the server no connection is handed anything. -/
theorem newFrames_self (padding : Padding) (server : TcpServer) (j : ℕ) :
    newFrames host padding server server j = [] := by
  rw [newFrames, List.drop_length]
  rfl

/-- `unregisterConnection` hands nothing to a connection. -/
theorem sentOf_unregisterConnection (t : ServerSockets) (id : Int32) (j : ℕ) :
    sentOf (t.unregisterConnection id).server j = sentOf t.server j := by
  simp only [sentOf, ServerSockets.unregisterConnection, TcpServer.updateWhere, List.getElem?_map]
  cases t.server.connections[j]? with
  | none => rfl
  | some c =>
    simp only [Option.map_some, Option.getD_some]
    split <;> rfl

/-- Nor is there anything new to be posted after it. -/
theorem newFrames_unregisterConnection (padding : Padding) (t : ServerSockets) (id : Int32)
    (j : ℕ) :
    newFrames host padding t.server (t.unregisterConnection id).server j = [] := by
  rw [newFrames, sentOf_unregisterConnection, List.drop_length]
  rfl

/-- A connection that there was before posts what it has been handed. -/
theorem getElem?_withServer {padding : Padding} {server : TcpServer} {j : ℕ} {io : ConnectionSocket}
    (hio : t.sockets[j]? = some io) : (t.withServer host padding server).sockets[j]? =
      some (io.post ((newFrames host padding t.server server j).map .send)) := by
  refine getElem?_append_of_some ?_ _
  rw [List.getElem?_mapIdx, hio]
  rfl

/-- A step that sets the socket of one connection. -/
theorem socketChange_setSocket {i j : ℕ} {io b b' : ConnectionSocket}
    (hio : t.sockets[j]? = some io) (hb : t.sockets[i]? = some b)
    (hchange : i = j → SocketChange host e j [] b b') :
    ∃ io', (t.setSocket i b').sockets[j]? = some io' ∧ SocketChange host e j [] io io' := by
  refine exists_getElem?_set hio (.refl e j io) fun hij => ?_
  subst hij
  obtain rfl := Option.some.inj (hio.symm.trans hb)
  exact hchange rfl

/-- What a step does to the socket of a connection. -/
theorem socketChange_of_step {j : ℕ} {io : ConnectionSocket} (h : step host serverId t e = some t')
    (hio : t.sockets[j]? = some io) : ∃ (io' : ConnectionSocket) (padding : Padding),
      t'.sockets[j]? = some io' ∧
        SocketChange host e j (newFrames host padding t.server t'.server j) io io' := by
  -- handlers of one connection that leave what is sent alone
  have hset (hnew : newFrames host (0, 0) t.server t'.server j = [])
      (hex : ∃ io', t'.sockets[j]? = some io' ∧ SocketChange host e j [] io io') :
      ∃ (io' : ConnectionSocket) (padding : Padding), t'.sockets[j]? = some io' ∧
        SocketChange host e j (newFrames host padding t.server t'.server j) io io' := by
    obtain ⟨io', hio', hchange⟩ := hex
    exact ⟨io', (0, 0), hio', hnew ▸ hchange⟩
  cases transition_of_step h with
  | @server _ padding => exact ⟨_, padding, getElem?_withServer hio, .post _ (filterMap_send _)⟩
  | @closeConnection id =>
    refine hset (newFrames_self _ _ _) ?_
    simp only [ServerSockets.closeConnection, List.getElem?_mapIdx, hio, Option.map_some]
    refine ⟨_, rfl, .post _ ?_⟩
    split <;> rfl
  | @runPost i _ _ post rest _ hb hposts =>
    refine hset (newFrames_self _ _ _) (socketChange_setSocket hio hb ?_)
    rintro rfl
    exact .runPost post rest rfl rfl hposts
  | @readDone i bs padding _ b server _ hb hwanted _ =>
    by_cases hij : i = j
    · subst hij
      obtain rfl := Option.some.inj (hio.symm.trans hb)
      have hset : (t.setSocket i (io.onRead host bs)).sockets[i]? = some (io.onRead host bs) :=
        List.getElem?_set_self (List.getElem?_eq_some_iff.mp hio).1
      exact ⟨_, padding, getElem?_withServer hset,
        .readDone bs padding _ rfl hwanted (filterMap_send _)⟩
    · have hset : (t.setSocket i (b.onRead host bs)).sockets[j]? = some io :=
        (List.getElem?_set_ne hij).trans hio
      exact ⟨_, padding, getElem?_withServer hset, .post _ (filterMap_send _)⟩
  | @readFailed i _ b _ hb =>
    refine hset (newFrames_unregisterConnection _ _ _ _) (socketChange_setSocket hio hb ?_)
    rintro rfl
    exact .endRead (Or.inl rfl) rfl
  | @readAborted i _ b _ hb hopen =>
    refine hset (newFrames_self _ _ _) (socketChange_setSocket hio hb ?_)
    rintro rfl
    exact .endRead (Or.inr ⟨rfl, hopen⟩) rfl
  | @writeDone i k _ b output _ hb houtput =>
    refine hset (newFrames_self _ _ _) (socketChange_setSocket hio hb ?_)
    rintro rfl
    exact .complete k output rfl rfl houtput
  | @writeFailed i k _ b output _ hb houtput =>
    refine hset (newFrames_unregisterConnection _ _ _ _) (socketChange_setSocket hio hb ?_)
    rintro rfl
    exact .fail k output (Or.inl rfl) rfl houtput
  | @writeAborted i k _ b output _ hb hopen houtput =>
    refine hset (newFrames_self _ _ _) (socketChange_setSocket hio hb ?_)
    rintro rfl
    exact .fail k output (Or.inr ⟨rfl, hopen⟩) rfl houtput

/-- Every connection has its socket. -/
def Aligned (t : ServerSockets) : Prop := t.sockets.length = t.server.connections.length

/-- Every connection that the server accepts gets a socket. -/
theorem length_withServer {padding : Padding} {server : TcpServer}
    (hle : t.sockets.length ≤ server.connections.length) :
    (t.withServer host padding server).sockets.length = server.connections.length := by
  rw [withServer, List.length_append, List.length_mapIdx, List.length_replicate]
  omega

/-- Every step keeps a socket for each connection. -/
theorem Aligned.step (hI : t.Aligned) (h : ServerSockets.step host serverId t e = some t') :
    t'.Aligned := by
  rw [Aligned] at hI
  cases transition_of_step h with
  | server he hserver =>
    have hle := TcpServer.length_connections_step hserver (by rintro id rfl; cases he)
    exact length_withServer (hI.trans_le hle)
  | closeConnection =>
    rw [Aligned, ServerSockets.closeConnection, List.length_mapIdx]
    exact hI
  | readDone _ _ _ hserver =>
    refine length_withServer ?_
    rw [setSocket, List.length_set, TcpServer.length_run_processPacket hserver]
    exact hI.le
  | runPost | readAborted | writeDone | writeAborted =>
    rw [Aligned, setSocket, List.length_set]
    exact hI
  | readFailed | writeFailed =>
    simp only [Aligned, ServerSockets.unregisterConnection, setSocket, TcpServer.updateWhere,
      List.length_set, List.length_map]
    exact hI

/-- A connection that was not there before has just been accepted by the server, and started. -/
theorem new_of_step {j : ℕ} {io : ConnectionSocket} (hI : t.Aligned)
    (h : step host serverId t e = some t') (hnone : t.sockets[j]? = none)
    (hio : t'.sockets[j]? = some io) :
    io = {} ∧ ∃ (e' : TcpServer.Event) (padding : Padding), e = .server e' padding ∧
      isHandler e' = false ∧ TcpServer.step serverId t.server e' = some t'.server := by
  have hle := List.getElem?_eq_none_iff.mp hnone
  -- all other events leave the number of sockets as it is
  have hlength (hsame : t'.sockets.length = t.sockets.length) : False := by
    obtain ⟨hlt, -⟩ := List.getElem?_eq_some_iff.mp hio
    omega
  cases transition_of_step h with
  | @server e' padding server he hserver =>
    refine ⟨?_, e', padding, rfl, he, hserver⟩
    rw [withServer, List.getElem?_append_right (by simpa using hle)] at hio
    exact List.eq_of_mem_replicate (List.mem_of_getElem? hio)
  | closeConnection => exact (hlength List.length_mapIdx).elim
  | readDone _ _ _ hserver =>
    refine (hlength ?_).elim
    have hconnections := TcpServer.length_run_processPacket hserver
    rw [length_withServer, hconnections, hI]
    rw [setSocket, List.length_set, hconnections, hI]
  | runPost | readFailed | readAborted | writeDone | writeFailed | writeAborted =>
    exact (hlength List.length_set).elim

/-! ## The server without its sockets -/

/-- The steps of the server that an event stands for. -/
def serverEvents (host : Endian) (t : ServerSockets) : Event → List TcpServer.Event
  | .server e _ => [e]
  | .readDone j bs _ =>
    (t.sockets[j]?.map fun io => (io.packetsAfter host bs).map (.processPacket j)).getD []
  | .readFailed j => (t.server.connections[j]?.map fun c => .unregisterConnection c.id).toList
  | .writeFailed j _ => (t.server.connections[j]?.map fun c => .unregisterConnection c.id).toList
  | _ => []

/-- A step of the sockets is a run of the server. -/
theorem server_step (h : step host serverId t e = some t') :
    run (TcpServer.step serverId) t.server (t.serverEvents host e) = some t'.server := by
  cases transition_of_step h with
  | server _ hserver => exact (run_singleton _ _).trans hserver
  | closeConnection => rfl
  | runPost => rfl
  | readDone _ hio _ hserver =>
    rw [serverEvents, hio]
    exact hserver
  | readFailed hc =>
    rw [serverEvents, hc]
    rfl
  | readAborted => rfl
  | writeDone => rfl
  | writeFailed hc =>
    rw [serverEvents, hc]
    rfl
  | writeAborted => rfl

/-- What the server does in a run, it can do without its sockets. -/
theorem server_run {es : List Event} {u : ServerSockets}
    (h : run (step host serverId) t es = some u) :
    ∃ fs, run (TcpServer.step serverId) t.server fs = some u.server :=
  run_project (fun _ _ _ h => server_step h) h

end ServerSockets

end TurboNet.Asio
