import TurboNet.Asio.ServerSockets

/-!
# The registry of the asio server

Reference: `claude/asio_server.cpp`, `TcpServer::registerConnection`,
`TcpServer::unregisterConnection`, `TcpServer::closeConnection`, `Connection::close`,
`Connection::readHeader`, `Connection::readPayload`, `Connection::doWrite`.

A connection should leave `connections_` when it ends, and `closedCallback_` should be called once
then. Only the handlers of reads and writes that report an error take the connection out. So a
connection whose socket the server closes itself, for `closeConnection` or because of an invalid
length, stays registered: its read is aborted, and the handler of an aborted read does nothing. And
a connection whose read and whose write both report an error leaves twice, with two calls of
`closedCallback_`. `registry_of_everyStep` says that the registry is right as long as neither
happens.
-/

namespace TurboNet.Asio

open Common

namespace ServerSockets

variable {host : Endian} {serverId : List UInt8} {t t' : ServerSockets} {e : Event}

/-! ## What a step does to the registry -/

/-- The connection whose read or write an event reports an error of. -/
def Event.fails : Event → Option ℕ
  | .readFailed j => some j
  | .writeFailed j _ => some j
  | _ => none

/-- What a step does to the registry and to the calls of `closedCallback_`. -/
inductive RegistryChange (t : ServerSockets) (e : Event) (t' : ServerSockets) : Prop where
  | same (he : e.fails = none) (hregistry : t'.server.registry = t.server.registry)
      (hcalls : t'.closedCalls = t.closedCalls)
  | joined (padding : Padding) (he : e = .server (.accept false) padding)
      (hregistry : t'.server.registry =
        TcpServer.without t.server.registry t.server.nextConnectionId ++
          [(t.server.nextConnectionId, true)])
      (hcalls : t'.closedCalls = t.closedCalls)
  | left (j : ℕ) (id : Int32) (registered : Bool) (he : e.fails = some j)
      (hj : t.server.registry[j]? = some (id, registered))
      (hregistry : t'.server.registry = TcpServer.without t.server.registry id)
      (hcalls : t'.closedCalls = t.closedCalls ++ [id])

/-- The registry has an entry for each connection. -/
theorem getElem?_registry {j : ℕ} {c : Connection} (hc : t.server.connections[j]? = some c) :
    t.server.registry[j]? = some (c.id, c.registered) := by
  rw [TcpServer.registry, List.getElem?_map, hc]
  rfl

/-- What a step does to the registry is one of the listed changes. -/
theorem registryChange_of_step (h : step host serverId t e = some t') : RegistryChange t e t' := by
  cases transition_of_step h with
  | @server e padding server he hserver =>
    have hregistry :=
      TcpServer.registry_step hserver (by rintro id rfl; exact absurd he (by simp [isHandler]))
    cases e with
    | accept error =>
      cases error with
      | false => exact .joined padding rfl hregistry rfl
      | true => exact .same rfl hregistry rfl
    | _ => exact .same rfl hregistry rfl
  | closeConnection => exact .same rfl rfl rfl
  | runPost => exact .same rfl rfl rfl
  | readDone _ _ _ hserver =>
    exact .same rfl (TcpServer.registry_run_processPacket hserver) rfl
  | @readFailed j c io hc =>
    exact .left j c.id c.registered rfl (getElem?_registry hc)
      (TcpServer.registry_unregister _ _) rfl
  | readAborted => exact .same rfl rfl rfl
  | writeDone => exact .same rfl rfl rfl
  | @writeFailed j i c io output hc =>
    exact .left j c.id c.registered rfl (getElem?_registry hc)
      (TcpServer.registry_unregister _ _) rfl
  | writeAborted => exact .same rfl rfl rfl

/-! ## The registry tells the truth -/

/-- A connection of which no handler is to come is not in `connections_`, and `closedCallback_` has
been called once for every connection that is not there, and never for one that is. -/
def RegistryTrue (t : ServerSockets) : Prop :=
  ∀ (j : ℕ) (c : Connection) (io : ConnectionSocket), t.server.connections[j]? = some c →
    t.sockets[j]? = some io →
    (io.Settled → t.server.isRegistered c.id = false) ∧
      t.closedCalls.count c.id = if t.server.isRegistered c.id then 0 else 1

/-- The `j`-th connection is in `connections_`. -/
def registeredAt (t : ServerSockets) (j : ℕ) : Bool := t.server.connections[j]?.any (·.registered)

/-- The event keeps the registry right. A connection is accepted under an id that none has had
before; an error of a read or a write is reported while the connection is registered, and the
handler of `close` does not close an open socket then. -/
def keepsRegistry (t : ServerSockets) : Event → Bool
  | .server (.accept false) _ =>
    !(t.server.registry.map Prod.fst).contains t.server.nextConnectionId
  | .readFailed j => t.registeredAt j
  | .writeFailed j _ => t.registeredAt j
  | .runPost j => !t.registeredAt j || t.sockets[j]?.all fun io =>
      !io.isOpen || decide (io.posts.head? ≠ some .close)
  | _ => true

/-- A connection that is registered has an open socket, which it reads or is about to close. -/
structure ConnectionSocket.Live (io : ConnectionSocket) : Prop where
  isOpen : io.isOpen = true
  reads : io.reader.reading.isSome = true ∨ Post.close ∈ io.posts

/-- What keeps the registry right: registered connections are live, and every other one has been
reported once. -/
structure Registered (t : ServerSockets) : Prop where
  aligned : t.Aligned
  closed : ∀ id ∈ t.closedCalls, id ∈ t.server.registry.map Prod.fst
  live : ∀ (j : ℕ) (id : Int32) (io : ConnectionSocket), t.server.registry[j]? = some (id, true) →
    t.sockets[j]? = some io → io.Live
  calls : ∀ x ∈ t.server.registry, t.closedCalls.count x.1 = if x.2 then 0 else 1

/-- No connection has been accepted at the start. -/
theorem registered_start : Registered {} where
  aligned := rfl
  closed := List.forall_mem_nil _
  live j id io h := absurd h (by simp [TcpServer.registry])
  calls := List.forall_mem_nil _

/-- Every connection has its entry. -/
theorem mem_registry {c : Connection} (hc : c ∈ t.server.connections) :
    (c.id, c.registered) ∈ t.server.registry :=
  List.mem_map_of_mem hc

/-- Two connections with one id would have been reported equally often. -/
theorem Registered.isRegistered_eq (hI : t.Registered) {c : Connection}
    (hc : c ∈ t.server.connections) : t.server.isRegistered c.id = c.registered := by
  cases hregistered : c.registered with
  | true =>
    rw [TcpServer.isRegistered, List.any_eq_true]
    exact ⟨c, hc, by simp [hregistered]⟩
  | false =>
    rw [TcpServer.isRegistered, List.any_eq_false]
    intro b hb hboth
    rw [Bool.and_eq_true, decide_eq_true_eq] at hboth
    have hone := hI.calls _ (mem_registry hc)
    have hzero := hI.calls _ (mem_registry hb)
    rw [hregistered] at hone
    rw [hboth.1, hboth.2] at hzero
    exact absurd (hone.symm.trans hzero) (by simp)

/-- Live connections that are registered, and the others reported once, make the registry true. -/
theorem Registered.registryTrue (hI : t.Registered) : t.RegistryTrue := by
  intro j c io hc hio
  have hmem := List.mem_of_getElem? hc
  rw [hI.isRegistered_eq hmem]
  refine ⟨fun hsettled => ?_, hI.calls _ (mem_registry hmem)⟩
  rw [← Bool.not_eq_true]
  intro hregistered
  have hlive := hI.live j c.id io (hregistered ▸ getElem?_registry hc) hio
  obtain ⟨hreading, hposts, -⟩ := hsettled
  rcases hlive.reads with hreads | hclose
  · rw [hreading] at hreads
    exact absurd hreads (by simp)
  · rw [hposts] at hclose
    exact absurd hclose (by simp)

/-! ## One step -/

/-- What the registry says of a connection. -/
theorem registeredAt_eq {j : ℕ} {id : Int32} {registered : Bool}
    (h : t.server.registry[j]? = some (id, registered)) : t.registeredAt j = registered := by
  obtain ⟨c, hc, heq⟩ := Option.map_eq_some_iff.mp ((List.getElem?_map ..).symm.trans h)
  obtain ⟨rfl, rfl⟩ := Prod.mk.inj heq
  rw [registeredAt, hc]
  rfl

/-- The handler of a read goes on reading, or closes. -/
theorem onRead_reads (host : Endian) {io : ConnectionSocket} {bs : List UInt8}
    (hwanted : io.reader.wanted = some bs.length) :
    (io.onRead host bs).reader.reading.isSome = true ∨ Post.close ∈ (io.onRead host bs).posts := by
  cases hclosed : (io.readerAfter host bs).closed with
  | true =>
    refine Or.inr ?_
    rw [ConnectionSocket.onRead, hclosed]
    simp
  | false =>
    refine Or.inl ?_
    simp only [ConnectionSocket.onRead, ConnectionSocket.readerAfter, PacketReader.onRead]
      at hclosed ⊢
    split at hclosed
    · exact PacketReader.reading_of_onReadHeader hclosed
    · exact PacketReader.reading_onReadPayload _ _
    · rename_i hreading
      simp [PacketReader.wanted, hreading] at hwanted

/-- The socket of a connection that stays registered. -/
theorem SocketChange.live {j : ℕ} {new : List (List UInt8)} {io io' : ConnectionSocket}
    (h : SocketChange host e j new io io') (hlive : io.Live) (hkeeps : keepsRegistry t e = true)
    (hat : t.registeredAt j = true) (hio : t.sockets[j]? = some io) (he : e.fails ≠ some j) :
    io'.Live := by
  obtain ⟨hopen, hreads⟩ := hlive
  -- an aborted operation is one of a closed socket
  have hnot (hclosed : io.isOpen = false) : io'.Live :=
    absurd (hclosed.symm.trans hopen) (by simp)
  cases h with
  | post posts => exact ⟨hopen, hreads.imp_right (List.mem_append_left _)⟩
  | runPost post rest he' hnew hposts =>
    subst he'
    cases post with
    | send bytes =>
      refine ⟨hopen, hreads.imp_right fun hclose => ?_⟩
      rw [hposts] at hclose
      exact (List.mem_cons.mp hclose).resolve_left (by simp)
    | close => simp [keepsRegistry, hat, hio, hopen, hposts] at hkeeps
  | readDone bs padding posts he' hwanted =>
    exact ⟨hopen, (onRead_reads host hwanted).imp_right (List.mem_append_left _)⟩
  | endRead he' =>
    rcases he' with rfl | ⟨-, hclosed⟩
    · exact absurd rfl he
    · exact hnot hclosed
  | complete => exact ⟨hopen, hreads⟩
  | fail i output he' =>
    rcases he' with rfl | ⟨-, hclosed⟩
    · exact absurd rfl he
    · exact hnot hclosed

/-- A connection that is registered after a step was registered before, and no error of it has been
reported; or it is new. -/
theorem registered_before {j : ℕ} {id : Int32} (hI : t.Registered) (hchange : RegistryChange t e t')
    (hj : t'.server.registry[j]? = some (id, true)) (hlt : j < t.sockets.length) :
    t.server.registry[j]? = some (id, true) ∧ e.fails ≠ some j := by
  cases hchange with
  | same he hregistry =>
    rw [he]
    exact ⟨hregistry ▸ hj, by simp⟩
  | joined padding he hregistry =>
    have hlength : j < (TcpServer.without t.server.registry t.server.nextConnectionId).length := by
      rw [TcpServer.length_without, TcpServer.length_registry, ← hI.aligned]
      exact hlt
    rw [hregistry, List.getElem?_append_left hlength] at hj
    exact ⟨(TcpServer.getElem?_without hj).1, by simp [he, Event.fails]⟩
  | left i id' registered he hi hregistry =>
    rw [hregistry] at hj
    obtain ⟨hbefore, hne⟩ := TcpServer.getElem?_without hj
    refine ⟨hbefore, fun heq => hne ?_⟩
    obtain rfl : i = j := Option.some.inj (he.symm.trans heq)
    exact congrArg Prod.fst (Option.some.inj (hbefore.symm.trans hi))

/-- A step that keeps the registry right reports each connection once when it goes. -/
theorem Registered.calls_step (hI : t.Registered) (hchange : RegistryChange t e t')
    (hkeeps : keepsRegistry t e = true) :
    ∀ x ∈ t'.server.registry, t'.closedCalls.count x.1 = if x.2 then 0 else 1 := by
  cases hchange with
  | same _ hregistry hcalls =>
    rw [hregistry, hcalls]
    exact hI.calls
  | joined padding he hregistry hcalls =>
    -- the id has not been used before
    subst he
    have hfresh : t.server.nextConnectionId ∉ t.server.registry.map Prod.fst := by
      simpa [keepsRegistry] using hkeeps
    rw [hregistry, hcalls, TcpServer.without_of_fresh hfresh]
    refine List.forall_mem_append.mpr ⟨hI.calls, List.forall_mem_singleton.mpr ?_⟩
    exact List.count_eq_zero.mpr fun hmem => hfresh (hI.closed _ hmem)
  | left j id registered he hj hregistry hcalls =>
    have hat : registered = true := by
      rw [← registeredAt_eq hj]
      cases e with
      | readFailed i =>
        obtain rfl := Option.some.inj he
        exact hkeeps
      | writeFailed i k =>
        obtain rfl := Option.some.inj he
        exact hkeeps
      | _ => exact absurd he (by simp [Event.fails])
    have hzero := hI.calls _ (List.mem_of_getElem? hj)
    rw [hat, if_pos rfl] at hzero
    rw [hregistry, hcalls]
    intro x hx
    obtain ⟨y, hy, rfl⟩ := List.mem_map.mp hx
    rw [List.count_append]
    by_cases hid : y.1 = id
    · have hnone : t.closedCalls.count id = 0 := hzero
      simp [hid, hnone]
    · simp only [if_neg hid]
      have hother : [id].count y.1 = 0 := List.count_eq_zero.mpr (by simpa using hid)
      rw [hother, hI.calls y hy, Nat.add_zero]

/-- A step that keeps the registry right keeps the invariant. -/
theorem Registered.step (hI : t.Registered) (hkeeps : keepsRegistry t e = true)
    (h : ServerSockets.step host serverId t e = some t') : t'.Registered := by
  have hchange := registryChange_of_step h
  refine ⟨hI.aligned.step h, ?_, ?_, hI.calls_step hchange hkeeps⟩
  · cases hchange with
    | same _ hregistry hcalls =>
      rw [hcalls, hregistry]
      exact hI.closed
    | joined _ _ hregistry hcalls =>
      rw [hcalls, hregistry, List.map_append, TcpServer.map_fst_without]
      exact fun id hid => List.mem_append_left _ (hI.closed id hid)
    | left j id registered _ hj hregistry hcalls =>
      rw [hcalls, hregistry, TcpServer.map_fst_without]
      refine List.forall_mem_append.mpr ⟨hI.closed, List.forall_mem_singleton.mpr ?_⟩
      exact List.mem_map_of_mem (List.mem_of_getElem? hj)
  · intro j id io' hj hio'
    cases hio : t.sockets[j]? with
    | some io =>
      obtain ⟨hlt, -⟩ := List.getElem?_eq_some_iff.mp hio
      obtain ⟨hbefore, hne⟩ := registered_before hI hchange hj hlt
      obtain ⟨io'', padding, hio'', hchange'⟩ := socketChange_of_step h hio
      obtain rfl := Option.some.inj (hio''.symm.trans hio')
      exact hchange'.live (hI.live j id io hbefore hio) hkeeps (registeredAt_eq hbefore) hio hne
    | none =>
      obtain ⟨rfl, -⟩ := new_of_step hI.aligned h hio hio'
      exact ⟨rfl, Or.inl rfl⟩

/-- **The registry tells the truth.** In every run in which no connection is accepted under an id
that another one has had before, errors of reads and writes are reported only while the connection
is registered, and the handler of `close` never closes the open socket of a registered connection,
in every state a connection of which no handler is to come is not in `connections_`, and
`closedCallback_` has been called once for every connection that has left, and never for one that
is registered. -/
theorem registry_of_everyStep (host : Endian) (serverId : List UInt8) (es : List Event)
    (hsteps : EveryStep (step host serverId) {} es fun t e => keepsRegistry t e = true) :
    EveryState (step host serverId) {} es RegistryTrue := by
  have hregistered : EveryState (step host serverId) {} es Registered :=
    hsteps.everyState registered_start fun t e t' hkeeps hI h => hI.step hkeeps h
  exact fun pre post t heq ht => (hregistered pre post t heq ht).registryTrue

/-- The server is started, with a packet callback of the application, and accepts a connection. -/
def accepts : List Event :=
  [.server .start (0, 0), .server (.setCallbacks true) (0, 0), .server (.accept false) (0, 0)]

/-- The connection sends a `BIND`, and the answer is being written. -/
def answers : List Event :=
  [.readDone 0 (PacketHeader.wire (0, 0) ⟨12, idBind, 0, 1⟩) (0, 0), .runPost 0]

/-- The answer is written and the read fails. -/
theorem registry_of_everyStep_read_error :
    ∃ u, run (step .little [0x53]) {} (accepts ++ answers ++ [.writeDone 0 0, .readFailed 0]) =
        some u ∧ u.closedCalls = [1] ∧ RegistryTrue u := by
  refine ⟨_, rfl, by decide, ?_⟩
  exact (registry_of_everyStep .little [0x53]
    (accepts ++ answers ++ [.writeDone 0 0, .readFailed 0]) (by decide)).last rfl

/-- A connection that the server closes stays registered when its handlers have run. A connection
whose write fails as well as its read is reported twice. -/
theorem closed_connection_stays_registered :
    (∃ u io, run (step .little [0x53]) {}
        (accepts ++ [.closeConnection 1, .runPost 0, .readAborted 0]) = some u ∧
      u.sockets[0]? = some io ∧ io.Settled ∧ u.server.isRegistered 1 = true ∧ u.closedCalls = [] ∧
      ¬ RegistryTrue u) ∧
    ∃ u, run (step .little [0x53]) {}
        (accepts ++ answers ++ [.readFailed 0, .writeFailed 0 0]) = some u ∧
      u.closedCalls = [1, 1] ∧ ¬ RegistryTrue u := by
  constructor
  · refine ⟨_, _, rfl, rfl, ⟨by decide, by decide, by decide⟩, by decide, by decide, fun h => ?_⟩
    have hregistered := (h 0 _ _ rfl rfl).1 ⟨by decide, by decide, by decide⟩
    exact absurd hregistered (by decide)
  · refine ⟨_, rfl, by decide, fun h => ?_⟩
    have hcount := (h 0 _ _ rfl rfl).2
    exact absurd hcount (by decide)

end ServerSockets

end TurboNet.Asio
