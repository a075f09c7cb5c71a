import TurboNet.Common.WriteQueue
import TurboNet.Asio.PacketReader
import TurboNet.Asio.LifeCycle

/-!
# The socket of the asio client

Reference: `claude/asio_client.cpp`, `TcpClient::sendPacket`, `connect`, `readHeader`,
`readPayload`, `doWrite`, `close`, `handleDisconnect`.

`ClientSocket.step` is the client of `TcpClient.step` together with what it does to its socket. The
socket is closed and opened anew for every endpoint that `async_connect` tries, so sockets are
numbered: an operation belongs to the socket it was begun on, and the number goes up whenever the
socket is closed or opened. Closing a socket aborts its operations. Until the handler of an
operation has run the operation counts as outstanding; a handler that comes late may also report a
success or an error that happened before the socket was closed, and puts its bytes where the members
point now.

A packet that `sendPacket` accepts is serialized and its handler is posted; the handler puts it into
the write queue. A frame of `sendBindPacket` remembers the connected socket that it was sent for,
and every frame the socket for which `sendBindPacket` had been called when it was accepted.

`client_run` says that the client in a run of this machine takes steps of `TcpClient.step`.
-/

namespace TurboNet.Asio

open Common

namespace ClientSocket

/-- An outstanding `async_read`: its socket, the function that has begun it, and how many bytes it
asks for. -/
structure Read where
  socket : ℕ
  state : ReadState
  size : ℕ
deriving DecidableEq, Repr

/-- A serialized packet. -/
structure Send where
  bytes : List UInt8
  /-- History: the connected socket whose `BIND` it is. -/
  bind : Option ℕ
  /-- History: the connected socket that `sendBindPacket` was called for last, with the call that
  sends this packet included. -/
  after : Option ℕ
  bind_after : ∀ s ∈ bind, s ∈ after
deriving DecidableEq, Repr

end ClientSocket

open ClientSocket in
structure ClientSocket where
  client : TcpClient := {}
  /-- The number of the socket. -/
  socket : ℕ := 0
  isOpen : Bool := false
  /-- The attempts to connect that have resolved the name. -/
  opening : ℕ := 0
  reader : PacketReader := {}
  /-- The outstanding reads. -/
  reads : List Read := []
  /-- The handlers posted by `sendPacket`, oldest first. -/
  posts : List Send := []
  /-- `write_queue_`, and the writes in flight. -/
  output : WriteQueue ℕ Send := {}
  /-- History: the sockets that have been connected. -/
  made : List ℕ := []
  /-- History: the connected socket that `sendBindPacket` was called for last. -/
  bound : Option ℕ := none

namespace ClientSocket

/-! ## The socket -/

/-- `close`. -/
def close (t : ClientSocket) : ClientSocket :=
  if t.isOpen then { t with isOpen := false, socket := t.socket + 1 } else t

/-- `async_connect` opens the socket to try an endpoint. -/
def openSocket (t : ClientSocket) : ClientSocket :=
  { t with isOpen := true, socket := t.socket + 1 }

/-- The read that the reader asks for is begun. -/
def beginRead (t : ClientSocket) : ClientSocket :=
  { t with reads := t.reads ++ (t.reader.reading.map fun state =>
      ⟨t.socket, state, t.reader.wanted.getD 0⟩).toList }

/-- The handler posted by `connect`, up to `async_resolve`. -/
def runConnect (t : ClientSocket) : ClientSocket :=
  let t := t.close
  { t with reader := { t.reader with
      readState := .header
      headerBytesRead := 0
      payloadBytesRead := 0
      reading := none } }

/-- The connection has been made: `startRead`. -/
def connected (t : ClientSocket) : ClientSocket :=
  { t with
    made := if t.socket ∈ t.made then t.made else t.made ++ [t.socket]
    reader := t.reader.readHeader }.beginRead

/-- The reader when a read has completed. -/
def readerAfter (host : Endian) (t : ClientSocket) (r : Read) (bs : List UInt8) : PacketReader :=
  let reader := { t.reader with reading := none, closed := false }
  match r.state with
  | .header => reader.onReadHeader host bs
  | .payload => reader.onReadPayload bs

/-- The packets that the handler of the read processes. -/
def packetsAfter (host : Endian) (t : ClientSocket) (r : Read) (bs : List UInt8) : List Packet :=
  (t.readerAfter host r bs).processed.drop t.reader.processed.length

/-- The handlers of `readHeader` and `readPayload` without an error. -/
def onRead (host : Endian) (t : ClientSocket) (r : Read) (bs : List UInt8) : ClientSocket :=
  let reader := t.readerAfter host r bs
  let t := { t with
    reader := reader
    client := (t.packetsAfter host r bs).foldl TcpClient.processPacket t.client }
  -- a header with an invalid length: the socket is closed, and `connected_` stays as it is
  if reader.closed then t.close else t.beginRead

/-- The connected socket that `sendBindPacket` has been called for last, after a step of the client.
A connection that has been closed in the meantime has none. -/
def boundAfter (t : ClientSocket) (e : TcpClient.Event) : Option ℕ :=
  if e = .sendBind then if t.socket ∈ t.made then some t.socket else none else t.bound

/-- A packet that `sendPacket` has accepted in a step of the client. -/
def accepted (host : Endian) (padding : Padding) (t : ClientSocket) (e : TcpClient.Event)
    (p : Packet) : Send where
  bytes := p.serialize host padding
  bind := if e = .sendBind then t.boundAfter e else none
  after := t.boundAfter e
  bind_after := by split <;> simp

/-- The client has taken a step: what `sendPacket` has accepted is posted. -/
def withClient (host : Endian) (padding : Padding) (t : ClientSocket) (e : TcpClient.Event)
    (client : TcpClient) : ClientSocket :=
  { t with
    client := client
    bound := t.boundAfter e
    posts := t.posts ++ (client.sent.drop t.client.sent.length).map (t.accepted host padding e) }

/-- What a step of the client does to the socket. -/
def afterClient (host : Endian) (padding : Padding) (t : ClientSocket) (e : TcpClient.Event)
    (client : TcpClient) : ClientSocket :=
  let t := t.withClient host padding e client
  match e with
  | .runConnect => t.runConnect
  | .stop => t.close
  | _ => t

/-! ## The client and its socket as a machine -/

inductive Event where
  /-- A step of the client that is not the handler of an operation on the socket. -/
  | client (e : TcpClient.Event) (padding : Padding)
  /-- The handler of `async_resolve`. -/
  | resolved (error : Bool)
  /-- `async_connect` tries another endpoint. -/
  | nextEndpoint
  /-- The handler of `async_connect`. -/
  | connectDone (error : Bool)
  /-- The oldest handler posted by `sendPacket` runs. -/
  | runSend
  /-- The handler of the `i`-th outstanding read runs, with bytes, with an error, or because the
  read was aborted. -/
  | readDone (i : ℕ) (bs : List UInt8)
  | readFailed (i : ℕ)
  | readAborted (i : ℕ)
  /-- The handler of the `i`-th write in flight runs. -/
  | writeDone (i : ℕ)
  | writeFailed (i : ℕ)
  | writeAborted (i : ℕ)

/-- The steps of the client that handlers of operations on the socket take. -/
def isHandler : TcpClient.Event → Bool
  | .connectDone _ => true
  | .processPacket _ => true
  | .handleDisconnect => true
  | _ => false

/-- A new handler can run on the strand. -/
def onStrand (t : ClientSocket) (handler : Option ClientSocket) : Option ClientSocket :=
  if t.client.handler.isSome then none else handler

def step (host : Endian) (clientId : List UInt8) (t : ClientSocket) : Event → Option ClientSocket
  | .client e padding =>
    if isHandler e then none
    else (TcpClient.step clientId t.client e).map (t.afterClient host padding e)
  | .resolved error => t.onStrand <|
    if t.client.connecting ≤ t.opening then none
    else if error then
      (TcpClient.step clientId t.client (.connectDone true)).map fun c => { t with client := c }
    else some { t.openSocket with opening := t.opening + 1 }
  | .nextEndpoint => t.onStrand <| if t.opening = 0 then none else some t.openSocket
  | .connectDone error => t.onStrand <|
    if t.opening = 0 then none
    else (TcpClient.step clientId t.client (.connectDone error)).map fun c =>
      let t := { t with client := c, opening := t.opening - 1 }
      if error then t else t.connected
  | .runSend => t.onStrand <|
    match t.posts with
    | f :: rest => some { t with posts := rest, output := t.output.push t.socket f }
    | [] => none
  | .readDone i bs => t.onStrand <| (t.reads[i]?.filter fun r => r.size = bs.length).map fun r =>
      { t with reads := t.reads.eraseIdx i }.onRead host r bs
  | .readFailed i => t.onStrand <| t.reads[i]?.map fun _ =>
      { t with reads := t.reads.eraseIdx i, client := t.client.handleDisconnect }
  | .readAborted i => t.onStrand <| (t.reads[i]?.filter fun r => r.socket ≠ t.socket).map fun _ =>
      { t with reads := t.reads.eraseIdx i }
  | .writeDone i => t.onStrand <| (t.output.complete t.socket i).map fun output =>
      { t with output := output }
  | .writeFailed i => t.onStrand <| (t.output.fail i).map fun output =>
      { t with output := output, client := t.client.handleDisconnect }
  | .writeAborted i => t.onStrand <|
    if t.output.writes[i]?.any fun w => w.1 ≠ t.socket then
      (t.output.fail i).map fun output => { t with output := output }
    else none

/-! ## What a step does -/

variable {host : Endian} {clientId : List UInt8} {t t' : ClientSocket} {e : Event}

/-- The step function, read backwards. -/
inductive Transition (host : Endian) (clientId : List UInt8) (t : ClientSocket) :
    Event → ClientSocket → Prop where
  | client {e : TcpClient.Event} {padding : Padding} {c : TcpClient} (he : isHandler e = false)
      (hne : e ≠ .runConnect ∧ e ≠ .stop)
      (hc : TcpClient.step clientId t.client e = some c) :
      Transition host clientId t (.client e padding) (t.withClient host padding e c)
  | runConnect {padding : Padding} {c : TcpClient}
      (hc : TcpClient.step clientId t.client .runConnect = some c) :
      Transition host clientId t (.client .runConnect padding)
        (t.withClient host padding .runConnect c).runConnect
  | stop {padding : Padding} {c : TcpClient}
      (hc : TcpClient.step clientId t.client .stop = some c) :
      Transition host clientId t (.client .stop padding) (t.withClient host padding .stop c).close
  | opened {e : Event} (opening : ℕ) (he : e = .resolved false ∨ e = .nextEndpoint) :
      Transition host clientId t e { t.openSocket with opening := opening }
  | connectFailed {e : Event} {c : TcpClient} (opening : ℕ)
      (he : e = .resolved true ∨ e = .connectDone true)
      (hc : TcpClient.step clientId t.client (.connectDone true) = some c) :
      Transition host clientId t e { t with client := c, opening := opening }
  | connected {c : TcpClient}
      (hc : TcpClient.step clientId t.client (.connectDone false) = some c) :
      Transition host clientId t (.connectDone false)
        { t with client := c, opening := t.opening - 1 }.connected
  | runSend {f : Send} {rest : List Send} (hposts : t.posts = f :: rest) :
      Transition host clientId t .runSend
        { t with posts := rest, output := t.output.push t.socket f }
  | readDone {i : ℕ} {bs : List UInt8} {r : Read} (hhandler : t.client.handler = none)
      (hr : t.reads[i]? = some r) (hsize : r.size = bs.length) :
      Transition host clientId t (.readDone i bs)
        ({ t with reads := t.reads.eraseIdx i }.onRead host r bs)
  | readFailed {i : ℕ} {r : Read} (hhandler : t.client.handler = none)
      (hr : t.reads[i]? = some r) :
      Transition host clientId t (.readFailed i)
        { t with reads := t.reads.eraseIdx i, client := t.client.handleDisconnect }
  | readAborted {i : ℕ} {r : Read} (hr : t.reads[i]? = some r) (hsocket : r.socket ≠ t.socket) :
      Transition host clientId t (.readAborted i) { t with reads := t.reads.eraseIdx i }
  | writeDone {i : ℕ} {output : WriteQueue ℕ Send}
      (houtput : t.output.complete t.socket i = some output) :
      Transition host clientId t (.writeDone i) { t with output := output }
  | writeFailed {i : ℕ} {output : WriteQueue ℕ Send} (hhandler : t.client.handler = none)
      (houtput : t.output.fail i = some output) :
      Transition host clientId t (.writeFailed i)
        { t with output := output, client := t.client.handleDisconnect }
  | writeAborted {i : ℕ} {output : WriteQueue ℕ Send} {w : ℕ × Send}
      (hw : t.output.writes[i]? = some w) (hsocket : w.1 ≠ t.socket)
      (houtput : t.output.fail i = some output) :
      Transition host clientId t (.writeAborted i) { t with output := output }

/-- A handler runs on the strand when no other one is under way. -/
theorem onStrand_eq_some {r : Option ClientSocket} (h : t.onStrand r = some t') :
    t.client.handler = none ∧ r = some t' := by
  rw [onStrand] at h
  split at h
  · exact absurd h (by simp)
  · exact ⟨by simpa using ‹¬ t.client.handler.isSome = true›, h⟩

/-- Every step is one of the transitions. -/
theorem transition_of_step (h : step host clientId t e = some t') :
    Transition host clientId t e t' := by
  cases e with
  | client e padding =>
    simp only [step] at h
    split at h
    · exact absurd h (by simp)
    · rename_i he
      obtain ⟨c, hc, rfl⟩ := Option.map_eq_some_iff.mp h
      -- these steps of the client come from its socket, in handlers of their own
      cases e with
      | runConnect => exact .runConnect hc
      | stop => exact .stop hc
      | connectDone => exact absurd rfl he
      | processPacket => exact absurd rfl he
      | handleDisconnect => exact absurd rfl he
      | _ => exact .client rfl (by simp) hc
  | resolved error =>
    obtain ⟨-, h⟩ := onStrand_eq_some h
    split at h
    · exact absurd h (by simp)
    · cases error with
      | true =>
        obtain ⟨c, hc, rfl⟩ := Option.map_eq_some_iff.mp h
        exact .connectFailed t.opening (Or.inl rfl) hc
      | false =>
        cases h
        exact .opened _ (Or.inl rfl)
  | nextEndpoint =>
    obtain ⟨-, h⟩ := onStrand_eq_some h
    split at h
    · exact absurd h (by simp)
    · cases h
      exact .opened t.opening (Or.inr rfl)
  | connectDone error =>
    obtain ⟨-, h⟩ := onStrand_eq_some h
    split at h
    · exact absurd h (by simp)
    · obtain ⟨c, hc, rfl⟩ := Option.map_eq_some_iff.mp h
      cases error with
      | true => exact .connectFailed (t.opening - 1) (Or.inr rfl) hc
      | false => exact .connected hc
  | runSend =>
    obtain ⟨-, h⟩ := onStrand_eq_some h
    split at h
    · rename_i f rest hposts
      cases h
      exact .runSend hposts
    · exact absurd h (by simp)
  | readDone i bs =>
    obtain ⟨hhandler, h⟩ := onStrand_eq_some h
    obtain ⟨r, hr, rfl⟩ := Option.map_eq_some_iff.mp h
    obtain ⟨hr, hsize⟩ := Option.filter_eq_some_iff.mp hr
    exact .readDone hhandler hr (of_decide_eq_true hsize)
  | readFailed i =>
    obtain ⟨hhandler, h⟩ := onStrand_eq_some h
    obtain ⟨r, hr, rfl⟩ := Option.map_eq_some_iff.mp h
    exact .readFailed hhandler hr
  | readAborted i =>
    obtain ⟨-, h⟩ := onStrand_eq_some h
    obtain ⟨r, hr, rfl⟩ := Option.map_eq_some_iff.mp h
    obtain ⟨hr, hsocket⟩ := Option.filter_eq_some_iff.mp hr
    exact .readAborted hr (of_decide_eq_true hsocket)
  | writeDone i =>
    obtain ⟨-, h⟩ := onStrand_eq_some h
    obtain ⟨output, houtput, rfl⟩ := Option.map_eq_some_iff.mp h
    exact .writeDone houtput
  | writeFailed i =>
    obtain ⟨hhandler, h⟩ := onStrand_eq_some h
    obtain ⟨output, houtput, rfl⟩ := Option.map_eq_some_iff.mp h
    exact .writeFailed hhandler houtput
  | writeAborted i =>
    obtain ⟨-, h⟩ := onStrand_eq_some h
    split at h
    · rename_i hany
      obtain ⟨w, hw, hsocket⟩ := (Option.any_eq_true _ _).mp hany
      obtain ⟨output, houtput, rfl⟩ := Option.map_eq_some_iff.mp h
      exact .writeAborted hw (of_decide_eq_true hsocket) houtput
    · exact absurd h (by simp)

/-! ## The parts that a step touches -/

/-- `close` leaves the client as it is. -/
@[simp] theorem close_client (t : ClientSocket) : t.close.client = t.client := by
  rw [close]
  split <;> rfl

/-- The reads are aborted, and their handlers are still to run. -/
@[simp] theorem close_reads (t : ClientSocket) : t.close.reads = t.reads := by
  rw [close]
  split <;> rfl

/-- The writes are aborted, and the queue stays as it is. -/
@[simp] theorem close_output (t : ClientSocket) : t.close.output = t.output := by
  rw [close]
  split <;> rfl

/-- `close` makes no connection. -/
@[simp] theorem close_made (t : ClientSocket) : t.close.made = t.made := by
  rw [close]
  split <;> rfl

/-- `close` leaves the posted handlers as they are. -/
@[simp] theorem close_posts (t : ClientSocket) : t.close.posts = t.posts := by
  rw [close]
  split <;> rfl

/-- `close` calls no `sendBindPacket`. -/
@[simp] theorem close_bound (t : ClientSocket) : t.close.bound = t.bound := by
  rw [close]
  split <;> rfl

/-- The next socket has another number. -/
theorem close_socket (t : ClientSocket) : t.close.socket = t.socket + t.isOpen.toNat := by
  rw [close]
  cases t.isOpen with
  | true => rfl
  | false => rfl

/-- After `close` the socket is not open. -/
@[simp] theorem close_isOpen (t : ClientSocket) : t.close.isOpen = false := by
  rw [close]
  split
  · rfl
  · simpa using ‹¬ t.isOpen = true›

/-- A read hands the packets that it completes to `processPacket`. -/
theorem onRead_client (t : ClientSocket) (r : Read) (bs : List UInt8) :
    (t.onRead host r bs).client =
      (t.packetsAfter host r bs).foldl TcpClient.processPacket t.client := by
  simp only [onRead]
  split
  · exact close_client _
  · rfl

/-! ## The socket and what is written to it -/

/-- The event closes the socket when it is open, or opens it. -/
def moves (host : Endian) (t : ClientSocket) : Event → Bool
  | .client .runConnect _ => t.isOpen
  | .client .stop _ => t.isOpen
  | .resolved false => true
  | .nextEndpoint => true
  | .readDone i bs => t.isOpen && t.reads[i]?.any fun r => (t.readerAfter host r bs).closed
  | _ => false

/-- While `sendBindPacket` is still to be called for a connection that has been made, the client
counts as connected. -/
def Binding (t : ClientSocket) : Prop :=
  (t.client.handler = some .connected ∨ ∃ sequence, t.client.handler = some (.bind sequence)) →
    t.client.connected = true

/-- What a step adds to the handlers posted by `sendPacket`: nothing but packets, or the packet of
`sendBindPacket`. -/
inductive PostChange (t t' : ClientSocket) : Prop where
  | packets (new : List Send) (hposts : t'.posts = t.posts ++ new) (hbound : t'.bound = t.bound)
      (hnew : ∀ f ∈ new, f.after = t.bound)
  | bind (new : List Send) (hposts : t'.posts = t.posts ++ new)
      (hbound : t'.bound = if t.socket ∈ t.made then some t.socket else none)
      (hnew : ∀ f ∈ new, f.bind = t'.bound ∧ f.after = t'.bound) (hsent : t.Binding → new ≠ [])

/-- What a step does to the number of the socket, to the connections that have been made, to the
handlers posted by `sendPacket` and to the write queue. -/
inductive OutputChange (host : Endian) (t : ClientSocket) (e : Event) (t' : ClientSocket) :
    Prop where
  | other (hother : e ≠ .connectDone false ∧ e ≠ .runSend ∧ ∀ i, e ≠ .writeFailed i)
      (hsocket : t'.socket = t.socket + (t.moves host e).toNat) (houtput : t'.output = t.output)
      (hmade : t'.made = t.made) (hposts : t.PostChange t')
  | connected (he : e = .connectDone false) (hsocket : t'.socket = t.socket)
      (houtput : t'.output = t.output)
      (hmade : t'.made = if t.socket ∈ t.made then t.made else t.made ++ [t.socket])
      (hposts : t'.posts = t.posts) (hbound : t'.bound = t.bound)
  | push (f : Send) (he : e = .runSend) (hposts : t.posts = f :: t'.posts)
      (hsocket : t'.socket = t.socket) (houtput : t'.output = t.output.push t.socket f)
      (hmade : t'.made = t.made) (hbound : t'.bound = t.bound)
  | complete (i : ℕ) (he : e = .writeDone i) (hsocket : t'.socket = t.socket)
      (houtput : t.output.complete t.socket i = some t'.output) (hmade : t'.made = t.made)
      (hposts : t'.posts = t.posts) (hbound : t'.bound = t.bound)
  | fail (i : ℕ) (he : e = .writeFailed i) (hsocket : t'.socket = t.socket)
      (houtput : t.output.fail i = some t'.output) (hmade : t'.made = t.made)
      (hposts : t'.posts = t.posts) (hbound : t'.bound = t.bound)
  | abort (i : ℕ) (w : ℕ × Send) (he : e = .writeAborted i) (hw : t.output.writes[i]? = some w)
      (hne : w.1 ≠ t.socket) (hsocket : t'.socket = t.socket)
      (houtput : t.output.fail i = some t'.output) (hmade : t'.made = t.made)
      (hposts : t'.posts = t.posts) (hbound : t'.bound = t.bound)

/-- Nothing is posted. -/
theorem PostChange.of_eq (hposts : t'.posts = t.posts) (hbound : t'.bound = t.bound) :
    t.PostChange t' :=
  .packets [] (hposts.trans (List.append_nil _).symm) hbound (List.forall_mem_nil _)

/-- What a step of the client posts. -/
theorem postChange_withClient (host : Endian) (padding : Padding) {e : TcpClient.Event}
    {c : TcpClient}
    (hc : TcpClient.step clientId t.client e = some c) (hposts : t'.posts =
      (t.withClient host padding e c).posts)
    (hbound : t'.bound = (t.withClient host padding e c).bound) : t.PostChange t' := by
  have hafter : t'.bound = t.boundAfter e := hbound
  by_cases he : e = .sendBind
  · subst he
    refine .bind _ hposts hafter ?_ fun hbinding => ?_
    · rw [hafter]
      exact List.forall_mem_map.mpr fun p _ => ⟨rfl, rfl⟩
    · obtain ⟨sequence, hhandler⟩ : ∃ sequence, t.client.handler = some (.bind sequence) := by
        cases TcpClient.stepped_of_step hc with
        | sendBind sequence hhandler => exact ⟨sequence, hhandler⟩
      have hconnected := hbinding (Or.inr ⟨sequence, hhandler⟩)
      -- a connected client accepts the packet
      simp only [TcpClient.step, hhandler, Option.some.injEq] at hc
      subst hc
      simp [TcpClient.sendBind, TcpClient.sendPacket, hconnected]
  · have hsame : t.boundAfter e = t.bound := if_neg he
    exact .packets _ hposts (hafter.trans hsame) (List.forall_mem_map.mpr fun p _ => hsame)

/-- What a step does to the output, by the event. -/
theorem outputChange_of_step (h : step host clientId t e = some t') : OutputChange host t e t' := by
  cases transition_of_step h with
  | @client e padding c he hne hc =>
    refine .other (by simp) ?_ rfl rfl (postChange_withClient host padding hc rfl rfl)
    cases e with
    | runConnect => exact absurd rfl hne.1
    | stop => exact absurd rfl hne.2
    | _ => rfl
  | @runConnect padding c hc =>
    refine .other (by simp) ?_ ?_ ?_
      (postChange_withClient host padding hc ?_ ?_)
    · exact close_socket (t.withClient host padding .runConnect c)
    · exact close_output (t.withClient host padding .runConnect c)
    · exact close_made (t.withClient host padding .runConnect c)
    · exact close_posts (t.withClient host padding .runConnect c)
    · exact close_bound (t.withClient host padding .runConnect c)
  | @stop padding c hc =>
    refine .other (by simp) ?_ ?_ ?_
      (postChange_withClient host padding hc ?_ ?_)
    · exact close_socket (t.withClient host padding .stop c)
    · exact close_output (t.withClient host padding .stop c)
    · exact close_made (t.withClient host padding .stop c)
    · exact close_posts (t.withClient host padding .stop c)
    · exact close_bound (t.withClient host padding .stop c)
  | opened _ he =>
    obtain rfl | rfl := he
    · exact .other (by simp) rfl rfl rfl (.of_eq rfl rfl)
    · exact .other (by simp) rfl rfl rfl (.of_eq rfl rfl)
  | connectFailed _ he =>
    obtain rfl | rfl := he
    · exact .other (by simp) rfl rfl rfl (.of_eq rfl rfl)
    · exact .other (by simp) rfl rfl rfl (.of_eq rfl rfl)
  | connected => exact .connected rfl rfl rfl rfl rfl rfl
  | @runSend f rest hposts => exact .push f rfl hposts rfl rfl rfl rfl
  | @readDone i bs r _ hr =>
    have hafter : ({ t with reads := t.reads.eraseIdx i } : ClientSocket).readerAfter host r bs =
        t.readerAfter host r bs := rfl
    simp only [onRead, hafter]
    -- a header with an invalid length closes the socket
    cases hclosed : (t.readerAfter host r bs).closed with
    | true =>
      refine .other (by simp) ?_ (close_output _) (close_made _)
        (.of_eq (close_posts _) (close_bound _))
      have hmoves : t.moves host (.readDone i bs) = t.isOpen := by
        rw [moves, hr, Option.any_some, hclosed, Bool.and_true]
      rw [hmoves]
      exact close_socket _
    | false =>
      refine .other (by simp) ?_ rfl rfl (.of_eq rfl rfl)
      have hmoves : t.moves host (.readDone i bs) = false := by
        rw [moves, hr, Option.any_some, hclosed, Bool.and_false]
      rw [hmoves]
      rfl
  | readFailed => exact .other (by simp) rfl rfl rfl (.of_eq rfl rfl)
  | readAborted => exact .other (by simp) rfl rfl rfl (.of_eq rfl rfl)
  | writeDone houtput => exact .complete _ rfl rfl houtput rfl rfl rfl
  | writeFailed _ houtput => exact .fail _ rfl rfl houtput rfl rfl rfl
  | writeAborted hw hne houtput => exact .abort _ _ rfl hw hne rfl houtput rfl rfl rfl

/-! ## The client without its socket -/

/-- The steps of the client that an event stands for. -/
def clientEvents (host : Endian) (t : ClientSocket) : Event → List TcpClient.Event
  | .client e _ => [e]
  | .resolved true => [.connectDone true]
  | .connectDone error => [.connectDone error]
  | .readDone i bs =>
    match t.reads[i]? with
    | some r => (t.packetsAfter host r bs).map .processPacket
    | none => []
  | .readFailed _ => [.handleDisconnect]
  | .writeFailed _ => [.handleDisconnect]
  | _ => []

/-- Packets that come in while the strand is free, as steps of the client. -/
theorem run_processPacket {c : TcpClient} (hhandler : c.handler = none) (packets : List Packet) :
    run (TcpClient.step clientId) c (packets.map .processPacket) =
      some (packets.foldl TcpClient.processPacket c) := by
  induction packets generalizing c with
  | nil => rfl
  | cons p packets ih =>
    have hstep : TcpClient.step clientId c (.processPacket p) = some (c.processPacket p) := by
      simp [TcpClient.step, TcpClient.onStrand, hhandler]
    rw [List.map_cons, run_cons, hstep, Option.bind_some, List.foldl_cons]
    refine ih ?_
    rw [TcpClient.processPacket_eq]
    exact hhandler

/-- `handleDisconnect`, as a step of the client. -/
theorem run_handleDisconnect {c : TcpClient} (hhandler : c.handler = none) :
    run (TcpClient.step clientId) c [.handleDisconnect] = some c.handleDisconnect := by
  rw [run_singleton, TcpClient.step, TcpClient.onStrand, hhandler]
  rfl

/-- A step of the socket is a run of the client. -/
theorem client_step (h : step host clientId t e = some t') :
    run (TcpClient.step clientId) t.client (t.clientEvents host e) = some t'.client := by
  cases transition_of_step h with
  | client _ _ hc => exact (run_singleton _ _).trans hc
  | runConnect hc =>
    simp only [clientEvents, ClientSocket.runConnect, close_client]
    exact (run_singleton _ _).trans hc
  | stop hc =>
    rw [close_client]
    exact (run_singleton _ _).trans hc
  -- the socket is opened without the client
  | opened _ he =>
    obtain rfl | rfl := he
    · rfl
    · rfl
  | connectFailed _ he hc =>
    obtain rfl | rfl := he
    · exact (run_singleton _ _).trans hc
    · exact (run_singleton _ _).trans hc
  | connected hc => exact (run_singleton _ _).trans hc
  | runSend => rfl
  | readDone hhandler hr =>
    simp only [clientEvents, hr, onRead_client]
    exact run_processPacket hhandler _
  | readFailed hhandler => exact run_handleDisconnect hhandler
  | readAborted => rfl
  | writeDone => rfl
  | writeFailed hhandler => exact run_handleDisconnect hhandler
  | writeAborted => rfl

/-- What the client does in a run, it can do without its socket. -/
theorem client_run {es : List Event} {u : ClientSocket}
    (h : run (step host clientId) t es = some u) :
    ∃ fs, run (TcpClient.step clientId) t.client fs = some u.client :=
  run_project (fun _ _ _ h => client_step h) h

end ClientSocket

end TurboNet.Asio
