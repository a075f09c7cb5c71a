import TurboNet.Common.Machine
import TurboNet.Common.Table

/-!
# The epoll server and its file descriptors

Reference: `claude/server.cpp`, `TcpServer::start`, `TcpServer::handleNewConnection`,
`TcpServer::handleExistingConnection`, `TcpServer::removeConnection`, `TcpServer::stop`,
`Connection::~Connection`.

The server knows its connections by their file descriptors. A descriptor is closed by the destructor
of its connection, when nobody refers to the connection any more: not the map, not a task, not a
function of the event loop. After that the kernel may give the same number to a new connection.

`TcpServer.step` is the event loop, which takes the events of a batch one after another, with any
number of workers. `handleNewConnection` is four steps: the descriptor, the interest list of epoll,
the map, and its end. `handleExistingConnection` looks the number up in the map, enqueues a task,
and takes the connection out, the latter in two steps, as in a worker. What `recv` returns to a
worker is open, and so is which number `accept` returns, as long as no connection has it. `running`
only says when the loop ends and is not part of the model.

An event carries a number, not a connection. `ownConnection_of_freshNumbers` says that it acts on
the connection it was raised for, unless another connection is accepted under its number before it
is handled; that a worker never takes out a connection other than its own; and that a connection
that is accepted under the number of an unhandled event can suffer from it.
-/

namespace TurboNet.Epoll

open Common

/-- `MAX_EVENTS`. -/
def maxEvents : ℕ := 64

/-- A `Connection` object. The objects are numbered in the order of their creation. -/
structure Conn where
  id : ℕ
  sockfd : ℕ
deriving DecidableEq

/-- An event that `epoll_wait` has returned for a connection. -/
structure PollEvent where
  fd : ℕ
  /-- `EPOLLIN`. -/
  readable : Bool
  /-- `EPOLLERR` or `EPOLLHUP`. -/
  failed : Bool
  /-- History: the connection that was registered under the number when the event was reported. -/
  raisedFor : Conn
deriving DecidableEq

/-- An element of a batch: an event of the server socket, or of a connection. -/
inductive Item where
  | listen
  | connection (e : PollEvent)
deriving DecidableEq

def Item.event : Item → Option PollEvent
  | .listen => none
  | .connection e => some e

/-- The number that an element carries, `none` for that of the server socket. -/
def Item.fd (i : Item) : Option ℕ := i.event.map PollEvent.fd

/-- Where the event loop is in the handling of an event. In the last three phases it has found a
connection under the number of the event. -/
inductive LoopPhase where
  | idle
  | accepted (c : Conn)
  | added (c : Conn)
  | inserted (c : Conn)
  | found (e : PollEvent) (c : Conn)
  | checked (e : PollEvent) (c : Conn)
  | erasing (e : PollEvent) (c : Conn)
deriving DecidableEq

/-- The connection that a function of the event loop refers to. -/
def LoopPhase.connection : LoopPhase → Option Conn
  | .idle => none
  | .accepted c => some c
  | .added c => some c
  | .inserted c => some c
  | .found _ c => some c
  | .checked _ c => some c
  | .erasing _ c => some c

/-- The event that is being handled. -/
def LoopPhase.event : LoopPhase → Option PollEvent
  | .found e _ => some e
  | .checked e _ => some e
  | .erasing e _ => some e
  | _ => none

/-- A task that a worker runs: before `readData`, and in `removeConnection` before `epoll_ctl` and
before `erase`. -/
inductive Task where
  | reading (c : Conn)
  | removing (c : Conn)
  | erasing (c : Conn)
deriving DecidableEq

def Task.connection : Task → Conn
  | .reading c => c
  | .removing c => c
  | .erasing c => c

/-- What `readData` returns. -/
inductive ReadResult where
  | data
  | closed
  | again
  | error
deriving DecidableEq

/-- The task takes the connection out. -/
def ReadResult.removes : ReadResult → Bool
  | .closed => true
  | .error => true
  | _ => false

structure TcpServer where
  connections : Std.TreeMap ℕ Conn := ∅
  /-- The interest list of epoll. Closing a descriptor takes it out of the list, so an entry counts
  only while its connection is open. -/
  polled : Std.TreeMap ℕ Conn := ∅
  batch : List Item := []
  loop : LoopPhase := .idle
  tasks : List Conn := []
  workers : List Task := []
  /-- The connections whose descriptors are open. -/
  opened : List Conn := []
  /-- How many connections there have been. -/
  created : ℕ := 0

namespace TcpServer

/-- Somebody refers to the connection. -/
def Held (t : TcpServer) (c : Conn) : Prop :=
  t.connections[c.sockfd]? = some c ∨ c ∈ t.tasks ∨ c ∈ t.workers.map Task.connection ∨
    t.loop.connection = some c

instance (t : TcpServer) (c : Conn) : Decidable (t.Held c) :=
  inferInstanceAs (Decidable (t.connections[c.sockfd]? = some c ∨ c ∈ t.tasks ∨
    c ∈ t.workers.map Task.connection ∨ t.loop.connection = some c))

/-- The kernel can report the element: a connection is in the interest list and open, and at least
one of the flags is set. -/
def reports (t : TcpServer) : Item → Bool
  | .listen => true
  | .connection e => decide (t.polled[e.fd]? = some e.raisedFor) &&
      decide (e.raisedFor ∈ t.opened) && (e.readable || e.failed)

/-- `epoll_wait` can return the batch: no descriptor is in it twice. -/
def Reports (t : TcpServer) (items : List Item) : Prop :=
  items.length ≤ maxEvents ∧ (items.map Item.fd).Nodup ∧ ∀ i ∈ items, t.reports i = true

instance (t : TcpServer) (items : List Item) : Decidable (t.Reports items) :=
  inferInstanceAs (Decidable (items.length ≤ maxEvents ∧ (items.map Item.fd).Nodup ∧
    ∀ i ∈ items, t.reports i = true))

inductive Event where
  | epollWait (items : List Item)
  /-- The steps of `handleNewConnection`; `accept` may fail, and so may `epoll_ctl`. -/
  | accept (fd : Option ℕ)
  | addToEpoll (ok : Bool)
  | insertConnection
  | welcome
  /-- The steps of `handleExistingConnection`. -/
  | findConnection
  | checkRead
  | checkError
  | erase
  /-- The steps of a worker. -/
  | runTask
  | readData (w : ℕ) (result : ReadResult)
  | deleteByWorker (w : ℕ)
  | eraseByWorker (w : ℕ)
  /-- The destructor of a connection. -/
  | close (c : Conn)
  | stop
deriving DecidableEq

/-- `accept` returns a number. -/
def accept (t : TcpServer) (rest : List Item) (fd : ℕ) : TcpServer :=
  { t with
    batch := rest
    loop := .accepted ⟨t.created, fd⟩
    opened := t.opened ++ [⟨t.created, fd⟩]
    created := t.created + 1 }

/-- `handleExistingConnection` looks for the connection. -/
def findConnection (t : TcpServer) (e : PollEvent) (rest : List Item) : TcpServer :=
  { t with
    batch := rest
    loop := (t.connections[e.fd]?).elim .idle (.found e) }

def step (t : TcpServer) : Event → Option TcpServer
  | .epollWait items =>
    if t.loop = .idle ∧ t.batch = [] ∧ t.Reports items then some { t with batch := items } else none
  | .accept fd =>
    match t.loop, t.batch, fd with
    | .idle, .listen :: rest, some fd =>
      if fd ∈ t.opened.map Conn.sockfd then none else some (t.accept rest fd)
    | .idle, .listen :: rest, none => some { t with batch := rest }
    | _, _, _ => none
  | .addToEpoll ok =>
    match t.loop with
    | .accepted c =>
      if ok then some { t with polled := t.polled.insert c.sockfd c, loop := .added c }
      else some { t with loop := .idle }
    | _ => none
  | .insertConnection =>
    match t.loop with
    | .added c =>
      some { t with connections := t.connections.insert c.sockfd c, loop := .inserted c }
    | _ => none
  | .welcome =>
    match t.loop with
    | .inserted _ => some { t with loop := .idle }
    | _ => none
  | .findConnection =>
    match t.loop, t.batch with
    | .idle, .connection e :: rest => some (t.findConnection e rest)
    | _, _ => none
  | .checkRead =>
    match t.loop with
    | .found e c =>
      some { t with tasks := if e.readable then t.tasks ++ [c] else t.tasks, loop := .checked e c }
    | _ => none
  | .checkError =>
    match t.loop with
    | .checked e c =>
      if e.failed then some { t with polled := t.polled.erase e.fd, loop := .erasing e c }
      else some { t with loop := .idle }
    | _ => none
  | .erase =>
    match t.loop with
    | .erasing e _ => some { t with connections := t.connections.erase e.fd, loop := .idle }
    | _ => none
  | .runTask =>
    match t.tasks with
    | c :: rest => some { t with tasks := rest, workers := t.workers ++ [.reading c] }
    | [] => none
  | .readData w result =>
    match t.workers[w]? with
    | some (.reading c) =>
      if result.removes then some { t with workers := t.workers.set w (.removing c) }
      else some { t with workers := t.workers.eraseIdx w }
    | _ => none
  | .deleteByWorker w =>
    match t.workers[w]? with
    | some (.removing c) =>
      some { t with polled := t.polled.erase c.sockfd, workers := t.workers.set w (.erasing c) }
    | _ => none
  | .eraseByWorker w =>
    match t.workers[w]? with
    | some (.erasing c) =>
      some { t with
        connections := t.connections.erase c.sockfd
        workers := t.workers.eraseIdx w }
    | _ => none
  | .close c =>
    if c ∈ t.opened ∧ ¬ t.Held c then some { t with opened := t.opened.erase c } else none
  | .stop => some { t with connections := ∅ }

/-- The events of the batch and of the loop that have not been handled to their end. -/
def events (t : TcpServer) : List PollEvent :=
  t.loop.event.toList ++ t.batch.filterMap Item.event

/-- What the event loop enqueues or takes out is the connection that its event was raised for, and
what a worker takes out is the connection that its task is about. -/
def OwnConnection (t : TcpServer) : Event → Prop
  | .checkRead => ∀ e c, t.loop = .found e c → e.readable = true → c = e.raisedFor
  | .erase => ∀ e c, t.loop = .erasing e c → ∀ d, t.connections[e.fd]? = some d → d = e.raisedFor
  | .eraseByWorker w => ∀ c, t.workers[w]? = some (.erasing c) →
      ∀ d, t.connections[c.sockfd]? = some d → d = c
  | _ => True

/-- No connection is accepted under the number of an event that waits to be handled. -/
def FreshNumber (t : TcpServer) (e : Event) : Prop :=
  ∀ x ∈ t.events, e ≠ .accept (some x.fd)

instance (t : TcpServer) (e : Event) : Decidable (t.FreshNumber e) :=
  inferInstanceAs (Decidable (∀ x ∈ t.events, e ≠ .accept (some x.fd)))

/-! ## What a step does -/

variable {t t' : TcpServer} {e : Event} {c : Conn}

inductive Change (t : TcpServer) : Event → TcpServer → Prop where
  | epollWait {items : List Item} (hloop : t.loop = .idle) (hbatch : t.batch = [])
      (hreports : t.Reports items) : Change t (.epollWait items) { t with batch := items }
  | accept {rest : List Item} {fd : ℕ} (hloop : t.loop = .idle) (hbatch : t.batch = .listen :: rest)
      (hfd : fd ∉ t.opened.map Conn.sockfd) : Change t (.accept (some fd)) (t.accept rest fd)
  | acceptFailed {rest : List Item} (hloop : t.loop = .idle) (hbatch : t.batch = .listen :: rest) :
      Change t (.accept none) { t with batch := rest }
  | added {c : Conn} (hloop : t.loop = .accepted c) :
      Change t (.addToEpoll true)
        { t with polled := t.polled.insert c.sockfd c, loop := .added c }
  | addFailed {c : Conn} (hloop : t.loop = .accepted c) :
      Change t (.addToEpoll false) { t with loop := .idle }
  | inserted {c : Conn} (hloop : t.loop = .added c) :
      Change t .insertConnection
        { t with connections := t.connections.insert c.sockfd c, loop := .inserted c }
  | welcome {c : Conn} (hloop : t.loop = .inserted c) : Change t .welcome { t with loop := .idle }
  | find {x : PollEvent} {rest : List Item} (hloop : t.loop = .idle)
      (hbatch : t.batch = .connection x :: rest) :
      Change t .findConnection (t.findConnection x rest)
  | checkRead {x : PollEvent} {c : Conn} (hloop : t.loop = .found x c) :
      Change t .checkRead
        { t with tasks := if x.readable then t.tasks ++ [c] else t.tasks, loop := .checked x c }
  | delete {x : PollEvent} {c : Conn} (hloop : t.loop = .checked x c) (hfailed : x.failed = true) :
      Change t .checkError { t with polled := t.polled.erase x.fd, loop := .erasing x c }
  | handled {x : PollEvent} {c : Conn} (hloop : t.loop = .checked x c)
      (hfailed : x.failed = false) : Change t .checkError { t with loop := .idle }
  | erase {x : PollEvent} {c : Conn} (hloop : t.loop = .erasing x c) :
      Change t .erase { t with connections := t.connections.erase x.fd, loop := .idle }
  | runTask {c : Conn} {rest : List Conn} (htasks : t.tasks = c :: rest) :
      Change t .runTask { t with tasks := rest, workers := t.workers ++ [.reading c] }
  | remove {w : ℕ} {result : ReadResult} {c : Conn} (hw : t.workers[w]? = some (.reading c)) :
      Change t (.readData w result) { t with workers := t.workers.set w (.removing c) }
  | finish {w : ℕ} {result : ReadResult} {c : Conn} (hw : t.workers[w]? = some (.reading c)) :
      Change t (.readData w result) { t with workers := t.workers.eraseIdx w }
  | deleteByWorker {w : ℕ} {c : Conn} (hw : t.workers[w]? = some (.removing c)) :
      Change t (.deleteByWorker w)
        { t with polled := t.polled.erase c.sockfd, workers := t.workers.set w (.erasing c) }
  | eraseByWorker {w : ℕ} {c : Conn} (hw : t.workers[w]? = some (.erasing c)) :
      Change t (.eraseByWorker w)
        { t with connections := t.connections.erase c.sockfd, workers := t.workers.eraseIdx w }
  | close {c : Conn} (hopen : c ∈ t.opened) (hheld : ¬ t.Held c) :
      Change t (.close c) { t with opened := t.opened.erase c }
  | stop : Change t .stop { t with connections := ∅ }

/-- Every step is one of the changes. -/
theorem change_of_step (h : t.step e = some t') : Change t e t' := by
  cases e with
  | epollWait items =>
    obtain ⟨⟨hloop, hbatch, hreports⟩, heq⟩ := Option.ite_none_right_eq_some.mp h
    exact Option.some.inj heq ▸ .epollWait hloop hbatch hreports
  | accept fd =>
    simp only [step] at h
    split at h
    · obtain ⟨hfd, heq⟩ := Option.ite_none_left_eq_some.mp h
      exact Option.some.inj heq ▸ .accept ‹_› ‹_› hfd
    · exact Option.some.inj h ▸ .acceptFailed ‹_› ‹_›
    · exact absurd h (by simp)
  | addToEpoll ok =>
    simp only [step] at h
    split at h
    · cases ok with
      | true => exact Option.some.inj h ▸ .added ‹_›
      | false => exact Option.some.inj h ▸ .addFailed ‹_›
    · exact absurd h (by simp)
  | insertConnection =>
    simp only [step] at h
    split at h
    · exact Option.some.inj h ▸ .inserted ‹_›
    · exact absurd h (by simp)
  | welcome =>
    simp only [step] at h
    split at h
    · exact Option.some.inj h ▸ .welcome ‹_›
    · exact absurd h (by simp)
  | findConnection =>
    simp only [step] at h
    split at h
    · exact Option.some.inj h ▸ .find ‹_› ‹_›
    · exact absurd h (by simp)
  | checkRead =>
    simp only [step] at h
    split at h
    · exact Option.some.inj h ▸ .checkRead ‹_›
    · exact absurd h (by simp)
  | checkError =>
    simp only [step] at h
    split at h
    · split at h
      · exact Option.some.inj h ▸ .delete ‹_› ‹_›
      · exact Option.some.inj h ▸ .handled ‹_› (Bool.eq_false_iff.mpr ‹_›)
    · exact absurd h (by simp)
  | erase =>
    simp only [step] at h
    split at h
    · exact Option.some.inj h ▸ .erase ‹_›
    · exact absurd h (by simp)
  | runTask =>
    simp only [step] at h
    split at h
    · exact Option.some.inj h ▸ .runTask ‹_›
    · exact absurd h (by simp)
  -- a `recv` of nothing, or one that fails, removes the connection
  | readData w result =>
    simp only [step] at h
    split at h
    · split at h
      · exact Option.some.inj h ▸ .remove ‹_›
      · exact Option.some.inj h ▸ .finish ‹_›
    · exact absurd h (by simp)
  | deleteByWorker w =>
    simp only [step] at h
    split at h
    · exact Option.some.inj h ▸ .deleteByWorker ‹_›
    · exact absurd h (by simp)
  | eraseByWorker w =>
    simp only [step] at h
    split at h
    · exact Option.some.inj h ▸ .eraseByWorker ‹_›
    · exact absurd h (by simp)
  | close c =>
    obtain ⟨⟨hopen, hheld⟩, heq⟩ := Option.ite_none_right_eq_some.mp h
    exact Option.some.inj heq ▸ .close hopen hheld
  | stop => exact Option.some.inj h ▸ .stop

/-! ## References keep a descriptor open -/

/-- The connection of a task that goes on. -/
theorem mem_map_set {w : ℕ} {a b : Task} {l : List Task}
    (h : c ∈ (l.set w b).map Task.connection) (hw : l[w]? = some a)
    (hb : b.connection = a.connection) : c ∈ l.map Task.connection := by
  obtain ⟨x, hx, rfl⟩ := List.mem_map.mp h
  rcases List.mem_or_eq_of_mem_set hx with hmem | rfl
  · exact List.mem_map_of_mem hmem
  · exact hb ▸ List.mem_map_of_mem (List.mem_of_getElem? hw)

/-- What is left of the tasks was there before. -/
theorem mem_map_eraseIdx {w : ℕ} {l : List Task} (h : c ∈ (l.eraseIdx w).map Task.connection) :
    c ∈ l.map Task.connection :=
  List.map_subset _ (List.eraseIdx_subset) h

/-- A connection that is found in the map was there, or has just been added under its own number. -/
theorem mapped_step {fd : ℕ} (h : t.step e = some t') (hc : t'.connections[fd]? = some c) :
    t.connections[fd]? = some c ∨ t.loop = .added c ∧ c.sockfd = fd := by
  cases change_of_step h with
  | @inserted d hloop =>
    rcases eq_or_getElem?_of_insert hc with ⟨hfd, rfl⟩ | hc
    · exact .inr ⟨hloop, hfd⟩
    · exact .inl hc
  | erase _ => exact .inl (getElem?_of_erase hc)
  | eraseByWorker _ => exact .inl (getElem?_of_erase hc)
  | stop => exact absurd hc (by simp)
  | _ => exact .inl hc

/-- A task was there, or is the one that the event loop enqueues. -/
theorem mem_tasks_step (h : t.step e = some t') (hc : c ∈ t'.tasks) :
    c ∈ t.tasks ∨ t.loop.connection = some c := by
  cases change_of_step h with
  | @checkRead x d hloop =>
    dsimp only at hc
    split at hc
    · rcases List.mem_append.mp hc with hmem | hmem
      · exact .inl hmem
      · rw [List.mem_singleton.mp hmem, hloop]
        exact .inr rfl
    · exact .inl hc
  | runTask htasks => exact .inl (htasks ▸ List.mem_cons_of_mem _ hc)
  | _ => exact .inl hc

/-- What a worker is busy with, it was busy with or it has taken from the queue. -/
theorem mem_workers_step (h : t.step e = some t') (hc : c ∈ t'.workers.map Task.connection) :
    c ∈ t.workers.map Task.connection ∨ c ∈ t.tasks := by
  cases change_of_step h with
  | @runTask d rest htasks =>
    rw [List.map_append] at hc
    rcases List.mem_append.mp hc with hmem | hmem
    · exact .inl hmem
    · obtain rfl : c = d := by simpa [Task.connection] using hmem
      exact .inr (htasks ▸ List.mem_cons_self)
  | remove hw => exact .inl (mem_map_set hc hw rfl)
  | finish _ => exact .inl (mem_map_eraseIdx hc)
  | deleteByWorker hw => exact .inl (mem_map_set hc hw rfl)
  | eraseByWorker _ => exact .inl (mem_map_eraseIdx hc)
  | _ => exact .inl hc

/-- The event loop refers to a connection because it did so before, has found it, or has accepted
it. -/
theorem loop_step (h : t.step e = some t') (hc : t'.loop.connection = some c) :
    t.loop.connection = some c ∨
      (∃ x, t'.loop = .found x c ∧ t.connections[x.fd]? = some c) ∨
      ∃ fd, e = .accept (some fd) ∧ c = ⟨t.created, fd⟩ := by
  cases change_of_step h with
  | accept => exact .inr (.inr ⟨_, rfl, (Option.some.inj hc).symm⟩)
  | added hloop => exact .inl (hloop ▸ hc)
  | inserted hloop => exact .inl (hloop ▸ hc)
  | @find x rest hloop hbatch =>
    cases hx : t.connections[x.fd]? with
    | none => simp [findConnection, hx, LoopPhase.connection] at hc
    | some d =>
      obtain rfl : d = c := by simpa [findConnection, hx, LoopPhase.connection] using hc
      exact .inr (.inl ⟨x, by simp [findConnection, hx], hx⟩)
  | checkRead hloop => exact .inl (hloop ▸ hc)
  | delete hloop => exact .inl (hloop ▸ hc)
  | addFailed => exact absurd hc (by simp [LoopPhase.connection])
  | welcome => exact absurd hc (by simp [LoopPhase.connection])
  | handled => exact absurd hc (by simp [LoopPhase.connection])
  | erase => exact absurd hc (by simp [LoopPhase.connection])
  | _ => exact .inl hc

/-- Nobody comes to refer to a connection but through a reference that is there, or by `accept`. -/
theorem held_step (hmapped : ∀ (fd : ℕ) (c : Conn), t.connections[fd]? = some c → c.sockfd = fd)
    (h : t.step e = some t') (hheld : t'.Held c) :
    t.Held c ∨ ∃ fd, e = .accept (some fd) ∧ c = ⟨t.created, fd⟩ := by
  rcases hheld with hmap | htasks | hworkers | hloop
  · rcases mapped_step h hmap with hmap | ⟨hloop, -⟩
    · exact .inl (.inl hmap)
    · exact .inl (.inr (.inr (.inr (by rw [hloop]; rfl))))
  · rcases mem_tasks_step h htasks with htasks | hloop
    · exact .inl (.inr (.inl htasks))
    · exact .inl (.inr (.inr (.inr hloop)))
  · rcases mem_workers_step h hworkers with hworkers | htasks
    · exact .inl (.inr (.inr (.inl hworkers)))
    · exact .inl (.inr (.inl htasks))
  · rcases loop_step h hloop with hloop | ⟨x, -, hmap⟩ | hnew
    · exact .inl (.inr (.inr (.inr hloop)))
    · exact .inl (.inl (by rwa [hmapped _ _ hmap]))
    · exact .inr hnew

/-- What is open was open, or has just been accepted under a number that was free. -/
theorem opened_step (h : t.step e = some t') (hc : c ∈ t'.opened) :
    c ∈ t.opened ∨ ∃ fd, e = .accept (some fd) ∧ c = ⟨t.created, fd⟩ ∧
      fd ∉ t.opened.map Conn.sockfd := by
  cases change_of_step h with
  | accept _ _ hfd =>
    rcases List.mem_append.mp hc with hmem | hmem
    · exact .inl hmem
    · exact .inr ⟨_, rfl, List.mem_singleton.mp hmem, hfd⟩
  | close _ _ => exact .inl (List.mem_of_mem_erase hc)
  | _ => exact .inl hc

/-- What somebody refers to is not closed. -/
theorem mem_opened_step (h : t.step e = some t') (hc : c ∈ t.opened) (hheld : t'.Held c) :
    c ∈ t'.opened := by
  cases change_of_step h with
  | accept => exact List.mem_append_left _ hc
  | @close d _ hd =>
    refine (List.mem_erase_of_ne ?_).mpr hc
    rintro rfl
    exact hd hheld
  | _ => exact hc

/-! ## The invariant -/

/-- No two connections that are open have the same descriptor, and what somebody refers to is open.
Connections are found under their own descriptors. -/
structure Consistent (t : TcpServer) : Prop where
  distinct : ∀ c ∈ t.opened, ∀ d ∈ t.opened, c.sockfd = d.sockfd → c = d
  held : ∀ c, t.Held c → c ∈ t.opened
  older : ∀ c ∈ t.opened, c.id < t.created
  mapped : ∀ (fd : ℕ) (c : Conn), t.connections[fd]? = some c → c.sockfd = fd
  polled : ∀ (fd : ℕ) (c : Conn), t.polled[fd]? = some c → c.sockfd = fd
  found : ∀ x c, t.loop.event = some x → t.loop.connection = some c → c.sockfd = x.fd

/-- Nothing is open at the start. -/
theorem consistent_start : Consistent {} where
  distinct := List.forall_mem_nil _
  held c hc := by simp [Held, LoopPhase.connection] at hc
  older := List.forall_mem_nil _
  mapped fd c hc := absurd hc (by simp)
  polled fd c hc := absurd hc (by simp)
  found x c hx := absurd hx (by simp [LoopPhase.event])

/-- A connection that is accepted is open, and is the next one by its number. -/
theorem mem_opened_of_accept {fd : ℕ} (h : t.step (.accept (some fd)) = some t') :
    t'.opened = t.opened ++ [⟨t.created, fd⟩] ∧ t'.created = t.created + 1 := by
  cases change_of_step h with
  | accept => exact ⟨rfl, rfl⟩

/-- Connections are not created backwards. -/
theorem created_step (h : t.step e = some t') : t.created ≤ t'.created := by
  cases change_of_step h with
  | accept => exact Nat.le_succ _
  | _ => exact Nat.le_refl _

/-- No two open connections get the same descriptor. -/
theorem Consistent.distinct_step (hI : t.Consistent) (h : t.step e = some t') :
    ∀ c ∈ t'.opened, ∀ d ∈ t'.opened, c.sockfd = d.sockfd → c = d := by
  intro c hc d hd heq
  rcases opened_step h hc with hc | ⟨fd, rfl, rfl, hfd⟩
  · rcases opened_step h hd with hd | ⟨fd, rfl, rfl, hfd⟩
    · exact hI.distinct c hc d hd heq
    · exact absurd (List.mem_map.mpr ⟨c, hc, heq⟩) hfd
  · rcases opened_step h hd with hd | ⟨fd', hfd', rfl, -⟩
    · exact absurd (List.mem_map.mpr ⟨d, hd, heq.symm⟩) hfd
    · rw [Conn.mk.injEq]
      exact ⟨rfl, heq⟩

/-- The interest list has connections under their own descriptors. -/
theorem Consistent.polled_step (hI : t.Consistent) (h : t.step e = some t') {fd : ℕ}
    (hc : t'.polled[fd]? = some c) : c.sockfd = fd := by
  cases change_of_step h with
  | @added d hloop =>
    rcases eq_or_getElem?_of_insert hc with ⟨hfd, rfl⟩ | hc
    · exact hfd
    · exact hI.polled fd c hc
  | delete _ _ => exact hI.polled fd c (getElem?_of_erase hc)
  | deleteByWorker _ => exact hI.polled fd c (getElem?_of_erase hc)
  | _ => exact hI.polled fd c hc

/-- The event that is being handled goes on being handled, or it comes from the batch. -/
theorem loop_event_step {x : PollEvent} (h : t.step e = some t') (hx : t'.loop.event = some x) :
    t.loop.event = some x ∧ t'.loop.connection = t.loop.connection ∨
      .connection x ∈ t.batch ∧ t'.loop.connection = t.connections[x.fd]? := by
  cases change_of_step h with
  | @find y rest hloop hbatch =>
    cases hy : t.connections[y.fd]? with
    | none => simp [findConnection, hy, LoopPhase.event] at hx
    | some d =>
      obtain rfl : y = x := by simpa [findConnection, hy, LoopPhase.event] using hx
      refine .inr ⟨hbatch ▸ List.mem_cons_self, ?_⟩
      simp [findConnection, hy, LoopPhase.connection]
  | checkRead hloop => exact .inl ⟨hloop ▸ hx, by rw [hloop]; rfl⟩
  | delete hloop => exact .inl ⟨hloop ▸ hx, by rw [hloop]; rfl⟩
  | accept => exact absurd hx (by simp [accept, LoopPhase.event])
  | added => exact absurd hx (by simp [LoopPhase.event])
  | addFailed => exact absurd hx (by simp [LoopPhase.event])
  | inserted => exact absurd hx (by simp [LoopPhase.event])
  | welcome => exact absurd hx (by simp [LoopPhase.event])
  | handled => exact absurd hx (by simp [LoopPhase.event])
  | erase => exact absurd hx (by simp [LoopPhase.event])
  | _ => exact .inl ⟨hx, rfl⟩

/-- Every step keeps this. -/
theorem Consistent.step (hI : t.Consistent) (h : t.step e = some t') : t'.Consistent where
  distinct := hI.distinct_step h
  held c hc := by
    rcases held_step hI.mapped h hc with hheld | ⟨fd, rfl, rfl⟩
    · exact mem_opened_step h (hI.held c hheld) hc
    · rw [(mem_opened_of_accept h).1]
      exact List.mem_append_right _ (List.mem_singleton_self _)
  older c hc := by
    rcases opened_step h hc with hc | ⟨fd, rfl, rfl, -⟩
    · exact Nat.lt_of_lt_of_le (hI.older c hc) (created_step h)
    · rw [(mem_opened_of_accept h).2]
      exact Nat.lt_succ_self _
  mapped fd c hc := by
    rcases mapped_step h hc with hc | ⟨-, hfd⟩
    · exact hI.mapped fd c hc
    · exact hfd
  polled fd c hc := hI.polled_step h hc
  found x c hx hc := by
    rcases loop_event_step h hx with ⟨hx, hsame⟩ | ⟨-, hsame⟩
    · exact hI.found x c hx (hsame ▸ hc)
    · exact hI.mapped _ _ (hsame ▸ hc)

/-! ## Events that nobody disputes -/

/-- An event that has not been handled is with the loop or in the batch. -/
theorem mem_events {x : PollEvent} :
    x ∈ t.events ↔ t.loop.event = some x ∨ .connection x ∈ t.batch := by
  have hitem (i : Item) : i.event = some x ↔ i = .connection x := by
    cases i <;> simp [Item.event]
  simp [events, hitem]

/-- An event that has not been handled was there before, or has just been reported. -/
theorem events_step {x : PollEvent} (h : t.step e = some t') (hx : x ∈ t'.events) :
    x ∈ t.events ∨ ∃ items, e = .epollWait items ∧ .connection x ∈ items ∧ t.Reports items := by
  rcases mem_events.mp hx with hloop | hbatch
  · refine .inl (mem_events.mpr ?_)
    exact (loop_event_step h hloop).imp And.left And.left
  · cases change_of_step h with
    | epollWait _ _ hreports => exact .inr ⟨_, rfl, hbatch, hreports⟩
    | accept _ hold _ =>
      exact .inl (mem_events.mpr (.inr (hold ▸ List.mem_cons_of_mem _ hbatch)))
    | acceptFailed _ hold =>
      exact .inl (mem_events.mpr (.inr (hold ▸ List.mem_cons_of_mem _ hbatch)))
    | find _ hold =>
      exact .inl (mem_events.mpr (.inr (hold ▸ List.mem_cons_of_mem _ hbatch)))
    | _ => exact .inl (mem_events.mpr (.inr hbatch))

/-- What is open under the number of an event is the connection that the event was raised for. -/
def Undisputed (t : TcpServer) : Prop :=
  ∀ x ∈ t.events, ∀ d ∈ t.opened, d.sockfd = x.fd → d = x.raisedFor

/-- Every step keeps this, if no connection is accepted under the number of an event that waits. -/
theorem Undisputed.step (hU : t.Undisputed) (hI : t.Consistent) (hC : t.FreshNumber e)
    (h : t.step e = some t') : t'.Undisputed := by
  intro x hx d hd hfd
  rcases events_step h hx with hx | ⟨items, rfl, hmem, -, -, hreports⟩
  · rcases opened_step h hd with hd | ⟨fd, rfl, rfl, -⟩
    · exact hU x hx d hd hfd
    · exact absurd (by rw [← hfd]) (hC x hx)
  · have hreported := hreports _ hmem
    simp only [reports, Bool.and_eq_true, decide_eq_true_eq] at hreported
    obtain ⟨⟨hpolled, hopen⟩, -⟩ := hreported
    rcases opened_step h hd with hd | ⟨fd, hne, -⟩
    · exact hI.distinct d hd _ hopen (hfd.trans (hI.polled _ _ hpolled).symm)
    · exact absurd hne (by simp)

/-- A worker takes out its own connection at most: while it refers to it, nobody else has the
number. -/
theorem Consistent.eraseByWorker (hI : t.Consistent) (w : ℕ) :
    t.OwnConnection (.eraseByWorker w) := by
  intro c hc d hd
  have hmem : c ∈ t.workers.map Task.connection :=
    List.mem_map_of_mem (f := Task.connection) (List.mem_of_getElem? hc)
  have hfd := hI.mapped _ d hd
  exact hI.distinct d (hI.held d (.inl (hfd ▸ hd))) c (hI.held c (.inr (.inr (.inl hmem)))) hfd

/-- Where what is open is what the events were raised for, every step is about its own
connection. -/
theorem Undisputed.ownConnection (hU : t.Undisputed) (hI : t.Consistent) (e : Event) :
    t.OwnConnection e := by
  cases e with
  | checkRead =>
    intro x c hloop _
    have hx : x ∈ t.events := mem_events.mpr (.inl (by rw [hloop]; rfl))
    have hc : t.loop.connection = some c := by rw [hloop]; rfl
    exact hU x hx c (hI.held c (.inr (.inr (.inr hc)))) (hI.found x c (by rw [hloop]; rfl) hc)
  | erase =>
    intro x c hloop d hd
    have hx : x ∈ t.events := mem_events.mpr (.inl (by rw [hloop]; rfl))
    have hfd := hI.mapped _ d hd
    exact hU x hx d (hI.held d (.inl (hfd ▸ hd))) hfd
  | eraseByWorker w => exact hI.eraseByWorker w
  | _ => trivial

/-! ## An event that hits a newer connection -/

/-- What is known of the events that have not been handled: no descriptor occurs twice in a batch,
every event has a flag, and its connection has been created before. -/
structure Reported (t : TcpServer) : Prop where
  nodup : (t.batch.map Item.fd).Nodup
  flags : ∀ x ∈ t.events, x.readable = true ∨ x.failed = true
  older : ∀ x ∈ t.events, x.raisedFor.id < t.created

/-- There are no events at the start. -/
theorem reported_start : Reported {} where
  nodup := List.nodup_nil
  flags := List.forall_mem_nil _
  older := List.forall_mem_nil _

/-- Every step keeps what is known of the events. -/
theorem Reported.step (hR : t.Reported) (hI : t.Consistent) (h : t.step e = some t') :
    t'.Reported where
  nodup := by
    have htail {i : Item} {rest : List Item} (hbatch : t.batch = i :: rest) :
        (rest.map Item.fd).Nodup := by
      have hnodup := hR.nodup
      rw [hbatch, List.map_cons] at hnodup
      exact hnodup.of_cons
    cases change_of_step h with
    | epollWait _ _ hreports => exact hreports.2.1
    | accept _ hbatch _ => exact htail hbatch
    | acceptFailed _ hbatch => exact htail hbatch
    | find _ hbatch => exact htail hbatch
    | _ => exact hR.nodup
  flags x hx := by
    rcases events_step h hx with hx | ⟨items, -, hmem, -, -, hreports⟩
    · exact hR.flags x hx
    · have hreported := hreports _ hmem
      simp only [reports, Bool.and_eq_true, Bool.or_eq_true] at hreported
      exact hreported.2
  older x hx := by
    rcases events_step h hx with hx | ⟨items, -, hmem, -, -, hreports⟩
    · exact Nat.lt_of_lt_of_le (hR.older x hx) (created_step h)
    · have hreported := hreports _ hmem
      simp only [reports, Bool.and_eq_true, decide_eq_true_eq] at hreported
      exact Nat.lt_of_lt_of_le (hI.older _ hreported.1.2) (created_step h)

/-- The event loop handles an element, in some way, and leaves the connections under other numbers
alone. -/
theorem exists_run_item {i : Item} {rest : List Item} {fd : ℕ} (hloop : t.loop = .idle)
    (hbatch : t.batch = i :: rest) (hfd : i.fd ≠ some fd) :
    ∃ es u, run step t es = some u ∧ u.loop = .idle ∧ u.batch = rest ∧
      u.connections[fd]? = t.connections[fd]? := by
  cases i with
  | listen =>
    refine ⟨[.accept none], { t with batch := rest }, ?_, hloop, rfl, rfl⟩
    simp [run, step, hloop, hbatch]
  | connection y =>
    have hne : y.fd ≠ fd := fun heq => hfd (by rw [Item.fd, Item.event, Option.map_some, heq])
    -- the item is skipped if its connection is gone; otherwise it is erased if it has failed
    cases hy : t.connections[y.fd]? with
    | none =>
      refine ⟨[.findConnection], { t with batch := rest, loop := .idle }, ?_, rfl, rfl, rfl⟩
      simp [run, step, hloop, hbatch, findConnection, hy]
    | some d =>
      cases hfailed : y.failed with
      | false =>
        refine ⟨[.findConnection, .checkRead, .checkError], { t with
          batch := rest
          tasks := if y.readable then t.tasks ++ [d] else t.tasks
          loop := .idle }, ?_, rfl, rfl, rfl⟩
        simp [run, step, hloop, hbatch, findConnection, hy, hfailed]
      | true =>
        refine ⟨[.findConnection, .checkRead, .checkError, .erase], { t with
          batch := rest
          tasks := if y.readable then t.tasks ++ [d] else t.tasks
          polled := t.polled.erase y.fd
          connections := t.connections.erase y.fd
          loop := .idle }, ?_, rfl, rfl, ?_⟩
        · simp [run, step, hloop, hbatch, findConnection, hy, hfailed]
        · exact getElem?_erase_of_ne _ hne.symm

/-- The event loop comes to an element of its batch. -/
theorem exists_run_batch {before after : List Item} {x : PollEvent} (hloop : t.loop = .idle)
    (hbatch : t.batch = before ++ .connection x :: after)
    (hbefore : ∀ i ∈ before, i.fd ≠ some x.fd) :
    ∃ es u, run step t es = some u ∧ u.loop = .idle ∧ u.batch = .connection x :: after ∧
      u.connections[x.fd]? = t.connections[x.fd]? := by
  induction before generalizing t with
  | nil => exact ⟨[], t, rfl, hloop, hbatch, rfl⟩
  | cons i before ih =>
    obtain ⟨hi, hrest⟩ := List.forall_mem_cons.mp hbefore
    obtain ⟨es, u, hes, hu, hbatch', hsame⟩ := exists_run_item hloop hbatch hi
    obtain ⟨fs, v, hfs, hv, hbatch'', hsame'⟩ := ih hu hbatch' hrest
    exact ⟨es ++ fs, v, run_append_eq_some.mpr ⟨u, hes, hfs⟩, hv, hbatch'', hsame'.trans hsame⟩

/-- An event that finds another connection than its own acts on it. -/
theorem exists_run_wrong {after : List Item} {x : PollEvent} (hloop : t.loop = .idle)
    (hbatch : t.batch = .connection x :: after) (hc : t.connections[x.fd]? = some c)
    (hne : c ≠ x.raisedFor) (hflags : x.readable = true ∨ x.failed = true) :
    ∃ es e u v, run step t es = some u ∧ u.step e = some v ∧ ¬ u.OwnConnection e := by
  cases hreadable : x.readable with
  | true =>
    refine ⟨[.findConnection], .checkRead, { t with batch := after, loop := .found x c }, _,
      ?_, rfl, fun hown => hne (hown x c rfl hreadable)⟩
    simp [run, step, hloop, hbatch, findConnection, hc]
  | false =>
    have hfailed : x.failed = true := by simpa [hreadable] using hflags
    refine ⟨[.findConnection, .checkRead, .checkError], .erase, { t with
      batch := after
      polled := t.polled.erase x.fd
      loop := .erasing x c }, _, ?_, rfl, fun hown => hne (hown x c rfl c hc)⟩
    simp [run, step, hloop, hbatch, findConnection, hc, hreadable, hfailed]

/-- A connection that is accepted under the number of an event in the batch gets into the map, where
the event finds it. -/
theorem exists_run_newer {fd : ℕ} (hR : t.Reported) (h : t.step (.accept (some fd)) = some t')
    (hC : ¬ t.FreshNumber (.accept (some fd))) :
    ∃ es e u v, run step t' es = some u ∧ u.step e = some v ∧ ¬ u.OwnConnection e := by
  obtain ⟨x, hx, rfl⟩ : ∃ x ∈ t.events, fd = x.fd := by simpa [FreshNumber] using hC
  cases change_of_step h with
  | @accept rest _ hloop hbatch hfd =>
    have hmem : .connection x ∈ rest := by
      simpa [mem_events, hloop, LoopPhase.event, hbatch] using hx
    obtain ⟨before, after, rfl⟩ := List.append_of_mem hmem
    have hbefore : ∀ i ∈ before, i.fd ≠ some x.fd := by
      intro i hi heq
      have hnodup := hR.nodup
      rw [hbatch, List.map_cons, List.map_append, List.map_cons] at hnodup
      refine (List.nodup_append.mp hnodup.of_cons).2.2 i.fd (List.mem_map_of_mem hi) _
        List.mem_cons_self ?_
      exact heq
    -- the new connection is entered under the number, and then the batch gets to the old event
    obtain ⟨s, hnew, hs, hbatch, hc⟩ : ∃ s,
        run step (t.accept (before ++ .connection x :: after) x.fd)
          [.addToEpoll true, .insertConnection, .welcome] = some s ∧ s.loop = .idle ∧
        s.batch = before ++ .connection x :: after ∧
        s.connections[x.fd]? = some ⟨t.created, x.fd⟩ :=
      ⟨_, rfl, rfl, rfl, Std.TreeMap.getElem?_insert_self⟩
    obtain ⟨es, u, hes, hu, hbatch, hsame⟩ := exists_run_batch hs hbatch hbefore
    have hne : (⟨t.created, x.fd⟩ : Conn) ≠ x.raisedFor := by
      intro heq
      have hlt := hR.older x hx
      rw [← heq] at hlt
      exact Nat.lt_irrefl _ hlt
    obtain ⟨fs, e, v, v', hfs, he, hwrong⟩ :=
      exists_run_wrong hu hbatch (hsame.trans hc) hne (hR.flags x hx)
    have hrun := run_append_eq_some.mpr ⟨s, hnew, run_append_eq_some.mpr ⟨u, hes, hfs⟩⟩
    exact ⟨_, e, v, v', hrun, he, hwrong⟩

/-! ## Events act on their own connections -/

/-- Both hold in every run. -/
theorem consistent_run {es : List Event} {u : TcpServer} (h : run step {} es = some u) :
    u.Consistent ∧ u.Reported :=
  run_induction (P := fun t => t.Consistent ∧ t.Reported) ⟨consistent_start, reported_start⟩
    (fun _ _ _ hI ht => ⟨hI.1.step ht, hI.2.step hI.1 ht⟩) h

/-- **Events and connections.** If no connection is accepted under the number of an event that has
been reported and not been handled, then what the event loop enqueues or takes out is always the
connection that the event was raised for. A worker takes out no other connection than its own in any
case. And whenever a connection is accepted under the number of such an event, the run can go on
until that event acts on a connection that it was not raised for. -/
theorem ownConnection_of_freshNumbers (es : List Event) :
    (EveryStep step {} es FreshNumber → EveryStep step {} es OwnConnection) ∧
    (EveryStep step {} es fun t e => ∀ w, e = .eraseByWorker w → t.OwnConnection e) ∧
    ∀ t fd t', run step {} es = some t → t.step (.accept (some fd)) = some t' →
      ¬ t.FreshNumber (.accept (some fd)) →
      ∃ fs u, run step {} (es ++ Event.accept (some fd) :: fs) = some u ∧
        ¬ EveryStep step {} (es ++ Event.accept (some fd) :: fs) OwnConnection := by
  refine ⟨fun hC => ?_, ?_, ?_⟩
  · have hall : EveryState step {} es fun t => t.Consistent ∧ t.Undisputed := by
      refine hC.everyState ⟨consistent_start, List.forall_mem_nil _⟩ fun t e t' hC hI ht => ?_
      exact ⟨hI.1.step ht, hI.2.step hI.1 hC ht⟩
    intro pre e post t heq ht
    obtain ⟨hI, hU⟩ := hall pre (e :: post) t heq ht
    exact hU.ownConnection hI e
  · rintro pre e post t - ht w rfl
    exact (consistent_run ht).1.eraseByWorker w
  · intro t fd t' hrun hstep hC
    obtain ⟨fs, e, u, v, hfs, he, hwrong⟩ := exists_run_newer (consistent_run hrun).2 hstep hC
    have hu : run step {} (es ++ Event.accept (some fd) :: fs) = some u :=
      run_append_eq_some.mpr ⟨t, hrun, run_cons_eq_some.mpr ⟨t', hstep, hfs⟩⟩
    refine ⟨fs ++ [e], v, ?_, fun hown => hwrong ?_⟩
    · rw [← List.cons_append, ← List.append_assoc]
      exact run_append_eq_some.mpr ⟨u, hu, by rw [run_singleton, he]⟩
    · exact hown _ e [] u (by simp) hu

/-- A connection is accepted. -/
def accepts (fd : ℕ) : List Event :=
  [.accept (some fd), .addToEpoll true, .insertConnection, .welcome]

/-- The first connection ends and is closed before its number is used again; the batch with the
event of the second one has been reported after that. -/
theorem ownConnection_of_freshNumbers_reuse :
    EveryStep step {} ([Event.epollWait [.listen]] ++ accepts 7 ++
      [Event.epollWait [.connection ⟨7, true, false, ⟨0, 7⟩⟩], .findConnection, .checkRead,
        .checkError, .runTask, .readData 0 .closed, .deleteByWorker 0, .eraseByWorker 0,
        .close ⟨0, 7⟩, .epollWait [.listen]] ++ accepts 7 ++
      [Event.epollWait [.connection ⟨7, true, true, ⟨1, 7⟩⟩], .findConnection, .checkRead,
        .checkError, .erase]) OwnConnection := by
  refine (ownConnection_of_freshNumbers _).1 ?_
  decide

/-- While an event of the first connection waits in the batch, behind one of the server socket, a
worker finds that the peer has closed, takes the connection out and closes it. The next connection
gets its number, and the event finds this one. -/
def reusesTooEarly : List Event :=
  [Event.epollWait [.listen]] ++ accepts 7 ++
    [Event.epollWait [.connection ⟨7, true, false, ⟨0, 7⟩⟩], .findConnection, .checkRead,
      .checkError, .epollWait [.listen, .connection ⟨7, true, true, ⟨0, 7⟩⟩], .runTask,
      .readData 0 .closed, .deleteByWorker 0, .eraseByWorker 0, .close ⟨0, 7⟩] ++
    accepts 7 ++ [Event.findConnection]

/-- The event enqueues a read for the new connection and takes it out. -/
theorem stale_event_hits_newer :
    ∃ u, run step {} (reusesTooEarly ++ [Event.checkRead, .checkError, .erase]) = some u ∧
      ¬ EveryStep step {} (reusesTooEarly ++ [Event.checkRead, .checkError, .erase])
        OwnConnection := by
  obtain ⟨t, ht, hloop⟩ : ∃ t, run step {} reusesTooEarly = some t ∧
      t.loop = .found ⟨7, true, true, ⟨0, 7⟩⟩ ⟨1, 7⟩ := ⟨_, rfl, rfl⟩
  have hrest : ∃ u, run step t [.checkRead, .checkError, .erase] = some u := by
    simp [run, step, hloop]
  obtain ⟨u, hu⟩ := hrest
  refine ⟨u, run_append_eq_some.mpr ⟨t, ht, hu⟩, fun hown => ?_⟩
  have hwrong := hown _ .checkRead [.checkError, .erase] t rfl ht _ _ hloop rfl
  exact absurd hwrong (by decide)

end TcpServer

end TurboNet.Epoll
