import TurboNet.Common.Machine
import TurboNet.Epoll.Connection

/-!
# Edge-triggered reading in the epoll server

Reference: `claude/server.cpp`, `TcpServer::handleExistingConnection`, `Connection::readData`.

A connection is registered with `EPOLLIN | EPOLLET`: what arrives makes one event, and arrivals that
come before `epoll_wait` has returned it add nothing to it. Each event enqueues one task, and each
task calls `recv` once. `Polled.step` is one connection with the bytes that wait for it in the
kernel and with its events and tasks; bytes that have come before it was registered are an arrival
like any other. The tasks of the connection run one at a time.

A task that finds more bytes than it has asked for leaves the rest behind. That does no harm as long
as another event or task is on its way; otherwise nobody reads the rest until more arrives.
`nothingLeft_of_readsAll` says that this is the only way to leave bytes behind.
-/

namespace TurboNet.Epoll

open Common

/-- The call that a running task makes next. -/
inductive ReadTask where
  | readData
  | processData
deriving DecidableEq

/-- A connection, and what the kernel and the thread pool have for it. -/
structure Polled where
  connection : Connection := {}
  /-- The bytes that have arrived and have not been received. -/
  available : List UInt8 := []
  /-- The kernel has an event that `epoll_wait` has not returned. -/
  edge : Bool := false
  /-- The batch of the event loop has an event that has not been handled. -/
  reported : Bool := false
  /-- The tasks in the queue of the pool. -/
  tasks : ℕ := 0
  task : Option ReadTask := none
  /-- History: the bytes that have arrived, and those that `processData` was called with. -/
  arrived : List UInt8 := []
  processed : List UInt8 := []

namespace Polled

inductive Event where
  | arrive (bs : List UInt8)
  | epollWait
  | handleExistingConnection
  | runTask
  | readData
  | processData
deriving DecidableEq

/-- Bytes arrive. -/
def arrive (s : Polled) (bs : List UInt8) : Polled :=
  { s with available := s.available ++ bs, edge := true, arrived := s.arrived ++ bs }

/-- How much `recv` delivers. -/
def bytesRead (s : Polled) : ℕ := min s.connection.space s.available.length

/-- The task calls `readData`. It ends when there is nothing to be read, which is `EAGAIN`. -/
def readData (s : Polled) : Polled :=
  if 0 < s.bytesRead then
    { s with
      connection := s.connection.readData (s.available.take s.bytesRead)
      available := s.available.drop s.bytesRead
      task := some .processData }
  else { s with task := none }

/-- The task calls `processData` and ends. -/
def processData (s : Polled) : Polled :=
  { s with
    connection := s.connection.processData
    processed := s.processed ++ s.connection.contents
    task := none }

def step (s : Polled) : Event → Option Polled
  | .arrive bs => if bs = [] then none else some (s.arrive bs)
  | .epollWait =>
    -- a batch has been handled before the next one is asked for
    if s.edge = true ∧ s.reported = false then some { s with edge := false, reported := true }
    else none
  | .handleExistingConnection =>
    if s.reported = true then some { s with reported := false, tasks := s.tasks + 1 } else none
  | .runTask =>
    if s.task = none ∧ 0 < s.tasks then
      some { s with tasks := s.tasks - 1, task := some .readData }
    else none
  | .readData => if s.task = some .readData then some s.readData else none
  | .processData => if s.task = some .processData then some s.processData else none

/-- An event is on its way to the connection, or a task that has not begun. -/
def Expected (s : Polled) : Prop := s.edge = true ∨ s.reported = true ∨ 0 < s.tasks

/-- No event has been left unhandled, and no task is queued or running. -/
def Idle (s : Polled) : Prop := ¬ s.Expected ∧ s.task = none

/-- Nothing has been left behind, if nobody is going to read it. -/
def NothingLeft (s : Polled) : Prop := s.Idle → s.processed = s.arrived

/-- A task that calls `recv` finds at most 4096 bytes, unless another event or task is on its
way. -/
def ReadsAll (s : Polled) (e : Event) : Prop :=
  e = .readData → s.Expected ∨ s.available.length ≤ maxBufferSize

instance (s : Polled) : Decidable s.Expected :=
  inferInstanceAs (Decidable (s.edge = true ∨ s.reported = true ∨ 0 < s.tasks))

instance (s : Polled) (e : Event) : Decidable (ReadsAll s e) :=
  inferInstanceAs (Decidable (e = .readData → s.Expected ∨ s.available.length ≤ maxBufferSize))

/-! ## Where the bytes are -/

variable {s s' : Polled} {e : Event}

/-- What has arrived has been processed, is in the buffer, or has not been received, in this order.
The buffer is in use only between the two calls of a task. -/
structure Located (s : Polled) : Prop where
  bytes : s.arrived = s.processed ++ s.connection.contents ++ s.available
  inBounds : s.connection.InBounds
  level : s.task ≠ some .processData → s.connection.bytesInBuffer = 0

/-- Nothing has been queued at the start. -/
theorem located_start : Located {} := ⟨rfl, Connection.inBounds_new 0, fun _ => rfl⟩

/-- The buffer is empty whenever no `processData` is to come. -/
theorem Located.contents_eq_nil (h : s.Located) (htask : s.task ≠ some .processData) :
    s.connection.contents = [] := by
  rw [Connection.contents, h.level htask, List.take_zero]

/-- `readData` reads what is there, up to the size of the buffer. -/
theorem Located.bytesRead_eq (h : s.Located) (htask : s.task = some .readData) :
    s.bytesRead = min maxBufferSize s.available.length := by
  rw [bytesRead, h.inBounds.space_eq, h.level (by simp [htask]), Nat.sub_zero]

/-- `readData` leaves the bytes to `processData`. -/
theorem Located.readData (h : s.Located) (htask : s.task = some .readData) :
    s.readData.Located := by
  have hlevel := h.level (by simp [htask])
  rw [Polled.readData]
  split
  · have hle : (s.available.take s.bytesRead).length ≤ s.connection.space := by
      rw [List.length_take, bytesRead]
      omega
    refine ⟨?_, h.inBounds.readData hle, fun hne => absurd rfl hne⟩
    dsimp only
    rw [h.inBounds.contents_readData, List.append_assoc, List.append_assoc, List.take_append_drop,
      ← List.append_assoc]
    exact h.bytes
  · exact ⟨h.bytes, h.inBounds, fun _ => hlevel⟩

/-- `processData` leaves none. -/
theorem Located.processData (h : s.Located) : s.processData.Located where
  bytes := by
    have hempty : s.connection.processData.contents = [] := by
      rw [Connection.contents, Connection.bytesInBuffer_processData, List.take_zero]
    simp only [Polled.processData, hempty, List.append_nil]
    exact h.bytes
  inBounds := h.inBounds.processData
  level _ := Connection.bytesInBuffer_processData _

/-- Every step keeps the bytes where they belong. -/
theorem Located.step (h : s.Located) (hstep : s.step e = some s') : s'.Located := by
  cases e with
  | arrive bs =>
    obtain ⟨-, heq⟩ := Option.ite_none_left_eq_some.mp hstep
    obtain rfl := Option.some.inj heq
    refine ⟨?_, h.inBounds, h.level⟩
    simp only [arrive, h.bytes, List.append_assoc]
  | epollWait =>
    obtain ⟨-, heq⟩ := Option.ite_none_right_eq_some.mp hstep
    exact Option.some.inj heq ▸ ⟨h.bytes, h.inBounds, h.level⟩
  | handleExistingConnection =>
    obtain ⟨-, heq⟩ := Option.ite_none_right_eq_some.mp hstep
    exact Option.some.inj heq ▸ ⟨h.bytes, h.inBounds, h.level⟩
  | runTask =>
    obtain ⟨⟨htask, -⟩, heq⟩ := Option.ite_none_right_eq_some.mp hstep
    exact Option.some.inj heq ▸ ⟨h.bytes, h.inBounds, fun _ => h.level (by simp [htask])⟩
  | readData =>
    obtain ⟨htask, heq⟩ := Option.ite_none_right_eq_some.mp hstep
    exact Option.some.inj heq ▸ h.readData htask
  | processData =>
    obtain ⟨-, heq⟩ := Option.ite_none_right_eq_some.mp hstep
    exact Option.some.inj heq ▸ h.processData

/-! ## Somebody is going to read them -/

/-- If bytes have not been received, a task will ask for them. -/
def Awaited (s : Polled) : Prop :=
  s.available ≠ [] → s.Expected ∨ s.task = some .readData

/-- A `readData` that empties the socket, or has an edge to come, leaves nothing unawaited. -/
theorem Awaited.readData (h : s.Located) (htask : s.task = some .readData)
    (hC : s.Expected ∨ s.available.length ≤ maxBufferSize) : s.readData.Awaited := by
  have hread := h.bytesRead_eq htask
  intro hne
  rcases hC with hexpected | hle
  · left
    rw [Polled.readData]
    split <;> exact hexpected
  · exfalso
    apply hne
    rw [Polled.readData]
    split
    · exact List.drop_eq_nil_iff.mpr (by rw [hread]; exact Nat.le_min.mpr ⟨hle, Nat.le_refl _⟩)
    · rename_i hzero
      have hpos : 0 < maxBufferSize := by decide
      have hlength : s.available.length = 0 := by omega
      exact List.eq_nil_of_length_eq_zero hlength

/-- A step keeps every byte awaited if its `recv` reads all there is. -/
theorem Awaited.step (hA : s.Awaited) (hL : s.Located) (hC : ReadsAll s e)
    (hstep : s.step e = some s') : s'.Awaited := by
  cases e with
  | arrive bs =>
    obtain ⟨-, heq⟩ := Option.ite_none_left_eq_some.mp hstep
    exact Option.some.inj heq ▸ fun _ => .inl (.inl rfl)
  | epollWait =>
    obtain ⟨-, heq⟩ := Option.ite_none_right_eq_some.mp hstep
    exact Option.some.inj heq ▸ fun _ => .inl (.inr (.inl rfl))
  | handleExistingConnection =>
    obtain ⟨-, heq⟩ := Option.ite_none_right_eq_some.mp hstep
    exact Option.some.inj heq ▸ fun _ => .inl (.inr (.inr (Nat.succ_pos _)))
  | runTask =>
    obtain ⟨-, heq⟩ := Option.ite_none_right_eq_some.mp hstep
    exact Option.some.inj heq ▸ fun _ => .inr rfl
  | readData =>
    obtain ⟨htask, heq⟩ := Option.ite_none_right_eq_some.mp hstep
    exact Option.some.inj heq ▸ Awaited.readData hL htask (hC rfl)
  | processData =>
    obtain ⟨htask, heq⟩ := Option.ite_none_right_eq_some.mp hstep
    obtain rfl := Option.some.inj heq
    intro hne
    rcases hA hne with hexpected | hreading
    · exact .inl hexpected
    · exact absurd (htask.symm.trans hreading) (by simp)

/-- When nothing is to come, no byte is left. -/
theorem Awaited.nothingLeft (hA : s.Awaited) (hL : s.Located) : s.NothingLeft := by
  rintro ⟨hexpected, htask⟩
  have hnil : s.available = [] := by
    by_contra hne
    rcases hA hne with h | h
    · exact hexpected h
    · exact absurd (htask.symm.trans h) (by simp)
  rw [hL.bytes, hL.contents_eq_nil (by simp [htask]), hnil, List.append_nil, List.append_nil]

/-! ## Nothing is left behind -/

/-- A task that leaves bytes behind ends, and nobody comes for them. -/
theorem left_of_readData (hL : s.Located) (htask : s.task = some .readData)
    (hexpected : ¬ s.Expected) (hlong : maxBufferSize < s.available.length) :
    ∃ u, run Polled.step s [.readData, .processData] = some u ∧ ¬ u.NothingLeft := by
  have hread : s.bytesRead = maxBufferSize := by
    rw [hL.bytesRead_eq htask]
    omega
  have hpos : 0 < s.bytesRead := by rw [hread]; decide
  have htask' : s.readData.task = some .processData := by rw [Polled.readData, if_pos hpos]
  refine ⟨s.readData.processData, ?_, fun hnothing => ?_⟩
  · rw [run_cons, Polled.step, if_pos htask, Option.bind_some, run_singleton, Polled.step,
      if_pos htask']
  · have hL' := (hL.readData htask).processData
    have hidle : s.readData.processData.Idle := by
      refine ⟨?_, rfl⟩
      rw [Polled.readData, if_pos hpos]
      exact hexpected
    have hbytes := hL'.bytes
    rw [hL'.contents_eq_nil (by simp [hidle.2]), List.append_nil, ← hnothing hidle] at hbytes
    have hnil : s.available.drop s.bytesRead = [] := by
      have hself := List.self_eq_append_right.mp hbytes
      simpa only [Polled.processData, Polled.readData, if_pos hpos] using hself
    have hle := List.drop_eq_nil_iff.mp hnil
    omega

/-- **Edge-triggered reading.** If every task that calls `recv` finds at most 4096 bytes or another
event or task is on its way, then in every state without events and tasks all bytes that have
arrived have been passed to `processData`, in order. And a task that finds more than that, with
nothing on its way, can end in such a state with bytes left behind. -/
theorem nothingLeft_of_readsAll (es : List Event) :
    (EveryStep step {} es ReadsAll → EveryState step {} es NothingLeft) ∧
    ∀ s s', run step {} es = some s → ¬ ReadsAll s .readData → s.step .readData = some s' →
      ∃ u, run step {} (es ++ [Event.readData, .processData]) = some u ∧ ¬ u.NothingLeft := by
  constructor
  · intro hC pre post s heq hs
    have hI : EveryState step {} es fun s => s.Located ∧ s.Awaited := by
      refine hC.everyState ⟨located_start, fun hne => absurd rfl hne⟩ fun s e s' hC hI hstep => ?_
      exact ⟨hI.1.step hstep, hI.2.step hI.1 hC hstep⟩
    obtain ⟨hL, hA⟩ := hI pre post s heq hs
    exact hA.nothingLeft hL
  · intro s s' hs hC hstep
    have hL : s.Located := run_induction located_start (fun _ _ _ h ht => h.step ht) hs
    obtain ⟨htask, -⟩ := Option.ite_none_right_eq_some.mp hstep
    obtain ⟨hexpected, hlong⟩ : ¬ s.Expected ∧ maxBufferSize < s.available.length := by
      simpa [ReadsAll, not_or] using hC
    obtain ⟨u, hu, hleft⟩ := left_of_readData hL htask hexpected hlong
    exact ⟨u, run_append_eq_some.mpr ⟨s, hs, hu⟩, hleft⟩

/-- An event is reported and handled. -/
def polls : List Event := [.epollWait, .handleExistingConnection]

/-- More bytes arrive while the first ones wait for their task, which reads them all; the second
task finds nothing. -/
theorem nothingLeft_of_readsAll_two_arrivals :
    EveryState step {} ([Event.arrive [0x61, 0x62]] ++ polls ++ [Event.arrive [0x63]] ++ polls ++
      [Event.runTask, .readData, .processData, .runTask, .readData]) NothingLeft := by
  refine (nothingLeft_of_readsAll _).1 ?_
  decide

/-- 4097 bytes arrive at once. The task reads 4096 of them, and the last one stays where it is. -/
theorem burst_left_behind :
    ∃ u, run step {} ([Event.arrive (List.replicate 4097 0)] ++ polls ++
      [Event.runTask, .readData, .processData]) = some u ∧ ¬ u.NothingLeft := by
  obtain ⟨s, hs, htask, hexpected, hlong⟩ : ∃ s, run step {}
      ([Event.arrive (List.replicate 4097 0)] ++ polls ++ [Event.runTask]) = some s ∧
      s.task = some .readData ∧ ¬ s.Expected ∧ s.available = List.replicate 4097 0 :=
    ⟨_, rfl, rfl, by decide, rfl⟩
  have hL : s.Located := run_induction located_start (fun _ _ _ h ht => h.step ht) hs
  have hlength : maxBufferSize < s.available.length := by
    rw [hlong, List.length_replicate]
    decide
  obtain ⟨u, hu, hleft⟩ := left_of_readData hL htask hexpected hlength
  have hrun := run_append_eq_some.mpr ⟨s, hs, hu⟩
  rw [List.append_assoc] at hrun
  exact ⟨u, hrun, hleft⟩

end Polled

end TurboNet.Epoll
