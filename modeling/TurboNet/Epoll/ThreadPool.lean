import TurboNet.Common.Lists
import TurboNet.Common.Machine

/-!
# The thread pool of the epoll server

Reference: `claude/server.cpp`, `ThreadPool`.

`ThreadPool.step` is the pool with its workers, the calls of `enqueue` and the destructor as a
machine. What is done while `queueMutex` is held is one step: a worker tests the predicate of `wait`
and goes on or blocks, `enqueue` pushes, the destructor sets `stop`. The notifications come after
the mutex has been released, as steps of their own, and a worker that waits may wake up for no
reason. A task is named by the call of `enqueue` that it was passed to; tasks return normally.
-/

namespace TurboNet.Epoll

open Common

/-- Where a worker is in its loop. -/
inductive Worker where
  /-- It is about to test the predicate, at the head of the loop or after it has woken up. -/
  | ready
  | waiting
  | running (task : ℕ)
  | exited
deriving DecidableEq, Repr

/-- Where a call of `enqueue` has got to. -/
inductive EnqueueCall where
  | called
  /-- The task has been pushed, and nobody has been notified yet. -/
  | pushed
  | returned
  | threw
deriving DecidableEq, Repr

inductive Destructor where
  | notCalled
  /-- `stop` has been set, and nobody has been notified yet. -/
  | stopped
  /-- The workers before this place have been joined. -/
  | joining (i : ℕ)
deriving DecidableEq, Repr

structure ThreadPool where
  workers : List Worker
  tasks : List ℕ := []
  stop : Bool := false
  calls : List EnqueueCall := []
  destructor : Destructor := .notCalled
  /-- History: the tasks that have been pushed, taken by a worker, and executed, in this order. -/
  enqueued : List ℕ := []
  taken : List ℕ := []
  executed : List ℕ := []
deriving DecidableEq, Repr

namespace ThreadPool

/-- The constructor. -/
def start (numThreads : ℕ) : ThreadPool := { workers := List.replicate numThreads .ready }

/-- `enqueue`, while it holds the mutex. -/
def push (p : ThreadPool) (k : ℕ) : ThreadPool :=
  if p.stop then { p with calls := p.calls.set k .threw }
  else
    { p with
      calls := p.calls.set k .pushed
      tasks := p.tasks ++ [k]
      enqueued := p.enqueued ++ [k] }

/-- A worker, while it holds the mutex: it waits while there are no tasks and `stop` is not set,
returns if there are none and it is set, and takes the first task otherwise. -/
def test (p : ThreadPool) (w : ℕ) : ThreadPool :=
  match p.tasks with
  | [] => { p with workers := p.workers.set w (if p.stop then .exited else .waiting) }
  | k :: rest =>
    { p with
      workers := p.workers.set w (.running k)
      tasks := rest
      taken := p.taken ++ [k] }

/-- What a notification does to a worker. -/
def notified : Worker → Worker
  | .waiting => .ready
  | w => w

inductive Event where
  /-- The steps of `enqueue`; `notify_one` wakes the worker at place `w`. -/
  | enqueue
  | push (k : ℕ)
  | notifyOne (k : ℕ) (w : Option ℕ)
  /-- The steps of a worker. -/
  | test (w : ℕ)
  | wake (w : ℕ)
  | finish (w : ℕ)
  /-- The steps of the destructor. -/
  | setStop
  | notifyAll
  | join
deriving DecidableEq

/-- `notify_one` wakes one worker that waits, if there is one. -/
def CanNotify (p : ThreadPool) : Option ℕ → Prop
  | some w => p.workers[w]? = some .waiting
  | none => .waiting ∉ p.workers

instance (p : ThreadPool) : (w : Option ℕ) → Decidable (p.CanNotify w)
  | some w => inferInstanceAs (Decidable (p.workers[w]? = some .waiting))
  | none => inferInstanceAs (Decidable (.waiting ∉ p.workers))

/-- Wake one worker. -/
def wake (p : ThreadPool) (w : ℕ) : ThreadPool :=
  { p with workers := p.workers.set w .ready }

def step (p : ThreadPool) : Event → Option ThreadPool
  | .enqueue => some { p with calls := p.calls ++ [.called] }
  | .push k => if p.calls[k]? = some .called then some (p.push k) else none
  | .notifyOne k w =>
    if p.calls[k]? = some .pushed ∧ p.CanNotify w then
      some { (w.elim p p.wake) with calls := p.calls.set k .returned }
    else none
  | .test w => if p.workers[w]? = some .ready then some (p.test w) else none
  | .wake w => if p.workers[w]? = some .waiting then some (p.wake w) else none
  | .finish w =>
    match p.workers[w]? with
    | some (.running k) =>
      some { p with workers := p.workers.set w .ready, executed := p.executed ++ [k] }
    | _ => none
  | .setStop =>
    if p.destructor = .notCalled then some { p with stop := true, destructor := .stopped } else none
  | .notifyAll =>
    if p.destructor = .stopped then
      some { p with workers := p.workers.map notified, destructor := .joining 0 }
    else none
  | .join =>
    match p.destructor with
    | .joining i =>
      if p.workers[i]? = some .exited then some { p with destructor := .joining (i + 1) } else none
    | _ => none

/-- The destructor has joined all workers. -/
def Destroyed (p : ThreadPool) : Prop := p.destructor = .joining p.workers.length

instance (p : ThreadPool) : Decidable p.Destroyed :=
  inferInstanceAs (Decidable (p.destructor = .joining p.workers.length))

/-! ## Steps -/

variable {p p' : ThreadPool} {e : Event} {n k w : ℕ} {a b : Worker}

/-- What a step does, and when it can be taken. -/
inductive Change (p : ThreadPool) : ThreadPool → Prop where
  | enqueue : Change p { p with calls := p.calls ++ [.called] }
  | push (k : ℕ) (hk : p.calls[k]? = some .called) : Change p (p.push k)
  | notifyOne (k w : ℕ) (hk : p.calls[k]? = some .pushed) (hw : p.workers[w]? = some .waiting) :
    Change p { p.wake w with calls := p.calls.set k .returned }
  | notifyNone (k : ℕ) (hk : p.calls[k]? = some .pushed) :
    Change p { p with calls := p.calls.set k .returned }
  | test (w : ℕ) (hw : p.workers[w]? = some .ready) : Change p (p.test w)
  | wake (w : ℕ) (hw : p.workers[w]? = some .waiting) : Change p (p.wake w)
  | finish (w k : ℕ) (hw : p.workers[w]? = some (.running k)) :
    Change p { p with workers := p.workers.set w .ready, executed := p.executed ++ [k] }
  | setStop (hd : p.destructor = .notCalled) :
    Change p { p with stop := true, destructor := .stopped }
  | notifyAll (hd : p.destructor = .stopped) :
    Change p { p with workers := p.workers.map notified, destructor := .joining 0 }
  | join (i : ℕ) (hd : p.destructor = .joining i) (hw : p.workers[i]? = some .exited) :
    Change p { p with destructor := .joining (i + 1) }

/-- Every step is one of the changes. -/
theorem change_of_step (h : p.step e = some p') : Change p p' := by
  cases e with
  | enqueue =>
    obtain rfl := Option.some.inj h
    exact .enqueue
  | push k =>
    obtain ⟨hk, heq⟩ := Option.ite_none_right_eq_some.mp h
    exact Option.some.inj heq ▸ .push k hk
  | notifyOne k w =>
    obtain ⟨⟨hk, hw⟩, heq⟩ := Option.ite_none_right_eq_some.mp h
    obtain rfl := Option.some.inj heq
    -- `notify_one` wakes a worker if any waits
    cases w with
    | none => exact .notifyNone k hk
    | some w => exact .notifyOne k w hk hw
  | test w =>
    obtain ⟨hw, heq⟩ := Option.ite_none_right_eq_some.mp h
    exact Option.some.inj heq ▸ .test w hw
  | wake w =>
    obtain ⟨hw, heq⟩ := Option.ite_none_right_eq_some.mp h
    exact Option.some.inj heq ▸ .wake w hw
  | finish w =>
    simp only [step] at h
    split at h
    · rename_i k hw
      exact Option.some.inj h ▸ .finish w k hw
    · exact absurd h (by simp)
  | setStop =>
    obtain ⟨hd, heq⟩ := Option.ite_none_right_eq_some.mp h
    exact Option.some.inj heq ▸ .setStop hd
  | notifyAll =>
    obtain ⟨hd, heq⟩ := Option.ite_none_right_eq_some.mp h
    exact Option.some.inj heq ▸ .notifyAll hd
  | join =>
    simp only [step] at h
    split at h
    · rename_i i hd
      obtain ⟨hw, heq⟩ := Option.ite_none_right_eq_some.mp h
      exact Option.some.inj heq ▸ .join i hd hw
    · exact absurd h (by simp)

/-! ## The queue -/

/-- The call has pushed its task. -/
def accepted (p : ThreadPool) (k : ℕ) : Bool :=
  p.calls[k]?.any fun c => c = .pushed ∨ c = .returned

/-- The tasks that have been pushed are those that have been taken, followed by the queue; each of
them is the task of one call that has pushed it. -/
structure Queued (p : ThreadPool) : Prop where
  queue : p.enqueued = p.taken ++ p.tasks
  nodup : p.enqueued.Nodup
  calls : ∀ k, k ∈ p.enqueued ↔ p.accepted k = true

/-- A task that has been pushed has been taken or is in the queue. -/
theorem Queued.count_enqueued (h : Queued p) (k : ℕ) :
    p.enqueued.count k = p.taken.count k + p.tasks.count k := by
  rw [h.queue, List.count_append]

/-- A task is pushed once. -/
theorem Queued.count_enqueued_le_one (h : Queued p) (k : ℕ) : p.enqueued.count k ≤ 1 :=
  List.nodup_iff_count.mp h.nodup k

/-- It matters only what has been pushed, and what has been taken with the queue behind it. -/
theorem Queued.congr (h : Queued p) (henqueued : p'.enqueued = p.enqueued)
    (hqueue : p'.taken ++ p'.tasks = p.taken ++ p.tasks)
    (hcalls : ∀ k, p'.accepted k = p.accepted k) : Queued p' := by
  refine ⟨by rw [henqueued, hqueue, h.queue], by rw [henqueued]; exact h.nodup, fun k => ?_⟩
  rw [henqueued, hcalls, h.calls]

/-- What a call that goes on says of the other calls. -/
theorem accepted_set {c x : EnqueueCall} (hk : p.calls[k]? = some c)
    (hp' : p'.calls = p.calls.set k x) (j : ℕ) :
    p'.accepted j = if k = j then decide (x = .pushed ∨ x = .returned) else p.accepted j := by
  rw [accepted, hp', List.getElem?_set, if_pos (List.getElem?_eq_some_iff.mp hk).1]
  split <;> rfl

/-- Whether a call has pushed its task can be seen from where it has got to. -/
theorem accepted_of_getElem? {c : EnqueueCall} (hk : p.calls[k]? = some c) :
    p.accepted k = decide (c = .pushed ∨ c = .returned) := by
  rw [accepted, hk]
  rfl

/-- A call goes on without pushing. -/
theorem accepted_set_of_eq {c x : EnqueueCall} (hk : p.calls[k]? = some c)
    (hp' : p'.calls = p.calls.set k x)
    (hx : (x = .pushed ∨ x = .returned) ↔ c = .pushed ∨ c = .returned) (j : ℕ) :
    p'.accepted j = p.accepted j := by
  rw [accepted_set hk hp']
  split
  · rename_i heq
    rw [← heq, accepted_of_getElem? hk, decide_eq_decide.mpr hx]
  · rfl

/-- A task that is pushed goes to the end of the queue. -/
theorem Queued.push (h : Queued p) (hk : p.calls[k]? = some .called) : Queued (p.push k) := by
  rw [ThreadPool.push]
  split
  · exact h.congr rfl rfl (accepted_set_of_eq hk rfl (by simp))
  · have hnew : k ∉ p.enqueued := by
      rw [h.calls, accepted_of_getElem? hk]
      simp
    constructor
    · show p.enqueued ++ [k] = p.taken ++ (p.tasks ++ [k])
      rw [h.queue, List.append_assoc]
    · exact List.nodup_append.mpr ⟨h.nodup, List.pairwise_singleton _ _, fun x hx y hy heq =>
        hnew (by rwa [← List.mem_singleton.mp hy, ← heq])⟩
    · intro j
      rw [accepted_set hk rfl, List.mem_append, h.calls, List.mem_singleton]
      by_cases hj : k = j
      · simp [hj]
      · simp [hj, Ne.symm hj]

/-- A worker takes the front of the queue. -/
theorem Queued.test (h : Queued p) (w : ℕ) : Queued (p.test w) := by
  rw [ThreadPool.test]
  split
  · exact h.congr rfl rfl fun _ => rfl
  · rename_i k rest htasks
    refine h.congr rfl ?_ fun _ => rfl
    show (p.taken ++ [k]) ++ rest = p.taken ++ p.tasks
    rw [htasks, List.append_assoc]
    rfl

/-- Every step keeps the queue. -/
theorem Queued.step (h : Queued p) (hstep : p.step e = some p') : Queued p' := by
  cases change_of_step hstep with
  | enqueue =>
    refine h.congr rfl rfl fun j => ?_
    rw [accepted, accepted]
    show (p.calls ++ [.called])[j]?.any _ = _
    rw [List.getElem?_append]
    split
    · rfl
    · rename_i hlt
      rw [List.getElem?_eq_none (Nat.le_of_not_lt hlt)]
      cases j - p.calls.length <;> simp
  | push k hk => exact h.push hk
  | notifyOne k w hk _ => exact h.congr rfl rfl (accepted_set_of_eq hk rfl (by simp))
  | notifyNone k hk => exact h.congr rfl rfl (accepted_set_of_eq hk rfl (by simp))
  | test w _ => exact h.test w
  | wake w _ => exact h.congr rfl rfl fun _ => rfl
  | finish w k _ => exact h.congr rfl rfl fun _ => rfl
  | setStop _ => exact h.congr rfl rfl fun _ => rfl
  | notifyAll _ => exact h.congr rfl rfl fun _ => rfl
  | join i _ _ => exact h.congr rfl rfl fun _ => rfl

/-! ## Execution -/

/-- A task that has been taken has been executed, or is being executed, once for each time that it
has been taken. -/
def Executing (p : ThreadPool) : Prop :=
  ∀ k, p.taken.count k = p.executed.count k + p.workers.count (.running k)

/-- A worker that is not executing anything goes on to something that is not executing either. -/
theorem count_running_set (hw : p.workers[w]? = some a) (ha : ∀ k, a ≠ .running k)
    (hb : ∀ k, b ≠ .running k) (k : ℕ) :
    (p.workers.set w b).count (.running k) = p.workers.count (.running k) := by
  have hset := countP_set_add (b := b) (· == Worker.running k) hw
  simpa [List.count, ha k, hb k] using hset

/-- A worker that takes a task begins to execute it. -/
theorem Executing.test (h : Executing p) (hw : p.workers[w]? = some .ready) :
    Executing (p.test w) := by
  intro j
  rw [ThreadPool.test]
  split
  · show p.taken.count j = p.executed.count j + (p.workers.set w _).count (.running j)
    rw [count_running_set hw (by simp) (by intro k; split <;> simp)]
    exact h j
  · rename_i k rest htasks
    show (p.taken ++ [k]).count j =
      p.executed.count j + (p.workers.set w (.running k)).count (.running j)
    have hset := countP_set_add (b := .running k) (· == Worker.running j) hw
    have hj := h j
    simp only [List.count, List.countP_append, List.countP_singleton] at hset hj ⊢
    simp only [beq_iff_eq, reduceCtorEq, if_false, Worker.running.injEq] at hset ⊢
    omega

/-- A worker that returns from a task has executed it. -/
theorem Executing.finish (h : Executing p) (hw : p.workers[w]? = some (.running k)) :
    Executing { p with workers := p.workers.set w .ready, executed := p.executed ++ [k] } := by
  intro j
  show p.taken.count j = (p.executed ++ [k]).count j + (p.workers.set w .ready).count (.running j)
  have hset := countP_set_add (b := .ready) (· == Worker.running j) hw
  have hj := h j
  simp only [List.count, List.countP_append, List.countP_singleton] at hset hj ⊢
  simp only [beq_iff_eq, reduceCtorEq, if_false, Worker.running.injEq] at hset ⊢
  omega

/-- A notification changes nothing for those who execute a task. -/
theorem count_running_notified (l : List Worker) (k : ℕ) :
    (l.map notified).count (.running k) = l.count (.running k) := by
  simp only [List.count, List.countP_map]
  apply List.countP_congr
  intro x _
  cases x <;> simp [notified]

/-- Every task that is taken is executed. -/
theorem Executing.step (h : Executing p) (hstep : p.step e = some p') : Executing p' := by
  -- a worker that has been waiting tests again
  have hwake {w : ℕ} (hw : p.workers[w]? = some .waiting) : Executing (p.wake w) := by
    intro j
    show p.taken.count j = p.executed.count j + (p.workers.set w .ready).count (.running j)
    rw [count_running_set hw (by simp) (by simp)]
    exact h j
  cases change_of_step hstep with
  | enqueue => exact h
  | push k _ =>
    rw [ThreadPool.push]
    split <;> exact h
  | notifyOne k w _ hw => exact hwake hw
  | notifyNone k _ => exact h
  | test w hw => exact h.test hw
  | wake w hw => exact hwake hw
  | finish w k hw => exact h.finish hw
  | setStop _ => exact h
  | notifyAll _ =>
    intro j
    show p.taken.count j = p.executed.count j + (p.workers.map notified).count (.running j)
    rw [count_running_notified]
    exact h j
  | join i _ _ => exact h

/-! ## Shutting down -/

/-- A worker exits only when `stop` is set and the queue is empty, which it then stays. When `stop`
is set nobody begins to wait, and when the destructor has notified, nobody waits. -/
structure Stopping (n : ℕ) (p : ThreadPool) : Prop where
  length : p.workers.length = n
  stop : p.stop = true ↔ p.destructor ≠ .notCalled
  exited : .exited ∈ p.workers → p.stop = true ∧ p.tasks = []
  awake : ∀ i, p.destructor = .joining i → .waiting ∉ p.workers
  joined : ∀ i, p.destructor = .joining i →
    i ≤ p.workers.length ∧ ∀ j < i, p.workers[j]? = some .exited

/-- A worker goes on. -/
theorem Stopping.set (h : Stopping n p) (hw : p.workers[w]? = some a) (ha : a ≠ .exited)
    (hworkers : p'.workers = p.workers.set w b) (hstop : p'.stop = p.stop)
    (hdestructor : p'.destructor = p.destructor) (htasks : p.tasks = [] → p'.tasks = [])
    (hexited : b = .exited → p.stop = true ∧ p.tasks = [])
    (hwaiting : b = .waiting → p.stop = false) :
    Stopping n p' := by
  constructor
  · rw [hworkers, List.length_set, h.length]
  · rw [hstop, hdestructor, h.stop]
  · intro hmem
    rw [hworkers] at hmem
    have hboth : p.stop = true ∧ p.tasks = [] := by
      rcases List.mem_or_eq_of_mem_set hmem with hold | hnew
      · exact h.exited hold
      · exact hexited hnew.symm
    exact ⟨hstop.trans hboth.1, htasks hboth.2⟩
  · intro i hi hmem
    rw [hworkers] at hmem
    rw [hdestructor] at hi
    rcases List.mem_or_eq_of_mem_set hmem with hold | hnew
    · exact h.awake i hi hold
    · -- `stop` has been set before anybody is joined
      have hset : p.stop = true := h.stop.mpr (by rw [hi]; simp)
      exact absurd (hset.symm.trans (hwaiting hnew.symm)) (by simp)
  · intro i hi
    rw [hdestructor] at hi
    obtain ⟨hle, hall⟩ := h.joined i hi
    refine ⟨by rwa [hworkers, List.length_set], fun j hj => ?_⟩
    have hj' := hall j hj
    rw [hworkers, List.getElem?_set_ne, hj']
    rintro rfl
    exact ha (Option.some.inj (hw.symm.trans hj'))

/-- A worker exits only when the queue is empty for good. -/
theorem Stopping.test (h : Stopping n p) (hw : p.workers[w]? = some .ready) :
    Stopping n (p.test w) := by
  rw [ThreadPool.test]
  split
  · rename_i htasks
    refine h.set hw (by simp) rfl rfl rfl (fun hnil => hnil) ?_ ?_
    · intro hb
      split at hb
      · rename_i hstop
        exact ⟨hstop, htasks⟩
      · exact absurd hb (by simp)
    · intro hb
      split at hb
      · exact absurd hb (by simp)
      · rename_i hstop
        exact Bool.eq_false_iff.mpr hstop
  · rename_i k rest htasks
    refine h.set hw (by simp) rfl rfl rfl (fun hnil => ?_) (by simp) (by simp)
    exact absurd (htasks.symm.trans hnil) (by simp)

/-- Every step keeps this. -/
theorem Stopping.step (h : Stopping n p) (hstep : p.step e = some p') : Stopping n p' := by
  have hwake {w : ℕ} (hw : p.workers[w]? = some .waiting) : Stopping n (p.wake w) :=
    h.set hw (by simp) rfl rfl rfl (fun hnil => hnil) (by simp) (by simp)
  cases change_of_step hstep with
  | enqueue => exact ⟨h.length, h.stop, h.exited, h.awake, h.joined⟩
  | push k _ =>
    rw [ThreadPool.push]
    split
    · exact ⟨h.length, h.stop, h.exited, h.awake, h.joined⟩
    · rename_i hstop
      exact ⟨h.length, h.stop, fun hmem => absurd (h.exited hmem).1 hstop, h.awake, h.joined⟩
  | notifyOne k w _ hw =>
    obtain ⟨hlength, hstop, hexited, hawake, hjoined⟩ := hwake hw
    exact ⟨hlength, hstop, hexited, hawake, hjoined⟩
  | notifyNone k _ => exact ⟨h.length, h.stop, h.exited, h.awake, h.joined⟩
  | test w hw => exact h.test hw
  | wake w hw => exact hwake hw
  | finish w k hw =>
    exact h.set hw (by simp) rfl rfl rfl (fun hnil => hnil) (by simp) (by simp)
  | setStop hd =>
    refine ⟨h.length, by simp, fun hmem => ⟨rfl, (h.exited hmem).2⟩, ?_, ?_⟩
    · exact fun i hi => absurd hi (by simp)
    · exact fun i hi => absurd hi (by simp)
  | notifyAll hd =>
    -- after `notify_all` nobody waits, so every worker comes to its test of `stop`
    have hstop : p.stop = true := h.stop.mpr (by rw [hd]; simp)
    refine ⟨by rw [List.length_map, h.length], by simp [hstop], fun hmem => ?_, fun i _ hmem => ?_,
      fun i hi => ?_⟩
    · obtain ⟨x, hx, hnotified⟩ := List.mem_map.mp hmem
      cases x <;> simp only [notified, reduceCtorEq] at hnotified
      exact h.exited hx
    · obtain ⟨x, -, hnotified⟩ := List.mem_map.mp hmem
      cases x <;> simp [notified] at hnotified
    · obtain rfl : 0 = i := by simpa using hi
      exact ⟨Nat.zero_le _, fun j hj => absurd hj (Nat.not_lt_zero j)⟩
  | join i hd hw =>
    obtain ⟨-, hall⟩ := h.joined i hd
    refine ⟨h.length, ?_, h.exited, fun _ _ => h.awake i hd, fun j hj => ?_⟩
    · rw [h.stop, hd]
      simp
    · obtain rfl : i + 1 = j := by simpa using hj
      refine ⟨(List.getElem?_eq_some_iff.mp hw).1, fun m hm => ?_⟩
      by_cases heq : m = i
      · rw [heq]
        exact hw
      · exact hall m (by omega)

/-! ## The destructor finishes -/

/-- The worker has to go back to the test before it can exit. -/
def busy : Worker → Bool
  | .waiting | .running _ => true
  | .ready | .exited => false

/-- The steps of the destructor that are left, with so many workers. -/
def stepsLeft (n : ℕ) : Destructor → ℕ
  | .notCalled => n + 2
  | .stopped => n + 1
  | .joining i => n - i

/-- How many steps the pool is away from its end, when `stop` has been set. -/
def remaining (p : ThreadPool) : ℕ :=
  2 * p.tasks.length + p.workers.countP (· ≠ .exited) + p.workers.countP busy +
    stepsLeft p.workers.length p.destructor

/-- When `stop` is set, a test brings the pool nearer to its end. -/
theorem remaining_test_lt (hstop : p.stop = true) (hw : p.workers[w]? = some .ready) :
    (p.test w).remaining < p.remaining := by
  rw [ThreadPool.test]
  split
  · rename_i htasks
    simp only [remaining, List.length_set, hstop, if_true]
    have hexited := countP_set_add (b := .exited) (fun x : Worker => decide (x ≠ .exited)) hw
    have hbusy := countP_set_add (b := .exited) busy hw
    simp only [ne_eq, reduceCtorEq, not_false_eq_true, not_true_eq_false, decide_true, decide_false,
      if_true, Bool.false_eq_true, if_false, busy] at hexited hbusy ⊢
    omega
  · rename_i k rest htasks
    simp only [remaining, List.length_set, htasks, List.length_cons]
    have hexited := countP_set_add (b := .running k) (fun x : Worker => decide (x ≠ .exited)) hw
    have hbusy := countP_set_add (b := .running k) busy hw
    simp only [ne_eq, reduceCtorEq, not_false_eq_true, decide_true, if_true, Bool.false_eq_true,
      if_false, busy] at hexited hbusy ⊢
    omega

/-- The end of a task brings the pool nearer to its end. -/
theorem remaining_finish_lt (hw : p.workers[w]? = some (.running k)) :
    remaining { p with workers := p.workers.set w .ready, executed := p.executed ++ [k] } <
      p.remaining := by
  simp only [remaining, List.length_set]
  have hexited := countP_set_add (b := .ready) (fun x : Worker => decide (x ≠ .exited)) hw
  have hbusy := countP_set_add (b := .ready) busy hw
  simp only [ne_eq, reduceCtorEq, not_false_eq_true, decide_true, if_true, Bool.false_eq_true,
    if_false, busy] at hexited hbusy ⊢
  omega

/-- `notify_all` brings the pool nearer to its end. -/
theorem remaining_notifyAll_lt (hd : p.destructor = .stopped) :
    remaining { p with workers := p.workers.map notified, destructor := .joining 0 } <
      p.remaining := by
  have hexited : (p.workers.map notified).countP (· ≠ .exited) =
      p.workers.countP (· ≠ .exited) := by
    rw [List.countP_map]
    apply List.countP_congr
    intro x _
    cases x <;> simp [notified]
  have hbusy : (p.workers.map notified).countP busy ≤ p.workers.countP busy := by
    rw [List.countP_map]
    apply List.countP_mono_left
    intro x _
    cases x <;> simp [notified, busy]
  simp only [remaining, stepsLeft, hd, List.length_map, hexited]
  omega

/-- Once `stop` has been set, there is always a step that brings the pool closer to its end. -/
theorem exists_step (hI : Stopping n p) (hstop : p.stop = true) (hnot : ¬ p.Destroyed) :
    ∃ e p', p.step e = some p' ∧ p'.stop = true ∧ p'.remaining < p.remaining := by
  cases hd : p.destructor with
  | notCalled => exact absurd hd (hI.stop.mp hstop)
  | stopped =>
    exact ⟨.notifyAll, { p with workers := p.workers.map notified, destructor := .joining 0 },
      by simp only [step, if_pos hd], hstop, remaining_notifyAll_lt hd⟩
  | joining i =>
    -- the worker to be joined next
    obtain ⟨hle, -⟩ := hI.joined i hd
    have hlt : i < p.workers.length := by
      refine Nat.lt_of_le_of_ne hle fun heq => hnot ?_
      rw [Destroyed, hd, heq]
    have hw : p.workers[i]? = some p.workers[i] := List.getElem?_eq_getElem hlt
    cases hworker : p.workers[i] with
    | ready =>
      rw [hworker] at hw
      refine ⟨.test i, p.test i, by simp only [step, if_pos hw], ?_, remaining_test_lt hstop hw⟩
      rw [ThreadPool.test]
      split <;> exact hstop
    | waiting => exact absurd (hworker ▸ List.getElem_mem hlt) (hI.awake i hd)
    | running k =>
      rw [hworker] at hw
      exact ⟨.finish i, { p with workers := p.workers.set i .ready, executed := p.executed ++ [k] },
        by simp only [step, hw], hstop, remaining_finish_lt hw⟩
    | exited =>
      rw [hworker] at hw
      refine ⟨.join, { p with destructor := .joining (i + 1) },
        by simp only [step, hd, if_pos hw], hstop, ?_⟩
      simp only [remaining, stepsLeft, hd]
      omega

/-! ## Runs -/

/-- No worker has exited at the start. -/
theorem stopping_start (n : ℕ) : Stopping n (start n) := by
  refine ⟨List.length_replicate, by simp [start], fun hmem => ?_, fun i hi => ?_, fun i hi => ?_⟩
  · exact absurd (List.eq_of_mem_replicate hmem) (by simp)
  · exact absurd hi (by simp [start])
  · exact absurd hi (by simp [start])

/-- No task has been pushed at the start. -/
theorem queued_start (n : ℕ) : Queued (start n) :=
  ⟨rfl, List.Pairwise.nil, fun k => by simp [start, accepted]⟩

/-- No task has been taken at the start. -/
theorem executing_start (n : ℕ) : Executing (start n) := by
  intro k
  simp [start, List.count_replicate]

/-- What has been joined has exited. -/
theorem Stopping.exited_of_destroyed (h : Stopping n p) (hd : p.Destroyed) {x : Worker}
    (hx : x ∈ p.workers) : x = .exited := by
  obtain ⟨i, hi⟩ := List.getElem?_of_mem hx
  have hexited := (h.joined _ hd).2 i (List.getElem?_eq_some_iff.mp hi).1
  exact Option.some.inj (hi.symm.trans hexited)

/-- When all workers have exited, the queue is empty. -/
theorem Stopping.tasks_eq_nil (h : Stopping n p) (hn : 0 < n)
    (hall : ∀ x ∈ p.workers, x = .exited) :
    p.tasks = [] := by
  obtain ⟨x, hx⟩ := List.exists_mem_of_length_pos (h.length ▸ hn)
  exact (h.exited (hall x hx ▸ hx)).2

/-- **Thread pool.** With at least one worker, in every state of every run: the tasks are taken in
the order in which they were enqueued; no task is executed twice; a task whose `enqueue` has thrown
is not taken or executed; when all workers have exited the queue is empty; when the destructor is
through, every task that has been accepted has been executed exactly once; and the destructor gets
through once it has been called: as long as it is not, there are steps that take it to its end. -/
theorem executes_every_task {n : ℕ} (hn : 0 < n) {es : List Event} {p : ThreadPool}
    (h : run step (start n) es = some p) :
    p.enqueued = p.taken ++ p.tasks ∧
      (∀ k, p.executed.count k ≤ 1) ∧
      (∀ k, p.calls[k]? = some .threw → k ∉ p.taken ∧ k ∉ p.executed) ∧
      ((∀ x ∈ p.workers, x = .exited) → p.tasks = []) ∧
      (p.Destroyed → ∀ k, p.calls[k]? = some .pushed ∨ p.calls[k]? = some .returned →
        p.executed.count k = 1) ∧
      (p.destructor ≠ .notCalled → ∃ fs u, run step p fs = some u ∧ u.Destroyed) := by
  obtain ⟨hqueued, hexecuting, hstopping⟩ : Queued p ∧ Executing p ∧ Stopping n p :=
    run_induction (P := fun p => Queued p ∧ Executing p ∧ Stopping n p)
      ⟨queued_start n, executing_start n, stopping_start n⟩
      (fun _ _ _ hI ht => ⟨hI.1.step ht, hI.2.1.step ht, hI.2.2.step ht⟩) h
  refine ⟨hqueued.queue, fun k => ?_, fun k hk => ?_, hstopping.tasks_eq_nil hn,
    fun hd k hk => ?_, fun hd => ?_⟩
  · have hcount := hqueued.count_enqueued k
    have honce := hqueued.count_enqueued_le_one k
    have htaken := hexecuting k
    omega
  · have hnot : k ∉ p.enqueued := by
      rw [hqueued.calls, accepted_of_getElem? hk]
      simp
    have hzero : p.enqueued.count k = 0 := List.count_eq_zero.mpr hnot
    have hcount := hqueued.count_enqueued k
    have htaken := hexecuting k
    exact ⟨List.count_eq_zero.mp (by omega), List.count_eq_zero.mp (by omega)⟩
  · have hmem : k ∈ p.enqueued := by
      rw [hqueued.calls, accepted]
      rcases hk with hk | hk <;> rw [hk] <;> rfl
    have hpos := List.count_pos_iff.mpr hmem
    -- all workers have exited, which they do with an empty queue only
    have htasks := hstopping.tasks_eq_nil hn fun x hx => hstopping.exited_of_destroyed hd hx
    have hidle : p.workers.count (.running k) = 0 := by
      refine List.count_eq_zero.mpr fun hrunning => ?_
      exact absurd (hstopping.exited_of_destroyed hd hrunning) (by simp)
    have hcount := hqueued.count_enqueued k
    rw [htasks, List.count_nil] at hcount
    have honce := hqueued.count_enqueued_le_one k
    have htaken := hexecuting k
    omega
  · -- something can be done until the destructor returns, and every step leaves less to do
    refine run_reaches (I := fun p => Stopping n p ∧ p.stop = true) (f := remaining)
      ⟨hstopping, hstopping.stop.mpr hd⟩ fun q hq hnot => ?_
    obtain ⟨e, q', hq', hstop, hlt⟩ := exists_step hq.1 hq.2 hnot
    exact ⟨e, q', hq', ⟨hq.1.step hq', hstop⟩, hlt⟩

/-- Two workers, of which one waits in vain, and two tasks, the second of which is pushed just
before `stop` is set and executed after that; a third comes too late. -/
theorem executes_every_task_two_workers : ∃ p, run step (start 2)
      [.test 1, .enqueue, .push 0, .notifyOne 0 (some 1), .test 0, .enqueue, .push 1, .setStop,
        .finish 0, .notifyOne 1 none, .enqueue, .push 2, .test 1, .notifyAll, .finish 1, .test 1,
        .test 0, .join, .join] = some p ∧
      p.Destroyed ∧ p.calls = [.returned, .returned, .threw] ∧ p.executed.count 0 = 1 ∧
      p.executed.count 1 = 1 ∧ 2 ∉ p.executed := by
  obtain ⟨p, hrun, hd, hcalls⟩ : ∃ p, run step (start 2)
      [.test 1, .enqueue, .push 0, .notifyOne 0 (some 1), .test 0, .enqueue, .push 1, .setStop,
        .finish 0, .notifyOne 1 none, .enqueue, .push 2, .test 1, .notifyAll, .finish 1, .test 1,
        .test 0, .join, .join] = some p ∧
      p.Destroyed ∧ p.calls = [.returned, .returned, .threw] := ⟨_, rfl, by decide, rfl⟩
  obtain ⟨-, -, hthrew, -, hall, -⟩ := executes_every_task (by decide) hrun
  refine ⟨p, hrun, hd, hcalls, hall hd 0 (Or.inr ?_), hall hd 1 (Or.inr ?_), (hthrew 2 ?_).2⟩ <;>
    rw [hcalls] <;> rfl

end ThreadPool

end TurboNet.Epoll
