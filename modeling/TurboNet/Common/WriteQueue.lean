import Mathlib.Data.List.Basic
import Mathlib.Tactic.Common

/-!
# A queue of buffers that is written front first

A sender keeps the buffers it has still to write in a queue. A write is of the front of the queue:
it is begun when a buffer comes into an empty queue, and when a write has completed, which takes the
front away, and there are buffers left. Nothing else says whether a write is in flight, so a queue
that is not empty stands for a write. A write that fails leaves the queue as it is.

Writes go to a stream, which may be replaced by another one. `Front` holds whatever happens;
`Fifo` holds as long as no write fails; `Running` says that the queue tells the truth about the
writes on a stream; `firstOn` is what was written first on a stream.
-/

namespace Common

structure WriteQueue (σ β : Type*) where
  queue : List β := []
  /-- The writes in flight: the stream, and the buffer. -/
  writes : List (σ × β) := []
  /-- History: the writes that have been begun. -/
  begun : List (σ × β) := []
  /-- History: the buffers that have been written. -/
  written : List β := []
  /-- History: the buffers that have come in. -/
  pushed : List β := []
deriving DecidableEq, Repr

namespace WriteQueue

variable {σ β : Type*} {q q' : WriteQueue σ β} {s : σ} {i : ℕ}

/-- Begin to write the front. -/
def doWrite (q : WriteQueue σ β) (s : σ) : WriteQueue σ β :=
  match q.queue with
  | b :: _ => { q with writes := q.writes ++ [(s, b)], begun := q.begun ++ [(s, b)] }
  | [] => q

/-- A buffer comes in. -/
def push (q : WriteQueue σ β) (s : σ) (b : β) : WriteQueue σ β :=
  let q' := { q with queue := q.queue ++ [b], pushed := q.pushed ++ [b] }
  if q.queue.isEmpty then q'.doWrite s else q'

/-- The `i`-th write in flight completes. -/
def complete (q : WriteQueue σ β) (s : σ) (i : ℕ) : Option (WriteQueue σ β) :=
  q.writes[i]?.map fun w =>
    let q' := { q with
      writes := q.writes.eraseIdx i
      written := q.written ++ [w.2]
      queue := q.queue.tail }
    if q'.queue.isEmpty then q' else q'.doWrite s

/-- The `i`-th write in flight fails. -/
def fail (q : WriteQueue σ β) (i : ℕ) : Option (WriteQueue σ β) :=
  q.writes[i]?.map fun _ => { q with writes := q.writes.eraseIdx i }

/-! ## At most one write -/

/-- At most one write is in flight, of the front, and what has been written and what is queued is
what has come in. -/
structure Front (q : WriteQueue σ β) : Prop where
  one : q.writes.length ≤ 1
  front : ∀ w ∈ q.writes, q.queue.head? = some w.2
  order : q.written ++ q.queue = q.pushed

/-- Nothing is being written at the start. -/
theorem front_empty : Front ({} : WriteQueue σ β) where
  one := Nat.zero_le 1
  front := List.forall_mem_nil _
  order := rfl

/-- A write in flight is the only one. -/
theorem Front.writes_of_mem (h : q.Front) {w : σ × β} (hw : w ∈ q.writes) : q.writes = [w] := by
  have hone := h.one
  rcases hwrites : q.writes with _ | ⟨a, _ | ⟨b, l⟩⟩
  · simp [hwrites] at hw
  · rw [hwrites, List.mem_singleton] at hw
    rw [hw]
  · simp [hwrites] at hone

/-- If there is a write, it is the only one, and of the front of the queue. -/
theorem Front.getElem?_eq_some (h : q.Front) {w : σ × β} (hi : q.writes[i]? = some w) :
    q.writes = [w] ∧ i = 0 ∧ q.queue = w.2 :: q.queue.tail := by
  have hwrites := h.writes_of_mem (List.mem_of_getElem? hi)
  have hfront := h.front w (List.mem_of_getElem? hi)
  refine ⟨hwrites, ?_, ?_⟩
  · rw [hwrites] at hi
    obtain ⟨hlt, -⟩ := List.getElem?_eq_some_iff.mp hi
    simpa using hlt
  · cases hqueue : q.queue with
    | nil => simp [hqueue] at hfront
    | cons b l =>
      rw [hqueue, List.head?_cons, Option.some.injEq] at hfront
      rw [hfront, List.tail_cons]

/-- The queue after a push, by cases. -/
theorem push_cases (q : WriteQueue σ β) (s : σ) (b : β) :
    q.queue = [] ∧ q.push s b = { q with
      queue := [b]
      pushed := q.pushed ++ [b]
      writes := q.writes ++ [(s, b)]
      begun := q.begun ++ [(s, b)] } ∨
    q.queue ≠ [] ∧ q.push s b = { q with queue := q.queue ++ [b], pushed := q.pushed ++ [b] } := by
  rw [push]
  cases hqueue : q.queue with
  | nil => exact Or.inl ⟨rfl, rfl⟩
  | cons a l => exact Or.inr ⟨by simp, rfl⟩

/-- The queue when the write in flight has completed, by cases. -/
theorem Front.complete_cases (h : q.Front) (hq : q.complete s i = some q') :
    ∃ w, q.writes = [w] ∧ q.queue = w.2 :: q.queue.tail ∧
      (q.queue.tail = [] ∧ q' = { q with
        queue := []
        writes := []
        written := q.written ++ [w.2] } ∨
      ∃ b l, q.queue.tail = b :: l ∧ q' = { q with
        queue := b :: l
        writes := [(s, b)]
        begun := q.begun ++ [(s, b)]
        written := q.written ++ [w.2] }) := by
  obtain ⟨w, hw, rfl⟩ := Option.map_eq_some_iff.mp hq
  obtain ⟨hwrites, rfl, hqueue⟩ := h.getElem?_eq_some hw
  refine ⟨w, hwrites, hqueue, ?_⟩
  cases htail : q.queue.tail with
  | nil =>
    refine Or.inl ⟨rfl, ?_⟩
    simp [hwrites]
  | cons b l =>
    refine Or.inr ⟨b, l, rfl, ?_⟩
    simp [hwrites, doWrite]

/-- When a write fails, its buffer stays at the front of the queue. -/
theorem Front.fail_eq (h : q.Front) (hq : q.fail i = some q') :
    ∃ w, q.writes = [w] ∧ q.queue = w.2 :: q.queue.tail ∧ q' = { q with writes := [] } := by
  obtain ⟨w, hw, rfl⟩ := Option.map_eq_some_iff.mp hq
  obtain ⟨hwrites, rfl, hqueue⟩ := h.getElem?_eq_some hw
  exact ⟨w, hwrites, hqueue, by simp [hwrites]⟩

/-- A buffer goes behind the one that is being written, or is written at once. -/
theorem Front.push (h : q.Front) (s : σ) (b : β) : (q.push s b).Front := by
  have horder := h.order
  rcases q.push_cases s b with ⟨hqueue, heq⟩ | ⟨hqueue, heq⟩
  · -- an empty queue has no write in flight
    have hwrites : q.writes = [] := by
      rw [List.eq_nil_iff_forall_not_mem]
      intro w hw
      have hfront := h.front w hw
      simp [hqueue] at hfront
    rw [heq]
    constructor
    · simp [hwrites]
    · simp [hwrites]
    · rw [hqueue, List.append_nil] at horder
      rw [horder]
  · rw [heq]
    constructor
    · exact h.one
    · intro w hw
      rw [List.head?_append_of_ne_nil _ hqueue]
      exact h.front w hw
    · rw [← List.append_assoc, horder]

/-- When a write is complete, the next buffer is written. -/
theorem Front.complete (h : q.Front) (hq : q.complete s i = some q') : q'.Front := by
  obtain ⟨w, -, hqueue, hcases⟩ := h.complete_cases hq
  have horder := h.order
  rw [hqueue] at horder
  rcases hcases with ⟨htail, rfl⟩ | ⟨b, l, htail, rfl⟩
  · rw [htail] at horder
    exact ⟨by simp, by simp, by simpa using horder⟩
  · rw [htail] at horder
    exact ⟨by simp, by simp, by simpa using horder⟩

/-- When a write has failed, nothing is being written. -/
theorem Front.fail (h : q.Front) (hq : q.fail i = some q') : q'.Front := by
  obtain ⟨w, -, -, rfl⟩ := h.fail_eq hq
  exact ⟨by simp, by simp, h.order⟩

/-! ## Exactly one write -/

/-- Exactly the front is being written, and what has been written and what is queued is what has
come in. -/
structure Fifo (q : WriteQueue σ β) : Prop where
  writes : q.writes.map Prod.snd = q.queue.take 1
  order : q.written ++ q.queue = q.pushed

/-- An empty queue writes nothing. -/
theorem fifo_empty : Fifo ({} : WriteQueue σ β) := ⟨rfl, rfl⟩

/-- Exactly one write is at most one. -/
theorem Fifo.toFront (h : q.Fifo) : q.Front where
  one := by
    have hlength := congrArg List.length h.writes
    rw [List.length_map, List.length_take] at hlength
    omega
  front w hw := by
    have hmem : w.2 ∈ q.queue.take 1 := h.writes ▸ List.mem_map_of_mem hw
    cases hqueue : q.queue with
    | nil => simp [hqueue] at hmem
    | cons b l =>
      rw [hqueue, List.take_succ_cons, List.take_zero, List.mem_singleton] at hmem
      rw [hmem, List.head?_cons]
  order := h.order

/-- A buffer is written at once if the queue is empty, and waits otherwise. -/
theorem Fifo.push (h : q.Fifo) (s : σ) (b : β) : (q.push s b).Fifo := by
  refine ⟨?_, (h.toFront.push s b).order⟩
  have hwrites := h.writes
  rcases q.push_cases s b with ⟨hqueue, heq⟩ | ⟨hqueue, heq⟩
  · rw [hqueue] at hwrites
    rw [heq, List.map_append, hwrites]
    rfl
  · rw [heq, hwrites]
    exact (List.take_append_of_le_length (List.length_pos_iff.mpr hqueue)).symm

/-- The end of a write begins that of the next front. -/
theorem Fifo.complete (h : q.Fifo) (hq : q.complete s i = some q') : q'.Fifo := by
  refine ⟨?_, (h.toFront.complete hq).order⟩
  obtain ⟨w, -, -, hcases⟩ := h.toFront.complete_cases hq
  rcases hcases with ⟨-, rfl⟩ | ⟨b, l, -, rfl⟩
  · rfl
  · rfl

/-- What is in flight and what is queued stays as it is; more may have come. -/
structure Kept (q q' : WriteQueue σ β) : Prop where
  writes : q.writes <+: q'.writes
  queue : q.queue <+: q'.queue

/-- It stays when nothing happens. -/
theorem Kept.refl (q : WriteQueue σ β) : q.Kept q := ⟨List.prefix_rfl, List.prefix_rfl⟩

/-- It stays when a buffer is pushed. -/
theorem kept_push (q : WriteQueue σ β) (s : σ) (b : β) : q.Kept (q.push s b) := by
  rcases q.push_cases s b with ⟨hqueue, heq⟩ | ⟨-, heq⟩
  · rw [heq]
    refine ⟨List.prefix_append _ _, ?_⟩
    rw [hqueue]
    exact List.nil_prefix
  · rw [heq]
    exact ⟨List.prefix_rfl, List.prefix_append _ _⟩

/-- A buffer that is pushed comes after those before. -/
theorem pushed_push (q : WriteQueue σ β) (s : σ) (b : β) :
    (q.push s b).pushed = q.pushed ++ [b] := by
  rcases q.push_cases s b with ⟨-, heq⟩ | ⟨-, heq⟩
  · rw [heq]
  · rw [heq]

/-- The end of a write pushes nothing. -/
theorem pushed_complete (hq : q.complete s i = some q') : q'.pushed = q.pushed := by
  obtain ⟨w, -, rfl⟩ := Option.map_eq_some_iff.mp hq
  simp only [doWrite]
  split
  · rfl
  · split <;> rfl

/-- A write that fails pushes nothing. -/
theorem pushed_fail (hq : q.fail i = some q') : q'.pushed = q.pushed := by
  obtain ⟨w, -, rfl⟩ := Option.map_eq_some_iff.mp hq
  rfl

/-! ## The queue and the stream -/

/-- The queue is not empty exactly when a write is in flight on the stream. -/
def Running (q : WriteQueue σ β) (s : σ) : Prop := q.queue ≠ [] ↔ ∃ w ∈ q.writes, w.1 = s

/-- A buffer that is pushed is written, or waits for a write on the same stream. -/
theorem Running.push (h : q.Running s) (b : β) : (q.push s b).Running s := by
  rcases q.push_cases s b with ⟨hqueue, heq⟩ | ⟨hqueue, heq⟩
  · rw [Running, heq]
    exact iff_of_true (by simp) ⟨(s, b), by simp, rfl⟩
  · rw [Running, heq]
    exact iff_of_true (by simp) (h.mp hqueue)

/-- The end of a write begins the next one, if a buffer waits. -/
theorem Running.complete (h : q.Front) (hq : q.complete s i = some q') : q'.Running s := by
  obtain ⟨w, -, -, hcases⟩ := h.complete_cases hq
  rcases hcases with ⟨-, rfl⟩ | ⟨b, l, -, rfl⟩
  · exact iff_of_false (by simp) (by simp)
  · exact iff_of_true (by simp) ⟨(s, b), by simp, rfl⟩

/-- A queue whose write has failed waits for ever. -/
theorem Front.not_running_of_fail (h : q.Front) (hq : q.fail i = some q') (s : σ) :
    ¬ q'.Running s := by
  obtain ⟨w, -, hqueue, rfl⟩ := h.fail_eq hq
  intro hrunning
  have hne : q.queue ≠ [] := by
    rw [hqueue]
    simp
  simpa using hrunning.mp hne

/-- On a stream that no write has been begun on, the queue tells the truth when it is empty. -/
theorem running_iff_of_fresh (hfresh : ∀ w ∈ q.writes, w.1 ≠ s) :
    q.Running s ↔ q.queue = [] := by
  have hnone : ¬ ∃ w ∈ q.writes, w.1 = s := fun ⟨w, hw, hs⟩ => hfresh w hw hs
  rw [Running, iff_false_right hnone, not_not]

/-! ## The writes that have been begun -/

/-- The writes have been begun on streams of this kind. -/
structure On (q : WriteQueue σ β) (S : σ → Prop) : Prop where
  front : q.Front
  begun : ∀ w ∈ q.writes, w ∈ q.begun
  stream : ∀ w ∈ q.begun, S w.1

section On

variable {S S' : σ → Prop}

/-- The empty queue writes on no socket. -/
theorem on_empty (S : σ → Prop) : On ({} : WriteQueue σ β) S where
  front := front_empty
  begun := List.forall_mem_nil _
  stream := List.forall_mem_nil _

/-- What is written on some sockets is written on more of them. -/
theorem On.mono (h : q.On S) (hS : ∀ s, S s → S' s) : q.On S' :=
  ⟨h.front, h.begun, fun w hw => hS _ (h.stream w hw)⟩

/-- A buffer that is pushed is written on one of the sockets. -/
theorem On.push (h : q.On S) (hs : S s) (b : β) : (q.push s b).On S := by
  rcases q.push_cases s b with ⟨-, heq⟩ | ⟨-, heq⟩
  · refine ⟨h.front.push s b, ?_, ?_⟩
    · rw [heq]
      intro w hw
      rcases List.mem_append.mp hw with hw | hw
      · exact List.mem_append_left _ (h.begun w hw)
      · exact List.mem_append_right _ hw
    · rw [heq]
      intro w hw
      rcases List.mem_append.mp hw with hw | hw
      · exact h.stream w hw
      · obtain rfl := List.mem_singleton.mp hw
        exact hs
  · refine ⟨h.front.push s b, ?_, ?_⟩
    · rw [heq]
      exact h.begun
    · rw [heq]
      exact h.stream

/-- The next buffer is written on one of the sockets. -/
theorem On.complete (h : q.On S) (hs : S s) (hq : q.complete s i = some q') : q'.On S := by
  have hfront := h.front.complete hq
  obtain ⟨w, -, -, hcases⟩ := h.front.complete_cases hq
  rcases hcases with ⟨-, rfl⟩ | ⟨b, l, -, rfl⟩
  · exact ⟨hfront, List.forall_mem_nil _, h.stream⟩
  · refine ⟨hfront, fun w hw => List.mem_append_right _ hw, fun w hw => ?_⟩
    rcases List.mem_append.mp hw with hw | hw
    · exact h.stream w hw
    · obtain rfl := List.mem_singleton.mp hw
      exact hs

/-- A write that fails leaves the others on their sockets. -/
theorem On.fail (h : q.On S) (hq : q.fail i = some q') : q'.On S := by
  have hfront := h.front.fail hq
  obtain ⟨w, -, -, rfl⟩ := h.front.fail_eq hq
  exact ⟨hfront, List.forall_mem_nil _, h.stream⟩

end On

/-- The buffers that are queued or have been begun to be written. -/
def seen (q : WriteQueue σ β) : List β := q.begun.map Prod.snd ++ q.queue

/-- A queue that a buffer is pushed to has seen this one besides. -/
theorem mem_seen_push {b c : β} (hc : c ∈ (q.push s b).seen) : c ∈ q.seen ∨ c = b := by
  rw [seen, List.mem_append] at hc ⊢
  rcases q.push_cases s b with ⟨hqueue, heq⟩ | ⟨hqueue, heq⟩
  · rw [heq] at hc
    simp only [List.map_append, List.map_cons, List.map_nil, List.mem_append,
      List.mem_singleton] at hc
    tauto
  · rw [heq] at hc
    simp only [List.mem_append, List.mem_singleton] at hc
    tauto

/-- The end of a write shows the queue no new buffer. -/
theorem mem_seen_complete (h : q.Front) (hq : q.complete s i = some q') {c : β}
    (hc : c ∈ q'.seen) : c ∈ q.seen := by
  obtain ⟨w, -, hqueue, hcases⟩ := h.complete_cases hq
  rw [seen, hqueue]
  rcases hcases with ⟨htail, rfl⟩ | ⟨b, l, htail, rfl⟩
  · simp only [seen, List.append_nil] at hc
    exact List.mem_append_left _ hc
  · -- the buffer that is begun comes from the queue
    simp only [seen, List.map_append, List.map_cons, List.map_nil, List.mem_append,
      List.mem_cons, List.not_mem_nil, or_false] at hc
    simp only [htail, List.mem_append, List.mem_cons]
    tauto

/-- A write that fails shows the queue no new buffer. -/
theorem mem_seen_fail (hq : q.fail i = some q') {c : β} (hc : c ∈ q'.seen) : c ∈ q.seen := by
  obtain ⟨w, -, rfl⟩ := Option.map_eq_some_iff.mp hq
  exact hc

section First

variable [DecidableEq σ]

/-- The first buffer that was begun to be written on a stream. -/
def firstOn (q : WriteQueue σ β) (s : σ) : Option β :=
  (q.begun.find? fun w => decide (w.1 = s)).map Prod.snd

/-- A queue that tells the truth and is not empty has begun a write on the stream. -/
theorem isSome_firstOn {S : σ → Prop} (h : q.On S) (hrunning : q.Running s) (hne : q.queue ≠ []) :
    (q.firstOn s).isSome = true := by
  obtain ⟨w, hw, hs⟩ := hrunning.mp hne
  rw [firstOn, Option.isSome_map, List.find?_isSome]
  exact ⟨w, h.begun w hw, decide_eq_true hs⟩

/-- What was written first on a socket has been in the queue. -/
theorem mem_seen_of_firstOn {b : β} (h : q.firstOn s = some b) : b ∈ q.seen := by
  obtain ⟨w, hw, rfl⟩ := Option.map_eq_some_iff.mp h
  exact List.mem_append_left _ (List.mem_map_of_mem (List.mem_of_find?_eq_some hw))

/-- A write that fails was begun before. -/
theorem firstOn_fail (hq : q.fail i = some q') (s : σ) : q'.firstOn s = q.firstOn s := by
  obtain ⟨w, -, rfl⟩ := Option.map_eq_some_iff.mp hq
  rfl

/-- One more write is the first one on its socket, if there was none before. -/
theorem firstOn_of_begun {b : β} (h : q'.begun = q.begun ++ [(s, b)]) (s' : σ) :
    q'.firstOn s' = (q.firstOn s').or (if s = s' then some b else none) := by
  rw [firstOn, h, List.find?_append, Option.map_or, ← firstOn]
  by_cases hs : s = s'
  · simp [hs]
  · simp [hs]

/-- A buffer that is pushed to an empty queue is the first one on its socket, if there was none
before. -/
theorem firstOn_push (q : WriteQueue σ β) (s : σ) (b : β) (s' : σ) :
    (q.push s b).firstOn s' =
      (q.firstOn s').or (if q.queue = [] ∧ s = s' then some b else none) := by
  rcases q.push_cases s b with ⟨hqueue, heq⟩ | ⟨hqueue, heq⟩
  · have hbegun : (q.push s b).begun = q.begun ++ [(s, b)] := by rw [heq]
    simpa only [hqueue, true_and] using firstOn_of_begun hbegun s'
  · simp [firstOn, heq, hqueue]

/-- The buffer that is written next is not the first one. -/
theorem firstOn_complete {S : σ → Prop} (h : q.On S) (hrunning : q.Running s)
    (hq : q.complete s i = some q') (s' : σ) : q'.firstOn s' = q.firstOn s' := by
  obtain ⟨w, -, hqueue, hcases⟩ := h.front.complete_cases hq
  rcases hcases with ⟨-, rfl⟩ | ⟨b, l, -, rfl⟩
  · rfl
  · rw [firstOn_of_begun rfl]
    by_cases hs : s = s'
    · subst hs
      refine Option.or_of_isSome (isSome_firstOn h hrunning ?_)
      rw [hqueue]
      simp
    · simp [hs]

end First

end WriteQueue

end Common
