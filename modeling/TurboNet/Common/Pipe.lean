import TurboNet.Common.WriteQueue

/-!
# A stream from a write queue to a reader

The buffers of a `WriteQueue` are written to a stream of items. The network takes the items of a
write in pieces, and the reader takes what the network has taken, in order. `Carries` says where
what the reader has still to get is: with the network, in the write in flight, in the queue, or in
buffers that have yet to come into the queue. A write that has failed breaks the stream: the reader
gets no more than what was taken before.
-/

namespace Common

structure Pipe (α : Type*) where
  /-- What the network has yet to take of the writes that have been begun. -/
  left : List α := []
  /-- What the network has taken, and the reader has not. -/
  transit : List α := []
deriving DecidableEq, Repr

namespace Pipe

variable {α σ β : Type*} {bytes : β → List α} {q q' : WriteQueue σ β} {posts : List β}
  {p p' : Pipe α} {rest bs more : List α} {s : σ} {b : β} {i : ℕ}

/-- The queue has gone on, and has begun writes. -/
def write (bytes : β → List α) (q q' : WriteQueue σ β) (p : Pipe α) : Pipe α :=
  { p with left := p.left ++ (q'.begun.drop q.begun.length).flatMap fun w => bytes w.2 }

/-- The network takes some items. -/
def carry (p : Pipe α) (n : ℕ) : Pipe α :=
  { left := p.left.drop n, transit := p.transit ++ p.left.take n }

/-- The reader takes these items, if they are the next ones. -/
def read [DecidableEq α] (p : Pipe α) (bs : List α) : Option (Pipe α) :=
  if bs <+: p.transit then some { p with transit := p.transit.drop bs.length } else none

/-- A queue that begins nothing leaves the pipe. -/
theorem write_of_begun (h : q'.begun = q.begun) : p.write bytes q q' = p := by
  rw [write, h, List.drop_length, List.flatMap_nil, List.append_nil]

/-- A write that begins puts its bytes into the pipe. -/
theorem write_of_begun_append (h : q'.begun = q.begun ++ [(s, b)]) :
    p.write bytes q q' = { p with left := p.left ++ bytes b } := by
  rw [write, h, List.drop_left, List.flatMap_singleton]

/-- Nothing is carried through an empty pipe. -/
theorem carry_empty (n : ℕ) : ({} : Pipe α).carry n = {} := by
  simp only [carry, List.take_nil, List.drop_nil, List.append_nil]

/-- Carrying loses nothing. -/
theorem carry_all (p : Pipe α) (n : ℕ) :
    (p.carry n).transit ++ (p.carry n).left = p.transit ++ p.left := by
  rw [Pipe.carry, List.append_assoc, List.take_append_drop]

/-- A read takes what is first in transit. -/
theorem read_eq_some [DecidableEq α] (h : p.read bs = some p') :
    bs <+: p.transit ∧ p' = { p with transit := p.transit.drop bs.length } := by
  obtain ⟨hbs, heq⟩ := Option.ite_none_right_eq_some.mp h
  exact ⟨hbs, (Option.some.inj heq).symm⟩

/-- The reader takes the first of a stream that begins with what the network has taken. -/
theorem read_stream [DecidableEq α] (h : p.read bs = some p') (hrest : p.transit ++ more = rest) :
    bs <+: rest ∧ p'.left = p.left ∧ p'.transit ++ more = rest.drop bs.length := by
  obtain ⟨⟨tail, htail⟩, rfl⟩ := read_eq_some h
  rw [← hrest, ← htail, List.append_assoc, List.drop_left, List.drop_left]
  exact ⟨List.prefix_append _ _, rfl, rfl⟩

/-- What is read is first in the stream, and the rest stays so. -/
theorem read_stream_prefix [DecidableEq α] (h : p.read bs = some p')
    (hrest : p.transit ++ more <+: rest) :
    bs <+: rest ∧ p'.left = p.left ∧ p'.transit ++ more <+: rest.drop bs.length := by
  obtain ⟨end', rfl⟩ := hrest
  have hall : p.transit ++ (more ++ end') = p.transit ++ more ++ end' :=
    (List.append_assoc _ _ _).symm
  obtain ⟨hbs, hleft, htransit⟩ := read_stream h hall
  refine ⟨hbs, hleft, end', ?_⟩
  rw [List.append_assoc, htransit]

/-! ## What is to come -/

/-- The reader has still to get `rest`. `posts` are the buffers that have yet to come into the
queue. -/
inductive Carries (bytes : β → List α) (q : WriteQueue σ β) (posts : List β) (p : Pipe α)
    (rest : List α) : Prop where
  | flows (hfifo : q.Fifo) (hidle : q.queue = [] → p.left = [])
      (hrest : p.transit ++ (p.left ++ (q.queue.tail ++ posts).flatMap bytes) = rest)
  | broken (hwrites : q.writes = []) (hqueue : q.queue ≠ [])
      (hrest : p.transit ++ p.left <+: rest)

/-- An empty pipe carries nothing. -/
theorem carries_empty : Carries bytes ({} : WriteQueue σ β) [] {} [] :=
  .flows WriteQueue.fifo_empty (fun _ => rfl) rfl

/-- More posts are more to be carried. -/
theorem Carries.post (h : Carries bytes q posts p rest) (new : List β) :
    Carries bytes q (posts ++ new) p (rest ++ new.flatMap bytes) := by
  cases h with
  | flows hfifo hidle hrest =>
    refine .flows hfifo hidle ?_
    rw [← hrest]
    simp only [List.flatMap_append, List.append_assoc]
  | broken hwrites hqueue hrest =>
    exact .broken hwrites hqueue (hrest.trans (List.prefix_append _ _))

/-- The next buffer comes into the queue. -/
theorem Carries.push (h : Carries bytes q (b :: posts) p rest) (s : σ) :
    Carries bytes (q.push s b) posts (p.write bytes q (q.push s b)) rest := by
  cases h with
  | flows hfifo hidle hrest =>
    have hpush := hfifo.push s b
    rcases q.push_cases s b with ⟨hqueue, heq⟩ | ⟨hqueue, heq⟩
    · -- the write of the buffer is begun
      rw [write_of_begun_append (by rw [heq])]
      refine .flows hpush (fun hnil => ?_) ?_
      · rw [heq] at hnil
        cases hnil
      · rw [← hrest, heq, hqueue]
        simp
    · rw [write_of_begun (by rw [heq])]
      refine .flows hpush (fun hnil => ?_) ?_
      · rw [heq] at hnil
        exact absurd (List.append_eq_nil_iff.mp hnil).1 hqueue
      · rw [← hrest, heq]
        simp [List.tail_append_of_ne_nil hqueue]
  | broken hwrites hqueue hrest =>
    rcases q.push_cases s b with ⟨hnil, -⟩ | ⟨-, heq⟩
    · exact absurd hnil hqueue
    · rw [write_of_begun (by rw [heq])]
      refine .broken (by rw [heq]; exact hwrites) (fun hnil => ?_) hrest
      rw [heq] at hnil
      exact absurd (List.append_eq_nil_iff.mp hnil).1 hqueue

/-- A write completes when the network has taken all of it. -/
theorem Carries.complete (h : Carries bytes q posts p rest) (hq : q.complete s i = some q')
    (hleft : p.left = []) : Carries bytes q' posts (p.write bytes q q') rest := by
  cases h with
  | flows hfifo hidle hrest =>
    have hcomplete := hfifo.complete hq
    rw [hleft, List.nil_append] at hrest
    obtain ⟨w, -, -, ⟨htail, heq⟩ | ⟨b, l, htail, heq⟩⟩ := hfifo.toFront.complete_cases hq
    · rw [write_of_begun (by rw [heq])]
      refine .flows hcomplete (fun _ => hleft) ?_
      rw [← hrest, hleft, htail, heq]
      rfl
    · rw [write_of_begun_append (by rw [heq])]
      refine .flows hcomplete (fun hnil => ?_) ?_
      · rw [heq] at hnil
        cases hnil
      · rw [← hrest, hleft, htail, heq]
        simp
  | broken hwrites =>
    obtain ⟨w, hw, -⟩ := Option.map_eq_some_iff.mp hq
    simp [hwrites] at hw

/-- A write that fails breaks the stream. -/
theorem Carries.fail (h : Carries bytes q posts p rest) (hq : q.fail i = some q') :
    Carries bytes q' posts (p.write bytes q q') rest := by
  cases h with
  | flows hfifo hidle hrest =>
    obtain ⟨w, -, hqueue, heq⟩ := hfifo.toFront.fail_eq hq
    rw [write_of_begun (by rw [heq])]
    refine .broken (by rw [heq]) (fun hnil => ?_) ?_
    · rw [heq] at hnil
      rw [hnil] at hqueue
      cases hqueue
    · rw [← hrest, ← List.append_assoc]
      exact List.prefix_append _ _
  | broken hwrites =>
    obtain ⟨w, hw, -⟩ := Option.map_eq_some_iff.mp hq
    simp [hwrites] at hw

/-- Carrying leaves what the reader has still to get. -/
theorem Carries.carry (h : Carries bytes q posts p rest) (n : ℕ) :
    Carries bytes q posts (p.carry n) rest := by
  cases h with
  | flows hfifo hidle hrest =>
    refine .flows hfifo (fun hnil => ?_) ?_
    · rw [Pipe.carry, hidle hnil, List.drop_nil]
    · rw [← List.append_assoc, carry_all, List.append_assoc]
      exact hrest
  | broken hwrites hqueue hrest => exact .broken hwrites hqueue (p.carry_all n ▸ hrest)

/-- The reader takes the first of what it has to get. -/
theorem Carries.read [DecidableEq α] (h : Carries bytes q posts p rest) (hp : p.read bs = some p') :
    bs <+: rest ∧ Carries bytes q posts p' (rest.drop bs.length) := by
  cases h with
  | flows hfifo hidle hrest =>
    obtain ⟨hbs, hleft, hrest'⟩ := read_stream hp hrest
    rw [← hleft] at hidle hrest'
    exact ⟨hbs, .flows hfifo hidle hrest'⟩
  | broken hwrites hqueue hrest =>
    obtain ⟨hbs, hleft, hrest'⟩ := read_stream_prefix hp hrest
    rw [← hleft] at hrest'
    exact ⟨hbs, .broken hwrites hqueue hrest'⟩

/-- Nothing is to come when the network has nothing and nothing waits. -/
theorem Carries.eq_nil (h : Carries bytes q posts p rest) (htransit : p.transit = [])
    (hqueue : q.queue = []) (hposts : posts = []) : rest = [] := by
  cases h with
  | flows hfifo hidle hrest => rw [← hrest, htransit, hidle hqueue, hqueue, hposts]; rfl
  | broken _ hne => exact absurd hqueue hne

end Pipe

end Common
