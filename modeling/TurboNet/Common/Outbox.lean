import Mathlib.Data.List.Basic
import Mathlib.Tactic.Common

/-!
# Overlapping writes on one byte stream

A composed write puts a buffer on a stream piece by piece. Several of them may be outstanding at
the same time, in which case the stream sees their pieces in any order, and a piece is whatever the
storage behind the buffer holds when it is transferred. `Outbox` is the sending side of such a
stream.

`Outbox.InOrder` is the invariant of the disciplined use: pieces of the oldest outstanding write
only, out of storage that is intact as far as it has not been transferred. What is on the wire is
then always a prefix of the whole buffers in the order in which their writes were started
(`InOrder.wholeFrames`).
-/

namespace Common

/-- One outstanding write. -/
structure Write (α : Type*) where
  /-- The buffer when the write was started. -/
  frame : List α
  /-- What the storage behind the buffer holds now. -/
  memory : List α
  /-- How much of it has been transferred. -/
  sent : ℕ
deriving DecidableEq, Repr

/-- The part of the buffer that is still to be transferred. -/
def Write.rest {α : Type*} (w : Write α) : List α := w.frame.drop w.sent

/-- The storage still holds what is to be transferred. -/
def Write.Intact {α : Type*} (w : Write α) : Prop := w.memory.drop w.sent = w.rest

instance {α : Type*} [DecidableEq α] (w : Write α) : Decidable w.Intact :=
  inferInstanceAs (Decidable (_ = _))

/-- The sending side of a stream. -/
structure Outbox (α : Type*) where
  /-- What the stream has taken. -/
  wire : List α := []
  /-- The outstanding writes, oldest first. -/
  writes : List (Write α) := []
  /-- The buffers of all writes started so far. -/
  started : List (List α) := []
  /-- A write has failed: the stream takes nothing any more. -/
  broken : Bool := false
deriving DecidableEq, Repr

namespace Outbox

variable {α : Type*}

/-- Start to write a buffer. -/
def start (o : Outbox α) (frame : List α) : Outbox α :=
  { o with
    writes := o.writes ++ [⟨frame, frame, 0⟩]
    started := o.started ++ [frame] }

/-- The stream takes `k` items of the `i`-th outstanding write, which is complete when all its
items have been taken. -/
def transfer (o : Outbox α) (i k : ℕ) : Option (Outbox α) :=
  match o.broken, o.writes[i]? with
  | false, some w =>
    if w.sent + k < w.frame.length then
      some { o with
        wire := o.wire ++ (w.memory.drop w.sent).take k
        writes := o.writes.set i { w with sent := w.sent + k } }
    else if w.sent + k = w.frame.length then
      some { o with
        wire := o.wire ++ (w.memory.drop w.sent).take k
        writes := o.writes.eraseIdx i }
    else none
  | _, _ => none

/-- The storage behind the `i`-th outstanding write gets a new content. -/
def reuse (o : Outbox α) (i : ℕ) (memory : List α) : Option (Outbox α) :=
  match o.writes[i]? with
  | some w =>
    if memory.length = w.frame.length then
      some { o with writes := o.writes.set i { w with memory := memory } }
    else none
  | none => none

/-- The `i`-th outstanding write completes with an error. -/
def fail (o : Outbox α) (i : ℕ) : Option (Outbox α) :=
  if i < o.writes.length then some { o with writes := o.writes.eraseIdx i, broken := true }
  else none

/-- Taking bytes starts no write. -/
theorem transfer_started {o o' : Outbox α} {i k : ℕ} (h : o.transfer i k = some o') :
    o'.started = o.started := by
  rw [transfer] at h
  repeat' split at h
  all_goals cases h <;> rfl

/-- New content starts no write. -/
theorem reuse_started {o o' : Outbox α} {i : ℕ} {memory : List α}
    (h : o.reuse i memory = some o') : o'.started = o.started := by
  rw [reuse] at h
  repeat' split at h
  all_goals cases h <;> rfl

/-- A failure starts no write. -/
theorem fail_started {o o' : Outbox α} {i : ℕ} (h : o.fail i = some o') :
    o'.started = o.started := by
  rw [fail] at h
  split at h
  all_goals cases h <;> rfl

/-! ## What is on the wire stays there -/

/-- Bytes on the wire stay there. -/
theorem transfer_wire {o o' : Outbox α} {i k : ℕ} (h : o.transfer i k = some o') :
    o.wire <+: o'.wire := by
  rw [transfer] at h
  repeat' split at h
  all_goals cases h
  all_goals exact List.prefix_append _ _

/-- New content reaches the wire with a transfer only. -/
theorem reuse_wire {o o' : Outbox α} {i : ℕ} {memory : List α} (h : o.reuse i memory = some o') :
    o'.wire = o.wire := by
  rw [reuse] at h
  repeat' split at h
  all_goals cases h <;> rfl

/-- A failure puts nothing on the wire. -/
theorem fail_wire {o o' : Outbox α} {i : ℕ} (h : o.fail i = some o') : o'.wire = o.wire := by
  rw [fail] at h
  split at h
  all_goals cases h <;> rfl

/-- Several writes are started one after another. -/
theorem foldl_start (o : Outbox α) (frames : List (List α)) :
    (frames.foldl start o).started = o.started ++ frames ∧
      (frames.foldl start o).wire = o.wire := by
  induction frames generalizing o with
  | nil => exact ⟨(List.append_nil _).symm, rfl⟩
  | cons frame frames ih =>
    obtain ⟨hstarted, hwire⟩ := ih (o.start frame)
    rw [List.foldl_cons]
    refine ⟨hstarted.trans ?_, hwire⟩
    rw [start, List.append_assoc, List.singleton_append]

/-- The wire holds a prefix of a concatenation of whole buffers, each at most once and in the order
in which their writes were started. -/
def WholeFrames (o : Outbox α) : Prop :=
  ∃ fs : List (List α), fs.Sublist o.started ∧ o.wire <+: fs.flatten

/-- The wire and what the outstanding writes still have to transfer make up all buffers, in order,
as long as no write has failed; after a failure the wire is still a prefix of them. -/
structure InOrder (o : Outbox α) : Prop where
  account : o.broken = false → o.wire ++ (o.writes.map Write.rest).flatten = o.started.flatten
  wire_prefix : o.wire <+: o.started.flatten

/-- A wire in order is made of whole buffers. -/
theorem InOrder.wholeFrames {o : Outbox α} (h : o.InOrder) : o.WholeFrames :=
  ⟨o.started, List.Sublist.refl _, h.wire_prefix⟩

/-- Nothing has been written at the start. -/
theorem inOrder_empty : InOrder ({} : Outbox α) := ⟨fun _ => rfl, List.prefix_rfl⟩

/-- A new write comes after all others. -/
theorem InOrder.start {o : Outbox α} (h : o.InOrder) (frame : List α) :
    (o.start frame).InOrder := by
  refine ⟨fun hb => ?_, ?_⟩
  · have hacc := h.account hb
    simp only [Outbox.start, List.map_append, List.flatten_append, ← List.append_assoc, hacc]
    simp [Write.rest]
  · exact h.wire_prefix.trans (by simp [Outbox.start])

/-- So do several. -/
theorem InOrder.foldl_start {o : Outbox α} (h : o.InOrder) (frames : List (List α)) :
    (frames.foldl Outbox.start o).InOrder := by
  induction frames generalizing o with
  | nil => exact h
  | cons frame frames ih => exact ih (h.start frame)

/-- A piece of the oldest outstanding write, out of intact storage, moves from the write to the
wire. -/
theorem InOrder.transfer {o o' : Outbox α} {k : ℕ} (h : o.InOrder)
    (hintact : ∀ w, o.writes[0]? = some w → w.Intact)
    (ht : o.transfer 0 k = some o') : o'.InOrder := by
  obtain ⟨wire, writes, started, broken⟩ := o
  cases broken with
  | true => simp [Outbox.transfer] at ht
  | false =>
    cases writes with
    | nil => simp [Outbox.transfer] at ht
    | cons w ws =>
      have hw : w.memory.drop w.sent = w.frame.drop w.sent := hintact w rfl
      have hacc : wire ++ (w.frame.drop w.sent ++ (ws.map Write.rest).flatten)
          = started.flatten := by
        simpa [Write.rest] using h.account rfl
      -- the piece is the front of what the write still had to transfer
      have hpiece : (w.memory.drop w.sent).take k ++ w.frame.drop (w.sent + k)
          = w.frame.drop w.sent := by
        rw [hw, ← List.drop_drop, List.take_append_drop]
      have hmoved : wire ++ (w.memory.drop w.sent).take k
          ++ (w.frame.drop (w.sent + k) ++ (ws.map Write.rest).flatten) = started.flatten := by
        rw [← hacc, ← hpiece]
        simp only [List.append_assoc]
      simp only [Outbox.transfer, List.getElem?_cons_zero] at ht
      split at ht
      · obtain rfl := Option.some.inj ht
        exact ⟨fun _ => by simpa [Write.rest] using hmoved, ⟨_, hmoved⟩⟩
      · rename_i hlt
        split at ht
        · rename_i hlast
          obtain rfl := Option.some.inj ht
          refine ⟨fun _ => ?_, ⟨_, hmoved⟩⟩
          rw [List.drop_eq_nil_of_le (Nat.le_of_eq hlast.symm), List.nil_append] at hmoved
          simpa using hmoved
        · exact absurd ht (by simp)

/-- The account does not look at the storage. -/
theorem InOrder.reuse {o o' : Outbox α} {i : ℕ} {memory : List α} (h : o.InOrder)
    (hr : o.reuse i memory = some o') : o'.InOrder := by
  rw [Outbox.reuse] at hr
  split at hr
  · rename_i w hw
    split at hr
    · obtain rfl := Option.some.inj hr
      refine ⟨fun hb => ?_, h.wire_prefix⟩
      rw [← h.account hb]
      obtain ⟨hi, rfl⟩ := List.getElem?_eq_some_iff.mp hw
      have hj : i < (o.writes.map Write.rest).length := by simpa using hi
      have hsame :
          Write.rest { o.writes[i] with memory := memory } = (o.writes.map Write.rest)[i] := by
        rw [List.getElem_map]
        rfl
      rw [List.map_set, hsame, List.set_getElem_self]
    · exact absurd hr (by simp)
  · exact absurd hr (by simp)

/-- A failure keeps what is on the wire in order. -/
theorem InOrder.fail {o o' : Outbox α} {i : ℕ} (h : o.InOrder) (hf : o.fail i = some o') :
    o'.InOrder := by
  rw [Outbox.fail] at hf
  split at hf
  · obtain rfl := Option.some.inj hf
    exact ⟨fun hb => absurd hb (by simp), h.wire_prefix⟩
  · exact absurd hf (by simp)

end Outbox

end Common
