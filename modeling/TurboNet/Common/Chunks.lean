import TurboNet.Common.Machine

/-!
# Readers that take what comes

A read may complete with fewer items than it asked for, and the reader then asks for the rest. In
`ChunkReader` a completion brings at least one item and no more than were asked for.
`deliver_append` says that it does not matter whether two portions come in one completion or in two;
from this it follows that a reader cannot tell how a stream was cut (`Delivers.unique`): every way
to deliver a stream is the delivery of its items one at a time.
-/

namespace Common

/-- A reader with state `S` that reads a stream of `α`. -/
structure ChunkReader (S α : Type*) where
  /-- How many items the outstanding read asks for, 0 if there is none. -/
  want : S → ℕ
  /-- Completion of the outstanding read with some items. -/
  deliver : S → List α → S
  /-- An invariant of the reader. -/
  Good : S → Prop
  good_deliver : ∀ s xs, Good s → xs ≠ [] → xs.length ≤ want s → Good (deliver s xs)
  want_deliver : ∀ s xs, Good s → xs ≠ [] → xs.length < want s →
    want (deliver s xs) = want s - xs.length
  deliver_append : ∀ s xs ys, Good s → xs ≠ [] → ys ≠ [] → xs.length + ys.length ≤ want s →
    deliver s (xs ++ ys) = deliver (deliver s xs) ys

namespace ChunkReader

variable {S α : Type*} {R : ChunkReader S α} {s t t' : S} {xs ys : List α}
  {xss yss : List (List α)}

/-- A completion as the step of a machine. -/
def step (R : ChunkReader S α) (s : S) (xs : List α) : Option S :=
  if xs ≠ [] ∧ xs.length ≤ R.want s then some (R.deliver s xs) else none

/-- A step brings something, and no more than was asked for. -/
theorem step_eq_some :
    R.step s xs = some t ↔ (xs ≠ [] ∧ xs.length ≤ R.want s) ∧ R.deliver s xs = t := by
  rw [step, Option.ite_none_right_eq_some, Option.some.injEq]

/-- The invariant of the loop holds after every run. -/
theorem good_run (hs : R.Good s) (h : run R.step s xss = some t) : R.Good t := by
  refine run_induction hs (fun s xs t hs ht => ?_) h
  obtain ⟨⟨hne, hle⟩, rfl⟩ := step_eq_some.mp ht
  exact R.good_deliver s xs hs hne hle

/-- The items one at a time. -/
def singles (xs : List α) : List (List α) := xs.map ([·])

/-- A completion is the completions with its items one at a time. -/
theorem run_singles_of_step (hs : R.Good s) (h : R.step s xs = some t) :
    run R.step s (singles xs) = some t := by
  induction xs generalizing s with
  | nil =>
    obtain ⟨⟨hne, -⟩, -⟩ := step_eq_some.mp h
    exact absurd rfl hne
  | cons x xs ih =>
    obtain ⟨⟨-, hle⟩, rfl⟩ := step_eq_some.mp h
    rw [List.length_cons] at hle
    have hfirst : R.step s [x] = some (R.deliver s [x]) :=
      step_eq_some.mpr ⟨⟨List.cons_ne_nil x [], by rw [List.length_singleton]; omega⟩, rfl⟩
    refine run_cons_eq_some.mpr ⟨_, hfirst, ?_⟩
    by_cases hxs : xs = []
    · subst hxs
      rfl
    · -- the rest is delivered to the reader that has got the first item
      have hpos : 0 < xs.length := List.length_pos_iff.mpr hxs
      have hgood : R.Good (R.deliver s [x]) :=
        R.good_deliver s [x] hs (List.cons_ne_nil x []) (by rw [List.length_singleton]; omega)
      refine ih hgood (step_eq_some.mpr ⟨⟨hxs, ?_⟩, ?_⟩)
      · rw [R.want_deliver s [x] hs (List.cons_ne_nil x []) (by rw [List.length_singleton]; omega),
          List.length_singleton]
        omega
      · refine (R.deliver_append s [x] xs hs (List.cons_ne_nil x []) hxs ?_).symm
        rw [List.length_singleton]
        omega

/-- A delivery in chunks is the delivery of the items one at a time. -/
theorem run_singles (hs : R.Good s) (h : run R.step s xss = some t) :
    run R.step s (singles xss.flatten) = some t := by
  induction xss generalizing s with
  | nil => exact h
  | cons xs xss ih =>
    obtain ⟨u, hu, ht⟩ := run_cons_eq_some.mp h
    have hfirst := run_singles_of_step hs hu
    rw [List.flatten_cons, singles, List.map_append]
    refine run_append_eq_some.mpr ⟨u, hfirst, ih ?_ ht⟩
    exact good_run hs hfirst

/-- The chunks deliver a stream: all of it, or as much of it as the reader has asked for. -/
def Delivers (R : ChunkReader S α) (s : S) (stream : List α) (xss : List (List α)) (t : S)
    (rest : List α) : Prop :=
  run R.step s xss = some t ∧ xss.flatten ++ rest = stream ∧ (rest = [] ∨ R.want t = 0)

/-- A reader that does not ask for anything gets nothing. -/
theorem eq_nil_of_want_eq_zero (hwant : R.want t = 0) (h : run R.step t (singles xs) = some t') :
    xs = [] := by
  cases xs with
  | nil => rfl
  | cons x xs =>
    obtain ⟨u, hu, -⟩ := run_cons_eq_some.mp h
    obtain ⟨⟨-, hle⟩, -⟩ := step_eq_some.mp hu
    rw [List.length_singleton] at hle
    omega

/-- A delivery that has got further than another one has got no further. -/
theorem Delivers.rest_eq_of_prefix {stream rest rest' zs : List α} (hs : R.Good s)
    (h : R.Delivers s stream xss t rest) (h' : R.Delivers s stream yss t' rest')
    (hinitial : xss.flatten ++ zs = yss.flatten) : zs = [] := by
  obtain ⟨hrun, hcat, hend⟩ := h
  obtain ⟨hrun', hcat', -⟩ := h'
  have hsingles := run_singles hs hrun'
  rw [← hinitial, singles, List.map_append] at hsingles
  obtain ⟨u, hu, hzs⟩ := run_append_eq_some.mp hsingles
  obtain rfl : u = t := Option.some.inj (hu.symm.trans (run_singles hs hrun))
  rcases hend with rfl | hwant
  · -- nothing is left of the stream
    rw [← hcat', ← hinitial, List.append_assoc] at hcat
    have hnil : [] = zs ++ rest' := List.append_cancel_left hcat
    exact (List.append_eq_nil_iff.mp hnil.symm).1
  · exact eq_nil_of_want_eq_zero hwant hzs

/-- **Chunks do not matter.** Two deliveries of a stream end in the same state, at the same place of
the stream. -/
theorem Delivers.unique {stream rest rest' : List α} (hs : R.Good s)
    (h : R.Delivers s stream xss t rest) (h' : R.Delivers s stream yss t' rest') :
    t = t' ∧ rest = rest' := by
  have hflatten : xss.flatten = yss.flatten := by
    rcases List.append_eq_append_iff.mp (h.2.1.trans h'.2.1.symm) with ⟨zs, hzs, -⟩ | ⟨zs, hzs, -⟩
    · rw [h.rest_eq_of_prefix hs h' hzs.symm, List.append_nil] at hzs
      exact hzs.symm
    · rw [h'.rest_eq_of_prefix hs h hzs.symm, List.append_nil] at hzs
      exact hzs
  constructor
  · have hrun := run_singles hs h.1
    rw [hflatten] at hrun
    exact Option.some.inj (hrun.symm.trans (run_singles hs h'.1))
  · have hcat := h.2.1.trans h'.2.1.symm
    rw [hflatten] at hcat
    exact List.append_cancel_left hcat

end ChunkReader

end Common
