import Mathlib.Data.List.Basic
import TurboNet.Common.Machine

/-!
# Loops that read exactly the bytes they ask for

An asynchronous reader asks for a number of items (`want`), is handed exactly that many
(`deliver`), and asks again. `ExactReader` packages such a loop with the reason why it cannot spin:
a read of no items lowers a bounded `rank`. `drain` feeds it a finite stream until the outstanding
read asks for more than remains, or nothing is outstanding.

`drain_step` and `drain_of_blocked` are the equations of the loop; nothing else about its fuel is
visible outside this module. `run_drain` says that draining a stream is a run of the machine whose
events are completions of reads.
-/

namespace Common

/-- A loop with state `S` that reads a stream of `α`. -/
structure ExactReader (S α : Type*) where
  /-- Size of the outstanding read, if there is one. -/
  want : S → Option ℕ
  /-- Completion of the outstanding read with the items it asked for. -/
  deliver : S → List α → S
  /-- How many reads of no items may follow one another. -/
  rank : S → ℕ
  /-- A common bound of the ranks. -/
  bound : ℕ
  rank_le : ∀ s, rank s ≤ bound
  rank_lt : ∀ s, want s = some 0 → rank (deliver s []) < rank s

namespace ExactReader

variable {S α : Type*} (R : ExactReader S α)

/-- The loop cannot go on with what is left of the stream. -/
def Blocked (s : S) (xs : List α) : Prop := ∀ k, R.want s = some k → xs.length < k

/-- At most `fuel` completions. Returns the state and what is left of the stream. -/
def feed : ℕ → S → List α → S × List α
  | 0, s, xs => (s, xs)
  | fuel + 1, s, xs =>
    match R.want s with
    | none => (s, xs)
    | some k =>
      if k ≤ xs.length then feed fuel (R.deliver s (xs.take k)) (xs.drop k) else (s, xs)

/-- Enough completions to exhaust a stream: each consumes an item or lowers the rank. -/
def budget (s : S) (xs : List α) : ℕ := xs.length * (R.bound + 1) + R.rank s

/-- Feed the whole stream. -/
def drain (s : S) (xs : List α) : S × List α := R.feed (R.budget s xs) s xs

variable {R}

/-- A blocked loop leaves the stream. -/
theorem feed_of_blocked {s : S} {xs : List α} (h : R.Blocked s xs) (fuel : ℕ) :
    R.feed fuel s xs = (s, xs) := by
  cases fuel with
  | zero => rfl
  | succ fuel =>
    rw [feed]
    cases hw : R.want s with
    | none => rfl
    | some k => exact if_neg (Nat.not_le.mpr (h k hw))

/-- A loop that gets what it asks for goes on with the rest. -/
theorem feed_succ {s : S} {xs : List α} {k : ℕ} (hw : R.want s = some k) (hk : k ≤ xs.length)
    (fuel : ℕ) :
    R.feed (fuel + 1) s xs = R.feed fuel (R.deliver s (xs.take k)) (xs.drop k) := by
  rw [feed, hw]
  exact if_pos hk

/-- Every completion spends budget. -/
theorem budget_lt {s : S} {xs : List α} {k : ℕ} (hw : R.want s = some k) (hk : k ≤ xs.length) :
    R.budget (R.deliver s (xs.take k)) (xs.drop k) < R.budget s xs := by
  simp only [budget, List.length_drop]
  cases k with
  | zero =>
    have := R.rank_lt s hw
    simpa using this
  | succ k =>
    have hr := R.rank_le (R.deliver s (xs.take (k + 1)))
    have hmul : xs.length * (R.bound + 1)
        = (xs.length - (k + 1)) * (R.bound + 1) + (k + 1) * (R.bound + 1) := by
      rw [← Nat.add_mul, Nat.sub_add_cancel hk]
    have hone : R.bound + 1 ≤ (k + 1) * (R.bound + 1) := Nat.le_mul_of_pos_left _ (by omega)
    omega

/-- Fuel may be spent in two portions. -/
theorem feed_add (n m : ℕ) (s : S) (xs : List α) :
    R.feed (n + m) s xs = R.feed m (R.feed n s xs).1 (R.feed n s xs).2 := by
  induction n generalizing s xs with
  | zero => rw [Nat.zero_add, feed]
  | succ n ih =>
    by_cases hb : R.Blocked s xs
    · rw [feed_of_blocked hb, feed_of_blocked hb, feed_of_blocked hb]
    · obtain ⟨k, hw, hk⟩ : ∃ k, R.want s = some k ∧ k ≤ xs.length := by
        simpa [Blocked] using hb
      rw [Nat.succ_add, feed_succ hw hk, feed_succ hw hk, ih]

/-- With the whole budget the loop runs until it is blocked. -/
theorem blocked_feed {s : S} {xs : List α} {fuel : ℕ} (h : R.budget s xs ≤ fuel) :
    R.Blocked (R.feed fuel s xs).1 (R.feed fuel s xs).2 := by
  induction fuel generalizing s xs with
  | zero =>
    intro k hw
    by_contra hk
    have hlt : _ < R.budget s xs := budget_lt hw (Nat.not_lt.mp hk)
    omega
  | succ fuel ih =>
    by_cases hb : R.Blocked s xs
    · rw [feed_of_blocked hb]
      exact hb
    · obtain ⟨k, hw, hk⟩ : ∃ k, R.want s = some k ∧ k ≤ xs.length := by
        simpa [Blocked] using hb
      have := budget_lt hw hk
      rw [feed_succ hw hk]
      exact ih (by omega)

/-- Fuel beyond the budget changes nothing. -/
theorem feed_eq_drain {s : S} {xs : List α} {fuel : ℕ} (h : R.budget s xs ≤ fuel) :
    R.feed fuel s xs = R.drain s xs := by
  obtain ⟨d, rfl⟩ := Nat.exists_eq_add_of_le h
  rw [feed_add, feed_of_blocked (blocked_feed (Nat.le_refl _)), drain]

/-- The loop ends blocked. -/
theorem blocked_drain (s : S) (xs : List α) : R.Blocked (R.drain s xs).1 (R.drain s xs).2 :=
  blocked_feed (Nat.le_refl _)

/-- A blocked loop drains nothing. -/
theorem drain_of_blocked {s : S} {xs : List α} (h : R.Blocked s xs) : R.drain s xs = (s, xs) :=
  feed_of_blocked h _

/-- A read that can be completed is completed, and the loop goes on with the rest. -/
theorem drain_step {s : S} {xs : List α} {k : ℕ} (hw : R.want s = some k) (hk : k ≤ xs.length) :
    R.drain s xs = R.drain (R.deliver s (xs.take k)) (xs.drop k) := by
  have hlt := budget_lt hw hk
  rw [← feed_eq_drain (s := s) (Nat.le_succ (R.budget s xs)), feed_succ hw hk,
    feed_eq_drain (by omega)]

/-- The same with the items the read takes split off in front. -/
theorem drain_append {s : S} {xs ys : List α} (hw : R.want s = some xs.length) :
    R.drain s (xs ++ ys) = R.drain (R.deliver s xs) ys := by
  rw [drain_step hw (by simp), List.take_left, List.drop_left]

/-- A loop whose read asks for more than there is waits. -/
theorem drain_of_lt {s : S} {xs : List α} {k : ℕ} (hw : R.want s = some k) (hk : xs.length < k) :
    R.drain s xs = (s, xs) :=
  drain_of_blocked fun k' hk' => by
    obtain rfl : k = k' := by rw [hw] at hk'; exact Option.some.inj hk'
    exact hk

/-- Two reads in a row: a header and the body it announces. -/
theorem drain_append_append {s : S} {xs ys zs : List α} (hx : R.want s = some xs.length)
    (hy : R.want (R.deliver s xs) = some ys.length) :
    R.drain s (xs ++ ys ++ zs) = R.drain (R.deliver (R.deliver s xs) ys) zs := by
  rw [List.append_assoc, drain_append hx, drain_append hy]

/-- A header whose body is not all there. -/
theorem drain_append_of_lt {s : S} {xs ys : List α} {k : ℕ} (hx : R.want s = some xs.length)
    (hk : R.want (R.deliver s xs) = some k) (hlt : ys.length < k) :
    R.drain s (xs ++ ys) = (R.deliver s xs, ys) := by
  rw [drain_append hx, drain_of_lt hk hlt]

/-- A completion as the step of a machine: it comes with exactly the items that were asked for. -/
def step (R : ExactReader S α) (s : S) (xs : List α) : Option S :=
  if R.want s = some xs.length then some (R.deliver s xs) else none

/-- A step is a completion with as many items as were asked for. -/
theorem step_eq_some {s t : S} {xs : List α} :
    R.step s xs = some t ↔ R.want s = some xs.length ∧ R.deliver s xs = t := by
  rw [step]
  split <;> simp [*]

/-- Draining a stream is a run: the completions take its items in order, and no further one can be
made from what is left. -/
theorem run_drain (s : S) (xs : List α) :
    ∃ xss, run R.step s xss = some (R.drain s xs).1 ∧ xss.flatten ++ (R.drain s xs).2 = xs ∧
      R.Blocked (R.drain s xs).1 (R.drain s xs).2 := by
  have hfeed : ∀ (fuel : ℕ) (s : S) (xs : List α), ∃ xss,
      run R.step s xss = some (R.feed fuel s xs).1 ∧ xss.flatten ++ (R.feed fuel s xs).2 = xs := by
    intro fuel
    induction fuel with
    | zero => exact fun s xs => ⟨[], rfl, rfl⟩
    | succ fuel ih =>
      intro s xs
      by_cases hb : R.Blocked s xs
      · rw [feed_of_blocked hb]
        exact ⟨[], rfl, rfl⟩
      · obtain ⟨k, hw, hk⟩ : ∃ k, R.want s = some k ∧ k ≤ xs.length := by
          simpa [Blocked] using hb
        obtain ⟨xss, hrun, hcat⟩ := ih (R.deliver s (xs.take k)) (xs.drop k)
        rw [feed_succ hw hk]
        refine ⟨xs.take k :: xss, run_cons_eq_some.mpr ⟨_, ?_, hrun⟩, ?_⟩
        · exact step_eq_some.mpr ⟨by rw [hw, List.length_take_of_le hk], rfl⟩
        · rw [List.flatten_cons, List.append_assoc, hcat, List.take_append_drop]
  obtain ⟨xss, hrun, hcat⟩ := hfeed (R.budget s xs) s xs
  exact ⟨xss, hrun, hcat, blocked_drain s xs⟩

/-- What every completion keeps holds when the stream is drained. -/
theorem drain_induction {P : S → Prop} {s : S} (h0 : P s)
    (hstep : ∀ t k xs, P t → R.want t = some k → xs.length = k → P (R.deliver t xs))
    (xs : List α) : P (R.drain s xs).1 := by
  have hfeed : ∀ (fuel : ℕ) (s : S) (xs : List α), P s → P (R.feed fuel s xs).1 := by
    intro fuel
    induction fuel with
    | zero => exact fun s xs h => h
    | succ fuel ih =>
      intro s xs h
      by_cases hb : R.Blocked s xs
      · rw [feed_of_blocked hb]
        exact h
      · obtain ⟨k, hw, hk⟩ : ∃ k, R.want s = some k ∧ k ≤ xs.length := by
          simpa [Blocked] using hb
        rw [feed_succ hw hk]
        exact ih _ _ (hstep s k _ h hw (List.length_take_of_le hk))
  exact hfeed _ s xs h0

end ExactReader

end Common
