import Mathlib.Data.List.Basic
import Mathlib.Tactic.Common

/-!
# A timer with one pending wait

An asynchronous timer has a deadline and at most one pending wait. Setting a new deadline, or
cancelling, aborts a wait that has not expired: its handler is run with an error. A wait that has
expired cannot be revoked: its handler is run without one, whatever happens to the timer before
that. Waits carry a label that says what they were armed for.
-/

namespace Common

structure Timer (α : Type*) where
  /-- Deadline and label of the pending wait. -/
  wait : Option (ℕ × α) := none
  /-- Expired waits whose handlers have not run yet. -/
  due : List α := []
  /-- Aborted waits whose handlers have not run yet. -/
  aborted : List α := []
deriving DecidableEq, Repr

namespace Timer

variable {α : Type*}

/-- Give up the pending wait. -/
def cancel (t : Timer α) : Timer α :=
  { t with wait := none, aborted := t.aborted ++ (t.wait.map Prod.snd).toList }

/-- Set a new deadline, which gives up the pending wait, and wait for it. -/
def arm (t : Timer α) (deadline : ℕ) (a : α) : Timer α :=
  { t.cancel with wait := some (deadline, a) }

/-- The pending wait expires. -/
def expire (t : Timer α) (now : ℕ) : Option (Timer α) :=
  match t.wait with
  | some (deadline, a) =>
    if deadline ≤ now then some { t with wait := none, due := t.due ++ [a] } else none
  | none => none

/-- The handler of the oldest expired wait is taken to be run. -/
def takeDue (t : Timer α) : Option (α × Timer α) :=
  match t.due with
  | a :: rest => some (a, { t with due := rest })
  | [] => none

/-- The handler of the oldest aborted wait is taken to be run. -/
def takeAborted (t : Timer α) : Option (α × Timer α) :=
  match t.aborted with
  | a :: rest => some (a, { t with aborted := rest })
  | [] => none

/-- A handler is due, or a wait is pending with a deadline no later than `t₀`. -/
def FiresBy (t : Timer α) (t₀ : ℕ) : Prop :=
  t.due ≠ [] ∨ ∃ d a, t.wait = some (d, a) ∧ d ≤ t₀

/-- Arming leaves the handlers that are due. -/
@[simp] theorem arm_due (t : Timer α) (d : ℕ) (a : α) : (t.arm d a).due = t.due := rfl

/-- Arming waits for the new deadline. -/
@[simp] theorem arm_wait (t : Timer α) (d : ℕ) (a : α) : (t.arm d a).wait = some (d, a) := rfl

/-- An armed timer fires by its deadline, or has a handler due. -/
theorem arm_firesBy {t : Timer α} {d t₀ : ℕ} {a : α} :
    (t.arm d a).FiresBy t₀ ↔ t.due ≠ [] ∨ d ≤ t₀ := by
  simp [FiresBy]

/-- The wait that expires has its handler due after the others. -/
theorem expire_eq_some {t t' : Timer α} {now : ℕ} (h : t.expire now = some t') :
    ∃ d a, t.wait = some (d, a) ∧ t' = { t with wait := none, due := t.due ++ [a] } := by
  rw [expire] at h
  split at h
  · rename_i d a hwait
    split at h
    · exact ⟨d, a, hwait, (Option.some.inj h).symm⟩
    · exact absurd h (by simp)
  · exact absurd h (by simp)

/-- Taking a handler leaves the wait. -/
theorem takeDue_eq_some {t t' : Timer α} {a : α} (h : t.takeDue = some (a, t')) :
    t.due = a :: t'.due ∧ t'.wait = t.wait := by
  rw [takeDue] at h
  split at h
  · rename_i b rest hdue
    obtain ⟨rfl, rfl⟩ := Prod.mk.inj (Option.some.inj h)
    exact ⟨hdue, rfl⟩
  · exact absurd h (by simp)

/-- Taking a handler leaves the aborted ones. -/
theorem takeDue_aborted {t t' : Timer α} {a : α} (h : t.takeDue = some (a, t')) :
    t'.aborted = t.aborted := by
  rw [takeDue] at h
  split at h
  · obtain ⟨-, rfl⟩ := Prod.mk.inj (Option.some.inj h)
    rfl
  · exact absurd h (by simp)

/-- Taking an aborted handler leaves the others. -/
theorem takeAborted_eq_some {t t' : Timer α} {a : α} (h : t.takeAborted = some (a, t')) :
    t'.due = t.due ∧ t'.wait = t.wait := by
  rw [takeAborted] at h
  split at h
  · obtain ⟨-, rfl⟩ := Prod.mk.inj (Option.some.inj h)
    exact ⟨rfl, rfl⟩
  · exact absurd h (by simp)

/-- A wait that expires makes its handler due. -/
theorem due_of_expire {t t' : Timer α} {now : ℕ} (h : t.expire now = some t') : t'.due ≠ [] := by
  obtain ⟨d, a, -, rfl⟩ := expire_eq_some h
  simp

/-- Taking an aborted handler does not change when the timer fires. -/
theorem takeAborted_firesBy {t t' : Timer α} {a : α} (h : t.takeAborted = some (a, t')) (t₀ : ℕ) :
    t'.FiresBy t₀ ↔ t.FiresBy t₀ := by
  obtain ⟨hdue, hwait⟩ := takeAborted_eq_some h
  rw [FiresBy, FiresBy, hdue, hwait]

end Timer

end Common
