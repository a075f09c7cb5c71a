import TurboNet.Common.Timer

/-!
# An operation guarded by a timer

A component starts one operation after another, at most one at a time, and sets a timer for each.
The wait is labelled with the number of the operation it is for. A handler of an expired wait that
runs after its operation has completed hits whatever comes next.

A pending wait is never stale: completing an operation cancels it or sets it anew (`Armed`). An
expired wait cannot be revoked, and it becomes stale exactly when its operation completes while its
handler is still to be run: `current_acts`.
-/

namespace Common

/-- An operation and its timer. -/
structure TimedOp where
  timer : Timer ℕ
  /-- The timer is used at all. -/
  enabled : Bool
  /-- An operation is in progress. -/
  active : Bool
  /-- How many have been started; the one in progress has this number. -/
  started : ℕ

namespace TimedOp

/-- The operation with this number is in progress. -/
def InProgress (o : TimedOp) (n : ℕ) : Prop := o.active = true ∧ n = o.started

instance (o : TimedOp) (n : ℕ) : Decidable (o.InProgress n) :=
  inferInstanceAs (Decidable (o.active = true ∧ n = o.started))

/-- The pending wait is for the operation in progress. -/
def Armed (o : TimedOp) : Prop :=
  ∀ d n, o.timer.wait = some (d, n) → o.enabled = true ∧ o.InProgress n

/-- The expired waits whose handlers are still to be run are for the operation in progress. -/
def Current (o : TimedOp) : Prop := ∀ n ∈ o.timer.due, o.InProgress n

/-- What a step can do to an operation and its timer. The flag says that it completes the operation
in progress, with or without starting the next one. -/
inductive Acts (o : TimedOp) : Bool → TimedOp → Prop where
  | keep (o' : TimedOp) (henabled : o'.enabled = o.enabled) (hactive : o'.active = o.active)
    (hstarted : o'.started = o.started)
    (hwait : ∀ w, o'.timer.wait = some w → o.timer.wait = some w)
    (hdue : ∀ n ∈ o'.timer.due, n ∈ o.timer.due ∨ ∃ d, o.timer.wait = some (d, n)) :
    Acts o false o'
  | start (o' : TimedOp) (henabled : o'.enabled = o.enabled) (hidle : o.active = false)
    (hdue : o'.timer.due = o.timer.due)
    (hwait : ∀ d n, o'.timer.wait = some (d, n) →
      o.timer.wait = some (d, n) ∨ o.enabled = true ∧ o'.InProgress n) :
    Acts o false o'
  | complete (o' : TimedOp) (henabled : o'.enabled = o.enabled)
    (hover : o'.active = false ∨ o.started < o'.started) (hdue : o'.timer.due = o.timer.due)
    (hwait : ∀ d n, o'.timer.wait = some (d, n) →
      o.enabled = false ∧ o.timer.wait = some (d, n) ∨ o.enabled = true ∧ o'.InProgress n) :
    Acts o true o'

variable {o o' : TimedOp} {completes : Bool}

/-- Nothing is done. -/
theorem Acts.of_eq (h : o' = o) : o.Acts false o' := by
  obtain rfl := h
  exact .keep _ rfl rfl rfl (fun _ hw => hw) fun _ hn => .inl hn

/-- The pending wait is given up. -/
theorem Acts.cancel (o : TimedOp) : o.Acts false { o with timer := o.timer.cancel } :=
  .keep _ rfl rfl rfl (fun _ hw => absurd hw (by simp [Timer.cancel])) fun _ hn => .inl hn

/-- The pending wait expires. -/
theorem Acts.expire {now : ℕ} {t : Timer ℕ} (h : o.timer.expire now = some t) :
    o.Acts false { o with timer := t } := by
  obtain ⟨d, n, hwait, rfl⟩ := Timer.expire_eq_some h
  refine .keep _ rfl rfl rfl (fun _ hw => absurd hw (by simp)) fun m hm => ?_
  rcases List.mem_append.mp hm with hold | hnew
  · exact .inl hold
  · obtain rfl := List.mem_singleton.mp hnew
    exact .inr ⟨d, hwait⟩

/-- The handler of an expired wait is run. -/
theorem Acts.takeDue {n : ℕ} {t : Timer ℕ} (h : o.timer.takeDue = some (n, t)) :
    o.Acts false { o with timer := t } := by
  obtain ⟨hdue, hwait⟩ := Timer.takeDue_eq_some h
  refine .keep _ rfl rfl rfl (fun _ hw => hwait ▸ hw) fun m hm => .inl ?_
  rw [hdue]
  exact List.mem_cons_of_mem n hm

/-- The handler of an aborted wait is run. -/
theorem Acts.takeAborted {n : ℕ} {t : Timer ℕ} (h : o.timer.takeAborted = some (n, t)) :
    o.Acts false { o with timer := t } := by
  obtain ⟨hdue, hwait⟩ := Timer.takeAborted_eq_some h
  exact .keep _ rfl rfl rfl (fun _ hw => hwait ▸ hw) fun m hm => .inl (hdue ▸ hm)

/-- An operation that is neither completed nor started again stays in progress. -/
theorem InProgress.of_keep {n : ℕ} (h : o.InProgress n) (hactive : o'.active = o.active)
    (hstarted : o'.started = o.started) : o'.InProgress n :=
  ⟨hactive.trans h.1, h.2.trans hstarted.symm⟩

/-- Every act keeps the pending wait that of the operation in progress. -/
theorem Armed.acts (h : o.Armed) (ha : o.Acts completes o') : o'.Armed := by
  intro d n hw
  cases ha with
  | keep _ henabled hactive hstarted hwait hdue =>
    obtain ⟨hon, hprogress⟩ := h d n (hwait _ hw)
    exact ⟨henabled.trans hon, hprogress.of_keep hactive hstarted⟩
  | start _ henabled hidle hdue hwait =>
    rcases hwait d n hw with hold | ⟨hon, hnew⟩
    · exact absurd (h d n hold).2.1 (by simp [hidle])
    · exact ⟨henabled.trans hon, hnew⟩
  | complete _ henabled hover hdue hwait =>
    rcases hwait d n hw with ⟨hoff, hold⟩ | ⟨hon, hnew⟩
    · exact absurd (h d n hold).1 (by simp [hoff])
    · exact ⟨henabled.trans hon, hnew⟩

/-- A step keeps the expired waits current exactly when it completes no operation whose wait has
expired. -/
theorem current_acts (harmed : o.Armed) (h : o.Current) (ha : o.Acts completes o') :
    o'.Current ↔ (completes = true → o.timer.due = []) := by
  cases ha with
  | keep _ henabled hactive hstarted hwait hdue =>
    refine iff_of_true (fun n hn => ?_) (by simp)
    rcases hdue n hn with hold | ⟨d, hd⟩
    · exact (h n hold).of_keep hactive hstarted
    · exact (harmed d n hd).2.of_keep hactive hstarted
  | start _ henabled hidle hdue hwait =>
    refine iff_of_true (fun n hn => ?_) (by simp)
    exact absurd (h n (hdue ▸ hn)).1 (by simp [hidle])
  | complete _ henabled hover hdue hwait =>
    constructor
    · intro h' _
      by_contra hne
      obtain ⟨n, hn⟩ := List.exists_mem_of_ne_nil _ hne
      -- `n` would be the number of the old operation and of the new one
      obtain ⟨hactive', hn'⟩ := h' n (hdue ▸ hn)
      have hn₀ := (h n hn).2
      rcases hover with hidle | hlater
      · exact absurd hactive' (by simp [hidle])
      · omega
    · intro hnil n hn
      rw [hdue, hnil rfl] at hn
      exact absurd hn (by simp)

end TimedOp

end Common
