import Mathlib.Data.List.Induction
import Mathlib.Tactic.Common

/-!
# Runs of an event-driven machine

A machine is a partial step function `step : S → E → Option S`: it is `none` where the event
cannot happen in that state. `run` takes a whole list of events. `EveryState` says that a predicate
holds in every state a run passes through, `EveryStep` that a condition holds of every event and of
the state it finds, `SomeStep` that it holds of some event.

Two rules carry the developments that use this module. `run_induction` is the invariant rule.
`everyState_iff_everyStep` is for a predicate that some events break: if one step keeps the
predicate exactly when it meets a condition, then a whole run keeps it exactly when all its steps
meet the condition.
-/

namespace Common

section Machine

variable {S E : Type*} (step : S → E → Option S)

/-- Take the events one after another. -/
def run (s : S) : List E → Option S
  | [] => some s
  | e :: es => (step s e).bind fun t => run t es

/-- `P` holds in every state that a run of `es` from `s` passes through, the last one included. -/
def EveryState (s : S) (es : List E) (P : S → Prop) : Prop :=
  ∀ pre post t, es = pre ++ post → run step s pre = some t → P t

/-- `C` holds of every event of a run of `es` from `s` and of the state the event finds. -/
def EveryStep (s : S) (es : List E) (C : S → E → Prop) : Prop :=
  ∀ pre e post t, es = pre ++ e :: post → run step s pre = some t → C t e

/-- `C` holds of some event of a run of `es` from `s` and of the state the event finds. -/
def SomeStep (s : S) (es : List E) (C : S → E → Prop) : Prop :=
  ∃ pre e post t, es = pre ++ e :: post ∧ run step s pre = some t ∧ C t e

variable {step}

/-- No event. -/
@[simp] theorem run_nil (s : S) : run step s [] = some s := rfl

/-- One event, and then the others. -/
theorem run_cons (s : S) (e : E) (es : List E) :
    run step s (e :: es) = (step s e).bind fun t => run step t es := rfl

/-- A run of one event is a step. -/
theorem run_singleton (s : S) (e : E) : run step s [e] = step s e := by
  rw [run_cons]
  exact Option.bind_fun_some _

/-- A run that ends has taken its first step and run on from there. -/
theorem run_cons_eq_some {s u : S} {e : E} {es : List E} :
    run step s (e :: es) = some u ↔ ∃ t, step s e = some t ∧ run step t es = some u := by
  rw [run_cons, Option.bind_eq_some_iff]

/-- Some events, and then others. -/
theorem run_append (s : S) (es fs : List E) :
    run step s (es ++ fs) = (run step s es).bind fun t => run step t fs := by
  induction es generalizing s with
  | nil => rfl
  | cons e es ih =>
    rw [List.cons_append, run_cons, run_cons, Option.bind_assoc]
    exact congrArg _ (funext ih)

/-- A run that ends has been in a state between any two parts. -/
theorem run_append_eq_some {s u : S} {es fs : List E} :
    run step s (es ++ fs) = some u ↔ ∃ t, run step s es = some t ∧ run step t fs = some u := by
  rw [run_append, Option.bind_eq_some_iff]

/-- A machine whose events are some of those of another has its runs. `I` says in which states of
the first the two agree. -/
theorem run_map {F : Type*} {step' : S → F → Option S} {f : F → E} {I : S → Prop} {s u : S}
    {fs : List F} (hI : I s) (hkeep : ∀ t e t', I t → step' t e = some t' → I t')
    (hstep : ∀ t e t', I t → step' t e = some t' → step t (f e) = some t')
    (h : run step' s fs = some u) : run step s (fs.map f) = some u := by
  induction fs generalizing s with
  | nil => exact h
  | cons e fs ih =>
    obtain ⟨t, ht, hu⟩ := run_cons_eq_some.mp h
    exact run_cons_eq_some.mpr ⟨t, hstep s e t hI ht, ih (hkeep s e t hI ht) hu⟩

/-- A machine whose steps are runs of another one on a part of its state has runs of that one on
this part. -/
theorem run_project {S' E' : Type*} {step' : S' → E' → Option S'} {f : S' → S}
    {events : S' → E' → List E} {s u : S'} {es : List E'}
    (hstep : ∀ t e t', step' t e = some t' → run step (f t) (events t e) = some (f t'))
    (h : run step' s es = some u) : ∃ fs, run step (f s) fs = some (f u) := by
  induction es generalizing s with
  | nil =>
    obtain rfl : s = u := by simpa using h
    exact ⟨[], rfl⟩
  | cons e es ih =>
    obtain ⟨t, ht, hu⟩ := run_cons_eq_some.mp h
    obtain ⟨fs, hfs⟩ := ih hu
    exact ⟨events s e ++ fs, run_append_eq_some.mpr ⟨f t, hstep s e t ht, hfs⟩⟩

/-- What holds at the start and is kept by every step holds at the end of every run. -/
theorem run_induction {P : S → Prop} {s u : S} {es : List E} (h0 : P s)
    (hstep : ∀ t e t', P t → step t e = some t' → P t') (h : run step s es = some u) : P u := by
  induction es generalizing s with
  | nil =>
    obtain rfl : s = u := by simpa using h
    exact h0
  | cons e es ih =>
    obtain ⟨t, ht, hu⟩ := run_cons_eq_some.mp h
    exact ih (hstep s e t h0 ht) hu

/-- If there is always a step that lowers a measure until the goal is reached, there is a run that
reaches it. -/
theorem run_reaches {I Q : S → Prop} {f : S → ℕ} {s : S} (hI : I s)
    (hstep : ∀ t, I t → ¬ Q t → ∃ e t', step t e = some t' ∧ I t' ∧ f t' < f t) :
    ∃ es u, run step s es = some u ∧ Q u := by
  induction hn : f s using Nat.strongRecOn generalizing s with
  | ind n ih =>
    by_cases hQ : Q s
    · exact ⟨[], s, rfl, hQ⟩
    · obtain ⟨e, t, ht, hIt, hlt⟩ := hstep s hI hQ
      obtain ⟨es, u, hu, hQu⟩ := ih (f t) (hn ▸ hlt) hIt rfl
      exact ⟨e :: es, u, run_cons_eq_some.mpr ⟨t, ht, hu⟩, hQu⟩

/-- A measure that only some events raise, by one, is raised no more often than these occur. -/
theorem run_le_countP {f : S → ℕ} {p : E → Bool} {s u : S} {es : List E}
    (hstep : ∀ t e t', step t e = some t' → f t' ≤ f t + if p e then 1 else 0)
    (h : run step s es = some u) : f u ≤ f s + es.countP p := by
  induction es generalizing s with
  | nil =>
    obtain rfl : s = u := by simpa using h
    exact Nat.le_add_right _ _
  | cons e es ih =>
    obtain ⟨t, ht, hu⟩ := run_cons_eq_some.mp h
    have hfirst := hstep s e t ht
    have hrest := ih hu
    rw [List.countP_cons]
    omega

/-! ## Predicates along a run -/

/-- The first state is one of them. -/
theorem EveryState.first {s : S} {es : List E} {P : S → Prop} (h : EveryState step s es P) : P s :=
  h [] es s rfl rfl

/-- The last state is one of them. -/
theorem EveryState.last {s u : S} {es : List E} {P : S → Prop} (h : EveryState step s es P)
    (hu : run step s es = some u) : P u :=
  h es [] u (by simp) hu

/-- Every event finds one of the states. -/
theorem EveryState.everyStep {s : S} {es : List E} {P : S → Prop} (h : EveryState step s es P) :
    EveryStep step s es fun t _ => P t :=
  fun pre e post t heq ht => h pre (e :: post) t heq ht

/-- Without events there is the first state only. -/
theorem everyState_nil {s : S} {P : S → Prop} : EveryState step s [] P ↔ P s := by
  refine ⟨EveryState.first, fun h pre post t heq ht => ?_⟩
  obtain ⟨rfl, -⟩ := List.nil_eq_append_iff.mp heq
  obtain rfl : s = t := by simpa using ht
  exact h

/-- The first state, and those of the rest of the run. -/
theorem everyState_cons {s t : S} {e : E} {es : List E} {P : S → Prop} (ht : step s e = some t) :
    EveryState step s (e :: es) P ↔ P s ∧ EveryState step t es P := by
  constructor
  · intro h
    refine ⟨h.first, fun pre post u heq hu => h (e :: pre) post u (by rw [heq]; rfl) ?_⟩
    rw [run_cons, ht]
    exact hu
  · rintro ⟨hs, h⟩ pre post u heq hu
    cases pre with
    | nil =>
      obtain rfl : s = u := by simpa using hu
      exact hs
    | cons e' pre =>
      obtain ⟨rfl, rfl⟩ := List.cons.inj heq
      rw [run_cons, ht] at hu
      exact h pre post u rfl hu

/-- The first event, and those of the rest of the run. -/
theorem everyStep_cons {s t : S} {e : E} {es : List E} {C : S → E → Prop}
    (ht : step s e = some t) :
    EveryStep step s (e :: es) C ↔ C s e ∧ EveryStep step t es C := by
  constructor
  · intro h
    refine ⟨h [] e es s rfl rfl, fun pre e' post u heq hu =>
      h (e :: pre) e' post u (by rw [heq]; rfl) ?_⟩
    rw [run_cons, ht]
    exact hu
  · rintro ⟨hs, h⟩ pre e' post u heq hu
    cases pre with
    | nil =>
      obtain ⟨rfl, rfl⟩ := List.cons.inj heq
      obtain rfl : s = u := by simpa using hu
      exact hs
    | cons e'' pre =>
      obtain ⟨rfl, rfl⟩ := List.cons.inj heq
      rw [run_cons, ht] at hu
      exact h pre e' post u rfl hu

/-- Without events there is nothing to show. -/
theorem everyStep_nil {s : S} {C : S → E → Prop} : EveryStep step s [] C := by
  intro pre e post t heq
  simp at heq

/-- A run that does not get beyond its first event. -/
theorem everyStep_cons_of_none {s : S} {e : E} {es : List E} {C : S → E → Prop}
    (hs : step s e = none) : EveryStep step s (e :: es) C ↔ C s e := by
  constructor
  · exact fun h => h [] e es s rfl rfl
  · intro hc pre e' post u heq hu
    cases pre with
    | nil =>
      obtain ⟨rfl, rfl⟩ := List.cons.inj heq
      obtain rfl : s = u := by simpa using hu
      exact hc
    | cons e'' pre =>
      obtain ⟨rfl, rfl⟩ := List.cons.inj heq
      rw [run_cons, hs] at hu
      exact absurd hu (by simp)

/-- The last event finds the last state before it. -/
theorem everyStep_append_singleton {s : S} {es : List E} {e : E} {C : S → E → Prop} :
    EveryStep step s (es ++ [e]) C ↔
      EveryStep step s es C ∧ ∀ t, run step s es = some t → C t e := by
  constructor
  · intro h
    refine ⟨fun pre e' post t heq => h pre e' (post ++ [e]) t ?_, fun t => h es e [] t rfl⟩
    rw [heq, List.append_assoc]
    rfl
  · rintro ⟨h, hlast⟩ pre e' post t heq ht
    rcases List.eq_nil_or_concat post with rfl | ⟨post, e'', rfl⟩
    · obtain ⟨rfl, hcons⟩ := List.append_inj' heq rfl
      obtain rfl : e = e' := by simpa using hcons
      exact hlast t ht
    · rw [List.concat_eq_append, ← List.cons_append, ← List.append_assoc] at heq
      exact h pre e' post t (List.append_inj_left' heq rfl) ht

/-- Some event is as `C` says, or every one is not. -/
theorem someStep_iff_not_everyStep {s : S} {es : List E} {C : S → E → Prop} :
    SomeStep step s es C ↔ ¬ EveryStep step s es fun t e => ¬ C t e := by
  constructor
  · rintro ⟨pre, e, post, t, heq, ht, hC⟩ h
    exact h pre e post t heq ht hC
  · intro h
    by_contra hsome
    exact h fun pre e post t heq ht hC => hsome ⟨pre, e, post, t, heq, ht, hC⟩

/-- Without events there is none. -/
theorem not_someStep_nil {s : S} {C : S → E → Prop} : ¬ SomeStep step s [] C :=
  fun h => someStep_iff_not_everyStep.mp h everyStep_nil

/-- It is the last event or one before. -/
theorem someStep_append_singleton {s t : S} {es : List E} {e : E} {C : S → E → Prop}
    (ht : run step s es = some t) :
    SomeStep step s (es ++ [e]) C ↔ SomeStep step s es C ∨ C t e := by
  rw [someStep_iff_not_everyStep, everyStep_append_singleton, not_and_or,
    ← someStep_iff_not_everyStep]
  simp [ht]

/-- Some steps set `Q`, and nothing resets it. Then `Q` holds at the end of a run exactly when a
step of the run has set it. -/
theorem run_iff_someStep {Q : S → Prop} {A : S → E → Prop} {s u : S} {es : List E} (h0 : ¬ Q s)
    (hstep : ∀ t e t', step t e = some t' → (Q t' ↔ A t e ∨ Q t))
    (hrun : run step s es = some u) : Q u ↔ SomeStep step s es A := by
  induction es using List.reverseRecOn generalizing u with
  | nil =>
    obtain rfl : s = u := by simpa using hrun
    exact iff_of_false h0 not_someStep_nil
  | append_singleton es e ih =>
    obtain ⟨t, ht, hlast⟩ := run_append_eq_some.mp hrun
    rw [run_singleton] at hlast
    rw [hstep t e u hlast, someStep_append_singleton ht, ih ht, or_comm]

/-- A condition that looks at the events only. -/
theorem everyStep_iff_forall_mem {s u : S} {es : List E} {Q : E → Prop}
    (hrun : run step s es = some u) : (EveryStep step s es fun _ e => Q e) ↔ ∀ e ∈ es, Q e := by
  induction es generalizing s with
  | nil => exact iff_of_true everyStep_nil (by simp)
  | cons e es ih =>
    obtain ⟨t, ht, hu⟩ := run_cons_eq_some.mp hrun
    rw [everyStep_cons ht, ih hu, List.forall_mem_cons]

/-- A condition on the steps of a concrete run can be evaluated. -/
instance EveryStep.instDecidable {C : S → E → Prop} [∀ s e, Decidable (C s e)] :
    ∀ (s : S) (es : List E), Decidable (EveryStep step s es C)
  | _, [] => isTrue everyStep_nil
  | s, e :: es =>
    match hs : step s e with
    | none => decidable_of_iff (C s e) (everyStep_cons_of_none hs).symm
    | some t =>
      have := EveryStep.instDecidable (C := C) t es
      decidable_of_iff (C s e ∧ EveryStep step t es C) (everyStep_cons hs).symm

/-- If every step that meets `C` keeps `P`, a run whose steps all meet `C` keeps `P`. -/
theorem EveryStep.everyState {P : S → Prop} {C : S → E → Prop} {s : S} {es : List E}
    (hC : EveryStep step s es C) (h0 : P s)
    (hstep : ∀ t e t', C t e → P t → step t e = some t' → P t') : EveryState step s es P := by
  intro pre
  -- by induction on the part of the run that has been taken, from its end
  induction pre using List.reverseRecOn with
  | nil =>
    intro post t _ ht
    obtain rfl : s = t := by simpa using ht
    exact h0
  | append_singleton pre e ih =>
    intro post t' heq ht'
    obtain ⟨t, ht, hlast⟩ := run_append_eq_some.mp ht'
    obtain ⟨u, hu, hnil⟩ := run_cons_eq_some.mp hlast
    obtain rfl : u = t' := by simpa using hnil
    have heq' : es = pre ++ e :: post := by rw [heq, List.append_assoc]; rfl
    exact hstep t e u (hC pre e post t heq' ht) (ih (e :: post) t heq' ht) hu

/-- Some steps set `Q` and some reset it; the others leave it. Then `Q` holds at the end of a run
exactly when a step of the run has set it and none has reset it since. -/
theorem run_latch {Q : S → Prop} {C A B : S → E → Prop} {s u : S} {es : List E} (h0 : ¬ Q s)
    (hstep : ∀ t e t', C t e → step t e = some t' → (Q t' ↔ A t e ∨ Q t ∧ ¬ B t e))
    (hC : EveryStep step s es C) (hrun : run step s es = some u) :
    Q u ↔ ∃ pre e post t t', es = pre ++ e :: post ∧ run step s pre = some t ∧ A t e ∧
      step t e = some t' ∧ EveryStep step t' post fun t e => ¬ B t e := by
  induction es using List.reverseRecOn generalizing u with
  | nil =>
    obtain rfl : s = u := by simpa using hrun
    refine iff_of_false h0 ?_
    rintro ⟨pre, e, post, -, -, heq, -⟩
    simp at heq
  | append_singleton es e ih =>
    obtain ⟨t, ht, hlast⟩ := run_append_eq_some.mp hrun
    obtain ⟨u', hu, hnil⟩ := run_cons_eq_some.mp hlast
    obtain rfl : u' = u := by simpa using hnil
    have hinit : EveryStep step s es C := fun pre e' post t' heq =>
      hC pre e' (post ++ [e]) t' (by rw [heq, List.append_assoc]; rfl)
    rw [hstep t e u' (hC es e [] t rfl ht) hu]
    constructor
    · rintro (hA | ⟨hQ, hB⟩)
      · exact ⟨es, e, [], t, u', rfl, ht, hA, hu, everyStep_nil⟩
      · obtain ⟨pre, a, post, t₁, t₂, rfl, ht₁, hA, ht₂, hpost⟩ := (ih hinit ht).mp hQ
        refine ⟨pre, a, post ++ [e], t₁, t₂, by simp, ht₁, hA, ht₂, ?_⟩
        refine everyStep_append_singleton.mpr ⟨hpost, fun t' ht' => ?_⟩
        obtain rfl : t' = t := by
          rw [run_append, ht₁, Option.bind_some, run_cons, ht₂, Option.bind_some, ht'] at ht
          exact Option.some.inj ht
        exact hB
    · rintro ⟨pre, a, post, t₁, t₂, heq, ht₁, hA, ht₂, hpost⟩
      rcases List.eq_nil_or_concat post with rfl | ⟨post, e', rfl⟩
      · -- the last step is the one that sets `Q`
        obtain ⟨rfl, hcons⟩ := List.append_inj' heq rfl
        obtain rfl : e = a := by simpa using hcons
        obtain rfl := Option.some.inj (ht₁.symm.trans ht)
        exact Or.inl hA
      · rw [List.concat_eq_append, ← List.cons_append, ← List.append_assoc] at heq
        obtain ⟨rfl, hcons⟩ := List.append_inj' heq rfl
        obtain rfl : e = e' := by simpa using hcons
        rw [List.concat_eq_append] at hpost
        obtain ⟨hpost, hlast⟩ := everyStep_append_singleton.mp hpost
        have hQ : Q t := (ih hinit ht).mpr ⟨pre, a, post, t₁, t₂, rfl, ht₁, hA, ht₂, hpost⟩
        refine Or.inr ⟨hQ, hlast t ?_⟩
        rw [run_append, ht₁, Option.bind_some, run_cons, ht₂, Option.bind_some] at ht
        exact ht

/-- If a step keeps `P` exactly when it meets `C`, a run keeps `P` exactly when all its steps meet
`C`. `I` is what the step equivalence may use; the steps have to keep it as long as `P` holds. Both
may be shown for the steps of this run only: for events that occur in it and states from which its
last state can be reached. -/
theorem everyState_iff_everyStep_of_kept {P I : S → Prop} {C : S → E → Prop} {s u : S}
    {es : List E} (hP : P s) (hI : I s)
    (hkeep : ∀ t e t', e ∈ es → (∃ fs, run step t' fs = some u) → I t → P t →
      step t e = some t' → I t')
    (hstep : ∀ t e t', e ∈ es → (∃ fs, run step t' fs = some u) → I t → P t →
      step t e = some t' → (P t' ↔ C t e))
    (hrun : run step s es = some u) :
    EveryState step s es P ↔ EveryStep step s es C := by
  induction es generalizing s with
  | nil => exact iff_of_true (everyState_nil.mpr hP) everyStep_nil
  | cons e es ih =>
    obtain ⟨t, ht, hu⟩ := run_cons_eq_some.mp hrun
    rw [everyState_cons ht, everyStep_cons ht]
    have hiff := hstep s e t List.mem_cons_self ⟨es, hu⟩ hI hP ht
    have hrest (hPt : P t) : EveryState step t es P ↔ EveryStep step t es C :=
      ih hPt (hkeep s e t List.mem_cons_self ⟨es, hu⟩ hI hP ht)
        (fun t' e' t'' he' => hkeep t' e' t'' (List.mem_cons_of_mem e he'))
        (fun t' e' t'' he' => hstep t' e' t'' (List.mem_cons_of_mem e he')) hu
    constructor
    · rintro ⟨-, h⟩
      exact ⟨hiff.mp h.first, (hrest h.first).mp h⟩
    · rintro ⟨hc, h⟩
      exact ⟨hP, (hrest (hiff.mpr hc)).mpr h⟩

/-- The same with an invariant that every step keeps. -/
theorem everyState_iff_everyStep {P I : S → Prop} {C : S → E → Prop} {s u : S} {es : List E}
    (hP : P s) (hI : I s)
    (hkeep : ∀ t e t', e ∈ es → (∃ fs, run step t' fs = some u) → I t → step t e = some t' → I t')
    (hstep : ∀ t e t', e ∈ es → (∃ fs, run step t' fs = some u) → I t → P t →
      step t e = some t' → (P t' ↔ C t e))
    (hrun : run step s es = some u) :
    EveryState step s es P ↔ EveryStep step s es C :=
  everyState_iff_everyStep_of_kept hP hI
    (fun t e t' he hend hI _ ht => hkeep t e t' he hend hI ht) hstep hrun

end Machine

end Common
