import TurboNet.Common.Locks

/-!
# Rules that threads keep

Whether a thread may take a lock, or look at a variable, depends on the locks that it holds. `Obeys`
follows the code of one thread, keeps account of its locks, and has every instruction keep a rule
about the two. If all code obeys on its own, and the methods also with the locks that are held at a
callback that may call them, then in every run each thread is next to do something that keeps the
rule (`Obedient.keeps`).
-/

namespace Common

variable {M S T C P A : Type*}

namespace World

/-- The code that the thread goes on with. -/
def code? (w : World M S T C P A) (i : ℕ) : Option (Code M S T C P) :=
  match w.frames i with
  | .code _ code :: _ => some code
  | _ => none

/-- The code is on the top of the stack. -/
theorem code?_eq_some {w : World M S T C P A} {i : ℕ} {code : Code M S T C P}
    (h : w.code? i = some code) : ∃ origin rest, w.frames i = .code origin code :: rest := by
  rw [code?] at h
  split at h
  · rename_i origin _ rest hframes
    obtain rfl := Option.some.inj h
    exact ⟨origin, rest, hframes⟩
  · cases h

end World

/-- The code keeps the rule from here on. It begins with `held` and ends with `base`. -/
def Obeys (rule : Set M → Code M S T C P → Prop) (atCallback : C → Set M) (base : Set M) :
    Set M → Code M S T C P → Prop
  | held, .done => rule held .done ∧ held = base
  -- a thread that comes to a lock of its own does not go on
  | held, .lock m next =>
    rule held (.lock m next) ∧ (m ∉ held → Obeys rule atCallback base (insert m held) next)
  | held, .unlock m next =>
    rule held (.unlock m next) ∧ m ∈ held ∧ Obeys rule atCallback base (held \ {m}) next
  | held, .act f next => rule held (.act f next) ∧ ∀ s, Obeys rule atCallback base held (next s)
  | held, .test t next => rule held (.test t next) ∧ ∀ b, Obeys rule atCallback base held (next b)
  -- procedures are called without locks
  | held, .call q next =>
    rule held (.call q next) ∧ held = ∅ ∧ Obeys rule atCallback base held next
  | held, .callback c next =>
    rule held (.callback c next) ∧ held = atCallback c ∧ Obeys rule atCallback base held next

section Obeys

variable {rule : Set M → Code M S T C P → Prop} {atCallback : C → Set M} {base held : Set M}
  {code next : Code M S T C P}

/-- Code that obeys keeps the rule now. -/
theorem Obeys.keeps (h : Obeys rule atCallback base held code) : rule held code := by
  cases code with
  | done => exact h.1
  | lock m next => exact h.1
  | unlock m next => exact h.1
  | act f next => exact h.1
  | test t next => exact h.1
  | call q next => exact h.1
  | callback c next => exact h.1

/-- The end of a critical section. -/
theorem Obeys.unlock_insert {m : M} (hrule : rule (insert m held) (.unlock m next)) (hm : m ∉ held)
    (h : Obeys rule atCallback base held next) :
    Obeys rule atCallback base (insert m held) (.unlock m next) := by
  refine ⟨hrule, Set.mem_insert m held, ?_⟩
  rwa [Set.insert_sdiff_self_of_notMem hm]

end Obeys

/-- The stack of a thread with these locks: every piece of code ends with the locks that the one
below it goes on with. -/
def ObeyingStack (rule : Set M → Code M S T C P → Prop) (atCallback : C → Set M) :
    Set M → List (Frame M S T C P A) → Prop
  | held, [] => held = ∅
  | held, .app c :: rest => held = atCallback c ∧ ObeyingStack rule atCallback held rest
  | held, .code _ code :: rest =>
    ∃ base, Obeys rule atCallback base held code ∧ ObeyingStack rule atCallback base rest

/-- All threads keep the rule. -/
def ObeyingWorld (rule : Set M → Code M S T C P → Prop) (atCallback : C → Set M)
    (w : World M S T C P A) : Prop :=
  ∀ i, ObeyingStack rule atCallback (w.heldBy i) (w.frames i)

/-- Procedures and methods obey without locks, and methods with the locks that are held at a
callback that may call them. -/
structure Obedient (p : LockProgram M S T C P A) (rule : Set M → Code M S T C P → Prop)
    (atCallback : C → Set M) (Q : C → A → Prop) : Prop where
  proc : ∀ q, Obeys rule atCallback ∅ ∅ (p.proc q)
  method : ∀ a, Obeys rule atCallback ∅ ∅ (p.method a)
  callback : ∀ c a, Q c a → Obeys rule atCallback (atCallback c) (atCallback c) (p.method a)

/-- A callback calls what it may call. -/
def CallsOnly (Q : C → A → Prop) (w : World M S T C P A) : LockEvent P A → Prop
  | .invoke i a => ∀ c ∈ (w.frames i).head?.bind Frame.callback?, Q c a
  | _ => True

instance {Q : C → A → Prop} [∀ c a, Decidable (Q c a)] (w : World M S T C P A) :
    (e : LockEvent P A) → Decidable (CallsOnly Q w e)
  | .invoke i a =>
    inferInstanceAs (Decidable (∀ c ∈ (w.frames i).head?.bind Frame.callback?, Q c a))
  | .advance _ | .takeUp _ _ | .ret _ => isTrue trivial

/-- A callback that may call less calls nothing else. -/
theorem CallsOnly.mono {Q Q' : C → A → Prop} (h : ∀ c a, Q c a → Q' c a) {w : World M S T C P A}
    {e : LockEvent P A} (he : CallsOnly Q w e) : CallsOnly Q' w e := by
  cases e with
  | invoke i a => exact fun c hc => h c a (he c hc)
  | _ => trivial

/-- Callbacks may call anything. -/
theorem CallsOnly.of_any (w : World M S T C P A) (e : LockEvent P A) :
    CallsOnly (fun _ _ => True) w e := by
  cases e with
  | invoke i a => exact fun _ _ => trivial
  | _ => trivial

/-! ## Runs -/

section Runs

variable {p : LockProgram M S T C P A} {rule : Set M → Code M S T C P → Prop}
  {atCallback : C → Set M} {Q : C → A → Prop} {w v : World M S T C P A}

/-- The rule is kept while no thread runs anything. -/
theorem obeyingWorld_start (rule : Set M → Code M S T C P → Prop) (atCallback : C → Set M) (s : S) :
    ObeyingWorld (A := A) rule atCallback { shared := s } := by
  intro i
  show World.heldBy _ i = ∅
  simp [World.heldBy]

/-- Every thread keeps the rule at its next instruction. -/
theorem ObeyingWorld.keeps (h : ObeyingWorld rule atCallback w) {i : ℕ} {code : Code M S T C P}
    (hcode : w.code? i = some code) : rule (w.heldBy i) code := by
  obtain ⟨origin, rest, hframes⟩ := World.code?_eq_some hcode
  have hstack := h i
  rw [hframes] at hstack
  obtain ⟨base, hobeys, -⟩ := hstack
  exact hobeys.keeps

/-- One thread does something that leaves the locks of the others as they are. -/
theorem ObeyingWorld.update (h : ObeyingWorld rule atCallback w) {i : ℕ}
    {l : List (Frame M S T C P A)} (hframes : v.frames = Function.update w.frames i l)
    (hothers : ∀ j, j ≠ i → v.heldBy j = w.heldBy j)
    (hstack : ObeyingStack rule atCallback (v.heldBy i) l) : ObeyingWorld rule atCallback v := by
  intro j
  rw [hframes]
  by_cases hj : j = i
  · subst hj
    rwa [Function.update_self]
  · rw [Function.update_of_ne hj, hothers j hj]
    exact h j

variable [DecidableEq M]

/-- An instruction of one thread. -/
theorem ObeyingWorld.advance (h : ObeyingWorld rule atCallback w)
    (hp : Obedient p rule atCallback Q) {i : ℕ} {origin : Option (Option C × A)}
    {code : Code M S T C P} {rest : List (Frame M S T C P A)}
    (hframes : w.frames i = .code origin code :: rest)
    (hstep : p.advance w i origin rest code = some v) : ObeyingWorld rule atCallback v := by
  have hstack := h i
  rw [hframes] at hstack
  obtain ⟨base, hcode, hrest⟩ := hstack
  cases code with
  | done =>
    obtain rfl := Option.some.inj hstep
    obtain rfl : w.heldBy i = base := hcode.2
    exact h.update rfl (fun _ _ => rfl) hrest
  | lock m next =>
    obtain ⟨hfree, heq⟩ := Option.ite_none_right_eq_some.mp hstep
    have heq := Option.some.inj heq
    obtain ⟨hmine, hothers⟩ := heldBy_lock (v := v) (i := i) hfree (by rw [← heq]; rfl)
    refine h.update (l := .code origin next :: rest) (by rw [← heq]; rfl) hothers
      ⟨base, ?_, hrest⟩
    have hnot : m ∉ w.heldBy i := fun hmem => absurd (hfree.symm.trans hmem) (by simp)
    exact hmine ▸ hcode.2 hnot
  | unlock m next =>
    have heq := Option.some.inj hstep
    obtain ⟨hmine, hothers⟩ := heldBy_unlock (v := v) (i := i) hcode.2.1 (by rw [← heq]; rfl)
    refine h.update (l := .code origin next :: rest) (by rw [← heq]; rfl) hothers
      ⟨base, ?_, hrest⟩
    exact hmine ▸ hcode.2.2
  | act f next =>
    obtain rfl := Option.some.inj hstep
    exact h.update rfl (fun _ _ => rfl) ⟨base, hcode.2 w.shared, hrest⟩
  | test t next =>
    obtain rfl := Option.some.inj hstep
    exact h.update rfl (fun _ _ => rfl) ⟨base, hcode.2 _, hrest⟩
  -- what is called begins without a lock, and gives back what it takes
  | call q next =>
    obtain rfl := Option.some.inj hstep
    obtain ⟨-, hnone, hnext⟩ := hcode
    rw [hnone] at hnext
    refine h.update rfl (fun _ _ => rfl) ⟨∅, ?_, base, hnext, hrest⟩
    exact hnone ▸ hp.proc q
  | callback c next =>
    obtain rfl := Option.some.inj hstep
    exact h.update rfl (fun _ _ => rfl) ⟨hcode.2.1, base, hcode.2.2, hrest⟩

/-- Every step keeps all threads at the rule. -/
theorem ObeyingWorld.step (h : ObeyingWorld rule atCallback w) (hp : Obedient p rule atCallback Q)
    {e : LockEvent P A} (he : CallsOnly Q w e) (hstep : p.step w e = some v) :
    ObeyingWorld rule atCallback v := by
  cases e with
  | takeUp i q =>
    simp only [LockProgram.step] at hstep
    split at hstep
    · rename_i hframes
      obtain ⟨s, -, rfl⟩ := Option.map_eq_some_iff.mp hstep
      have hnone : w.heldBy i = ∅ := by simpa [hframes, ObeyingStack] using h i
      refine h.update rfl (fun _ _ => rfl) ⟨∅, ?_, rfl⟩
      exact hnone ▸ hp.proc q
    · cases hstep
  | invoke i a =>
    simp only [LockProgram.step] at hstep
    split at hstep
    · rename_i hframes
      obtain rfl := Option.some.inj hstep
      have hnone : w.heldBy i = ∅ := by simpa [hframes, ObeyingStack] using h i
      refine h.update rfl (fun _ _ => rfl) ⟨∅, ?_, rfl⟩
      exact hnone ▸ hp.method a
    · rename_i c rest hframes
      obtain rfl := Option.some.inj hstep
      have hstack := h i
      rw [hframes] at hstack
      obtain ⟨hheld, hrest⟩ := hstack
      -- the callback calls a method with the locks that are held around it
      have hallowed : Q c a := he c (by rw [hframes]; rfl)
      refine h.update rfl (fun _ _ => rfl) ⟨atCallback c, ?_, rfl, hheld ▸ hrest⟩
      exact hheld ▸ hp.callback c a hallowed
    · cases hstep
  | ret i =>
    simp only [LockProgram.step] at hstep
    split at hstep
    · rename_i c rest hframes
      obtain rfl := Option.some.inj hstep
      have hstack := h i
      rw [hframes] at hstack
      exact h.update rfl (fun _ _ => rfl) hstack.2
    · cases hstep
  | advance i =>
    simp only [LockProgram.step] at hstep
    split at hstep
    · rename_i origin code rest hframes
      exact h.advance hp hframes hstep
    · cases hstep

/-- **Rules.** In a run of a program all of whose code keeps a rule, every thread is next to do
something that keeps it, if the callbacks call what they may call. -/
theorem Obedient.keeps (hp : Obedient p rule atCallback Q) {s : S} {es : List (LockEvent P A)}
    (hes : EveryStep p.step { shared := s } es (CallsOnly Q)) :
    EveryState p.step { shared := s } es fun w => ∀ i code, w.code? i = some code →
      rule (w.heldBy i) code := by
  have hobeying : EveryState p.step { shared := s } es (ObeyingWorld rule atCallback) :=
    hes.everyState (obeyingWorld_start rule atCallback s) fun _ _ _ he h hstep =>
      h.step hp he hstep
  exact fun pre post w heq hw i code hcode => (hobeying pre post w heq hw).keeps hcode

end Runs

end Common
