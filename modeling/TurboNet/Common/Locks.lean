import Mathlib.Order.BooleanAlgebra.Set
import Mathlib.Logic.Function.Basic
import TurboNet.Common.Machine

/-!
# Threads, locks and callbacks

A program is a set of procedures and of methods that take and release locks, work on a shared state,
call each other, and call back into an application. The application may call methods, from threads
of its own and from its callbacks. `LockProgram.step` interleaves the threads of such a program, one
instruction at a time. A lock is not recursive: a thread that comes to a lock it owns is stuck for
ever (`World.SelfLock`).

`Safe` follows the code of one thread and keeps account of the locks that it holds: it takes none of
these again, and it holds the locks of `atCallback c` whenever it calls back `c`. If all code is
safe on its own, and a method that is called from a callback is safe with the locks held there, then
no thread comes to a lock that it owns (`Disciplined.not_selfLock`). What a callback may call, and
how the tests of a method that it has called may turn out, are conditions on the steps of a run.
`Doomed` code comes to a lock that is held; where all code is doomed after a step that is not
permitted, the conditions cannot be weakened (`Disciplined.exists_selfLock`).
-/

namespace Common

variable {M S T C P A : Type*}

/-- Code of a program with locks `M`, shared state `S`, tests `T`, callbacks `C` and procedures
`P`. -/
inductive Code (M S T C P : Type*) where
  | done
  | lock (m : M) (next : Code M S T C P)
  | unlock (m : M) (next : Code M S T C P)
  /-- Change the state, and go on as it was before demands. -/
  | act (f : S → S) (next : S → Code M S T C P)
  | test (t : T) (next : Bool → Code M S T C P)
  | call (q : P) (next : Code M S T C P)
  | callback (c : C) (next : Code M S T C P)

/-- A program, with methods `A` for the application. -/
structure LockProgram (M S T C P A : Type*) where
  eval : T → S → Bool
  proc : P → Code M S T C P
  method : A → Code M S T C P
  /-- What happens to the state when a thread without work takes up a procedure, if it can. -/
  takeUp : P → S → Option S

/-- An entry of the stack of a thread: code of the program, or a callback of the application. Code
of a method says which method it is and which callback has called it, if one has. -/
inductive Frame (M S T C P A : Type*) where
  | code (origin : Option (Option C × A)) (rest : Code M S T C P)
  | app (c : C)

structure World (M S T C P A : Type*) where
  shared : S
  owner : M → Option ℕ := fun _ => none
  frames : ℕ → List (Frame M S T C P A) := fun _ => []

inductive LockEvent (P A : Type*) where
  /-- A thread without work takes up a procedure. -/
  | takeUp (i : ℕ) (q : P)
  /-- The application calls a method, from a thread of its own or from a callback. -/
  | invoke (i : ℕ) (a : A)
  /-- A callback returns. -/
  | ret (i : ℕ)
  /-- A thread goes on by an instruction. -/
  | advance (i : ℕ)

namespace World

/-- The locks of a thread. -/
def heldBy (w : World M S T C P A) (i : ℕ) : Set M := { m | w.owner m = some i }

/-- The thread is next to take a lock that it has. -/
def SelfLockOf (w : World M S T C P A) (i : ℕ) : Prop :=
  match w.frames i with
  | .code _ (.lock m _) :: _ => m ∈ w.heldBy i
  | _ => False

/-- Some thread is. -/
def SelfLock (w : World M S T C P A) : Prop := ∃ i, w.SelfLockOf i

/-- The stack of a thread becomes another one. -/
def setFrames (w : World M S T C P A) (i : ℕ) (stack : List (Frame M S T C P A)) :
    World M S T C P A :=
  { w with frames := Function.update w.frames i stack }

end World

namespace LockProgram

variable [DecidableEq M] (p : LockProgram M S T C P A)

/-- A thread whose stack is this one goes on. -/
def advance (w : World M S T C P A) (i : ℕ) (origin : Option (Option C × A))
    (rest : List (Frame M S T C P A)) : Code M S T C P → Option (World M S T C P A)
  | .done => some (w.setFrames i rest)
  | .lock m next =>
    if w.owner m = none then
      some ({ w with owner := Function.update w.owner m (some i) }.setFrames i
        (.code origin next :: rest))
    else none
  | .unlock m next =>
    some ({ w with owner := Function.update w.owner m none }.setFrames i
      (.code origin next :: rest))
  | .act f next =>
    some ({ w with shared := f w.shared }.setFrames i (.code origin (next w.shared) :: rest))
  | .test t next => some (w.setFrames i (.code origin (next (p.eval t w.shared)) :: rest))
  | .call q next => some (w.setFrames i (.code none (p.proc q) :: .code origin next :: rest))
  | .callback c next => some (w.setFrames i (.app c :: .code origin next :: rest))

def step (w : World M S T C P A) : LockEvent P A → Option (World M S T C P A)
  | .takeUp i q =>
    match w.frames i with
    | [] => (p.takeUp q w.shared).map fun s =>
        { w with shared := s }.setFrames i [.code none (p.proc q)]
    | _ => none
  | .invoke i a =>
    match w.frames i with
    | [] => some (w.setFrames i [.code (some (none, a)) (p.method a)])
    | .app c :: rest =>
      some (w.setFrames i (.code (some (some c, a)) (p.method a) :: .app c :: rest))
    | _ => none
  | .ret i =>
    match w.frames i with
    | .app _ :: rest => some (w.setFrames i rest)
    | _ => none
  | .advance i =>
    match w.frames i with
    | .code origin code :: rest => p.advance w i origin rest code
    | _ => none

end LockProgram

/-! ## Safe code -/

/-- The code comes to a lock that is held, without a test and without waiting for anybody. -/
def Doomed : Set M → Code M S T C P → Prop
  | held, .lock m _ => m ∈ held
  | held, .unlock m next => m ∈ held ∧ Doomed (held \ {m}) next
  | held, .act _ next => ∀ s, Doomed held (next s)
  | _, _ => False

/-- The code takes no lock that it holds, as long as tests turn out as `R` allows, and does so
otherwise. It begins with `held` and ends with `base`. -/
def Safe (atCallback : C → Set M) (R : T → Bool → Prop) (base : Set M) :
    Set M → Code M S T C P → Prop
  | held, .done => held = base
  | held, .lock m next => m ∉ held ∧ Safe atCallback R base (insert m held) next
  | held, .unlock m next => m ∈ held ∧ Safe atCallback R base (held \ {m}) next
  | held, .act _ next => ∀ s, Safe atCallback R base held (next s)
  | held, .test t next => ∀ b,
    (R t b → Safe atCallback R base held (next b)) ∧ (¬ R t b → Doomed held (next b))
  -- procedures are called without locks
  | held, .call _ next => held = ∅ ∧ Safe atCallback R base held next
  | held, .callback c next => held = atCallback c ∧ Safe atCallback R base held next

/-- The end of a critical section. -/
theorem Safe.unlock_insert {atCallback : C → Set M} {R : T → Bool → Prop} {base held : Set M}
    {m : M}
    {next : Code M S T C P} (hm : m ∉ held) (h : Safe atCallback R base held next) :
    Safe atCallback R base (insert m held) (.unlock m next) := by
  refine ⟨Set.mem_insert m held, ?_⟩
  rwa [Set.insert_sdiff_self_of_notMem hm]

/-- How tests may turn out in code of this origin. -/
def allows (R : C → A → T → Bool → Prop) : Option (Option C × A) → T → Bool → Prop
  | some (some c, a) => R c a
  | _ => fun _ _ => True

/-- The stack of a thread with these locks. -/
def SafeStack (atCallback : C → Set M) (R : C → A → T → Bool → Prop) :
    Set M → List (Frame M S T C P A) → Prop
  | held, [] => held = ∅
  | held, .app c :: rest => held = atCallback c ∧ SafeStack atCallback R held rest
  | held, .code origin code :: rest =>
    ∃ base, Safe atCallback (allows R origin) base held code ∧ SafeStack atCallback R base rest

/-- Procedures and methods are safe without locks; with the locks that are held at a callback, a
method is safe if it may be called there, and doomed otherwise. -/
structure Disciplined (p : LockProgram M S T C P A) (atCallback : C → Set M) (Q : C → A → Prop)
    (R : C → A → T → Bool → Prop) : Prop where
  proc : ∀ q, Safe atCallback (fun _ _ => True) ∅ ∅ (p.proc q)
  method : ∀ a, Safe atCallback (fun _ _ => True) ∅ ∅ (p.method a)
  callback : ∀ c a, Q c a → Safe atCallback (R c a) (atCallback c) (atCallback c) (p.method a)
  doomed : ∀ c a, ¬ Q c a → Doomed (atCallback c) (p.method a)

/-- The callback that is running. -/
def Frame.callback? : Frame M S T C P A → Option C
  | .app c => some c
  | .code _ _ => none

/-- The test that is next, and the origin of the code. -/
def Frame.test? : Frame M S T C P A → Option (Option (Option C × A) × T)
  | .code origin (.test t _) => some (origin, t)
  | _ => none

/-- A callback calls what it may call, and tests turn out as they may. -/
def Permitted (p : LockProgram M S T C P A) (Q : C → A → Prop) (R : C → A → T → Bool → Prop)
    (w : World M S T C P A) : LockEvent P A → Prop
  | .invoke i a => ∀ c ∈ (w.frames i).head?.bind Frame.callback?, Q c a
  | .advance i =>
    ∀ x ∈ (w.frames i).head?.bind Frame.test?, allows R x.1 x.2 (p.eval x.2 w.shared)
  | _ => True

instance {R : C → A → T → Bool → Prop} [∀ c a t b, Decidable (R c a t b)] :
    (origin : Option (Option C × A)) → (t : T) → (b : Bool) → Decidable (allows R origin t b)
  | some (some c, a), t, b => inferInstanceAs (Decidable (R c a t b))
  | some (none, _), _, _ => isTrue trivial
  | none, _, _ => isTrue trivial

instance {p : LockProgram M S T C P A} {Q : C → A → Prop} {R : C → A → T → Bool → Prop}
    [∀ c a, Decidable (Q c a)] [∀ c a t b, Decidable (R c a t b)] (w : World M S T C P A) :
    (e : LockEvent P A) → Decidable (Permitted p Q R w e)
  | .invoke i a =>
    inferInstanceAs (Decidable (∀ c ∈ (w.frames i).head?.bind Frame.callback?, Q c a))
  | .advance i => inferInstanceAs (Decidable
      (∀ x ∈ (w.frames i).head?.bind Frame.test?, allows R x.1 x.2 (p.eval x.2 w.shared)))
  | .takeUp _ _ => isTrue trivial
  | .ret _ => isTrue trivial

/-! ## Runs -/

variable {p : LockProgram M S T C P A} {atCallback : C → Set M} {Q : C → A → Prop}
  {R : C → A → T → Bool → Prop} {w v : World M S T C P A}

/-- The stacks of all threads are safe. -/
def SafeWorld (atCallback : C → Set M) (R : C → A → T → Bool → Prop) (w : World M S T C P A) :
    Prop :=
  ∀ i, SafeStack atCallback R (w.heldBy i) (w.frames i)

/-- No thread of a safe world waits for a lock of its own. -/
theorem SafeWorld.not_selfLock (h : SafeWorld atCallback R w) : ¬ w.SelfLock := by
  rintro ⟨i, hi⟩
  have hstack := h i
  unfold World.SelfLockOf at hi
  split at hi
  · rename_i hframes
    rw [hframes] at hstack
    obtain ⟨base, ⟨hnot, -⟩, -⟩ := hstack
    exact hnot hi
  · exact hi

/-- One thread does something that leaves the locks of the others as they are. -/
theorem SafeWorld.update (h : SafeWorld atCallback R w) {i : ℕ} {l : List (Frame M S T C P A)}
    (hframes : v.frames = Function.update w.frames i l)
    (hothers : ∀ j, j ≠ i → v.heldBy j = w.heldBy j)
    (hstack : SafeStack atCallback R (v.heldBy i) l) : SafeWorld atCallback R v := by
  intro j
  rw [hframes]
  by_cases hj : j = i
  · subst hj
    rwa [Function.update_self]
  · rw [Function.update_of_ne hj, hothers j hj]
    exact h j

/-- The world is safe while no thread runs anything. -/
theorem safeWorld_start (atCallback : C → Set M) (R : C → A → T → Bool → Prop) (s : S) :
    SafeWorld (P := P) atCallback R { shared := s } := by
  intro i
  show World.heldBy _ i = ∅
  simp [World.heldBy]

/-- A thread in a callback has it on the top of its stack. -/
theorem frames_of_callback {i : ℕ} {c : C} (h : (w.frames i).head?.bind Frame.callback? = some c) :
    ∃ rest, w.frames i = .app c :: rest := by
  obtain ⟨x, hx, hc⟩ := Option.bind_eq_some_iff.mp h
  obtain ⟨rest, hframes⟩ := List.head?_eq_some_iff.mp hx
  cases x with
  | app c' => exact ⟨rest, by rw [hframes, Option.some.inj hc]⟩
  | code origin code => exact absurd hc (by simp [Frame.callback?])

/-- A thread at a test has it on the top of its stack. -/
theorem frames_of_test {i : ℕ} {origin : Option (Option C × A)} {t : T}
    (h : (w.frames i).head?.bind Frame.test? = some (origin, t)) :
    ∃ next rest, w.frames i = .code origin (.test t next) :: rest := by
  obtain ⟨x, hx, ht⟩ := Option.bind_eq_some_iff.mp h
  obtain ⟨rest, hframes⟩ := List.head?_eq_some_iff.mp hx
  unfold Frame.test? at ht
  split at ht
  · rename_i next
    obtain ⟨rfl, rfl⟩ := Prod.mk.inj (Option.some.inj ht)
    exact ⟨next, rest, hframes⟩
  · exact absurd ht (by simp)

/-- The stack that was set is there. -/
theorem frames_setFrames (w : World M S T C P A) (i : ℕ) (l : List (Frame M S T C P A)) :
    (w.setFrames i l).frames i = l := by
  simp only [World.setFrames, Function.update_self]

variable [DecidableEq M]

/-- A thread that takes a lock holds one more, and the others hold what they held. -/
theorem heldBy_lock {m : M} {i : ℕ} (hfree : w.owner m = none)
    (howner : v.owner = Function.update w.owner m (some i)) :
    v.heldBy i = insert m (w.heldBy i) ∧ ∀ j, j ≠ i → v.heldBy j = w.heldBy j := by
  constructor
  · ext n
    simp only [World.heldBy, howner, Set.mem_ofPred_eq, Set.mem_insert_iff]
    by_cases hn : n = m
    · simp [hn]
    · rw [Function.update_of_ne hn]
      simp [hn]
  · intro j hj
    ext n
    simp only [World.heldBy, howner, Set.mem_ofPred_eq]
    by_cases hn : n = m
    · simp [hn, hfree, Ne.symm hj]
    · rw [Function.update_of_ne hn]

/-- A thread that gives a lock back holds one less, and the others hold what they held. -/
theorem heldBy_unlock {m : M} {i : ℕ} (hmine : w.owner m = some i)
    (howner : v.owner = Function.update w.owner m none) :
    v.heldBy i = w.heldBy i \ {m} ∧ ∀ j, j ≠ i → v.heldBy j = w.heldBy j := by
  constructor
  · ext n
    simp only [World.heldBy, howner, Set.mem_ofPred_eq, Set.mem_sdiff, Set.mem_singleton_iff]
    by_cases hn : n = m
    · simp [hn]
    · rw [Function.update_of_ne hn]
      simp [hn]
  · intro j hj
    ext n
    simp only [World.heldBy, howner, Set.mem_ofPred_eq]
    by_cases hn : n = m
    · simp [hn, hmine, Ne.symm hj]
    · rw [Function.update_of_ne hn]

/-- An instruction of one thread. -/
theorem SafeWorld.advance (h : SafeWorld atCallback R w) (hp : Disciplined p atCallback Q R) {i : ℕ}
    {origin : Option (Option C × A)} {code : Code M S T C P} {rest : List (Frame M S T C P A)}
    (hframes : w.frames i = .code origin code :: rest)
    (htest : ∀ t next, code = .test t next → allows R origin t (p.eval t w.shared))
    (hstep : p.advance w i origin rest code = some v) : SafeWorld atCallback R v := by
  have hstack := h i
  rw [hframes] at hstack
  obtain ⟨base, hsafe, hrest⟩ := hstack
  cases code with
  | done =>
    obtain rfl := Option.some.inj hstep
    obtain rfl : w.heldBy i = base := hsafe
    exact h.update rfl (fun _ _ => rfl) hrest
  | lock m next =>
    obtain ⟨hfree, heq⟩ := Option.ite_none_right_eq_some.mp hstep
    have heq := Option.some.inj heq
    obtain ⟨hmine, hothers⟩ := heldBy_lock (v := v) (i := i) hfree (by rw [← heq]; rfl)
    refine h.update (l := .code origin next :: rest) (by rw [← heq]; rfl) hothers
      ⟨base, ?_, hrest⟩
    exact hmine ▸ hsafe.2
  | unlock m next =>
    have heq := Option.some.inj hstep
    obtain ⟨hmine, hothers⟩ := heldBy_unlock (v := v) (i := i) hsafe.1 (by rw [← heq]; rfl)
    refine h.update (l := .code origin next :: rest) (by rw [← heq]; rfl) hothers
      ⟨base, ?_, hrest⟩
    exact hmine ▸ hsafe.2
  | act f next =>
    obtain rfl := Option.some.inj hstep
    exact h.update rfl (fun _ _ => rfl) ⟨base, hsafe w.shared, hrest⟩
  | test t next =>
    obtain rfl := Option.some.inj hstep
    exact h.update rfl (fun _ _ => rfl) ⟨base, (hsafe _).1 (htest t next rfl), hrest⟩
  -- what is called begins without a lock, and gives back what it takes
  | call q next =>
    obtain rfl := Option.some.inj hstep
    obtain ⟨hnone, hnext⟩ := hsafe
    rw [hnone] at hnext
    refine h.update rfl (fun _ _ => rfl) ⟨∅, ?_, base, hnext, hrest⟩
    exact hnone ▸ hp.proc q
  | callback c next =>
    obtain rfl := Option.some.inj hstep
    exact h.update rfl (fun _ _ => rfl) ⟨hsafe.1, base, hsafe.2, hrest⟩

/-- Every permitted step keeps the world safe. -/
theorem SafeWorld.step (h : SafeWorld atCallback R w) (hp : Disciplined p atCallback Q R)
    {e : LockEvent P A} (he : Permitted p Q R w e) (hstep : p.step w e = some v) :
    SafeWorld atCallback R v := by
  cases e with
  | takeUp i q =>
    simp only [LockProgram.step] at hstep
    split at hstep
    · rename_i hframes
      obtain ⟨s, -, rfl⟩ := Option.map_eq_some_iff.mp hstep
      have hnone : w.heldBy i = ∅ := by simpa [hframes, SafeStack] using h i
      refine h.update rfl (fun _ _ => rfl) ⟨∅, ?_, rfl⟩
      exact hnone ▸ hp.proc q
    · exact absurd hstep (by simp)
  | invoke i a =>
    simp only [LockProgram.step] at hstep
    split at hstep
    · rename_i hframes
      obtain rfl := Option.some.inj hstep
      have hnone : w.heldBy i = ∅ := by simpa [hframes, SafeStack] using h i
      refine h.update rfl (fun _ _ => rfl) ⟨∅, ?_, rfl⟩
      exact hnone ▸ hp.method a
    · rename_i c rest hframes
      obtain rfl := Option.some.inj hstep
      have hstack := h i
      rw [hframes] at hstack
      obtain ⟨hheld, hrest⟩ := hstack
      -- the callback calls a method with the locks that are held around it
      have hallowed : Q c a := he c (by rw [hframes]; rfl)
      refine h.update rfl (fun _ _ => rfl) ⟨atCallback c, ?_, rfl, hheld ▸ hrest⟩
      exact hheld ▸ hp.callback c a hallowed
    · exact absurd hstep (by simp)
  | ret i =>
    simp only [LockProgram.step] at hstep
    split at hstep
    · rename_i c rest hframes
      obtain rfl := Option.some.inj hstep
      have hstack := h i
      rw [hframes] at hstack
      exact h.update rfl (fun _ _ => rfl) hstack.2
    · exact absurd hstep (by simp)
  | advance i =>
    simp only [LockProgram.step] at hstep
    split at hstep
    · rename_i origin code rest hframes
      refine h.advance hp hframes ?_ hstep
      rintro t next rfl
      exact he (origin, t) (by rw [hframes]; rfl)
    · exact absurd hstep (by simp)

/-- **No thread comes to a lock that it owns**, in a run of a disciplined program whose steps are
all permitted. -/
theorem Disciplined.not_selfLock (hp : Disciplined p atCallback Q R) {s : S}
    {es : List (LockEvent P A)} (hes : EveryStep p.step { shared := s } es (Permitted p Q R)) :
    EveryState p.step { shared := s } es fun w => ¬ w.SelfLock := by
  have hsafe : EveryState p.step { shared := s } es (SafeWorld atCallback R) :=
    hes.everyState (safeWorld_start atCallback R s) fun _ _ _ he h hstep => h.step hp he hstep
  exact fun pre post w heq hw => (hsafe pre post w heq hw).not_selfLock

/-! ## Steps that are not permitted -/

/-- A thread goes on with the code on the top of its stack. -/
theorem step_advance {i : ℕ} {origin : Option (Option C × A)} {code : Code M S T C P}
    {rest : List (Frame M S T C P A)} (hframes : w.frames i = .code origin code :: rest) :
    p.step w (.advance i) = p.advance w i origin rest code := by
  simp only [LockProgram.step, hframes]

/-- A thread with doomed code can go on until it comes to the lock. -/
theorem exists_selfLock_of_doomed {i : ℕ} {origin : Option (Option C × A)} {code : Code M S T C P}
    {rest : List (Frame M S T C P A)} (hframes : w.frames i = .code origin code :: rest)
    (hdoomed : Doomed (w.heldBy i) code) : ∃ fs u, run p.step w fs = some u ∧ u.SelfLock := by
  -- the code comes to a lock that the thread has, whatever the state is
  induction code generalizing w with
  | lock m next _ =>
    refine ⟨[], w, rfl, i, ?_⟩
    rw [World.SelfLockOf, hframes]
    exact hdoomed
  | unlock m next ih =>
    obtain ⟨hmine, hrest⟩ := hdoomed
    have hstep : p.step w (.advance i) = some ({ w with
        owner := Function.update w.owner m none }.setFrames i (.code origin next :: rest)) :=
      step_advance hframes
    generalize hv : World.setFrames _ i _ = v at hstep
    have hheld := (heldBy_unlock (v := v) hmine (by rw [← hv]; rfl)).1
    obtain ⟨fs, u, hu, hlock⟩ := ih (w := v) (by rw [← hv, frames_setFrames]) (hheld ▸ hrest)
    exact ⟨.advance i :: fs, u, run_cons_eq_some.mpr ⟨v, hstep, hu⟩, hlock⟩
  | act f next ih =>
    have hstep : p.step w (.advance i) = some ({ w with shared := f w.shared }.setFrames i
        (.code origin (next w.shared) :: rest)) :=
      step_advance hframes
    obtain ⟨fs, u, hu, hlock⟩ := ih w.shared (w := { w with shared := f w.shared }.setFrames i
      (.code origin (next w.shared) :: rest)) (frames_setFrames _ _ _) (hdoomed w.shared)
    exact ⟨.advance i :: fs, u, run_cons_eq_some.mpr ⟨_, hstep, hu⟩, hlock⟩
  | done => exact hdoomed.elim
  | test t next _ => exact hdoomed.elim
  | call q next _ => exact hdoomed.elim
  | callback c next _ => exact hdoomed.elim

/-- After a step that is not permitted, a thread can come to a lock that it owns. -/
theorem Disciplined.exists_selfLock (hp : Disciplined p atCallback Q R) {s : S}
    {es : List (LockEvent P A)} (hes : EveryStep p.step { shared := s } es (Permitted p Q R))
    (hw : run p.step { shared := s } es = some w) {e : LockEvent P A} (he : ¬ Permitted p Q R w e)
    (hstep : p.step w e = some v) : ∃ fs u, run p.step v fs = some u ∧ u.SelfLock := by
  have hsafe : SafeWorld atCallback R w :=
    (hes.everyState (safeWorld_start atCallback R s) fun _ _ _ he h hstep =>
      h.step hp he hstep).last hw
  -- only a call of a callback, or a test that goes the wrong way, is not permitted
  cases e with
  | takeUp i q => exact absurd trivial he
  | ret i => exact absurd trivial he
  | invoke i a =>
    obtain ⟨c, hc, hnot⟩ : ∃ c ∈ (w.frames i).head?.bind Frame.callback?, ¬ Q c a := by
      simpa [Permitted] using he
    obtain ⟨rest, hframes⟩ := frames_of_callback hc
    simp only [LockProgram.step, hframes, Option.some.injEq] at hstep
    subst hstep
    have hstack := hsafe i
    rw [hframes] at hstack
    refine exists_selfLock_of_doomed (frames_setFrames w i _) ?_
    exact hstack.1 ▸ hp.doomed c a hnot
  | advance i =>
    obtain ⟨⟨origin, t⟩, hx, hnot⟩ : ∃ x ∈ (w.frames i).head?.bind Frame.test?,
        ¬ allows R x.1 x.2 (p.eval x.2 w.shared) := by
      simpa [Permitted] using he
    obtain ⟨next, rest, hframes⟩ := frames_of_test hx
    rw [step_advance hframes] at hstep
    obtain rfl := Option.some.inj hstep
    have hstack := hsafe i
    rw [hframes] at hstack
    obtain ⟨base, hcode, -⟩ := hstack
    exact exists_selfLock_of_doomed (frames_setFrames w i _) ((hcode _).2 hnot)

end Common
