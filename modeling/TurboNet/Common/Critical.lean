import TurboNet.Common.Races

/-!
# Critical sections

While a thread holds the lock of a variable, the other threads leave the variable as it is: what the
thread has found there is there when it comes back to it, also after a callback. `Knows` follows the
code of one thread, keeps account of the value of the variable from the lock to the unlock, and has
every change of the state keep a rule about this value. If all code does so on its own, the rule is
kept in every run (`Informed.keeps`).
-/

namespace Common

variable {M S T C P A V : Type*}

namespace World

/-- The value of the variable, for the thread that has its lock. -/
def known (w : World M S T C P A) (x : Variable S V) (m : M) (i : ℕ) : Option V :=
  if w.owner m = some i then some (x.get w.shared) else none

variable {w v : World M S T C P A} {x : Variable S V} {m : M} {i : ℕ}

/-- A thread knows the value of the variable if it has the lock. -/
theorem known_eq_some {a : V} :
    w.known x m i = some a ↔ w.owner m = some i ∧ x.get w.shared = a := by
  rw [known, Option.ite_none_right_eq_some, Option.some.injEq]

/-- Without the lock it knows nothing. -/
theorem known_eq_none (h : w.owner m ≠ some i) : w.known x m i = none := if_neg h

/-- What is known depends on the lock and the variable only. -/
theorem known_congr (howner : v.owner m = w.owner m)
    (hget : w.owner m = some i → x.get v.shared = x.get w.shared) :
    v.known x m i = w.known x m i := by
  rw [known, known, howner]
  split
  · rename_i h
    rw [hget h]
  · rfl

/-- The thread with the lock knows what becomes of the variable. -/
theorem known_act {f : S → S} (howner : v.owner = w.owner) (hshared : v.shared = f w.shared) :
    v.known x m i = (w.known x m i).map fun _ => x.get (f w.shared) := by
  rw [known, known, howner, hshared]
  split <;> rfl

/-- Another lock changes hands. -/
theorem known_of_ne [DecidableEq M] {n : M} {o : Option ℕ} (hn : n ≠ m)
    (howner : v.owner = Function.update w.owner n o) (hshared : v.shared = w.shared) :
    v.known x m i = w.known x m i :=
  known_congr (by rw [howner, Function.update_of_ne (Ne.symm hn)]) fun _ => by rw [hshared]

end World

section Knows

variable [DecidableEq M]

/-- The changes keep the rule from here on. `known` is the value of the variable, if the lock is
held, and becomes `base` at the end. -/
def Knows (rule : Option V → Code M S T C P → Prop) (x : Variable S V) (m : M) (base : Option V) :
    Option V → Code M S T C P → Prop
  | known, .done => known = base
  | known, .lock n next =>
    -- a thread that comes to a lock of its own does not go on
    if n = m then known = none → ∀ a, Knows rule x m base (some a) next
    else Knows rule x m base known next
  | known, .unlock n next =>
    if n = m then known.isSome ∧ Knows rule x m base none next
    else Knows rule x m base known next
  | known, .act f next => rule known (.act f next) ∧ ∀ s, (∀ a ∈ known, x.get s = a) →
    Knows rule x m base (known.map fun _ => x.get (f s)) (next s)
  | known, .test _ next => ∀ b, Knows rule x m base known (next b)
  -- procedures are called without the lock
  | known, .call _ next => known = none ∧ Knows rule x m base none next
  | known, .callback _ next => Knows rule x m base known next

section Code

variable {rule : Option V → Code M S T C P → Prop} {x : Variable S V} {m n : M}
  {base known : Option V} {rest : Code M S T C P}

/-- With the lock the thread gets to know the value, whatever it is. -/
theorem Knows.lock_self (h : known = none → ∀ a, Knows rule x m base (some a) rest) :
    Knows rule x m base known (.lock m rest) := by
  rw [Knows, if_pos rfl]
  exact h

/-- Another lock tells nothing. -/
theorem Knows.lock_of_ne (hn : n ≠ m) (h : Knows rule x m base known rest) :
    Knows rule x m base known (.lock n rest) := by
  rw [Knows, if_neg hn]
  exact h

/-- With the lock the knowledge goes. -/
theorem Knows.unlock_self {a : V} (h : Knows rule x m base none rest) :
    Knows rule x m base (some a) (.unlock m rest) := by
  rw [Knows, if_pos rfl]
  exact ⟨rfl, h⟩

/-- Another lock takes nothing away. -/
theorem Knows.unlock_of_ne (hn : n ≠ m) (h : Knows rule x m base known rest) :
    Knows rule x m base known (.unlock n rest) := by
  rw [Knows, if_neg hn]
  exact h

/-- Something that leaves the variable as it is. -/
theorem Knows.act_of_get {f : S → S} {next : S → Code M S T C P}
    (hrule : rule known (.act f next)) (hget : ∀ s, x.get (f s) = x.get s)
    (h : ∀ s, (∀ a ∈ known, x.get s = a) → Knows rule x m base known (next s)) :
    Knows rule x m base known (.act f next) := by
  refine ⟨hrule, fun s hs => ?_⟩
  have hknown : (known.map fun _ => x.get (f s)) = known := by
    cases known with
    | none => rfl
    | some a => exact congrArg some ((hget s).trans (hs a rfl))
  exact hknown.symm ▸ h s hs

end Code

/-- The stack of a thread that knows this: every piece of code ends with what the one below it goes
on with. -/
def KnowingStack (rule : Option V → Code M S T C P → Prop) (x : Variable S V) (m : M) :
    Option V → List (Frame M S T C P A) → Prop
  | known, [] => known = none
  | known, .app _ :: rest => KnowingStack rule x m known rest
  | known, .code _ code :: rest =>
    ∃ base, Knows rule x m base known code ∧ KnowingStack rule x m base rest

def KnowingWorld (rule : Option V → Code M S T C P → Prop) (x : Variable S V) (m : M)
    (w : World M S T C P A) : Prop :=
  ∀ i, KnowingStack rule x m (w.known x m i) (w.frames i)

/-- All code keeps the rule, methods also when they are called with the lock held, and nothing that
is taken up changes the variable. -/
structure Informed (p : LockProgram M S T C P A) (rule : Option V → Code M S T C P → Prop)
    (x : Variable S V) (m : M) : Prop where
  proc : ∀ q, Knows rule x m none none (p.proc q)
  method : ∀ known a, Knows rule x m known known (p.method a)
  takeUp : ∀ q s s', p.takeUp q s = some s' → x.get s' = x.get s

variable {p : LockProgram M S T C P A} {rule : Option V → Code M S T C P → Prop}
  {x : Variable S V} {m : M} {w v : World M S T C P A}

/-- One thread does something that leaves the others with what they know. -/
theorem KnowingWorld.update (h : KnowingWorld rule x m w) {i : ℕ} {l : List (Frame M S T C P A)}
    (hframes : v.frames = Function.update w.frames i l)
    (hothers : ∀ j, j ≠ i → v.known x m j = w.known x m j)
    (hstack : KnowingStack rule x m (v.known x m i) l) : KnowingWorld rule x m v := by
  intro j
  rw [hframes]
  by_cases hj : j = i
  · subst hj
    rwa [Function.update_self]
  · rw [Function.update_of_ne hj, hothers j hj]
    exact h j

/-- An instruction of one thread. The variable is guarded by the lock. -/
theorem KnowingWorld.advance (h : KnowingWorld rule x m w) (hp : Informed p rule x m)
    (hguarded : ∀ i code, w.code? i = some code → Guarded p.eval x m (w.heldBy i) code) {i : ℕ}
    {origin : Option (Option C × A)} {code : Code M S T C P} {rest : List (Frame M S T C P A)}
    (hframes : w.frames i = .code origin code :: rest)
    (hstep : p.advance w i origin rest code = some v) : KnowingWorld rule x m v := by
  have hstack := h i
  rw [hframes] at hstack
  obtain ⟨base, hcode, hrest⟩ := hstack
  cases code with
  | done =>
    obtain rfl := Option.some.inj hstep
    obtain rfl : w.known x m i = base := hcode
    exact h.update rfl (fun _ _ => rfl) hrest
  | lock n next =>
    obtain ⟨hfree, heq⟩ := Option.ite_none_right_eq_some.mp hstep
    have heq := Option.some.inj heq
    have howner : v.owner = Function.update w.owner n (some i) := by rw [← heq]; rfl
    have hshared : v.shared = w.shared := by rw [← heq]; rfl
    have hstacks : v.frames = Function.update w.frames i (.code origin next :: rest) := by
      rw [← heq]; rfl
    -- nobody had the lock, so nobody but this thread learns anything
    by_cases hn : n = m
    · subst hn
      rw [Knows, if_pos rfl] at hcode
      have hnone (j : ℕ) : w.known x n j = none := World.known_eq_none (by simp [hfree])
      refine h.update hstacks (fun j hj => ?_) ⟨base, ?_, hrest⟩
      · rw [hnone j]
        exact World.known_eq_none (by simp [howner, Ne.symm hj])
      · have hsome : v.known x n i = some (x.get w.shared) :=
          World.known_eq_some.mpr ⟨by rw [howner, Function.update_self], by rw [hshared]⟩
        exact hsome ▸ hcode (hnone i) _
    · rw [Knows, if_neg hn] at hcode
      refine h.update hstacks (fun j _ => World.known_of_ne hn howner hshared) ⟨base, ?_, hrest⟩
      rw [World.known_of_ne hn howner hshared]
      exact hcode
  | unlock n next =>
    have heq := Option.some.inj hstep
    have howner : v.owner = Function.update w.owner n none := by rw [← heq]; rfl
    have hshared : v.shared = w.shared := by rw [← heq]; rfl
    have hstacks : v.frames = Function.update w.frames i (.code origin next :: rest) := by
      rw [← heq]; rfl
    by_cases hn : n = m
    · subst hn
      rw [Knows, if_pos rfl] at hcode
      obtain ⟨a, ha⟩ := Option.isSome_iff_exists.mp hcode.1
      have hmine : w.owner n = some i := (World.known_eq_some.mp ha).1
      have hnone (j : ℕ) : v.known x n j = none := World.known_eq_none (by simp [howner])
      refine h.update hstacks (fun j hj => ?_) ⟨base, ?_, hrest⟩
      · rw [hnone j]
        exact (World.known_eq_none (by simp [hmine, Ne.symm hj])).symm
      · rw [hnone i]
        exact hcode.2
    · rw [Knows, if_neg hn] at hcode
      refine h.update hstacks (fun j _ => World.known_of_ne hn howner hshared) ⟨base, ?_, hrest⟩
      rw [World.known_of_ne hn howner hshared]
      exact hcode
  | act f next =>
    have heq := Option.some.inj hstep
    have howner : v.owner = w.owner := by rw [← heq]; rfl
    have hshared : v.shared = f w.shared := by rw [← heq]; rfl
    -- the thread has the lock, or it leaves the variable alone
    have hspares : w.owner m = some i ∨ x.get (f w.shared) = x.get w.shared := by
      rcases hguarded i _ (by rw [World.code?, hframes]) with hm | hspares
      · exact Or.inl hm
      · exact Or.inr (hspares w.shared w.shared rfl).2.1
    refine h.update (l := .code origin (next w.shared) :: rest) (by rw [← heq]; rfl)
      (fun j hj => World.known_congr (congrFun howner m) fun hj' => ?_) ⟨base, ?_, hrest⟩
    · rw [hshared]
      exact hspares.resolve_left fun hmine => hj (Option.some.inj (hj'.symm.trans hmine))
    · rw [World.known_act howner hshared]
      exact hcode.2 w.shared fun a ha => (World.known_eq_some.mp ha).2
  | test t next =>
    obtain rfl := Option.some.inj hstep
    exact h.update rfl (fun _ _ => rfl) ⟨base, hcode _, hrest⟩
  | call q next =>
    obtain rfl := Option.some.inj hstep
    obtain ⟨hnone, hnext⟩ := hcode
    refine h.update rfl (fun _ _ => rfl) ⟨none, ?_, base, hnext, hrest⟩
    exact hnone.symm ▸ hp.proc q
  | callback c next =>
    obtain rfl := Option.some.inj hstep
    exact h.update rfl (fun _ _ => rfl) ⟨base, hcode, hrest⟩

/-- Every step keeps each thread right about the variable: it changes under the lock only, by the
thread that has it. -/
theorem KnowingWorld.step (h : KnowingWorld rule x m w) (hp : Informed p rule x m)
    (hguarded : ∀ i code, w.code? i = some code → Guarded p.eval x m (w.heldBy i) code)
    {e : LockEvent P A} (hstep : p.step w e = some v) : KnowingWorld rule x m v := by
  cases e with
  | takeUp i q =>
    simp only [LockProgram.step] at hstep
    split at hstep
    · rename_i hframes
      obtain ⟨s, hs, heq⟩ := Option.map_eq_some_iff.mp hstep
      -- a procedure that is taken up does not change the variable
      have hsame (j : ℕ) : v.known x m j = w.known x m j :=
        World.known_congr (by rw [← heq]; rfl) fun _ => by
          rw [← heq]
          exact hp.takeUp q _ _ hs
      have hnone : w.known x m i = none := by simpa [hframes, KnowingStack] using h i
      refine h.update (l := [.code none (p.proc q)]) (by rw [← heq]; rfl) (fun j _ => hsame j)
        ⟨none, ?_, rfl⟩
      rw [hsame i, hnone]
      exact hp.proc q
    · cases hstep
  | invoke i a =>
    simp only [LockProgram.step] at hstep
    split at hstep
    · rename_i hframes
      obtain rfl := Option.some.inj hstep
      have hnone : w.known x m i = none := by simpa [hframes, KnowingStack] using h i
      refine h.update rfl (fun _ _ => rfl) ⟨none, ?_, rfl⟩
      exact hnone.symm ▸ hp.method none a
    · rename_i c rest hframes
      obtain rfl := Option.some.inj hstep
      have hstack := h i
      rw [hframes] at hstack
      exact h.update rfl (fun _ _ => rfl) ⟨w.known x m i, hp.method _ a, hstack⟩
    · cases hstep
  | ret i =>
    simp only [LockProgram.step] at hstep
    split at hstep
    · rename_i c rest hframes
      obtain rfl := Option.some.inj hstep
      have hstack := h i
      rw [hframes] at hstack
      exact h.update rfl (fun _ _ => rfl) hstack
    · cases hstep
  | advance i =>
    simp only [LockProgram.step] at hstep
    split at hstep
    · rename_i origin code rest hframes
      exact h.advance hp hguarded hframes hstep
    · cases hstep

/-- **Critical sections.** In every run in which a variable is guarded by its lock, every change
that a thread is next to make keeps the rule about what the thread knows of the variable. -/
theorem Informed.keeps (hp : Informed p rule x m) {s : S} {es : List (LockEvent P A)}
    (hguarded : EveryState p.step { shared := s } es fun w => ∀ i code, w.code? i = some code →
      Guarded p.eval x m (w.heldBy i) code) :
    EveryState p.step { shared := s } es fun w => ∀ i f next, w.code? i = some (.act f next) →
      rule (w.known x m i) (.act f next) := by
  have hknowing : EveryState p.step { shared := s } es (KnowingWorld rule x m) :=
    hguarded.everyStep.everyState (fun _ => rfl) fun _ _ _ hguarded h hstep =>
      h.step hp hguarded hstep
  intro pre post w heq hw i f next hcode
  obtain ⟨origin, rest, hframes⟩ := World.code?_eq_some hcode
  have hstack := hknowing pre post w heq hw i
  rw [hframes] at hstack
  obtain ⟨base, hknows, -⟩ := hstack
  exact hknows.1

end Knows

end Common
