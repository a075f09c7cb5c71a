import TurboNet.Common.LockRules

/-!
# A baton

Something that must not be done by two threads at once can be guarded without a lock: whoever may do
it has a baton, which lies in the shared state or is carried by one of the threads. A thread comes
by it when it takes up a procedure, and lays it down by an instruction of its own. `Baton.Passes`
follows the code of one thread that carries the baton, or does not. In a program all of whose code
keeps to that, no two threads ever carry it, and whoever is about to do what only the carrier does
has it (`Baton.Passing.held`).
-/

namespace Common

variable {M S T C P A : Type*}

/-- The states in which the baton lies, and those in which a thread carries it. -/
structure Baton (S : Type*) where
  lies : S → Prop
  away : S → Prop

namespace Baton

variable (β : Baton S)

/-- Code that begins with the baton, or without it. It ends without, and calls such procedures only
as begin and end without. -/
def Passes (callable : P → Prop) : Bool → Code M S T C P → Prop
  | b, .done => b = false
  | b, .lock _ next => Passes callable b next
  | b, .unlock _ next => Passes callable b next
  | false, .act f next => ∀ s, (β.lies s → β.lies (f s)) ∧ (β.away s → β.away (f s)) ∧
    Passes callable false (next s)
  | true, .act f next => ∀ s, β.away s → β.away (f s) ∧ Passes callable true (next s) ∨
    β.lies (f s) ∧ Passes callable false (next s)
  | b, .test _ next => ∀ r, Passes callable b (next r)
  | b, .call q next => callable q ∧ Passes callable b next
  | b, .callback _ next => Passes callable b next

/-- The stack of a thread that carries the baton, or does not: a piece of its code has it. -/
def PassingStack (callable : P → Prop) : Bool → List (Frame M S T C P A) → Prop
  | b, [] => b = false
  | b, .app _ :: rest => PassingStack callable b rest
  | b, .code _ code :: rest =>
    β.Passes callable b code ∧ PassingStack callable false rest ∨
      β.Passes callable false code ∧ PassingStack callable b rest

/-- Where the baton is when this thread carries it, or none does. -/
def Place : Option ℕ → S → Prop
  | none, s => β.lies s
  | some _, s => β.away s

/-- The baton is carried by this thread, or by none. -/
structure Held (callable : P → Prop) (w : World M S T C P A) (carrier : Option ℕ) : Prop where
  place : β.Place carrier w.shared
  threads : ∀ i, β.PassingStack callable (decide (carrier = some i)) (w.frames i)

/-- A thread that takes up a procedure may come by the baton. -/
structure Passing (p : LockProgram M S T C P A) (callable : P → Prop) : Prop where
  lies : ∀ q s s', p.takeUp q s = some s' → β.lies s →
    β.lies s' ∧ β.Passes callable false (p.proc q) ∨ β.away s' ∧ β.Passes callable true (p.proc q)
  away : ∀ q s s', p.takeUp q s = some s' → β.away s →
    β.away s' ∧ β.Passes callable false (p.proc q)
  proc : ∀ q, callable q → β.Passes callable false (p.proc q)
  method : ∀ a, β.Passes callable false (p.method a)

variable {β} {callable : P → Prop} {p : LockProgram M S T C P A} {w v : World M S T C P A}
  {carrier : Option ℕ}

/-- The baton lies while no thread runs anything. -/
theorem held_start {s : S} (h : β.lies s) :
    β.Held callable ({ shared := s } : World M S T C P A) none where
  place := h
  threads _ := rfl

namespace Held

/-- Code that a thread goes on with has the baton only if the thread has. -/
theorem passes (h : β.Held callable w carrier) {i : ℕ} {code : Code M S T C P}
    (hcode : w.code? i = some code) :
    ∃ b, β.Passes callable b code ∧ (b = true → carrier = some i) := by
  obtain ⟨origin, rest, hframes⟩ := World.code?_eq_some hcode
  have hstack := h.threads i
  rw [hframes] at hstack
  rcases hstack with ⟨hpasses, -⟩ | ⟨hpasses, -⟩
  · exact ⟨_, hpasses, of_decide_eq_true⟩
  · exact ⟨false, hpasses, nofun⟩

/-- A thread goes on without passing the baton. -/
theorem update (h : β.Held callable w carrier) {i : ℕ} {l : List (Frame M S T C P A)}
    (hframes : v.frames = Function.update w.frames i l)
    (hplace : β.Place carrier v.shared)
    (hstack : β.PassingStack callable (decide (carrier = some i)) l) :
    β.Held callable v carrier := by
  refine ⟨hplace, fun j => ?_⟩
  rw [hframes]
  by_cases hj : j = i
  · subst hj
    rwa [Function.update_self]
  · rw [Function.update_of_ne hj]
    exact h.threads j

/-- The carrier lays the baton down. -/
theorem lay (h : β.Held callable w (some i)) {l : List (Frame M S T C P A)}
    (hframes : v.frames = Function.update w.frames i l) (hlies : β.lies v.shared)
    (hstack : β.PassingStack callable false l) : β.Held callable v none := by
  refine ⟨hlies, fun j => ?_⟩
  rw [hframes]
  by_cases hj : j = i
  · subst hj
    rwa [Function.update_self]
  · rw [Function.update_of_ne hj]
    have hother := h.threads j
    rwa [decide_eq_false (fun heq => hj (Option.some.inj heq).symm)] at hother

/-- A thread comes by the baton. -/
theorem pick (h : β.Held callable w none) {i : ℕ} {l : List (Frame M S T C P A)}
    (hframes : v.frames = Function.update w.frames i l) (haway : β.away v.shared)
    (hstack : β.PassingStack callable true l) : β.Held callable v (some i) := by
  refine ⟨haway, fun j => ?_⟩
  rw [hframes]
  by_cases hj : j = i
  · subst hj
    rwa [Function.update_self, decide_eq_true rfl]
  · rw [Function.update_of_ne hj, decide_eq_false (fun heq => hj (Option.some.inj heq).symm)]
    exact h.threads j

variable [DecidableEq M]

/-- An instruction of a thread. -/
theorem advance (h : β.Held callable w carrier) (hp : β.Passing p callable) {i : ℕ}
    {origin : Option (Option C × A)} {code : Code M S T C P} {rest : List (Frame M S T C P A)}
    (hframes : w.frames i = .code origin code :: rest)
    (hstep : p.advance w i origin rest code = some v) :
    ∃ carrier, β.Held callable v carrier := by
  have hstack := h.threads i
  rw [hframes] at hstack
  cases code with
  | done =>
    obtain rfl := Option.some.inj hstep
    refine ⟨carrier, h.update rfl h.place ?_⟩
    rcases hstack with ⟨hnone, hrest⟩ | ⟨-, hrest⟩
    · exact hnone ▸ hrest
    · exact hrest
  | lock m next =>
    obtain ⟨-, heq⟩ := Option.ite_none_right_eq_some.mp hstep
    obtain rfl := Option.some.inj heq
    exact ⟨carrier, h.update rfl h.place hstack⟩
  | unlock m next =>
    obtain rfl := Option.some.inj hstep
    exact ⟨carrier, h.update rfl h.place hstack⟩
  | act f next =>
    obtain rfl := Option.some.inj hstep
    -- a thread without the baton leaves it where it is
    have hkeeps (hpasses : β.Passes callable false (.act f next)) :
        β.Place carrier (f w.shared) := by
      cases carrier with
      | none => exact (hpasses w.shared).1 h.place
      | some j => exact (hpasses w.shared).2.1 h.place
    rcases hstack with ⟨hpasses, hrest⟩ | ⟨hpasses, hrest⟩
    · by_cases hcarrier : carrier = some i
      · subst hcarrier
        rw [decide_eq_true rfl] at hpasses
        rcases hpasses w.shared h.place with ⟨haway, hnext⟩ | ⟨hlies, hnext⟩
        · refine ⟨some i, h.update rfl haway (Or.inl ⟨?_, hrest⟩)⟩
          rwa [decide_eq_true rfl]
        · exact ⟨none, h.lay rfl hlies (Or.inl ⟨hnext, hrest⟩)⟩
      · rw [decide_eq_false hcarrier] at hpasses
        refine ⟨carrier, h.update rfl (hkeeps hpasses) (Or.inl ⟨?_, hrest⟩)⟩
        rw [decide_eq_false hcarrier]
        exact (hpasses w.shared).2.2
    · exact ⟨carrier, h.update rfl (hkeeps hpasses) (Or.inr ⟨(hpasses w.shared).2.2, hrest⟩)⟩
  | test t next =>
    obtain rfl := Option.some.inj hstep
    exact ⟨carrier, h.update rfl h.place (hstack.imp (And.imp_left (· _)) (And.imp_left (· _)))⟩
  | call q next =>
    obtain rfl := Option.some.inj hstep
    refine ⟨carrier, h.update rfl h.place (Or.inr ⟨hp.proc q ?_, ?_⟩)⟩
    · exact hstack.elim (·.1.1) (·.1.1)
    · exact hstack.imp (And.imp_left (·.2)) (And.imp_left (·.2))
  | callback c next =>
    obtain rfl := Option.some.inj hstep
    exact ⟨carrier, h.update rfl h.place hstack⟩

/-- Every step passes the baton on as the code says, so there is still one. -/
theorem step (h : β.Held callable w carrier) (hp : β.Passing p callable) {e : LockEvent P A}
    (hstep : p.step w e = some v) : ∃ carrier, β.Held callable v carrier := by
  cases e with
  | takeUp i q =>
    simp only [LockProgram.step] at hstep
    split at hstep
    · rename_i hframes
      obtain ⟨s, hs, rfl⟩ := Option.map_eq_some_iff.mp hstep
      have hnone : decide (carrier = some i) = false := by
        have hstack := h.threads i
        rwa [hframes] at hstack
      -- a procedure that is taken up picks the baton up only where it lies
      cases carrier with
      | none =>
        rcases hp.lies q _ s hs h.place with ⟨hlies, hcode⟩ | ⟨haway, hcode⟩
        · exact ⟨none, h.update rfl hlies (Or.inl ⟨hcode, rfl⟩)⟩
        · exact ⟨some i, h.pick rfl haway (Or.inl ⟨hcode, rfl⟩)⟩
      | some j =>
        obtain ⟨haway, hcode⟩ := hp.away q _ s hs h.place
        refine ⟨some j, h.update rfl haway (Or.inl ⟨?_, rfl⟩)⟩
        rwa [hnone]
    · cases hstep
  | invoke i a =>
    simp only [LockProgram.step] at hstep
    have hstack := h.threads i
    split at hstep
    · rename_i hframes
      obtain rfl := Option.some.inj hstep
      rw [hframes] at hstack
      exact ⟨carrier, h.update rfl h.place (Or.inr ⟨hp.method a, hstack⟩)⟩
    · rename_i c rest hframes
      obtain rfl := Option.some.inj hstep
      rw [hframes] at hstack
      exact ⟨carrier, h.update rfl h.place (Or.inr ⟨hp.method a, hstack⟩)⟩
    · cases hstep
  | ret i =>
    simp only [LockProgram.step] at hstep
    have hstack := h.threads i
    split at hstep
    · rename_i c rest hframes
      obtain rfl := Option.some.inj hstep
      rw [hframes] at hstack
      exact ⟨carrier, h.update rfl h.place hstack⟩
    · cases hstep
  | advance i =>
    simp only [LockProgram.step] at hstep
    split at hstep
    · rename_i origin code rest hframes
      exact h.advance hp hframes hstep
    · cases hstep

end Held

/-- **The baton.** In every run the baton lies, or one thread carries it. -/
theorem Passing.held [DecidableEq M] (hp : β.Passing p callable) {s : S} (hs : β.lies s)
    {es : List (LockEvent P A)} (hw : run p.step { shared := s } es = some w) :
    ∃ carrier, β.Held callable w carrier :=
  run_induction (P := fun w => ∃ carrier, β.Held callable w carrier) ⟨none, held_start hs⟩
    (fun _ _ _ ⟨_, h⟩ hstep => h.step hp hstep) hw

end Baton

end Common
