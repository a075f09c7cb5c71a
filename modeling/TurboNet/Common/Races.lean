import TurboNet.Common.LockRules

/-!
# Data races

Two threads race for a variable when one of them is next to write it, and the other to read or
write it. An instruction does not touch a variable when it leaves it as it is and, whatever the
variable is, does the same otherwise and goes on in the same way. A variable that is only touched by
threads that hold a certain lock is not raced for (`not_race_of_guarded`, `not_race_of_keeps`).
-/

namespace Common

variable {M S T C P A V : Type*}

/-- A part of the state: what it is, and the state without it. -/
structure Variable (S V : Type*) where
  get : S → V
  forget : S → S

/-- In this state, the instruction that is next does not touch the variable. -/
def Code.Spares (eval : T → S → Bool) (x : Variable S V) (s : S) : Code M S T C P → Prop
  | .act f next => ∀ s', x.forget s' = x.forget s →
    x.forget (f s') = x.forget (f s) ∧ x.get (f s') = x.get s' ∧ next s' = next s
  | .test t _ => ∀ s', x.forget s' = x.forget s → eval t s' = eval t s
  | _ => True

/-- In this state, the instruction that is next writes the variable: it changes it, unless it has
the value already. -/
def Code.Writes (x : Variable S V) (s : S) : Code M S T C P → Prop
  | .act f _ => ∃ s', x.forget s' = x.forget s ∧ x.get (f s') ≠ x.get s'
  | _ => False

/-- A write touches its variable. -/
theorem Code.Writes.not_spares {eval : T → S → Bool} {x : Variable S V} {s : S}
    {code : Code M S T C P} (h : code.Writes x s) : ¬ code.Spares eval x s := by
  cases code with
  | act f next =>
    obtain ⟨s', hs', hne⟩ := h
    exact fun hspares => hne (hspares s' hs').2.1
  | _ => exact h.elim

/-- A test of the other parts of the state. -/
theorem Code.spares_test {eval : T → S → Bool} {x : Variable S V} {t : T}
    {next : Bool → Code M S T C P} (heval : ∀ s, eval t s = eval t (x.forget s)) (s : S) :
    (Code.test t next).Spares eval x s := by
  intro s' hs'
  rw [heval, hs', ← heval]

/-- Something that is done to the other parts of the state, whatever this one is. -/
structure Variable.Apart (x : Variable S V) (f : S → S) : Prop where
  forget : ∀ s, x.forget (f s) = f (x.forget s)
  get : ∀ s, x.get (f s) = x.get s

namespace Variable.Apart

variable {x : Variable S V} {f g : S → S}

/-- One such thing after another is such a thing. -/
theorem comp (hg : x.Apart g) (hf : x.Apart f) : x.Apart fun s => g (f s) where
  forget s := by rw [hg.forget, hf.forget]
  get s := by rw [hg.get, hf.get]

/-- So is one for each item of a list. -/
theorem foldl {B : Type*} {f : S → B → S} (h : ∀ b, x.Apart (f · b)) (l : List B) :
    x.Apart fun s => l.foldl f s where
  forget s := (List.foldl_hom x.forget fun s b => ((h b).forget s).symm).symm
  get s := by
    induction l generalizing s with
    | nil => rfl
    | cons b l ih => rw [List.foldl_cons, ih, (h b).get]

/-- So is a choice that does not look at the variable. -/
theorem ite {c : S → Prop} [DecidablePred c] (hc : ∀ s, c (x.forget s) ↔ c s) (hf : x.Apart f)
    (hg : x.Apart g) : x.Apart fun s => if c s then f s else g s where
  forget s := by
    by_cases h : c s
    · rw [if_pos h, if_pos ((hc s).mpr h), hf.forget]
    · rw [if_neg h, if_neg (mt (hc s).mp h), hg.forget]
  get s := by
    split
    · exact hf.get s
    · exact hg.get s

/-- The instruction goes on without looking at the variable. -/
theorem spares {eval : T → S → Bool} {next : S → Code M S T C P} (h : x.Apart f)
    (hnext : ∀ s, next s = next (x.forget s)) (s : S) : (Code.act f next).Spares eval x s := by
  intro s' hs'
  refine ⟨?_, h.get s', ?_⟩
  · rw [h.forget, hs', h.forget]
  · rw [hnext, hs', ← hnext]

end Variable.Apart

/-- The thread holds the lock of the variable, or leaves the variable alone. -/
def Guarded (eval : T → S → Bool) (x : Variable S V) (m : M) (held : Set M)
    (code : Code M S T C P) : Prop :=
  m ∈ held ∨ ∀ s, code.Spares eval x s

namespace World

/-- Two threads race for the variable. -/
def Race (eval : T → S → Bool) (x : Variable S V) (w : World M S T C P A) : Prop :=
  ∃ i j, i ≠ j ∧ (∃ code, w.code? i = some code ∧ code.Writes x w.shared) ∧
    ∃ code, w.code? j = some code ∧ ¬ code.Spares eval x w.shared

variable {eval : T → S → Bool} {x : Variable S V} {w : World M S T C P A} {m : M}

/-- A variable that only one thread touches is not raced for. -/
theorem not_race_of_only {k : ℕ}
    (h : ∀ i code, w.code? i = some code → ¬ code.Spares eval x w.shared → i = k) :
    ¬ w.Race eval x := by
  rintro ⟨i, j, hne, ⟨c, hc, hwrites⟩, d, hd, htouches⟩
  exact hne ((h i c hc hwrites.not_spares).trans (h j d hd htouches).symm)

/-- Where those who touch the variable hold its lock, there is no race. -/
theorem not_race_of_guarded
    (h : ∀ i code, w.code? i = some code → ¬ code.Spares eval x w.shared → m ∈ w.heldBy i) :
    ¬ w.Race eval x := by
  rintro ⟨i, j, hne, ⟨c, hc, hwrites⟩, d, hd, htouches⟩
  have hi : w.owner m = some i := h i c hc hwrites.not_spares
  have hj : w.owner m = some j := h j d hd htouches
  exact hne (Option.some.inj (hi.symm.trans hj))

/-- Two threads that need the lock of a variable do not both have it. -/
theorem not_race_of_keeps
    (h : ∀ i code, w.code? i = some code → Guarded eval x m (w.heldBy i) code) :
    ¬ w.Race eval x :=
  not_race_of_guarded fun i code hcode htouches =>
    (h i code hcode).resolve_right fun hspares => htouches (hspares w.shared)

end World

end Common
