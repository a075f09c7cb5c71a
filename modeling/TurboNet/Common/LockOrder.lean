import TurboNet.Common.LockRules

/-!
# Locks that are taken in order

Threads are deadlocked when each of them waits for a lock that one of them owns; a thread that comes
to a lock of its own is the case of one thread. In a program that takes its locks in an order this
does not happen: `Climbs` follows the code of one thread, and has it take a lock only above all that
it holds. `LockOrdered.not_deadlock` is for a program all of whose code climbs, and whose methods
climb from the locks that are held at a callback, if the callback may call them.
-/

namespace Common

variable {M S T C P A : Type*}

namespace World

/-- The lock that the thread is next to take. -/
def next? (w : World M S T C P A) (i : ℕ) : Option M :=
  match w.frames i with
  | .code _ (.lock m _) :: _ => some m
  | _ => none

/-- Each of these threads waits for a lock that one of them owns. -/
def Deadlocked (w : World M S T C P A) (threads : Set ℕ) : Prop :=
  threads.Nonempty ∧ ∀ i ∈ threads, ∃ m ∈ w.next? i, ∃ j ∈ threads, w.owner m = some j

/-- Some threads wait for each other. -/
def Deadlock (w : World M S T C P A) : Prop := ∃ threads, w.Deadlocked threads

/-- A thread that waits for its own lock never goes on. -/
theorem SelfLock.deadlock {w : World M S T C P A} (h : w.SelfLock) : w.Deadlock := by
  obtain ⟨i, hi⟩ := h
  refine ⟨{i}, Set.singleton_nonempty i, fun j hj => ?_⟩
  obtain rfl := Set.mem_singleton_iff.mp hj
  unfold SelfLockOf at hi
  split at hi
  · rename_i m _ _ hframes
    exact ⟨m, by simp [next?, hframes], j, hj, hi⟩
  · exact hi.elim

end World

/-! ## Code that climbs -/

/-- The code takes a lock only above those that it holds. It begins with `held` and ends with
`base`. -/
def Climbs (rank : M → ℕ) (atCallback : C → Set M) (base : Set M) :
    Set M → Code M S T C P → Prop
  | held, .done => held = base
  | held, .lock m next =>
    (∀ n ∈ held, rank n < rank m) ∧ Climbs rank atCallback base (insert m held) next
  | held, .unlock m next => m ∈ held ∧ Climbs rank atCallback base (held \ {m}) next
  | held, .act _ next => ∀ s, Climbs rank atCallback base held (next s)
  | held, .test _ next => ∀ b, Climbs rank atCallback base held (next b)
  | held, .call _ next => held = ∅ ∧ Climbs rank atCallback base held next
  | held, .callback c next => held = atCallback c ∧ Climbs rank atCallback base held next

/-- A lock is taken above all that are held. -/
def above (rank : M → ℕ) (held : Set M) : Code M S T C P → Prop
  | .lock m _ => ∀ n ∈ held, rank n < rank m
  | _ => True

section Climbs

variable {rank : M → ℕ} {atCallback : C → Set M} {base held : Set M} {next : Code M S T C P}

/-- A critical section: the lock is above all that are held, and given back at the end. -/
theorem Climbs.unlock_insert {m : M} (hm : m ∉ held) (h : Climbs rank atCallback base held next) :
    Climbs rank atCallback base (insert m held) (.unlock m next) := by
  refine ⟨Set.mem_insert m held, ?_⟩
  rwa [Set.insert_sdiff_self_of_notMem hm]

/-- A critical section that does one thing. -/
theorem Climbs.section {m : M} (f : S → S) (hm : ∀ n ∈ held, rank n < rank m)
    (h : Climbs rank atCallback base held next) :
    Climbs rank atCallback base held (.lock m <| .act f fun _ => .unlock m next) :=
  ⟨hm, fun _ => h.unlock_insert fun hmem => absurd (hm m hmem) (Nat.lt_irrefl _)⟩

/-- Code that climbs keeps this rule. -/
theorem Climbs.obeys {code : Code M S T C P}
    (h : Climbs rank atCallback base held code) :
    Obeys (above rank) atCallback base held code := by
  induction code generalizing held with
  | done => exact ⟨trivial, h⟩
  | lock m next ih => exact ⟨h.1, fun _ => ih h.2⟩
  | unlock m next ih => exact ⟨trivial, h.1, ih h.2⟩
  | act f next ih => exact ⟨trivial, fun s => ih s (h s)⟩
  | test t next ih => exact ⟨trivial, fun b => ih b (h b)⟩
  | call q next ih => exact ⟨trivial, h.1, ih h.2⟩
  | callback c next ih => exact ⟨trivial, h.1, ih h.2⟩

end Climbs

/-- Procedures and methods climb from no locks, and methods from the locks that are held at a
callback that may call them. -/
structure LockOrdered (p : LockProgram M S T C P A) (rank : M → ℕ) (atCallback : C → Set M)
    (Q : C → A → Prop) : Prop where
  proc : ∀ q, Climbs rank atCallback ∅ ∅ (p.proc q)
  method : ∀ a, Climbs rank atCallback ∅ ∅ (p.method a)
  callback : ∀ c a, Q c a → Climbs rank atCallback (atCallback c) (atCallback c) (p.method a)

/-! ## Runs -/

section Runs

variable {p : LockProgram M S T C P A} {rank : M → ℕ} {atCallback : C → Set M}
  {Q : C → A → Prop} {w v : World M S T C P A}

/-- To take the locks in order is a rule for single instructions. -/
theorem LockOrdered.obedient (hp : LockOrdered p rank atCallback Q) :
    Obedient p (above rank) atCallback Q where
  proc q := (hp.proc q).obeys
  method a := (hp.method a).obeys
  callback c a hcall := (hp.callback c a hcall).obeys

/-- A thread that waits for a lock is about to take it. -/
theorem code?_of_next {i : ℕ} {m : M} (hnext : w.next? i = some m) :
    ∃ next, w.code? i = some (.lock m next) := by
  rw [World.next?] at hnext
  split at hnext
  · rename_i next _ hframes
    obtain rfl := Option.some.inj hnext
    exact ⟨next, by rw [World.code?, hframes]⟩
  · cases hnext

/-- Along a chain of threads that wait the ranks go up, and they are bounded. -/
theorem not_deadlock_of_above
    (h : ∀ i code, w.code? i = some code → above rank (w.heldBy i) code) {bound : ℕ}
    (hbound : ∀ m, rank m ≤ bound) : ¬ w.Deadlock := by
  rintro ⟨threads, ⟨i, hi⟩, hwaits⟩
  obtain ⟨m, hm, -⟩ := hwaits i hi
  induction hn : bound - rank m using Nat.strongRecOn generalizing i m with
  | ind n ih =>
    obtain ⟨m', hm', j, hj, howner⟩ := hwaits i hi
    obtain rfl := Option.some.inj (Option.mem_def.mp hm ▸ hm')
    obtain ⟨m', hnext, -⟩ := hwaits j hj
    obtain ⟨next, hcode⟩ := code?_of_next hnext
    have hlt : rank m < rank m' := h j _ hcode m howner
    have hle := hbound m'
    exact ih (bound - rank m') (by omega) j hj m' hnext rfl

variable [DecidableEq M]

/-- **Order.** No threads wait for each other in a run of a program that takes its locks in order,
if the callbacks call what they may call. -/
theorem LockOrdered.not_deadlock (hp : LockOrdered p rank atCallback Q) {bound : ℕ}
    (hbound : ∀ m, rank m ≤ bound) {s : S} {es : List (LockEvent P A)}
    (hes : EveryStep p.step { shared := s } es (CallsOnly Q)) :
    EveryState p.step { shared := s } es fun w => ¬ w.Deadlock :=
  fun pre post w heq hw =>
    not_deadlock_of_above (hp.obedient.keeps hes pre post w heq hw) hbound

end Runs

end Common
