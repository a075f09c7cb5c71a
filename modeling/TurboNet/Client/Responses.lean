import TurboNet.Common.Timer
import Mathlib.Data.Int.Order.Basic
import Mathlib.Data.List.Nodup
import Mathlib.Logic.Function.Basic

/-!
# The client's response table

Reference: `turbonet_client.cpp`, `startResponseTimer`, `cancelResponseTimer`,
`checkAndFireResponseTimers`; `turbonet_client.h`, `ResponseEntry`.

`responseMap_` holds the outstanding sequences with their expiry, `responseQueue_` the expiries in
order, cleaned lazily by the sweep. The queue is a list sorted by expiry; the order among equal
expiries, which `std::priority_queue` leaves open, is a parameter (`place`). Time is counted in
ticks of the steady clock.

`responseMutex_` is released before the timer is set, in `startResponseTimer` as in
`checkAndFireResponseTimers`. What a call that has come that far has in hand is kept in `starting`
and in `sweeping`.
-/

namespace TurboNet

open Common

/-- `ResponseEntry`. -/
structure ResponseEntry where
  sequence : UInt32
  expiry : ℕ
deriving DecidableEq, Repr

/-- The order of `responseQueue_`: earlier expiry first. -/
def ResponseEntry.Before (a b : ResponseEntry) : Prop := a.expiry ≤ b.expiry

/-- Ticks in `std::chrono::milliseconds(ms)`, for a clock that counts nanoseconds. -/
def millis (ms : ℤ) : ℕ := ms.toNat * 1000000

/-- Ticks in `std::chrono::hours(24)`. -/
def hours24 : ℕ := 24 * 3600 * 1000000000

/-- `responseQueue_.push`. `place` of the entries with the same expiry stay before the new one. -/
def pushEntry (q : ResponseEntry) : ℕ → List ResponseEntry → List ResponseEntry
  | _, [] => [q]
  | place, x :: queue =>
    if x.expiry < q.expiry then x :: pushEntry q place queue
    else if x.expiry = q.expiry ∧ 0 < place then x :: pushEntry q (place - 1) queue
    else q :: x :: queue

/-- How far a sweep has got that has fired its timeouts and has not yet set the timer again. -/
inductive SweepPhase where
  /-- It has read this time from the clock. -/
  | fired (now : ℕ)
  /-- It has also looked at the queue, and is to set the timer to this. -/
  | scheduled (next : ℕ)
deriving DecidableEq, Repr

/-- What the timer is to be set to, if the sweep knows it already. -/
def SweepPhase.next? : SweepPhase → Option ℕ
  | .fired _ => none
  | .scheduled next => some next

structure Responses where
  responseQueue : List ResponseEntry := []
  responseMap : UInt32 → Option ℕ := fun _ => none
  responseSweepTimer : Timer Unit := {}
  /-- The calls of `startResponseTimer` that have entered these and have not yet set the timer. -/
  starting : List ResponseEntry := []
  sweeping : Option SweepPhase := none

namespace Responses

/-- The locked part of `startResponseTimer`. -/
def insert (r : Responses) (place : ℕ) (sequence : UInt32) (expiry : ℕ) : Responses :=
  { r with
    responseMap := Function.update r.responseMap sequence (some expiry)
    responseQueue := pushEntry ⟨sequence, expiry⟩ place r.responseQueue
    starting := r.starting ++ [⟨sequence, expiry⟩] }

/-- `responseSweepTimer_.expires_after` or `expires_at`, and `async_wait`. -/
def armSweep (r : Responses) (deadline : ℕ) : Responses :=
  { r with responseSweepTimer := r.responseSweepTimer.arm deadline () }

/-- The call of `startResponseTimer` that has entered `q` sets the timer and returns. -/
def armStarted (r : Responses) (q : ResponseEntry) (deadline : ℕ) : Responses :=
  { r.armSweep deadline with starting := r.starting.erase q }

/-- `cancelResponseTimer`. -/
def cancelResponseTimer (r : Responses) (sequence : UInt32) : Responses :=
  { r with responseMap := Function.update r.responseMap sequence none }

/-- The loop of `checkAndFireResponseTimers`: pop what has expired; what is still in the map is
erased from it and collected. -/
def sweepLoop (now : ℕ) : List ResponseEntry → (UInt32 → Option ℕ) →
    List ResponseEntry × (UInt32 → Option ℕ) × List UInt32
  | [], m => ([], m, [])
  | q :: queue, m =>
    if q.expiry ≤ now then
      match m q.sequence with
      | some _ =>
        let (queue', m', expired) := sweepLoop now queue (Function.update m q.sequence none)
        (queue', m', q.sequence :: expired)
      | none => sweepLoop now queue m
    else (q :: queue, m, [])

/-- The sequences that a sweep at `now` reports. -/
def expired (r : Responses) (now : ℕ) : List UInt32 :=
  (sweepLoop now r.responseQueue r.responseMap).2.2

/-- `checkAndFireResponseTimers` up to the calls of `onTimeout_`. -/
def sweep (r : Responses) (now : ℕ) : Responses :=
  { r with
    responseQueue := (sweepLoop now r.responseQueue r.responseMap).1
    responseMap := (sweepLoop now r.responseQueue r.responseMap).2.1
    sweeping := some (.fired now) }

/-- The second locked part of `checkAndFireResponseTimers`: the next sweep is to be at the earliest
expiry, or in a day. -/
def next (r : Responses) (now : ℕ) : ℕ :=
  match r.responseQueue with
  | q :: _ => q.expiry
  | [] => now + hours24

/-- The rest of `checkAndFireResponseTimers`. -/
def reschedule (r : Responses) (next : ℕ) : Responses := { r.armSweep next with sweeping := none }

/-! ## What a sweep does to a sorted queue -/

/-- `responseQueue_` is in order. -/
def Ordered (r : Responses) : Prop := r.responseQueue.Pairwise ResponseEntry.Before

/-- A push loses nothing and adds the new entry. -/
theorem pushEntry_perm (q : ResponseEntry) (place : ℕ) (queue : List ResponseEntry) :
    (pushEntry q place queue).Perm (q :: queue) := by
  induction queue generalizing place with
  | nil => exact .refl _
  | cons x queue ih =>
    rw [pushEntry]
    split
    · exact ((ih place).cons x).trans (.swap q x queue)
    · split
      · exact ((ih (place - 1)).cons x).trans (.swap q x queue)
      · exact .refl _

/-- A push keeps the order, wherever the new entry is put among equal ones. -/
theorem pushEntry_ordered (q : ResponseEntry) (place : ℕ) {queue : List ResponseEntry}
    (h : queue.Pairwise ResponseEntry.Before) :
    (pushEntry q place queue).Pairwise ResponseEntry.Before := by
  induction queue generalizing place with
  | nil => exact List.pairwise_singleton _ _
  | cons x queue ih =>
    obtain ⟨hfirst, hrest⟩ := List.pairwise_cons.mp h
    have hkeep (place : ℕ) (hq : x.expiry ≤ q.expiry) :
        (x :: pushEntry q place queue).Pairwise ResponseEntry.Before := by
      refine List.pairwise_cons.mpr ⟨fun y hy => ?_, ih place hrest⟩
      rcases List.mem_cons.mp ((pushEntry_perm q place queue).mem_iff.mp hy) with rfl | hy
      · exact hq
      · exact hfirst y hy
    rw [pushEntry]
    split
    · rename_i hlt
      exact hkeep place (Nat.le_of_lt hlt)
    · split
      · rename_i heq
        exact hkeep (place - 1) (Nat.le_of_eq heq.1)
      · -- everything from here on expires no earlier than the new entry
        rename_i hlt _
        have hle : q.expiry ≤ x.expiry := Nat.le_of_not_lt hlt
        refine List.pairwise_cons.mpr ⟨fun y hy => ?_, h⟩
        rcases List.mem_cons.mp hy with rfl | hy
        · exact hle
        · exact Nat.le_trans hle (hfirst y hy)

/-- The queue after a push. -/
theorem mem_insert {r : Responses} {place : ℕ} {sequence : UInt32} {expiry : ℕ}
    {q : ResponseEntry} :
    q ∈ (r.insert place sequence expiry).responseQueue ↔
      q = ⟨sequence, expiry⟩ ∨ q ∈ r.responseQueue :=
  (pushEntry_perm _ _ _).mem_iff.trans List.mem_cons

/-- A push keeps the queue in order. -/
theorem Ordered.insert {r : Responses} (h : r.Ordered) (place : ℕ) (sequence : UInt32)
    (expiry : ℕ) : (r.insert place sequence expiry).Ordered :=
  pushEntry_ordered _ _ h

/-- What a sweep sees as the next expiry is the earliest: only entries that come after it has looked
can be earlier. -/
theorem next_le {r : Responses} (h : r.Ordered) (now : ℕ) {q : ResponseEntry}
    (hq : q ∈ r.responseQueue) : r.next now ≤ q.expiry := by
  rw [Ordered] at h
  rw [next]
  cases hqueue : r.responseQueue with
  | nil => simp [hqueue] at hq
  | cons q₀ queue =>
    rw [hqueue] at h hq
    rcases List.mem_cons.mp hq with rfl | hmem
    · exact Nat.le_refl _
    · exact (List.pairwise_cons.mp h).1 q hmem

/-- The sweep pops exactly the front part of the queue that has expired. -/
theorem sweepLoop_queue (now : ℕ) (queue : List ResponseEntry) (m : UInt32 → Option ℕ) :
    (sweepLoop now queue m).1 = queue.dropWhile fun q => q.expiry ≤ now := by
  induction queue generalizing m with
  | nil => rfl
  | cons q queue ih =>
    rw [sweepLoop, List.dropWhile_cons]
    by_cases hq : q.expiry ≤ now
    · simp only [hq, decide_true, ↓reduceIte]
      cases m q.sequence with
      | none => exact ih m
      | some x => exact ih _
    · simp [hq]

/-- A sweep keeps the queue in order. -/
theorem Ordered.sweep {r : Responses} (h : r.Ordered) (now : ℕ) : (r.sweep now).Ordered := by
  rw [Ordered, Responses.sweep, sweepLoop_queue]
  exact h.sublist (List.dropWhile_sublist _)

/-- In a queue in order the front part that has expired is everything that has expired. -/
theorem span_expired {queue : List ResponseEntry} (h : queue.Pairwise ResponseEntry.Before)
    (now : ℕ) :
    (queue.takeWhile fun q => q.expiry ≤ now) = (queue.filter fun q => q.expiry ≤ now) ∧
      (queue.dropWhile fun q => q.expiry ≤ now) = (queue.filter fun q => now < q.expiry) := by
  induction queue with
  | nil => exact ⟨rfl, rfl⟩
  | cons q queue ih =>
    obtain ⟨hfirst, hrest⟩ := List.pairwise_cons.mp h
    obtain ⟨htake, hdrop⟩ := ih hrest
    by_cases hq : q.expiry ≤ now
    · have hlt : ¬ now < q.expiry := by omega
      simp [hq, hlt, htake, hdrop]
    · have hlater : ∀ x ∈ queue, now < x.expiry := fun x hx =>
        Nat.lt_of_lt_of_le (Nat.lt_of_not_le hq) (hfirst x hx)
      have hnone : (queue.filter fun q => q.expiry ≤ now) = [] :=
        List.filter_eq_nil_iff.mpr fun x hx => by
          have := hlater x hx
          simp; omega
      have hall : (queue.filter fun q => now < q.expiry) = queue :=
        List.filter_eq_self.mpr fun x hx => by simpa using hlater x hx
      have hlt : now < q.expiry := by omega
      simp only [hq, hlt, hnone, hall, decide_false, decide_true, Bool.false_eq_true, ↓reduceIte,
        not_false_eq_true, List.takeWhile_cons, List.filter_cons_of_neg, List.dropWhile_cons,
        List.filter_cons_of_pos, and_self]

/-- After a sweep of a queue in order only later expiries are left, and all of them. -/
theorem mem_sweep {r : Responses} (h : r.Ordered) (now : ℕ) {q : ResponseEntry} :
    q ∈ (r.sweep now).responseQueue ↔ q ∈ r.responseQueue ∧ now < q.expiry := by
  rw [Responses.sweep, sweepLoop_queue, (span_expired h now).2, List.mem_filter, decide_eq_true_eq]

/-- The sweep erases the sequences it pops. -/
theorem sweepLoop_map (now : ℕ) (queue : List ResponseEntry) (m : UInt32 → Option ℕ) (s : UInt32) :
    (sweepLoop now queue m).2.1 s =
      if s ∈ (queue.takeWhile fun q => q.expiry ≤ now).map ResponseEntry.sequence then none
      else m s := by
  induction queue generalizing m with
  | nil => rfl
  | cons q queue ih =>
    rw [sweepLoop, List.takeWhile_cons]
    by_cases hq : q.expiry ≤ now
    · simp only [hq, decide_true, ↓reduceIte, List.map_cons, List.mem_cons]
      cases hm : m q.sequence with
      | none =>
        simp only [ih]
        by_cases hs : s = q.sequence
        · subst hs
          simp [hm]
        · simp [hs]
      | some x =>
        simp only [ih]
        by_cases hs : s = q.sequence
        · simp [hs]
        · simp [hs, Function.update_of_ne]
    · simp [hq]

/-- The sweep reports the popped sequences that were in the map. -/
theorem mem_sweepLoop_expired (now : ℕ) (queue : List ResponseEntry) (m : UInt32 → Option ℕ)
    (s : UInt32) :
    s ∈ (sweepLoop now queue m).2.2 ↔
      s ∈ (queue.takeWhile fun q => q.expiry ≤ now).map ResponseEntry.sequence ∧ m s ≠ none := by
  induction queue generalizing m with
  | nil => simp [sweepLoop]
  | cons q queue ih =>
    rw [sweepLoop, List.takeWhile_cons]
    by_cases hq : q.expiry ≤ now
    · simp only [hq, decide_true, ↓reduceIte, List.map_cons, List.mem_cons]
      cases hm : m q.sequence with
      | none =>
        rw [ih]
        by_cases hs : s = q.sequence
        · subst hs
          simp [hm]
        · simp [hs]
      | some x =>
        rw [List.mem_cons, ih]
        by_cases hs : s = q.sequence
        · subst hs
          simp [hm]
        · simp [hs, Function.update_of_ne]
    · simp [hq]

/-- A sequence is out of the map after a sweep if an entry of it has expired. -/
theorem sweep_map {r : Responses} (h : r.Ordered) (now : ℕ) (s : UInt32) :
    (r.sweep now).responseMap s =
      if ∃ q ∈ r.responseQueue, q.expiry ≤ now ∧ q.sequence = s then none else r.responseMap s := by
  change (sweepLoop now r.responseQueue r.responseMap).2.1 s = _
  rw [sweepLoop_map, (span_expired h now).1]
  simp [and_assoc]

/-- The sweep reports what has expired and was in the map. -/
theorem mem_expired {r : Responses} (h : r.Ordered) (now : ℕ) {s : UInt32} :
    s ∈ r.expired now ↔
      (∃ q ∈ r.responseQueue, q.expiry ≤ now ∧ q.sequence = s) ∧ r.responseMap s ≠ none := by
  rw [Responses.expired, mem_sweepLoop_expired, (span_expired h now).1]
  simp [and_assoc]

/-! ## Map and queue together -/

/-- The queue is in order, has at most one entry for each sequence, and has the entry of every
sequence of the map. -/
structure Tabled (r : Responses) : Prop where
  ordered : r.Ordered
  distinct : (r.responseQueue.map ResponseEntry.sequence).Nodup
  queued : ∀ s x, r.responseMap s = some x → ⟨s, x⟩ ∈ r.responseQueue

/-- The timer does not matter. -/
theorem Tabled.of_eq {r r' : Responses} (h : r.Tabled) (hqueue : r'.responseQueue = r.responseQueue)
    (hmap : r'.responseMap = r.responseMap) : r'.Tabled := by
  refine ⟨?_, by rw [hqueue]; exact h.distinct, by rw [hqueue, hmap]; exact h.queued⟩
  rw [Ordered, hqueue]
  exact h.ordered

/-- The entry of a number in the map has the expiry of the map. -/
theorem Tabled.expiry_eq {r : Responses} (h : r.Tabled) {q : ResponseEntry} {x : ℕ}
    (hq : q ∈ r.responseQueue) (hx : r.responseMap q.sequence = some x) : q.expiry = x :=
  congrArg ResponseEntry.expiry (List.inj_on_of_nodup_map h.distinct hq (h.queued _ x hx) rfl)

/-- Of the sequences in the map a sweep reports exactly those whose own expiry has passed. -/
theorem Tabled.mem_expired_iff {r : Responses} (h : r.Tabled) (now : ℕ) {s : UInt32} {x : ℕ}
    (hx : r.responseMap s = some x) : s ∈ r.expired now ↔ x ≤ now := by
  rw [mem_expired h.ordered]
  constructor
  · rintro ⟨⟨q, hq, hnow, rfl⟩, -⟩
    rwa [← h.expiry_eq hq hx]
  · intro hnow
    exact ⟨⟨⟨s, x⟩, h.queued s x hx, hnow, rfl⟩, by simp [hx]⟩

/-- A sweep leaves the sequences in the map whose own expiry has not passed. -/
theorem Tabled.sweep_map_eq_some {r : Responses} (h : r.Tabled) (now : ℕ) {s : UInt32} {x : ℕ} :
    (r.sweep now).responseMap s = some x ↔ r.responseMap s = some x ∧ now < x := by
  rw [sweep_map h.ordered]
  constructor
  · intro hs
    split at hs
    · exact absurd hs (by simp)
    · rename_i hnone
      refine ⟨hs, Nat.lt_of_not_le fun hle => hnone ?_⟩
      exact ⟨⟨s, x⟩, h.queued s x hs, hle, rfl⟩
  · rintro ⟨hs, hlt⟩
    rw [if_neg, hs]
    rintro ⟨q, hq, hle, rfl⟩
    have := h.expiry_eq hq hs
    omega

/-- A new number gets its entry. -/
theorem Tabled.insert {r : Responses} (h : r.Tabled) {sequence : UInt32}
    (hfresh : sequence ∉ r.responseQueue.map ResponseEntry.sequence) (place expiry : ℕ) :
    (r.insert place sequence expiry).Tabled := by
  refine ⟨h.ordered.insert place sequence expiry, ?_, fun s x hs => mem_insert.mpr ?_⟩
  · have hperm : ((r.insert place sequence expiry).responseQueue.map ResponseEntry.sequence).Perm
        (sequence :: r.responseQueue.map ResponseEntry.sequence) :=
      (pushEntry_perm ⟨sequence, expiry⟩ place r.responseQueue).map _
    exact hperm.nodup_iff.mpr (List.nodup_cons.mpr ⟨hfresh, h.distinct⟩)
  · by_cases hseq : s = sequence
    · subst hseq
      obtain rfl : expiry = x := by simpa [Responses.insert] using hs
      exact .inl rfl
    · refine .inr (h.queued s x ?_)
      simpa [Responses.insert, Function.update_of_ne hseq] using hs

/-- A sweep takes a number out of both. -/
theorem Tabled.sweep {r : Responses} (h : r.Tabled) (now : ℕ) : (r.sweep now).Tabled := by
  refine ⟨h.ordered.sweep now, ?_, fun s x hs => ?_⟩
  · refine h.distinct.sublist (List.Sublist.map _ ?_)
    change (sweepLoop now r.responseQueue r.responseMap).1.Sublist _
    rw [sweepLoop_queue]
    exact List.dropWhile_sublist _
  · obtain ⟨hx, hlt⟩ := (h.sweep_map_eq_some now).mp hs
    exact (mem_sweep h.ordered now).mpr ⟨h.queued s x hx, hlt⟩

end Responses

end TurboNet
