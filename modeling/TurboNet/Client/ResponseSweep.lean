import TurboNet.Client.ResponseTimeouts

/-!
# The response timers on their own

Reference: `turbonet_client.cpp`, `startResponseTimer`, `cancelResponseTimer`,
`checkAndFireResponseTimers`; `turbonet_client.h`, `responseQueue_`, `responseMap_`.

The three functions as a machine, called in any order and at any time. A sweep is three steps, as in
`Client.step`: it calls `onTimeout_`, looks at the queue again and sets the timer, and other calls
may come between. `startResponseTimer` is one, since none of the functions reads the timer.
`cancelResponseTimer` erases a sequence from `responseMap_` only, so `responseQueue_`
may hold entries of sequences that are gone; `Tabled` says how the two structures stay coupled, and
`response_sweep_exact` what that makes of a sweep.
-/

namespace TurboNet

open Common

namespace Client

/-- A call of one of the three functions, or time passes. -/
inductive TimerEvent where
  | startResponseTimer (sequence : UInt32) (gap : ℕ)
  | cancelResponseTimer (sequence : UInt32)
  /-- `checkAndFireResponseTimers(ec)` up to the calls of `onTimeout_`. -/
  | checkAndFireResponseTimers (ec : Bool)
  /-- It looks at the queue for the next expiry. -/
  | sweepNext
  /-- The rest of `checkAndFireResponseTimers`. -/
  | sweepRearm
  | tick (d : ℕ)
deriving DecidableEq, Repr

/-- The sequence the call starts. -/
def TimerEvent.started : TimerEvent → Option UInt32
  | .startResponseTimer sequence _ => some sequence
  | _ => none

def timerStep (cfg : ClientConfig) (c : Client) : TimerEvent → Option Client
  | .startResponseTimer sequence gap => some (c.startResponseTimer cfg sequence gap)
  | .cancelResponseTimer sequence =>
    some { c with responses := c.responses.cancelResponseTimer sequence }
  | .checkAndFireResponseTimers ec =>
    match c.responses.sweeping with
    | some _ => none
    | none => some (if ec then c else c.sweepFire cfg)
  | .sweepNext => match c.responses.sweeping with
    | some (.fired now) => some (c.sweepNext now)
    | _ => none
  | .sweepRearm => match c.responses.sweeping with
    | some (.scheduled next) => some (c.sweepRearm next)
    | _ => none
  | .tick d => some { c with now := c.now + d }

/-- The sequences with which the step calls `onTimeout_`. -/
def reported (c : Client) : TimerEvent → List UInt32
  | .checkAndFireResponseTimers false => c.responses.expired c.now
  | _ => []

/-- Only a sweep reports timeouts. -/
theorem reported_of_ne {c : Client} {e : TimerEvent} (he : e ≠ .checkAndFireResponseTimers false) :
    c.reported e = [] := by
  cases e with
  | checkAndFireResponseTimers ec =>
    cases ec with
    | true => rfl
    | false => exact absurd rfl he
  | _ => rfl

/-- After the calls `es`, which have led to `u`: `s` was started and is to expire at `x`, it has
not been cancelled since then, and it has not fired. -/
def Outstanding (cfg : ClientConfig) (es : List TimerEvent) (u : Client) (s : UInt32) (x : ℕ) :
    Prop :=
  (∃ pre gap post c, es = pre ++ .startResponseTimer s gap :: post ∧
    run (timerStep cfg) {} pre = some c ∧ ¬ cfg.responseTimeoutMs ≤ 0 ∧
    c.now + millis cfg.responseTimeoutMs = x ∧ .cancelResponseTimer s ∉ post) ∧ s ∉ u.timeouts

/-! ## What a step does -/

/-- What a call can do to queue, map and history. -/
inductive TimerActs (cfg : ClientConfig) (c : Client) : TimerEvent → Client → Prop where
  | start (s : UInt32) (gap place : ℕ) (c' : Client) (hon : ¬ cfg.responseTimeoutMs ≤ 0)
    (hqueue : c'.responses.responseQueue =
      (c.responses.insert place s (c.now + millis cfg.responseTimeoutMs)).responseQueue)
    (hmap : c'.responses.responseMap =
      (c.responses.insert place s (c.now + millis cfg.responseTimeoutMs)).responseMap)
    (htimeouts : c'.timeouts = c.timeouts) : TimerActs cfg c (.startResponseTimer s gap) c'
  | cancel (s : UInt32) :
    TimerActs cfg c (.cancelResponseTimer s)
      { c with responses := c.responses.cancelResponseTimer s }
  | sweep (c' : Client) (hidle : c.responses.sweeping = none)
    (hresponses : c'.responses = c.responses.sweep c.now)
    (htimeouts : cfg.onTimeout = true → c'.timeouts = c.timeouts ++ c.responses.expired c.now)
    (hsubset : ∀ s ∈ c'.timeouts, s ∈ c.timeouts ∨ s ∈ c.responses.expired c.now) :
    TimerActs cfg c (.checkAndFireResponseTimers false) c'
  | same (e : TimerEvent) (c' : Client) (hsweep : e ≠ .checkAndFireResponseTimers false)
    (hcancel : ∀ s, e ≠ .cancelResponseTimer s)
    (hoff : ∀ s gap, e = .startResponseTimer s gap → cfg.responseTimeoutMs ≤ 0)
    (hqueue : c'.responses.responseQueue = c.responses.responseQueue)
    (hmap : c'.responses.responseMap = c.responses.responseMap)
    (htimeouts : c'.timeouts = c.timeouts) : TimerActs cfg c e c'

/-- A sweep reports what has expired. -/
theorem sweepFire_timeouts (cfg : ClientConfig) (c : Client) :
    (c.sweepFire cfg).timeouts =
      c.timeouts ++ if cfg.onTimeout then c.responses.expired c.now else [] := by
  rw [sweepFire_eq]
  cases hset : cfg.onTimeout with
  | true => exact timeouts_report _ _
  | false => simp [timeouts]

/-- What a call does is one of the listed acts. -/
theorem timerActs_of_step {cfg : ClientConfig} {c c' : Client} {e : TimerEvent}
    (h : timerStep cfg c e = some c') : TimerActs cfg c e c' := by
  cases e with
  | startResponseTimer s gap =>
    obtain rfl := Option.some.inj h
    rw [startResponseTimer, enterResponse]
    split
    · rename_i hoff
      exact .same _ _ (by simp) (by simp) (fun _ _ _ => hoff) rfl rfl rfl
    · rename_i hon
      exact .start s gap _ _ hon rfl rfl rfl
  | cancelResponseTimer s =>
    obtain rfl := Option.some.inj h
    exact .cancel s
  | checkAndFireResponseTimers ec =>
    rw [timerStep] at h
    split at h
    · exact absurd h (by simp)
    · rename_i hidle
      obtain rfl := Option.some.inj h
      -- only a sweep whose wait has not been aborted looks at the queue
      cases ec with
      | true => exact .same _ _ (by simp) (by simp) (by simp) rfl rfl rfl
      | false =>
        simp only [Bool.false_eq_true, ↓reduceIte]
        refine .sweep _ hidle ?_ ?_ ?_
        · rw [sweepFire_eq]
        · intro hset
          rw [sweepFire_timeouts, if_pos hset]
        · intro s hs
          rw [sweepFire_timeouts, List.mem_append] at hs
          refine hs.imp_right fun hs => ?_
          split at hs
          · exact hs
          · simp at hs
  | sweepNext | sweepRearm =>
    simp only [timerStep] at h
    split at h
    · obtain rfl := Option.some.inj h
      exact .same _ _ (by simp) (by simp) (by simp) rfl rfl rfl
    · exact absurd h (by simp)
  | tick d =>
    obtain rfl := Option.some.inj h
    exact .same _ _ (by simp) (by simp) (by simp) rfl rfl rfl

/-- A step appends what it reports. -/
theorem timerStep_timeouts {cfg : ClientConfig} (hset : cfg.onTimeout = true) {c c' : Client}
    {e : TimerEvent} (h : timerStep cfg c e = some c') :
    c'.timeouts = c.timeouts ++ c.reported e := by
  cases timerActs_of_step h with
  | start s gap place c' hon hqueue hmap htimeouts => exact htimeouts.trans (List.append_nil _).symm
  | cancel s => exact (List.append_nil _).symm
  | sweep c' hidle hresponses htimeouts hsubset => exact htimeouts hset
  | same e c' hsweep hcancel hoff hqueue hmap htimeouts =>
    rw [htimeouts, reported_of_ne hsweep, List.append_nil]

end Client

namespace Responses

/-- A sweep reports, in the order of the queue, the entries that have expired and whose sequence is
still in the map. -/
theorem Tabled.expired_eq {r : Responses} (h : r.Tabled) (now : ℕ) :
    r.expired now = (r.responseQueue.filter fun q =>
      q.expiry ≤ now && (r.responseMap q.sequence).isSome).map ResponseEntry.sequence := by
  -- the loop erases a sequence it has seen; that does not matter to the others
  have hloop (queue : List ResponseEntry) (m : UInt32 → Option ℕ)
      (hordered : queue.Pairwise ResponseEntry.Before)
      (hdistinct : (queue.map ResponseEntry.sequence).Nodup) :
      (sweepLoop now queue m).2.2 = (queue.filter fun q =>
        q.expiry ≤ now && (m q.sequence).isSome).map ResponseEntry.sequence := by
    induction queue generalizing m with
    | nil => rfl
    | cons q queue ih =>
      obtain ⟨hfirst, hordered⟩ := List.pairwise_cons.mp hordered
      obtain ⟨hnew, hdistinct⟩ := List.nodup_cons.mp hdistinct
      rw [sweepLoop]
      by_cases hq : q.expiry ≤ now
      · rw [if_pos hq]
        cases hm : m q.sequence with
        | none =>
          rw [List.filter_cons_of_neg (by simp [hm])]
          exact ih m hordered hdistinct
        | some x =>
          rw [List.filter_cons_of_pos (by simp [hq, hm]), List.map_cons]
          refine congrArg (q.sequence :: ·) ((ih _ hordered hdistinct).trans ?_)
          refine congrArg (List.map _) (List.filter_congr fun q' hq' => ?_)
          have hne : q'.sequence ≠ q.sequence := by
            intro heq
            exact hnew (heq ▸ List.mem_map_of_mem hq')
          rw [Function.update_of_ne hne]
      · rw [if_neg hq, List.filter_eq_nil_iff.mpr, List.map_nil]
        intro q' hq'
        rcases List.mem_cons.mp hq' with rfl | hq'
        · simp [hq]
        · have hle : q.expiry ≤ q'.expiry := hfirst q' hq'
          have hlate : ¬ q'.expiry ≤ now := by omega
          simp [hlate]
  exact hloop _ _ h.ordered h.distinct

/-- The sequences a sweep reports are different ones. -/
theorem Tabled.expired_nodup {r : Responses} (h : r.Tabled) (now : ℕ) : (r.expired now).Nodup := by
  rw [h.expired_eq]
  exact h.distinct.sublist (List.filter_sublist.map _)

/-- A sequence of the map has exactly one entry in the queue. -/
theorem Tabled.filter_eq_singleton {r : Responses} (h : r.Tabled) {s : UInt32} {x : ℕ}
    (hx : r.responseMap s = some x) :
    (r.responseQueue.filter fun q => q.sequence = s) = [⟨s, x⟩] := by
  have hqueued := h.queued s x hx
  have hsub : ∀ q ∈ r.responseQueue.filter (fun q => q.sequence = s), q = ⟨s, x⟩ := by
    intro q hq
    obtain ⟨hmem, hseq⟩ := List.mem_filter.mp hq
    exact List.inj_on_of_nodup_map h.distinct hmem hqueued (by simpa using hseq)
  have hnodup : (r.responseQueue.filter fun q => q.sequence = s).Nodup :=
    (List.Nodup.of_map _ h.distinct).filter _
  have hmem : ⟨s, x⟩ ∈ r.responseQueue.filter fun q => q.sequence = s :=
    List.mem_filter.mpr ⟨hqueued, by simp⟩
  have hreplicate := List.eq_replicate_of_mem hsub
  rw [hreplicate] at hnodup hmem
  have hle := List.nodup_replicate.mp hnodup
  have hpos := List.length_pos_of_mem hmem
  rw [List.length_replicate] at hpos
  rw [hreplicate, show (r.responseQueue.filter fun q => q.sequence = s).length = 1 by omega,
    List.replicate_one]

/-- `cancelResponseTimer` leaves a stale entry in the queue at most. -/
theorem Tabled.cancel {r : Responses} (h : r.Tabled) (s : UInt32) :
    (r.cancelResponseTimer s).Tabled := by
  refine ⟨h.ordered, h.distinct, fun s' x hx => h.queued s' x ?_⟩
  by_cases hs : s' = s
  · subst hs
    simp [cancelResponseTimer] at hx
  · exact (Function.update_of_ne hs _ _).symm.trans hx

end Responses

namespace Client

/-! ## Map and queue along a run -/

/-- The sequence the call starts has neither an entry in the queue nor fired before. -/
def StartsFresh (c : Client) (e : TimerEvent) : Prop :=
  ∀ s, e.started = some s →
    s ∉ c.responses.responseQueue.map ResponseEntry.sequence ∧ s ∉ c.timeouts

/-- What is in the queue or has fired was started. -/
theorem started_of_run {cfg : ClientConfig} {c : Client} {es : List TimerEvent}
    (h : run (timerStep cfg) {} es = some c) :
    c.responses.Ordered ∧
      (∀ q ∈ c.responses.responseQueue, q.sequence ∈ es.filterMap TimerEvent.started) ∧
      ∀ s ∈ c.timeouts, s ∈ es.filterMap TimerEvent.started := by
  induction es using List.reverseRecOn generalizing c with
  | nil =>
    obtain rfl := Option.some.inj h
    exact ⟨List.Pairwise.nil, by simp, by simp [timeouts]⟩
  | append_singleton es e ih =>
    obtain ⟨d, hd, hlast⟩ := run_append_eq_some.mp h
    rw [run_singleton] at hlast
    obtain ⟨hordered, hqueue, htimeouts⟩ := ih hd
    -- induction on the last call: what has been started before it stays so
    have hold {s : UInt32} (hs : s ∈ es.filterMap TimerEvent.started) :
        s ∈ (es ++ [e]).filterMap TimerEvent.started := by
      rw [List.filterMap_append]
      exact List.mem_append_left _ hs
    cases timerActs_of_step hlast with
    | start s gap place c' hon hqueue' hmap' htimeouts' =>
      refine ⟨?_, fun q hq => ?_, ?_⟩
      · rw [Responses.Ordered, hqueue']
        exact hordered.insert place s _
      · rw [hqueue'] at hq
        rcases Responses.mem_insert.mp hq with rfl | hq
        · simp [TimerEvent.started]
        · exact hold (hqueue q hq)
      · rw [htimeouts']
        exact fun s hs => hold (htimeouts s hs)
    | cancel s =>
      exact ⟨hordered, fun q hq => hold (hqueue q hq), fun s hs => hold (htimeouts s hs)⟩
    | sweep c' hidle hresponses htimeouts' hsubset =>
      refine ⟨?_, fun q hq => ?_, fun s hs => ?_⟩
      · rw [hresponses]
        exact hordered.sweep d.now
      · rw [hresponses] at hq
        exact hold (hqueue q ((Responses.mem_sweep hordered d.now).mp hq).1)
      · rcases hsubset s hs with hs | hs
        · exact hold (htimeouts s hs)
        · obtain ⟨⟨q, hq, -, rfl⟩, -⟩ := (Responses.mem_expired hordered d.now).mp hs
          exact hold (hqueue q hq)
    | same e c' hsweep hcancel hoff hqueue' hmap' htimeouts' =>
      refine ⟨?_, ?_, ?_⟩
      · rw [Responses.Ordered, hqueue']
        exact hordered
      · rw [hqueue']
        exact fun q hq => hold (hqueue q hq)
      · rw [htimeouts']
        exact fun s hs => hold (htimeouts s hs)

/-- Pairwise distinct sequences are fresh when they are started. -/
theorem startsFresh_of_run {cfg : ClientConfig} {es : List TimerEvent}
    (hdistinct : (es.filterMap TimerEvent.started).Nodup) :
    EveryStep (timerStep cfg) {} es StartsFresh := by
  rintro pre e post c rfl hpre s hs
  obtain ⟨-, hqueue, htimeouts⟩ := started_of_run hpre
  have hnew : s ∉ pre.filterMap TimerEvent.started := by
    rw [List.filterMap_append, List.filterMap_cons_some hs] at hdistinct
    exact fun hmem => (List.nodup_append.mp hdistinct).2.2 s hmem s List.mem_cons_self rfl
  refine ⟨fun hmem => ?_, fun hmem => hnew (htimeouts s hmem)⟩
  obtain ⟨q, hq, rfl⟩ := List.mem_map.mp hmem
  exact hnew (hqueue q hq)

/-- Map and queue are coupled, and no sequence that has fired is in the map. -/
structure Coupled (c : Client) : Prop where
  tabled : c.responses.Tabled
  fired : ∀ s ∈ c.timeouts, c.responses.responseMap s = none
  once : c.timeouts.Nodup

/-- Nothing has been started at first. -/
theorem Coupled.init : Coupled {} where
  tabled := Tracked.init.tabled
  fired := by simp [timeouts]
  once := by simp [timeouts]

/-- Every call keeps map and queue coupled, if it starts no number for a second time. -/
theorem Coupled.step {cfg : ClientConfig} (hset : cfg.onTimeout = true) {c c' : Client}
    {e : TimerEvent} (h : Coupled c) (hfresh : StartsFresh c e)
    (hstep : timerStep cfg c e = some c') : Coupled c' := by
  cases timerActs_of_step hstep with
  | start s gap place c' hon hqueue hmap htimeouts =>
    obtain ⟨hnew, hunfired⟩ := hfresh s rfl
    refine ⟨(h.tabled.insert hnew place _).of_eq hqueue hmap, fun s' hs' => ?_, htimeouts ▸ h.once⟩
    rw [htimeouts] at hs'
    have hne : s' ≠ s := by
      rintro rfl
      exact hunfired hs'
    rw [hmap]
    exact (Function.update_of_ne hne _ _).trans (h.fired s' hs')
  | cancel s =>
    refine ⟨h.tabled.cancel s, fun s' hs' => ?_, h.once⟩
    by_cases hs : s' = s
    · subst hs
      exact Function.update_self ..
    · exact (Function.update_of_ne hs _ _).trans (h.fired s' hs')
  | sweep c' hidle hresponses htimeouts hsubset =>
    -- what expires now is in the map, so it has not fired before
    have hexpired {s : UInt32} (hs : s ∈ c.responses.expired c.now) :
        c.responses.responseMap s ≠ none := ((Responses.mem_expired h.tabled.ordered c.now).mp hs).2
    refine ⟨hresponses ▸ h.tabled.sweep c.now, fun s hs => ?_, ?_⟩
    · rw [hresponses]
      by_contra hne
      obtain ⟨x, hx⟩ := Option.ne_none_iff_exists'.mp hne
      obtain ⟨hbefore, hlt⟩ := (h.tabled.sweep_map_eq_some c.now).mp hx
      rcases hsubset s hs with hs | hs
      · exact absurd ((h.fired s hs).symm.trans hbefore) (by simp)
      · have := (h.tabled.mem_expired_iff c.now hbefore).mp hs
        omega
    · rw [htimeouts hset]
      refine List.nodup_append.mpr ⟨h.once, h.tabled.expired_nodup c.now, ?_⟩
      rintro s hs _ hs' rfl
      exact hexpired hs' (h.fired s hs)
  | same e c' hsweep hcancel hoff hqueue hmap htimeouts =>
    refine ⟨h.tabled.of_eq hqueue hmap, ?_, htimeouts ▸ h.once⟩
    rw [htimeouts, hmap]
    exact h.fired

/-- When a call leaves a sequence in the map: it starts it, or it was there and the call neither
cancels nor reports it. -/
theorem responseMap_timerStep {cfg : ClientConfig} {c c' : Client} {e : TimerEvent} (h : Coupled c)
    (hfresh : StartsFresh c e) (hstep : timerStep cfg c e = some c') (s : UInt32) (x : ℕ) :
    c'.responses.responseMap s = some x ↔
      (e.started = some s ∧ ¬ cfg.responseTimeoutMs ≤ 0 ∧
        c.now + millis cfg.responseTimeoutMs = x) ∨
      c.responses.responseMap s = some x ∧
        ¬ (e = .cancelResponseTimer s ∨ s ∈ c.reported e) := by
  cases timerActs_of_step hstep with
  | start s' gap place c' hon hqueue hmap htimeouts =>
    rw [hmap]
    by_cases hs : s = s'
    · subst hs
      -- a fresh sequence is not in the map
      have hnone (y : ℕ) : c.responses.responseMap s ≠ some y := fun hy =>
        (hfresh s rfl).1 (List.mem_map.mpr ⟨_, h.tabled.queued s y hy, rfl⟩)
      simp [Responses.insert, TimerEvent.started, hon, hnone]
    · have hne : s' ≠ s := fun heq => hs heq.symm
      simp [Responses.insert, TimerEvent.started, reported, Function.update_of_ne hs, hne]
  | cancel s' =>
    by_cases hs : s = s'
    · subst hs
      simp [Responses.cancelResponseTimer, TimerEvent.started]
    · have hne : s' ≠ s := fun heq => hs heq.symm
      simp [Responses.cancelResponseTimer, TimerEvent.started, reported, Function.update_of_ne hs,
        hne]
  | sweep c' hidle hresponses htimeouts hsubset =>
    rw [hresponses, h.tabled.sweep_map_eq_some c.now]
    simp only [TimerEvent.started, reported, reduceCtorEq, false_and, false_or]
    refine and_congr_right fun hx => ?_
    rw [h.tabled.mem_expired_iff c.now hx, Nat.not_le]
  | same e c' hsweep hcancel hoff hqueue hmap htimeouts =>
    have hstart : ¬ (e.started = some s ∧ ¬ cfg.responseTimeoutMs ≤ 0) := by
      rintro ⟨hs, hon⟩
      cases e with
      | startResponseTimer s' gap => exact hon (hoff s' gap rfl)
      | _ => simp [TimerEvent.started] at hs
    rw [hmap, reported_of_ne hsweep, ← and_assoc, eq_false hstart, false_and, false_or]
    simp [hcancel s]

/-- Map and queue are coupled in every state, if the numbers that are started are all different. -/
theorem coupled_everyState {cfg : ClientConfig} (hset : cfg.onTimeout = true)
    {es : List TimerEvent} (hdistinct : (es.filterMap TimerEvent.started).Nodup) :
    EveryState (timerStep cfg) {} es Coupled :=
  (startsFresh_of_run hdistinct).everyState Coupled.init fun _ _ _ hfresh hc hstep =>
    hc.step hset hfresh hstep

/-- What has fired stays in the history. -/
theorem timeouts_subset_of_run {cfg : ClientConfig} (hset : cfg.onTimeout = true) {c u : Client}
    {es : List TimerEvent} (h : run (timerStep cfg) c es = some u) {s : UInt32}
    (hs : s ∈ c.timeouts) : s ∈ u.timeouts := by
  refine run_induction (P := fun t => s ∈ t.timeouts) hs (fun t e t' ht hstep => ?_) h
  rw [timerStep_timeouts hset hstep]
  exact List.mem_append_left _ ht

/-- The map holds exactly the outstanding sequences. -/
theorem responseMap_iff_outstanding {cfg : ClientConfig} (hset : cfg.onTimeout = true)
    {es : List TimerEvent} {u : Client} (hrun : run (timerStep cfg) {} es = some u)
    (hdistinct : (es.filterMap TimerEvent.started).Nodup) (s : UInt32) (x : ℕ) :
    u.responses.responseMap s = some x ↔ Outstanding cfg es u s x := by
  have hcoupled := coupled_everyState hset hdistinct
  -- the entry of `s` is a latch: a start sets it, a cancellation or a sweep resets it
  have hmap := run_latch (Q := fun c : Client => c.responses.responseMap s = some x)
    (C := fun c e => Coupled c ∧ StartsFresh c e) (by simp)
    (fun t e t' hC ht => responseMap_timerStep hC.1 hC.2 ht s x)
    (fun pre e post t heq ht => ⟨hcoupled pre (e :: post) t heq ht,
      startsFresh_of_run hdistinct pre e post t heq ht⟩) hrun
  constructor
  · intro hx
    refine ⟨?_, fun hfired => ?_⟩
    · obtain ⟨pre, e, post, t, t', rfl, ht, ⟨hs, hon, hexpiry⟩, hstep, hpost⟩ := hmap.mp hx
      cases e with
      | startResponseTimer s' gap =>
        obtain rfl := Option.some.inj hs
        refine ⟨pre, gap, post, t, rfl, ht, hon, hexpiry, fun hmem => ?_⟩
        have hrest : run (timerStep cfg) t' post = some u := by
          rw [run_append, ht, Option.bind_some, run_cons, hstep] at hrun
          exact hrun
        have hcancel : EveryStep (timerStep cfg) t' post fun _ e => e ≠ .cancelResponseTimer s' :=
          fun pre' e' post' d heq hd he => hpost pre' e' post' d heq hd (.inl he)
        exact (everyStep_iff_forall_mem hrest).mp hcancel _ hmem rfl
      | _ => simp [TimerEvent.started] at hs
    · have := (hcoupled.last hrun).fired s hfired
      simp [hx] at this
  · rintro ⟨⟨pre, gap, post, c, rfl, hc, hon, hexpiry, hcancel⟩, hfired⟩
    obtain ⟨c₁, hc₁, hrest⟩ := run_append_eq_some.mp hrun
    obtain rfl := Option.some.inj (hc.symm.trans hc₁)
    obtain ⟨c', hstep, hpost⟩ := run_cons_eq_some.mp hrest
    refine hmap.mpr ⟨pre, _, post, c, c', rfl, hc, ⟨rfl, hon, hexpiry⟩, hstep, ?_⟩
    rintro pre' e post' d rfl hd (rfl | hreported)
    · simp at hcancel
    · obtain ⟨d₁, hd₁, hlast⟩ := run_append_eq_some.mp hpost
      obtain rfl := Option.some.inj (hd.symm.trans hd₁)
      obtain ⟨d', hd', hend⟩ := run_cons_eq_some.mp hlast
      refine hfired (timeouts_subset_of_run hset hend ?_)
      rw [timerStep_timeouts hset hd']
      exact List.mem_append_right _ hreported

/-- The sweep at the end of a run: it fires the outstanding sequences that have expired, each once
and in the order of their expiries, and leaves the others. -/
structure SweepsExactly (cfg : ClientConfig) (es : List TimerEvent) (c c' : Client) : Prop where
  fires : ∃ entries : List ResponseEntry,
    c'.timeouts = c.timeouts ++ entries.map ResponseEntry.sequence ∧
    (entries.map ResponseEntry.sequence).Nodup ∧ entries.Pairwise ResponseEntry.Before ∧
    ∀ s x, ⟨s, x⟩ ∈ entries ↔ Outstanding cfg es c s x ∧ x ≤ c.now
  keeps : ∀ s x, c'.responses.responseMap s = some x ↔ Outstanding cfg es c s x ∧ c.now < x
  queue : ∀ q ∈ c'.responses.responseQueue, c.now < q.expiry

/-- At the end of every such run a sweep fires exactly what is outstanding and has expired. -/
theorem sweepsExactly_of_run {cfg : ClientConfig} (hset : cfg.onTimeout = true)
    {es : List TimerEvent} {c c' : Client} (hrun : run (timerStep cfg) {} es = some c)
    (hdistinct : (es.filterMap TimerEvent.started).Nodup)
    (hstep : timerStep cfg c (.checkAndFireResponseTimers false) = some c') :
    SweepsExactly cfg es c c' := by
  have hmap := responseMap_iff_outstanding hset hrun hdistinct
  have htabled := ((coupled_everyState hset hdistinct).last hrun).tabled
  cases timerActs_of_step hstep with
  | same e c' hsweep hcancel hoff hqueue hmap' htimeouts =>
    exact absurd rfl hsweep
  | sweep c' hidle hresponses htimeouts hsubset =>
    -- what fires are the entries at the front of the queue whose number is still in the map
    refine ⟨⟨c.responses.responseQueue.filter fun q =>
      q.expiry ≤ c.now && (c.responses.responseMap q.sequence).isSome, ?_, ?_, ?_, ?_⟩, ?_, ?_⟩
    · rw [htimeouts hset, htabled.expired_eq]
    · rw [← htabled.expired_eq]
      exact htabled.expired_nodup c.now
    · exact htabled.ordered.sublist List.filter_sublist
    · intro s x
      rw [← hmap, List.mem_filter, Bool.and_eq_true, decide_eq_true_eq]
      constructor
      · rintro ⟨hq, hle, hsome⟩
        obtain ⟨y, hy⟩ := Option.isSome_iff_exists.mp hsome
        obtain rfl := htabled.expiry_eq hq hy
        exact ⟨hy, hle⟩
      · rintro ⟨hx, hle⟩
        exact ⟨htabled.queued s x hx, hle, by simp [hx]⟩
    · intro s x
      rw [hresponses, htabled.sweep_map_eq_some, hmap]
    · intro q hq
      rw [hresponses] at hq
      exact ((Responses.mem_sweep htabled.ordered c.now).mp hq).2

/-- **The response sweep is exact.** For any calls with pairwise distinct started sequences: every
sequence of the map has exactly one entry in the queue, with the expiry the map has; a sweep fires
what is outstanding and has expired, each once and in the order of the expiries, and leaves the
rest; and over the whole run no sequence fires twice, nor before its expiry, nor after it was
cancelled. -/
theorem response_sweep_exact (cfg : ClientConfig) (hset : cfg.onTimeout = true)
    (es : List TimerEvent) (u : Client) (hrun : run (timerStep cfg) {} es = some u)
    (hdistinct : (es.filterMap TimerEvent.started).Nodup) :
    (∀ s x, u.responses.responseMap s = some x →
      (u.responses.responseQueue.filter fun q => q.sequence = s) = [⟨s, x⟩]) ∧
    (∀ u', timerStep cfg u (.checkAndFireResponseTimers false) = some u' →
      SweepsExactly cfg es u u') ∧
    u.timeouts.Nodup ∧
    ∀ pre e post c c' s, es = pre ++ e :: post → run (timerStep cfg) {} pre = some c →
      timerStep cfg c e = some c' → c.timeouts.count s < c'.timeouts.count s →
      e = .checkAndFireResponseTimers false ∧ ∃ x, Outstanding cfg pre c s x ∧ x ≤ c.now := by
  have hcoupled := (coupled_everyState hset hdistinct).last hrun
  refine ⟨fun s x hx => hcoupled.tabled.filter_eq_singleton hx,
    fun u' hu' => sweepsExactly_of_run hset hrun hdistinct hu', hcoupled.once, ?_⟩
  rintro pre e post c c' s rfl hpre hstep hcount
  have hinitial : (pre.filterMap TimerEvent.started).Nodup := by
    rw [List.filterMap_append] at hdistinct
    exact (List.nodup_append.mp hdistinct).1
  rw [timerStep_timeouts hset hstep, List.count_append] at hcount
  have hreported : s ∈ c.reported e := List.count_pos_iff.mp (by omega)
  obtain rfl : e = .checkAndFireResponseTimers false := by
    by_contra hne
    rw [reported_of_ne hne] at hreported
    simp at hreported
  obtain ⟨entries, htimeouts, -, -, hentries⟩ :=
    (sweepsExactly_of_run hset hpre hinitial hstep).fires
  rw [timerStep_timeouts hset hstep, List.append_cancel_left_eq] at htimeouts
  rw [htimeouts] at hreported
  obtain ⟨⟨s, x⟩, hmem, rfl⟩ := List.mem_map.mp hreported
  exact ⟨rfl, x, (hentries s x).mp hmem⟩

/-- Three requests, one of them cancelled, and a sweep when two of them have expired. -/
theorem response_sweep_exact_cancelled :
    ∃ u, run (timerStep tenMs) {}
        [.startResponseTimer 1 0, .startResponseTimer 2 0, .tick (millis 5),
          .startResponseTimer 3 0, .cancelResponseTimer 1, .tick (millis 5),
          .checkAndFireResponseTimers false] = some u ∧
      u.timeouts = [2] ∧ u.timeouts.Nodup ∧
      (u.responses.responseQueue.filter fun q => q.sequence = 3) = [⟨3, millis 15⟩] := by
  obtain ⟨hqueue, -, hnodup, -⟩ := response_sweep_exact tenMs rfl
    [.startResponseTimer 1 0, .startResponseTimer 2 0, .tick (millis 5),
      .startResponseTimer 3 0, .cancelResponseTimer 1, .tick (millis 5),
      .checkAndFireResponseTimers false] _ rfl (by decide)
  exact ⟨_, rfl, by decide, hnodup, hqueue 3 (millis 15) (by decide)⟩

end Client

end TurboNet
