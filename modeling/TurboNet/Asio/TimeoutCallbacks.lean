import TurboNet.Asio.Dispatch

/-!
# Timeout callbacks of the asio server

Reference: `claude/asio_server.cpp`, `TcpServer::sendRequest`, `TcpServer::checkTimeouts`,
`TcpServer::setTimeoutCallback`.

A request may come with a timeout callback of its own, but `sendRequest` puts it into
`timeoutCallback_`, where `setTimeoutCallback` puts the global one and every other request its own.
A sweep calls what it finds there for every request that has expired. `timeoutCallback_eq` says what
it finds, from the calls that have been made; `ownCallbacks_iff` which sweeps call the right ones.
-/

namespace TurboNet.Asio

open Common

namespace TcpServer

variable {serverId : List UInt8} {t t' u : TcpServer} {e : Event} {es : List Event}

/-- The call of `sendRequest` came with a timeout callback of its own. -/
def passed (t : TcpServer) (k : ℕ) : Bool := t.calls[k]?.any (·.timeoutCallback)

/-- What the call of `setTimeoutCallback` sets. -/
def setsGlobal : Event → Option (Option TimeoutCallback)
  | .setTimeoutCallback set => some (if set then some .global else none)
  | _ => none

/-- What a step puts into `timeoutCallback_`. `own` says which calls come with a callback. -/
def stores (own : ℕ → Bool) : Event → Option (Option TimeoutCallback)
  | .register k => if own k then some (some (.ofCall k)) else none
  | e => setsGlobal e

/-- The callback last set by `setTimeoutCallback`. -/
def globalCallback (es : List Event) : Option TimeoutCallback :=
  (es.filterMap setsGlobal).getLast?.join

/-- The callback that the timeout of a request is to invoke: its own one or the global one. -/
def expectedCallback (es : List Event) (t : TcpServer) (k : ℕ) : Option TimeoutCallback :=
  if t.passed k then some (.ofCall k) else globalCallback es

/-- The sweep that leads from `t`, the end of a run of `es`, to `t'` has called for each request
that has expired the callback of this request, once, and no other. -/
def InvokesOwn (es : List Event) (t t' : TcpServer) : Prop :=
  ∀ (s : UInt32) (r : PendingRequest), t.pendingRequests[s]? = some r → r.expiryTime ≤ t.now →
    (t'.timeouts.drop t.timeouts.length).filter (fun x => x.2 = s) =
      (expectedCallback es t r.call).toList.map (·, s)

/-- Every sweep of the run invokes the callbacks of the requests that have expired. -/
def OwnCallbacks (serverId : List UInt8) (es : List Event) : Prop :=
  ∀ pre post t t', es = pre ++ .sweep :: post → run (step serverId) {} pre = some t →
    step serverId t .sweep = some t' → InvokesOwn pre t t'

/-- Nothing has come between the request and a sweep now. If it came with a callback: no other
request with one has been registered since, and `setTimeoutCallback` has not been called. If it did
not: every request with a callback was followed by a call of `setTimeoutCallback`. -/
def Undisturbed (es : List Event) (t : TcpServer) (k : ℕ) : Prop :=
  if t.passed k then
    ∃ pre post, es = pre ++ .register k :: post ∧ (∀ set, .setTimeoutCallback set ∉ post) ∧
      ∀ k', .register k' ∈ post → t.passed k' = false
  else
    ∀ pre k' post, es = pre ++ .register k' :: post → t.passed k' = true →
      ∃ set, .setTimeoutCallback set ∈ post

/-- At every sweep of the run nothing has come between the requests that have expired and their
callbacks. -/
def SweepsUndisturbed (serverId : List UInt8) (es : List Event) : Prop :=
  ∀ pre post t t', es = pre ++ .sweep :: post → run (step serverId) {} pre = some t →
    step serverId t .sweep = some t' →
    ∀ (s : UInt32) (r : PendingRequest), t.pendingRequests[s]? = some r → r.expiryTime ≤ t.now →
      Undisturbed pre t r.call

/-! ## What is in `timeoutCallback_` -/

/-- A packet callback does not replace the timeout callback. -/
theorem callBack_timeoutCallback (t : TcpServer) (callback : PacketCallback) (d : Dispatch) :
    (t.callBack serverId callback d).timeoutCallback = t.timeoutCallback := by
  cases callback <;> rfl

/-- Neither does taking a request out. -/
theorem takePending_timeoutCallback (t : TcpServer) (d : Dispatch) :
    (t.takePending d).timeoutCallback = t.timeoutCallback := by
  rw [takePending]
  split
  · split <;> rfl
  · rfl

/-- A step puts a callback there or leaves what is there. -/
theorem timeoutCallback_step (h : step serverId t e = some t') :
    t'.timeoutCallback = (stores t.passed e).getD t.timeoutCallback := by
  cases stepped_of_step h with
  | register k c hcall =>
    have hpassed : t.passed k = c.timeoutCallback := by
      rw [passed, (callIn_eq_some hcall).1, Option.any_some]
    simp only [stores, hpassed, register]
    split <;> rfl
  | processPacket => exact callBack_timeoutCallback _ _ _
  | handleIncomingPacket =>
    exact (callBack_timeoutCallback _ _ _).trans (takePending_timeoutCallback _ _)
  | sendDrawn =>
    rw [sendDrawn]
    split <;> rfl
  | ensureTimer =>
    simp only [ensureTimer]
    split <;> rfl
  | finishSweep j hasPending => cases hasPending <;> rfl
  | _ => rfl

/-- A call of `sendRequest` keeps its callback. -/
theorem passed_step {k : ℕ} {c : RequestCall} (h : step serverId t e = some t')
    (hc : t.calls[k]? = some c) : t'.passed k = t.passed k := by
  obtain ⟨c', hc', hgoes⟩ := call_step h hc
  rw [passed, passed, hc, hc']
  cases hgoes <;> rfl

/-- Only a call that has been made can register. -/
theorem exists_call_of_registers {k : ℕ} (h : step serverId t (.register k) = some t') :
    ∃ c, t.calls[k]? = some c := by
  obtain ⟨c, hc, -⟩ := Option.map_eq_some_iff.mp h
  exact ⟨c, (callIn_eq_some hc).1⟩

/-- What has been registered is a call. -/
theorem exists_call_of_run {k : ℕ} (h : run (step serverId) {} es = some u)
    (hk : .register k ∈ es) : ∃ c, u.calls[k]? = some c := by
  induction es using List.reverseRecOn generalizing u with
  | nil => simp at hk
  | append_singleton es e ih =>
    obtain ⟨t, ht, hlast⟩ := run_append_eq_some.mp h
    rw [run_singleton] at hlast
    obtain ⟨c, hc⟩ : ∃ c, t.calls[k]? = some c := by
      rcases List.mem_append.mp hk with hk | hk
      · exact ih ht hk
      · obtain rfl := List.mem_singleton.mp hk
        exact exists_call_of_registers hlast
    obtain ⟨c', hc', -⟩ := call_step hlast hc
    exact ⟨c', hc'⟩

/-- Only the call that registers matters. -/
theorem stores_congr {own own' : ℕ → Bool} (h : ∀ k, e = .register k → own k = own' k) :
    stores own e = stores own' e := by
  cases e with
  | register k => rw [stores, stores, h k rfl]
  | _ => rfl

/-- `timeoutCallback_` is what was put there last. -/
theorem timeoutCallback_eq (h : run (step serverId) {} es = some u) :
    u.timeoutCallback = (es.filterMap (stores u.passed)).getLast?.join := by
  -- the calls that matter exist, so they keep what they came with
  have hgeneral : ∀ own : ℕ → Bool, (∀ k, .register k ∈ es → own k = u.passed k) →
      u.timeoutCallback = (es.filterMap (stores own)).getLast?.join := by
    induction es using List.reverseRecOn generalizing u with
    | nil =>
      intro own _
      obtain rfl := Option.some.inj h
      rfl
    | append_singleton es e ih =>
      intro own hown
      obtain ⟨t, ht, hlast⟩ := run_append_eq_some.mp h
      rw [run_singleton] at hlast
      have hbefore {k : ℕ} (hk : .register k ∈ es ++ [e]) : own k = t.passed k := by
        obtain ⟨c, hc⟩ : ∃ c, t.calls[k]? = some c := by
          rcases List.mem_append.mp hk with hk | hk
          · exact exists_call_of_run ht hk
          · obtain rfl := List.mem_singleton.mp hk
            exact exists_call_of_registers hlast
        rw [hown k hk, passed_step hlast hc]
      have hstores : stores own e = stores t.passed e :=
        stores_congr fun k he => hbefore (by simp [he])
      have hold := ih ht own fun k hk => hbefore (List.mem_append_left _ hk)
      rw [timeoutCallback_step hlast, ← hstores, List.filterMap_append]
      cases hv : stores own e with
      | none => simpa [hv] using hold
      | some v => simp [hv]
  exact hgeneral _ fun _ _ => rfl

/-! ## Which callback that is -/

/-- A step stores nothing unless it sets the callback or registers a request that came with one. -/
theorem stores_eq_none {own : ℕ → Bool} :
    stores own e = none ↔
      (∀ set, e ≠ .setTimeoutCallback set) ∧ ∀ k, e = .register k → own k = false := by
  cases e with
  | register k => simp [stores]
  | setTimeoutCallback set => simp [stores, setsGlobal]
  | _ => simp [stores, setsGlobal]

/-- The callback of a call is stored when the call registers. -/
theorem stores_eq_ofCall {own : ℕ → Bool} {k : ℕ} :
    stores own e = some (some (.ofCall k)) ↔ e = .register k ∧ own k = true := by
  cases e with
  | register k' =>
    simp only [stores, Event.register.injEq]
    constructor
    · intro h
      split at h
      · rename_i hown
        obtain rfl : k' = k := by simpa using h
        exact ⟨rfl, hown⟩
      · exact absurd h (by simp)
    · rintro ⟨rfl, hown⟩
      rw [if_pos hown]
  | setTimeoutCallback set => cases set <;> simp [stores, setsGlobal]
  | _ => simp [stores, setsGlobal]

/-- The callback of a request is the last one stored exactly when nothing has been stored since. -/
theorem stored_ofCall_iff {own : ℕ → Bool} {k : ℕ} (hown : own k = true) :
    (es.filterMap (stores own)).getLast?.join = some (.ofCall k) ↔
      ∃ pre post, es = pre ++ .register k :: post ∧ (∀ set, .setTimeoutCallback set ∉ post) ∧
        ∀ k', .register k' ∈ post → own k' = false := by
  rw [Option.join_eq_some_iff, getLast?_filterMap_eq_some_iff]
  constructor
  · rintro ⟨pre, x, post, rfl, hx, hpost⟩
    obtain ⟨rfl, -⟩ := stores_eq_ofCall.mp hx
    refine ⟨pre, post, rfl, fun set hset => ?_, fun k' hk' => ?_⟩
    · exact (stores_eq_none.mp (hpost _ hset)).1 set rfl
    · exact (stores_eq_none.mp (hpost _ hk')).2 k' rfl
  · rintro ⟨pre, post, rfl, hset, hregister⟩
    refine ⟨pre, _, post, rfl, stores_eq_ofCall.mpr ⟨rfl, hown⟩, fun y hy => ?_⟩
    refine stores_eq_none.mpr ⟨?_, ?_⟩
    · rintro set rfl
      exact hset set hy
    · rintro k' rfl
      exact hregister k' hy

/-- `setTimeoutCallback` never stores the callback of a call. -/
theorem globalCallback_ne_ofCall (es : List Event) (k : ℕ) :
    globalCallback es ≠ some (.ofCall k) := by
  intro h
  obtain ⟨pre, x, post, -, hx, -⟩ :=
    getLast?_filterMap_eq_some_iff.mp (Option.join_eq_some_iff.mp h)
  cases x with
  | setTimeoutCallback set => cases set <;> simp [setsGlobal] at hx
  | _ => simp [setsGlobal] at hx

/-- A step that stores nothing sets no global callback. -/
theorem setsGlobal_eq_none_of_stores {own : ℕ → Bool} (h : stores own e = none) :
    setsGlobal e = none := by
  cases e with
  | setTimeoutCallback set => exact absurd rfl ((stores_eq_none.mp h).1 set)
  | _ => rfl

/-- The global callback is the last one stored exactly when every request that brought its own was
followed by a call of `setTimeoutCallback`. -/
theorem stored_global_iff {own : ℕ → Bool} :
    (es.filterMap (stores own)).getLast?.join = globalCallback es ↔
      ∀ pre k post, es = pre ++ .register k :: post → own k = true →
        ∃ set, .setTimeoutCallback set ∈ post := by
  cases hlast : (es.filterMap (stores own)).getLast? with
  | none =>
    have hnone := List.filterMap_eq_nil_iff.mp (List.getLast?_eq_none_iff.mp hlast)
    refine iff_of_true ?_ ?_
    · have hglobal : es.filterMap setsGlobal = [] :=
        List.filterMap_eq_nil_iff.mpr fun y hy => setsGlobal_eq_none_of_stores (hnone y hy)
      rw [globalCallback, hglobal]
      rfl
    · rintro pre k post rfl hown
      have := (stores_eq_none.mp (hnone (.register k) (by simp))).2 k rfl
      exact absurd hown (by simp [this])
  | some v =>
    obtain ⟨pre, x, post, rfl, hx, hpost⟩ := getLast?_filterMap_eq_some_iff.mp hlast
    cases x with
    | register k =>
      -- a request that brought its own is the last one
      have hown : own k = true := by
        by_contra hown
        simp [stores, hown] at hx
      obtain rfl : some (.ofCall k) = v := by simpa [stores, hown] using hx
      refine iff_of_false (globalCallback_ne_ofCall _ k).symm fun h => ?_
      obtain ⟨set, hset⟩ := h pre k post rfl hown
      exact (stores_eq_none.mp (hpost _ hset)).1 set rfl
    | setTimeoutCallback set =>
      refine iff_of_true ?_ ?_
      · have hglobal : ((pre ++ Event.setTimeoutCallback set :: post).filterMap
            setsGlobal).getLast? = some v :=
          getLast?_filterMap_eq_some_iff.mpr ⟨pre, _, post, rfl, hx, fun y hy =>
            setsGlobal_eq_none_of_stores (hpost y hy)⟩
        rw [globalCallback, hglobal]
      · intro pre' k post' heq hown
        rcases mem_of_two_places (by simp) heq with hk | hset
        · have := (stores_eq_none.mp (hpost _ hk)).2 k rfl
          exact absurd hown (by simp [this])
        · exact ⟨set, hset⟩
    | _ => simp [stores, setsGlobal] at hx

/-- What is in `timeoutCallback_` is what a request expects exactly when it has not been
disturbed. -/
theorem timeoutCallback_eq_expected_iff (h : run (step serverId) {} es = some u) (k : ℕ) :
    u.timeoutCallback = expectedCallback es u k ↔ Undisturbed es u k := by
  rw [timeoutCallback_eq h, expectedCallback, Undisturbed]
  cases hpassed : u.passed k with
  | true =>
    simp only [↓reduceIte]
    exact stored_ofCall_iff hpassed
  | false =>
    simp only [Bool.false_eq_true, ↓reduceIte]
    exact stored_global_iff

/-! ## What a sweep calls -/

/-- A sweep calls what it finds for each request that has expired. -/
theorem sweep_timeouts (h : step serverId t .sweep = some t') {s : UInt32} {r : PendingRequest}
    (hr : t.pendingRequests[s]? = some r) (hexpired : r.expiryTime ≤ t.now) :
    (t'.timeouts.drop t.timeouts.length).filter (fun x => x.2 = s) =
      t.timeoutCallback.toList.map (·, s) := by
  obtain ⟨⟨_, timer⟩, -, rfl⟩ := Option.map_eq_some_iff.mp h
  have hmem : s ∈ t.expiredSequences := mem_keysWhere.mpr ⟨r, hr, decide_eq_true hexpired⟩
  have hnodup : t.expiredSequences.Nodup := nodup_keysWhere _ _
  change ((t.timeouts ++ _).drop t.timeouts.length).filter _ = _
  rw [List.drop_left]
  cases t.timeoutCallback with
  | none => rfl
  | some f =>
    simp only [Option.toList_some, List.flatMap_singleton, List.map_singleton]
    exact filter_map_pair hnodup hmem f

/-- A sweep calls the callbacks of its own requests if and only if these are undisturbed. -/
theorem invokesOwn_iff (h : run (step serverId) {} es = some t)
    (hsweep : step serverId t .sweep = some t') :
    InvokesOwn es t t' ↔ ∀ (s : UInt32) (r : PendingRequest), t.pendingRequests[s]? = some r →
      r.expiryTime ≤ t.now → Undisturbed es t r.call := by
  refine forall₄_congr fun s r hr hexpired => ?_
  rw [sweep_timeouts hsweep hr hexpired, ← timeoutCallback_eq_expected_iff h]
  cases t.timeoutCallback <;> cases expectedCallback es t r.call <;> simp

/-- **Timeouts and their callbacks.** In a run every sweep invokes for each request that expires the
callback that came with it, or the global one, exactly when at every sweep nothing has come between
these requests and their callbacks. -/
theorem ownCallbacks_iff (serverId : List UInt8) (es : List Event) :
    OwnCallbacks serverId es ↔ SweepsUndisturbed serverId es := by
  refine forall₄_congr fun pre post t t' => forall₃_congr fun hes hpre hsweep => ?_
  exact invokesOwn_iff hpre hsweep

/-- Two requests, each with a timeout callback of its own, that have both expired when the sweep
comes: it calls the callback of the second one for both. -/
theorem second_callback_for_both :
    ¬ OwnCallbacks [] [.start, .accept false,
      .sendRequest 1 [] 10 true true, .sendDrawn 0, .register 0, .ensureTimer 0,
      .sendRequest 1 [] 10 true true, .sendDrawn 1, .register 1, .ensureTimer 1,
      .tick 100, .expire, .sweep] := by
  intro h
  have hown := h [.start, .accept false,
    .sendRequest 1 [] 10 true true, .sendDrawn 0, .register 0, .ensureTimer 0,
    .sendRequest 1 [] 10 true true, .sendDrawn 1, .register 1, .ensureTimer 1,
    .tick 100, .expire] [] _ _ rfl rfl rfl 1 ⟨10, 1, true, 0⟩ (by decide) (by decide)
  exact absurd hown (by decide)

end TcpServer

end TurboNet.Asio
