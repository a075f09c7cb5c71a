import TurboNet.Asio.FastResponse
import TurboNet.Common.Counter

/-!
# What becomes of a request of the asio server

Reference: `claude/asio_server.cpp`, `TcpServer::sendRequest`, `TcpServer::checkTimeouts`,
`TcpServer::cancelRequest`, `TcpServer::handleIncomingPacket`, `TcpServer::unregisterConnection`.

Three functions take entries out of `pendingRequests_`. `Settling` is the server with a record of
the entries that have left the table and how, and with the count of the numbers that have been
drawn. A registered request is pending or has left the table exactly once, in every state, as long
as no request is registered under a number that is still pending (`balanced_iff`); and that does not
happen while fewer than 2^32 numbers are drawn (`everyRequest_settled`). Unlike the client, the
server drops no request when a connection closes.
-/

namespace TurboNet.Asio

open Common

namespace TcpServer

/-- How an entry leaves `pendingRequests_`. -/
inductive Fate where
  | answered
  | timedOut
  | cancelled
deriving DecidableEq, Repr

def Event.fate : Event → Fate
  | .sweep => .timedOut
  | .cancelRequest _ => .cancelled
  | _ => .answered

/-- How many numbers an event draws from `nextSequence_`. -/
def Event.draws : Event → ℕ
  | .sendRequest .. | .sendTo .. | .broadcast .. => 1
  | _ => 0

/-- The entries that an event takes out of `pendingRequests_`: the calls that made them, and what
becomes of them. -/
def settles (t : TcpServer) (e : Event) : List (ℕ × Fate) :=
  (t.removes e).filterMap fun s => t.pendingRequests[s]?.map fun r => (r.call, e.fate)

structure Settling where
  server : TcpServer := {}
  fates : List (ℕ × Fate) := []
  drawn : ℕ := 0

def Settling.step (serverId : List UInt8) (w : Settling) (e : Event) : Option Settling :=
  (TcpServer.step serverId w.server e).map fun t =>
    ⟨t, w.fates ++ w.server.settles e, w.drawn + e.draws⟩

/-- The entry that the `k`-th call has made is in `pendingRequests_`. -/
def pends (t : TcpServer) (k : ℕ) (c : RequestCall) : Bool :=
  t.pendingRequests[c.sequence]?.any fun r => decide (r.call = k)

/-- How often the entry of the `k`-th call has left the table. -/
def Settling.left (w : Settling) (k : ℕ) : ℕ := w.fates.countP fun x => decide (x.1 = k)

/-- The request is pending or has been settled, as often as it has been registered. -/
def Settling.BalancedAt (w : Settling) (k : ℕ) (c : RequestCall) : Prop :=
  (if w.server.pends k c then 1 else 0) + w.left k = if c.entered then 1 else 0

def Settling.Balanced (w : Settling) : Prop :=
  ∀ (k : ℕ) (c : RequestCall), w.server.calls[k]? = some c → w.BalancedAt k c

/-- The event does not register a request under a number that is pending. -/
def RegistersFree (w : Settling) (e : Event) : Prop :=
  ∀ x ∈ w.server.inserts e, w.server.pendingRequests[x.1]? = none

instance (w : Settling) (e : Event) : Decidable (RegistersFree w e) :=
  inferInstanceAs (Decidable (∀ x ∈ w.server.inserts e, w.server.pendingRequests[x.1]? = none))

variable {serverId : List UInt8} {t t' : TcpServer} {w w' : Settling} {e : Event}

/-! ## What leaves the table -/

/-- An event takes a number out once. -/
theorem nodup_removes (t : TcpServer) (e : Event) : (t.removes e).Nodup := by
  cases e with
  | handleIncomingPacket j =>
    rw [removes]
    cases t.takes (.handleIncomingPacket j) with
    | none => exact List.nodup_nil
    | some x => exact List.nodup_singleton _
  | sweep =>
    rw [removes, expiredSequences]
    exact nodup_keysWhere _ _
  | cancelRequest sequence =>
    rw [removes]
    split
    · exact List.nodup_singleton _
    · exact List.nodup_nil
  | _ => exact List.nodup_nil

/-- Nothing leaves the table when a request is registered. -/
theorem removes_of_inserts {x : UInt32 × PendingRequest} (h : t.inserts e = some x) :
    t.removes e = [] := by
  obtain ⟨rfl, -⟩ := inserts_eq_some (s := x.1) (r := x.2) h
  rfl

/-- Every entry, and every entry that has left the table, was made by a call that has entered its
number. -/
structure Settling.Known (w : Settling) : Prop where
  tracked : w.server.Tracked
  enrolled : w.server.Enrolled
  left : ∀ x ∈ w.fates, ∃ c : RequestCall, w.server.calls[x.1]? = some c ∧ c.entered = true

/-- The table is empty at the start. -/
theorem known_start : Settling.Known {} where
  tracked := tracked_start
  enrolled := enrolled_start
  left _ hx := absurd hx List.not_mem_nil

/-- The entry of a call is found under its number only. -/
theorem Settling.Known.sequence_eq (hI : w.Known) {k : ℕ} {c : RequestCall}
    (hc : w.server.calls[k]? = some c) {s : UInt32} {r : PendingRequest}
    (hr : w.server.pendingRequests[s]? = some r) (hk : r.call = k) : s = c.sequence := by
  obtain ⟨c', hc', -, hsequence⟩ := hI.tracked.pending s r hr
  obtain rfl := Option.some.inj (hc.symm.trans (hk ▸ hc'))
  exact hsequence.symm

/-- How often the entry of a call leaves the table in a step. -/
theorem Settling.Known.countP_settles (hI : w.Known) {k : ℕ} {c : RequestCall}
    (hc : w.server.calls[k]? = some c) (e : Event) :
    (w.server.settles e).countP (fun x => decide (x.1 = k)) =
      if c.sequence ∈ w.server.removes e ∧ w.server.pends k c = true then 1 else 0 := by
  have hpends (s : UInt32) :
      ((w.server.pendingRequests[s]?.map fun r => (r.call, e.fate)).any
        fun x => decide (x.1 = k)) =
      w.server.pendingRequests[s]?.any fun r => decide (r.call = k) := by
    cases w.server.pendingRequests[s]? <;> rfl
  rw [settles, countP_filterMap_of_nodup (a := c.sequence) (w.server.nodup_removes e), hpends]
  · rfl
  · intro s _ hany
    rw [hpends] at hany
    obtain ⟨r, hr, hk⟩ := (Option.any_eq_true _ _).mp hany
    exact hI.sequence_eq hc hr (of_decide_eq_true hk)

/-! ## A step -/

/-- What a step does, part by part. -/
theorem Settling.step_eq_some (h : w.step serverId e = some w') :
    TcpServer.step serverId w.server e = some w'.server ∧
      w'.fates = w.fates ++ w.server.settles e ∧ w'.drawn = w.drawn + e.draws := by
  obtain ⟨t, ht, rfl⟩ := Option.map_eq_some_iff.mp h
  exact ⟨ht, rfl, rfl⟩

/-- A call keeps its number as it goes on. -/
theorem RequestCall.Goes.sequence_eq {c c' : RequestCall} (h : c.Goes c') :
    c'.sequence = c.sequence := by
  cases h <;> rfl

/-- Every step keeps the entries those of calls that have entered their number. -/
theorem Settling.Known.step (hI : w.Known) (h : w.step serverId e = some w') : w'.Known := by
  obtain ⟨ht, hfates, -⟩ := Settling.step_eq_some h
  refine ⟨hI.tracked.step ht, hI.enrolled.step ht, fun x hx => ?_⟩
  obtain ⟨c, hc, hentered⟩ : ∃ c : RequestCall, w.server.calls[x.1]? = some c ∧
      c.entered = true := by
    rw [hfates] at hx
    rcases List.mem_append.mp hx with hx | hx
    · exact hI.left x hx
    · obtain ⟨s, -, heq⟩ := List.mem_filterMap.mp hx
      obtain ⟨r, hr, rfl⟩ := Option.map_eq_some_iff.mp heq
      obtain ⟨c, hc, hentered, -⟩ := hI.enrolled s r hr
      exact ⟨c, hc, hentered⟩
  obtain ⟨c', hc', hgoes⟩ := call_step ht hc
  exact ⟨c', hc', hgoes.entered hentered⟩

/-- Where nothing is inserted, what leaves the table is settled. -/
theorem Settling.Known.balancedAt_iff (hI : w.Known) (h : w.step serverId e = some w')
    (hinserts : w.server.inserts e = none) {k : ℕ} {c c' : RequestCall}
    (hc : w.server.calls[k]? = some c) (hsequence : c'.sequence = c.sequence)
    (hentered : c'.entered = c.entered) : w'.BalancedAt k c' ↔ w.BalancedAt k c := by
  obtain ⟨ht, hfates, -⟩ := Settling.step_eq_some h
  have hpends : w'.server.pends k c' =
      if c.sequence ∈ w.server.removes e then false else w.server.pends k c := by
    rw [pends, hsequence, getElem?_pending_step ht, hinserts, lookupAfter]
    split <;> rfl
  have hleft : w'.left k = w.left k +
      if c.sequence ∈ w.server.removes e ∧ w.server.pends k c = true then 1 else 0 := by
    rw [Settling.left, hfates, List.countP_append, hI.countP_settles hc]
    rfl
  rw [Settling.BalancedAt, Settling.BalancedAt, hpends, hleft, hentered]
  by_cases hremoved : c.sequence ∈ w.server.removes e
  · simp only [hremoved, if_true, true_and, Bool.false_eq_true, if_false, Nat.zero_add,
      Nat.add_comm (w.left k)]
  · simp only [hremoved, if_false, false_and, Nat.add_zero]

/-- A call that has yet to enter its number has no entry. -/
theorem Settling.Known.nothing_of_not_entered (hI : w.Known) {k : ℕ} {c : RequestCall}
    (hc : w.server.calls[k]? = some c) (hentered : c.entered = false) :
    w.server.pends k c = false ∧ w.left k = 0 := by
  constructor
  · refine Bool.not_eq_true _ ▸ fun hpends => ?_
    obtain ⟨r, hr, hk⟩ := (Option.any_eq_true _ _).mp hpends
    obtain ⟨c', hc', hentered', -⟩ := hI.enrolled _ r hr
    rw [of_decide_eq_true hk, hc] at hc'
    obtain rfl := Option.some.inj hc'
    exact absurd hentered' (by simp [hentered])
  · refine List.countP_eq_zero.mpr fun x hx hk => ?_
    obtain ⟨c', hc', hentered'⟩ := hI.left x hx
    rw [of_decide_eq_true hk, hc] at hc'
    obtain rfl := Option.some.inj hc'
    exact absurd hentered' (by simp [hentered])

/-- A step that inserts nothing keeps the balance. -/
theorem Settling.Known.balanced_of_no_insert (hI : w.Known) (hP : w.Balanced)
    (h : w.step serverId e = some w') (hinserts : w.server.inserts e = none)
    (hnew : ∀ (k : ℕ) (c' : RequestCall), w'.server.calls[k]? = some c' →
      (∃ c : RequestCall, w.server.calls[k]? = some c ∧ c'.sequence = c.sequence ∧
        c'.entered = c.entered) ∨
      w.server.calls[k]? = none ∧ c'.entered = false) : w'.Balanced := by
  intro k c' hc'
  rcases hnew k c' hc' with ⟨c, hc, hsequence, hentered⟩ | ⟨hnone, hentered⟩
  · exact (hI.balancedAt_iff h hinserts hc hsequence hentered).mpr (hP k c hc)
  · obtain ⟨hpends, hleft⟩ := (hI.step h).nothing_of_not_entered hc' hentered
    rw [Settling.BalancedAt, hpends, hleft, hentered]
    rfl

/-- Registering a request keeps the balance if its number is free. Otherwise the request that was
pending under it is lost. -/
theorem Settling.Known.balanced_register_iff (hI : w.Known) (hP : w.Balanced)
    (h : w.step serverId e = some w') {k : ℕ} {c : RequestCall} {expiry : ℕ}
    (hinserts : w.server.inserts e =
      some (c.sequence, ⟨expiry, c.connectionId, c.responseCallback, k⟩))
    (hc : w.server.calls[k]? = some c) (hphase : c.phase = .sent)
    (hcalls : w'.server.calls = w.server.calls.set k { c with phase := .registered }) :
    w'.Balanced ↔ w.server.pendingRequests[c.sequence]? = none := by
  obtain ⟨ht, hfates, -⟩ := Settling.step_eq_some h
  have hremoves := removes_of_inserts hinserts
  have hleft (i : ℕ) : w'.left i = w.left i := by
    rw [Settling.left, hfates, settles, hremoves, List.filterMap_nil, List.append_nil]
    rfl
  have hpends (i : ℕ) (b : RequestCall) : w'.server.pends i b =
      if c.sequence = b.sequence then decide (k = i) else w.server.pends i b := by
    rw [pends, getElem?_pending_step ht, hinserts, hremoves, lookupAfter]
    split
    · rfl
    · simp only [List.not_mem_nil, if_false]
      rfl
  have hkept {i : ℕ} {b : RequestCall} (hi : k ≠ i) :
      w'.server.calls[i]? = some b ↔ w.server.calls[i]? = some b := by
    rw [hcalls, List.getElem?_set_ne hi]
  constructor
  · intro hP'
    cases hr : w.server.pendingRequests[c.sequence]? with
    | none => rfl
    | some r =>
      -- the request whose entry is replaced has not been settled
      obtain ⟨b, hb, -, hsequence⟩ := hI.tracked.pending _ r hr
      obtain ⟨b', hb', hentered, -⟩ := hI.enrolled _ r hr
      obtain rfl := Option.some.inj (hb.symm.trans hb')
      have hne : k ≠ r.call := by
        rintro rfl
        obtain rfl := Option.some.inj (hc.symm.trans hb)
        exact absurd hentered (by simp [RequestCall.entered, hphase])
      have hbefore := hP r.call b hb
      have hafter := hP' r.call b ((hkept hne).mpr hb)
      have hpending : w.server.pends r.call b = true := by
        rw [pends, hsequence, hr]
        exact decide_eq_true rfl
      rw [Settling.BalancedAt, hpending, hentered] at hbefore
      rw [Settling.BalancedAt, hpends, if_pos hsequence.symm, hleft, hentered,
        decide_eq_false hne] at hafter
      simp only [if_true, Bool.false_eq_true, if_false] at hbefore hafter
      omega
  · intro hfree i b hb
    by_cases hi : k = i
    · subst hi
      obtain rfl : { c with phase := .registered } = b := by
        rw [hcalls, List.getElem?_set_self (List.getElem?_eq_some_iff.mp hc).1] at hb
        exact Option.some.inj hb
      obtain ⟨-, hnone⟩ :=
        hI.nothing_of_not_entered hc (by simp [RequestCall.entered, hphase])
      rw [Settling.BalancedAt, hpends, if_pos rfl, hleft, hnone]
      simp [RequestCall.entered]
    · rw [hkept hi] at hb
      have hsame : w'.server.pends i b = w.server.pends i b := by
        rw [hpends]
        split
        · rename_i hsequence
          rw [pends, ← hsequence, hfree, decide_eq_false hi]
          rfl
        · rfl
      rw [Settling.BalancedAt, hsame, hleft]
      exact hP i b hb

/-- A step keeps the balance if and only if it registers no number that is pending. -/
theorem Settling.Known.balanced_step_iff (hI : w.Known) (hP : w.Balanced)
    (h : w.step serverId e = some w') : w'.Balanced ↔ RegistersFree w e := by
  obtain ⟨ht, -, -⟩ := Settling.step_eq_some h
  have hquiet (hinserts : w.server.inserts e = none) : RegistersFree w e := by
    intro x hx
    rw [hinserts] at hx
    cases hx
  -- a call may have gone on to a phase in which it has entered its number if it had before
  have hset {k : ℕ} {c : RequestCall} {phase : RequestPhase} (hc : w.server.calls[k]? = some c)
      (hcalls : w'.server.calls = w.server.calls.set k { c with phase := phase })
      (hentered : { c with phase := phase }.entered = c.entered) (i : ℕ) (c' : RequestCall)
      (hc' : w'.server.calls[i]? = some c') :
      (∃ b : RequestCall, w.server.calls[i]? = some b ∧ c'.sequence = b.sequence ∧
        c'.entered = b.entered) ∨ w.server.calls[i]? = none ∧ c'.entered = false := by
    by_cases hi : k = i
    · subst hi
      rw [hcalls, List.getElem?_set_self (List.getElem?_eq_some_iff.mp hc).1] at hc'
      obtain rfl := Option.some.inj hc'
      exact Or.inl ⟨c, hc, rfl, hentered⟩
    · rw [hcalls, List.getElem?_set_ne hi] at hc'
      exact Or.inl ⟨c', hc', rfl, rfl⟩
  cases change_step ht with
  | same hinserts hcalls =>
    refine iff_of_true (hI.balanced_of_no_insert hP h hinserts fun k c' hc' => ?_)
      (hquiet hinserts)
    exact Or.inl ⟨c', hcalls ▸ hc', rfl, rfl⟩
  | call c hinserts hphase hcalls =>
    refine iff_of_true (hI.balanced_of_no_insert hP h hinserts fun k c' hc' => ?_)
      (hquiet hinserts)
    rw [hcalls, List.getElem?_append] at hc'
    split at hc'
    · exact Or.inl ⟨c', hc', rfl, rfl⟩
    · rename_i hk
      obtain rfl := List.mem_singleton.mp (List.mem_of_getElem? hc')
      exact Or.inr ⟨List.getElem?_eq_none (not_lt.mp hk), by simp [RequestCall.entered, hphase]⟩
  | send k c phase hinserts hc hphase hphase' hcalls =>
    refine iff_of_true (hI.balanced_of_no_insert hP h hinserts (hset hc hcalls ?_))
      (hquiet hinserts)
    rcases hphase' with rfl | rfl <;> simp [RequestCall.entered, hphase]
  | register k c expiry hinserts hc hphase hcalls =>
    rw [hI.balanced_register_iff hP h hinserts hc hphase hcalls]
    simp [RegistersFree, hinserts]
  | finish k c he hinserts hc hphase hcalls =>
    refine iff_of_true (hI.balanced_of_no_insert hP h hinserts (hset hc hcalls ?_))
      (hquiet hinserts)
    simp [RequestCall.entered, hphase]

/-! ## Runs -/

/-- **Requests are settled once.** In every state of a run each registered request is pending or has
left `pendingRequests_` once, by an answer, a timeout or a cancellation, exactly when no request is
registered under a number that is still pending. -/
theorem balanced_iff (serverId : List UInt8) (es : List Event) (u : Settling)
    (hrun : run (Settling.step serverId) {} es = some u) :
    EveryState (Settling.step serverId) {} es Settling.Balanced ↔
      EveryStep (Settling.step serverId) {} es RegistersFree := by
  refine everyState_iff_everyStep (I := Settling.Known) (fun k c hc => ?_) known_start ?_ ?_ hrun
  · simp at hc
  · exact fun t e t' _ _ hI ht => hI.step ht
  · exact fun t e t' _ _ hI hP ht => hI.balanced_step_iff hP ht

/-- The connection that was asked closes, and the request times out. -/
theorem balanced_iff_closed :
    EveryState (Settling.step [0x53]) {} (askFirst ++
      [.unregisterConnection 1, .tick 5000, .expire, .sweep]) Settling.Balanced :=
  (balanced_iff [0x53] (askFirst ++ [.unregisterConnection 1, .tick 5000, .expire, .sweep])
    _ rfl).mpr (by decide)

/-! ## Fewer than 2^32 numbers -/

/-- The phase of a call says nothing about its number. -/
theorem map_sequence_set {calls : List RequestCall} {k : ℕ} {c : RequestCall}
    (hc : calls[k]? = some c) (phase : RequestPhase) :
    (calls.set k { c with phase := phase }).map RequestCall.sequence =
      calls.map RequestCall.sequence := by
  have hsequence : (calls.map RequestCall.sequence)[k]? = some c.sequence := by
    rw [List.getElem?_map, hc]
    rfl
  obtain ⟨hlt, heq⟩ := List.getElem?_eq_some_iff.mp hsequence
  rw [List.map_set, ← heq, List.set_getElem_self]

/-- The numbers that calls of `sendRequest` draw. -/
def numbers (t : TcpServer) : Event → List UInt32
  | .sendRequest .. => [t.nextSequence]
  | _ => []

/-- A step draws numbers for the new calls and leaves those of the old ones. -/
theorem numbers_step (h : TcpServer.step serverId t e = some t') :
    t'.calls.map RequestCall.sequence = t.calls.map RequestCall.sequence ++ t.numbers e ∧
      t'.nextSequence = t.nextSequence + UInt32.ofNat e.draws := by
  -- only `sendRequest`, `sendTo` and `broadcast` draw a number
  have hsame {u : TcpServer}
      (hcalls : u.calls.map RequestCall.sequence = t.calls.map RequestCall.sequence)
      (hnext : u.nextSequence = t.nextSequence) (hevent : (t.numbers e, e.draws) = ([], 0)) :
      u.calls.map RequestCall.sequence = t.calls.map RequestCall.sequence ++ t.numbers e ∧
        u.nextSequence = t.nextSequence + UInt32.ofNat e.draws := by
    obtain ⟨hnumbers, hdraws⟩ := Prod.mk.inj hevent
    rw [hnumbers, hdraws, List.append_nil]
    exact ⟨hcalls, hnext.trans (UInt32.add_zero _).symm⟩
  have hcallBack (u : TcpServer) (callback : PacketCallback) (d : Dispatch) :
      (u.callBack serverId callback d).nextSequence = u.nextSequence := by
    cases callback <;> rfl
  cases stepped_of_step h with
  | accept error => cases error <;> exact hsame rfl rfl rfl
  | processPacket j p c hc =>
    refine hsame ?_ (hcallBack _ _ _) rfl
    rw [processPacket, callBack_calls]
    rfl
  | handleIncomingPacket j d hd =>
    refine hsame ?_ ?_ rfl
    · rw [handleIncomingPacket, callBack_calls, takePending_calls]
    · rw [handleIncomingPacket, hcallBack]
      rcases takePending_cases { t with dispatches := t.dispatches.eraseIdx j } d with
        ⟨r, -, -, htake⟩ | ⟨-, htake⟩ <;> rw [htake]
  | sendRequest =>
    refine ⟨?_, rfl⟩
    rw [sendRequest, List.map_append]
    rfl
  | sendDrawn k c hcall =>
    have hc := (callIn_eq_some hcall).1
    rw [sendDrawn]
    split
    · exact hsame (map_sequence_set hc .sent) rfl rfl
    · exact hsame (map_sequence_set hc .failed) rfl rfl
  | register k c hcall => exact hsame (map_sequence_set (callIn_eq_some hcall).1 _) rfl rfl
  | ensureTimer k c hcall =>
    have hc := map_sequence_set (callIn_eq_some hcall).1 .done
    simp only [ensureTimer]
    split
    · exact hsame hc rfl rfl
    · exact hsame hc rfl rfl
  | finishSweep j hasPending => cases hasPending <;> exact hsame rfl rfl rfl
  | sendTo => exact ⟨(List.append_nil _).symm, rfl⟩
  | broadcast => exact ⟨(List.append_nil _).symm, rfl⟩
  | _ => exact hsame rfl rfl rfl

/-- The numbers of the calls are all different. -/
def Settling.Numbered (w : Settling) : Prop :=
  Numbers w.server.nextSequence w.drawn (w.server.calls.map RequestCall.sequence)

/-- Fewer than 2^32 draws give every call a number of its own. -/
theorem Settling.Numbered.step (hI : w.Numbered) (h : w.step serverId e = some w')
    (hdrawn : w'.drawn < 2 ^ 32) : w'.Numbered := by
  obtain ⟨ht, -, hdrawn'⟩ := Settling.step_eq_some h
  obtain ⟨hcalls, hnext⟩ := numbers_step ht
  have hsame (hdraws : e.draws = 0) (hnumbers : w.server.numbers e = []) : w'.Numbered := by
    rw [hdraws] at hdrawn' hnext
    rw [hnumbers, List.append_nil] at hcalls
    rw [Settling.Numbered, hcalls, hnext, hdrawn']
    rw [Nat.add_zero, show UInt32.ofNat 0 = 0 from rfl, UInt32.add_zero]
    exact hI
  have hskip (hdraws : e.draws = 1) (hnumbers : w.server.numbers e = []) : w'.Numbered := by
    rw [hdraws] at hdrawn' hnext
    rw [hnumbers, List.append_nil] at hcalls
    rw [Settling.Numbered, hcalls, hnext, hdrawn']
    exact Numbers.skip hI
  cases e with
  | sendRequest id data timeout responseCallback timeoutCallback =>
    rw [Settling.Numbered, hcalls, hnext, hdrawn']
    exact Numbers.draw hI (by simp only [Event.draws] at hdrawn'; omega)
  | sendTo => exact hskip rfl rfl
  | broadcast => exact hskip rfl rfl
  | _ => exact hsame rfl rfl

/-- A number that is drawn once is free when its call registers. -/
theorem Settling.Numbered.registersFree (hN : w.Numbered) (hI : w.Known) (e : Event) :
    RegistersFree w e := by
  intro x hx
  obtain ⟨-, c, hc, hphase, hsequence, -, -⟩ := inserts_eq_some (s := x.1) (r := x.2) hx
  cases hr : w.server.pendingRequests[x.1]? with
  | none => rfl
  | some r =>
    obtain ⟨b, hb, -, hsequence'⟩ := hI.tracked.pending _ r hr
    obtain ⟨b', hb', hentered, -⟩ := hI.enrolled _ r hr
    obtain rfl := Option.some.inj (hb.symm.trans hb')
    have hnumber {k : ℕ} {a : RequestCall} (ha : w.server.calls[k]? = some a)
        (heq : a.sequence = x.1) :
        (w.server.calls.map RequestCall.sequence)[k]? = some x.1 := by
      rw [List.getElem?_map, ha, ← heq]
      rfl
    have hsame := Numbers.unique hN (hnumber hc hsequence) (hnumber hb hsequence')
    rw [hsame, hb] at hc
    obtain rfl := Option.some.inj hc
    exact absurd hentered (by simp [RequestCall.entered, hphase])

/-- The answers among the fates are the entries that `handleIncomingPacket` has taken. -/
def Settling.Answers (w : Settling) : Prop :=
  (w.fates.filter fun x => decide (x.2 = .answered)).map Prod.fst = w.server.taken.map Taken.call

/-- The answers among the fates of a step are the entries that it takes. -/
theorem answered_settles (t : TcpServer) (e : Event) :
    ((t.settles e).filter fun x => decide (x.2 = .answered)).map Prod.fst =
      ((t.takes e).map fun x => x.2.call).toList := by
  cases e with
  | handleIncomingPacket j =>
    rw [settles, removes]
    cases hx : t.takes (.handleIncomingPacket j) with
    | none => rfl
    | some x =>
      obtain ⟨d, r⟩ := x
      obtain ⟨-, -, hr⟩ := takes_eq_some hx
      simp [hr, Event.fate]
  | sweep =>
    refine (congrArg (List.map Prod.fst) (List.filter_eq_nil_iff.mpr fun x hx => ?_)).trans rfl
    obtain ⟨s, -, heq⟩ := List.mem_filterMap.mp hx
    obtain ⟨r, -, rfl⟩ := Option.map_eq_some_iff.mp heq
    simp [Event.fate]
  | cancelRequest sequence =>
    refine (congrArg (List.map Prod.fst) (List.filter_eq_nil_iff.mpr fun x hx => ?_)).trans rfl
    obtain ⟨s, -, heq⟩ := List.mem_filterMap.mp hx
    obtain ⟨r, -, rfl⟩ := Option.map_eq_some_iff.mp heq
    simp [Event.fate]
  | _ => rfl

/-- Every step keeps the answers those that `handleIncomingPacket` has taken. -/
theorem Settling.Answers.step (hI : w.Answers) (h : w.step serverId e = some w') :
    w'.Answers := by
  obtain ⟨ht, hfates, -⟩ := Settling.step_eq_some h
  rw [Settling.Answers, hfates, List.filter_append, List.map_append, hI, answered_settles,
    taken_step ht, List.map_append]
  cases w.server.takes e <;> rfl

/-- What holds while fewer than 2^32 numbers have been drawn. -/
structure Settling.Sound (w : Settling) : Prop where
  known : w.Known
  numbered : w.Numbered
  balanced : w.Balanced
  answers : w.Answers

/-- Every run of fewer than 2^32 draws is sound. -/
theorem sound_run {es : List Event} (h : run (Settling.step serverId) {} es = some w)
    (hdrawn : w.drawn < 2 ^ 32) : w.Sound := by
  refine run_induction (P := fun w => w.drawn < 2 ^ 32 → w.Sound) (fun _ => ?_)
    (fun v e v' hI hv hlt => ?_) h hdrawn
  · exact ⟨known_start, Numbers.start, fun k c hc => absurd hc (by simp), rfl⟩
  · have hle := (Settling.step_eq_some hv).2.2
    have hI := hI (by omega)
    exact ⟨hI.known.step hv, hI.numbered.step hv hlt,
      (hI.known.balanced_step_iff hI.balanced hv).mpr (hI.numbered.registersFree hI.known e),
      hI.answers.step hv⟩

/-- **No request of the server is lost.** In a run in which fewer than 2^32 numbers are drawn, a
request that `sendRequest` has registered is in `pendingRequests_` and has not been settled, or it
is not and has been settled once: by a `RESPONSE`, by a sweep or by `cancelRequest`. Nothing else
takes it out, whatever becomes of its connection. -/
theorem everyRequest_settled (serverId : List UInt8) (es : List Event) (u : Settling)
    (hrun : run (Settling.step serverId) {} es = some u) (hdrawn : u.drawn < 2 ^ 32) (k : ℕ)
    (c : RequestCall) (hc : u.server.calls[k]? = some c) (hentered : c.entered = true) :
    (u.server.pends k c = true ∧ (∀ f, (k, f) ∉ u.fates) ∨
      u.server.pends k c = false ∧ ∃ f, u.fates.filter (fun x => decide (x.1 = k)) = [(k, f)]) ∧
      (u.fates.filter fun x => decide (x.2 = .answered)).map Prod.fst =
        u.server.taken.map Taken.call := by
  have hI := sound_run hrun hdrawn
  have hbalanced := hI.balanced k c hc
  rw [Settling.BalancedAt, hentered, if_pos rfl] at hbalanced
  refine ⟨?_, hI.answers⟩
  cases hpends : u.server.pends k c with
  | true =>
    rw [hpends, if_pos rfl] at hbalanced
    refine Or.inl ⟨rfl, fun f hf => ?_⟩
    have hnone : u.left k = 0 := by omega
    exact List.countP_eq_zero.mp hnone (k, f) hf (decide_eq_true rfl)
  | false =>
    rw [hpends, if_neg Bool.false_ne_true, Nat.zero_add, Settling.left,
      List.countP_eq_length_filter] at hbalanced
    obtain ⟨⟨i, f⟩, hone⟩ := List.length_eq_one_iff.mp hbalanced
    have hi : i = k := by
      have hmem : (i, f) ∈ u.fates.filter fun x => decide (x.1 = k) :=
        hone ▸ List.mem_singleton_self _
      exact of_decide_eq_true (List.mem_filter.mp hmem).2
    exact Or.inr ⟨rfl, f, hi ▸ hone⟩

/-- The connection that was asked closes. The request stays until it has timed out. -/
theorem everyRequest_settled_closed :
    ∃ u, run (Settling.step [0x53]) {} (askFirst ++
        [.unregisterConnection 1, .tick 5000, .expire, .sweep]) = some u ∧
      u.server.pends 0 ⟨1, [0x61], 5000, true, false, 1, .done⟩ = false ∧
      u.fates = [(0, .timedOut)] ∧ u.server.taken = [] := by
  obtain ⟨u, hrun, hdrawn, hc, hfates⟩ : ∃ u, run (Settling.step [0x53]) {} (askFirst ++
        [.unregisterConnection 1, .tick 5000, .expire, .sweep]) = some u ∧ u.drawn = 1 ∧
      u.server.calls[0]? = some ⟨1, [0x61], 5000, true, false, 1, .done⟩ ∧
      u.fates = [(0, .timedOut)] := ⟨_, rfl, rfl, rfl, rfl⟩
  obtain ⟨hone, hanswers⟩ :=
    everyRequest_settled [0x53] _ u hrun (by rw [hdrawn]; decide) 0 _ hc rfl
  refine ⟨u, hrun, ?_, hfates, ?_⟩
  · rcases hone with ⟨-, hnone⟩ | ⟨hpends, -⟩
    · exact absurd (hfates ▸ List.mem_singleton_self _) (hnone .timedOut)
    · exact hpends
  · rw [hfates] at hanswers
    exact (List.map_eq_nil_iff.mp hanswers.symm)

end TcpServer

end TurboNet.Asio
