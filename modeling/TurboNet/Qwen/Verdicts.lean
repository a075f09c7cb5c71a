import TurboNet.Qwen.Server

/-!
# Verdicts on the requests of the qwen server

Reference: `qwen/server.cpp`, `server::send_request_to_session`, `server::handle_response`, the
handler of the timer of a request.

A request that is entered into `pending_requests_` is taken out by a packet with its number or by
its timer. The timer calls the callback. A packet calls it only if it has the expected type, but
takes the entry out in any case; and `handle_packet` passes every packet to `handle_response`, also
the requests of the peers, who number these as they like. `settled_iff` says that this is the only
way to lose a verdict: while fewer than 2^32 numbers are drawn, every request gets exactly one
exactly when no packet of another type comes in with the number of a pending request.
-/

namespace TurboNet.Qwen

open Common

/-- The callback is called with a packet of the expected type that has the number of the request, or
with the status of a timeout. -/
def Verdict.Proper (expectedType : UInt8) (sequence : UInt32) (v : Verdict) : Prop :=
  match v.packet with
  | some p => p.packetId = expectedType ∧ p.sequence = sequence ∧ v.payload = p.payload ∧
      v.status = p.status
  | none => v.payload = [] ∧ v.status = pktTimeoutStatus

/-- What matters of a call here: `listed` says that it has entered its request. -/
structure RequestKey where
  session : Option UInt64
  expectedType : UInt8
  tracked : Bool
  sequence : UInt32
  listed : Bool
deriving DecidableEq, Repr

def RequestCall.key (c : RequestCall) : RequestKey :=
  ⟨c.session, c.expectedType, c.tracked, c.sequence, c.phase ≠ .drawn⟩

namespace Server

variable {maxIdle : ℤ} {s t : Server} {e : Event} {k : ℕ} {c : RequestCall}

/-- How often the callback of call `k` has been called. -/
def verdictsOf (s : Server) (k : ℕ) : ℕ := s.verdicts.countP (·.call = k)

/-- The verdict was given because of a packet that a session has handled. -/
def Seen (s : Server) (v : Verdict) : Prop :=
  ∀ p ∈ v.packet, ∃ j now, (now, p) ∈ s.handledBy j

/-- Every request that `send_request_to_session` has entered is pending without a verdict, or is no
longer pending and has exactly one; and its verdict is a proper one. -/
def Settled (s : Server) : Prop :=
  ∀ (k : ℕ) (c : RequestCall), s.calls[k]? = some c → c.session.isSome = true →
    c.tracked = true → c.phase ≠ .drawn →
    s.verdictsOf k = (if Owned PendingRequest.call c.sequence k s.pendingRequests then 0 else 1) ∧
    ∀ v ∈ s.verdicts, v.call = k → v.Proper c.expectedType c.sequence ∧ s.Seen v

/-- Call `k` is one of `send_request_to_session`. -/
def toSession (s : Server) (k : ℕ) : Bool := s.calls[k]?.any (·.session.isSome)

/-- The packet that is handled. -/
def Event.packet? : Event → Option Packet
  | .handlePacket _ p => some p
  | _ => none

/-- The event is not a packet of another type with the number of a pending request. -/
def Answers (s : Server) (e : Event) : Prop :=
  ∀ p ∈ e.packet?, ∀ r ∈ s.pendingRequests[p.sequence]?, s.toSession r.call = true →
    r.expectedType = p.packetId

instance (s : Server) (e : Event) : Decidable (Answers s e) :=
  inferInstanceAs (Decidable (∀ p ∈ e.packet?, ∀ r ∈ s.pendingRequests[p.sequence]?,
    s.toSession r.call = true → r.expectedType = p.packetId))

/-! ## What a step does to requests -/

def keys (s : Server) : List RequestKey := s.calls.map RequestCall.key

/-- The parts that verdicts are about. -/
def requests (s : Server) : Std.TreeMap UInt32 PendingRequest × List RequestKey × List Verdict :=
  (s.pendingRequests, s.keys, s.verdicts)

/-- The parts of `requests`. -/
theorem of_requests_eq {pending : Std.TreeMap UInt32 PendingRequest} {xs : List RequestKey}
    {vs : List Verdict} (h : s.requests = (pending, xs, vs)) :
    s.pendingRequests = pending ∧ s.keys = xs ∧ s.verdicts = vs := by
  obtain ⟨hpending, hrest⟩ := Prod.mk.inj h
  exact ⟨hpending, Prod.mk.inj hrest⟩

/-- What a step does to requests. -/
inductive RequestChange (s : Server) (e : Event) (t : Server) : Prop where
  | same (hanswers : s.Answers e) (hrequests : t.requests = s.requests)
  | call (x : RequestKey) (hanswers : s.Answers e) (hlisted : x.listed = false)
      (hsequence : x.sequence = s.sequenceGenerator) (hdrawn : t.drawn = s.drawn + 1)
      (hrequests : t.requests = (s.pendingRequests, s.keys ++ [x], s.verdicts))
  | register (k : ℕ) (x : RequestKey) (hanswers : s.Answers e) (hx : s.keys[k]? = some x)
      (hlisted : x.listed = false)
      (hrequests : t.requests =
        (if x.tracked then s.pendingRequests.insert x.sequence ⟨x.expectedType, k⟩
          else s.pendingRequests, s.keys.set k { x with listed := true }, s.verdicts))
  | take (sequence : UInt32) (r : PendingRequest) (v : Option Verdict)
      (hr : s.pendingRequests[sequence]? = some r)
      (hanswers : s.Answers e ↔ (s.toSession r.call = true → v.isSome = true))
      (hv : ∀ w ∈ v, w.call = r.call ∧ w.Proper r.expectedType sequence ∧ t.Seen w)
      (hrequests : t.requests =
        (s.pendingRequests.erase sequence, s.keys, s.verdicts ++ v.toList))

/-- What leaves the key of a call as it is leaves all keys as they are. -/
theorem keys_modify (k : ℕ) {f : RequestCall → RequestCall} (hf : ∀ c, (f c).key = c.key) :
    (s.calls.modify k f).map RequestCall.key = s.keys := by
  rw [keys]
  apply List.ext_getElem?
  intro i
  simp only [List.getElem?_map, List.getElem?_modify]
  cases s.calls[i]? with
  | none => rfl
  | some c =>
    by_cases hik : k = i <;> simp [hik, hf]

/-- `remove_session` has nothing to do with requests. -/
theorem requests_removeSession (s : Server) (id : UInt64) :
    (s.removeSession id).requests = s.requests := by
  have hclose : (s.closeSession id).requests = s.requests := by
    rw [closeSession]
    split
    · split <;> rfl
    · rfl
  rw [← hclose, removeSession]
  split <;> rfl

/-- The key of a call. -/
theorem getElem?_keys (hc : s.calls[k]? = some c) : s.keys[k]? = some c.key := by
  rw [keys, List.getElem?_map, hc]
  rfl

/-- A call in a phase is a call, and is in the phase. -/
theorem callIn_eq_some {phase : RequestPhase} (h : s.callIn k phase = some c) :
    s.calls[k]? = some c ∧ c.phase = phase := by
  obtain ⟨hc, hphase⟩ := Option.filter_eq_some_iff.mp h
  exact ⟨hc, of_decide_eq_true hphase⟩

/-- The timers have nothing to do with verdicts. -/
theorem requests_updateTimer (s : Server) (k : ℕ) (f : Timer Unit → Timer Unit) :
    (s.updateTimer k f).requests = s.requests := by
  have hkeys : (s.updateTimer k f).keys = s.keys := keys_modify k fun _ => rfl
  rw [requests, hkeys]
  rfl

/-- To send the packet of a request that has been entered changes nothing that verdicts are
about. -/
theorem requests_transmit (hc : s.calls[k]? = some c) (hphase : c.phase = .registered) :
    (s.transmit k c).requests = s.requests := by
  have hsend (s : Server) (j : ℕ) :
      (s.sendPacket j ⟨c.requestType, 0, c.sequence, c.payload⟩).requests = s.requests := rfl
  have hkeys : (s.calls.set k { c with phase := .done }).map RequestCall.key = s.keys := by
    rw [List.map_set, ← keys]
    have hkey : ({ c with phase := .done } : RequestCall).key = c.key := by
      simp [RequestCall.key, RequestCall.tracked, hphase]
    rw [hkey]
    obtain ⟨hlt, heq⟩ := List.getElem?_eq_some_iff.mp (getElem?_keys hc)
    rw [← heq, List.set_getElem_self]
  rw [transmit, foldl_keeps hsend, requests, keys, hkeys]
  rfl

/-- An event that handles no packet meets the condition. -/
theorem answers_of_no_packet (h : e.packet? = none) : s.Answers e := by
  intro p hp
  exact absurd (h.symm.trans hp) (by simp)

/-- `handle_response` takes the entry with the number of the packet. -/
theorem requestChange_handlePacket {j : ℕ} {p : Packet}
    (h : step maxIdle s (.handlePacket j p) = some (s.handlePacket j p)) :
    RequestChange s (.handlePacket j p) (s.handlePacket j p) := by
  have hhandled := handledBy_step h j
  cases hr : s.pendingRequests[p.sequence]? with
  | none =>
    have hsame : s.handleResponse p = s := by rw [handleResponse, hr]
    refine .same (fun q hq r hmem => ?_) (by rw [handlePacket, hsame]; rfl)
    obtain rfl := Option.some.inj hq
    exact absurd (hr.symm.trans hmem) (by simp)
  | some r =>
    -- the entry goes whatever the type, the verdict comes with the right one only
    refine .take p.sequence r
      (if r.expectedType = p.packetId then some ⟨r.call, p.payload, p.status, some p⟩ else none)
      hr ?_ ?_ ?_
    · constructor
      · intro hanswers htoSession
        rw [if_pos (hanswers p rfl r hr htoSession)]
        rfl
      · intro hsome q hq r' hr' htoSession
        obtain rfl := Option.some.inj hq
        obtain rfl := Option.some.inj (hr.symm.trans hr')
        by_contra hne
        exact absurd (hsome htoSession) (by rw [if_neg hne]; simp)
    · intro w hw
      split at hw
      · rename_i htype
        obtain rfl := Option.some.inj hw
        refine ⟨rfl, ⟨htype.symm, rfl, rfl, rfl⟩, fun q hq => ⟨j, s.now, ?_⟩⟩
        obtain rfl := Option.some.inj hq
        simp [hhandled, Event.handles]
      · exact absurd hw (by simp)
    · have hkeys := congrArg (·.2.1) (s.requests_updateTimer r.call Timer.cancel)
      simp only [handlePacket, handleResponse, hr, updateSession]
      show (_, (s.updateTimer r.call Timer.cancel).keys, _) = _
      rw [show (s.updateTimer r.call Timer.cancel).keys = s.keys from hkeys]
      split <;> rfl

/-- The handler of a timer takes the entry with the number of its call. -/
theorem requestChange_timeout (c : RequestCall) (timer : Timer Unit) :
    RequestChange s (.timeout k) ((s.updateTimer k fun _ => timer).onTimeout c.sequence) := by
  have htimer := s.requests_updateTimer k fun _ => timer
  rw [onTimeout]
  split
  · rename_i r hr
    refine .take c.sequence r (some ⟨r.call, [], pktTimeoutStatus, none⟩) hr ?_ ?_ ?_
    · exact iff_of_true (answers_of_no_packet rfl) fun _ => rfl
    · intro w hw
      obtain rfl := Option.some.inj hw
      exact ⟨rfl, ⟨rfl, rfl⟩, fun q hq => absurd hq (by simp)⟩
    · simp only [requests, Prod.mk.injEq] at htimer ⊢
      exact ⟨rfl, htimer.2.1, rfl⟩
  · exact .same (answers_of_no_packet rfl) htimer

/-- Every step is one of the changes. -/
theorem requestChange_of_step (h : step maxIdle s e = some t) : RequestChange s e t := by
  -- a step that leaves the requests alone and handles no packet
  have hsame (he : e.packet? = none) (hrequests : t.requests = s.requests) : RequestChange s e t :=
    .same (answers_of_no_packet he) hrequests
  cases stepped_of_step h with
  | handlePacket j p => exact requestChange_handlePacket h
  | readError j c => exact hsame rfl (s.requests_removeSession c.sessionId)
  | writeError j c => exact hsame rfl (requests_removeSession _ c.sessionId)
  | heartbeatTimeout j c => exact hsame rfl (requests_removeSession _ c.sessionId)
  | checkExpiredSessions =>
    have hexpire (s : Server) (id : UInt64) : (s.expireSession id).requests = s.requests := rfl
    exact hsame rfl (foldl_keeps hexpire s _)
  | sendRequest session requestType payload callback expectedType timeout =>
    refine .call ⟨session, expectedType, callback && expectedType ≠ 0, s.sequenceGenerator, false⟩
      (answers_of_no_packet rfl) rfl rfl rfl ?_
    simp only [requests, keys, sendRequest, List.map_append, List.map_cons, List.map_nil]
    split <;> rfl
  | register k c hcall =>
    obtain ⟨hc, hphase⟩ := callIn_eq_some hcall
    refine .register k c.key (answers_of_no_packet rfl) (getElem?_keys hc)
      (by simp [RequestCall.key, hphase]) ?_
    simp only [requests, keys, register, List.map_set]
    rfl
  | transmit k c hcall =>
    obtain ⟨hc, hphase⟩ := callIn_eq_some hcall
    exact hsame rfl (requests_transmit hc hphase)
  | expire k c timer => exact hsame rfl (s.requests_updateTimer k _)
  | timeout k c timer => exact requestChange_timeout c timer
  | _ => exact hsame rfl rfl

/-! ## Numbers -/

def numbers (s : Server) : ℕ × UInt32 := (s.drawn, s.sequenceGenerator)

/-- A step draws one number at most. -/
def DrawsOne (s t : Server) : Prop :=
  t.drawn = s.drawn ∧ t.sequenceGenerator = s.sequenceGenerator ∨
    t.drawn = s.drawn + 1 ∧ t.sequenceGenerator = s.sequenceGenerator + 1

/-- `remove_session` draws no number. -/
theorem drawsOne_removeSession (s : Server) (id : UInt64) : DrawsOne s (s.removeSession id) := by
  have hclose : DrawsOne s (s.closeSession id) := by
    rw [closeSession]
    split
    · split
      · exact Or.inr ⟨rfl, rfl⟩
      · exact Or.inl ⟨rfl, rfl⟩
    · exact Or.inl ⟨rfl, rfl⟩
  rw [removeSession]
  split <;> exact hclose

/-- Every step draws one number at most. -/
theorem drawsOne_step (h : step maxIdle s e = some t) : DrawsOne s t := by
  cases stepped_of_step h with
  | accepted => exact Or.inr ⟨rfl, rfl⟩
  | handlePacket j p =>
    left
    rw [handlePacket, handleResponse]
    split <;> exact ⟨rfl, rfl⟩
  | readError j c => exact s.drawsOne_removeSession c.sessionId
  | writeError j c => exact drawsOne_removeSession (s.updateSession j _) c.sessionId
  | heartbeatTimeout j c => exact drawsOne_removeSession (s.updateSession j _) c.sessionId
  | startHeartbeat => exact Or.inr ⟨rfl, rfl⟩
  | checkExpiredSessions =>
    have hexpire (s : Server) (id : UInt64) : (s.expireSession id).numbers = s.numbers := rfl
    exact Or.inl (Prod.mk.inj (foldl_keeps (g := numbers) hexpire s _))
  | sendRequest => exact Or.inr ⟨rfl, rfl⟩
  | transmit k c =>
    have hsend (s : Server) (j : ℕ) :
        (s.sendPacket j ⟨c.requestType, 0, c.sequence, c.payload⟩).numbers = s.numbers := rfl
    exact Or.inl (Prod.mk.inj (foldl_keeps (g := numbers) hsend { s with calls := _ } _))
  | timeout =>
    left
    rw [onTimeout]
    split <;> exact ⟨rfl, rfl⟩
  | _ => exact Or.inl ⟨rfl, rfl⟩

/-- In a run numbers are drawn and never given back. -/
theorem drawn_le_run {es : List Event} (h : run (step maxIdle) s es = some t) :
    s.drawn ≤ t.drawn := by
  refine run_induction (P := fun u => s.drawn ≤ u.drawn) (Nat.le_refl _) ?_ h
  intro u e u' hle hu
  rcases drawsOne_step hu with ⟨hdrawn, -⟩ | ⟨hdrawn, -⟩ <;> omega

/-- No two calls have the same number: a call has the number that was next when it was made. -/
structure Numbered (s : Server) : Prop where
  next : s.sequenceGenerator = 1 + UInt32.ofNat s.drawn
  lt : ∀ x ∈ s.keys, (x.sequence - 1).toNat < s.drawn
  nodup : (s.keys.map RequestKey.sequence).Nodup

/-- The number of a call. -/
theorem getElem?_sequences {x : RequestKey} (hx : s.keys[k]? = some x) :
    (s.keys.map RequestKey.sequence)[k]? = some x.sequence := by
  rw [List.getElem?_map, hx]
  rfl

/-- Entering a request does not change its number. -/
theorem sequences_set {x y : RequestKey} (hx : s.keys[k]? = some x)
    (hy : y.sequence = x.sequence) :
    (s.keys.set k y).map RequestKey.sequence = s.keys.map RequestKey.sequence := by
  obtain ⟨hlt, heq⟩ := List.getElem?_eq_some_iff.mp (getElem?_sequences hx)
  rw [List.map_set, hy, ← heq, List.set_getElem_self]

/-- As long as the counter has not gone round, a step draws a new number. -/
theorem Numbered.step (hI : Numbered s) (hbound : t.drawn < 2 ^ 32)
    (h : step maxIdle s e = some t) : Numbered t := by
  have hdraws := drawsOne_step h
  have hnext : t.sequenceGenerator = 1 + UInt32.ofNat t.drawn := by
    rcases hdraws with ⟨hdrawn, hgen⟩ | ⟨hdrawn, hgen⟩
    · rw [hgen, hdrawn, hI.next]
    · rw [hgen, hdrawn, hI.next, UInt32.ofNat_add, UInt32.add_assoc]
      rfl
  have hmono : s.drawn ≤ t.drawn := by rcases hdraws with ⟨hd, -⟩ | ⟨hd, -⟩ <;> omega
  -- the calls are the same, or at least their numbers are
  have hsame (hkeys : t.keys.map RequestKey.sequence = s.keys.map RequestKey.sequence) :
      Numbered t := by
    refine ⟨hnext, fun x hx => ?_, hkeys ▸ hI.nodup⟩
    obtain ⟨y, hy, hxy⟩ : ∃ y ∈ s.keys, y.sequence = x.sequence :=
      List.mem_map.mp (hkeys ▸ List.mem_map_of_mem hx)
    exact hxy ▸ Nat.lt_of_lt_of_le (hI.lt y hy) hmono
  cases requestChange_of_step h with
  | same _ hrequests => exact hsame (by rw [(of_requests_eq hrequests).2.1])
  | call x _ _ hsequence hdrawn hrequests =>
    have hkeys : t.keys = s.keys ++ [x] := (of_requests_eq hrequests).2.1
    have hindex : (x.sequence - 1).toNat = s.drawn := by
      have hsub : x.sequence - 1 = UInt32.ofNat s.drawn := by
        rw [hsequence, hI.next, UInt32.add_comm, UInt32.add_sub_cancel]
      rw [hsub]
      exact UInt32.toNat_ofNat_of_lt (show s.drawn < 2 ^ 32 by omega)
    refine ⟨hnext, fun y hy => ?_, ?_⟩
    · rw [hkeys] at hy
      rcases List.mem_append.mp hy with hy | hy
      · exact Nat.lt_of_lt_of_le (hI.lt y hy) hmono
      · obtain rfl := List.mem_singleton.mp hy
        omega
    · rw [hkeys, List.map_append, List.map_singleton]
      refine List.nodup_append.mpr ⟨hI.nodup, List.pairwise_singleton _ _, fun a ha b hb heq => ?_⟩
      obtain ⟨y, hy, rfl⟩ := List.mem_map.mp ha
      have hlt := hI.lt y hy
      rw [heq, List.mem_singleton.mp hb, hindex] at hlt
      omega
  | register k x _ hx _ hrequests =>
    refine hsame ?_
    rw [(of_requests_eq hrequests).2.1]
    exact sequences_set hx rfl
  | take _ _ _ _ _ _ hrequests =>
    exact hsame (by rw [(of_requests_eq hrequests).2.1])

/-- Calls with the same number are the same call. -/
theorem Numbered.unique (hI : Numbered s) {i j : ℕ} {x y : RequestKey} (hx : s.keys[i]? = some x)
    (hy : s.keys[j]? = some y) (heq : x.sequence = y.sequence) : i = j := by
  have hi := getElem?_sequences hx
  have hj := getElem?_sequences hy
  rw [← heq] at hj
  obtain ⟨hlt, -⟩ := List.getElem?_eq_some_iff.mp hi
  exact (List.getElem?_inj hlt hI.nodup).mp (hi.trans hj.symm)

/-! ## Pending requests -/

/-- A packet that has been handled stays so. -/
theorem Seen.step {v : Verdict} (hseen : s.Seen v) (h : step maxIdle s e = some t) : t.Seen v := by
  intro p hp
  obtain ⟨j, now, hmem⟩ := hseen p hp
  refine ⟨j, now, ?_⟩
  rw [handledBy_step h j]
  exact List.mem_append_left _ hmem

/-- A call has no verdict when no verdict is about it. -/
theorem verdictsOf_eq_zero_iff : s.verdictsOf k = 0 ↔ ∀ v ∈ s.verdicts, v.call ≠ k := by
  simp [verdictsOf, List.countP_eq_zero]

/-- A pending request is one of a call, which has no verdict yet; and the verdicts that there are,
are proper ones of calls. -/
structure Tracked (s : Server) : Prop where
  entries : ∀ (a : UInt32) (r : PendingRequest), s.pendingRequests[a]? = some r →
    (∃ x, s.keys[r.call]? = some x ∧ x.listed = true ∧ x.tracked = true ∧ x.sequence = a ∧
      x.expectedType = r.expectedType) ∧ s.verdictsOf r.call = 0
  made : ∀ v ∈ s.verdicts, ∃ x, s.keys[v.call]? = some x ∧ x.listed = true ∧
    v.Proper x.expectedType x.sequence ∧ s.Seen v

/-- A request that has not been entered has no verdict. -/
theorem Tracked.verdictsOf_of_not_listed (hI : Tracked s) {x : RequestKey}
    (hx : s.keys[k]? = some x) (hlisted : x.listed = false) : s.verdictsOf k = 0 := by
  rw [verdictsOf_eq_zero_iff]
  rintro v hv rfl
  obtain ⟨y, hy, hylisted, -⟩ := hI.made v hv
  obtain rfl := Option.some.inj (hx.symm.trans hy)
  exact absurd (hlisted.symm.trans hylisted) (by simp)

/-- What has been entered stays as it is. -/
theorem getElem?_keys_of_step {x : RequestKey} (h : step maxIdle s e = some t)
    (hx : s.keys[k]? = some x) (hlisted : x.listed = true) : t.keys[k]? = some x := by
  cases requestChange_of_step h with
  | same _ hrequests => rwa [(of_requests_eq hrequests).2.1]
  | call y _ _ _ _ hrequests =>
    rw [(of_requests_eq hrequests).2.1]
    exact getElem?_append_of_some hx [y]
  | register k' y _ hy hylisted hrequests =>
    rw [(of_requests_eq hrequests).2.1, List.getElem?_set_ne, hx]
    rintro rfl
    obtain rfl := Option.some.inj (hx.symm.trans hy)
    exact absurd (hylisted.symm.trans hlisted) (by simp)
  | take _ _ _ _ _ _ hrequests => rwa [(of_requests_eq hrequests).2.1]

/-- The verdicts that were there are proper ones still. -/
theorem Tracked.made_of_step (hI : Tracked s) (h : step maxIdle s e = some t) (v : Verdict)
    (hv : v ∈ s.verdicts) : ∃ x, t.keys[v.call]? = some x ∧ x.listed = true ∧
      v.Proper x.expectedType x.sequence ∧ t.Seen v := by
  obtain ⟨x, hx, hlisted, hproper, hseen⟩ := hI.made v hv
  exact ⟨x, getElem?_keys_of_step h hx hlisted, hlisted, hproper, hseen.step h⟩

/-- The entries that were there are those of their calls still. -/
theorem Tracked.entry_of_step (hI : Tracked s) (h : step maxIdle s e = some t) (a : UInt32)
    (r : PendingRequest) (hr : s.pendingRequests[a]? = some r) :
    ∃ x, t.keys[r.call]? = some x ∧ x.listed = true ∧ x.tracked = true ∧ x.sequence = a ∧
      x.expectedType = r.expectedType := by
  obtain ⟨⟨x, hx, hlisted, hsequence⟩, -⟩ := hI.entries a r hr
  exact ⟨x, getElem?_keys_of_step h hx hlisted, hlisted, hsequence⟩

/-- A verdict on the request with one number is none on a request with another. -/
theorem Tracked.call_ne (hI : Tracked s) {a b : UInt32} {r q : PendingRequest}
    (hr : s.pendingRequests[a]? = some r) (hq : s.pendingRequests[b]? = some q) (hne : a ≠ b) :
    r.call ≠ q.call := by
  intro heq
  obtain ⟨⟨x, hx, -, -, hxsequence, -⟩, -⟩ := hI.entries a r hr
  obtain ⟨⟨y, hy, -, -, hysequence, -⟩, -⟩ := hI.entries b q hq
  rw [heq] at hx
  obtain rfl := Option.some.inj (hx.symm.trans hy)
  exact hne (hxsequence.symm.trans hysequence)

/-- Every step keeps track of the entries. -/
theorem Tracked.step (hI : Tracked s) (h : step maxIdle s e = some t) : Tracked t := by
  have hold := hI.made_of_step h
  have hentry := hI.entry_of_step h
  have hsame (hpending : t.pendingRequests = s.pendingRequests)
      (hverdicts : t.verdicts = s.verdicts) : Tracked t := by
    refine ⟨fun a r hr => ?_, hverdicts ▸ hold⟩
    rw [hpending] at hr
    refine ⟨hentry a r hr, ?_⟩
    rw [verdictsOf, hverdicts]
    exact (hI.entries a r hr).2
  cases requestChange_of_step h with
  | same _ hrequests =>
    obtain ⟨hpending, -, hverdicts⟩ := of_requests_eq hrequests
    exact hsame hpending hverdicts
  | call x _ _ _ _ hrequests =>
    obtain ⟨hpending, -, hverdicts⟩ := of_requests_eq hrequests
    exact hsame hpending hverdicts
  | register k x _ hx hlisted hrequests =>
    obtain ⟨hpending, hkeys, hverdicts⟩ := of_requests_eq hrequests
    -- only a request with a callback and an expected type is entered
    cases htracked : x.tracked with
    | false => exact hsame (by rw [hpending, htracked]; rfl) hverdicts
    | true =>
      refine ⟨fun a r hr => ?_, hverdicts ▸ hold⟩
      rw [hpending, htracked, if_pos rfl, getElem?_insert_eq] at hr
      rw [verdictsOf, hverdicts]
      rcases lookupAfter_eq_some hr with hnew | ⟨-, hr⟩
      · obtain ⟨rfl, rfl⟩ := Prod.mk.inj (Option.some.inj hnew)
        refine ⟨⟨{ x with listed := true }, ?_, rfl, htracked, rfl, rfl⟩,
          hI.verdictsOf_of_not_listed hx hlisted⟩
        rw [hkeys, List.getElem?_set_self (List.getElem?_eq_some_iff.mp hx).1]
      · exact ⟨hentry a r hr, (hI.entries a r hr).2⟩
  | take sequence r v hr _ hv hrequests =>
    obtain ⟨hpending, hkeys, hverdicts⟩ := of_requests_eq hrequests
    obtain ⟨⟨x, hx, hlisted, -, hsequence, htype⟩, -⟩ := hI.entries sequence r hr
    refine ⟨fun a q hq => ?_, fun w hw => ?_⟩
    · rw [hpending, Std.TreeMap.getElem?_erase] at hq
      split at hq
      · exact absurd hq (by simp)
      · -- the other entries are of other calls, so the verdict is none of theirs
        rename_i hne
        refine ⟨hentry a q hq, ?_⟩
        rw [verdictsOf, hverdicts, List.countP_append, ← verdictsOf, (hI.entries a q hq).2,
          Nat.zero_add, List.countP_eq_zero]
        intro w hw
        rw [(hv w (Option.mem_toList.mp hw)).1, decide_eq_true_eq]
        exact hI.call_ne hr hq (by simpa using hne)
    · rw [hverdicts] at hw
      rcases List.mem_append.mp hw with hw | hw
      · exact hold w hw
      · obtain ⟨hwcall, hproper, hseen⟩ := hv w (Option.mem_toList.mp hw)
        refine ⟨x, ?_, hlisted, ?_, hseen⟩
        · rw [hwcall]
          exact getElem?_keys_of_step h hx hlisted
        · rwa [htype, hsequence]

/-! ## Exactly one verdict -/

/-- `Settled` for what matters of the calls. -/
def Balanced (s : Server) : Prop :=
  ∀ (k : ℕ) (x : RequestKey), s.keys[k]? = some x → x.session.isSome = true → x.tracked = true →
    x.listed = true →
    s.verdictsOf k = if Owned PendingRequest.call x.sequence k s.pendingRequests then 0 else 1

/-- `Settled` speaks of the keys of the calls only. -/
theorem settled_iff_balanced (hI : Tracked s) : Settled s ↔ Balanced s := by
  constructor
  · intro h k x hx hsession htracked hlisted
    rw [keys, List.getElem?_map] at hx
    obtain ⟨c, hc, rfl⟩ := Option.map_eq_some_iff.mp hx
    exact (h k c hc hsession htracked (of_decide_eq_true hlisted)).1
  · intro h k c hc hsession htracked hphase
    have hkey := getElem?_keys hc
    refine ⟨h k c.key hkey hsession htracked (decide_eq_true hphase), ?_⟩
    rintro v hv rfl
    obtain ⟨x, hx, -, hproper, hseen⟩ := hI.made v hv
    obtain rfl := Option.some.inj (hkey.symm.trans hx)
    exact ⟨hproper, hseen⟩

/-- The key of a call says whether it is for a session. -/
theorem toSession_eq {x : RequestKey} (hx : s.keys[k]? = some x) :
    s.toSession k = x.session.isSome := by
  rw [keys, List.getElem?_map] at hx
  obtain ⟨c, hc, rfl⟩ := Option.map_eq_some_iff.mp hx
  rw [toSession, hc]
  rfl

/-- Entering a request leaves the others alone, since their numbers are others. -/
theorem balanced_register {x : RequestKey} (hI : Tracked s) (hnumbered : Numbered s)
    (hbalanced : Balanced s) (hx : s.keys[k]? = some x) (hlisted : x.listed = false)
    (hrequests : t.requests =
      (if x.tracked then s.pendingRequests.insert x.sequence ⟨x.expectedType, k⟩
        else s.pendingRequests, s.keys.set k { x with listed := true }, s.verdicts)) :
    Balanced t := by
  obtain ⟨hpending, hkeys, hverdicts⟩ := of_requests_eq hrequests
  intro i y hy hsession htracked hylisted
  rw [verdictsOf, hverdicts, ← verdictsOf]
  rw [hkeys, List.getElem?_set] at hy
  split at hy
  · rename_i heq
    subst heq
    rw [if_pos (List.getElem?_eq_some_iff.mp hx).1] at hy
    obtain rfl := Option.some.inj hy
    have howned : Owned PendingRequest.call x.sequence k t.pendingRequests := by
      rw [hpending, if_pos htracked]
      exact ⟨⟨x.expectedType, k⟩, Std.TreeMap.getElem?_insert_self, rfl⟩
    rw [if_pos howned]
    exact hI.verdictsOf_of_not_listed hx hlisted
  · -- the numbers are different, so the entry of another call is not overwritten
    rename_i hne
    have hsequence : x.sequence ≠ y.sequence := fun heq => hne (hnumbered.unique hx hy heq)
    have hlookup : t.pendingRequests[y.sequence]? = s.pendingRequests[y.sequence]? := by
      rw [hpending]
      split
      · rw [getElem?_insert_eq, lookupAfter, if_neg hsequence]
        simp
      · rfl
    have howned : Owned PendingRequest.call y.sequence i t.pendingRequests ↔
        Owned PendingRequest.call y.sequence i s.pendingRequests := by
      rw [Owned, hlookup, Owned]
    rw [hbalanced i y hy hsession htracked hylisted]
    simp only [howned]

/-- Taking an entry out keeps the balance exactly when the callback is called, if the request is one
of `send_request_to_session`. -/
theorem balanced_take {sequence : UInt32} {r : PendingRequest} {v : Option Verdict}
    (hI : Tracked s) (hbalanced : Balanced s) (hr : s.pendingRequests[sequence]? = some r)
    (hv : ∀ w ∈ v, w.call = r.call)
    (hrequests : t.requests = (s.pendingRequests.erase sequence, s.keys, s.verdicts ++ v.toList)) :
    Balanced t ↔ (s.toSession r.call = true → v.isSome = true) := by
  obtain ⟨hpending, hkeys, hverdicts⟩ := of_requests_eq hrequests
  obtain ⟨⟨x, hx, hlisted, htracked, rfl, -⟩, hnone⟩ := hI.entries sequence r hr
  have hcount (i : ℕ) : t.verdictsOf i =
      s.verdictsOf i + if i = r.call ∧ v.isSome = true then 1 else 0 := by
    rw [verdictsOf, hverdicts, List.countP_append, ← verdictsOf]
    cases v with
    | none => simp
    | some w =>
      have hw := hv w rfl
      simp [List.countP_singleton, hw, eq_comm]
  have hgone : ¬ Owned PendingRequest.call x.sequence r.call t.pendingRequests := by
    rintro ⟨b, hb, -⟩
    rw [hpending, Std.TreeMap.getElem?_erase_self] at hb
    exact absurd hb (by simp)
  constructor
  · intro h htoSession
    have hone := h r.call x (hkeys ▸ hx) (toSession_eq hx ▸ htoSession) htracked hlisted
    rw [if_neg hgone, hcount, hnone] at hone
    by_contra hnot
    simp [hnot] at hone
  · intro h i y hy hsession hytracked hylisted
    rw [hkeys] at hy
    by_cases hi : i = r.call
    · subst hi
      obtain rfl := Option.some.inj (hx.symm.trans hy)
      rw [if_neg hgone, hcount, hnone, if_pos ⟨rfl, h (toSession_eq hx ▸ hsession)⟩]
    · have howned : Owned PendingRequest.call y.sequence i t.pendingRequests ↔
          Owned PendingRequest.call y.sequence i s.pendingRequests := by
        rw [Owned, hpending, Owned, Std.TreeMap.getElem?_erase]
        by_cases heq : x.sequence = y.sequence
        · -- the entry that was there was not of this call
          simp [← heq, hr, Ne.symm hi]
        · simp [heq]
      rw [hcount, hbalanced i y hy hsession hytracked hylisted]
      simp only [howned, hi, false_and, if_false, Nat.add_zero]

/-- A step keeps the balance exactly when it does not take a packet of another type for an
answer. -/
theorem balanced_step (hI : Tracked s) (hnumbered : Numbered s) (hbalanced : Balanced s)
    (h : step maxIdle s e = some t) : Balanced t ↔ Answers s e := by
  cases requestChange_of_step h with
  | same hanswers hrequests =>
    obtain ⟨hpending, hkeys, hverdicts⟩ := of_requests_eq hrequests
    refine iff_of_true ?_ hanswers
    unfold Balanced verdictsOf
    rwa [hpending, hkeys, hverdicts]
  | call x hanswers hlisted _ _ hrequests =>
    obtain ⟨hpending, hkeys, hverdicts⟩ := of_requests_eq hrequests
    refine iff_of_true (fun k y hy hsession htracked hylisted => ?_) hanswers
    rw [verdictsOf, hverdicts, hpending]
    rw [hkeys, List.getElem?_append] at hy
    split at hy
    · exact hbalanced k y hy hsession htracked hylisted
    · obtain rfl := List.mem_singleton.mp (List.mem_of_getElem? hy)
      exact absurd (hlisted.symm.trans hylisted) (by simp)
  | register k x hanswers hx hlisted hrequests =>
    exact iff_of_true (balanced_register hI hnumbered hbalanced hx hlisted hrequests) hanswers
  | take sequence r v hr hanswers hv hrequests =>
    rw [hanswers]
    exact balanced_take hI hbalanced hr (fun w hw => (hv w hw).1) hrequests

/-- Nothing is pending at the start. -/
theorem tracked_init : Tracked {} :=
  ⟨fun a r hr => absurd hr (by simp), fun v hv => absurd hv (by simp)⟩

/-- There are no calls at the start. -/
theorem numbered_init : Numbered {} :=
  ⟨rfl, fun x hx => absurd hx (by simp [keys]), List.Pairwise.nil⟩

/-- There are no calls at the start. -/
theorem settled_init : Settled {} := by
  intro k c hc
  exact absurd hc (by simp)

/-- While fewer than 2^32 numbers are drawn, every request that `send_request_to_session` has
entered gets exactly one verdict when it is taken out, and none before, exactly when no packet of
another type than the expected one comes in with the number of such a request while it is pending.
-/
theorem settled_iff {es : List Event} {u : Server} (h : run (step maxIdle) {} es = some u)
    (hdrawn : u.drawn < 2 ^ 32) :
    EveryState (step maxIdle) {} es Settled ↔ EveryStep (step maxIdle) {} es Answers := by
  refine everyState_iff_everyStep (I := fun s => Tracked s ∧ Numbered s) settled_init
    ⟨tracked_init, numbered_init⟩ ?_ ?_ h
  · rintro s e t - ⟨fs, hfs⟩ ⟨hI, hnumbered⟩ hst
    have hbound := drawn_le_run hfs
    exact ⟨hI.step hst, hnumbered.step (by omega) hst⟩
  · rintro s e t - - ⟨hI, hnumbered⟩ hsettled hst
    rw [settled_iff_balanced (hI.step hst)]
    exact balanced_step hI hnumbered ((settled_iff_balanced hI).mp hsettled) hst

/-- A session is accepted, and a request is sent to it; it gets the number 2. -/
def oneRequest : List Event :=
  [.accept false, .sendRequest (some 1) pktSubmitReq [5] true pktSubmitResp 30, .register 0,
    .transmit 0]

/-- The peer answers the request, and the timer of the request can expire no more. -/
theorem settled_iff_answered : ∃ u, run (step 300) {} (oneRequest ++
    [.handlePacket 0 ⟨pktSubmitResp, 0, 2, [7]⟩, .tick 30]) = some u ∧ u.drawn < 2 ^ 32 ∧
    Settled u ∧ u.verdicts = [⟨0, [7], 0, some ⟨pktSubmitResp, 0, 2, [7]⟩⟩] := by
  obtain ⟨u, hrun, hdrawn, hverdicts⟩ : ∃ u, run (step 300) {} (oneRequest ++
      [.handlePacket 0 ⟨pktSubmitResp, 0, 2, [7]⟩, .tick 30]) = some u ∧ u.drawn < 2 ^ 32 ∧
      u.verdicts = [⟨0, [7], 0, some ⟨pktSubmitResp, 0, 2, [7]⟩⟩] :=
    ⟨_, rfl, by decide, by decide⟩
  exact ⟨u, hrun, hdrawn, ((settled_iff hrun hdrawn).mpr (by decide)).last hrun, hverdicts⟩

/-- The peer sends a request of its own, which happens to have the number 2. The server's request is
no longer pending, and its callback has not been called; neither the answer of the peer, nor the
timer, which has been cancelled, makes up for it. -/
theorem request_without_verdict : ∃ u, run (step 300) {} (oneRequest ++
    [.handlePacket 0 ⟨pktSubmitReq, 0, 2, []⟩, .handlePacket 0 ⟨pktSubmitResp, 0, 2, [7]⟩,
      .tick 30]) = some u ∧ u.drawn < 2 ^ 32 ∧ step 300 u (.expire 0) = none ∧ u.verdicts = [] ∧
      ¬ Settled u := by
  refine ⟨_, rfl, by decide, by decide, by decide, fun h => ?_⟩
  exact absurd (h 0 _ rfl (by decide) (by decide) (by decide)).1 (by decide)

end Server

end TurboNet.Qwen
