import TurboNet.Qwen.Server

/-!
# Counting sessions

Reference: `qwen/server.cpp`, `server::remove_session`, `server::check_expired_sessions`, the
handler of `server::start_accept`.

The three tables of the server always have the same ids, and `active_sessions_count_` should be how
many these are. `check_expired_sessions` counts down once for each session it takes out.
`remove_session` counts down whether it finds a session or not, and it is called once for each read,
write or heartbeat of a session that fails: after `graceful_close` has shut down the socket a read
will. `sessions_accounted_iff` says that this is the only way to lose count, as long as no session
gets an id that is still in use.
-/

namespace TurboNet.Qwen

open Common

namespace Server

variable {maxIdle : ℤ} {s t t' : Server} {e : Event} {id : UInt64}

/-- The tables of sessions and their count. -/
def registry (s : Server) : Std.TreeMap UInt64 ℕ × Std.TreeMap UInt64 SessionMetadata ×
    Std.TreeMap UInt64 ℕ × ℤ :=
  (s.sessions, s.sessionMetadata, s.sessionStartTimes, s.activeSessionsCount)

/-- The three tables have the same ids. -/
structure SameIds (s : Server) : Prop where
  metadata : ∀ id, s.sessionMetadata.contains id = s.sessions.contains id
  startTimes : ∀ id, s.sessionStartTimes.contains id = s.sessions.contains id

/-- The three tables have the same ids, and `active_sessions_count_` is how many these are. -/
structure Accounted (s : Server) : Prop extends SameIds s where
  count : s.activeSessionsCount = s.sessions.size

/-- The id that an event passes to `remove_session`. -/
def removedBy (s : Server) : Event → Option UInt64
  | .readError j => (s.readingAt j).map Session.sessionId
  | .writeError j => (s.writingAt j).map Session.sessionId
  | .heartbeatTimeout j => s.objects[j]?.map Session.sessionId
  | _ => none

/-- `remove_session` finds its session, and a new session gets an id that is not in use. -/
def Orderly (s : Server) (e : Event) : Prop :=
  (∀ id ∈ s.removedBy e, s.sessions.contains id = true) ∧
    (e = .accept false → s.sessions.contains s.nextSessionId = false)

instance (s : Server) (e : Event) : Decidable (Orderly s e) :=
  -- the ids are a finite type, whose instance would go through all of them
  @instDecidableAnd (∀ id ∈ s.removedBy e, s.sessions.contains id = true)
    (e = .accept false → s.sessions.contains s.nextSessionId = false)
    (Option.decidableForallMem _) inferInstance

/-- `SameIds` looks at the tables only. -/
theorem sameIds_congr (h : t.registry = s.registry) : SameIds t ↔ SameIds s := by
  simp only [registry, Prod.mk.injEq] at h
  obtain ⟨hsessions, hmetadata, hstart, -⟩ := h
  constructor
  · rintro ⟨hm, hs⟩
    rw [hsessions, hmetadata] at hm
    rw [hsessions, hstart] at hs
    exact ⟨hm, hs⟩
  · rintro ⟨hm, hs⟩
    rw [← hsessions, ← hmetadata] at hm
    rw [← hsessions, ← hstart] at hs
    exact ⟨hm, hs⟩

/-- `Accounted` looks at the tables and the count only. -/
theorem accounted_congr (h : t.registry = s.registry) : Accounted t ↔ Accounted s := by
  have hsame := sameIds_congr h
  simp only [registry, Prod.mk.injEq] at h
  obtain ⟨hsessions, -, -, hcount⟩ := h
  constructor
  · rintro ⟨hids, hsize⟩
    exact ⟨hsame.mp hids, by rw [← hcount, ← hsessions, hsize]⟩
  · rintro ⟨hids, hsize⟩
    exact ⟨hsame.mpr hids, by rw [hcount, hsessions, hsize]⟩

/-! ## What the operations do to the tables -/

/-- `handle_response` leaves the tables of sessions alone. -/
theorem registry_handleResponse (s : Server) (p : Packet) :
    (s.handleResponse p).registry = s.registry := by
  rw [handleResponse]
  split <;> rfl

/-- The timer of a request leaves the tables of sessions alone. -/
theorem registry_onTimeout (s : Server) (sequence : UInt32) :
    (s.onTimeout sequence).registry = s.registry := by
  rw [onTimeout]
  split <;> rfl

/-- To send a packet leaves the tables of sessions alone. -/
theorem registry_transmit (s : Server) (k : ℕ) (c : RequestCall) :
    (s.transmit k c).registry = s.registry := by
  have hsend (s : Server) (j : ℕ) :
      (s.sendPacket j ⟨c.requestType, 0, c.sequence, c.payload⟩).registry = s.registry := rfl
  rw [transmit, foldl_keeps hsend]
  rfl

/-- To close a session takes it out of `sessions_`. -/
theorem registry_closeSession (s : Server) (id : UInt64) :
    (s.closeSession id).registry =
      (if s.sessions.contains id then s.sessions.erase id else s.sessions, s.sessionMetadata,
        s.sessionStartTimes, s.activeSessionsCount) := by
  rw [closeSession, Std.TreeMap.contains_eq_isSome_getElem?]
  split
  · rename_i j hj
    rw [hj]
    split <;> rfl
  · rename_i hnone
    rw [hnone]
    rfl

/-- `remove_session` takes the id out of the tables, and counts down in any case. -/
theorem registry_removeSession (hids : SameIds s) (id : UInt64) :
    (s.removeSession id).registry =
      if s.sessions.contains id then
        (s.sessions.erase id, s.sessionMetadata.erase id, s.sessionStartTimes.erase id,
          s.activeSessionsCount - 1)
      else (s.sessions, s.sessionMetadata, s.sessionStartTimes, s.activeSessionsCount - 1) := by
  have hclose := s.registry_closeSession id
  rw [removeSession]
  generalize s.closeSession id = c at hclose ⊢
  simp only [registry, Prod.mk.injEq] at hclose
  obtain ⟨hsessions, hmetadata, hstart, hcount⟩ := hclose
  cases hfound : s.sessions.contains id with
  | false =>
    rw [hfound, if_neg (by simp)] at hsessions
    rw [if_neg (by simp [hmetadata, hids.metadata, hfound])]
    simp [registry, hsessions, hmetadata, hstart, hcount]
  | true =>
    rw [hfound, if_pos rfl] at hsessions
    rw [if_pos (by rw [hmetadata, hids.metadata, hfound])]
    simp [registry, hsessions, hmetadata, hstart, hcount]

/-! ## Removing, accepting, expiring -/

/-- An id is taken out of all three tables. -/
theorem SameIds.erase (hids : SameIds s) {id : UInt64} {n : ℤ}
    (h : t.registry = (s.sessions.erase id, s.sessionMetadata.erase id,
      s.sessionStartTimes.erase id, n)) : SameIds t := by
  simp only [registry, Prod.mk.injEq] at h
  obtain ⟨hsessions, hmetadata, hstart, -⟩ := h
  constructor
  · intro a
    rw [hmetadata, hsessions, Std.TreeMap.contains_erase, Std.TreeMap.contains_erase,
      hids.metadata]
  · intro a
    rw [hstart, hsessions, Std.TreeMap.contains_erase, Std.TreeMap.contains_erase,
      hids.startTimes]

/-- A table with an entry is not empty. -/
theorem size_ne_zero_of_contains (h : s.sessions.contains id = true) : s.sessions.size ≠ 0 := by
  intro hzero
  have hempty := Std.TreeMap.isEmpty_eq_false_of_contains h
  rw [Std.TreeMap.isEmpty_eq_size_eq_zero, hzero] at hempty
  exact absurd hempty (by simp)

/-- Taking out an id that is there and counting down. -/
theorem Accounted.erase (hI : Accounted s) (hid : s.sessions.contains id = true)
    (h : t.registry = (s.sessions.erase id, s.sessionMetadata.erase id,
      s.sessionStartTimes.erase id, s.activeSessionsCount - 1)) : Accounted t := by
  have hids := hI.toSameIds.erase h
  simp only [registry, Prod.mk.injEq] at h
  obtain ⟨hsessions, -, -, hcount⟩ := h
  have hpos := size_ne_zero_of_contains hid
  refine ⟨hids, ?_⟩
  rw [hcount, hsessions, Std.TreeMap.size_erase, if_pos hid, hI.count]
  omega

/-- `remove_session` takes its id out of all three tables. -/
theorem SameIds.removeSession (hids : SameIds s) (id : UInt64) : SameIds (s.removeSession id) := by
  have hremove := registry_removeSession hids id
  split at hremove
  · exact hids.erase hremove
  · simp only [registry, Prod.mk.injEq] at hremove
    obtain ⟨hsessions, hmetadata, hstart, -⟩ := hremove
    constructor
    · intro a
      rw [hmetadata, hsessions, hids.metadata]
    · intro a
      rw [hstart, hsessions, hids.startTimes]

/-- `remove_session` keeps the count exactly when it finds the session. -/
theorem accounted_removeSession_iff (hI : Accounted s) (id : UInt64) :
    Accounted (s.removeSession id) ↔ s.sessions.contains id = true := by
  have hremove := registry_removeSession hI.toSameIds id
  split at hremove
  · rename_i hid
    exact iff_of_true (hI.erase hid hremove) hid
  · rename_i hid
    refine iff_of_false (fun hJ => ?_) hid
    simp only [registry, Prod.mk.injEq] at hremove
    obtain ⟨hsessions, -, -, hcount⟩ := hremove
    have hsize := hJ.count
    rw [hcount, hsessions, hI.count] at hsize
    omega

/-- A new session is entered into all three tables. -/
theorem SameIds.accepted (hids : SameIds s) : SameIds s.accepted where
  metadata id := by
    show (s.sessionMetadata.insert s.nextSessionId _).contains id =
      (s.sessions.insert s.nextSessionId _).contains id
    rw [Std.TreeMap.contains_insert, Std.TreeMap.contains_insert, hids.metadata]
  startTimes id := by
    show (s.sessionStartTimes.insert s.nextSessionId _).contains id =
      (s.sessions.insert s.nextSessionId _).contains id
    rw [Std.TreeMap.contains_insert, Std.TreeMap.contains_insert, hids.startTimes]

/-- A new session keeps the count exactly when its id is not in use. -/
theorem accounted_accepted_iff (hI : Accounted s) :
    Accounted s.accepted ↔ s.sessions.contains s.nextSessionId = false := by
  have hsize : s.accepted.sessions.size =
      if s.sessions.contains s.nextSessionId then s.sessions.size else s.sessions.size + 1 :=
    Std.TreeMap.size_insert
  have hcount : s.accepted.activeSessionsCount = s.activeSessionsCount + 1 := rfl
  have hold := hI.count
  constructor
  · intro hJ
    have hnew := hJ.count
    by_contra hid
    rw [hsize, if_pos (by simpa using hid), hcount] at hnew
    omega
  · intro hid
    refine ⟨hI.toSameIds.accepted, ?_⟩
    rw [hsize, if_neg (by simp [hid]), hcount]
    omega

/-- A sweep over ids that are all there, each of them once. -/
theorem Accounted.foldl_expireSession {ids : List UInt64} (hI : Accounted s) (hnodup : ids.Nodup)
    (hids : ∀ id ∈ ids, s.sessions.contains id = true) :
    Accounted (ids.foldl expireSession s) := by
  induction ids generalizing s with
  | nil => exact hI
  | cons id ids ih =>
    obtain ⟨hid, hrest⟩ := List.forall_mem_cons.mp hids
    obtain ⟨hnotin, hnodup⟩ := List.nodup_cons.mp hnodup
    refine ih (hI.erase hid rfl) hnodup fun a ha => ?_
    have hne : id ≠ a := fun heq => hnotin (heq ▸ ha)
    show (s.sessions.erase id).contains a = true
    rw [Std.TreeMap.contains_erase, hrest a ha]
    simpa using hne

/-- Sessions that have expired are taken out of all three tables. -/
theorem SameIds.foldl_expireSession (hids : SameIds s) (ids : List UInt64) :
    SameIds (ids.foldl expireSession s) := by
  induction ids generalizing s with
  | nil => exact hids
  | cons id ids ih => exact ih (hids.erase rfl)

/-- `check_expired_sessions` counts down once for each session that it takes out. -/
theorem Accounted.checkExpiredSessions (hI : Accounted s) (maxIdle : ℤ) :
    Accounted (s.checkExpiredSessions maxIdle) := by
  refine hI.foldl_expireSession (nodup_keysWhere _ _) fun id hid => ?_
  obtain ⟨m, hm, -⟩ := mem_keysWhere.mp hid
  rw [← hI.metadata, Std.TreeMap.contains_eq_isSome_getElem?, hm]
  rfl

/-! ## Steps and runs -/

/-- What a step does to the tables. -/
inductive RegistryChange (maxIdle : ℤ) (s : Server) (e : Event) (t : Server) : Prop where
  | same (hremoved : s.removedBy e = none) (he : e ≠ .accept false)
      (hregistry : t.registry = s.registry)
  | accept (he : e = .accept false) (hregistry : t.registry = s.accepted.registry)
  | remove (id : UInt64) (s' : Server) (hs' : s'.registry = s.registry)
      (hremoved : s.removedBy e = some id) (he : e ≠ .accept false)
      (hregistry : t.registry = (s'.removeSession id).registry)
  | expire (hremoved : s.removedBy e = none) (he : e ≠ .accept false)
      (hregistry : t.registry = (s.checkExpiredSessions maxIdle).registry)

/-- Every step is one of the changes. -/
theorem registryChange_of_step (h : step maxIdle s e = some t) : RegistryChange maxIdle s e t := by
  cases stepped_of_step h with
  | accepted => exact .accept rfl rfl
  | handlePacket j p => exact .same rfl (by simp) (s.registry_handleResponse p)
  | readError j c hc =>
    exact .remove c.sessionId s rfl (by rw [removedBy, hc]; rfl) (by simp) rfl
  | writeError j c hc =>
    exact .remove c.sessionId (s.updateSession j _) rfl (by rw [removedBy, hc]; rfl) (by simp) rfl
  | heartbeatTimeout j c timer hc =>
    exact .remove c.sessionId (s.updateSession j _) rfl (by rw [removedBy, hc]; rfl) (by simp) rfl
  | checkExpiredSessions => exact .expire rfl (by simp) rfl
  | transmit k c => exact .same rfl (by simp) (s.registry_transmit k c)
  | timeout k c timer =>
    exact .same rfl (by simp) (registry_onTimeout (s.updateTimer k fun _ => timer) c.sequence)
  | _ => exact .same rfl (by simp) rfl

/-- In every step the tables keep the same ids. -/
theorem SameIds.step (hids : SameIds s) (h : step maxIdle s e = some t) : SameIds t := by
  cases registryChange_of_step h with
  | same _ _ hregistry => exact (sameIds_congr hregistry).mpr hids
  | accept _ hregistry => exact (sameIds_congr hregistry).mpr hids.accepted
  | remove id s' hs' _ _ hregistry =>
    exact (sameIds_congr hregistry).mpr (((sameIds_congr hs').mpr hids).removeSession id)
  | expire _ _ hregistry => exact (sameIds_congr hregistry).mpr (hids.foldl_expireSession _)

/-- A step keeps the count exactly when it is orderly. -/
theorem accounted_step_iff (hI : Accounted s) (h : step maxIdle s e = some t) :
    Accounted t ↔ Orderly s e := by
  cases registryChange_of_step h with
  | same hremoved he hregistry =>
    rw [accounted_congr hregistry]
    exact iff_of_true hI ⟨by simp [hremoved], fun h => absurd h he⟩
  | accept he hregistry =>
    subst he
    rw [accounted_congr hregistry, accounted_accepted_iff hI]
    simp [Orderly, removedBy]
  | remove id s' hs' hremoved he hregistry =>
    have hsessions : s'.sessions = s.sessions := (Prod.mk.inj hs').1
    rw [accounted_congr hregistry, accounted_removeSession_iff ((accounted_congr hs').mpr hI),
      hsessions]
    simp [Orderly, hremoved, he]
  | expire hremoved he hregistry =>
    rw [accounted_congr hregistry]
    exact iff_of_true (hI.checkExpiredSessions maxIdle) ⟨by simp [hremoved], fun h => absurd h he⟩

/-- There are no sessions at the start. -/
theorem accounted_start : Accounted {} where
  metadata _ := by simp
  startTimes _ := by simp
  count := rfl

/-- **Session accounting.** In every state of a run the three tables have the same ids; and
`active_sessions_count_` is always their number exactly when every `remove_session` of the run finds
its session, and every new session gets an id that is not in use. -/
theorem sessions_accounted_iff (maxIdle : ℤ) (es : List Event) (u : Server)
    (h : run (step maxIdle) {} es = some u) :
    EveryState (step maxIdle) {} es SameIds ∧
      (EveryState (step maxIdle) {} es Accounted ↔ EveryStep (step maxIdle) {} es Orderly) := by
  constructor
  · intro pre post t _ ht
    exact run_induction accounted_start.toSameIds (fun _ _ _ hids hstep => hids.step hstep) ht
  · exact everyState_iff_everyStep (I := fun _ => True) accounted_start trivial
      (fun _ _ _ _ _ _ _ => trivial) (fun _ _ _ _ _ _ hI ht => accounted_step_iff hI ht) h

/-- Two sessions, of which the first one fails once. -/
theorem sessions_accounted_iff_one_failure :
    ∃ u, run (step 300) {} [.accept false, .accept false, .readError 0] = some u ∧
      u.activeSessionsCount = 1 ∧
      EveryState (step 300) {} [.accept false, .accept false, .readError 0] Accounted := by
  obtain ⟨u, hrun, hcount⟩ :
      ∃ u, run (step 300) {} [.accept false, .accept false, .readError 0] = some u ∧
        u.activeSessionsCount = 1 := ⟨_, rfl, rfl⟩
  exact ⟨u, hrun, hcount, (sessions_accounted_iff 300 _ u hrun).2.mpr (by decide)⟩

/-- A heartbeat is not answered. `remove_session` shuts the socket down, the read of the session
fails, and its handler calls `remove_session` again: of no session at all -1 are active. -/
theorem session_removed_twice :
    ∃ u, run (step 300) {} [.accept false, .tick 10, .heartbeatExpire 0, .heartbeatTimeout 0,
        .readError 0] = some u ∧
      u.sessions.size = 0 ∧ u.activeSessionsCount = -1 ∧
      ¬ EveryState (step 300) {} [.accept false, .tick 10, .heartbeatExpire 0, .heartbeatTimeout 0,
        .readError 0] Accounted := by
  obtain ⟨u, hrun, hsize, hcount⟩ :
      ∃ u, run (step 300) {} [.accept false, .tick 10, .heartbeatExpire 0, .heartbeatTimeout 0,
          .readError 0] = some u ∧ u.sessions.size = 0 ∧ u.activeSessionsCount = -1 :=
    ⟨_, rfl, rfl, rfl⟩
  refine ⟨u, hrun, hsize, hcount, fun h => ?_⟩
  have hlast := (h.last hrun).count
  rw [hsize, hcount] at hlast
  exact absurd hlast (by decide)

end Server

end TurboNet.Qwen
