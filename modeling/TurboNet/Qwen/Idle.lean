import TurboNet.Qwen.Accounting

/-!
# Idle sessions of the qwen server

Reference: `qwen/server.cpp`, `server::check_expired_sessions`, `server::update_last_active_time`,
`session::handle_packet`.

`check_expired_sessions` takes out the sessions whose `last_active_time` is too long ago. Nothing
calls `update_last_active_time`, so this is the time at which the session was accepted, however many
packets it has handled since. `sparesActive_iff` says what is left of the promise that an active
session stays: it does exactly while it has not been connected for too long.
-/

namespace TurboNet.Qwen.Server

open Common

variable {maxIdle : ℤ} {s t : Server} {e : Event} {id : UInt64}

/-- The session at place `j` has handled a packet in the last `maxIdle` seconds. -/
def ActiveWithin (maxIdle : ℤ) (s : Server) (j : ℕ) : Prop :=
  ∃ x ∈ s.handledBy j, (s.now : ℤ) - x.1 ≤ maxIdle

instance (j : ℕ) : Decidable (s.ActiveWithin maxIdle j) :=
  inferInstanceAs (Decidable (∃ x ∈ s.handledBy j, (s.now : ℤ) - x.1 ≤ maxIdle))

/-- If the event is a sweep, it leaves the sessions that have been active. -/
def SparesActive (maxIdle : ℤ) (s : Server) (e : Event) : Prop :=
  e = .checkExpiredSessions → ∀ t, step maxIdle s e = some t →
    ∀ (id : UInt64) (j : ℕ), s.sessions[id]? = some j → s.ActiveWithin maxIdle j →
      t.sessions[id]? = some j

/-- If the event is a sweep, it finds no session that has been active and was accepted more than
`maxIdle` seconds ago. -/
def LatelyConnected (maxIdle : ℤ) (s : Server) (e : Event) : Prop :=
  e = .checkExpiredSessions → ∀ (id : UInt64) (j : ℕ), s.sessions[id]? = some j →
    s.ActiveWithin maxIdle j →
    ∀ m ∈ s.sessionMetadata[id]?, (s.now : ℤ) - m.connectionTime ≤ maxIdle

/-! ## What a sweep takes out -/

/-- The sessions that have expired are erased from `sessions_`. -/
theorem sessions_foldl_expireSession (s : Server) (ids : List UInt64) :
    (ids.foldl expireSession s).sessions = eraseAll s.sessions ids := by
  induction ids generalizing s with
  | nil => rfl
  | cons id ids ih => exact ih (s.expireSession id)

/-- Their data are erased with them. -/
theorem sessionMetadata_foldl_expireSession (s : Server) (ids : List UInt64) :
    (ids.foldl expireSession s).sessionMetadata = eraseAll s.sessionMetadata ids := by
  induction ids generalizing s with
  | nil => rfl
  | cons id ids ih => exact ih (s.expireSession id)

/-- A session stays if it has not been idle for too long. -/
theorem getElem?_sessions_checkExpiredSessions (s : Server) (id : UInt64) :
    (s.checkExpiredSessions maxIdle).sessions[id]? =
      if ∃ m, s.sessionMetadata[id]? = some m ∧ s.idleTooLong maxIdle m = true then none
      else s.sessions[id]? := by
  rw [checkExpiredSessions, sessions_foldl_expireSession, getElem?_eraseAll]
  simp only [mem_keysWhere]

/-! ## The time of the last activity -/

/-- The time of the last activity is still the one at which the session was accepted. -/
def Unrefreshed (s : Server) : Prop :=
  ∀ (id : UInt64) (m : SessionMetadata), s.sessionMetadata[id]? = some m →
    m.lastActiveTime = m.connectionTime

/-- Taking entries out does not refresh any. -/
theorem Unrefreshed.eraseAll (hs : Unrefreshed s) (ids : List UInt64)
    (h : t.sessionMetadata = eraseAll s.sessionMetadata ids) : Unrefreshed t := by
  intro id m hm
  rw [h, getElem?_eraseAll] at hm
  split at hm
  · exact absurd hm (by simp)
  · exact hs id m hm

/-- No step refreshes the time of a session. -/
theorem Unrefreshed.step (hs : Unrefreshed s) (hids : SameIds s) (h : step maxIdle s e = some t) :
    Unrefreshed t := by
  cases registryChange_of_step h with
  | same _ _ hregistry => exact hs.eraseAll [] (Prod.mk.inj (Prod.mk.inj hregistry).2).1
  | accept _ hregistry =>
    intro id m hm
    rw [(Prod.mk.inj (Prod.mk.inj hregistry).2).1] at hm
    have hinsert : s.accepted.sessionMetadata =
      s.sessionMetadata.insert s.nextSessionId ⟨s.now, s.now⟩ := rfl
    rw [hinsert, getElem?_insert_eq] at hm
    -- a new session has both its times from the clock
    rcases lookupAfter_eq_some hm with hnew | ⟨-, hm⟩
    · obtain ⟨-, rfl⟩ := Prod.mk.inj (Option.some.inj hnew)
      rfl
    · exact hs id m hm
  | remove id s' hs' _ _ hregistry =>
    have hmetadata := (Prod.mk.inj (Prod.mk.inj hregistry).2).1
    have hbefore := (Prod.mk.inj (Prod.mk.inj hs').2).1
    have hremove := registry_removeSession ((sameIds_congr hs').mpr hids) id
    split at hremove
    · refine hs.eraseAll [id] ?_
      rw [hmetadata, (Prod.mk.inj (Prod.mk.inj hremove).2).1, hbefore]
      rfl
    · refine hs.eraseAll [] ?_
      rw [hmetadata, (Prod.mk.inj (Prod.mk.inj hremove).2).1, hbefore]
      rfl
  | expire _ _ hregistry =>
    refine hs.eraseAll (keysWhere s.sessionMetadata (s.idleTooLong maxIdle)) ?_
    rw [(Prod.mk.inj (Prod.mk.inj hregistry).2).1, checkExpiredSessions,
      sessionMetadata_foldl_expireSession]

/-! ## Active sessions -/

/-- One sweep: what counts is when the sessions were accepted. -/
theorem sparesActive_iff_latelyConnected (hs : Unrefreshed s) :
    SparesActive maxIdle s e ↔ LatelyConnected maxIdle s e := by
  have hidle {id : UInt64} {m : SessionMetadata} (hm : s.sessionMetadata[id]? = some m) :
      s.idleTooLong maxIdle m = true ↔ ¬ (s.now : ℤ) - m.connectionTime ≤ maxIdle := by
    rw [idleTooLong, decide_eq_true_eq, hs id m hm, not_le]
  constructor
  · rintro h rfl id j hj hactive m hm
    have hstays := h rfl _ rfl id j hj hactive
    rw [getElem?_sessions_checkExpiredSessions] at hstays
    by_contra hlong
    rw [if_pos ⟨m, hm, (hidle hm).mpr hlong⟩] at hstays
    exact absurd hstays (by simp)
  · rintro h rfl t ht id j hj hactive
    obtain rfl := Option.some.inj ht
    rw [getElem?_sessions_checkExpiredSessions, if_neg, hj]
    rintro ⟨m, hm, htoo⟩
    exact (hidle hm).mp htoo (h rfl id j hj hactive m hm)

/-- There are no sessions at the start. -/
theorem unrefreshed_start : Unrefreshed {} := by
  intro id m hm
  exact absurd hm (by simp)

/-- **Active sessions.** No sweep of a run takes out a session that has handled a packet in the last
`maxIdle` seconds, exactly when every sweep finds all such sessions accepted in the last `maxIdle`
seconds. -/
theorem sparesActive_iff (maxIdle : ℤ) (es : List Event) :
    EveryStep (step maxIdle) {} es (SparesActive maxIdle) ↔
      EveryStep (step maxIdle) {} es (LatelyConnected maxIdle) := by
  have hreach {pre : List Event} {t : Server} (ht : run (step maxIdle) {} pre = some t) :
      Unrefreshed t := by
    refine (run_induction (P := fun t => Unrefreshed t ∧ SameIds t)
      ⟨unrefreshed_start, accounted_start.toSameIds⟩ ?_ ht).1
    rintro s e s' ⟨hs, hids⟩ hstep
    exact ⟨hs.step hids hstep, hids.step hstep⟩
  constructor
  · intro h pre e post t heq ht
    exact (sparesActive_iff_latelyConnected (hreach ht)).mp (h pre e post t heq ht)
  · intro h pre e post t heq ht
    exact (sparesActive_iff_latelyConnected (hreach ht)).mpr (h pre e post t heq ht)

/-- A session that answers its heartbeats, and the sweep after 30 seconds. It has last handled a
packet a second ago, and stays for no more than 20 seconds. -/
theorem active_session_expired :
    ¬ EveryStep (step 20) {}
      [.tick 5, .accept false,
        .tick 8, .handlePacket 0 ⟨pktHeartbeatResp, 0, 1, []⟩, .startHeartbeat 0,
        .tick 8, .handlePacket 0 ⟨pktHeartbeatResp, 0, 2, []⟩, .startHeartbeat 0,
        .tick 8, .handlePacket 0 ⟨pktHeartbeatResp, 0, 3, []⟩, .startHeartbeat 0,
        .tick 1, .checkExpiredSessions] (SparesActive 20) := by
  intro h
  obtain ⟨t, u, hrun, hlast, hregistered, hactive, hgone⟩ : ∃ t u, run (step 20) {}
      [.tick 5, .accept false,
        .tick 8, .handlePacket 0 ⟨pktHeartbeatResp, 0, 1, []⟩, .startHeartbeat 0,
        .tick 8, .handlePacket 0 ⟨pktHeartbeatResp, 0, 2, []⟩, .startHeartbeat 0,
        .tick 8, .handlePacket 0 ⟨pktHeartbeatResp, 0, 3, []⟩, .startHeartbeat 0,
        .tick 1] = some t ∧
      step 20 t .checkExpiredSessions = some u ∧ t.sessions[(1 : UInt64)]? = some 0 ∧
      t.ActiveWithin 20 0 ∧ u.sessions[(1 : UInt64)]? = none :=
    ⟨_, _, rfl, rfl, by decide, by decide, by decide⟩
  have hstays := h _ _ [] t rfl hrun rfl u hlast 1 0 hregistered hactive
  exact absurd (hgone.symm.trans hstays) (by simp)

end TurboNet.Qwen.Server
