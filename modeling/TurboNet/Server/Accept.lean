import TurboNet.Server.Session

/-!
# The server: accepting, the connection limit, stopping

Reference: `turbonet_server.cpp`, `TurboNetServer`.

The server accepts a connection only while `sessions_` has fewer than `maxConnections_` elements.
Session objects live on in the captures of their handlers, so the state keeps all sessions ever
created, in the order of their creation; `registered` says which are in `sessions_`. Accept
handlers and session handlers touch `sessions_` under `sessionsMutex_`, once each, so a handler is
one step.

A refused bind request takes a session out of `sessions_` that goes on reading.
`limitHolds_iff` says that this is the only way to get past the limit.
-/

namespace TurboNet

open Common

namespace Session

/-- The session has an open socket and an outstanding read. -/
def Live (s : Session) : Prop := s.socketOpen = true ∧ s.reading.isSome = true

instance (s : Session) : Decidable s.Live := inferInstanceAs (Decidable (_ ∧ _))

/-- The event completes a bind request that is refused, or for which no auth handler is set. -/
def RefusedBy (h : Handlers) (s : Session) : Event → Prop
  | .readDone bs =>
    (∃ n ∈ s.reading, n ≠ ReadOp.header) ∧ s.authenticated = false ∧ s.headerBuf.getD 4 0 = 0x01 ∧
      (h.onAuth.any fun auth => auth bs) = false
  | _ => False

instance (h : Handlers) (s : Session) : (e : Event) → Decidable (s.RefusedBy h e)
  | .readDone _ => inferInstanceAs (Decidable (_ ∧ _))
  | .readFail | .respond _ | .transfer _ _ | .reuse _ _ | .writeFail _ => isFalse id

end Session

/-- The server: `acceptor_`, the outstanding `async_accept` and the sessions. -/
structure Server where
  acceptorOpen : Bool := true
  /-- An `async_accept` is outstanding; the flag says whether the acceptor was open when it was
  initiated, without which it cannot succeed. -/
  accepting : Option Bool := none
  /-- All sessions ever created, oldest first. -/
  sessions : List Session := []
deriving DecidableEq, Repr

namespace Server

/-- `sessions_.size()`. -/
def sessionsSize (srv : Server) : ℕ := srv.sessions.countP Session.registered

/-- `TurboNetServer::doAccept`. -/
def doAccept (srv : Server) : Server := { srv with accepting := some srv.acceptorOpen }

/-- `TurboNetServer::start`, after `onRequest_` has been set. -/
def start : Server := doAccept {}

/-- The handler of `async_accept`. A connection over the limit is dropped with its socket. -/
def onAccept (maxConnections : ℕ) (srv : Server) (ec : Bool) : Server :=
  let srv :=
    if !ec && srv.sessionsSize < maxConnections then
      { srv with sessions := srv.sessions ++ [Session.start {}] }
    else srv
  srv.doAccept

/-- What `TurboNetServer::stop` does to one session: those in `sessions_` are closed, and
`sessions_` is cleared. -/
def stopSession (s : Session) : Session :=
  { s with socketOpen := s.socketOpen && !s.registered, registered := false }

/-- `TurboNetServer::stop`. -/
def stop (srv : Server) : Server :=
  { srv with acceptorOpen := false, sessions := srv.sessions.map stopSession }

inductive Event where
  /-- The outstanding accept completes, with an error or with a connection. -/
  | accept (ec : Bool)
  /-- Something happens to the `i`-th session. -/
  | session (i : ℕ) (e : Session.Event)
  | stop
deriving DecidableEq, Repr

def step (h : Handlers) (maxConnections : ℕ) (srv : Server) : Event → Option Server
  | .accept ec =>
    match srv.accepting with
    | some wasOpen => if ec || wasOpen then some (srv.onAccept maxConnections ec) else none
    | none => none
  | .session i e =>
    match srv.sessions[i]? with
    | some s => (s.step h e).map fun s' => { srv with sessions := srv.sessions.set i s' }
    | none => none
  | .stop => some srv.stop

/-- Every live session is in `sessions_`, and there are at most `maxConnections_` live ones. -/
def LimitHolds (maxConnections : ℕ) (srv : Server) : Prop :=
  (∀ s ∈ srv.sessions, s.Live → s.registered = true) ∧
    srv.sessions.countP (fun s => decide s.Live) ≤ maxConnections

instance (m : ℕ) (srv : Server) : Decidable (LimitHolds m srv) :=
  inferInstanceAs (Decidable (_ ∧ _))

/-- The event is not a refusal of a bind request on an open socket. -/
def NoRefusal (h : Handlers) (srv : Server) : Event → Prop
  | .session i e => ∀ s ∈ srv.sessions[i]?, s.socketOpen = true → ¬ s.RefusedBy h e
  | _ => True

instance (h : Handlers) (srv : Server) : (e : Event) → Decidable (NoRefusal h srv e)
  | .session i e => inferInstanceAs (Decidable (∀ s ∈ srv.sessions[i]?, s.socketOpen = true →
      ¬ s.RefusedBy h e))
  | .accept _ | .stop => isTrue trivial

end Server

/-! ## One step of a session -/

namespace Session

/-- `dispatch` closes no socket. -/
theorem dispatch_socketOpen (h : Handlers) (s : Session) :
    (s.dispatch h).socketOpen = s.socketOpen := by
  rw [dispatch, onBind, forward]
  repeat' split
  all_goals rfl

/-- A frame takes the session out of `sessions_` exactly when it is a refused bind request. -/
theorem dispatch_registered (h : Handlers) (s : Session) :
    (s.dispatch h).registered = (s.registered &&
      !(!s.authenticated && s.headerBuf.getD 4 0 == 0x01 &&
        !(h.onAuth.any fun auth => auth s.bodyBuf))) := by
  rw [dispatch]
  split
  · rename_i hbind
    rw [hbind, onBind]
    cases h.onAuth with
    | none => simp [removeSession]
    | some auth =>
      cases hb : auth s.bodyBuf with
      | true => simp [hb, send]
      | false => simp [hb, removeSession]
  · rename_i hbind
    rw [Bool.not_eq_true] at hbind
    rw [hbind, forward]
    simp only [Bool.false_and, Bool.not_false, Bool.and_true]
    split
    · split <;> rfl
    · rfl

/-- A session leaves `sessions_` when its bind request is refused, and only then. -/
theorem readDone_body_registered (h : Handlers) (s : Session) (n : ℕ) (bs : List UInt8) :
    (s.readDone h (.body n) bs).registered = (s.registered &&
      !(!s.authenticated && s.headerBuf.getD 4 0 == 0x01 &&
        !(h.onAuth.any fun auth => auth bs))) :=
  dispatch_registered h _

/-- A session that is in `sessions_` while it is live stays so after a step, unless the step
refuses it. -/
theorem step_live_iff {h : Handlers} {s s' : Session} {e : Event}
    (hs : s.Live → s.registered = true) (hstep : step h s e = some s') :
    (s'.Live → s'.registered = true) ↔ (s.socketOpen = true → ¬ s.RefusedBy h e) := by
  cases acts_of_step hstep with
  | readDone op bs hop hlen =>
    cases op with
    | header =>
      refine iff_of_true (fun hlive => ?_) fun _ => ?_
      · exact hs ⟨hlive.1, by rw [hop]; rfl⟩
      · rintro ⟨⟨n, hn, hne⟩, -⟩
        rw [hop] at hn
        exact hne (Option.some.inj hn).symm
    | body n =>
      have hopen : (s.readDone h (.body n) bs).socketOpen = s.socketOpen :=
        dispatch_socketOpen h _
      have hlive : (s.readDone h (.body n) bs).Live ↔ s.socketOpen = true := by
        rw [Live, hopen, readDone_body_reading]
        simp
      -- the session reads on after a body, also when it has been taken out of `sessions_`
      have hbody : ∃ m ∈ s.reading, m ≠ ReadOp.header := ⟨.body n, hop, by simp⟩
      rw [hlive, readDone_body_registered]
      refine forall_congr' fun hso => ?_
      have hsreg : s.registered = true := hs ⟨hso, by rw [hop]; rfl⟩
      simp only [hsreg, Bool.true_and, RefusedBy, hbody, true_and]
      cases s.authenticated <;> cases h.onAuth.any fun auth => auth bs <;> simp
  | readFail op hop =>
    refine iff_of_true (fun hlive => ?_) fun _ hf => hf
    have hnone := hlive.2
    rw [readFail_reading] at hnone
    exact absurd hnone (by simp)
  | _ => exact iff_of_true hs fun _ hf => hf

/-- No step of a session puts it back into `sessions_`. -/
theorem registered_of_step {h : Handlers} {s s' : Session} {e : Event}
    (hstep : step h s e = some s') (hreg : s'.registered = true) : s.registered = true := by
  cases acts_of_step hstep with
  | readDone op bs hop hlen =>
    cases op with
    | header => exact hreg
    | body n =>
      rw [readDone_body_registered] at hreg
      exact (Bool.and_eq_true_iff.mp hreg).1
  | readFail op hop =>
    cases op <;> exact absurd hreg (by simp [readFail, onReadHeader, onReadBody, removeSession])
  | _ => exact hreg

end Session

/-! ## One step of the server -/

namespace Server

/-- What can happen: an accept handler runs, one session takes a step, or the server is stopped. -/
theorem step_cases {h : Handlers} {m : ℕ} {srv srv' : Server} {e : Event}
    (hstep : step h m srv e = some srv') :
    (∃ ec, e = .accept ec ∧ srv' = srv.onAccept m ec) ∨
    (∃ i e' s s', e = .session i e' ∧ srv.sessions[i]? = some s ∧ s.step h e' = some s' ∧
      srv' = { srv with sessions := srv.sessions.set i s' }) ∨
    (e = .stop ∧ srv' = srv.stop) := by
  cases e with
  | accept ec =>
    refine .inl ⟨ec, rfl, ?_⟩
    simp only [step] at hstep
    split at hstep
    · split at hstep
      · exact (Option.some.inj hstep).symm
      · exact absurd hstep (by simp)
    · exact absurd hstep (by simp)
  | session i e' =>
    simp only [step] at hstep
    split at hstep
    · rename_i s hs
      obtain ⟨s', hs', rfl⟩ := Option.map_eq_some_iff.mp hstep
      exact .inr (.inl ⟨i, e', s, s', rfl, hs, hs', rfl⟩)
    · exact absurd hstep (by simp)
  | stop => exact .inr (.inr ⟨rfl, (Option.some.inj hstep).symm⟩)

/-- The accept handler adds at most one session, and that only below the limit. -/
theorem onAccept_sessions (m : ℕ) (srv : Server) (ec : Bool) :
    (srv.onAccept m ec).sessions = srv.sessions ∨
      srv.sessionsSize < m ∧ (srv.onAccept m ec).sessions = srv.sessions ++ [Session.start {}] := by
  rw [onAccept]
  split
  · rename_i hc
    simp only [Bool.and_eq_true, decide_eq_true_eq] at hc
    exact .inr ⟨hc.2, rfl⟩
  · exact .inl rfl

/-- `sessions_` never gets larger than the limit. -/
theorem step_sessionsSize_le {h : Handlers} {m : ℕ} {srv srv' : Server} {e : Event}
    (hsize : srv.sessionsSize ≤ m) (hstep : step h m srv e = some srv') :
    srv'.sessionsSize ≤ m := by
  obtain ⟨ec, -, rfl⟩ | ⟨i, e', s, s', -, hs, hs', rfl⟩ | ⟨-, rfl⟩ := step_cases hstep
  · rcases onAccept_sessions m srv ec with hacc | ⟨hlt, hacc⟩
    · rw [sessionsSize, hacc]
      exact hsize
    · rw [sessionsSize, hacc, List.countP_append]
      exact hlt
  · obtain ⟨hi, rfl⟩ := List.getElem?_eq_some_iff.mp hs
    have hcount := List.countP_set (p := Session.registered) (a := s') hi
    have hmem : srv.sessions[i].registered = true → 0 < srv.sessions.countP Session.registered :=
      fun hr => List.countP_pos_iff.mpr ⟨_, List.getElem_mem hi, hr⟩
    rw [sessionsSize] at hsize ⊢
    rw [hcount]
    cases hreg : s'.registered with
    | false => simp; omega
    | true =>
      have hold := Session.registered_of_step hs' hreg
      have := hmem hold
      simp [hold]
      omega
  · have hzero : srv.stop.sessionsSize = 0 := by
      simp [sessionsSize, stop, stopSession, List.countP_eq_zero]
    omega

/-- Below the limit of `sessions_`, being a member is all that has to be shown of live sessions. -/
theorem limitHolds_of_registered {m : ℕ} {srv : Server} (hsize : srv.sessionsSize ≤ m) :
    LimitHolds m srv ↔ ∀ s ∈ srv.sessions, s.Live → s.registered = true := by
  refine ⟨And.left, fun hreg => ⟨hreg, Nat.le_trans ?_ hsize⟩⟩
  exact List.countP_mono_left fun s hs hlive => hreg s hs (of_decide_eq_true hlive)

/-- A step keeps to the limit exactly when it does not refuse an open session. -/
theorem step_limitHolds_iff {h : Handlers} {m : ℕ} {srv srv' : Server} {e : Event}
    (hsize : srv.sessionsSize ≤ m) (hlim : LimitHolds m srv) (hstep : step h m srv e = some srv') :
    LimitHolds m srv' ↔ NoRefusal h srv e := by
  rw [limitHolds_of_registered (step_sessionsSize_le hsize hstep)]
  have hreg := hlim.1
  obtain ⟨ec, rfl, rfl⟩ | ⟨i, e', s, s', rfl, hs, hs', rfl⟩ | ⟨rfl, rfl⟩ := step_cases hstep
  · refine iff_of_true (fun s hs hlive => ?_) trivial
    rcases onAccept_sessions m srv ec with hacc | ⟨-, hacc⟩
    · exact hreg s (hacc ▸ hs) hlive
    · rw [hacc, List.mem_append, List.mem_singleton] at hs
      rcases hs with hs | rfl
      · exact hreg s hs hlive
      · rfl
  · have hiff := Session.step_live_iff (hreg s (List.mem_of_getElem? hs)) hs'
    have hnow : NoRefusal h srv (.session i e') ↔ (s.socketOpen = true → ¬ s.RefusedBy h e') := by
      simp [NoRefusal, hs]
    rw [hnow, ← hiff]
    constructor
    · intro hall
      obtain ⟨hi, -⟩ := List.getElem?_eq_some_iff.mp hs
      exact hall s' (List.mem_set hi s')
    · intro hs' t ht
      rcases List.mem_or_eq_of_mem_set ht with ht | rfl
      · exact hreg t ht
      · exact hs'
  · refine iff_of_true (fun s hs hlive => ?_) trivial
    -- a session that survives `stop` with an open socket was not a member, hence not live
    obtain ⟨t, ht, rfl⟩ := List.mem_map.mp hs
    obtain ⟨hopen, hread⟩ :
        (t.socketOpen && !t.registered) = true ∧ t.reading.isSome = true := hlive
    obtain ⟨hopen, hnot⟩ := Bool.and_eq_true_iff.mp hopen
    rw [hreg t ht ⟨hopen, hread⟩] at hnot
    exact absurd hnot (by simp)

/-- **The connection limit.** In a run of the server, every live session is in `sessions_` and at
most `maxConnections_` are live in every state, exactly when no step refuses the bind request of a
session with an open socket. -/
theorem limitHolds_iff (h : Handlers) (m : ℕ) (es : List Event) (srv : Server)
    (hrun : run (step h m) start es = some srv) :
    EveryState (step h m) start es (LimitHolds m) ↔
      EveryStep (step h m) start es (NoRefusal h) := by
  refine everyState_iff_everyStep (I := fun srv => srv.sessionsSize ≤ m) ?_ (Nat.zero_le m)
    (fun t e t' _ _ => step_sessionsSize_le) (fun t e t' _ _ => step_limitHolds_iff) hrun
  exact ⟨fun s hs => absurd hs (by simp [start, doAccept]), Nat.zero_le m⟩

/-- Two connections at a limit of one, the second of which is dropped; the first binds. -/
theorem limitHolds_iff_accepted :
    EveryState (step ⟨.little, some fun _ => true, true⟩ 1) start
      [.accept false, .accept false,
        .session 0 (.readDone (Packet.header ⟨0x01, 0x00, 1, [0x61]⟩)),
        .session 0 (.readDone [0x61])] (LimitHolds 1) := by
  refine (limitHolds_iff _ _ _ _ rfl).mpr ?_
  decide

/-- At a limit of one, a client is refused and stays, and the next one is accepted. -/
theorem limit_exceeded_after_refusal :
    ∃ srv, run (step ⟨.little, some fun _ => false, true⟩ 1) start
      [.accept false, .session 0 (.readDone (Packet.header ⟨0x01, 0x00, 1, [0x61]⟩)),
        .session 0 (.readDone [0x61]), .accept false] = some srv ∧
      ¬ LimitHolds 1 srv ∧ srv.sessions.countP (fun s => decide s.Live) = 2 := by
  refine ⟨_, rfl, ?_⟩
  decide

end Server

end TurboNet
