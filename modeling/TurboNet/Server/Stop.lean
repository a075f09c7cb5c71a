import TurboNet.Server.Accept

/-!
# Stopping the server

Reference: `turbonet_server.cpp`, `TurboNetServer::stop`, `TurboNetServer::doAccept`.

`stop` closes the acceptor and the sockets of the sessions in `sessions_`. The handler of
`async_accept` calls `doAccept` whatever happened, so the accept chain never ends: after `stop` it
goes on with operations on the closed acceptor. A connection whose accept had already succeeded
still gets a session, and a session that was refused earlier is not in `sessions_` and is not
closed. `stop_is_never_final` says all of this.
-/

namespace TurboNet

open Common

namespace Session

/-- No step brings a session back to life. -/
theorem live_of_step {h : Handlers} {s s' : Session} {e : Event} (hstep : step h s e = some s')
    (hlive : s'.Live) : s.Live := by
  cases acts_of_step hstep with
  | readDone op bs hop hlen =>
    refine ⟨?_, by rw [hop]; rfl⟩
    cases op with
    | header => exact hlive.1
    | body n =>
      have hopen : (s.readDone h (.body n) bs).socketOpen = s.socketOpen :=
        dispatch_socketOpen h _
      exact hopen ▸ hlive.1
  | readFail op hop =>
    have hnone := hlive.2
    rw [readFail_reading] at hnone
    exact absurd hnone (by simp)
  | _ => exact hlive

end Session

namespace Server

/-- What `stop` is for: `sessions_` is empty, no session with an open socket has a read
outstanding, and no accept is outstanding. -/
def Stopped (srv : Server) : Prop :=
  srv.sessionsSize = 0 ∧ (∀ s ∈ srv.sessions, ¬ s.Live) ∧ srv.accepting = none

/-- The part of it that is about sessions. -/
def SessionsDown (srv : Server) : Prop :=
  srv.sessionsSize = 0 ∧ ∀ s ∈ srv.sessions, ¬ s.Live

instance (srv : Server) : Decidable (SessionsDown srv) := inferInstanceAs (Decidable (_ ∧ _))

/-- The completions that were outstanding in `srv` have been handled by the events `es`. -/
def Handled (srv : Server) (es : List Event) : Prop :=
  (srv.accepting ≠ none → Event.accept true ∈ es ∨ Event.accept false ∈ es) ∧
    ∀ (i : ℕ) (s : Session), srv.sessions[i]? = some s → s.reading ≠ none →
      Event.session i .readFail ∈ es ∨ ∃ bs, Event.session i (.readDone bs) ∈ es

/-- An outstanding `async_accept` is followed by the next one. -/
theorem step_accepting {h : Handlers} {m : ℕ} {srv srv' : Server} {e : Event}
    (hacc : srv.accepting ≠ none) (hstep : step h m srv e = some srv') : srv'.accepting ≠ none := by
  obtain ⟨ec, -, rfl⟩ | ⟨i, e', s, s', -, -, -, rfl⟩ | ⟨-, rfl⟩ := step_cases hstep
  · simp [onAccept, doAccept]
  · exact hacc
  · exact hacc

/-- The accept chain of a server that has been started never ends. -/
theorem accepting_of_run {h : Handlers} {m : ℕ} {srv : Server} {es : List Event}
    (hrun : run (step h m) start es = some srv) : srv.accepting ≠ none :=
  run_induction (P := fun srv => srv.accepting ≠ none) (by simp [start, doAccept])
    (fun _ _ _ => step_accepting) hrun

/-- `sessions_` is empty if no session is registered. -/
theorem sessionsSize_eq_zero {srv : Server} :
    srv.sessionsSize = 0 ↔ ∀ s ∈ srv.sessions, s.registered = false := by
  rw [sessionsSize, List.countP_eq_zero]
  simp only [Bool.not_eq_true]

/-- `stop` takes down the sessions that it finds in `sessions_`. -/
theorem sessionsDown_stop {srv : Server} :
    SessionsDown srv.stop ↔ ∀ s ∈ srv.sessions, s.Live → s.registered = true := by
  have hsize : srv.stop.sessionsSize = 0 := by
    rw [sessionsSize_eq_zero]
    simp [stop, stopSession]
  have hlive (s : Session) : (stopSession s).Live ↔ s.Live ∧ ¬ s.registered = true := by
    simp only [Session.Live, stopSession, Bool.and_eq_true, Bool.not_eq_true', Bool.not_eq_true]
    tauto
  rw [SessionsDown, hsize]
  simp only [true_and, stop, List.forall_mem_map, hlive, not_and, not_not]

/-- Only an accept that succeeds brings a new session. -/
theorem sessionsDown_step {h : Handlers} {m : ℕ} {srv srv' : Server} {e : Event}
    (hdown : SessionsDown srv) (hstep : step h m srv e = some srv') :
    SessionsDown srv' ↔ (e = .accept false → m = 0) := by
  obtain ⟨hsize, hlive⟩ := hdown
  obtain ⟨ec, rfl, rfl⟩ | ⟨i, e', s, s', rfl, hs, hs', rfl⟩ | ⟨rfl, rfl⟩ := step_cases hstep
  · have hiff : (Event.accept ec = .accept false → m = 0) ↔ ¬ (ec = false ∧ 0 < m) := by
      simp only [Event.accept.injEq, not_and, Nat.not_lt, Nat.le_zero]
    rw [hiff]
    -- an accept that was outstanding brings a new session, whatever `stop` has closed
    by_cases hnew : ec = false ∧ 0 < m
    · refine iff_of_false (fun hdown' => ?_) (not_not.mpr hnew)
      have hmem : Session.start {} ∈ (srv.onAccept m ec).sessions := by
        simp [onAccept, doAccept, hsize, hnew]
      exact absurd (sessionsSize_eq_zero.mp hdown'.1 _ hmem) (by decide)
    · refine iff_of_true ?_ hnew
      have hsame : (srv.onAccept m ec).sessions = srv.sessions := by
        rw [onAccept, if_neg (by simpa [hsize] using hnew)]
        rfl
      rw [SessionsDown, sessionsSize, hsame]
      exact ⟨hsize, hlive⟩
  · refine iff_of_true ⟨?_, ?_⟩ (by simp)
    · rw [sessionsSize_eq_zero] at hsize ⊢
      intro t ht
      rcases List.mem_or_eq_of_mem_set ht with ht | rfl
      · exact hsize t ht
      · by_contra hreg
        rw [Bool.not_eq_false] at hreg
        have hold := hsize s (List.mem_of_getElem? hs)
        rw [Session.registered_of_step hs' hreg] at hold
        exact absurd hold (by simp)
    · intro t ht
      rcases List.mem_or_eq_of_mem_set ht with ht | rfl
      · exact hlive t ht
      · exact fun hl => hlive s (List.mem_of_getElem? hs) (Session.live_of_step hs' hl)
  · exact iff_of_true (sessionsDown_stop.mpr fun s hs hl => absurd hl (hlive s hs)) (by simp)

/-- **Stop is never final.** In no run of a server that has been started is the server stopped after
`stop`, whatever has been handled by then: an accept is always outstanding. Its sessions are down
from `stop` on exactly when no live session had left `sessions_` before and no accept succeeds
afterwards (below a limit that is not zero). -/
theorem stop_is_never_final (h : Handlers) (m : ℕ) (pre post : List Event) (srv srv' : Server)
    (hpre : run (step h m) start pre = some srv)
    (hpost : run (step h m) srv.stop post = some srv') :
    ¬ Stopped srv' ∧
      (EveryState (step h m) srv.stop post SessionsDown ↔
        (∀ s ∈ srv.sessions, s.Live → s.registered = true) ∧
          (Event.accept false ∈ post → m = 0)) := by
  constructor
  · rintro ⟨-, -, hnone⟩
    have hrun : run (step h m) start (pre ++ .stop :: post) = some srv' :=
      run_append_eq_some.mpr ⟨srv, hpre, run_cons_eq_some.mpr ⟨srv.stop, rfl, hpost⟩⟩
    exact accepting_of_run hrun hnone
  · rw [← sessionsDown_stop]
    by_cases hdown : SessionsDown srv.stop
    · rw [everyState_iff_everyStep (I := fun _ => True)
        (C := fun _ e => e = Event.accept false → m = 0) hdown trivial
        (fun _ _ _ _ _ _ _ => trivial) (fun _ _ _ _ _ _ hP ht => sessionsDown_step hP ht) hpost,
        everyStep_iff_forall_mem hpost]
      simp only [hdown, true_and]
      exact ⟨fun hall hmem => hall _ hmem rfl, fun hall e hmem he => hall (he ▸ hmem)⟩
    · exact iff_of_false (fun hall => hdown hall.first) fun hc => hdown hc.1

/-- A server with one session is stopped and everything outstanding is handled. -/
theorem stop_is_never_final_aborted :
    ∃ srv srv', run (step ⟨.little, some fun _ => true, true⟩ 1) start [.accept false] = some srv ∧
      run (step ⟨.little, some fun _ => true, true⟩ 1) srv.stop
        [.session 0 .readFail, .accept true] = some srv' ∧ ¬ Stopped srv' :=
  ⟨_, _, rfl, rfl, (stop_is_never_final ⟨.little, some fun _ => true, true⟩ 1 [.accept false]
    [.session 0 .readFail, .accept true] _ _ rfl rfl).1⟩

/-- A client is refused, another is waiting to be accepted when `stop` runs. When all that was
outstanding has been handled both have sessions that read, one of them is in `sessions_`, and an
accept has been initiated on the closed acceptor. -/
theorem sessions_survive_stop :
    ∃ srv srv', run (step ⟨.little, some fun _ => false, true⟩ 1) start
        [.accept false, .session 0 (.readDone (Packet.header ⟨0x01, 0x00, 1, [0x61]⟩)),
          .session 0 (.readDone [0x61])] = some srv ∧
      run (step ⟨.little, some fun _ => false, true⟩ 1) srv.stop
        [.accept false, .session 0 (.readDone (Packet.header ⟨0x01, 0x00, 2, []⟩))] = some srv' ∧
      Handled srv.stop
        [.accept false, .session 0 (.readDone (Packet.header ⟨0x01, 0x00, 2, []⟩))] ∧
      ¬ Stopped srv' ∧ srv'.sessionsSize = 1 ∧ (∀ s ∈ srv'.sessions, s.Live) ∧
      srv'.accepting = some false := by
  refine ⟨_, _, rfl, rfl, ⟨fun _ => by decide, ?_⟩, ?_, by decide, by decide, rfl⟩
  · intro i s hi _
    cases i with
    | zero => exact .inr ⟨_, List.mem_cons_of_mem _ List.mem_cons_self⟩
    | succ i => exact absurd hi (by simp [stop, onAccept, doAccept, start, sessionsSize])
  · rintro ⟨hsize, -⟩
    exact absurd hsize (by decide)

end Server

end TurboNet
