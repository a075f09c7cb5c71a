import TurboNet.Asio.Client

/-!
# The life cycle of the connection of the asio client

Reference: `claude/asio_client.cpp`, `TcpClient::connect`, `TcpClient::handleDisconnect`,
`TcpClient::scheduleReconnect`, `TcpClient::notifyConnectionStatus`.

`start` begins one attempt to connect. Everything that comes after that is handed on like a token:
from the handler that `connect` posts to the attempt, from a failed attempt to the wait for the next
one, from a successful one to `connected_`, from there through `handleDisconnect` to the wait, and
from the wait back to `connect`. No step makes two of one (`tokens_step`), however many errors there
are for one connection, so there is at most one life cycle (`one_life_cycle`).
-/

namespace TurboNet.Asio

open Common

namespace TcpClient

variable {clientId : List UInt8} {t t' : TcpClient} {e : Event}

/-! ## What a step does to the connection -/

/-- The call of `handleDisconnect` that is half way, counted. -/
def disconnects : Option Handler → ℕ
  | some .disconnecting => 1
  | _ => 0

/-- What the life cycle of the connection consists of. -/
def life (t : TcpClient) : ℕ × ℕ × Timer Unit × Bool × List Bool × ℕ :=
  (t.posted, t.connecting, t.reconnectTimer, t.connected, t.statuses, disconnects t.handler)

/-- The reconnect timer when `scheduleReconnect` has run. -/
def scheduled (t : TcpClient) : Timer Unit :=
  if t.reconnectEnabled then t.reconnectTimer.arm (t.now + 3000) () else t.reconnectTimer

/-- What a step does to the life cycle of the connection. -/
inductive LifeChange (t : TcpClient) (e : Event) (t' : TcpClient) : Prop where
  | same (hlife : t'.life = t.life)
  | start (he : e = .start) (hlife : t'.life = (t.posted + 1, t.life.2))
  | stop (hlife : t'.life = (t.posted, t.connecting, t.reconnectTimer.cancel, t.life.2.2.2))
  | runConnect (he : e = .runConnect) (hposted : t.posted ≠ 0)
      (hlife : t'.life = (t.posted - 1, t.connecting + 1, t.reconnectTimer, false, t.statuses,
        disconnects t.handler))
  | connectFailed (he : e = .connectDone true) (hconnecting : t.connecting ≠ 0)
      (hlife : t'.life = (t.posted, t.connecting - 1, t.scheduled, t.life.2.2.2))
  | connected (he : e = .connectDone false) (hconnecting : t.connecting ≠ 0)
      (hlife : t'.life = (t.posted, t.connecting - 1, t.reconnectTimer, true,
        t.statuses ++ [true], 0))
  | disconnected (he : e = .handleDisconnect) (hconnected : t.connected = true)
      (hlife : t'.life = (t.posted, t.connecting, t.reconnectTimer, false,
        t.statuses ++ [false], 1))
  | cleared (he : e = .clearRequests) (hhandler : t.handler = some .disconnecting)
      (hlife : t'.life = (t.posted, t.connecting, t.scheduled, t.connected, t.statuses, 0))
  | expired (timer : Timer Unit) (htimer : t.reconnectTimer.expire t.now = some timer)
      (hlife : t'.life = (t.posted, t.connecting, timer, t.life.2.2.2))
  | reconnect (timer : Timer Unit) (htimer : t.reconnectTimer.takeDue = some ((), timer))
      (hlife : t'.life = (t.posted + t.reconnectEnabled.toNat, t.connecting, timer, t.life.2.2.2))

/-- Sending does not touch the life cycle. -/
theorem life_sendPacket (t : TcpClient) (p : Packet) : (t.sendPacket p).life = t.life := by
  rw [sendPacket]
  split <;> rfl

/-- `scheduleReconnect` touches nothing but its timer. -/
theorem life_scheduleReconnect (t : TcpClient) :
    t.scheduleReconnect.life = (t.posted, t.connecting, t.scheduled, t.life.2.2.2) := by
  rw [scheduleReconnect, scheduled]
  split <;> rfl

/-- What a step does to the life cycle is one of the listed changes. -/
theorem lifeChange_of_step (h : step clientId t e = some t') : LifeChange t e t' := by
  cases stepped_of_step h with
  | start => exact .start rfl rfl
  | stop => exact .stop rfl
  | setAutoReconnect => exact .same rfl
  | runConnect _ hposted => exact .runConnect rfl hposted rfl
  | connectDone error _ hconnecting =>
    cases error with
    | true => exact .connectFailed rfl hconnecting (life_scheduleReconnect _)
    | false => exact .connected rfl hconnecting rfl
  | drawBind hhandler =>
    exact .same (by simp [life, TcpClient.drawBind, getNextSequence, disconnects, hhandler])
  | sendBind _ hhandler =>
    exact .same (by rw [TcpClient.sendBind, life_sendPacket]; simp [life, disconnects, hhandler])
  | handleDisconnect =>
    rw [TcpClient.handleDisconnect]
    -- only a connected client is disconnected
    split
    · rename_i hconnected
      exact .disconnected rfl hconnected rfl
    · exact .same rfl
  | clearRequests hhandler => exact .cleared rfl hhandler (life_scheduleReconnect _)
  | processPacket => exact .same (by rw [processPacket_eq]; rfl)
  | sendRequest => exact .same rfl
  | draw => exact .same rfl
  | sendDrawn => exact .same (life_sendPacket t _)
  | register => exact .same rfl
  | startTimeoutTimer => exact .same rfl
  | sendPacket p => exact .same (life_sendPacket t p)
  | cancelRequest => exact .same rfl
  | tick => exact .same rfl
  | runTimerPost =>
    simp only [TcpClient.runTimerPost]
    split
    · exact .same rfl
    · exact .same rfl
  | expire => exact .same rfl
  | sweep _ hhandler => exact .same (by simp [life, TcpClient.sweep, disconnects, hhandler])
  | finishSweep hasPending hhandler =>
    cases hasPending <;>
      exact .same (by simp [life, TcpClient.finishSweep, armTimer, disconnects, hhandler])
  | reconnectExpire timer htimer => exact .expired timer htimer rfl
  | reconnect timer _ htimer =>
    refine .reconnect timer htimer ?_
    simp only [TcpClient.reconnect]
    cases hen : t.reconnectEnabled <;> rfl

/-- `scheduleReconnect` runs inside the handler that calls it. -/
theorem scheduleReconnect_handler (t : TcpClient) : t.scheduleReconnect.handler = t.handler := by
  rw [scheduleReconnect]
  split <;> rfl

/-- From the moment a connection has been made to the end of `sendBindPacket` nothing on the strand
can change `connected_`, and nothing else does. -/
theorem connected_of_binding_step
    (hI : t.handler = some .connected ∨ (∃ sequence, t.handler = some (.bind sequence)) →
      t.connected = true) (h : step clientId t e = some t') :
    t'.handler = some .connected ∨ (∃ sequence, t'.handler = some (.bind sequence)) →
      t'.connected = true := by
  -- a handler that has returned asks for nothing
  have hnone {c : TcpClient} (hc : c.handler = none) :
      c.handler = some .connected ∨ (∃ sequence, c.handler = some (.bind sequence)) →
        c.connected = true := by
    simp [hc]
  cases stepped_of_step h with
  | runConnect hhandler => exact hnone hhandler
  | connectDone error hhandler =>
    cases error with
    | false => exact fun _ => rfl
    | true => exact hnone ((scheduleReconnect_handler _).trans hhandler)
  | drawBind hhandler => exact fun _ => hI (Or.inl hhandler)
  | sendBind sequence =>
    refine hnone ?_
    simp only [sendBind, sendPacket]
    split <;> rfl
  | handleDisconnect hhandler =>
    simp only [handleDisconnect]
    split
    · simp
    · exact hnone hhandler
  | clearRequests =>
    exact hnone (scheduleReconnect_handler _)
  | processPacket p hhandler =>
    rw [processPacket_eq]
    exact hnone hhandler
  | sendDrawn k c =>
    simp only [sendDrawn, sendPacket, setCall]
    split <;> exact hI
  | sendPacket p =>
    rw [sendPacket]
    split <;> exact hI
  | runTimerPost hhandler =>
    refine hnone ?_
    simp only [runTimerPost]
    split <;> exact hhandler
  | sweep => simp [sweep]
  | finishSweep hasPending =>
    cases hasPending <;> exact hnone rfl
  | reconnect timer hhandler =>
    refine hnone ?_
    simp only [reconnect]
    split <;> exact hhandler
  | _ => exact hI

/-! ## One life cycle -/

/-- The attempts to connect that are under way, the waits for the next one, and the connection. -/
def lives (t : TcpClient) : ℕ :=
  t.posted + t.connecting + t.reconnectTimer.wait.toList.length + t.reconnectTimer.due.length +
    t.connected.toNat

/-- Those and the call of `handleDisconnect` that is half way. -/
def tokens (t : TcpClient) : ℕ := t.lives + disconnects t.handler

/-- `scheduleReconnect` adds one wait at most. -/
theorem scheduled_length (t : TcpClient) :
    t.scheduled.wait.toList.length + t.scheduled.due.length ≤
      t.reconnectTimer.wait.toList.length + t.reconnectTimer.due.length + 1 := by
  rw [scheduled]
  split
  · rw [Timer.arm_due, Timer.arm_wait, Option.toList_some, List.length_singleton]
    omega
  · omega

/-- The tokens can be counted from the life cycle. -/
theorem tokens_of_life {posted connecting disconnecting : ℕ} {timer : Timer Unit}
    {connected : Bool} {statuses : List Bool}
    (h : t.life = (posted, connecting, timer, connected, statuses, disconnecting)) :
    t.tokens = posted + connecting + timer.wait.toList.length + timer.due.length +
      connected.toNat + disconnecting := by
  simp only [life, Prod.mk.injEq] at h
  obtain ⟨hposted, hconnecting, htimer, hconnected, -, hdisconnecting⟩ := h
  rw [tokens, lives, hposted, hconnecting, htimer, hconnected, hdisconnecting]

/-- A step makes a token of nothing only when the client is started. -/
theorem tokens_step (h : step clientId t e = some t') :
    t'.tokens ≤ t.tokens + if decide (e = .start) then 1 else 0 := by
  have hscheduled := t.scheduled_length
  have hconnected := t.connected.toNat_le
  have hbefore := tokens_of_life (t := t) rfl
  cases lifeChange_of_step h with
  | same hlife =>
    rw [tokens_of_life hlife, hbefore]
    omega
  | start he hlife =>
    rw [tokens_of_life hlife, hbefore, if_pos (decide_eq_true he)]
    omega
  | stop hlife =>
    rw [tokens_of_life hlife, hbefore]
    simp only [Timer.cancel, Option.toList_none, List.length_nil]
    omega
  | runConnect _ hposted hlife =>
    rw [tokens_of_life hlife, hbefore, Bool.toNat_false]
    omega
  | connectFailed _ hconnecting hlife =>
    rw [tokens_of_life hlife, hbefore]
    omega
  | connected _ hconnecting hlife =>
    rw [tokens_of_life hlife, hbefore, Bool.toNat_true]
    omega
  -- the token of the connection goes to the call of `handleDisconnect`, and from there to the timer
  | disconnected _ hconn hlife =>
    rw [tokens_of_life hlife, hbefore, hconn, Bool.toNat_true, Bool.toNat_false]
    omega
  | cleared _ hhandler hlife =>
    rw [tokens_of_life hlife, hbefore, hhandler, disconnects]
    omega
  | expired timer htimer hlife =>
    obtain ⟨d, a, hwait, rfl⟩ := Timer.expire_eq_some htimer
    rw [tokens_of_life hlife, hbefore, hwait]
    simp only [Option.toList_none, Option.toList_some, List.length_nil, List.length_singleton,
      List.length_append]
    omega
  | reconnect timer htimer hlife =>
    obtain ⟨hdue, hwait⟩ := Timer.takeDue_eq_some htimer
    have henabled := t.reconnectEnabled.toNat_le
    rw [tokens_of_life hlife, hbefore, hdue, hwait, List.length_cons]
    omega

/-! ## What the application is told -/

/-- The values passed to `connection_status_callback_` are true, false, true and so on, and the last
one is that of `connected_`. -/
structure Alternating (t : TcpClient) : Prop where
  statuses : ∀ (i : ℕ) (b : Bool), t.statuses[i]? = some b → b = decide (i % 2 = 0)
  connected : t.statuses.length % 2 = t.connected.toNat

/-- Nothing has been reported at the start. -/
theorem alternating_start : Alternating {} := ⟨fun i b h => absurd h (by simp), rfl⟩

/-- A change of the connection that is reported alternates. -/
theorem Alternating.append (b : Bool) (hI : t.Alternating) (hstatuses : t'.statuses =
    t.statuses ++ [b]) (hconnected : t'.connected = b) (hb : t.connected = !b) :
    t'.Alternating := by
  have hparity := hI.connected
  rw [hb] at hparity
  constructor
  · intro i c hc
    rw [hstatuses, List.getElem?_append] at hc
    split at hc
    · exact hI.statuses i c hc
    · rename_i hlt
      obtain ⟨hlast, rfl⟩ : i - t.statuses.length = 0 ∧ b = c := by
        rw [List.getElem?_singleton] at hc
        split at hc
        · exact ⟨‹_›, Option.some.inj hc⟩
        · exact absurd hc (by simp)
      -- the new value is the last one, and its place has the parity that it needs
      have hi : i = t.statuses.length := by omega
      subst hi
      cases b
      · simp at hparity ⊢
        omega
      · simp at hparity ⊢
        omega
  · rw [hstatuses, hconnected, List.length_append, List.length_singleton]
    cases b
    · simp at hparity ⊢
      omega
    · simp at hparity ⊢
      omega

/-- With at most one token, every step keeps the reports alternating. -/
theorem Alternating.step (hI : t.Alternating) (htokens : t.tokens ≤ 1)
    (h : TcpClient.step clientId t e = some t') : t'.Alternating := by
  rw [tokens, lives] at htokens
  have hsame (hconnected : t'.connected = t.connected) (hstatuses : t'.statuses = t.statuses) :
      t'.Alternating := by
    obtain ⟨halternate, hparity⟩ := hI
    exact ⟨hstatuses ▸ halternate, by rw [hstatuses, hconnected, hparity]⟩
  -- a connection that is being made is not there yet
  have hnot (hpos : t.posted ≠ 0 ∨ t.connecting ≠ 0) : t.connected = false := by
    rw [← Bool.toNat_eq_zero]
    omega
  cases lifeChange_of_step h with
  | same hlife | start _ hlife | stop hlife | connectFailed _ _ hlife | cleared _ _ hlife
  | expired _ _ hlife | reconnect _ _ hlife =>
    exact hsame (congrArg (·.2.2.2.1) hlife) (congrArg (·.2.2.2.2.1) hlife)
  | runConnect _ hposted hlife =>
    have hconnected := congrArg (·.2.2.2.1) hlife
    exact hsame (hconnected.trans (hnot (Or.inl hposted)).symm) (congrArg (·.2.2.2.2.1) hlife)
  | connected _ hconnecting hlife =>
    exact hI.append true (congrArg (·.2.2.2.2.1) hlife) (congrArg (·.2.2.2.1) hlife)
      (hnot (Or.inr hconnecting))
  | disconnected _ hconnected hlife =>
    exact hI.append false (congrArg (·.2.2.2.2.1) hlife) (congrArg (·.2.2.2.1) hlife) hconnected

/-- **One life cycle.** In a run in which `start` is called once, in every state there is at most
one attempt to connect under way, wait for the next attempt, or connection, and the values passed to
`connection_status_callback_` alternate, beginning with true. -/
theorem one_life_cycle (clientId : List UInt8) (es : List Event) (hstart : es.count .start ≤ 1) :
    EveryState (step clientId) {} es fun t => t.lives ≤ 1 ∧
      ∀ (i : ℕ) (b : Bool), t.statuses[i]? = some b → b = decide (i % 2 = 0) := by
  have htokens : EveryState (step clientId) {} es fun t => t.tokens ≤ 1 := by
    intro pre post t heq ht
    have hle := run_le_countP (f := tokens) (p := fun e => decide (e = .start))
      (fun t e t' h => tokens_step h) ht
    have hcount : pre.count .start ≤ 1 := by
      rw [heq, List.count_append] at hstart
      omega
    have hzero : tokens {} = 0 := rfl
    have hcountP : pre.countP (fun e => decide (e = .start)) = pre.count .start := rfl
    omega
  have halternating : EveryState (step clientId) {} es Alternating :=
    htokens.everyStep.everyState alternating_start
      fun t e t' htokens hI h => hI.step htokens h
  intro pre post t heq ht
  have hle : t.tokens ≤ 1 := htokens pre post t heq ht
  exact ⟨(Nat.le_add_right _ _).trans hle, (halternating pre post t heq ht).statuses⟩

/-- The connection is made, lost with two errors, and made again after an attempt that fails. -/
theorem one_life_cycle_reconnect :
    ∃ u, run (step [0x43]) {} [.setAutoReconnect true, .start, .runConnect, .connectDone false,
        .drawBind, .sendBind, .handleDisconnect, .clearRequests, .handleDisconnect, .tick 3000,
        .reconnectExpire, .reconnect, .runConnect, .connectDone true, .tick 3000, .reconnectExpire,
        .reconnect, .runConnect, .connectDone false] = some u ∧
      u.statuses = [true, false, true] ∧ u.lives ≤ 1 := by
  refine ⟨_, rfl, rfl, ?_⟩
  exact ((one_life_cycle [0x43] [.setAutoReconnect true, .start, .runConnect, .connectDone false,
    .drawBind, .sendBind, .handleDisconnect, .clearRequests, .handleDisconnect, .tick 3000,
    .reconnectExpire, .reconnect, .runConnect, .connectDone true, .tick 3000, .reconnectExpire,
    .reconnect, .runConnect, .connectDone false] (by decide)).last rfl).1

end TcpClient

end TurboNet.Asio
