import TurboNet.Asio.Dispatch

/-!
# The packet callback of the application

Reference: `claude/asio_server.cpp`, `TcpServer::start`, `TcpServer::setCallbacks`,
`TcpServer::handleIncomingPacket`, `Connection::processPacket`.

`start` replaces `packetCallback_` by a callback that calls `handleIncomingPacket`, and
`handleIncomingPacket` ends with a call of `packetCallback_`. The callback that the application has
set before `start` is gone, and the call that a packet begins calls itself again and again.
`dispatch_delivers_iff` says when a packet reaches the application: when its callback has been set
again since, before the connection was accepted or before the packet is handled. In particular it
never does, and no call ever returns, if the callbacks are set before `start` only.
-/

namespace TurboNet.Asio

open Common

namespace TcpServer

variable {serverId : List UInt8} {t t' : TcpServer} {e : Event} {j : ℕ} {c : Connection}
  {p : Packet} {d : Dispatch}

/-! ## A call on its own -/

/-- The `j`-th connection receives a packet, and then `handleIncomingPacket` runs `n` times for it:
what the thread does that runs `processPacket`. -/
def dispatchEvents (t : TcpServer) (j : ℕ) (p : Packet) (n : ℕ) : List Event :=
  .processPacket j p :: List.replicate n (.handleIncomingPacket t.dispatches.length)

/-- The call that a packet begins returns, and has passed the packet to the application's callback
once. -/
def Delivers (serverId : List UInt8) (t : TcpServer) (j : ℕ) (c : Connection) (p : Packet) : Prop :=
  ∃ n u, run (step serverId) t (t.dispatchEvents j p n) = some u ∧
    u.dispatches = t.dispatches ∧ u.userPackets = t.userPackets ++ [(c.id, p)]

/-- Taking a request out leaves the packet callback. -/
theorem takePending_packetCallback (t : TcpServer) (d : Dispatch) :
    (t.takePending d).packetCallback = t.packetCallback := by
  rcases t.takePending_cases d with ⟨r, -, -, h⟩ | ⟨-, h⟩ <;> rw [h]

/-- Taking a request out calls nothing of the application's for packets. -/
theorem takePending_userPackets (t : TcpServer) (d : Dispatch) :
    (t.takePending d).userPackets = t.userPackets := by
  rcases t.takePending_cases d with ⟨r, -, -, h⟩ | ⟨-, h⟩ <;> rw [h]

/-- A call of the packet callback does not replace it. -/
theorem callBack_packetCallback (t : TcpServer) (callback : PacketCallback) (d : Dispatch) :
    (t.callBack serverId callback d).packetCallback = t.packetCallback := by
  cases callback <;> rfl

/-- A redirect is one more call of `handleIncomingPacket` under way. -/
theorem callBack_dispatches (t : TcpServer) (callback : PacketCallback) (d : Dispatch) :
    (t.callBack serverId callback d).dispatches =
      t.dispatches ++ if callback = .redirect then [d] else [] := by
  cases callback <;> simp [callBack, callbackDone, updateConnection]

/-- The application sees the packet if the callback is its own. -/
theorem callBack_userPackets (t : TcpServer) (callback : PacketCallback) (d : Dispatch) :
    (t.callBack serverId callback d).userPackets =
      t.userPackets ++ if callback = .user then [(d.connectionId, d.packet)] else [] := by
  cases callback <;> simp [callBack, callbackDone, updateConnection]

/-- One call of `handleIncomingPacket`, the last that was begun. -/
theorem step_handleIncomingPacket (serverId : List UInt8) {ds : List Dispatch}
    (hds : t.dispatches = ds ++ [d]) :
    ∃ u, step serverId t (.handleIncomingPacket ds.length) = some u ∧
      u.packetCallback = t.packetCallback ∧
      u.dispatches = ds ++ (if t.packetCallback = .redirect then [d] else []) ∧
      u.userPackets = t.userPackets ++
        if t.packetCallback = .user then [(d.connectionId, d.packet)] else [] := by
  refine ⟨_, by rw [step, hds, List.getElem?_concat_length, Option.map_some], ?_, ?_, ?_⟩
  · rw [handleIncomingPacket, callBack_packetCallback, takePending_packetCallback]
  · rw [handleIncomingPacket, callBack_dispatches, takePending_packetCallback,
      takePending_dispatches]
    simp [List.eraseIdx_append_of_length_le]
  · rw [handleIncomingPacket, callBack_userPackets, takePending_packetCallback,
      takePending_userPackets]

/-- When the call is over, nothing more runs for it. -/
theorem run_dispatch_over {n : ℕ} {u : TcpServer}
    (h : run (step serverId) t (List.replicate n (.handleIncomingPacket t.dispatches.length)) =
      some u) : u = t := by
  cases n with
  | zero => exact (Option.some.inj h).symm
  | succ n =>
    obtain ⟨v, hv, -⟩ := run_cons_eq_some.mp h
    simp [step] at hv

/-- With the callback of `start` in place the call never returns. -/
theorem run_dispatch_redirect {ds : List Dispatch} {n : ℕ} {u : TcpServer}
    (hds : t.dispatches = ds ++ [d]) (hcallback : t.packetCallback = .redirect)
    (h : run (step serverId) t (List.replicate n (.handleIncomingPacket ds.length)) = some u) :
    u.dispatches = ds ++ [d] := by
  induction n generalizing t with
  | zero =>
    obtain rfl := Option.some.inj h
    exact hds
  | succ n ih =>
    obtain ⟨v, hv, hu⟩ := run_cons_eq_some.mp h
    obtain ⟨v', hv', hcallback', hds', -⟩ := step_handleIncomingPacket serverId hds
    obtain rfl := Option.some.inj (hv'.symm.trans hv)
    rw [if_pos hcallback] at hds'
    exact ih hds' (hcallback'.trans hcallback) hu

/-- The state after `processPacket`. -/
theorem step_processPacket_of_idle (serverId : List UInt8) (p : Packet) (hc : t.idle j = some c) :
    ∃ u, step serverId t (.processPacket j p) = some u ∧ u.packetCallback = t.packetCallback ∧
      u.dispatches = t.dispatches ++ (if c.packetCallback = .redirect then
        [⟨j, c.id, p, c.received.length⟩] else []) ∧
      u.userPackets = t.userPackets ++ if c.packetCallback = .user then [(c.id, p)] else [] := by
  refine ⟨_, by rw [step, hc, Option.map_some], ?_, ?_, ?_⟩
  · rw [processPacket, callBack_packetCallback, updateConnection]
  · rw [processPacket, callBack_dispatches, updateConnection]
  · rw [processPacket, callBack_userPackets, updateConnection]

/-- A call under way returns with the packet delivered exactly when the application's callback is
in place. -/
theorem returns_delivered_iff {ds : List Dispatch} (hds : t.dispatches = ds ++ [d]) :
    (∃ n u, run (step serverId) t (List.replicate n (.handleIncomingPacket ds.length)) = some u ∧
      u.dispatches = ds ∧ u.userPackets = t.userPackets ++ [(d.connectionId, d.packet)]) ↔
      t.packetCallback = .user := by
  obtain ⟨w, hw, -, hdispatches, huser⟩ := step_handleIncomingPacket serverId hds
  constructor
  · rintro ⟨n, u, hu, hudispatches, huuser⟩
    cases n with
    | zero =>
      -- it has not run yet
      obtain rfl := Option.some.inj hu
      rw [hds] at hudispatches
      simp at hudispatches
    | succ n =>
      cases hcallback : t.packetCallback with
      | user => rfl
      | unset =>
        simp only [hcallback, reduceCtorEq, if_false, List.append_nil] at hdispatches huser
        obtain ⟨w', hw', hu⟩ := run_cons_eq_some.mp hu
        obtain rfl := Option.some.inj (hw.symm.trans hw')
        rw [← hdispatches] at hu
        rw [run_dispatch_over hu, huser] at huuser
        simp at huuser
      | redirect =>
        rw [run_dispatch_redirect hds hcallback hu] at hudispatches
        simp at hudispatches
  · intro hcallback
    simp only [hcallback, reduceCtorEq, if_false, if_true, List.append_nil] at hdispatches huser
    exact ⟨1, w, by rw [List.replicate_one, run_cons, hw]; rfl, hdispatches, huser⟩

/-- A packet is delivered if the connection has the application's callback, or a redirect and the
server has it. -/
theorem delivers_iff (hc : t.idle j = some c) :
    Delivers serverId t j c p ↔ c.packetCallback = .user ∨
      c.packetCallback = .redirect ∧ t.packetCallback = .user := by
  obtain ⟨v, hv, hcallback, hdispatches, huser⟩ := step_processPacket_of_idle serverId p hc
  have hdelivers : Delivers serverId t j c p ↔ ∃ n u,
      run (step serverId) v (List.replicate n (.handleIncomingPacket t.dispatches.length)) =
        some u ∧
      u.dispatches = t.dispatches ∧ u.userPackets = t.userPackets ++ [(c.id, p)] := by
    simp only [Delivers, dispatchEvents, run_cons, hv, Option.bind_some]
  rw [hdelivers]
  cases hcb : c.packetCallback with
  | unset =>
    simp only [hcb, reduceCtorEq, if_false, List.append_nil] at hdispatches huser
    refine iff_of_false ?_ (by simp)
    rintro ⟨n, u, hu, -, huser'⟩
    rw [← hdispatches] at hu
    rw [run_dispatch_over hu, huser] at huser'
    simp at huser'
  | user =>
    simp only [hcb, reduceCtorEq, if_false, if_true, List.append_nil] at hdispatches huser
    exact iff_of_true ⟨0, v, rfl, hdispatches, huser⟩ (Or.inl rfl)
  | redirect =>
    simp only [hcb, reduceCtorEq, if_false, if_true, List.append_nil] at hdispatches huser
    simp only [reduceCtorEq, true_and, false_or]
    rw [← hcallback, ← huser]
    exact returns_delivered_iff hdispatches

/-! ## Callbacks set before `start` only -/

/-- The callbacks are set before `start` if they are set. -/
def SetBeforeStart (t : TcpServer) (e : Event) : Prop :=
  ∀ set ∈ [true, false], e = .setCallbacks set → t.started = false

/-- A server that has been started and all its connections use the callback of `start`; one that has
not been started has no connections. The application has not been called. -/
structure Redirected (t : TcpServer) : Prop where
  packetCallback : t.started = true → t.packetCallback = .redirect
  connections : ∀ c ∈ t.connections, t.started = true ∧ c.packetCallback = .redirect
  dispatches : t.dispatches ≠ [] → t.started = true
  userPackets : t.userPackets = []

/-- There is no connection at the start. -/
theorem redirected_start : Redirected {} where
  packetCallback := nofun
  connections := List.forall_mem_nil _
  dispatches h := absurd rfl h
  userPackets := rfl

/-- Receiving leaves the callbacks. -/
theorem Redirected.receive (h : t.Redirected) (j : ℕ) (p : Packet) :
    (t.updateConnection j (Connection.receive p)).Redirected where
  packetCallback := h.packetCallback
  connections := by
    intro c hc
    obtain ⟨i, hi⟩ := List.getElem?_of_mem hc
    rw [updateConnection, List.getElem?_modify] at hi
    obtain ⟨b, hb, rfl⟩ := Option.map_eq_some_iff.mp hi
    have hold := h.connections b (List.mem_of_getElem? hb)
    split <;> exact hold
  dispatches := h.dispatches
  userPackets := h.userPackets

/-- So does an update that leaves the callbacks of the connections. -/
theorem Redirected.updateWhere (h : t.Redirected) (q : Connection → Bool)
    {f : Connection → Connection} (hf : ∀ c : Connection, (f c).packetCallback = c.packetCallback) :
    (t.updateWhere q f).Redirected where
  packetCallback := h.packetCallback
  connections := by
    intro c hc
    obtain ⟨b, hb, rfl⟩ := List.mem_map.mp hc
    have hold := h.connections b hb
    split
    · exact ⟨hold.1, (hf b).trans hold.2⟩
    · exact hold
  dispatches := h.dispatches
  userPackets := h.userPackets

/-- Taking a request out does not start the server. -/
theorem takePending_started (t : TcpServer) (d : Dispatch) :
    (t.takePending d).started = t.started := by
  rcases t.takePending_cases d with ⟨r, -, -, h⟩ | ⟨-, h⟩ <;> rw [h]

/-- Taking a request out leaves the callbacks. -/
theorem Redirected.takePending (h : t.Redirected) (d : Dispatch) :
    (t.takePending d).Redirected where
  packetCallback := by
    rw [takePending_started, takePending_packetCallback]
    exact h.packetCallback
  connections := by
    rw [takePending_started, takePending_connections]
    exact h.connections
  dispatches := by
    rw [takePending_started, takePending_dispatches]
    exact h.dispatches
  userPackets := (t.takePending_userPackets d).trans h.userPackets

/-- So does drawing a number. -/
theorem Redirected.getNextSequence (h : t.Redirected) : t.getNextSequence.Redirected :=
  ⟨h.packetCallback, h.connections, h.dispatches, h.userPackets⟩

/-- A call of `handleIncomingPacket` calls the callback that is installed, which is itself: it
begins anew, and the others are not touched. -/
theorem Redirected.handleIncomingPacket (hI : t.Redirected) {i : ℕ}
    (hd : t.dispatches[i]? = some d) :
    ({ t with dispatches := t.dispatches.eraseIdx i }.handleIncomingPacket serverId d).Redirected ∧
      ∀ d' ∈ t.dispatches, d' ∈
        ({ t with dispatches := t.dispatches.eraseIdx i }.handleIncomingPacket
          serverId d).dispatches := by
  have hstarted : t.started = true := hI.dispatches (List.ne_nil_of_mem (List.mem_of_getElem? hd))
  have herase : { t with dispatches := t.dispatches.eraseIdx i }.Redirected :=
    ⟨hI.packetCallback, hI.connections, fun _ => hstarted, hI.userPackets⟩
  have htake := herase.takePending d
  rw [TcpServer.handleIncomingPacket,
    htake.packetCallback (by rw [takePending_started]; exact hstarted)]
  refine ⟨⟨htake.packetCallback, htake.connections, fun _ => ?_, htake.userPackets⟩,
    fun d' hd' => ?_⟩
  · exact (takePending_started _ _).trans hstarted
  · rw [callBack_dispatches, takePending_dispatches, if_pos rfl]
    obtain ⟨k, hk⟩ := List.getElem?_of_mem hd'
    by_cases hki : k = i
    · subst hki
      obtain rfl := Option.some.inj (hd.symm.trans hk)
      exact List.mem_append_right _ (List.mem_singleton_self _)
    · exact List.mem_append_left _ (List.mem_eraseIdx_iff_getElem?.mpr ⟨k, hki, hk⟩)

/-- While the callbacks are not set again, every call stays under way. -/
theorem Redirected.step (hI : t.Redirected) (h : step serverId t e = some t')
    (hset : SetBeforeStart t e) : t'.Redirected ∧ ∀ d ∈ t.dispatches, d ∈ t'.dispatches := by
  -- a step that touches neither callbacks nor calls of `handleIncomingPacket`
  have hquiet (hsame : (t'.started, t'.packetCallback, t'.connections, t'.userPackets,
        t'.dispatches) =
      (t.started, t.packetCallback, t.connections, t.userPackets, t.dispatches)) :
      t'.Redirected ∧ ∀ d ∈ t.dispatches, d ∈ t'.dispatches := by
    obtain ⟨hcallback, hconnections, hdispatches, huser⟩ := hI
    simp only [Prod.mk.injEq] at hsame
    obtain ⟨hst, hcb, hcs, hup, hds⟩ := hsame
    rw [← hst, ← hcb] at hcallback
    rw [← hst, ← hcs] at hconnections
    rw [← hst, ← hds] at hdispatches
    exact ⟨⟨hcallback, hconnections, hdispatches, hup.trans huser⟩, fun d hd => hds ▸ hd⟩
  cases stepped_of_step h with
  | setCallbacks set =>
    have hstarted : t.started = false := hset set (by cases set <;> simp) rfl
    refine ⟨⟨fun hs => ?_, hI.connections, hI.dispatches, hI.userPackets⟩, fun _ hd => hd⟩
    exact absurd (hstarted.symm.trans hs) (by simp)
  | start =>
    refine ⟨⟨fun _ => rfl, fun c hc => ⟨rfl, (hI.connections c hc).2⟩, fun _ => rfl,
      hI.userPackets⟩, fun _ hd => hd⟩
  | accept error hstarted =>
    cases error with
    | true => exact hquiet rfl
    | false =>
      refine ⟨⟨hI.packetCallback, fun c hc => ?_, hI.dispatches, hI.userPackets⟩, fun _ hd => hd⟩
      rcases List.mem_append.mp hc with hc | hc
      · exact (hI.updateWhere (·.id = t.nextConnectionId)
          (f := fun b => { b with registered := false }) fun _ => rfl).connections c hc
      · obtain rfl := List.mem_singleton.mp hc
        exact ⟨hstarted, hI.packetCallback hstarted⟩
  | unregisterConnection => exact ⟨hI.updateWhere _ fun _ => rfl, fun _ hd => hd⟩
  | processPacket j p c hc =>
    obtain ⟨hstarted, hcallback⟩ := hI.connections c (List.mem_of_getElem? (idle_eq_some hc))
    have hreceive := hI.receive j p
    rw [processPacket, hcallback]
    refine ⟨⟨hreceive.packetCallback, hreceive.connections, fun _ => hstarted,
      hreceive.userPackets⟩, fun d hd => List.mem_append_left _ hd⟩
  | handleIncomingPacket i d hd => exact hI.handleIncomingPacket hd
  | sendDrawn k c =>
    rw [sendDrawn]
    split
    · have hsend := hI.updateWhere (fun b => b.registered && decide (b.id = c.connectionId))
        (f := (·.sendPacket none (createPacket ⟨idRequest, 0, c.sequence, c.data⟩))) fun _ => rfl
      exact ⟨⟨hsend.packetCallback, hsend.connections, hsend.dispatches, hsend.userPackets⟩,
        fun _ hd => hd⟩
    · exact ⟨⟨hI.packetCallback, hI.connections, hI.dispatches, hI.userPackets⟩, fun _ hd => hd⟩
  | sendPacketTo => exact ⟨hI.updateWhere _ fun _ => rfl, fun _ hd => hd⟩
  | sendTo => exact ⟨hI.getNextSequence.updateWhere _ fun _ => rfl, fun _ hd => hd⟩
  | broadcastPacket => exact ⟨hI.updateWhere _ fun _ => rfl, fun _ hd => hd⟩
  | broadcast => exact ⟨hI.getNextSequence.updateWhere _ fun _ => rfl, fun _ hd => hd⟩
  | ensureTimer =>
    simp only [ensureTimer]
    split <;>
      exact ⟨⟨hI.packetCallback, hI.connections, hI.dispatches, hI.userPackets⟩, fun _ hd => hd⟩
  | finishSweep j hasPending => cases hasPending <;> exact hquiet rfl
  | _ => exact hquiet rfl

/-- A call that is under way stays so while the callbacks are not set. -/
theorem Redirected.run {fs : List Event} {u : TcpServer} (hI : t.Redirected) (hd : d ∈ t.dispatches)
    (h : run (TcpServer.step serverId) t fs = some u) (hset : ∀ set, Event.setCallbacks set ∉ fs) :
    u.Redirected ∧ d ∈ u.dispatches := by
  induction fs generalizing t with
  | nil =>
    obtain rfl := Option.some.inj h
    exact ⟨hI, hd⟩
  | cons e fs ih =>
    obtain ⟨v, hv, hu⟩ := run_cons_eq_some.mp h
    have hset' : SetBeforeStart t e :=
      fun set _ he => absurd (he ▸ List.mem_cons_self) (hset set)
    obtain ⟨hI', hkeep⟩ := hI.step hv hset'
    exact ih hI' (hkeep d hd) hu fun set hmem => hset set (List.mem_cons_of_mem e hmem)

/-- **The packet callback of the application.** In every state that can be reached, the call that a
packet on a connection begins returns, and has passed the packet to the application's callback once,
exactly when the connection was accepted while that callback was set, or `packetCallback_` is that
callback now. If the callbacks have been set before `start` only, then in whatever order the steps
of other threads come, the call does not return and the application is never called. -/
theorem dispatch_delivers_iff (serverId : List UInt8) (es : List Event) (t : TcpServer)
    (hrun : run (step serverId) {} es = some t) (j : ℕ) (c : Connection)
    (hc : t.idle j = some c) (p : Packet) :
    (Delivers serverId t j c p ↔ c.packetCallback = .user ∨
      c.packetCallback = .redirect ∧ t.packetCallback = .user) ∧
    (EveryStep (step serverId) {} es SetBeforeStart → ∀ fs u,
      run (step serverId) t (.processPacket j p :: fs) = some u →
      (∀ set, Event.setCallbacks set ∉ fs) →
      u.userPackets = [] ∧ ∃ d ∈ u.dispatches, d.connection = j ∧ d.packet = p) := by
  refine ⟨delivers_iff hc, fun hset fs u hu hfs => ?_⟩
  have hI : t.Redirected := by
    have hall := hset.everyState redirected_start
      fun t e t' hC hI ht => (Redirected.step hI ht hC).1
    exact hall.last hrun
  obtain ⟨v, hv, hu⟩ := run_cons_eq_some.mp hu
  have hI' : v.Redirected := (hI.step hv fun _ _ he => nomatch he).1
  have hcallback := (hI.connections c (List.mem_of_getElem? (idle_eq_some hc))).2
  have hd : (⟨j, c.id, p, c.received.length⟩ : Dispatch) ∈ v.dispatches := by
    rw [step, hc, Option.map_some] at hv
    obtain rfl := Option.some.inj hv
    rw [processPacket, callBack_dispatches, if_pos hcallback]
    exact List.mem_append_right _ (List.mem_singleton_self _)
  obtain ⟨hI'', hd'⟩ := hI'.run hd hu hfs
  exact ⟨hI''.userPackets, _, hd', rfl, rfl⟩

/-- The callback is set again after `start`: the packet reaches the application. -/
theorem dispatch_delivers_set_again :
    ∃ t c, run (step [0x53]) {} [.setCallbacks true, .start, .accept false, .setCallbacks true] =
        some t ∧ t.idle 0 = some c ∧
      Delivers [0x53] t 0 c (createPacket ⟨idRequest, 0, 7, [0x61]⟩) :=
  ⟨_, _, rfl, rfl, (dispatch_delivers_iff [0x53]
    [.setCallbacks true, .start, .accept false, .setCallbacks true] _ rfl 0 _ rfl _).1.mpr
    (Or.inr ⟨rfl, rfl⟩)⟩

/-- The callback is set before `start`: the packet does not reach the application, and the request
in it is not answered. -/
theorem user_callback_lost :
    ∃ t c, run (step [0x53]) {} [.setCallbacks true, .start, .accept false] = some t ∧
      t.idle 0 = some c ∧ ¬ Delivers [0x53] t 0 c (createPacket ⟨idRequest, 0, 7, [0x61]⟩) ∧
      ∃ u, run (step [0x53]) t (t.dispatchEvents 0 (createPacket ⟨idRequest, 0, 7, [0x61]⟩) 3) =
          some u ∧ u.dispatches.length = 1 ∧ u.userPackets = [] ∧
        u.connections.map Connection.sent = [[]] := by
  refine ⟨_, _, rfl, rfl, fun hdelivers => ?_, _, rfl, rfl, rfl, rfl⟩
  rcases (delivers_iff rfl).mp hdelivers with hcallback | ⟨-, hcallback⟩
  · exact absurd hcallback (by decide)
  · exact absurd hcallback (by decide)

end TcpServer

end TurboNet.Asio
