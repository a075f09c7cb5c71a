import TurboNet.Asio.ClientSocket

/-!
# What reconnecting does to the write queue of the asio client

Reference: `claude/asio_client.cpp`, `TcpClient::doWrite`, `TcpClient::close`,
`TcpClient::handleDisconnect`, `TcpClient::connect`, `TcpClient::sendPacket`,
`TcpClient::sendBindPacket`.

`write_queue_` is not empty as long as a write is in flight, and `sendPacket` begins a write only
when it finds the queue empty. No path clears the queue when a write fails or its socket is closed:
what is in it then stays, no write is in flight for it, and nothing is ever written again, on this
connection or on later ones. `sending_iff` says when the queue tells the truth.

Nor does `BIND` have to be what is written first on a new connection. `connected_` is set before it
is sent, and the handlers of packets that were sent before may still be waiting.
-/

namespace TurboNet.Asio

open Common

namespace ClientSocket

variable {host : Endian} {clientId : List UInt8} {t t' : ClientSocket} {e : Event}

/-- The queue is not empty exactly when a write is in flight on the socket, and what was written
first on the socket of a reconnection is its `BIND`. -/
structure Sending (t : ClientSocket) : Prop where
  running : t.output.Running t.socket
  bindFirst : ∀ s ∈ t.made.tail, ∀ f ∈ t.output.firstOn s, f.bind = some s

/-- The event keeps the queue truthful. No write fails; the socket is closed and opened only when
nothing is queued; nothing has been written on the socket of a reconnection before the connection is
made; and the first handler of `sendPacket` to run on it is not of a packet that had been accepted
before `sendBindPacket` was called. -/
def keepsSending (host : Endian) (t : ClientSocket) : Event → Bool
  | .writeFailed _ => false
  | .connectDone false =>
    t.made.isEmpty || t.made.contains t.socket || (t.output.firstOn t.socket).isNone
  | .runSend =>
    !(t.made.tail.contains t.socket && t.output.queue.isEmpty &&
        (t.output.firstOn t.socket).isNone) ||
      t.posts.head?.all fun f => f.after = some t.socket
  | e => !t.moves host e || t.output.queue.isEmpty

/-- For an event that is none of the three, all that matters is whether the socket moves under a
queue. -/
theorem keepsSending_other
    (he : e ≠ .connectDone false ∧ e ≠ .runSend ∧ ∀ i, e ≠ .writeFailed i) :
    keepsSending host t e = (!t.moves host e || t.output.queue.isEmpty) := by
  obtain ⟨hconnect, hsend, hfail⟩ := he
  cases e with
  | connectDone error =>
    cases error with
    | true => rfl
    | false => exact absurd rfl hconnect
  | runSend => exact absurd rfl hsend
  | writeFailed i => exact absurd rfl (hfail i)
  | _ => rfl

/-! ## What is written when -/

/-- The writes have been begun on the sockets there have been. -/
def Begun (t : ClientSocket) : Prop := t.output.On (· ≤ t.socket)

/-- Every step begins writes only on the sockets there have been. -/
theorem Begun.step (hI : t.Begun) (h : ClientSocket.step host clientId t e = some t') :
    t'.Begun := by
  cases outputChange_of_step h with
  | other _ hsocket houtput =>
    rw [Begun, houtput, hsocket]
    exact hI.mono fun s hs => hs.trans (Nat.le_add_right _ _)
  | connected _ hsocket houtput =>
    rw [Begun, houtput, hsocket]
    exact hI
  | push f _ _ hsocket houtput =>
    rw [Begun, houtput, hsocket]
    exact hI.push (Nat.le_refl _) f
  | complete i _ hsocket houtput =>
    rw [Begun, hsocket]
    exact hI.complete (Nat.le_refl _) houtput
  | fail i _ hsocket houtput | abort i w _ _ _ hsocket houtput =>
    rw [Begun, hsocket]
    exact hI.fail houtput

/-- A write on an earlier socket is not what a truthful queue stands for. -/
theorem Begun.writes_socket (hI : t.Begun) (hP : t.Sending) {i : ℕ} {w : ℕ × Send}
    (hw : t.output.writes[i]? = some w) : w.1 = t.socket := by
  obtain ⟨hwrites, -, hqueue⟩ := hI.front.getElem?_eq_some hw
  have hne : t.output.queue ≠ [] := by
    rw [hqueue]
    simp
  obtain ⟨w', hw', hsocket⟩ := hP.running.mp hne
  rw [hwrites, List.mem_singleton] at hw'
  rw [← hw', hsocket]

/-- Every step keeps a client connected that is about to send its `BIND`. -/
theorem Binding.step (hI : t.Binding) (h : ClientSocket.step host clientId t e = some t') :
    t'.Binding :=
  run_induction (P := fun c : TcpClient => c.handler = some .connected ∨
      (∃ sequence, c.handler = some (.bind sequence)) → c.connected = true)
    hI (fun _ _ _ hc hstep => TcpClient.connected_of_binding_step hc hstep) (client_step h)

/-- What the packets remember is true of the sockets there have been. As long as nothing has been
written on the socket that `sendBindPacket` has been called for, its packet is the first of those
that have been accepted from then on. -/
structure Tagged (t : ClientSocket) : Prop where
  begun : t.Begun
  binding : t.Binding
  made : ∀ s ∈ t.made, s ≤ t.socket
  bound : ∀ s ∈ t.bound, s ∈ t.made
  frames : ∀ f ∈ t.output.seen ++ t.posts, ∀ s ∈ f.after, s ∈ t.made
  posts : ∀ f ∈ t.posts, f.after = some t.socket → t.bound = some t.socket
  next : t.bound = some t.socket → t.output.firstOn t.socket = none →
    ∃ f, (t.posts.find? fun f => f.after = some t.socket) = some f ∧ f.bind = some t.socket

/-- Nothing has been written at the start. -/
theorem tagged_start : Tagged {} where
  begun := WriteQueue.on_empty _
  binding := by simp [Binding]
  made := List.forall_mem_nil _
  bound := by simp
  frames := by simp [WriteQueue.seen]
  posts := List.forall_mem_nil _
  next := by simp

/-- A socket that has just been opened or closed has a new number. -/
theorem Tagged.fresh (hI : t.Tagged) : t.socket + 1 ∉ t.made := by
  intro hmem
  have := hI.made _ hmem
  omega

/-- Packets are accepted, and the socket may be closed or opened. -/
theorem Tagged.accepts (hI : t.Tagged) (hbegun : t'.Begun) (hbinding : t'.Binding)
    {moves : Bool} (hsocket : t'.socket = t.socket + moves.toNat) (houtput : t'.output = t.output)
    (hmade : t'.made = t.made) (hposts : t.PostChange t') : t'.Tagged := by
  obtain ⟨new, heq, hbound, hnew⟩ : ∃ new, t'.posts = t.posts ++ new ∧
      (∀ s ∈ t'.bound, s ∈ t.made) ∧ ∀ f ∈ new, f.after = t'.bound := by
    cases hposts with
    | packets new hposts hbound hnew =>
      exact ⟨new, hposts, hbound ▸ hI.bound, fun f hf => (hnew f hf).trans hbound.symm⟩
    | bind new hposts hbound hnew =>
      refine ⟨new, hposts, ?_, fun f hf => (hnew f hf).2⟩
      rw [hbound]
      intro s hs
      split at hs
      · obtain rfl := Option.some.inj hs
        assumption
      · exact absurd hs (by simp)
  have hframes : ∀ f ∈ t'.output.seen ++ t'.posts, ∀ s ∈ f.after, s ∈ t'.made := by
    rw [houtput, heq, hmade, ← List.append_assoc]
    intro f hf s hs
    rcases List.mem_append.mp hf with hf | hf
    · exact hI.frames f hf s hs
    · exact hbound s (hnew f hf ▸ hs)
  cases moves with
  | true =>
    -- nothing refers to the new socket
    have hfresh : t'.socket ∉ t'.made := by
      rw [hsocket, hmade]
      exact hI.fresh
    refine ⟨hbegun, hbinding, fun s hs => ?_, hmade.symm ▸ hbound, hframes, ?_, ?_⟩
    · rw [hmade] at hs
      rw [hsocket]
      exact (hI.made s hs).trans (Nat.le_add_right _ _)
    · intro f hf hafter
      exact absurd (hframes f (List.mem_append_right _ hf) _ hafter) hfresh
    · intro hthis
      exact absurd (hmade.symm ▸ hbound _ hthis) hfresh
  | false =>
    have hsame : t'.socket = t.socket := hsocket
    refine ⟨hbegun, hbinding, ?_, hmade.symm ▸ hbound, hframes, ?_, ?_⟩
    · rw [hmade, hsame]
      exact hI.made
    · rw [hsame]
      intro f hf hafter
      rw [heq] at hf
      rcases List.mem_append.mp hf with hf | hf
      · -- the connection has been made, so `sendBindPacket` is called for it if it is called
        have hmem := hI.frames f (List.mem_append_right _ hf) _ hafter
        cases hposts with
        | packets _ _ hbound _ => exact hbound.trans (hI.posts f hf hafter)
        | bind _ _ hbound _ => exact hbound.trans (if_pos hmem)
      · exact (hnew f hf).symm.trans hafter
    · rw [hsame, houtput, heq]
      intro hthis hnone
      cases hfind : t.posts.find? fun f => decide (f.after = some t.socket) with
      | some f =>
        have hafter : f.after = some t.socket := by simpa using List.find?_some hfind
        have hbefore := hI.posts f (List.mem_of_find?_eq_some hfind) hafter
        obtain ⟨g, hg, hbind⟩ := hI.next hbefore hnone
        obtain rfl := Option.some.inj (hfind.symm.trans hg)
        exact ⟨f, by rw [List.find?_append, hfind, Option.some_or], hbind⟩
      | none =>
        cases hposts with
        | packets _ _ hbound _ =>
          obtain ⟨g, hg, -⟩ := hI.next (hbound.symm.trans hthis) hnone
          exact absurd (hfind.symm.trans hg) (by simp)
        | bind new' hposts _ hnew' hsent =>
          obtain rfl := List.append_cancel_left (heq.symm.trans hposts)
          obtain ⟨f, rest, rfl⟩ := List.exists_cons_of_ne_nil (hsent hI.binding)
          obtain ⟨hbind, hafter⟩ := hnew' f List.mem_cons_self
          refine ⟨f, ?_, hbind.trans hthis⟩
          rw [List.find?_append, hfind, Option.none_or]
          exact List.find?_cons_of_pos (by simp [hafter, hthis])

/-- The packet that was accepted when `sendBindPacket` had been called, and that is the oldest with
nothing written yet, is that of `sendBindPacket`. -/
theorem Tagged.bind_iff (hI : t.Tagged) {f : Send} {rest : List Send} (hposts : t.posts = f :: rest)
    (hnone : t.output.firstOn t.socket = none) :
    f.bind = some t.socket ↔ f.after = some t.socket := by
  refine ⟨fun hbind => f.bind_after _ hbind, fun hafter => ?_⟩
  have hmem : f ∈ t.posts := hposts ▸ List.mem_cons_self
  obtain ⟨g, hg, hbind⟩ := hI.next (hI.posts f hmem hafter) hnone
  rw [hposts, List.find?_cons_of_pos (by simp [hafter])] at hg
  exact Option.some.inj hg ▸ hbind

/-- The end of a write adds nothing to what has been written, and leaves what was written first. -/
theorem Tagged.writeEnds (hI : t.Tagged) (hbegun : t'.Begun) (hbinding : t'.Binding)
    (hseen : ∀ g ∈ t'.output.seen, g ∈ t.output.seen)
    (hfirst : t'.output.firstOn t.socket = t.output.firstOn t.socket)
    (hsocket : t'.socket = t.socket) (hmade : t'.made = t.made) (hposts : t'.posts = t.posts)
    (hbound : t'.bound = t.bound) : t'.Tagged := by
  refine ⟨hbegun, hbinding, ?_, ?_, fun g hg s hs => ?_, ?_, ?_⟩
  · rw [hmade, hsocket]
    exact hI.made
  · rw [hmade, hbound]
    exact hI.bound
  · rw [hmade]
    refine hI.frames g ?_ s hs
    rw [hposts, List.mem_append] at hg
    rw [List.mem_append]
    exact hg.imp_left (hseen g)
  · rw [hposts, hsocket, hbound]
    exact hI.posts
  · rw [hposts, hsocket, hbound, hfirst]
    exact hI.next

/-- Every step keeps what the packets remember true. -/
theorem Tagged.step (hI : t.Tagged) (hP : t.Sending)
    (h : ClientSocket.step host clientId t e = some t') : t'.Tagged := by
  have hbegun := hI.begun.step h
  have hbinding := hI.binding.step h
  cases outputChange_of_step h with
  | other _ hsocket houtput hmade hposts =>
    exact hI.accepts hbegun hbinding hsocket houtput hmade hposts
  | connected _ hsocket houtput hmade hposts hbound =>
    have hsubset : ∀ s ∈ t.made, s ∈ t'.made := by
      intro s hs
      rw [hmade]
      split
      · exact hs
      · exact List.mem_append_left _ hs
    refine ⟨hbegun, hbinding, fun s hs => ?_, fun s hs => ?_, fun f hf s hs => ?_, ?_, ?_⟩
    · rw [hsocket]
      rw [hmade] at hs
      split at hs
      · exact hI.made s hs
      · rcases List.mem_append.mp hs with hs | hs
        · exact hI.made s hs
        · exact Nat.le_of_eq (List.mem_singleton.mp hs)
    · exact hsubset s (hI.bound s (hbound ▸ hs))
    · rw [houtput, hposts] at hf
      exact hsubset s (hI.frames f hf s hs)
    · rw [hposts, hsocket, hbound]
      exact hI.posts
    · rw [hposts, hsocket, hbound, houtput]
      exact hI.next
  | push f _ hposts hsocket houtput hmade hbound =>
    refine ⟨hbegun, hbinding, ?_, ?_, fun g hg s hs => ?_, fun g hg => ?_, fun _ hnone => ?_⟩
    · rw [hmade, hsocket]
      exact hI.made
    · rw [hmade, hbound]
      exact hI.bound
    · rw [hmade]
      refine hI.frames g ?_ s hs
      rw [houtput] at hg
      rw [hposts, List.mem_append, List.mem_cons]
      rcases List.mem_append.mp hg with hg | hg
      · exact (WriteQueue.mem_seen_push hg).imp_right Or.inl
      · exact Or.inr (Or.inr hg)
    · rw [hsocket, hbound]
      exact hI.posts g (hposts ▸ List.mem_cons_of_mem f hg)
    · -- a write has been begun on the socket: now, or the one that the packet waits for
      rw [houtput, hsocket, WriteQueue.firstOn_push, Option.or_eq_none_iff] at hnone
      obtain ⟨hfirst, hqueue⟩ := hnone
      have hne : t.output.queue ≠ [] := by
        rintro hempty
        simp [hempty] at hqueue
      have hsome := WriteQueue.isSome_firstOn hI.begun hP.running hne
      exact absurd hfirst (Option.isSome_iff_ne_none.mp hsome)
  | complete i _ hsocket houtput hmade hposts hbound =>
    refine hI.writeEnds hbegun hbinding ?_ ?_ hsocket hmade hposts hbound
    · exact fun g => WriteQueue.mem_seen_complete hI.begun.front houtput
    · exact WriteQueue.firstOn_complete hI.begun hP.running houtput t.socket
  | fail i _ hsocket houtput hmade hposts hbound
    | abort i w _ _ _ hsocket houtput hmade hposts hbound =>
    refine hI.writeEnds hbegun hbinding ?_ ?_ hsocket hmade hposts hbound
    · exact fun g => WriteQueue.mem_seen_fail houtput
    · exact WriteQueue.firstOn_fail houtput t.socket

/-! ## One step -/

/-- An event of any other kind keeps the queue truthful if and only if it does not move the socket
under a queue. -/
theorem sending_step_other (hI : t.Begun) (hP : t.Sending)
    (he : e ≠ .connectDone false ∧ e ≠ .runSend ∧ ∀ i, e ≠ .writeFailed i)
    (hsocket : t'.socket = t.socket + (t.moves host e).toNat) (houtput : t'.output = t.output)
    (hmade : t'.made = t.made) : t'.Sending ↔ keepsSending host t e = true := by
  rw [keepsSending_other he]
  cases hmoves : t.moves host e with
  | false =>
    rw [hmoves] at hsocket
    have hsame : t'.socket = t.socket := hsocket
    refine iff_of_true ⟨?_, ?_⟩ rfl
    · rw [houtput, hsame]
      exact hP.running
    · rw [houtput, hmade]
      exact hP.bindFirst
  | true =>
    -- the number of the socket is new
    rw [hmoves] at hsocket
    have hnext : t'.socket = t.socket + 1 := hsocket
    have hrunning : t'.output.Running t'.socket ↔ t.output.queue = [] := by
      rw [houtput, hnext]
      refine WriteQueue.running_iff_of_fresh fun w hw hs => ?_
      have hle : w.1 ≤ t.socket := hI.stream w (hI.begun w hw)
      omega
    rw [Bool.not_true, Bool.false_or, List.isEmpty_iff, ← hrunning]
    refine ⟨fun hP' => hP'.running, fun hrunning => ⟨hrunning, ?_⟩⟩
    rw [houtput, hmade]
    exact hP.bindFirst

/-- A connection that is made keeps the queue truthful if and only if the event does. -/
theorem sending_step_connected (hI : t.Tagged) (hP : t.Sending) (hsocket : t'.socket = t.socket)
    (houtput : t'.output = t.output)
    (hmade : t'.made = if t.socket ∈ t.made then t.made else t.made ++ [t.socket]) :
    t'.Sending ↔ keepsSending host t (.connectDone false) = true := by
  have hrunning : t'.output.Running t'.socket := by
    rw [houtput, hsocket]
    exact hP.running
  rw [keepsSending, Bool.or_eq_true, Bool.or_eq_true, List.isEmpty_iff, List.contains_iff_mem,
    Option.isNone_iff_eq_none]
  by_cases hagain : t.socket ∈ t.made
  · -- the socket has been connected before
    rw [if_pos hagain] at hmade
    refine iff_of_true ⟨hrunning, ?_⟩ (Or.inl (Or.inr hagain))
    rw [hmade, houtput]
    exact hP.bindFirst
  rw [if_neg hagain] at hmade
  by_cases hfirst : t.made = []
  · -- the first connection is not a reconnection
    refine iff_of_true ⟨hrunning, ?_⟩ (Or.inl (Or.inl hfirst))
    rw [hmade, hfirst]
    simp
  rw [or_iff_right (not_or.mpr ⟨hfirst, hagain⟩)]
  have htail : t'.made.tail = t.made.tail ++ [t.socket] := by
    rw [hmade, List.tail_append_of_ne_nil hfirst]
  constructor
  · -- what has been written is no `BIND` of a connection that is only now made
    intro hP'
    by_contra hsome
    obtain ⟨f, hf⟩ := Option.ne_none_iff_exists'.mp hsome
    have hbind := hP'.bindFirst t.socket (by simp [htail]) f (houtput ▸ hf)
    have hseen := List.mem_append_left t.posts (WriteQueue.mem_seen_of_firstOn hf)
    exact hagain (hI.frames f hseen _ (f.bind_after _ hbind))
  · refine fun hnone => ⟨hrunning, fun s hs f hf => ?_⟩
    rw [houtput] at hf
    rw [htail] at hs
    rcases List.mem_append.mp hs with hs | hs
    · exact hP.bindFirst s hs f hf
    · obtain rfl := List.mem_singleton.mp hs
      exact absurd (hnone.symm.trans hf) (by simp)

/-- The handler of a posted packet keeps the queue truthful if and only if the event does. -/
theorem sending_step_push {f : Send} (hI : t.Tagged) (hP : t.Sending)
    (hposts : t.posts = f :: t'.posts) (hsocket : t'.socket = t.socket)
    (houtput : t'.output = t.output.push t.socket f) (hmade : t'.made = t.made) :
    t'.Sending ↔ keepsSending host t .runSend = true := by
  have hrunning : t'.output.Running t'.socket := by
    rw [houtput, hsocket]
    exact hP.running.push f
  have hkeeps : keepsSending host t .runSend = true ↔
      (t.socket ∈ t.made.tail → t.output.queue = [] → t.output.firstOn t.socket = none →
        f.after = some t.socket) := by
    rw [keepsSending, hposts, List.head?_cons]
    simp only [Option.all_some, Bool.or_eq_true, Bool.not_eq_true', Bool.and_eq_false_iff,
      decide_eq_true_eq, List.contains_eq_mem, List.isEmpty_eq_false_iff, decide_eq_false_iff_not,
      Option.isNone_eq_false_iff, Option.isSome_iff_ne_none]
    tauto
  rw [hkeeps]
  constructor
  · -- nothing has been written on the socket yet, so this packet is going to be the first
    intro hP' hs hqueue hnone
    refine (hI.bind_iff hposts hnone).mp (hP'.bindFirst t.socket (hmade ▸ hs) f ?_)
    rw [houtput, WriteQueue.firstOn_push, hnone, if_pos ⟨hqueue, rfl⟩]
    rfl
  · -- what was written first on a socket stays so, unless nothing was
    refine fun hafter => ⟨hrunning, fun s hs g hg => ?_⟩
    rw [hmade] at hs
    rw [houtput, WriteQueue.firstOn_push] at hg
    cases hfirst : t.output.firstOn s with
    | some g' =>
      rw [hfirst, Option.some_or] at hg
      exact hP.bindFirst s hs g (hfirst.trans hg)
    | none =>
      rw [hfirst, Option.none_or] at hg
      split at hg
      · rename_i h
        obtain ⟨hqueue, rfl⟩ := h
        obtain rfl := Option.some.inj hg
        exact (hI.bind_iff hposts hfirst).mpr (hafter hs hqueue hfirst)
      · exact absurd hg (by simp)

/-- A step keeps the queue truthful if and only if the event does. -/
theorem sending_step (hI : t.Tagged) (hP : t.Sending) (h : step host clientId t e = some t') :
    t'.Sending ↔ keepsSending host t e = true := by
  cases outputChange_of_step h with
  | other he hsocket houtput hmade => exact sending_step_other hI.begun hP he hsocket houtput hmade
  | connected he hsocket houtput hmade =>
    subst he
    exact sending_step_connected hI hP hsocket houtput hmade
  | push f he hposts hsocket houtput hmade =>
    subst he
    exact sending_step_push hI hP hposts hsocket houtput hmade
  | complete i he hsocket houtput hmade =>
    subst he
    refine iff_of_true ⟨?_, fun s hs f hf => ?_⟩ rfl
    · rw [hsocket]
      exact .complete hI.begun.front houtput
    · rw [WriteQueue.firstOn_complete hI.begun hP.running houtput] at hf
      exact hP.bindFirst s (hmade ▸ hs) f hf
  | fail i he hsocket houtput hmade =>
    subst he
    refine iff_of_false (fun hP' => ?_) (by simp [keepsSending])
    exact hI.begun.front.not_running_of_fail houtput _ hP'.running
  | abort i w he hw hne => exact absurd (hI.begun.writes_socket hP hw) hne

/-- **Sending after a reconnection.** In every state of a run `write_queue_` is not empty exactly
when a write is in flight on the socket, and what is written first on the socket of a reconnection
is its `BIND`, exactly when no write fails, the socket is closed and opened only when nothing is
queued, no handler of `sendPacket` begins to write on the socket of a reconnection before the
connection is made, and the first one to do so afterwards is not of a packet that was accepted
before the call of `sendBindPacket`. -/
theorem sending_iff (host : Endian) (clientId : List UInt8) (es : List Event) (u : ClientSocket)
    (hrun : run (step host clientId) {} es = some u) :
    EveryState (step host clientId) {} es Sending ↔
      EveryStep (step host clientId) {} es fun t e => keepsSending host t e = true := by
  refine everyState_iff_everyStep_of_kept (I := Tagged) ?_ tagged_start ?_ ?_ hrun
  · exact ⟨iff_of_false (by simp) (by simp), List.forall_mem_nil _⟩
  · exact fun t e t' _ _ hI hP ht => hI.step hP ht
  · exact fun t e t' _ _ hI hP ht => sending_step hI hP ht

/-- The client connects and its `BIND` goes into the queue. -/
def binds : List Event :=
  [.client .runConnect (0, 0), .resolved false, .connectDone false, .client .drawBind (0, 0),
    .client .sendBind (0, 0), .runSend]

/-- The client is started with reconnection enabled. -/
def starts : List Event := [.client (.setAutoReconnect true) (0, 0), .client .start (0, 0)]

/-- The requests are dropped and the wait for the next attempt is over. -/
def waits : List Event :=
  [.client .clearRequests (0, 0), .client (.tick 3000) (0, 0), .client .reconnectExpire (0, 0),
    .client .reconnect (0, 0)]

/-- The connection is lost when nothing is queued, and made again. -/
theorem sending_iff_reconnect :
    EveryState (step .little [0x43]) {}
      (starts ++ binds ++ [.writeDone 0, .readFailed 0] ++ waits ++ binds ++ [.writeDone 0])
      Sending :=
  (sending_iff .little [0x43]
    (starts ++ binds ++ [.writeDone 0, .readFailed 0] ++ waits ++ binds ++ [.writeDone 0]) _
    rfl).mpr (by decide)

/-- The write of the first `BIND` fails. The client connects again, and the `BIND` of the new
connection waits behind the first one, with no write in flight. -/
theorem failed_write_blocks_queue :
    ∃ u, run (step .little [0x43]) {} (starts ++ binds ++ [.writeFailed 0] ++ waits ++ binds) =
        some u ∧
      u.client.connected = true ∧ u.output.queue.map Send.bind = [some 1, some 3] ∧
      u.output.writes = [] ∧ u.output.firstOn u.socket = none ∧ ¬ Sending u := by
  refine ⟨_, rfl, by decide, by decide, by decide, by decide, fun h => ?_⟩
  obtain ⟨w, hw, -⟩ := h.running.mp (by decide)
  exact List.not_mem_nil hw

end ClientSocket

end TurboNet.Asio
