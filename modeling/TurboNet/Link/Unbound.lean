import TurboNet.Link.Arrival

/-!
# A client that does not bind

Reference: `turbonet_client.cpp`, `connect`, `onWrite`; `turbonet_server.cpp`,
`Session::onReadBody`.

A client without an id sends no bind request when it connects, and a session ignores everything
before one. Writes may fail, and frames may be dropped because a write was in progress; what comes
in at the session are whole frames all the same, none of them a bind request, and nothing ever goes
back (`unbound_unanswered`).
-/

namespace TurboNet

open Common

namespace Packet

/-- The packet is no bind request, and has a length that a receiver gets right. -/
def Plain (p : Packet) : Prop := p.packetId ≠ 0x01 ∧ p.payload.length < 2 ^ 32

instance (p : Packet) : Decidable p.Plain := inferInstanceAs (Decidable (_ ∧ _))

end Packet

/-! ## What the client writes -/

/-- The session has still to get `rest` of the writes that the client has begun. A new write is
begun only when the buffer is empty. -/
inductive Writes (t : Sender) (up : Pipe UInt8) (rest : List UInt8) : Prop where
  | idle (hwriting : t.writing = none) (hbuffer : t.txBuffer = []) (hleft : up.left = [])
      (hrest : up.transit = rest)
  | writing (hwriting : t.writing.isSome = true) (hbuffer : t.txBuffer ≠ [])
      (hrest : up.transit ++ up.left = rest)
  | broken (hwriting : t.writing = none) (hbuffer : t.txBuffer ≠ [])
      (hrest : up.transit ++ up.left <+: rest)

namespace Writes

variable {t : Sender} {up up' : Pipe UInt8} {rest bs pkt : List UInt8} {posted : List (List UInt8)}

/-- A posted frame is not begun yet. -/
theorem post (h : Writes t up rest) (pkt : List UInt8) : Writes (t.post pkt) up rest := by
  cases h with
  | idle hwriting hbuffer hleft hrest => exact .idle hwriting hbuffer hleft hrest
  | writing hwriting hbuffer hrest => exact .writing hwriting hbuffer hrest
  | broken hwriting hbuffer hrest => exact .broken hwriting hbuffer hrest

/-- The handler of the next frame writes it, or appends it to a buffer that is not written again
as it is. -/
theorem runPosted (h : Writes t up rest) (hpkt : pkt ≠ []) :
    Writes (t.runPosted pkt posted)
      { up with left := up.left ++
        if t.txBuffer = [] then (t.runPosted pkt posted).inFlight else [] }
      (if t.txBuffer = [] then rest ++ pkt else rest) := by
  cases h with
  | idle hwriting hbuffer hleft hrest =>
    rw [if_pos hbuffer, if_pos hbuffer, Sender.runPosted, if_pos hbuffer, hleft]
    refine .writing rfl ?_ ?_
    · simp [Sender.asyncWrite, Sender.insert, hpkt]
    · simp [Sender.asyncWrite, Sender.insert, Sender.inFlight, hbuffer, hrest]
  | writing hwriting hbuffer hrest =>
    rw [if_neg hbuffer, if_neg hbuffer, Sender.runPosted, if_neg hbuffer, List.append_nil]
    exact .writing hwriting (by simp [Sender.insert, hbuffer]) hrest
  | broken hwriting hbuffer hrest =>
    rw [if_neg hbuffer, if_neg hbuffer, Sender.runPosted, if_neg hbuffer, List.append_nil]
    exact .broken hwriting (by simp [Sender.insert, hbuffer]) hrest

/-- A write completes when the network has taken all of it. -/
theorem writeDone (h : Writes t up rest) (hleft : up.left = [])
    (hwriting : t.writing.isSome = true) : Writes (t.onWrite false) up rest := by
  cases h with
  | idle hnone => simp [hnone] at hwriting
  | writing _ _ hrest => exact .idle rfl rfl hleft (by rw [← hrest, hleft, List.append_nil])
  | broken hnone => simp [hnone] at hwriting

/-- A write that failed leaves what has been written to be read. -/
theorem writeFail (h : Writes t up rest) (hwriting : t.writing.isSome = true) :
    Writes (t.onWrite true) up rest := by
  cases h with
  | idle hnone => simp [hnone] at hwriting
  | writing _ hbuffer hrest => exact .broken rfl hbuffer (hrest ▸ List.prefix_rfl)
  | broken hnone => simp [hnone] at hwriting

/-- The network only moves bytes on. -/
theorem carry (h : Writes t up rest) (n : ℕ) : Writes t (up.carry n) rest := by
  cases h with
  | idle hwriting hbuffer hleft hrest =>
    refine .idle hwriting hbuffer ?_ ?_
    · rw [Pipe.carry, hleft, List.drop_nil]
    · rw [Pipe.carry, hleft, List.take_nil, List.append_nil, hrest]
  | writing hwriting hbuffer hrest => exact .writing hwriting hbuffer ((up.carry_all n).trans hrest)
  | broken hwriting hbuffer hrest => exact .broken hwriting hbuffer (up.carry_all n ▸ hrest)

/-- A read takes the first bytes of what has been written. -/
theorem read (h : Writes t up rest) (hup : up.read bs = some up') :
    bs <+: rest ∧ Writes t up' (rest.drop bs.length) := by
  cases h with
  | idle hwriting hbuffer hleft hrest =>
    have hall : up.transit ++ [] = rest := (List.append_nil _).trans hrest
    obtain ⟨hbs, hsame, hrest'⟩ := Pipe.read_stream hup hall
    rw [List.append_nil] at hrest'
    exact ⟨hbs, .idle hwriting hbuffer (hsame.trans hleft) hrest'⟩
  | writing hwriting hbuffer hrest =>
    obtain ⟨hbs, hsame, hrest'⟩ := Pipe.read_stream hup hrest
    exact ⟨hbs, .writing hwriting hbuffer (hsame ▸ hrest')⟩
  | broken hwriting hbuffer hrest =>
    obtain ⟨hbs, hsame, hrest'⟩ := Pipe.read_stream_prefix hup hrest
    exact ⟨hbs, .broken hwriting hbuffer (hsame ▸ hrest')⟩

end Writes

namespace Conversation

variable {cfg : ClientConfig} {host : Endian} {app : Application} {w w' : Conversation}
  {c : Client} {packets : List Packet} {rest bs : List UInt8} {up : Pipe UInt8}

/-- The application sends no bind request. -/
def plain : Event → Bool
  | .client (.sendPacket p) => decide p.Plain
  | .client (.sendRequest data _) | .client (.startRequest data) => decide (data.length < 2 ^ 32)
  | _ => true

/-- Only the application of the client can send a bind request. -/
theorem plain_of_ne {e : Event} (he : ∀ e', e ≠ .client e') : plain e = true := by
  cases e with
  | client e => exact absurd rfl (he e)
  | _ => rfl

/-- The session and the network leave the client as it is. -/
theorem client_of_step {e : Event} (h : step cfg host app w e = some w')
    (he : ∀ e', e ≠ .client e') : w'.client = w.client := by
  cases e with
  | client e => exact absurd rfl (he e)
  | accept | carry n =>
    obtain ⟨-, heq⟩ := Option.ite_none_right_eq_some.mp h
    obtain rfl := Option.some.inj heq
    rfl
  | session e =>
    obtain ⟨-, h⟩ := Option.ite_none_right_eq_some.mp h
    cases e with
    | readDone bs =>
      obtain ⟨up, -, h⟩ := Option.bind_eq_some_iff.mp h
      obtain ⟨s, -, rfl⟩ := Option.map_eq_some_iff.mp h
      rfl
    | respond p => cases h
    | readFail | transfer i k | reuse i memory | writeFail i =>
      obtain ⟨s, -, rfl⟩ := Option.map_eq_some_iff.mp h
      rfl

/-- The session has been asked for nothing, and has still to get these packets. -/
structure Unbound (w : Conversation) (packets : List Packet) (rest : List UInt8) : Prop where
  posted : ∀ f ∈ w.client.tx.posted, ∃ p : Packet, f = p.wire ∧ p.Plain
  plain : ∀ p ∈ packets, p.Plain
  writes : Writes w.client.tx w.up rest
  awaits : w.session.Awaits packets rest
  authenticated : w.session.authenticated = false
  requests : w.session.requests = []
  out : w.session.out = {}
  /-- The client has never had a header. -/
  reading : ∀ n, w.client.rx.reading ≠ some (.body n)
  handed : w.client.rx.handed = []

/-- Nothing has been sent at the start. -/
theorem unbound_start : Unbound {} [] [] where
  posted := List.forall_mem_nil _
  plain := List.forall_mem_nil _
  writes := .idle rfl rfl rfl rfl
  awaits := .header rfl rfl
  authenticated := rfl
  requests := rfl
  out := rfl
  reading := nofun
  handed := rfl

/-! ## Steps of the client -/

/-- A client without an id posts plain packets only. -/
theorem plainTx_step (hid : cfg.clientId = []) {e : Client.Event}
    (hplain : plain (.client e) = true) (h : Client.step cfg w.client e = some c)
    (hposted : e ≠ .runPosted) (hwrite : ∀ ec, e ≠ .writeDone ec) :
    c.tx = w.client.tx ∨ ∃ p : Packet, p.Plain ∧ c.tx = w.client.tx.post p.wire := by
  cases Client.acts_of_step h with
  | sendPacket p =>
    refine Or.inr ⟨p, of_decide_eq_true hplain, ?_⟩
    rw [← sendPacketFrame_eq cfg.host p]
    rfl
  | sendRequest data gap =>
    refine Or.inr ⟨⟨0x02, 0x00, w.client.sequenceCounter, data⟩,
      ⟨(by decide : (0x02 : UInt8) ≠ 0x01), of_decide_eq_true hplain⟩, ?_⟩
    rw [← sendPacketFrame_eq cfg.host]
    exact Client.sendRequest_tx cfg w.client data gap
  | startRequest data =>
    refine Or.inr ⟨⟨0x02, 0x00, w.client.sequenceCounter, data⟩,
      ⟨(by decide : (0x02 : UInt8) ≠ 0x01), of_decide_eq_true hplain⟩, ?_⟩
    rw [← sendPacketFrame_eq cfg.host]
    exact Client.startRequest_tx cfg w.client data
  | connectDone ec =>
    refine Or.inl ?_
    cases ec with
    | true => rfl
    | false =>
      -- without an id the client sends no bind request
      simp only [Client.onConnect, hid]
      rfl
  | runPosted => exact absurd rfl hposted
  | writeDone ec => exact absurd rfl (hwrite ec)
  | sweepFire t hdue => exact Or.inl (by rw [Client.sweepFire_eq])
  | other e c' hquiet hsame => exact Or.inl hsame.tx
  | _ => exact Or.inl rfl

namespace Unbound

/-- The client never gets a body. -/
theorem incoming_eq_none (h : Unbound w packets rest) (e : Client.Event) :
    w.client.incoming e = none := by
  cases e with
  | readDone bs =>
    rw [Client.incoming]
    split
    · rename_i n hreading
      exact absurd hreading (h.reading n)
    · rfl
  | _ => rfl

/-- The client takes a step that begins and completes no write. -/
theorem client (h : Unbound w packets rest)
    (htx : c.tx = w.client.tx ∨ ∃ p : Packet, p.Plain ∧ c.tx = w.client.tx.post p.wire)
    (hreading : ∀ n, c.rx.reading ≠ some (.body n)) (hhanded : c.rx.handed = []) :
    Unbound { w with client := c } packets rest := by
  refine { h with posted := ?_, writes := ?_, reading := hreading, handed := hhanded }
  · rcases htx with hsame | ⟨p, hp, hpost⟩
    · exact hsame ▸ h.posted
    · rw [hpost]
      exact List.forall_mem_append.mpr ⟨h.posted, List.forall_mem_singleton.mpr ⟨p, rfl, hp⟩⟩
  · rcases htx with hsame | ⟨p, hp, hpost⟩
    · exact hsame ▸ h.writes
    · exact hpost ▸ h.writes.post p.wire

/-- The handler of the next frame begins to write it, or does not. -/
theorem runPosted (h : Unbound w packets rest) {pkt : List UInt8} {more : List (List UInt8)}
    (hposted : w.client.tx.posted = pkt :: more) :
    ∃ packets rest, Unbound { w with
      client := w.client.runPosted cfg pkt more
      up := { w.up with left := w.up.left ++
        if w.client.tx.txBuffer = [] then (w.client.runPosted cfg pkt more).tx.inFlight else [] } }
      packets rest := by
  have htx := Client.runPosted_tx cfg w.client pkt more
  have hrx : (w.client.runPosted cfg pkt more).rx = w.client.rx := by
    rw [Client.runPosted]
    split <;> rfl
  obtain ⟨p, rfl, hp⟩ := h.posted pkt (hposted ▸ List.mem_cons_self)
  have hmore : ∀ f ∈ (w.client.runPosted cfg p.wire more).tx.posted,
      ∃ q : Packet, f = q.wire ∧ q.Plain := by
    have hsame : (w.client.runPosted cfg p.wire more).tx.posted = more := by
      rw [htx, Sender.runPosted]
      split <;> rfl
    exact fun f hf => h.posted f (hposted ▸ List.mem_cons_of_mem _ (hsame ▸ hf))
  have hwire : p.wire ≠ [] := List.ne_nil_of_length_pos (by rw [length_wire]; omega)
  have hwrites : Writes (w.client.tx.runPosted p.wire more) _ _ := h.writes.runPosted hwire
  rw [← htx] at hwrites
  have hreading : ∀ n, (w.client.runPosted cfg p.wire more).rx.reading ≠ some (.body n) :=
    hrx ▸ h.reading
  have hhanded : (w.client.runPosted cfg p.wire more).rx.handed = [] := hrx ▸ h.handed
  -- a frame behind another one is dropped with it, so nothing new is begun
  by_cases hbuffer : w.client.tx.txBuffer = []
  · rw [if_pos hbuffer, if_pos hbuffer] at hwrites
    rw [if_pos hbuffer]
    refine ⟨packets ++ [p], rest ++ [p].flatMap Packet.wire, ?_⟩
    refine { h with
      posted := hmore
      plain := List.forall_mem_append.mpr ⟨h.plain, List.forall_mem_singleton.mpr hp⟩
      writes := ?_
      awaits := h.awaits.append [p]
      reading := hreading
      handed := hhanded }
    rw [List.flatMap_singleton]
    exact hwrites
  · rw [if_neg hbuffer, if_neg hbuffer] at hwrites
    rw [if_neg hbuffer]
    exact ⟨packets, rest, { h with
      posted := hmore
      writes := hwrites
      reading := hreading
      handed := hhanded }⟩

/-- A client without an id sends no bind request. -/
theorem clientStep (h : Unbound w packets rest) (hid : cfg.clientId = []) {e : Client.Event}
    (hplain : Conversation.plain (.client e) = true) (hw : w.clientStep cfg e = some w') :
    ∃ packets rest, Unbound w' packets rest := by
  have hhanded {c : Client} (hc : Client.step cfg w.client e = some c) : c.rx.handed = [] := by
    rw [Client.handed_step hc, h.incoming_eq_none, h.handed]
    rfl
  cases change_of_clientStep hw with
  | connected c hc hfresh =>
    have htx := plainTx_step hid hplain hc (by simp) (by simp)
    cases Client.transition_of_step hc with
    | connectDone ec =>
      have hrx := (Client.onConnect_rx cfg w.client).1
      have hreading : ∀ n, (w.client.onConnect cfg false).rx.reading ≠ some (.body n) := by
        simp [hrx]
      exact ⟨packets, rest, { h.client htx hreading (hhanded hc) with }⟩
  | readDone bs c hc hconnected hlost hbs =>
    -- nothing has been sent that could be read
    have hnil : bs = [] := by simpa [h.out] using hbs
    cases Client.transition_of_step hc with
    | readDone op bs hop hlength =>
      cases op with
      | header =>
        rw [hnil] at hlength
        exact absurd hlength (by simp [ReadOp.size])
      | body n => exact absurd hop (h.reading n)
  | readFail c hc =>
    have htx := plainTx_step hid hplain hc (by simp) (by simp)
    cases Client.transition_of_step hc with
    | readFail op hop =>
      cases op with
      | header =>
        exact ⟨packets, rest, { h.client htx (by simp [Client.readFail, Client.onReadHeader,
          Client.cancelReadTimer]) (hhanded hc) with }⟩
      | body n => exact absurd hop (h.reading n)
  | runPosted c hc =>
    cases Client.transition_of_step hc with
    | runPosted pkt more hposted => exact h.runPosted hposted
  | writeDone ec c hc hleft =>
    cases Client.transition_of_step hc with
    | writeDone ec hwriting =>
      have hwrites : Writes (w.client.tx.onWrite ec) w.up rest := by
        cases ec with
        | false => exact h.writes.writeDone (hleft rfl) hwriting
        | true => exact h.writes.writeFail hwriting
      refine ⟨packets, rest, { h with posted := ?_, writes := hwrites }⟩
      cases ec <;> exact h.posted
  | other e c hc hposted hwrite hread hfail hopen =>
    have hrx := Client.rx_step hc hread hfail hopen
    exact ⟨packets, rest, h.client (plainTx_step hid hplain hc hposted hwrite)
      (hrx ▸ h.reading) (hhanded hc)⟩

/-! ## Steps of the session -/

/-- The session reads. -/
theorem readDone (h : Unbound w packets rest) {op : ReadOp} (hup : w.up.read bs = some up)
    (hop : w.session.reading = some op) (hlength : bs.length = op.size) :
    ∃ packets rest, Unbound { w with
      up := up
      session := answered host app w.session (w.session.readDone (handlers host app) op bs) }
      packets rest := by
  obtain ⟨hbs, hwrites⟩ := h.writes.read hup
  rcases Session.awaits_readDone (handlers host app) h.awaits (fun p hp => (h.plain p hp).2) hop
    hlength hbs with ⟨p, ps, rfl, -, rfl, hnext⟩ | ⟨p, ps, rfl, rfl, rfl, hkept, hnext⟩
  · -- a header
    have hrequests : (w.session.readDone (handlers host app) .header p.header).requests =
        w.session.requests := rfl
    rw [Session.answered_of_requests hrequests]
    exact ⟨packets, _, { h with writes := hwrites, awaits := hnext }⟩
  · -- a packet, which is no bind request
    obtain ⟨⟨hauthenticated, hout, hrequests⟩, -⟩ := Session.handles_readDone
      (h := handlers host app) rfl hkept p.payload.length
    have hnot : Session.acceptsBind (handlers host app) p = false := by
      rw [Session.acceptsBind, beq_false_of_ne (h.plain p List.mem_cons_self).1]
      rfl
    rw [h.authenticated, hnot] at hauthenticated hout
    rw [h.authenticated, if_neg Bool.false_ne_true, List.append_nil] at hrequests
    rw [Session.answered_of_requests hrequests]
    exact ⟨ps, _, { h with
      plain := fun q hq => h.plain q (List.mem_cons_of_mem p hq)
      writes := hwrites
      awaits := hnext
      authenticated := hauthenticated
      requests := hrequests.trans h.requests
      out := hout.trans h.out }⟩

/-- A session that gets none answers nothing. -/
theorem sessionStep (h : Unbound w packets rest) {e : Session.Event}
    (hw : w.sessionStep host app e = some w') : ∃ packets rest, Unbound w' packets rest := by
  cases e with
  | readDone bs =>
    obtain ⟨up, hup, hw⟩ := Option.bind_eq_some_iff.mp hw
    obtain ⟨s, hs, rfl⟩ := Option.map_eq_some_iff.mp hw
    cases Session.acts_of_step hs with
    | readDone op bs hop hlength => exact h.readDone hup hop hlength
  | respond p => cases hw
  | readFail =>
    obtain ⟨s, hs, rfl⟩ := Option.map_eq_some_iff.mp hw
    have hstill := Session.still_step (by simp) hs
    refine ⟨packets, rest, { h with
      awaits := hstill.awaits h.awaits
      authenticated := hstill.authenticated.trans h.authenticated
      requests := hstill.requests.trans h.requests
      out := ?_ }⟩
    cases Session.acts_of_step hs with
    | readFail op => cases op <;> exact h.out
  | transfer i k | reuse i memory | writeFail i =>
    -- there is no write
    obtain ⟨s, hs, rfl⟩ := Option.map_eq_some_iff.mp hw
    obtain ⟨o, ho, -⟩ := Option.map_eq_some_iff.mp hs
    simp [h.out, Outbox.transfer, Outbox.reuse, Outbox.fail] at ho

/-- Every step keeps the session unbound. -/
theorem step (h : Unbound w packets rest) (hid : cfg.clientId = []) {e : Event}
    (hplain : Conversation.plain e = true) (hw : Conversation.step cfg host app w e = some w') :
    ∃ packets rest, Unbound w' packets rest := by
  cases e with
  | client e => exact h.clientStep hid hplain hw
  | session e =>
    obtain ⟨-, hw⟩ := Option.ite_none_right_eq_some.mp hw
    exact h.sessionStep hw
  | accept =>
    obtain ⟨-, heq⟩ := Option.ite_none_right_eq_some.mp hw
    obtain rfl := Option.some.inj heq
    exact ⟨packets, rest, { h with }⟩
  | carry n =>
    obtain ⟨-, heq⟩ := Option.ite_none_right_eq_some.mp hw
    obtain rfl := Option.some.inj heq
    exact ⟨packets, rest, { h with writes := h.writes.carry n }⟩

end Unbound

/-- **No bind, no answer.** If a client has no id and its application sends no bind request, the
session passes nothing to the application of the server and sends nothing, and the client is never
handed a packet. -/
theorem unbound_unanswered (cfg : ClientConfig) (hid : cfg.clientId = []) (host : Endian)
    (app : Application) (es : List Event) (w : Conversation) (hplain : ∀ e ∈ es, plain e = true)
    (hrun : run (step cfg host app) {} es = some w) :
    w.session.requests = [] ∧ w.session.sent = [] ∧ w.client.rx.handed = [] := by
  obtain ⟨packets, rest, h⟩ := (((everyStep_iff_forall_mem hrun).mpr hplain).everyState
    (P := fun w => ∃ packets rest, Unbound w packets rest) ⟨[], [], unbound_start⟩
    fun t e t' he ⟨_, _, h⟩ ht => h.step hid he ht).last hrun
  exact ⟨h.requests, by rw [Session.sent, h.out]; rfl, h.handed⟩

end Conversation

end TurboNet
