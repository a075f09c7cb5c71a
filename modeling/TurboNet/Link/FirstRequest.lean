import TurboNet.Link.Arrival

/-!
# The request of the example client

Reference: `client.cpp`; `turbonet_client.cpp`, `connect`, `sendPacket`, `onWrite`.

The handler that `main` of `client.cpp` passes to `connect` sends a request. It is called in the
handler of `async_connect`, right after that has sent the bind request, so both frames are posted
before the first is written, and `onWrite` drops the second of them with the first
(`request_never_arrives`). Without a client id the request is written, but by a client that has not
bound.
-/

namespace TurboNet

open Common Conversation

namespace ClientMain

inductive Event where
  /-- The handler of `async_connect` runs without an error, and in it that of `main`. -/
  | connected (gap : ℕ)
  | other (e : Conversation.Event)
deriving DecidableEq, Repr

/-- `main` sends nothing else. The strand runs handlers in the order they were posted: those of
`sendPacket` were posted before the write was begun. -/
def permits (w : Conversation) : Conversation.Event → Bool
  | .client (.connectDone ec) => ec
  | .client (.sendPacket _) | .client (.sendRequest _ _) | .client (.startRequest _) => false
  | .client (.writeDone _) => w.client.tx.posted.isEmpty
  | _ => true

def step (cfg : ClientConfig) (host : Endian) (app : Application) (data : List UInt8)
    (w : Conversation) : Event → Option Conversation
  | .connected gap => (w.clientStep cfg (.connectDone false)).bind
      (·.clientStep cfg (.sendRequest data gap))
  | .other e => if permits w e then Conversation.step cfg host app w e else none

/-- The packet that the client sends first. -/
def first (cfg : ClientConfig) (data : List UInt8) : Packet :=
  if cfg.clientId.isEmpty then ⟨0x02, 0x00, 1, data⟩ else ⟨0x01, 0x00, 1, cfg.clientId⟩

variable {cfg : ClientConfig} {host : Endian} {app : Application} {data : List UInt8}
  {w w' : Conversation} {connected : Bool} {c c' : Client} {up up' : Pipe UInt8} {p : Packet}
  {rest bs : List UInt8}

/-- How far the client has got. Only its first packet `p` is ever written, and the session has
still to get `rest` of it. -/
inductive Stage (p : Packet) (connected : Bool) (c : Client) (up : Pipe UInt8)
    (rest : List UInt8) : Prop where
  | fresh (hconnected : connected = false) (htx : c.tx = {}) (hcounter : c.sequenceCounter = 1)
      (hup : up = {}) (hrest : p.wire = rest)
  | posted (more : List (List UInt8)) (hconnected : connected = true)
      (hposted : c.tx.posted = p.wire :: more) (hwriting : c.tx.writing = none)
      (hbuffer : c.tx.txBuffer = []) (hup : up = {}) (hrest : p.wire = rest)
  | writing (hconnected : connected = true) (hwriting : c.tx.writing.isSome = true)
      (hbuffer : c.tx.txBuffer ≠ []) (hrest : up.transit ++ up.left = rest)
  | finished (hconnected : connected = true) (hposted : c.tx.posted = [])
      (hwriting : c.tx.writing = none) (hrest : up.transit ++ up.left <+: rest)

/-- No frame is empty. -/
theorem wire_ne_nil (p : Packet) : p.wire ≠ [] := by
  refine List.ne_nil_of_length_pos ?_
  rw [length_wire]
  omega

namespace Stage

/-- The client leaves its send path as it is. -/
theorem client (h : Stage p connected c up rest) (htx : c'.tx = c.tx)
    (hcounter : c'.sequenceCounter = c.sequenceCounter) : Stage p connected c' up rest := by
  cases h with
  | fresh hconnected hfresh hone hup hrest =>
    exact .fresh hconnected (htx.trans hfresh) (hcounter.trans hone) hup hrest
  | posted more hconnected hposted hwriting hbuffer hup hrest =>
    exact .posted more hconnected (htx ▸ hposted) (htx ▸ hwriting) (htx ▸ hbuffer) hup hrest
  | writing hconnected hwriting hbuffer hrest =>
    exact .writing hconnected (htx ▸ hwriting) (htx ▸ hbuffer) hrest
  | finished hconnected hposted hwriting hrest =>
    exact .finished hconnected (htx ▸ hposted) (htx ▸ hwriting) hrest

/-- The first handler begins a write; that of a second packet appends to the buffer, which the write
of the first does not send. -/
theorem runPosted (h : Stage p connected c up rest) {pkt : List UInt8} {more : List (List UInt8)}
    (hposted : c.tx.posted = pkt :: more) : Stage p connected (c.runPosted cfg pkt more)
      { up with left := up.left ++
        if c.tx.txBuffer = [] then (c.runPosted cfg pkt more).tx.inFlight else [] } rest := by
  have htx := Client.runPosted_tx cfg c pkt more
  cases h with
  | fresh hconnected hfresh => simp [hfresh] at hposted
  | posted more' hconnected hposted' hwriting hbuffer hup hrest =>
    obtain ⟨rfl, rfl⟩ := List.cons.inj (hposted'.symm.trans hposted)
    have hbegun : (c.runPosted cfg p.wire more').tx =
        ({ c.tx with posted := more' }.insert p.wire).asyncWrite := by
      rw [htx, Sender.runPosted, if_pos hbuffer]
    rw [if_pos hbuffer, hbegun, hup]
    refine .writing hconnected (by rw [hbegun]; rfl) ?_ ?_
    · rw [hbegun]
      simp [Sender.asyncWrite, Sender.insert, hbuffer, wire_ne_nil]
    · simp [Sender.asyncWrite, Sender.insert, Sender.inFlight, hbuffer, hrest]
  | writing hconnected hwriting hbuffer hrest =>
    rw [Sender.runPosted, if_neg hbuffer] at htx
    rw [if_neg hbuffer, List.append_nil]
    refine .writing hconnected (by rw [htx]; exact hwriting) ?_ hrest
    rw [htx]
    simp [Sender.insert, hbuffer]
  | finished hconnected hnone => simp [hnone] at hposted

/-- The write of the first packet completes, with or without an error. Nothing is posted then. -/
theorem writeDone (h : Stage p connected c up rest) (hposted : c.tx.posted = [])
    (hwriting : c.tx.writing.isSome = true) (ec : Bool) :
    Stage p connected (c.onWrite ec) up rest := by
  cases h with
  | fresh hconnected hfresh => simp [hfresh] at hwriting
  | posted more hconnected hsome => simp [hsome] at hposted
  | writing hconnected _ _ hrest =>
    refine .finished hconnected ?_ ?_ (hrest ▸ List.prefix_rfl)
    · cases ec <;> exact hposted
    · cases ec <;> rfl
  | finished hconnected _ hnone => simp [hnone] at hwriting

/-- The network only moves bytes on. -/
theorem carry (h : Stage p connected c up rest) (n : ℕ) :
    Stage p connected c (up.carry n) rest := by
  cases h with
  | fresh hconnected htx hcounter hup hrest =>
    rw [hup, Pipe.carry_empty]
    exact .fresh hconnected htx hcounter rfl hrest
  | posted more hconnected hposted hwriting hbuffer hup hrest =>
    rw [hup, Pipe.carry_empty]
    exact .posted more hconnected hposted hwriting hbuffer rfl hrest
  | writing hconnected hwriting hbuffer hrest =>
    exact .writing hconnected hwriting hbuffer ((up.carry_all n).trans hrest)
  | finished hconnected hposted hwriting hrest =>
    exact .finished hconnected hposted hwriting (up.carry_all n ▸ hrest)

/-- What the session reads is the next of the first packet. -/
theorem read (h : Stage p connected c up rest) (hup : up.read bs = some up') :
    bs <+: rest ∧ Stage p connected c up' (rest.drop bs.length) := by
  have hnothing (hempty : up = {}) : bs = [] ∧ up' = {} := by
    obtain ⟨hbs, rfl⟩ := Pipe.read_eq_some hup
    subst hempty
    exact ⟨List.prefix_nil.mp hbs, by rw [List.drop_nil]⟩
  cases h with
  | fresh hconnected htx hcounter hempty hrest =>
    obtain ⟨rfl, hempty'⟩ := hnothing hempty
    exact ⟨List.nil_prefix, .fresh hconnected htx hcounter hempty' hrest⟩
  | posted more hconnected hposted hwriting hbuffer hempty hrest =>
    obtain ⟨rfl, hempty'⟩ := hnothing hempty
    exact ⟨List.nil_prefix, .posted more hconnected hposted hwriting hbuffer hempty' hrest⟩
  | writing hconnected hwriting hbuffer hrest =>
    obtain ⟨hbs, hleft, hrest'⟩ := Pipe.read_stream hup hrest
    exact ⟨hbs, .writing hconnected hwriting hbuffer (hleft ▸ hrest')⟩
  | finished hconnected hposted hwriting hrest =>
    obtain ⟨hbs, hleft, hrest'⟩ := Pipe.read_stream_prefix hup hrest
    exact ⟨hbs, .finished hconnected hposted hwriting (hleft ▸ hrest')⟩

end Stage

/-! ## Steps -/

/-- Both frames have been posted when the handler of `async_connect` returns. -/
theorem stage_connected (gap : ℕ) (htx : c.tx = {}) (hcounter : c.sequenceCounter = 1)
    (hup : up = {}) : Stage (first cfg data) true ((c.onConnect cfg false).sendRequest cfg data gap)
      up (first cfg data).wire := by
  obtain ⟨more, hposted, hwriting, hbuffer⟩ : ∃ more,
      ((c.onConnect cfg false).sendRequest cfg data gap).tx.posted =
        (first cfg data).wire :: more ∧
      ((c.onConnect cfg false).sendRequest cfg data gap).tx.writing = none ∧
      ((c.onConnect cfg false).sendRequest cfg data gap).tx.txBuffer = [] := by
    rw [Client.sendRequest_tx]
    cases hid : cfg.clientId.isEmpty with
    | true =>
      have htx' : (c.onConnect cfg false).tx = {} ∧
          (c.onConnect cfg false).sequenceCounter = 1 := by
        simp only [Client.onConnect, hid]
        exact ⟨htx, hcounter⟩
      simp only [htx'.1, htx'.2, first, hid, if_true, sendPacketFrame_eq]
      exact ⟨[], rfl, rfl, rfl⟩
    | false =>
      have htx' : (c.onConnect cfg false).tx =
          c.tx.post (sendPacketFrame cfg.host ⟨0x01, 0x00, c.sequenceCounter, cfg.clientId⟩) := by
        simp only [Client.onConnect, hid]
        rfl
      simp only [htx', htx, hcounter, first, hid, Bool.false_eq_true, if_false, sendPacketFrame_eq]
      exact ⟨_, rfl, rfl, rfl⟩
  exact .posted more rfl hposted hwriting hbuffer hup rfl

/-- Handlers that neither send nor write. -/
theorem sameTx_step {e : Client.Event} (h : Client.step cfg c e = some c')
    (hpermits : permits w (.client e) = true) (hposted : e ≠ .runPosted)
    (hwrite : ∀ ec, e ≠ .writeDone ec) :
    c'.tx = c.tx ∧ c'.sequenceCounter = c.sequenceCounter := by
  cases Client.acts_of_step h with
  | sendPacket p => cases hpermits
  | sendRequest data gap | startRequest data => cases hpermits
  | connectDone ec =>
    obtain rfl : ec = true := hpermits
    exact ⟨rfl, rfl⟩
  | runPosted => exact absurd rfl hposted
  | writeDone ec => exact absurd rfl (hwrite ec)
  | sweepFire t hdue =>
    rw [Client.sweepFire_eq]
    exact ⟨rfl, rfl⟩
  | other e c' hquiet hsame => exact ⟨hsame.tx, hsame.sequenceCounter⟩
  | _ => exact ⟨rfl, rfl⟩

/-- The client takes a step that `main` leaves it. -/
theorem Stage.clientStep (h : Stage p w.connected w.client w.up rest) {e : Client.Event}
    (hpermits : permits w (.client e) = true) (hw : w.clientStep cfg e = some w') :
    w'.session = w.session ∧ Stage p w'.connected w'.client w'.up rest := by
  have hsame {c : Client} (hc : Client.step cfg w.client e = some c) (hposted : e ≠ .runPosted)
      (hwrite : ∀ ec, e ≠ .writeDone ec) : Stage p w.connected c w.up rest :=
    have hsent := sameTx_step hc hpermits hposted hwrite
    h.client hsent.1 hsent.2
  cases change_of_clientStep hw with
  | connected c hc hfresh => cases hpermits
  | readDone bs c hc => exact ⟨rfl, hsame hc (by simp) (by simp)⟩
  | readFail c hc => exact ⟨rfl, hsame hc (by simp) (by simp)⟩
  | runPosted c hc =>
    cases Client.transition_of_step hc with
    | runPosted pkt more hposted => exact ⟨rfl, h.runPosted hposted⟩
  | writeDone ec c hc =>
    cases Client.transition_of_step hc with
    | writeDone ec hwriting =>
      exact ⟨rfl, h.writeDone (List.isEmpty_iff.mp hpermits) hwriting ec⟩
  | other e c hc hposted hwrite => exact ⟨rfl, hsame hc hposted hwrite⟩

/-- The session has got nothing but the first packet of the client, and has passed none to
`onRequest_`. -/
structure Lost (p : Packet) (w : Conversation) (packets : List Packet) (rest : List UInt8) :
    Prop where
  handed : [p] = w.session.handed ++ packets
  stage : Stage p w.connected w.client w.up rest
  awaits : w.session.Awaits packets rest
  gate : w.session.handed = [] → w.session.authenticated = false
  requests : w.session.requests = []

/-- The session has still to get the first packet. -/
theorem lost_start (p : Packet) : Lost p {} [p] p.wire where
  handed := rfl
  stage := .fresh rfl rfl rfl rfl rfl
  awaits := .header rfl (List.flatMap_singleton _ _).symm
  gate _ := rfl
  requests := rfl

variable {packets : List Packet}

/-- What `respond` is called with goes into the output only. -/
theorem answered_same (host : Endian) (app : Application) (s t : Session) :
    (answered host app s t).handed = t.handed ∧ (answered host app s t).requests = t.requests ∧
      (answered host app s t).authenticated = t.authenticated ∧
      (answered host app s t).reading = t.reading ∧
      (answered host app s t).headerBuf = t.headerBuf := by
  rw [answered, Session.foldl_respond]
  exact ⟨rfl, rfl, rfl, rfl, rfl⟩

/-- The session reads. -/
theorem Lost.readDone (h : Lost p w packets rest) (hfits : p.Fits) {op : ReadOp}
    (hup : w.up.read bs = some up') (hop : w.session.reading = some op)
    (hlength : bs.length = op.size) :
    ∃ packets rest, Lost p { w with
      up := up'
      session := answered host app w.session (w.session.readDone (handlers host app) op bs) }
      packets rest := by
  obtain ⟨hbs, hstage⟩ := h.stage.read hup
  obtain ⟨hhanded, hrequests, hauthenticated, hreading, hheader⟩ := answered_same host app w.session
    (w.session.readDone (handlers host app) op bs)
  have hawaits {packets : List Packet} {rest : List UInt8}
      (hnext : (w.session.readDone (handlers host app) op bs).Awaits packets rest) :
      (answered host app w.session (w.session.readDone (handlers host app) op bs)).Awaits packets
        rest := by
    unfold Session.Awaits
    rw [hreading, hheader]
    exact hnext
  have hall : ∀ q ∈ packets, q.payload.length < 2 ^ 32 := by
    intro q hq
    obtain rfl := List.mem_singleton.mp (h.handed ▸ List.mem_append_right _ hq)
    exact hfits.length_lt
  rcases Session.awaits_readDone (handlers host app) h.awaits hall hop hlength hbs with
    ⟨q, ps, rfl, -, -, hnext⟩ | ⟨q, ps, rfl, rfl, rfl, hkept, hnext⟩
  · -- a header
    refine ⟨packets, _, ?_, hstage, hawaits hnext, ?_, ?_⟩
    · rw [hhanded]
      exact h.handed
    · rw [hhanded, hauthenticated]
      exact h.gate
    · rw [hrequests]
      exact h.requests
  · -- the packet: the session had got nothing before, so it is not authenticated
    have hnil : w.session.handed = [] := by
      have hcount := congrArg List.length h.handed
      simp only [List.length_append, List.length_cons, List.length_nil] at hcount
      exact List.length_eq_zero_iff.mp (by omega)
    obtain ⟨hhandles, hgot⟩ := Session.handles_readDone (h := handlers host app) rfl hkept
      q.payload.length
    refine ⟨ps, _, ?_, hstage, hawaits hnext, ?_, ?_⟩
    · rw [hhanded, hgot, List.append_assoc]
      exact h.handed
    · rw [hhanded, hgot]
      exact fun hempty => absurd hempty (by simp)
    · rw [hrequests, hhandles.requests, h.requests, h.gate hnil]
      rfl

/-- No step of the session brings it more than the first packet. -/
theorem Lost.sessionStep (h : Lost p w packets rest) (hfits : p.Fits) {e : Session.Event}
    (hw : w.sessionStep host app e = some w') : ∃ packets rest, Lost p w' packets rest := by
  have hstill {s : Session} (hread : ∀ bs, e ≠ .readDone bs)
      (hs : Session.step (handlers host app) w.session e = some s) :
      Lost p { w with session := s } packets rest := by
    have hsame := Session.still_step hread hs
    refine ⟨?_, h.stage, hsame.awaits h.awaits, ?_, ?_⟩
    · rw [hsame.handed]
      exact h.handed
    · rw [hsame.handed, hsame.authenticated]
      exact h.gate
    · rw [hsame.requests]
      exact h.requests
  cases e with
  | readDone bs =>
    obtain ⟨up, hup, hw⟩ := Option.bind_eq_some_iff.mp hw
    obtain ⟨s, hs, rfl⟩ := Option.map_eq_some_iff.mp hw
    cases Session.acts_of_step hs with
    | readDone op bs hop hlength => exact h.readDone hfits hup hop hlength
  | respond p => cases hw
  | readFail | transfer i k | reuse i memory | writeFail i =>
    obtain ⟨s, hs, rfl⟩ := Option.map_eq_some_iff.mp hw
    exact ⟨packets, rest, hstill (by simp) hs⟩

/-- Every step keeps the second packet from being written. -/
theorem Lost.step (h : Lost (first cfg data) w packets rest) (hfits : (first cfg data).Fits)
    {e : Event} (hw : step cfg host app data w e = some w') :
    ∃ packets rest, Lost (first cfg data) w' packets rest := by
  cases e with
  | connected gap =>
    obtain ⟨w₁, hw₁, hw⟩ := Option.bind_eq_some_iff.mp hw
    cases change_of_clientStep hw₁ with
    | connected c hc hfresh =>
      cases Client.transition_of_step hc
      cases change_of_clientStep hw with
      | other e c hc =>
        cases Client.transition_of_step hc
        -- the connection is made once, and `main` sends its request right after that
        cases h.stage with
        | fresh hconnected htx hcounter hup hrest =>
          exact ⟨packets, rest, h.handed, hrest ▸ stage_connected gap htx hcounter hup, h.awaits,
            h.gate, h.requests⟩
        | posted _ hconnected => exact absurd (hfresh.symm.trans hconnected) (by simp)
        | writing hconnected => exact absurd (hfresh.symm.trans hconnected) (by simp)
        | finished hconnected => exact absurd (hfresh.symm.trans hconnected) (by simp)
    | other e c hc hposted hwrite hread hfail hopen => exact absurd rfl hopen
  | other e =>
    obtain ⟨hpermits, hw⟩ := Option.ite_none_right_eq_some.mp hw
    cases e with
    | client e =>
      obtain ⟨hsession, hstage⟩ := h.stage.clientStep hpermits hw
      refine ⟨packets, rest, ?_, hstage, ?_, ?_, ?_⟩
      · rw [hsession]
        exact h.handed
      · rw [hsession]
        exact h.awaits
      · rw [hsession]
        exact h.gate
      · rw [hsession]
        exact h.requests
    | session e =>
      obtain ⟨-, hw⟩ := Option.ite_none_right_eq_some.mp hw
      exact h.sessionStep hfits hw
    | accept =>
      obtain ⟨-, heq⟩ := Option.ite_none_right_eq_some.mp hw
      obtain rfl := Option.some.inj heq
      exact ⟨packets, rest, h.handed, h.stage, h.awaits, h.gate, h.requests⟩
    | carry n =>
      obtain ⟨-, heq⟩ := Option.ite_none_right_eq_some.mp hw
      obtain rfl := Option.some.inj heq
      exact ⟨packets, rest, h.handed, h.stage.carry n, h.awaits, h.gate, h.requests⟩

/-! ## Runs -/

/-- **The request is never sent.** Whatever the client id, the request and the application of the
server are, in every run of the example client the session is handed the first packet of the client
at most, and never calls `onRequest_`. -/
theorem request_never_arrives (cfg : ClientConfig) (host : Endian) (app : Application)
    (data : List UInt8) (hfits : (first cfg data).Fits) (es : List Event) (w : Conversation)
    (hrun : run (step cfg host app data) {} es = some w) :
    w.session.handed <+: [first cfg data] ∧ w.session.requests = [] := by
  obtain ⟨packets, rest, h⟩ := run_induction
    (P := fun w => ∃ packets rest, Lost (first cfg data) w packets rest)
    ⟨_, _, lost_start (first cfg data)⟩ (fun t e t' ⟨_, _, h⟩ ht => h.step hfits ht) hrun
  exact ⟨⟨packets, h.handed.symm⟩, h.requests⟩

/-- The bytes of `"hello_server"`. -/
def helloServer : List UInt8 :=
  [0x68, 0x65, 0x6c, 0x6c, 0x6f, 0x5f, 0x73, 0x65, 0x72, 0x76, 0x65, 0x72]

/-- `client_123` binds to the server of `server.cpp`. Its request is appended to the buffer while
the bind request is being written. -/
def helloDropped : List Event :=
  [.other (.client (.connect 5000)), .other .accept, .connected 0, .other (.client .runPosted),
    .other (.client .runPosted), .other (.carry 20), .other (.client (.writeDone false)),
    .other (.session (.readDone (Packet.header ⟨0x01, 0x00, 1, validClients.headD []⟩))),
    .other (.session (.readDone (validClients.headD []))), .other (.session (.transfer 0 21)),
    .other (.client (.readDone (bindResponse 1).header)), .other (.client (.readDone serverId))]

/-- Nothing is left to be written, and the session has bound the client and got no request. -/
theorem request_never_arrives_hello :
    ∃ w, run (step { host := .little, clientId := validClients.headD [] } .big echoServer
        helloServer) {} helloDropped = some w ∧
      w.client.packets = [bindResponse 1] ∧ w.client.tx.posted = [] ∧
      w.client.tx.txBuffer = [] ∧ w.session.authenticated = true ∧ w.session.requests = [] := by
  refine ⟨_, rfl, rfl, rfl, rfl, rfl, ?_⟩
  exact (request_never_arrives { host := .little, clientId := validClients.headD [] } .big
    echoServer helloServer (of_decide_eq_true rfl) helloDropped _ rfl).2

end ClientMain

end TurboNet
