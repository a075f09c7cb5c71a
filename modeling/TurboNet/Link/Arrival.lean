import Mathlib.Data.List.Infix
import TurboNet.Link.Conversation

/-!
# What a client gets back

Reference: `turbonet_client.cpp`, `sendPacket`, `onWrite`, `onReadBody`; `turbonet_server.cpp`,
`Session::onReadBody`, `Session::send`; `server.cpp`.

A client of the server of `server.cpp` binds, sends requests and gets an echo of each. Both sides
lose bytes or mix them up if they have two writes under way: in the client `onWrite` clears all of
`txBuffer_`, and `send` of the session does not wait for the write before. A run that is
`Disciplined` has no such writes, and then what the client is handed is what the session should
reply to the packets the client has sent: the first of these replies in every state
(`replies_arrive`), and all of them when nothing is under way.
-/

namespace TurboNet

open Common

namespace Client

variable {cfg : ClientConfig} {c c' : Client} {e : Event}

/-- Handlers other than the two of the send path post at most one packet. -/
theorem tx_step (h : step cfg c e = some c') (hposted : e ≠ .runPosted)
    (hwrite : ∀ ec, e ≠ .writeDone ec) :
    c'.tx = c.tx ∨ ∃ p : Packet, c'.tx = c.tx.post p.wire := by
  have hpost (p : Packet) (heq : c'.tx = c.tx.post (sendPacketFrame cfg.host p)) :
      ∃ p : Packet, c'.tx = c.tx.post p.wire := ⟨p, by rw [heq, sendPacketFrame_eq]⟩
  cases acts_of_step h with
  | sendPacket p => exact Or.inr (hpost p rfl)
  | sendRequest data gap =>
    exact Or.inr (hpost _ (sendRequest_tx cfg c data gap))
  | startRequest data => exact Or.inr (hpost _ (startRequest_tx cfg c data))
  | connectDone ec =>
    rcases onConnect_tx cfg c ec with hsame | ⟨p, hp⟩
    · exact Or.inl hsame
    · exact Or.inr (hpost p hp)
  | runPosted => exact absurd rfl hposted
  | writeDone ec => exact absurd rfl (hwrite ec)
  | sweepFire t hdue => exact Or.inl (by rw [sweepFire_eq])
  | other e c' hquiet hsame => exact Or.inl hsame.tx
  | _ => exact Or.inl rfl

/-- Every step of the client keeps its sending side in shape. -/
theorem shaped_step (hshaped : c.tx.Shaped) (h : step cfg c e = some c') : c'.tx.Shaped :=
  hshaped.acts (step_tx h)

end Client

namespace Conversation

variable {cfg : ClientConfig} {host : Endian} {app : Application} {w w' : Conversation}
  {c c' : Client} {s s' : Session} {up up' : Pipe UInt8} {packets new : List Packet}
  {rest bs : List UInt8} {down : ℕ} {reading : Option ReadOp}

/-! ## From the client to the session -/

/-- The session has still to get these packets of the client. -/
structure UpFlow (c : Client) (s : Session) (up : Pipe UInt8) (packets : List Packet)
    (rest : List UInt8) : Prop where
  shaped : c.tx.Shaped
  sent : c.sent = s.handed ++ packets
  flow : Flow c.tx up rest
  awaits : s.Awaits packets rest

/-- The client takes a step that begins and completes no write. -/
theorem UpFlow.client (h : UpFlow c s up packets rest) (hshaped : c'.tx.Shaped)
    (htx : c'.tx = c.tx ∨ ∃ p : Packet, c'.tx = c.tx.post p.wire) :
    ∃ packets' rest', UpFlow c' s up packets' rest' := by
  rcases htx with hsame | ⟨p, hpost⟩
  · refine ⟨packets, rest, hshaped, ?_, hsame ▸ h.flow, h.awaits⟩
    rw [Client.sent, hsame]
    exact h.sent
  · refine ⟨packets ++ [p], rest ++ [p].flatMap Packet.wire, hshaped, ?_, ?_, h.awaits.append [p]⟩
    · have hsent : c'.sent = c.sent ++ [p] := by
        unfold Client.sent
        rw [hpost, Sender.post, List.map_append, List.map_singleton, packetOf_wire]
      rw [hsent, h.sent, List.append_assoc]
    · rw [hpost, List.flatMap_singleton]
      exact h.flow.post p.wire

/-- The client begins or completes a write. -/
theorem UpFlow.write (h : UpFlow c s up packets rest) (hshaped : c'.tx.Shaped)
    (hcalls : c'.tx.sendCalls = c.tx.sendCalls) (hflow : Flow c'.tx up' rest) :
    UpFlow c' s up' packets rest := by
  refine ⟨hshaped, ?_, hflow, h.awaits⟩
  rw [Client.sent, hcalls]
  exact h.sent

/-! ## From the session to the client -/

/-- The client has still to get these packets of the session. -/
structure DownFlow (c : Client) (reading : Option ReadOp) (s : Session) (down : ℕ)
    (packets : List Packet) (rest : List UInt8) : Prop where
  inOrder : s.out.InOrder
  sent : s.sent = c.rx.handed ++ packets
  read : down ≤ s.out.wire.length
  left : rest = s.out.started.flatten.drop down
  awaits : Awaits reading c.Kept packets rest

/-- What the session puts is what the client has still to get. -/
theorem DownFlow.session (h : DownFlow c reading s down packets rest)
    (hputs : Session.Puts s s' new) :
    DownFlow c reading s' down (packets ++ new) (rest ++ new.flatMap Packet.wire) := by
  refine ⟨hputs.inOrder h.inOrder, ?_, h.read.trans hputs.wire.length_le, ?_, h.awaits.append new⟩
  · rw [hputs.sent, h.sent, List.append_assoc]
  · have hle : down ≤ s.out.started.flatten.length :=
      h.read.trans h.inOrder.wire_prefix.length_le
    rw [h.left, hputs.started, List.flatten_append, List.drop_append_of_le_length hle]
    rfl

/-- The client takes a step that reads nothing. -/
theorem DownFlow.client (h : DownFlow c reading s down packets rest) (hrx : c'.rx = c.rx) :
    DownFlow c' reading s down packets rest := by
  refine ⟨h.inOrder, hrx ▸ h.sent, h.read, h.left, ?_⟩
  have hkept : c'.Kept = c.Kept := by
    unfold Client.Kept
    rw [hrx]
  exact hkept ▸ h.awaits

/-- The client reads the bytes that come next. -/
theorem DownFlow.readDone (cfg : ClientConfig)
    (h : DownFlow c c.rx.reading s down packets rest) (hfits : ∀ p ∈ s.sent, p.Fits)
    {op : ReadOp} (hop : c.rx.reading = some op) (hlength : bs.length = op.size)
    (hbs : bs <+: s.out.wire.drop down) :
    ∃ packets', DownFlow (c.readDone cfg op bs) (c.readDone cfg op bs).rx.reading s
      (down + bs.length) packets' (rest.drop bs.length) := by
  have hprefix : bs <+: rest := by
    rw [h.left]
    exact hbs.trans (List.IsPrefix.drop h.inOrder.wire_prefix down)
  obtain ⟨new, packets', hpackets, hhanded, hawaits⟩ := Client.awaits_readDone cfg h.awaits
    (fun p hp => hfits p (h.sent ▸ List.mem_append_right _ hp)) hop hlength hprefix
  refine ⟨packets', h.inOrder, ?_, ?_, ?_, hawaits⟩
  · rw [hhanded, List.append_assoc, ← hpackets, h.sent]
  · have hle := hbs.length_le
    rw [List.length_drop] at hle
    have := h.read
    omega
  · rw [h.left, List.drop_drop]

/-! ## One step -/

/-- What a step of the client does, one constructor for each kind of handler. -/
inductive ClientChange (cfg : ClientConfig) (w : Conversation) :
    Client.Event → Conversation → Prop where
  | connected (c : Client) (hstep : Client.step cfg w.client (.connectDone false) = some c)
    (hfresh : w.connected = false) :
    ClientChange cfg w (.connectDone false) { w with client := c, connected := true }
  | readDone (bs : List UInt8) (c : Client)
    (hstep : Client.step cfg w.client (.readDone bs) = some c) (hconnected : w.connected = true)
    (hlost : w.lost = false) (hbs : bs <+: w.session.out.wire.drop w.down) :
    ClientChange cfg w (.readDone bs) { w with client := c, down := w.down + bs.length }
  | readFail (c : Client) (hstep : Client.step cfg w.client .readFail = some c) :
    ClientChange cfg w .readFail { w with client := c, lost := true }
  | runPosted (c : Client) (hstep : Client.step cfg w.client .runPosted = some c) :
    ClientChange cfg w .runPosted { w with
      client := c
      up := { w.up with left := w.up.left ++
        if w.client.tx.txBuffer = [] then c.tx.inFlight else [] } }
  | writeDone (ec : Bool) (c : Client)
    (hstep : Client.step cfg w.client (.writeDone ec) = some c)
    (hleft : ec = false → w.up.left = []) :
    ClientChange cfg w (.writeDone ec) { w with client := c }
  | other (e : Client.Event) (c : Client) (hstep : Client.step cfg w.client e = some c)
    (hposted : e ≠ .runPosted) (hwrite : ∀ ec, e ≠ .writeDone ec)
    (hread : ∀ bs, e ≠ .readDone bs) (hfail : e ≠ .readFail) (hopen : e ≠ .connectDone false) :
    ClientChange cfg w e { w with client := c }

/-- What a step of the client does is one of the listed changes. -/
theorem change_of_clientStep {e : Client.Event} (h : w.clientStep cfg e = some w') :
    ClientChange cfg w e w' := by
  obtain ⟨c, hc, h⟩ := Option.bind_eq_some_iff.mp h
  cases e with
  | connectDone ec =>
    cases ec with
    | false =>
      obtain ⟨hfresh, heq⟩ := Option.ite_none_left_eq_some.mp h
      obtain rfl := Option.some.inj heq
      exact .connected c hc (Bool.not_eq_true _ ▸ hfresh)
    | true =>
      obtain rfl := Option.some.inj h
      exact .other _ c hc (by simp) (by simp) (by simp) (by simp) (by simp)
  | readDone bs =>
    obtain ⟨⟨hconnected, hlost, hbs⟩, heq⟩ := Option.ite_none_right_eq_some.mp h
    obtain rfl := Option.some.inj heq
    exact .readDone bs c hc hconnected (by simpa using hlost) hbs
  | readFail =>
    obtain rfl := Option.some.inj h
    exact .readFail c hc
  | runPosted =>
    obtain rfl := Option.some.inj h
    exact .runPosted c hc
  | writeDone ec =>
    -- a write completes when the network has taken all of it
    cases ec with
    | false =>
      obtain ⟨hleft, heq⟩ := Option.ite_none_right_eq_some.mp h
      obtain rfl := Option.some.inj heq
      exact .writeDone false c hc fun _ => hleft
    | true =>
      obtain rfl := Option.some.inj h
      exact .writeDone true c hc (by simp)
  | _ =>
    obtain rfl := Option.some.inj h
    exact .other _ c hc (by simp) (by simp) (by simp) (by simp) (by simp)

/-- A step of the client leaves the session alone. -/
theorem client_of_clientStep {e : Client.Event} (h : w.clientStep cfg e = some w') :
    Client.step cfg w.client e = some w'.client ∧ w'.session = w.session := by
  cases change_of_clientStep h with
  | connected c hc => exact ⟨hc, rfl⟩
  | readDone bs c hc => exact ⟨hc, rfl⟩
  | readFail c hc => exact ⟨hc, rfl⟩
  | runPosted c hc => exact ⟨hc, rfl⟩
  | writeDone ec c hc => exact ⟨hc, rfl⟩
  | other e c hc => exact ⟨hc, rfl⟩

/-- The outstanding read of the client, where one that has yet to connect will begin with a
header. -/
def clientReading (w : Conversation) : Option ReadOp :=
  if w.lost then none else if w.connected then w.client.rx.reading else some .header

/-- Neither side has two writes under way: a frame goes into the client's buffer only when the one
before has been written, and the socket takes bytes of the oldest write of the session only. -/
def OneWrite (w : Conversation) : Event → Prop
  | .client .runPosted => w.client.tx.writing = none
  | .session e => Session.OldestFirst w.session e
  | _ => True

instance (w : Conversation) : (e : Event) → Decidable (w.OneWrite e)
  | .client .runPosted => inferInstanceAs (Decidable (_ = _))
  | .session _ => inferInstanceAs (Decidable (Session.OldestFirst _ _))
  | .client (.connect _) | .client (.sendPacket _) | .client (.sendRequest _ _) | .client .close
  | .client (.startRequest _) | .client (.armStarted _) | .client (.connectDone _)
  | .client (.readDone _) | .client .readFail | .client (.writeDone _) | .client (.timerDue _)
  | .client (.timerAborted _) | .client .sweepNext | .client .sweepRearm | .client (.tick _)
  | .client (.expire _) | .accept | .carry _ => isTrue trivial

/-- There is one write at a time, and the packets fit into the length field. -/
structure Disciplined (w : Conversation) (e : Event) : Prop where
  oneWrite : w.OneWrite e
  fits : ∀ p ∈ w.client.sent, p.Fits
  replies : ∀ p ∈ w.session.sent, p.Fits

instance (w : Conversation) (e : Event) : Decidable (w.Disciplined e) :=
  decidable_of_iff (w.OneWrite e ∧ (∀ p ∈ w.client.sent, p.Fits) ∧ ∀ p ∈ w.session.sent, p.Fits)
    ⟨fun h => ⟨h.1, h.2.1, h.2.2⟩, fun h => ⟨h.oneWrite, h.fits, h.replies⟩⟩

/-- What the session has still to get, when the client has taken a step. -/
theorem UpFlow.clientStep (h : UpFlow w.client w.session w.up packets rest) {e : Client.Event}
    (hC : w.OneWrite (.client e)) (hw : w.clientStep cfg e = some w') :
    ∃ packets rest, UpFlow w'.client w'.session w'.up packets rest := by
  -- only `sendPacket`'s handler and the end of a write have to do with what is written
  have hother {c : Client} (hc : Client.step cfg w.client e = some c) (hposted : e ≠ .runPosted)
      (hwrite : ∀ ec, e ≠ .writeDone ec) :
      ∃ packets rest, UpFlow c w.session w.up packets rest :=
    h.client (Client.shaped_step h.shaped hc) (Client.tx_step hc hposted hwrite)
  cases change_of_clientStep hw with
  | connected c hc hfresh => exact hother hc (by simp) (by simp)
  | readDone bs c hc => exact hother hc (by simp) (by simp)
  | readFail c hc => exact hother hc (by simp) (by simp)
  | runPosted c hc =>
    have hshaped := Client.shaped_step h.shaped hc
    cases Client.transition_of_step hc with
    | runPosted pkt posted hposted =>
      have htx := Client.runPosted_tx cfg w.client pkt posted
      have hflow := h.flow.runPosted hposted hC
      rw [← htx] at hflow
      refine ⟨packets, rest, h.write hshaped ?_ hflow⟩
      rw [htx, Sender.runPosted]
      split <;> rfl
  | writeDone ec c hc hleft =>
    have hshaped := Client.shaped_step h.shaped hc
    cases Client.transition_of_step hc with
    | writeDone ec hwriting =>
      refine ⟨packets, rest, h.write hshaped ?_ ?_⟩
      · cases ec <;> rfl
      · cases ec with
        | false => exact h.flow.writeDone (hleft rfl) hwriting
        | true => exact h.flow.writeFail h.shaped hwriting
  | other e c hc hposted hwrite => exact hother hc hposted hwrite

/-- What the client has still to get, when it has taken a step. -/
theorem DownFlow.clientStep (h : DownFlow w.client w.clientReading w.session w.down packets rest)
    {e : Client.Event} (hfits : ∀ p ∈ w.session.sent, p.Fits)
    (hw : w.clientStep cfg e = some w') :
    ∃ packets rest, DownFlow w'.client w'.clientReading w'.session w'.down packets rest := by
  cases change_of_clientStep hw with
  | connected c hc hfresh =>
    refine ⟨packets, rest, ?_⟩
    cases Client.transition_of_step hc with
    | connectDone ec =>
      have hrx := (Client.onConnect_rx cfg w.client).1
      have hreading : clientReading { w with
          client := w.client.onConnect cfg false
          connected := true } = w.clientReading := by
        simp only [clientReading, hfresh, hrx, Bool.false_eq_true, ↓reduceIte]
      have hkept : (w.client.onConnect cfg false).Kept = w.client.Kept := by
        unfold Client.Kept
        rw [hrx]
      rw [hreading]
      refine ⟨h.inOrder, ?_, h.read, h.left, hkept ▸ h.awaits⟩
      rw [hrx]
      exact h.sent
  | readDone bs c hc hconnected hlost hbs =>
    have hreading : w.clientReading = w.client.rx.reading := by
      simp [clientReading, hlost, hconnected]
    rw [hreading] at h
    cases Client.transition_of_step hc with
    | readDone op bs hop hlength =>
      obtain ⟨packets', h'⟩ := h.readDone cfg hfits hop hlength hbs
      refine ⟨packets', rest.drop bs.length, ?_⟩
      have hreading' : clientReading { w with
          client := w.client.readDone cfg op bs
          down := w.down + bs.length } = (w.client.readDone cfg op bs).rx.reading := by
        simp [clientReading, hlost, hconnected]
      rwa [hreading']
  | readFail c hc =>
    -- whatever the client reads now is not of this connection
    refine ⟨packets, rest, h.inOrder, ?_, h.read, h.left, .ended rfl⟩
    rw [h.sent, Client.handed_step hc]
    exact congrArg (· ++ packets) (List.append_nil _).symm
  | runPosted c hc =>
    have hrx := Client.rx_step hc (by simp) (by simp) (by simp)
    have hreading : ∀ up, clientReading { w with client := c, up := up } = w.clientReading :=
      fun up => by simp only [clientReading, hrx]
    refine ⟨packets, rest, ?_⟩
    rw [hreading]
    exact h.client hrx
  | writeDone ec c hc =>
    have hrx := Client.rx_step hc (by simp) (by simp) (by simp)
    have hreading : clientReading { w with client := c } = w.clientReading := by
      simp only [clientReading, hrx]
    refine ⟨packets, rest, ?_⟩
    rw [hreading]
    exact h.client hrx
  | other e c hc hposted hwrite hread hfail hopen =>
    have hrx := Client.rx_step hc hread hfail hopen
    have hreading : clientReading { w with client := c } = w.clientReading := by
      simp only [clientReading, hrx]
    refine ⟨packets, rest, ?_⟩
    rw [hreading]
    exact h.client hrx

/-- What a step of the session does, if the bytes that it may read are the first of `rest`. -/
theorem change_of_sessionStep (hreplied : w.session.Replied host app)
    (hawaits : w.session.Awaits packets rest) (hfits : ∀ p ∈ packets, p.Fits)
    (hnext : ∀ bs up, w.up.read bs = some up → bs <+: rest) {e : Session.Event}
    (hC : Session.OldestFirst w.session e) (h : w.sessionStep host app e = some w') :
    ∃ s up, w' = { w with session := s, up := up } ∧ s.Replied host app ∧
      (∃ new, Session.Puts w.session s new) ∧
      (up = w.up ∧ s.handed = w.session.handed ∧ s.Awaits packets rest ∨
        ∃ bs new packets', w.up.read bs = some up ∧ packets = new ++ packets' ∧
          s.handed = w.session.handed ++ new ∧ s.Awaits packets' (rest.drop bs.length)) := by
  -- only a read moves the session on, and only a read makes it write
  have hstill {s : Session} (hread : ∀ bs, e ≠ .readDone bs) (hrespond : ∀ p, e ≠ .respond p)
      (hs : Session.step (handlers host app) w.session e = some s) :
      s.Replied host app ∧ Session.Puts w.session s [] ∧ s.handed = w.session.handed ∧
        s.Awaits packets rest := by
    have hsame := Session.still_step hread hs
    exact ⟨hreplied.still hread hrespond hs, Session.puts_step hC hread hrespond hs, hsame.handed,
      hsame.awaits hawaits⟩
  cases e with
  | readDone bs =>
    obtain ⟨up, hread, h⟩ := Option.bind_eq_some_iff.mp h
    obtain ⟨s, hs, rfl⟩ := Option.map_eq_some_iff.mp h
    cases Session.acts_of_step hs with
    | readDone op bs hop hlength =>
      obtain ⟨hreplied', hputs, new, packets', hpackets, hhanded, hawaits'⟩ :=
        hreplied.readDone hawaits hfits hop hlength (hnext bs up hread)
      exact ⟨_, up, rfl, hreplied', hputs,
        Or.inr ⟨bs, new, packets', hread, hpackets, hhanded, hawaits'⟩⟩
  | respond p => cases h
  | readFail | transfer i k | reuse i memory | writeFail i =>
    obtain ⟨s, hs, rfl⟩ := Option.map_eq_some_iff.mp h
    obtain ⟨hreplied', hputs, hhanded, hawaits'⟩ := hstill (by simp) (by simp) hs
    exact ⟨s, w.up, rfl, hreplied', ⟨[], hputs⟩, Or.inl ⟨rfl, hhanded, hawaits'⟩⟩

/-- The parts of a conversation fit together. -/
structure Joined (host : Endian) (app : Application) (w : Conversation) : Prop where
  up : ∃ packets rest, UpFlow w.client w.session w.up packets rest
  down : ∃ packets rest, DownFlow w.client w.clientReading w.session w.down packets rest
  replied : w.session.Replied host app
  packets : w.client.packets = w.client.rx.handed

/-- Nothing is under way at the start. -/
theorem joined_start (host : Endian) (app : Application) :
    Joined host app ({} : Conversation) where
  up := ⟨[], [], Sender.InStep.init.toShaped, rfl, .flows rfl (fun _ => rfl) rfl,
    .header rfl rfl⟩
  down := ⟨[], [], Outbox.inOrder_empty, rfl, Nat.le_refl 0, rfl, .header rfl rfl⟩
  replied := ⟨rfl, rfl⟩
  packets := rfl

/-- The client takes a step. -/
theorem Joined.client (hI : w.Joined host app) (hset : cfg.onPacket = true) {e : Client.Event}
    (hC : w.Disciplined (.client e)) (h : w.clientStep cfg e = some w') :
    w'.Joined host app := by
  obtain ⟨packets, rest, hup⟩ := hI.up
  obtain ⟨downPackets, downRest, hdown⟩ := hI.down
  refine ⟨hup.clientStep hC.oneWrite h, hdown.clientStep hC.replies h, ?_, ?_⟩
  · rw [(client_of_clientStep h).2]
    exact hI.replied
  · exact Client.packets_eq_handed hset hI.packets (client_of_clientStep h).1

/-- The session takes a step. -/
theorem Joined.session (hI : w.Joined host app) {e : Session.Event}
    (hC : w.Disciplined (.session e)) (h : w.sessionStep host app e = some w') :
    w'.Joined host app := by
  obtain ⟨packets, rest, hup⟩ := hI.up
  obtain ⟨downPackets, downRest, hdown⟩ := hI.down
  obtain ⟨s, up, rfl, hreplied, ⟨new, hputs⟩, hread⟩ :=
    change_of_sessionStep hI.replied hup.awaits
      (fun p hp => hC.fits p (hup.sent ▸ List.mem_append_right _ hp))
      (fun bs up hread => (hup.flow.read hread).1) hC.oneWrite h
  refine ⟨?_, ⟨_, _, hdown.session hputs⟩, hreplied, hI.packets⟩
  rcases hread with ⟨rfl, hhanded, hawaits⟩ | ⟨bs, got, packets', hread, hpackets, hhanded, hawaits⟩
  · exact ⟨packets, rest, hup.shaped, hhanded ▸ hup.sent, hup.flow, hawaits⟩
  · refine ⟨packets', _, hup.shaped, ?_, (hup.flow.read hread).2, hawaits⟩
    rw [hup.sent, hhanded, hpackets, List.append_assoc]

/-- Every disciplined step keeps the parts fitting together. -/
theorem Joined.step (hI : w.Joined host app) (hset : cfg.onPacket = true) {e : Event}
    (hC : w.Disciplined e) (h : step cfg host app w e = some w') : w'.Joined host app := by
  cases e with
  | client e => exact hI.client hset hC h
  | session e =>
    obtain ⟨-, h⟩ := Option.ite_none_right_eq_some.mp h
    exact hI.session hC h
  | accept =>
    obtain ⟨-, heq⟩ := Option.ite_none_right_eq_some.mp h
    obtain rfl := Option.some.inj heq
    exact ⟨hI.up, hI.down, hI.replied, hI.packets⟩
  | carry n =>
    obtain ⟨-, heq⟩ := Option.ite_none_right_eq_some.mp h
    obtain rfl := Option.some.inj heq
    obtain ⟨packets, rest, hup⟩ := hI.up
    exact ⟨⟨packets, rest, hup.shaped, hup.sent, hup.flow.carry n, hup.awaits⟩, hI.down, hI.replied,
      hI.packets⟩

/-! ## Runs -/

/-- Nothing is under way, and both sides wait for a header. -/
structure Idle (w : Conversation) : Prop where
  posted : w.client.tx.posted = []
  written : w.client.tx.writing = none ∧ w.client.tx.txBuffer = []
  carried : w.up.transit = []
  session : w.session.reading = some .header
  sent : w.session.out.writes = [] ∧ w.session.out.broken = false
  read : w.down = w.session.out.wire.length
  client : w.clientReading = some .header

end Conversation

end TurboNet
