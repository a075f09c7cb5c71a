import TurboNet.Client.ReadLoop
import TurboNet.Server.Authentication

/-!
# Packets that are still to come

Reference: `turbonet_server.cpp`, `Session::onReadHeader`, `Session::onReadBody`;
`turbonet_client.cpp`, `onReadHeader`, `onReadBody`.

A stream of whole frames is on its way to a receiver. `Awaits` says where in it the receiver is:
between two frames, or between the header and the payload of one. Each read takes the next of these
pieces (`Awaits.next`); `Session.awaits_readDone` and `Client.awaits_readDone` are what the two
receivers do with it.
-/

namespace TurboNet

open Common

/-- The packet of a frame. -/
def packetOf (frame : List UInt8) : Packet := headerPacket (frame.take 10) (frame.drop 10)

/-- The packet of a packet's frame is the packet. -/
@[simp] theorem packetOf_wire (p : Packet) : packetOf p.wire = p := by
  have htake : p.wire.take 10 = p.header := List.take_left' (length_header p)
  have hdrop : p.wire.drop 10 = p.payload := List.drop_left' (length_header p)
  rw [packetOf, htake, hdrop, headerPacket_header]

/-- The payload of a packet that fits has a 32-bit length. -/
theorem Packet.Fits.length_lt {p : Packet} (h : p.Fits) : p.payload.length < 2 ^ 32 := by
  unfold Packet.Fits at h
  omega

/-! ## The stream -/

/-- A receiver has still to get `packets`, and `rest` is what is left of the stream. `kept p` says
that it has the header of `p`. -/
inductive Awaits (reading : Option ReadOp) (kept : Packet → Prop) (packets : List Packet)
    (rest : List UInt8) : Prop where
  | header (hreading : reading = some .header) (hrest : rest = packets.flatMap Packet.wire)
  | body (p : Packet) (ps : List Packet) (hreading : reading = some (.body p.payload.length))
    (hkept : kept p) (hpackets : packets = p :: ps)
    (hrest : rest = p.payload ++ ps.flatMap Packet.wire)
  | ended (hreading : reading = none)

/-- What a read returns. -/
inductive Next (kept : Packet → Prop) (packets : List Packet) (rest : List UInt8) :
    ReadOp → List UInt8 → Prop where
  | header (p : Packet) (ps : List Packet) (hpackets : packets = p :: ps)
    (hrest : rest.drop 10 = p.payload ++ ps.flatMap Packet.wire) :
    Next kept packets rest .header p.header
  | body (p : Packet) (ps : List Packet) (hkept : kept p) (hpackets : packets = p :: ps)
    (hrest : rest.drop p.payload.length = ps.flatMap Packet.wire) :
    Next kept packets rest (.body p.payload.length) p.payload

section Awaits

variable {reading : Option ReadOp} {kept : Packet → Prop} {packets : List Packet}
  {rest bs : List UInt8} {op : ReadOp}

/-- More packets are sent. -/
theorem Awaits.append (h : Awaits reading kept packets rest) (new : List Packet) :
    Awaits reading kept (packets ++ new) (rest ++ new.flatMap Packet.wire) := by
  cases h with
  | header hreading hrest =>
    refine .header hreading ?_
    rw [hrest, List.flatMap_append]
  | body p ps hreading hkept hpackets hrest =>
    refine .body p (ps ++ new) hreading hkept ?_ ?_
    · rw [hpackets, List.cons_append]
    · rw [hrest, List.flatMap_append, List.append_assoc]
  | ended hreading => exact .ended hreading

/-- A read of the bytes that come next takes the header or the payload of the next packet. -/
theorem Awaits.next (h : Awaits reading kept packets rest) (hop : reading = some op)
    (hlength : bs.length = op.size) (hbs : bs <+: rest) : Next kept packets rest op bs := by
  cases h with
  | header hreading hrest =>
    obtain rfl : ReadOp.header = op := Option.some.inj (hreading.symm.trans hop)
    cases packets with
    | nil =>
      rw [hrest, List.flatMap_nil, List.prefix_nil] at hbs
      rw [hbs] at hlength
      exact absurd hlength (by simp [ReadOp.size])
    | cons p ps =>
      rw [List.flatMap_cons, Packet.wire, List.append_assoc] at hrest
      -- the read asks for as many bytes as the header has, and the header is first in the stream
      have hheader : bs = p.header := by
        have hprefix : p.header <+: rest := hrest ▸ List.prefix_append _ _
        refine (List.prefix_of_prefix_length_le hbs hprefix ?_).eq_of_length ?_
        · exact Nat.le_of_eq hlength
        · exact hlength
      subst hheader
      refine .header p ps rfl ?_
      rw [hrest]
      exact List.drop_left' (length_header p)
  | body p ps hreading hkept hpackets hrest =>
    obtain rfl : ReadOp.body p.payload.length = op := Option.some.inj (hreading.symm.trans hop)
    have hpayload : bs = p.payload := by
      have hprefix : p.payload <+: rest := hrest ▸ List.prefix_append _ _
      refine (List.prefix_of_prefix_length_le hbs hprefix ?_).eq_of_length hlength
      exact Nat.le_of_eq hlength
    subst hpayload
    exact .body p ps hkept hpackets (by rw [hrest, List.drop_left])
  | ended hreading => exact absurd (hreading.symm.trans hop) (by simp)

/-- Nothing is to come when nothing is left of the stream. -/
theorem Awaits.eq_nil (h : Awaits (some .header) kept packets []) : packets = [] := by
  cases h with
  | header _ hrest =>
    cases packets with
    | nil => rfl
    | cons p ps =>
      have hlength := congrArg List.length hrest
      rw [List.flatMap_cons, List.length_append, length_wire, List.length_nil] at hlength
      omega
  | body _ _ hreading => cases hreading
  | ended hreading => cases hreading

end Awaits

/-! ## The session -/

namespace Session

variable {h : Handlers} {s : Session} {packets : List Packet} {rest bs : List UInt8} {op : ReadOp}

/-- The frames passed to `send`, as packets. -/
def sent (s : Session) : List Packet := s.out.started.map packetOf

/-- The packets with which `onRequest_` has been called. -/
def requests (s : Session) : List Packet :=
  s.calls.filterMap fun c => match c with
    | .request p => some p
    | _ => none

/-- `onAuth_` accepts the packet, a bind request. -/
def acceptsBind (h : Handlers) (p : Packet) : Bool :=
  p.packetId == 0x01 && h.onAuth.any fun auth => auth p.payload

/-- What the session has still to get. -/
def Awaits (s : Session) (packets : List Packet) (rest : List UInt8) : Prop :=
  TurboNet.Awaits s.reading (fun p => s.headerBuf = p.header) packets rest

/-- What the body of `onReadBody` does with a packet. -/
structure Handles (h : Handlers) (s : Session) (p : Packet) (t : Session) : Prop where
  authenticated : t.authenticated = (s.authenticated || acceptsBind h p)
  out : t.out = if !s.authenticated && acceptsBind h p
    then s.out.start (bindResponse p.sequence).wire else s.out
  requests : t.requests = s.requests ++ if s.authenticated then [p] else []

/-- With its header kept and its body read, the session sees the packet. -/
theorem current_of_kept {p : Packet} (hkept : s.headerBuf = p.header)
    (hbody : s.bodyBuf = p.payload) : s.current h = p := by
  rw [current_eq h s (by rw [hkept, length_header]), hkept, hbody, headerPacket_header]

/-- `dispatch` passes requests on and answers the first accepted bind. -/
theorem handles_dispatch (hr : h.onRequest = true) : Handles h s (s.current h) (s.dispatch h) := by
  have hid : (s.current h).packetId = s.headerBuf.getD 4 0 := rfl
  cases hauth : s.authenticated with
  | true =>
    have hdispatch : s.dispatch h = s.forward h := by
      rw [dispatch, hauth]
      rfl
    rw [hdispatch, forward, if_pos hr]
    exact ⟨by simp [hauth], by simp [hauth], by simp [requests, hauth]⟩
  | false =>
    -- before it is bound the session looks at bind requests only
    by_cases hbind : s.headerBuf.getD 4 0 = 0x01
    · have hdispatch : s.dispatch h = s.onBind h := by
        rw [dispatch, hauth, hbind]
        rfl
      have haccepts : acceptsBind h (s.current h) = h.onAuth.any fun auth => auth s.bodyBuf := by
        rw [acceptsBind, hid, hbind]
        rfl
      rw [hdispatch, onBind]
      cases honAuth : h.onAuth with
      | none =>
        exact ⟨by simp [removeSession, haccepts, honAuth],
          by simp [removeSession, haccepts, honAuth], by simp [removeSession, requests, hauth]⟩
      | some auth =>
        by_cases hbody : auth s.bodyBuf = true
        · have hsequence : fromBigEndian h.host s.headerBuf 6 = (s.current h).sequence := rfl
          simp only [hbody, ↓reduceIte, bindResponseFrame_eq, hsequence]
          exact ⟨by simp [send, haccepts, honAuth, hbody],
            by simp [send, haccepts, honAuth, hbody, hauth], by simp [send, requests, hauth]⟩
        · simp only [hbody, ↓reduceIte, Bool.false_eq_true]
          exact ⟨by simp [removeSession, haccepts, honAuth, hbody],
            by simp [removeSession, haccepts, honAuth, hbody],
            by simp [removeSession, requests, hauth]⟩
    · have hnot : acceptsBind h (s.current h) = false := by
        rw [acceptsBind, hid, beq_false_of_ne hbind]
        rfl
      have hdispatch : s.dispatch h = s := by
        rw [dispatch, hauth, beq_false_of_ne hbind]
        rfl
      rw [hdispatch]
      exact ⟨by simp [hnot], by simp [hnot], by simp [hauth]⟩

/-- The session gets a body, and handles the packet that is in its buffers then. -/
theorem handles_body (hr : h.onRequest = true) (s : Session) (n : ℕ) (bs : List UInt8) :
    Handles h s ({ s with bodyBuf := bs }.current h) (s.readDone h (.body n) bs) ∧
      (s.readDone h (.body n) bs).handed =
        s.handed ++ [{ s with bodyBuf := bs }.current h] := by
  have hdispatch := handles_dispatch (s := { s with
    bodyBuf := bs
    reading := none
    handed := s.handed ++ [{ s with bodyBuf := bs }.current h] }) hr
  exact ⟨⟨hdispatch.authenticated, hdispatch.out, hdispatch.requests⟩, dispatch_handed h _⟩

/-- The session gets the payload of a packet whose header it has kept. -/
theorem handles_readDone (hr : h.onRequest = true) {p : Packet} (hkept : s.headerBuf = p.header)
    (n : ℕ) : Handles h s p (s.readDone h (.body n) p.payload) ∧
      (s.readDone h (.body n) p.payload).handed = s.handed ++ [p] := by
  have hcurrent : { s with bodyBuf := p.payload }.current h = p :=
    current_of_kept (s := { s with bodyBuf := p.payload }) hkept rfl
  have hhandles := handles_body hr s n p.payload
  rwa [hcurrent] at hhandles

/-- **One read of the session.** It is handed the packet whose payload it has got. -/
theorem awaits_readDone (h : Handlers) (hawaits : s.Awaits packets rest)
    (hlengths : ∀ p ∈ packets, p.payload.length < 2 ^ 32) (hop : s.reading = some op)
    (hlength : bs.length = op.size) (hbs : bs <+: rest) :
    (∃ p ps, op = .header ∧ packets = p :: ps ∧ bs = p.header ∧
      (s.readDone h op bs).Awaits packets (rest.drop bs.length)) ∨
    ∃ p ps, op = .body p.payload.length ∧ packets = p :: ps ∧ bs = p.payload ∧
      s.headerBuf = p.header ∧ (s.readDone h op bs).Awaits ps (rest.drop bs.length) := by
  cases hawaits.next hop hlength hbs with
  | header p ps hpackets hrest =>
    refine Or.inl ⟨p, ps, rfl, hpackets, rfl, .body p ps ?_ rfl hpackets hrest⟩
    rw [readDone_header_reading h s (length_header p), headerTotal_header,
      toNat_total_sub_ten (hlengths p (hpackets ▸ List.mem_cons_self))]
  | body p ps hkept hpackets hrest =>
    exact Or.inr ⟨p, ps, rfl, hpackets, rfl, hkept, .header rfl hrest⟩

end Session

/-! ## The client -/

namespace Client

variable {c c' : Client} {cfg : ClientConfig} {packets : List Packet} {rest bs : List UInt8}
  {op : ReadOp} {e : Event}

/-- The frames passed to `sendPacket`, as packets. -/
def sent (c : Client) : List Packet := c.tx.sendCalls.map packetOf

/-- The header that the client has got last is that of the packet. -/
def Kept (c : Client) (p : Packet) : Prop :=
  c.rx.lastPacketId = p.packetId ∧ c.rx.lastStatus = p.status ∧ c.rx.lastSequence = p.sequence

/-- The client hands on what it has kept of the header, with the body. -/
theorem readDone_body_handed (cfg : ClientConfig) (c : Client) (n : ℕ) (bs : List UInt8) :
    (c.readDone cfg (.body n) bs).rx.handed = c.rx.handed ++
      [⟨c.rx.lastPacketId, c.rx.lastStatus, c.rx.lastSequence, bs⟩] := by
  simp only [readDone, onReadBody, Bool.false_eq_true, ↓reduceIte]
  split <;> rfl

/-- **One read of the client.** It is handed the packet whose payload it has got. -/
theorem awaits_readDone (cfg : ClientConfig) (hawaits : Awaits c.rx.reading c.Kept packets rest)
    (hfits : ∀ p ∈ packets, p.Fits) (hop : c.rx.reading = some op) (hlength : bs.length = op.size)
    (hbs : bs <+: rest) : ∃ new packets', packets = new ++ packets' ∧
      (c.readDone cfg op bs).rx.handed = c.rx.handed ++ new ∧
      Awaits (c.readDone cfg op bs).rx.reading (c.readDone cfg op bs).Kept packets'
        (rest.drop bs.length) := by
  cases hawaits.next hop hlength hbs with
  | header p ps hpackets hrest =>
    have hfit : p.Fits := hfits p (hpackets ▸ List.mem_cons_self)
    have htotal : (headerTotal p.header).toNat = 10 + p.payload.length := by
      rw [headerTotal_header, hfit.toNat_total]
    -- the packet fits, so neither its total nor the subtraction wraps
    have hsize : (headerTotal p.header - 10).toNat = p.payload.length := by
      rw [toNat_sub_ten (by omega)]
      omega
    have hrx := readDone_header_rx cfg c (length_header p)
    rw [if_pos (by omega), hsize] at hrx
    refine ⟨[], packets, rfl, ?_, .body p ps ?_ ?_ hpackets hrest⟩
    · rw [hrx, List.append_nil]
      rfl
    · rw [hrx]
    · have hpacket := headerPacket_header p
      have hkept : (c.readDone cfg .header p.header).Kept (headerPacket p.header p.payload) := by
        unfold Kept
        rw [hrx]
        exact ⟨rfl, rfl, rfl⟩
      rwa [hpacket] at hkept
  | body p ps hkept hpackets hrest =>
    obtain ⟨hid, hstatus, hsequence⟩ := hkept
    refine ⟨[p], ps, hpackets, ?_, ?_⟩
    · rw [readDone_body_handed, hid, hstatus, hsequence]
    · rcases readDone_body_reading cfg c p.payload.length p.payload with hnone | hheader
      · exact .ended hnone
      · exact .header hheader hrest

/-! ### Steps other than a read -/

/-- Reads and the connection apart, the handlers leave the receive side as it is. -/
theorem rx_step (h : step cfg c e = some c') (hread : ∀ bs, e ≠ .readDone bs)
    (hfail : e ≠ .readFail) (hconnected : e ≠ .connectDone false) : c'.rx = c.rx := by
  cases transition_of_step h with
  | connect | sendPacket | close | armStarted | writeDone | sweepNext | sweepRearm | tick => rfl
  | sendRequest data gap =>
    obtain ⟨r, now, heq⟩ := sendRequest_eq cfg c data gap
    rw [heq]
    rfl
  | startRequest data =>
    obtain ⟨r, heq⟩ := startRequest_eq cfg c data
    rw [heq]
    rfl
  | connectDone ec =>
    cases ec with
    | true => rfl
    | false => exact absurd rfl hconnected
  | runPosted pkt rest =>
    rw [runPosted]
    split <;> rfl
  | readDone op bs => exact absurd rfl (hread bs)
  | readFail op => exact absurd rfl hfail
  -- a timeout closes the socket, which the outstanding read learns later
  | timerDue t c' hdue =>
    cases t with
    | response =>
      obtain ⟨⟨_, t⟩, -, rfl⟩ := Option.map_eq_some_iff.mp hdue
      dsimp only
      rw [sweepFire_eq]
    | _ =>
      obtain ⟨⟨_, t⟩, -, rfl⟩ := Option.map_eq_some_iff.mp hdue
      rfl
  | timerAborted t c' haborted =>
    cases t <;> obtain ⟨⟨_, t⟩, -, rfl⟩ := Option.map_eq_some_iff.mp haborted <;> rfl
  | expire t c' hexpire =>
    cases t <;> obtain ⟨t, -, rfl⟩ := Option.map_eq_some_iff.mp hexpire <;> rfl

/-- What `onReadBody` has seen grows by the packet whose payload has been read. -/
theorem handed_step (h : step cfg c e = some c') :
    c'.rx.handed = c.rx.handed ++ (c.incoming e).toList := by
  cases e with
  | readDone bs =>
    cases transition_of_step h with
    | readDone op bs hop =>
      -- only the body of a packet hands it on
      cases op with
      | header =>
        simp only [incoming, hop, Option.toList_none, List.append_nil, readDone, onReadHeader,
          Bool.false_eq_true, ↓reduceIte]
        split <;> rfl
      | body n =>
        simp only [incoming, hop, Option.toList_some]
        exact readDone_body_handed cfg c n bs
  | readFail =>
    refine Eq.trans ?_ (List.append_nil _).symm
    cases transition_of_step h with
    | readFail op hop =>
      cases op with
      | header => rfl
      | body n =>
        simp only [readFail, onReadBody, ↓reduceIte]
        split <;> rfl
  | connectDone ec =>
    refine Eq.trans ?_ (List.append_nil _).symm
    cases transition_of_step h with
    | connectDone ec =>
      cases ec with
      | true => rfl
      | false => rw [(onConnect_rx cfg c).1]
  | _ =>
    refine Eq.trans ?_ (List.append_nil _).symm
    rw [rx_step h (by simp) (by simp) (by simp)]

/-- With a packet handler, the application gets what `onReadBody` sees. -/
theorem packets_eq_handed (hset : cfg.onPacket = true) (hI : c.packets = c.rx.handed)
    (h : step cfg c e = some c') : c'.packets = c'.rx.handed := by
  rw [packets_step hset h, handed_step h, hI]

end Client

end TurboNet
