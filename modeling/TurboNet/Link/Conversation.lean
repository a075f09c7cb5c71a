import TurboNet.Common.Pipe
import TurboNet.Client.SendPath
import TurboNet.Server.Output
import TurboNet.Link.Receiving

/-!
# A client and its session

Reference: `turbonet_client.cpp`, `turbonet_server.cpp`, `server.cpp`.

`Conversation` is a client, the session that the server starts for its connection and the network
between them, which takes bytes in pieces of any size and hands them out in order. The application
of the server answers a request before its handler returns, as the one of `server.cpp` does.

`replies` says what a session should send back for the packets it is handed, and `Session.Replied`
that it has done so.
-/

namespace TurboNet

open Common

/-! ## The send path of the client and the network -/

/-- The session has still to get `rest` from the client: with the network, in the write in flight or
in the frames of posted handlers. After a write that failed nothing more is written. -/
inductive Flow (t : Sender) (up : Pipe UInt8) (rest : List UInt8) : Prop where
  | flows (hbuffer : t.txBuffer = t.inFlight) (hidle : t.writing = none → up.left = [])
      (hrest : up.transit ++ (up.left ++ t.posted.flatten) = rest)
  | broken (hwriting : t.writing = none) (hbuffer : t.txBuffer ≠ [])
      (hrest : up.transit ++ up.left <+: rest)

namespace Flow

variable {t : Sender} {up up' : Pipe UInt8} {rest bs pkt : List UInt8} {posted : List (List UInt8)}

/-- A frame that is posted is the last one that the session has to get. -/
theorem post (h : Flow t up rest) (pkt : List UInt8) : Flow (t.post pkt) up (rest ++ pkt) := by
  cases h with
  | flows hbuffer hidle hrest =>
    refine .flows hbuffer hidle ?_
    rw [← hrest]
    simp [Sender.post]
  | broken hwriting hbuffer hrest =>
    exact .broken hwriting hbuffer (hrest.trans (List.prefix_append _ _))

/-- The handler of the next frame runs while no write is in flight, and begins one. -/
theorem runPosted (h : Flow t up rest) (hposted : t.posted = pkt :: posted)
    (hwriting : t.writing = none) : Flow (t.runPosted pkt posted)
      { up with left := up.left ++
        if t.txBuffer = [] then (t.runPosted pkt posted).inFlight else [] } rest := by
  cases h with
  | flows hbuffer hidle hrest =>
    have hempty : t.txBuffer = [] := by rw [hbuffer, Sender.inFlight, hwriting]; rfl
    rw [if_pos hempty, hidle hwriting, Sender.runPosted, if_pos hempty]
    refine .flows rfl (fun hnone => by cases hnone) ?_
    rw [← hrest, hidle hwriting, hposted]
    simp [Sender.asyncWrite, Sender.insert, Sender.inFlight, hempty]
  | broken _ hbuffer hrest =>
    rw [if_neg hbuffer, List.append_nil, Sender.runPosted, if_neg hbuffer]
    exact .broken hwriting (by simp [Sender.insert, hbuffer]) hrest

/-- A write completes when the network has taken all of it. -/
theorem writeDone (h : Flow t up rest) (hleft : up.left = []) (hwriting : t.writing.isSome = true) :
    Flow (t.onWrite false) up rest := by
  cases h with
  | flows hbuffer hidle hrest => exact .flows rfl (fun _ => hleft) hrest
  | broken hnone => simp [hnone] at hwriting

/-- A write that failed adds nothing to what the session has still to get. -/
theorem writeFail (h : Flow t up rest) (hshaped : t.Shaped) (hwriting : t.writing.isSome = true) :
    Flow (t.onWrite true) up rest := by
  cases h with
  | flows hbuffer hidle hrest =>
    refine .broken rfl (hshaped.txBuffer_ne_nil hwriting) ?_
    rw [← hrest, ← List.append_assoc]
    exact List.prefix_append _ _
  | broken hnone => simp [hnone] at hwriting

/-- The network only moves bytes on. -/
theorem carry (h : Flow t up rest) (n : ℕ) : Flow t (up.carry n) rest := by
  cases h with
  | flows hbuffer hidle hrest =>
    refine .flows hbuffer (fun hnone => ?_) ?_
    · rw [Pipe.carry, hidle hnone, List.drop_nil]
    · rw [← List.append_assoc, Pipe.carry_all, List.append_assoc]
      exact hrest
  | broken hwriting hbuffer hrest => exact .broken hwriting hbuffer (up.carry_all n ▸ hrest)

/-- A read takes the first bytes of what the session has still to get. -/
theorem read (h : Flow t up rest) (hup : up.read bs = some up') :
    bs <+: rest ∧ Flow t up' (rest.drop bs.length) := by
  cases h with
  | flows hbuffer hidle hrest =>
    obtain ⟨hbs, hleft, hrest'⟩ := Pipe.read_stream hup hrest
    rw [← hleft] at hidle hrest'
    exact ⟨hbs, .flows hbuffer hidle hrest'⟩
  | broken hwriting hbuffer hrest =>
    obtain ⟨hbs, hleft, hrest'⟩ := Pipe.read_stream_prefix hup hrest
    rw [← hleft] at hrest'
    exact ⟨hbs, .broken hwriting hbuffer hrest'⟩

/-- A session with nothing under way has got everything. -/
theorem eq_nil (h : Flow t up rest) (htransit : up.transit = []) (hbuffer : t.txBuffer = [])
    (hwriting : t.writing = none) (hposted : t.posted = []) : rest = [] := by
  cases h with
  | flows _ hidle hrest => rw [← hrest, htransit, hidle hwriting, hposted]; rfl
  | broken _ hne => exact absurd hbuffer hne

end Flow

/-! ## The machine -/

/-- The application of a server: `onAuth_`, and what its request handler passes to `respond` before
it returns. -/
structure Application where
  onAuth : Option (List UInt8 → Bool)
  answer : Packet → List Packet

/-- The bytes of `"client_123"` and `"client_abc"`. -/
def validClients : List (List UInt8) :=
  [[0x63, 0x6c, 0x69, 0x65, 0x6e, 0x74, 0x5f, 0x31, 0x32, 0x33],
    [0x63, 0x6c, 0x69, 0x65, 0x6e, 0x74, 0x5f, 0x61, 0x62, 0x63]]

/-- The bytes of `"Echo: "`. -/
def echoPrefix : List UInt8 := [0x45, 0x63, 0x68, 0x6f, 0x3a, 0x20]

/-- The handlers that `main` of `server.cpp` installs. -/
def echoServer : Application where
  onAuth := some fun clientId => validClients.contains clientId
  answer p := [⟨0x82, 0x00, p.sequence, echoPrefix ++ p.payload⟩]

structure Conversation where
  client : Client := {}
  /-- The connection of the client has been made. -/
  connected : Bool := false
  /-- A read of the client has failed, and with it the connection. -/
  lost : Bool := false
  /-- The session of the connection, and whether the server has accepted it. -/
  session : Session := Session.start {}
  accepted : Bool := false
  /-- What is under way from the client to the session. -/
  up : Pipe UInt8 := {}
  /-- How much of what the session has put on the wire the client has read. -/
  down : ℕ := 0

namespace Conversation

inductive Event where
  | client (e : Client.Event)
  | accept
  | session (e : Session.Event)
  /-- The network takes bytes of the client's write. -/
  | carry (n : ℕ)
deriving DecidableEq, Repr

/-- The handlers of the server. -/
def handlers (host : Endian) (app : Application) : Handlers := ⟨host, app.onAuth, true⟩

/-- The application answers the requests that the session has passed to it since. -/
def answered (host : Endian) (app : Application) (s t : Session) : Session :=
  ((t.requests.drop s.requests.length).flatMap app.answer).foldl
    (Session.respond (handlers host app)) t

/-- The client takes a step. It makes one connection. -/
def clientStep (cfg : ClientConfig) (w : Conversation) (e : Client.Event) : Option Conversation :=
  (Client.step cfg w.client e).bind fun c =>
    match e with
    | .connectDone false =>
      if w.connected then none else some { w with client := c, connected := true }
    | .readDone bs =>
      if w.connected ∧ !w.lost ∧ bs <+: w.session.out.wire.drop w.down then
        some { w with client := c, down := w.down + bs.length }
      else none
    | .readFail => some { w with client := c, lost := true }
    | .runPosted =>
      -- a write is begun if the buffer was empty
      let begun := if w.client.tx.txBuffer = [] then c.tx.inFlight else []
      some { w with client := c, up := { w.up with left := w.up.left ++ begun } }
    | .writeDone false => if w.up.left = [] then some { w with client := c } else none
    | _ => some { w with client := c }

/-- The session takes a step. -/
def sessionStep (host : Endian) (app : Application) (w : Conversation) :
    Session.Event → Option Conversation
  | .readDone bs =>
    (w.up.read bs).bind fun up =>
      (Session.step (handlers host app) w.session (.readDone bs)).map fun s =>
        { w with up := up, session := answered host app w.session s }
  -- the application does not keep its `respond` lambdas
  | .respond _ => none
  | e => (Session.step (handlers host app) w.session e).map fun s => { w with session := s }

def step (cfg : ClientConfig) (host : Endian) (app : Application) (w : Conversation) :
    Event → Option Conversation
  | .client e => w.clientStep cfg e
  | .accept =>
    if !w.accepted && (w.client.connecting || w.connected) then some { w with accepted := true }
    else none
  | .session e => if w.accepted then w.sessionStep host app e else none
  | .carry n => if w.connected then some { w with up := w.up.carry n } else none

end Conversation

/-! ## What the session replies -/

/-- The replies to a sequence of packets: to the first bind request that is accepted, and the
answers of the application to what comes after it. -/
def replies (host : Endian) (app : Application) : List Packet → List Packet
  | [] => []
  | p :: ps =>
    if Session.acceptsBind (Conversation.handlers host app) p then
      bindResponse p.sequence :: ps.flatMap app.answer
    else replies host app ps

namespace Session

open Conversation

variable {host : Endian} {app : Application} {s s' t : Session} {packets new : List Packet}
  {rest bs : List UInt8} {op : ReadOp}

/-- The reply to one more packet depends on whether a bind was accepted before it. -/
theorem replies_append (ps : List Packet) (p : Packet) :
    replies host app (ps ++ [p]) = replies host app ps ++
      if ps.any (acceptsBind (handlers host app)) then app.answer p
      else if acceptsBind (handlers host app) p then [bindResponse p.sequence] else [] := by
  induction ps with
  | nil => simp [replies]
  | cons q ps ih =>
    by_cases hq : acceptsBind (handlers host app) q = true
    · simp [replies, hq]
    · simp [replies, hq, ih]

/-- A step of the session starts to write these packets. -/
structure Puts (s s' : Session) (new : List Packet) : Prop where
  started : s'.out.started = s.out.started ++ new.map Packet.wire
  wire : s.out.wire <+: s'.out.wire
  inOrder : s.out.InOrder → s'.out.InOrder

/-- The packets of the step are appended to the frames that the session has sent. -/
theorem Puts.sent (h : Puts s s' new) : s'.sent = s.sent ++ new := by
  unfold Session.sent
  rw [h.started, List.map_append, List.map_map]
  have hid : packetOf ∘ Packet.wire = id := funext packetOf_wire
  rw [hid, List.map_id]

/-- A step that does not write puts nothing. -/
theorem puts_of_eq (h : s'.out = s.out) : Puts s s' [] :=
  ⟨by rw [h, List.map_nil, List.append_nil], h ▸ List.prefix_rfl, fun hin => h ▸ hin⟩

/-- Answers are written one after another. -/
theorem foldl_respond (h : Handlers) (t : Session) (ps : List Packet) :
    ps.foldl (respond h) t = { t with out := (ps.map Packet.wire).foldl Outbox.start t.out } := by
  induction ps generalizing t with
  | nil => rfl
  | cons p ps ih =>
    rw [List.foldl_cons, ih, List.map_cons, List.foldl_cons, respond, respondFrame_eq]
    rfl

/-- The application has not been called. -/
theorem answered_of_requests (h : t.requests = s.requests) : answered host app s t = t := by
  rw [answered, h, List.drop_length]
  rfl

/-- The session replies to what it has been handed. -/
structure Replied (host : Endian) (app : Application) (s : Session) : Prop where
  authenticated : s.authenticated = s.handed.any (acceptsBind (handlers host app))
  sent : s.sent = replies host app s.handed

/-- The application answers a packet that the session has handled. -/
theorem Replied.handles (hI : s.Replied host app) {p : Packet}
    (hhandles : Handles (handlers host app) s p t) (hhanded : t.handed = s.handed ++ [p]) :
    (answered host app s t).Replied host app ∧ ∃ new, Puts s (answered host app s t) new := by
  have hrequests : t.requests.drop s.requests.length = if s.authenticated then [p] else [] := by
    rw [hhandles.requests, List.drop_left]
  have hanswered : answered host app s t = ((if s.authenticated then [p] else []).flatMap
      app.answer).foldl (respond (handlers host app)) t := by
    rw [answered, hrequests]
  rw [foldl_respond] at hanswered
  -- a session that is bound passes the packet on, and the application answers; one that is not
  -- answers an accepted bind
  obtain ⟨new, hnew, hputs⟩ : ∃ new, new = (if s.authenticated then app.answer p
      else if acceptsBind (handlers host app) p then [bindResponse p.sequence] else []) ∧
      Puts s (answered host app s t) new := by
    refine ⟨_, rfl, ?_⟩
    rw [hanswered]
    cases hauth : s.authenticated with
    | true =>
      have hout : t.out = s.out := by rw [hhandles.out, hauth]; rfl
      simp only [↓reduceIte, List.flatMap_cons, List.flatMap_nil, List.append_nil, hout]
      obtain ⟨hstarted, hwire⟩ := s.out.foldl_start ((app.answer p).map Packet.wire)
      exact ⟨hstarted, hwire ▸ List.prefix_rfl, fun hin => hin.foldl_start _⟩
    | false =>
      have hout := hhandles.out
      rw [hauth, Bool.not_false, Bool.true_and] at hout
      simp only [Bool.false_eq_true, ↓reduceIte, List.flatMap_nil, List.map_nil, List.foldl_nil]
      cases hbind : acceptsBind (handlers host app) p with
      | true =>
        rw [hbind, if_pos rfl] at hout
        exact ⟨by rw [hout]; rfl, by rw [hout]; exact List.prefix_rfl,
          fun hin => by rw [hout]; exact hin.start _⟩
      | false =>
        rw [hbind, if_neg Bool.false_ne_true] at hout
        exact puts_of_eq hout
  refine ⟨⟨?_, ?_⟩, new, hputs⟩
  · have hsame : (answered host app s t).authenticated = t.authenticated ∧
        (answered host app s t).handed = t.handed := by
      rw [hanswered]
      exact ⟨rfl, rfl⟩
    rw [hsame.1, hsame.2, hhandles.authenticated, hI.authenticated, hhanded, List.any_append]
    simp
  · have hsame : (answered host app s t).handed = t.handed := by
      rw [hanswered]
    rw [hsame, hhanded, hputs.sent, hI.sent, replies_append, ← hI.authenticated, hnew]

/-- The session reads the bytes that come next. -/
theorem Replied.readDone (hI : s.Replied host app) (hawaits : s.Awaits packets rest)
    (hfits : ∀ p ∈ packets, p.Fits) (hop : s.reading = some op) (hlength : bs.length = op.size)
    (hbs : bs <+: rest) :
    (answered host app s (s.readDone (handlers host app) op bs)).Replied host app ∧
      (∃ new, Puts s (answered host app s (s.readDone (handlers host app) op bs)) new) ∧
      ∃ new packets', packets = new ++ packets' ∧
        (answered host app s (s.readDone (handlers host app) op bs)).handed = s.handed ++ new ∧
        (answered host app s (s.readDone (handlers host app) op bs)).Awaits packets'
          (rest.drop bs.length) := by
  rcases awaits_readDone (handlers host app) hawaits
    (fun p hp => (hfits p hp).length_lt) hop hlength hbs with
    ⟨p, ps, rfl, -, -, hnext⟩ | ⟨p, ps, rfl, hpackets, rfl, hkept, hnext⟩
  · -- a header: the application is not called
    have hrequests : (s.readDone (handlers host app) .header bs).requests = s.requests := rfl
    rw [answered_of_requests hrequests]
    exact ⟨⟨hI.authenticated, hI.sent⟩, ⟨[], puts_of_eq rfl⟩, [], packets, rfl,
      (List.append_nil _).symm, hnext⟩
  · obtain ⟨hhandles, hhanded⟩ := handles_readDone (h := handlers host app) rfl hkept
      p.payload.length
    obtain ⟨hreplied, hputs⟩ := hI.handles hhandles hhanded
    have hsame : (answered host app s (s.readDone (handlers host app) (.body p.payload.length)
        p.payload)).handed = s.handed ++ [p] := by
      rw [answered, foldl_respond]
      exact hhanded
    refine ⟨hreplied, hputs, [p], ps, hpackets, hsame, ?_⟩
    rw [answered, foldl_respond]
    exact hnext

/-- What a step of the session other than a read leaves alone. -/
structure Still (s s' : Session) : Prop where
  handed : s'.handed = s.handed
  authenticated : s'.authenticated = s.authenticated
  requests : s'.requests = s.requests
  reading : s'.reading = none ∨ s'.reading = s.reading ∧ s'.headerBuf = s.headerBuf

/-- Only a read moves the session on in its packets. -/
theorem still_step {h : Handlers} {e : Event} (hread : ∀ bs, e ≠ .readDone bs)
    (hstep : Session.step h s e = some s') : Still s s' := by
  cases acts_of_step hstep with
  | readDone op bs => exact absurd rfl (hread bs)
  | readFail op hop =>
    cases op with
    | header => exact ⟨rfl, rfl, rfl, Or.inl (readFail_reading h s .header)⟩
    | body n => exact ⟨rfl, rfl, rfl, Or.inl (readFail_reading h s (.body n))⟩
  | respond p => exact ⟨rfl, rfl, rfl, Or.inr ⟨rfl, rfl⟩⟩
  | transfer => exact ⟨rfl, rfl, rfl, Or.inr ⟨rfl, rfl⟩⟩
  | reuse => exact ⟨rfl, rfl, rfl, Or.inr ⟨rfl, rfl⟩⟩
  | writeFail => exact ⟨rfl, rfl, rfl, Or.inr ⟨rfl, rfl⟩⟩

/-- Whatever does not read leaves the session awaiting the same packets. -/
theorem Still.awaits (h : Still s s') (hawaits : s.Awaits packets rest) :
    s'.Awaits packets rest := by
  rcases h.reading with hnone | ⟨hsame, hheader⟩
  · exact .ended hnone
  · unfold Session.Awaits
    rw [hsame, hheader]
    exact hawaits

/-- Such a step starts no write either, unless the application responds. -/
theorem started_step {h : Handlers} {e : Event} (hread : ∀ bs, e ≠ .readDone bs)
    (hrespond : ∀ p, e ≠ .respond p) (hstep : Session.step h s e = some s') :
    s'.out.started = s.out.started := by
  cases acts_of_step hstep with
  | readDone op bs => exact absurd rfl (hread bs)
  | readFail op hop => cases op <;> rfl
  | respond p => exact absurd rfl (hrespond p)
  | transfer i k o ho => exact Outbox.transfer_started ho
  | reuse i memory o ho => exact Outbox.reuse_started ho
  | writeFail i o ho => exact Outbox.fail_started ho

/-- Apart from reads and answers no step writes. -/
theorem puts_step {h : Handlers} {e : Event} (hc : OldestFirst s e) (hread : ∀ bs, e ≠ .readDone bs)
    (hrespond : ∀ p, e ≠ .respond p) (hstep : Session.step h s e = some s') : Puts s s' [] := by
  refine ⟨?_, ?_, fun hs => step_inOrder hc hs hstep⟩
  · rw [List.map_nil, List.append_nil, started_step hread hrespond hstep]
  · cases acts_of_step hstep with
    | readDone op bs => exact absurd rfl (hread bs)
    | readFail op hop => cases op <;> exact List.prefix_rfl
    | respond p => exact absurd rfl (hrespond p)
    | transfer i k o ho => exact Outbox.transfer_wire ho
    | reuse i memory o ho => exact (Outbox.reuse_wire ho).symm ▸ List.prefix_rfl
    | writeFail i o ho => exact (Outbox.fail_wire ho).symm ▸ List.prefix_rfl

/-- In such a step the session goes on replying as it should. -/
theorem Replied.still (hI : s.Replied host app) {h : Handlers} {e : Event}
    (hread : ∀ bs, e ≠ .readDone bs) (hrespond : ∀ p, e ≠ .respond p)
    (hstep : Session.step h s e = some s') : s'.Replied host app := by
  have hsame := still_step hread hstep
  refine ⟨?_, ?_⟩
  · rw [hsame.authenticated, hsame.handed, hI.authenticated]
  · rw [hsame.handed, ← hI.sent, Session.sent, started_step hread hrespond hstep, Session.sent]

end Session

end TurboNet
