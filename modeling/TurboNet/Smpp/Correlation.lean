import TurboNet.Common.Lists
import TurboNet.Smpp.Session

/-!
# Requests and responses of two SMPP peers

Reference: `new_chatgpt/main.cpp`, `SmppSession::send_pdu`, `SmppSession::parse_pdu`, `SmppClient`,
`SmppServer::start_accept`.

`Link.step` runs the session of an `SmppClient` and one of an `SmppServer` side by side, with a
connection that delivers PDUs in order and as wholes. Either side may send any PDU at any time; a
PDU may be made for one that has come in, and the model remembers for which. The server makes the
answer to a `bind_transceiver` when it is passed to `on_request`, and sends it like any other PDU,
so that `send_pdu` overwrites the number that the constructor was given. No timer expires.

Both sides count from 1. As long as nothing has been sent 2^32 times, the `n`-th PDU of one side is
therefore taken for a response exactly if the other side has sent `n` PDUs by then, whatever it is
(`Counted.contains_iff`). `correlated_iff` says which runs go well nevertheless.
-/

namespace TurboNet.Smpp

open Common

inductive Side where
  | client
  | server
deriving DecidableEq, Repr

def Side.other : Side → Side
  | .client => .server
  | .server => .client

/-- A PDU that has been sent. -/
structure Sent where
  pdu : SmppPdu
  /-- The place of the PDU of the peer that it was made for. -/
  answers : Option ℕ
  /-- It is the answer to a `bind_transceiver` that the server makes. -/
  bindAnswer : Bool := false
deriving DecidableEq, Repr

structure Peer where
  session : Session
  /-- All PDUs that have been sent. -/
  sent : List Sent := []
  /-- How many PDUs of the other side have come in. -/
  received : ℕ := 0
  /-- The place of the `bind_transceiver` that `on_request` is about to answer. -/
  answering : Option ℕ := none
  /-- History: the places of the PDUs that were passed to `on_request` and to `on_response`. -/
  requests : List ℕ := []
  responses : List ℕ := []

namespace Peer

/-- `send_pdu`. -/
def send (p : Peer) (now timeout : ℕ) (o : Sent) : Peer :=
  { p with
    session := p.session.sendPdu now timeout
    sent := p.sent ++ [{ o with pdu := p.session.numbered o.pdu }] }

/-- The callback that the next PDU is passed to. -/
def passes (p : Peer) (pdu : SmppPdu) : Option Callback := (p.session.parsePdu pdu).2

/-- `parse_pdu`. -/
def receive (p : Peer) (pdu : SmppPdu) : Peer :=
  { p with
    session := (p.session.parsePdu pdu).1
    received := p.received + 1
    requests := p.requests ++ if p.passes pdu = some .onRequest then [p.received] else []
    responses := p.responses ++ if p.passes pdu = some .onResponse then [p.received] else [] }

end Peer

/-- The two sessions, with the callbacks that `SmppClient` and `SmppServer` set. -/
structure Link where
  now : ℕ := 0
  client : Peer := { session := { onRequest := true, onResponse := true } }
  server : Peer := { session := { onRequest := true, onResponse := false } }

inductive Event where
  /-- A side calls `send_pdu`, with a PDU that it may have made for one that has come in. -/
  | send (side : Side) (timeout : ℕ) (pdu : SmppPdu) (answers : Option ℕ)
  /-- The next PDU of the other side comes in. -/
  | receive (side : Side)
  /-- The server sends the answer to a `bind_transceiver`; the argument is what is in the memory of
  its `command_length`. -/
  | answerBind (commandLength : UInt32)
  /-- Time passes. -/
  | tick (d : ℕ)
deriving DecidableEq

namespace Link

def peer (l : Link) : Side → Peer
  | .client => l.client
  | .server => l.server

def setPeer (l : Link) (side : Side) (p : Peer) : Link :=
  match side with
  | .client => { l with client := p }
  | .server => { l with server := p }

/-- The PDU that comes in next at a side. -/
def next (l : Link) (side : Side) : Option Sent := (l.peer side.other).sent[(l.peer side).received]?

/-- The `on_request` of the server, up to the call of `send_pdu`. -/
def onRequest (side : Side) (before : Peer) (pdu : SmppPdu) : Option ℕ :=
  if side = .server ∧ before.passes pdu = some .onRequest ∧ pdu.commandId = bindTransceiverId then
    some before.received
  else before.answering

/-- The next PDU comes in at a side. -/
def receive (l : Link) (side : Side) (o : Sent) : Link :=
  l.setPeer side
    { (l.peer side).receive o.pdu with answering := onRequest side (l.peer side) o.pdu }

/-- The answer to the `bind_transceiver` at place `k`: the constructor is given the number of the
request. -/
def bindAnswer (l : Link) (commandLength : UInt32) (k : ℕ) : Option Sent :=
  l.client.sent[k]?.map fun o =>
    ⟨bindTransceiverResp commandLength o.pdu.sequenceNumber 0, some k, true⟩

def step (l : Link) : Event → Option Link
  | .send side timeout pdu answers =>
    if ∀ k ∈ answers, k < (l.peer side).received then
      some (l.setPeer side ((l.peer side).send l.now timeout ⟨pdu, answers, false⟩))
    else none
  -- the strand is busy until `on_request` returns
  | .receive side =>
    if (l.peer side).answering = none then (l.next side).map (l.receive side) else none
  | .answerBind commandLength =>
    l.server.answering.bind fun k => (l.bindAnswer commandLength k).map fun o =>
      { l with server := { l.server.send l.now 30 o with answering := none } }
  | .tick d => some { l with now := l.now + d }

/-! ## What the peers rely on -/

/-- The PDU was made for a request that the side has sent with the same number. -/
def CreatedFor (l : Link) (side : Side) (o : Sent) : Prop :=
  ∃ k q, o.answers = some k ∧ (l.peer side).sent[k]? = some q ∧ q.pdu.isResponse = false ∧
    q.pdu.sequenceNumber = o.pdu.sequenceNumber

/-- What is passed to `on_response` is a response made for the request with its number; the answers
to `bind_transceiver` that have come in at the client are; and requests that have come in have been
passed to `on_request`. -/
structure Correlated (l : Link) : Prop where
  responses : ∀ side, ∀ n ∈ (l.peer side).responses, ∃ o,
    (l.peer side.other).sent[n]? = some o ∧ o.pdu.isResponse = true ∧ l.CreatedFor side o
  binds : ∀ n < l.client.received, ∀ o, l.server.sent[n]? = some o → o.bindAnswer = true →
    n ∈ l.client.responses ∧ l.CreatedFor .client o
  requests : ∀ side, ∀ n < (l.peer side).received, ∀ o,
    (l.peer side.other).sent[n]? = some o → o.pdu.isResponse = false →
    n ∈ (l.peer side).requests

/-- How many PDUs have been sent when one comes in fits what it is. At the client, the PDU at place
`n` comes in when the client has sent one at place `n`, if and only if it is a response made for
that one, and that one is a request; except that a PDU that is no answer to a `bind_transceiver` may
always come in before. At the server, a request does not come in when the server has sent a PDU at
its place. -/
def Fits (l : Link) : Event → Prop
  | .receive .client => ∀ o ∈ l.next .client,
      (∀ q ∈ l.client.sent[l.client.received]?, o.pdu.isResponse = true ∧
        o.answers = some l.client.received ∧ q.pdu.isResponse = false) ∧
      (o.bindAnswer = true → l.client.received < l.client.sent.length)
  | .receive .server => ∀ o ∈ l.next .server,
      l.server.received < l.server.sent.length → o.pdu.isResponse = true
  | _ => True

instance (l : Link) (e : Event) : Decidable (l.Fits e) :=
  match e with
  | .receive .client => inferInstanceAs (Decidable (∀ o ∈ l.next .client,
      (∀ q ∈ l.client.sent[l.client.received]?, o.pdu.isResponse = true ∧
        o.answers = some l.client.received ∧ q.pdu.isResponse = false) ∧
      (o.bindAnswer = true → l.client.received < l.client.sent.length)))
  | .receive .server => inferInstanceAs (Decidable (∀ o ∈ l.next .server,
      l.server.received < l.server.sent.length → o.pdu.isResponse = true))
  | .send _ _ _ _ | .answerBind _ | .tick _ => isTrue trivial

/-! ## Numbers -/

/-- Below 2^32 different places have different numbers. -/
theorem ofNat_succ_inj {i j : ℕ} (hi : i + 1 < 2 ^ 32) (hj : j + 1 < 2 ^ 32) :
    UInt32.ofNat (i + 1) = UInt32.ofNat (j + 1) ↔ i = j := by
  constructor
  · intro h
    have hnat := congrArg UInt32.toNat h
    rw [UInt32.toNat_ofNat_of_lt' hi, UInt32.toNat_ofNat_of_lt' hj] at hnat
    omega
  · rintro rfl
    rfl

end Link

namespace Peer

variable {p : Peer}

/-- The number of a PDU is its place, and what has been sent at a place that has not come in yet
from the other side is in the table. -/
structure Counted (p : Peer) : Prop where
  seq : p.session.seq = UInt32.ofNat (p.sent.length + 1)
  numbers : ∀ i o, p.sent[i]? = some o → o.pdu.sequenceNumber = UInt32.ofNat (i + 1)
  pending : ∀ i, p.received ≤ i → i + 1 < 2 ^ 32 →
    (p.session.pendingTimers.contains (UInt32.ofNat (i + 1)) = true ↔ i < p.sent.length)
  requests : ∀ n ∈ p.requests, n < p.received
  responses : ∀ n ∈ p.responses, n < p.received

/-- `send_pdu` draws the next number, and enters it. -/
theorem Counted.send (h : Counted p) (hbound : p.sent.length + 1 < 2 ^ 32) (now timeout : ℕ)
    (o : Sent) (answering : Option ℕ) :
    Counted { p.send now timeout o with answering } where
  seq := by
    show p.session.seq + 1 = UInt32.ofNat ((p.sent ++ [_]).length + 1)
    rw [h.seq, List.length_append, List.length_singleton, UInt32.ofNat_add (_ + 1) 1]
    rfl
  numbers i x hx := by
    change (p.sent ++ [_])[i]? = some x at hx
    rw [List.getElem?_append] at hx
    split at hx
    · exact h.numbers i x hx
    · obtain ⟨hlt, rfl⟩ := List.getElem?_eq_some_iff.mp hx
      rw [List.length_singleton] at hlt
      obtain rfl : i = p.sent.length := by omega
      rw [List.getElem_singleton, ← h.seq]
      rfl
  pending i hi hlt := by
    show (p.session.pendingTimers.insertIfNew _ _).contains _ = true ↔ i < (p.sent ++ [_]).length
    rw [Std.TreeMap.contains_insertIfNew, Bool.or_eq_true, h.pending i hi hlt, h.seq,
      Std.LawfulEqCmp.compare_beq_iff_eq, Link.ofNat_succ_inj hbound hlt, List.length_append,
      List.length_singleton]
    omega
  requests := h.requests
  responses := h.responses

/-- A PDU is looked for among those that have been sent at its place. -/
theorem Counted.contains_iff (h : Counted p) {pdu : SmppPdu} (hbound : p.received + 1 < 2 ^ 32)
    (hnumber : pdu.sequenceNumber = UInt32.ofNat (p.received + 1)) :
    p.session.pendingTimers.contains pdu.sequenceNumber = true ↔ p.received < p.sent.length := by
  rw [hnumber]
  exact h.pending p.received (Nat.le_refl _) hbound

/-- What a PDU is taken for depends on how many PDUs have been sent, and on the callbacks that are
set. -/
theorem Counted.passes_eq (h : Counted p) (pdu : SmppPdu) (hbound : p.received + 1 < 2 ^ 32)
    (hnumber : pdu.sequenceNumber = UInt32.ofNat (p.received + 1)) :
    p.passes pdu =
      if p.received < p.sent.length then if p.session.onResponse then some .onResponse else none
      else if p.session.onRequest then some .onRequest else none := by
  have hcontains := h.contains_iff hbound hnumber
  rw [passes]
  split
  · rename_i hlt
    exact (Session.parsePdu_of_contains (hcontains.mpr hlt)).2
  · rename_i hlt
    rw [Session.parsePdu_of_not_contains (Bool.eq_false_iff.mpr fun hc => hlt (hcontains.mp hc))]

/-- `parse_pdu` leaves the counter and the callbacks as they are. -/
theorem parsePdu_keeps (s : Session) (pdu : SmppPdu) :
    (s.parsePdu pdu).1.seq = s.seq ∧ (s.parsePdu pdu).1.onRequest = s.onRequest ∧
      (s.parsePdu pdu).1.onResponse = s.onResponse := by
  rw [Session.parsePdu]
  split <;> exact ⟨rfl, rfl, rfl⟩

/-- `parse_pdu` takes out at most the number of the place that comes in, and later places stay as
they are. -/
theorem Counted.receive (h : Counted p) {pdu : SmppPdu} (hbound : p.received + 1 < 2 ^ 32)
    (hnumber : pdu.sequenceNumber = UInt32.ofNat (p.received + 1)) (answering : Option ℕ) :
    Counted { p.receive pdu with answering } where
  seq := (parsePdu_keeps p.session pdu).1.trans h.seq
  numbers := h.numbers
  pending i hi hlt := by
    change p.received + 1 ≤ i at hi
    refine Iff.trans ?_ (h.pending i (by omega) hlt)
    show (p.session.parsePdu pdu).1.pendingTimers.contains _ = true ↔ _
    cases hc : p.session.pendingTimers.contains pdu.sequenceNumber with
    | false => rw [Session.parsePdu_of_not_contains hc]
    | true =>
      -- the number is not one of those still to be answered, so the table keeps these
      have hne :
          (compare (UInt32.ofNat (p.received + 1)) (UInt32.ofNat (i + 1)) == .eq) = false := by
        rw [Bool.eq_false_iff, Ne, Std.LawfulEqCmp.compare_beq_iff_eq,
          Link.ofNat_succ_inj hbound hlt]
        omega
      rw [(Session.parsePdu_of_contains hc).1, Std.TreeMap.contains_erase, hnumber]
      simp only [bne, hne, Bool.not_false, Bool.true_and]
  requests n hn := by
    change n ∈ p.requests ++ _ at hn
    show n < p.received + 1
    rcases List.mem_append.mp hn with hn | hn
    · exact Nat.lt_succ_of_lt (h.requests n hn)
    · split at hn
      · exact Nat.lt_succ_of_le (Nat.le_of_eq (List.mem_singleton.mp hn))
      · exact absurd hn List.not_mem_nil
  responses n hn := by
    change n ∈ p.responses ++ _ at hn
    show n < p.received + 1
    rcases List.mem_append.mp hn with hn | hn
    · exact Nat.lt_succ_of_lt (h.responses n hn)
    · split at hn
      · exact Nat.lt_succ_of_le (Nat.le_of_eq (List.mem_singleton.mp hn))
      · exact absurd hn List.not_mem_nil

end Peer

namespace Link

/-! ## Steps -/

variable {l l' : Link} {e : Event} {side : Side} {p : Peer}

/-- The side that is set. -/
@[simp] theorem peer_setPeer : (l.setPeer side p).peer side = p := by
  cases side <;> rfl

/-- The other side stays as it is. -/
@[simp] theorem peer_other_setPeer : (l.setPeer side p).peer side.other = l.peer side.other := by
  cases side <;> rfl

/-- What a step does. -/
inductive Change (l : Link) (e : Event) : Link → Prop where
  | sends (side : Side) (timeout : ℕ) (o : Sent) (answering : Option ℕ) (hfits : l.Fits e) :
    Change l e (l.setPeer side { (l.peer side).send l.now timeout o with answering })
  | receives (side : Side) (o : Sent) (answering : Option ℕ) (he : e = .receive side)
      (ho : l.next side = some o) :
    Change l e (l.setPeer side { (l.peer side).receive o.pdu with answering })
  | tick (d : ℕ) (hfits : l.Fits e) : Change l e { l with now := l.now + d }

/-- Every step is one of the changes. -/
theorem change_of_step (h : l.step e = some l') : Change l e l' := by
  cases e with
  | send side timeout pdu answers =>
    simp only [step] at h
    split at h
    · obtain rfl := Option.some.inj h
      exact .sends side timeout ⟨pdu, answers, false⟩ (l.peer side).answering trivial
    · exact absurd h (by simp)
  | receive side =>
    simp only [step] at h
    split at h
    · obtain ⟨o, ho, rfl⟩ := Option.map_eq_some_iff.mp h
      exact .receives side o _ rfl ho
    · exact absurd h (by simp)
  | answerBind commandLength =>
    obtain ⟨k, -, hk⟩ := Option.bind_eq_some_iff.mp h
    obtain ⟨o, -, rfl⟩ := Option.map_eq_some_iff.mp hk
    exact .sends .server 30 o none trivial
  | tick d =>
    obtain rfl := Option.some.inj h
    exact .tick d trivial

/-- Both sides count, with the callbacks that are set; and what has come in has been sent. -/
structure Counting (l : Link) : Prop where
  counted : ∀ side, (l.peer side).Counted
  received_le : ∀ side, (l.peer side).received ≤ (l.peer side.other).sent.length
  onRequest : ∀ side, (l.peer side).session.onRequest = true
  onResponse : ∀ side, (l.peer side).session.onResponse = decide (side = .client)

/-- Fewer than 2^32 PDUs have been sent on either side. -/
def Bounded (l : Link) : Prop := ∀ side, (l.peer side).sent.length < 2 ^ 32

/-- The other side of the other side. -/
theorem other_other (side : Side) : side.other.other = side := by
  cases side <;> rfl

/-- A side is the one that is changed or the other one. -/
theorem forall_side {P : Side → Prop} (side : Side) : (∀ x, P x) ↔ P side ∧ P side.other := by
  constructor
  · exact fun h => ⟨h side, h side.other⟩
  · rintro ⟨h, hother⟩ x
    cases side <;> cases x <;> assumption

/-- The PDU that comes in next has the number of its place. -/
theorem Counting.number (hI : Counting l) {o : Sent} (ho : l.next side = some o) :
    o.pdu.sequenceNumber = UInt32.ofNat ((l.peer side).received + 1) :=
  (hI.counted side.other).numbers _ o ho

/-- What comes in has been sent. -/
theorem received_lt_of_next {o : Sent} (ho : l.next side = some o) :
    (l.peer side).received < (l.peer side.other).sent.length :=
  (List.getElem?_eq_some_iff.mp ho).1

/-- Every step keeps the count, as long as fewer than 2^32 PDUs have been sent. -/
theorem Counting.step (hI : Counting l) (hbound : Bounded l') (h : l.step e = some l') :
    Counting l' := by
  cases change_of_step h with
  | sends side timeout o answering hfits =>
    have hlt : (l.peer side).sent.length + 1 < 2 ^ 32 := by
      have hlen := hbound side
      rw [peer_setPeer] at hlen
      simpa [Peer.send] using hlen
    constructor
    · rw [forall_side side, peer_setPeer, peer_other_setPeer]
      exact ⟨(hI.counted side).send hlt _ _ _ _, hI.counted side.other⟩
    · rw [forall_side side, other_other, peer_setPeer, peer_other_setPeer]
      refine ⟨hI.received_le side, ?_⟩
      have hle := hI.received_le side.other
      rw [other_other] at hle
      show _ ≤ ((l.peer side).sent ++ [_]).length
      rw [List.length_append]
      omega
    · rw [forall_side side, peer_setPeer, peer_other_setPeer]
      exact ⟨hI.onRequest side, hI.onRequest side.other⟩
    · rw [forall_side side, peer_setPeer, peer_other_setPeer]
      exact ⟨hI.onResponse side, hI.onResponse side.other⟩
  | receives side o answering he ho =>
    have hlt := received_lt_of_next ho
    have hbefore := hbound side.other
    rw [peer_other_setPeer] at hbefore
    obtain ⟨-, honRequest, honResponse⟩ := Peer.parsePdu_keeps (l.peer side).session o.pdu
    constructor
    · rw [forall_side side, peer_setPeer, peer_other_setPeer]
      exact ⟨(hI.counted side).receive (by omega) (hI.number ho) _, hI.counted side.other⟩
    · rw [forall_side side, other_other, peer_setPeer, peer_other_setPeer]
      have hle := hI.received_le side.other
      rw [other_other] at hle
      exact ⟨hlt, hle⟩
    · rw [forall_side side, peer_setPeer, peer_other_setPeer]
      exact ⟨honRequest.trans (hI.onRequest side), hI.onRequest side.other⟩
    · rw [forall_side side, peer_setPeer, peer_other_setPeer]
      exact ⟨honResponse.trans (hI.onResponse side), hI.onResponse side.other⟩
  -- neither party changes
  | tick d hfits =>
    have hpeer (x : Side) : Link.peer { l with now := l.now + d } x = l.peer x := by
      cases x <;> rfl
    constructor
    · exact fun x => hpeer x ▸ hI.counted x
    · exact fun x => by rw [hpeer, hpeer]; exact hI.received_le x
    · exact fun x => hpeer x ▸ hI.onRequest x
    · exact fun x => hpeer x ▸ hI.onResponse x

/-! ## Runs -/

/-- More has been sent, and nothing else has come in. -/
structure Extends (l l' : Link) : Prop where
  sent : ∀ side, (l.peer side).sent <+: (l'.peer side).sent
  received : ∀ side, (l'.peer side).received = (l.peer side).received
  requests : ∀ side, (l'.peer side).requests = (l.peer side).requests
  responses : ∀ side, (l'.peer side).responses = (l.peer side).responses

/-- To send a PDU appends to what one side has sent, and does nothing else that matters. -/
theorem extends_send (l : Link) (side : Side) (timeout : ℕ) (o : Sent) (answering : Option ℕ) :
    Extends l (l.setPeer side { (l.peer side).send l.now timeout o with answering }) := by
  constructor <;> rw [forall_side side, peer_setPeer, peer_other_setPeer]
  · exact ⟨List.prefix_append _ _, List.prefix_rfl⟩
  · exact ⟨rfl, rfl⟩
  · exact ⟨rfl, rfl⟩
  · exact ⟨rfl, rfl⟩

/-- What a PDU was made for stays what it was made for. -/
theorem CreatedFor.mono {o : Sent} (h : l.CreatedFor side o)
    (hsent : (l.peer side).sent <+: (l'.peer side).sent) : l'.CreatedFor side o := by
  obtain ⟨k, q, hk, hq, hrest⟩ := h
  exact ⟨k, q, hk, getElem?_of_prefix hsent hq, hrest⟩

/-- Nothing that is sent changes what has become of the PDUs that have come in. -/
theorem Correlated.extend (h : Correlated l) (hI : Counting l) (hext : Extends l l') :
    Correlated l' := by
  -- what had come in had been sent before
  have hbefore {side : Side} {n : ℕ} {o : Sent} (hn : n < (l.peer side).received)
      (ho : (l'.peer side.other).sent[n]? = some o) : (l.peer side.other).sent[n]? = some o := by
    have hlt : n < (l.peer side.other).sent.length := Nat.lt_of_lt_of_le hn (hI.received_le side)
    obtain ⟨x, hx⟩ : ∃ x, (l.peer side.other).sent[n]? = some x :=
      ⟨_, List.getElem?_eq_getElem hlt⟩
    obtain rfl := Option.some.inj (ho.symm.trans ( getElem?_of_prefix (hext.sent side.other) hx))
    exact hx
  constructor
  · intro side n hn
    rw [hext.responses] at hn
    obtain ⟨o, ho, hresponse, hcreated⟩ := h.responses side n hn
    exact ⟨o, getElem?_of_prefix (hext.sent side.other) ho, hresponse,
      hcreated.mono (hext.sent side)⟩
  · intro n hn o ho hbind
    have hreceived : l'.client.received = l.client.received := hext.received .client
    have hresponses : l'.client.responses = l.client.responses := hext.responses .client
    rw [hreceived] at hn
    obtain ⟨hmem, hcreated⟩ := h.binds n hn o (@hbefore .client _ _ hn ho) hbind
    exact ⟨hresponses ▸ hmem, hcreated.mono (hext.sent .client)⟩
  · intro side n hn o ho hrequest
    rw [hext.received] at hn
    rw [hext.requests]
    exact h.requests side n hn o (hbefore hn ho) hrequest

/-- A PDU that comes in next was made for the request with its number exactly when it was made for
the PDU at its place, and that is a request. -/
theorem createdFor_next (hI : Counting l) (hbound : Bounded l) {o : Sent}
    (ho : l.next side = some o) :
    l.CreatedFor side o ↔ o.answers = some (l.peer side).received ∧
      ∃ q, (l.peer side).sent[(l.peer side).received]? = some q ∧ q.pdu.isResponse = false := by
  have hnumber := hI.number ho
  have hlt := received_lt_of_next ho
  have hother := hbound side.other
  constructor
  · rintro ⟨k, q, hk, hq, hrequest, heq⟩
    have hplace := (hI.counted side).numbers k q hq
    have hkt := (List.getElem?_eq_some_iff.mp hq).1
    have hside := hbound side
    obtain rfl : k = (l.peer side).received := by
      rw [hplace, hnumber, ofNat_succ_inj (by omega) (by omega)] at heq
      exact heq
    exact ⟨hk, q, hq, hrequest⟩
  · rintro ⟨hk, q, hq, hrequest⟩
    exact ⟨_, q, hk, hq, hrequest, by rw [hnumber, (hI.counted side).numbers _ q hq]⟩

/-- The PDU `o` has come in at a side, and nothing has been sent. -/
structure Receives (l l' : Link) (side : Side) (o : Sent) : Prop where
  next : l.next side = some o
  other : l'.peer side.other = l.peer side.other
  sent : ∀ x, (l'.peer x).sent = (l.peer x).sent
  received : (l'.peer side).received = (l.peer side).received + 1
  responses : ∀ n, n ∈ (l'.peer side).responses ↔ n ∈ (l.peer side).responses ∨
    (l.peer side).passes o.pdu = some .onResponse ∧ n = (l.peer side).received
  requests : ∀ n, n ∈ (l'.peer side).requests ↔ n ∈ (l.peer side).requests ∨
    (l.peer side).passes o.pdu = some .onRequest ∧ n = (l.peer side).received

/-- What `receive` does. -/
theorem receives_receive {o : Sent} (ho : l.next side = some o) (answering : Option ℕ) :
    Receives l (l.setPeer side { (l.peer side).receive o.pdu with answering }) side o := by
  refine ⟨ho, peer_other_setPeer .., ?_, ?_, fun n => ?_, fun n => ?_⟩
  · rw [forall_side side, peer_setPeer, peer_other_setPeer]
    exact ⟨rfl, rfl⟩
  · rw [peer_setPeer]
    rfl
  · rw [peer_setPeer]
    show n ∈ (l.peer side).responses ++ _ ↔ _
    rw [List.mem_append]
    split <;> simp [*]
  · rw [peer_setPeer]
    show n ∈ (l.peer side).requests ++ _ ↔ _
    rw [List.mem_append]
    split <;> simp [*]

section Receives

variable {o : Sent} (hr : Receives l l' side o)
include hr

/-- What a PDU was made for does not depend on what has come in. -/
theorem Receives.createdFor (x : Side) (q : Sent) : l'.CreatedFor x q ↔ l.CreatedFor x q := by
  rw [CreatedFor, hr.sent, CreatedFor]

/-- The PDU that has come in is at the next place of what the other side has sent. -/
theorem Receives.sent_other :
    (l'.peer side.other).sent[(l.peer side).received]? = some o := by
  rw [hr.sent]
  exact hr.next

/-- The clause about `on_response` goes on to hold exactly when it holds of the new PDU. -/
theorem Receives.responses_iff (h : Correlated l) :
    (∀ x, ∀ n ∈ (l'.peer x).responses, ∃ q, (l'.peer x.other).sent[n]? = some q ∧
      q.pdu.isResponse = true ∧ l'.CreatedFor x q) ↔
    ((l.peer side).passes o.pdu = some .onResponse →
      o.pdu.isResponse = true ∧ l.CreatedFor side o) := by
  constructor
  · intro hall hpasses
    obtain ⟨q, hq, hresponse, hfor⟩ := hall side _ ((hr.responses _).mpr (Or.inr ⟨hpasses, rfl⟩))
    obtain rfl := Option.some.inj (hr.sent_other.symm.trans hq)
    exact ⟨hresponse, (hr.createdFor side o).mp hfor⟩
  · intro hnew
    rw [forall_side side]
    constructor
    · intro n hn
      rcases (hr.responses n).mp hn with hold | ⟨hpasses, rfl⟩
      · obtain ⟨q, hq, hresponse, hfor⟩ := h.responses side n hold
        exact ⟨q, by rwa [hr.sent], hresponse, (hr.createdFor side q).mpr hfor⟩
      · obtain ⟨hresponse, hfor⟩ := hnew hpasses
        exact ⟨o, hr.sent_other, hresponse, (hr.createdFor side o).mpr hfor⟩
    · intro n hn
      rw [hr.other] at hn
      obtain ⟨q, hq, hresponse, hfor⟩ := h.responses side.other n hn
      exact ⟨q, by rwa [hr.sent], hresponse, (hr.createdFor side.other q).mpr hfor⟩

/-- The clause about requests goes on to hold exactly when it holds of the new PDU. -/
theorem Receives.requests_iff (h : Correlated l) (hI : Counting l) :
    (∀ x, ∀ n < (l'.peer x).received, ∀ q, (l'.peer x.other).sent[n]? = some q →
      q.pdu.isResponse = false → n ∈ (l'.peer x).requests) ↔
    (o.pdu.isResponse = false → (l.peer side).passes o.pdu = some .onRequest) := by
  have hreceived := hr.received
  constructor
  · intro hall hrequest
    have hmem := hall side (l.peer side).received (by omega) o hr.sent_other hrequest
    rcases (hr.requests _).mp hmem with hold | ⟨hpasses, -⟩
    · exact absurd ((hI.counted side).requests _ hold) (Nat.lt_irrefl _)
    · exact hpasses
  · intro hnew
    rw [forall_side side]
    constructor
    · intro n hn q hq hrequest
      rw [hr.sent] at hq
      rw [hr.requests]
      by_cases heq : n = (l.peer side).received
      · subst heq
        obtain rfl := Option.some.inj (hr.next.symm.trans hq)
        exact Or.inr ⟨hnew hrequest, rfl⟩
      · exact Or.inl (h.requests side n (by omega) q hq hrequest)
    · intro n hn q hq hrequest
      rw [hr.other] at hn ⊢
      rw [hr.sent] at hq
      exact h.requests side.other n hn q hq hrequest

end Receives

/-- At the client, the clause about the answers to `bind_transceiver` goes on to hold exactly when
it holds of the new PDU. -/
theorem Receives.binds_client_iff {o : Sent} (hr : Receives l l' .client o) (h : Correlated l)
    (hI : Counting l) :
    (∀ n < l'.client.received, ∀ q, l'.server.sent[n]? = some q → q.bindAnswer = true →
      n ∈ l'.client.responses ∧ l'.CreatedFor .client q) ↔
    (o.bindAnswer = true →
      (l.peer .client).passes o.pdu = some .onResponse ∧ l.CreatedFor .client o) := by
  have hreceived : l'.client.received = l.client.received + 1 := hr.received
  have hsent : l'.server.sent = l.server.sent := hr.sent .server
  have hresponses (n : ℕ) : n ∈ l'.client.responses ↔ n ∈ l.client.responses ∨
      l.client.passes o.pdu = some .onResponse ∧ n = l.client.received := hr.responses n
  constructor
  · intro hall hbind
    obtain ⟨hmem, hfor⟩ := hall l.client.received (by omega) o hr.sent_other hbind
    rcases (hresponses _).mp hmem with hold | ⟨hpasses, -⟩
    · exact absurd ((hI.counted .client).responses _ hold) (Nat.lt_irrefl _)
    · exact ⟨hpasses, (hr.createdFor .client o).mp hfor⟩
  · intro hnew n hn q hq hbind
    rw [hsent] at hq
    rw [hresponses, hr.createdFor]
    by_cases heq : n = l.client.received
    · subst heq
      obtain rfl := Option.some.inj (hr.next.symm.trans hq)
      obtain ⟨hpasses, hfor⟩ := hnew hbind
      exact ⟨Or.inr ⟨hpasses, rfl⟩, hfor⟩
    · obtain ⟨hmem, hfor⟩ := h.binds n (by omega) q hq hbind
      exact ⟨Or.inl hmem, hfor⟩

/-- What comes in at the server has nothing to do with the answers that have come in at the
client. -/
theorem Receives.binds_server {o : Sent} (hr : Receives l l' .server o) (h : Correlated l) :
    ∀ n < l'.client.received, ∀ q, l'.server.sent[n]? = some q → q.bindAnswer = true →
      n ∈ l'.client.responses ∧ l'.CreatedFor .client q := by
  have hclient : l'.client = l.client := hr.other
  have hsent : l'.server.sent = l.server.sent := hr.sent .server
  intro n hn q hq hbind
  rw [hclient] at hn ⊢
  rw [hsent] at hq
  rw [hr.createdFor]
  exact h.binds n hn q hq hbind

/-- What has to hold of a PDU that comes in at the client. -/
theorem Receives.correlated_client_iff {o : Sent} (hr : Receives l l' .client o)
    (h : Correlated l) (hI : Counting l) :
    Correlated l' ↔
      ((l.peer .client).passes o.pdu = some .onResponse →
        o.pdu.isResponse = true ∧ l.CreatedFor .client o) ∧
      (o.bindAnswer = true →
        (l.peer .client).passes o.pdu = some .onResponse ∧ l.CreatedFor .client o) ∧
      (o.pdu.isResponse = false → (l.peer .client).passes o.pdu = some .onRequest) := by
  rw [← hr.responses_iff h, ← hr.binds_client_iff h hI, ← hr.requests_iff h hI]
  exact ⟨fun h' => ⟨h'.responses, h'.binds, h'.requests⟩, fun h' => ⟨h'.1, h'.2.1, h'.2.2⟩⟩

/-- What has to hold of a PDU that comes in at the server. -/
theorem Receives.correlated_server_iff {o : Sent} (hr : Receives l l' .server o)
    (h : Correlated l) (hI : Counting l) :
    Correlated l' ↔
      ((l.peer .server).passes o.pdu = some .onResponse →
        o.pdu.isResponse = true ∧ l.CreatedFor .server o) ∧
      (o.pdu.isResponse = false → (l.peer .server).passes o.pdu = some .onRequest) := by
  rw [← hr.responses_iff h, ← hr.requests_iff h hI]
  exact ⟨fun h' => ⟨h'.responses, h'.requests⟩, fun h' => ⟨h'.1, hr.binds_server h, h'.2⟩⟩

/-- The condition at the client, for the PDU that comes in next. -/
theorem fits_client_iff {o : Sent} (ho : l.next .client = some o) :
    l.Fits (.receive .client) ↔
      (∀ q ∈ l.client.sent[l.client.received]?, o.pdu.isResponse = true ∧
        o.answers = some l.client.received ∧ q.pdu.isResponse = false) ∧
      (o.bindAnswer = true → l.client.received < l.client.sent.length) := by
  simp only [Fits, ho, Option.mem_some_iff, forall_eq']

/-- The condition at the server, for the PDU that comes in next. -/
theorem fits_server_iff {o : Sent} (ho : l.next .server = some o) :
    l.Fits (.receive .server) ↔
      (l.server.received < l.server.sent.length → o.pdu.isResponse = true) := by
  simp only [Fits, ho, Option.mem_some_iff, forall_eq']

/-- A PDU that comes in at the client. -/
theorem correlated_receive_client (h : Correlated l) (hI : Counting l) (hbound : Bounded l)
    {o : Sent} (ho : l.next .client = some o) (answering : Option ℕ) :
    Correlated (l.setPeer .client { (l.peer .client).receive o.pdu with answering }) ↔
      l.Fits (.receive .client) := by
  have hlt := received_lt_of_next ho
  have hserver := hbound .server
  have hpasses := (hI.counted .client).passes_eq o.pdu
    (Nat.lt_of_le_of_lt hlt hserver) (hI.number ho)
  have hcreated := createdFor_next hI hbound ho
  rw [(receives_receive ho answering).correlated_client_iff h hI, fits_client_iff ho, hcreated,
    hpasses, hI.onResponse, hI.onRequest]
  -- a number beyond those that the client has drawn belongs to no request of its own
  by_cases hplace : (l.peer .client).received < (l.peer .client).sent.length
  · obtain ⟨q, hq⟩ : ∃ q, (l.peer .client).sent[(l.peer .client).received]? = some q :=
      ⟨_, List.getElem?_eq_getElem hplace⟩
    have hq' : l.client.sent[l.client.received]? = some q := hq
    rw [if_pos hplace, hq, hq']
    constructor
    · rintro ⟨hresponse, -, -⟩
      obtain ⟨hisResponse, hanswers, q', hq', hrequest⟩ := hresponse rfl
      obtain rfl := Option.some.inj hq'
      exact ⟨by simpa using ⟨hisResponse, hanswers, hrequest⟩, fun _ => hplace⟩
    · rintro ⟨hfits, -⟩
      obtain ⟨hisResponse, hanswers, hrequest⟩ := hfits q rfl
      refine ⟨fun _ => ⟨hisResponse, hanswers, q, rfl, hrequest⟩,
        fun _ => ⟨rfl, hanswers, q, rfl, hrequest⟩, fun hnot => ?_⟩
      exact absurd (hnot.symm.trans hisResponse) (by simp)
  · have hnone : l.client.sent[l.client.received]? = none :=
      List.getElem?_eq_none (Nat.le_of_not_lt hplace)
    rw [if_neg hplace, hnone]
    constructor
    · rintro ⟨-, hbind, -⟩
      refine ⟨fun q hq => absurd hq (by simp), fun hb => ?_⟩
      exact absurd (hbind hb).1 (by simp)
    · rintro ⟨-, hbind⟩
      exact ⟨fun heq => absurd heq (by simp), fun hb => absurd (hbind hb) hplace, fun _ => rfl⟩

/-- A PDU that comes in at the server, which has no `on_response`. -/
theorem correlated_receive_server (h : Correlated l) (hI : Counting l) (hbound : Bounded l)
    {o : Sent} (ho : l.next .server = some o) (answering : Option ℕ) :
    Correlated (l.setPeer .server { (l.peer .server).receive o.pdu with answering }) ↔
      l.Fits (.receive .server) := by
  have hlt := received_lt_of_next ho
  have hclient := hbound .client
  have hpasses := (hI.counted .server).passes_eq o.pdu
    (Nat.lt_of_le_of_lt hlt hclient) (hI.number ho)
  rw [(receives_receive ho answering).correlated_server_iff h hI, fits_server_iff ho, hpasses,
    hI.onResponse, hI.onRequest]
  by_cases hplace : (l.peer .server).received < (l.peer .server).sent.length
  · rw [if_pos hplace]
    constructor
    · rintro ⟨-, hrequest⟩ -
      cases hisResponse : o.pdu.isResponse with
      | true => rfl
      | false => exact absurd (hrequest hisResponse) (by simp)
    · intro hfits
      refine ⟨fun heq => absurd heq (by simp), fun hnot => ?_⟩
      exact absurd (hnot.symm.trans (hfits hplace)) (by simp)
  · rw [if_neg hplace]
    exact iff_of_true ⟨fun heq => absurd heq (by simp), fun _ => rfl⟩
      fun hlt => absurd hlt hplace

/-- What has been sent stays. -/
theorem sent_prefix_of_step (h : l.step e = some l') (side : Side) :
    (l.peer side).sent <+: (l'.peer side).sent := by
  cases change_of_step h with
  | sends side' timeout o answering _ => exact (l.extends_send side' timeout o answering).sent side
  | receives side' o answering _ _ =>
    revert side
    rw [forall_side side', peer_setPeer, peer_other_setPeer]
    exact ⟨List.prefix_rfl, List.prefix_rfl⟩
  | tick d _ => cases side <;> exact List.prefix_rfl

/-- In a step the two sides go on telling PDUs apart exactly when the step fits. -/
theorem correlated_step_iff (h : Correlated l) (hI : Counting l) (hbound : Bounded l')
    (hstep : l.step e = some l') : Correlated l' ↔ l.Fits e := by
  have hbefore : Bounded l := fun side =>
    Nat.lt_of_le_of_lt (sent_prefix_of_step hstep side).length_le (hbound side)
  cases change_of_step hstep with
  | sends side timeout o answering hfits =>
    -- what is sent is told apart when it comes in
    exact iff_of_true (h.extend hI (l.extends_send side timeout o answering)) hfits
  | receives side o answering he ho =>
    subst he
    -- only here a PDU can be mistaken for one of the other kind, by the number it carries
    cases side with
    | client => exact correlated_receive_client h hI hbefore ho answering
    | server => exact correlated_receive_server h hI hbefore ho answering
  | tick d hfits =>
    refine iff_of_true (h.extend hI ?_) hfits
    constructor <;> intro side <;> cases side <;> first | exact List.prefix_rfl | rfl

/-- Nothing has been sent at the start. -/
theorem counting_start : Counting {} := by
  constructor
  · intro side
    cases side <;> exact ⟨rfl, fun i o ho => absurd ho (by simp [peer]),
      fun i _ _ => by simp [peer], fun n hn => absurd hn (by simp [peer]),
      fun n hn => absurd hn (by simp [peer])⟩
  · intro side
    cases side <;> exact Nat.le_refl 0
  · intro side
    cases side <;> rfl
  · intro side
    cases side <;> rfl

/-- Nothing has come in at the start. -/
theorem correlated_start : Correlated {} := by
  constructor
  · intro side n hn
    cases side <;> exact absurd hn (by simp [peer])
  · intro n hn
    exact absurd hn (Nat.not_lt_zero n)
  · intro side n hn
    cases side <;> exact absurd hn (Nat.not_lt_zero n)

/-- **Correlation.** While fewer than 2^32 PDUs are sent on either side, responses and requests are
told apart as they should in every state of a run, exactly when every PDU that comes in fits what
the side it comes to has sent by then. -/
theorem correlated_iff {es : List Event} {u : Link} (h : run step {} es = some u)
    (hbound : Bounded u) :
    EveryState step {} es Correlated ↔ EveryStep step {} es Fits := by
  -- less has been sent before
  have hreach {l : Link} (hl : ∃ fs, run step l fs = some u) : Bounded l := by
    obtain ⟨fs, hfs⟩ := hl
    intro side
    have hinitial : (l.peer side).sent <+: (u.peer side).sent := by
      refine run_induction (P := fun t => (l.peer side).sent <+: (t.peer side).sent)
        List.prefix_rfl ?_ hfs
      exact fun t e t' hpre ht => hpre.trans (sent_prefix_of_step ht side)
    exact Nat.lt_of_le_of_lt hinitial.length_le (hbound side)
  refine everyState_iff_everyStep (I := Counting) correlated_start counting_start ?_ ?_ h
  · exact fun l e l' _ hl' hI hst => hI.step (hreach hl') hst
  · exact fun l e l' _ hl' hI hl hst => correlated_step_iff hl hI (hreach hl') hst

/-- `bind_transceiver` and `enquire_link`. -/
def bindPdu : SmppPdu := ⟨23, bindTransceiverId, 0, 1, [0, 0, 0, 0x34, 0, 0, 0]⟩
def enquireLinkPdu : SmppPdu := ⟨16, 0x00000015, 0, 1, []⟩

/-- The client binds first of all, and the server answers. -/
theorem correlated_iff_bind_first : ∃ u, run step {}
      [.send .client 30 bindPdu none, .receive .server, .answerBind 0, .receive .client] = some u ∧
      Bounded u ∧ u.client.responses = [0] ∧ Correlated u := by
  obtain ⟨u, hrun, hclient, hserver, hresponses⟩ : ∃ u, run step {}
      [.send .client 30 bindPdu none, .receive .server, .answerBind 0, .receive .client] = some u ∧
      u.client.sent.length < 2 ^ 32 ∧ u.server.sent.length < 2 ^ 32 ∧ u.client.responses = [0] :=
    ⟨_, rfl, by decide, by decide, by decide⟩
  have hbound : Bounded u := by
    intro side
    cases side
    · exact hclient
    · exact hserver
  exact ⟨u, hrun, hbound, hresponses, ((correlated_iff hrun hbound).mpr (by decide)).last hrun⟩

/-- The client sends an `enquire_link`, and then binds with the number 2. The answer of the server
has the number 1, and the client takes it for the response to the `enquire_link`. -/
theorem bind_answer_miscorrelated : ∃ u, run step {}
      [.send .client 30 enquireLinkPdu none, .send .client 30 bindPdu none, .receive .server,
        .receive .server, .answerBind 0, .receive .client] = some u ∧
      u.client.responses = [0] ∧
      (u.server.sent.map fun o => (o.pdu.sequenceNumber, o.answers)) = [(1, some 1)] ∧
      ¬ Correlated u := by
  obtain ⟨u, hrun, hresponses, hsent, hanswers, hother⟩ : ∃ u, run step {}
      [.send .client 30 enquireLinkPdu none, .send .client 30 bindPdu none, .receive .server,
        .receive .server, .answerBind 0, .receive .client] = some u ∧
      u.client.responses = [0] ∧
      (u.server.sent.map fun o => (o.pdu.sequenceNumber, o.answers)) = [(1, some 1)] ∧
      (u.server.sent[0]?.map fun o => (o.pdu.sequenceNumber, o.answers)) = some (1, some 1) ∧
      (u.client.sent[1]?.map fun q => q.pdu.sequenceNumber) = some 2 :=
    ⟨_, rfl, by decide, by decide, by decide, by decide⟩
  refine ⟨u, hrun, hresponses, hsent, fun h => ?_⟩
  obtain ⟨o, ho, -, k, q, hk, hq, -, heq⟩ := h.responses .client 0 (by
    show 0 ∈ u.client.responses
    rw [hresponses]
    exact List.mem_singleton_self 0)
  change u.server.sent[0]? = some o at ho
  change u.client.sent[k]? = some q at hq
  rw [ho] at hanswers
  obtain ⟨hnumber, hone⟩ := Prod.mk.inj (Option.some.inj hanswers)
  obtain rfl := Option.some.inj (hone.symm.trans hk)
  rw [hq] at hother
  have htwo : q.pdu.sequenceNumber = 2 := Option.some.inj hother
  rw [heq, hnumber] at htwo
  exact absurd htwo (by decide)

end Link

end TurboNet.Smpp
