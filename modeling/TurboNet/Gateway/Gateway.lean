import TurboNet.Client.ReadLoop

/-!
# The gateway

Reference: `gateway.cpp`.

The gateway serves producers with a `TurboNetServer` and forwards their requests over one
`TurboNetClient` to a downstream server. Its state of its own is `pendingMap`, keyed by the
producer's sequence number and searched by the downstream one.

The handler for a producer's request runs on a thread of the server: it calls `sendRequest`, then
takes the lock and stashes what it needs to pass on the reply. Those are two steps, and anything may
happen between them: other requests, and packets from downstream, which the client's packet handler
looks up under the same lock on a thread of the client. The client inside the gateway is the whole
client of `Client.step`; it is started by `main` and from then on driven by its environment and by
the request handler.
-/

namespace TurboNet

open Common

/-- The downstream client as `main` sets it up. -/
def gatewayClient (host : Endian) : ClientConfig where
  host := host
  readTimeoutMs := 5000
  writeTimeoutMs := 5000
  responseTimeoutMs := 10000
  onBind := false
  onPacket := true
  onTimeout := false
  onClose := false
  connectHandler := true

/-- A `respond` callback: the session that handed it out. -/
structure Respond where
  session : ℕ
  /-- History: the number of the forwarded request that it came with. -/
  request : ℕ
deriving DecidableEq, Repr

structure Pending where
  downstreamSeq : UInt32
  respond : Respond
deriving DecidableEq, Repr

/-- A call of `sendRequest` by the request handler: the session and the request it came from, and
the number it returned. -/
structure Forwarded where
  session : ℕ
  request : Packet
  downstreamSeq : UInt32
deriving DecidableEq, Repr

/-- A call of a `respond` callback by the packet handler: the packet from downstream and the packet
that is passed to the session. -/
structure Answer where
  respond : Respond
  reply : Packet
  passed : Packet
deriving DecidableEq, Repr

structure Gateway where
  client : Client
  /-- Producer's sequence number and entry, in the order of iteration. -/
  pendingMap : List (UInt32 × Pending) := []
  /-- The request handlers between `sendRequest` and the lock, by the number of their request. -/
  stashing : List ℕ := []
  /-- History: the calls of `sendRequest`. -/
  forwarded : List Forwarded := []
  /-- History: the packets the packet handler has seen, each with the number of requests forwarded
  before it. -/
  handled : List (Packet × ℕ) := []
  /-- History: the replies passed on. -/
  answers : List Answer := []
  /-- History: the packets answered by the request handler itself. -/
  echoes : List (ℕ × Packet) := []

/-- The entry of the `i`-th forwarded request. -/
def Forwarded.entry (r : Forwarded) (i : ℕ) : UInt32 × Pending :=
  (r.request.sequence, ⟨r.downstreamSeq, ⟨r.session, i⟩⟩)

/-- The call of the callback of the `i`-th forwarded request with a reply. -/
def Forwarded.answer (r : Forwarded) (i : ℕ) (reply : Packet) : Answer :=
  ⟨⟨r.session, i⟩, reply, { reply with sequence := r.request.sequence }⟩

namespace Gateway

/-- `unordered_map::emplace`: an entry that is there stays. -/
def emplace (m : List (UInt32 × Pending)) (e : UInt32 × Pending) : List (UInt32 × Pending) :=
  if e.1 ∈ m.map Prod.fst then m else m ++ [e]

/-- The test of the packet handler's loop. -/
def matchesSeq (dseq : UInt32) (e : UInt32 × Pending) : Bool := e.2.downstreamSeq == dseq

/-- The packet handler of the client. -/
def onPacket (g : Gateway) (p : Packet) : Gateway :=
  let g := { g with handled := g.handled ++ [(p, g.forwarded.length)] }
  match g.pendingMap.find? (matchesSeq p.sequence) with
  | some (origSeq, pending) => { g with
      pendingMap := g.pendingMap.eraseP (matchesSeq p.sequence)
      answers := g.answers ++ [⟨pending.respond, p, ⟨p.packetId, p.status, origSeq, p.payload⟩⟩] }
  | none => g

/-- The first half of the request handler for a request: `sendRequest`. -/
def forward (host : Endian) (g : Gateway) (session : ℕ) (p : Packet) (gap : ℕ) : Gateway :=
  let dseq := g.client.sequenceCounter
  { g with
    client := g.client.sendRequest (gatewayClient host) p.payload gap
    forwarded := g.forwarded ++ [⟨session, p, dseq⟩]
    stashing := g.stashing ++ [g.forwarded.length] }

/-- The second half, under the lock. -/
def stash (g : Gateway) (i : ℕ) (r : Forwarded) : Gateway :=
  { g with
    stashing := g.stashing.erase i
    pendingMap := emplace g.pendingMap (r.entry i) }

/-- The request handler of the server, up to the lock. -/
def onRequest (host : Endian) (g : Gateway) (session : ℕ) (p : Packet) (gap : ℕ) : Gateway :=
  if p.packetId = 0x02 then g.forward host session p gap
  else { g with echoes := g.echoes ++ [(session, p)] }

/-- The gateway when `main` has called `connect`. -/
def start : Gateway where
  client := ({} : Client).connect 3000

/-! ## The gateway as a machine -/

inductive Event where
  /-- A session of the server calls the request handler. `gap` is the time that passes inside
  `sendRequest`. -/
  | request (session : ℕ) (p : Packet) (gap : ℕ)
  /-- The handler of the `i`-th forwarded request gets the lock. -/
  | stash (i : ℕ)
  /-- The iteration order of an `unordered_map` is unspecified and may change. -/
  | reorder (m : List (UInt32 × Pending))
  /-- The client takes a step of its own, and calls the packet handler if it has read a packet. -/
  | client (e : Client.Event)

/-- The client's steps that neither `main` nor the request handler has to make. `close` is what
`main` does in the end. -/
def ownStep : Client.Event → Bool
  | .connect _ | .sendPacket _ | .sendRequest _ _ | .startRequest _ | .armStarted _ => false
  | _ => true

def step (host : Endian) (g : Gateway) : Event → Option Gateway
  | .request session p gap =>
    -- the length of a body is a 32-bit number
    if p.payload.length < 2 ^ 32 then some (g.onRequest host session p gap) else none
  | .stash i =>
    if i ∈ g.stashing then g.forwarded[i]?.map (g.stash i) else none
  | .reorder m => if m.isPerm g.pendingMap then some { g with pendingMap := m } else none
  | .client e =>
    if ownStep e then (g.client.step (gatewayClient host) e).map fun c =>
      (c.packets.drop g.client.packets.length).foldl onPacket { g with client := c }
    else none

/-- What a step can do, one constructor for each way. -/
inductive Acts (host : Endian) (g : Gateway) : Event → Gateway → Prop where
  | forward (session : ℕ) (p : Packet) (gap : ℕ) (hid : p.packetId = 0x02)
    (hlength : p.payload.length < 2 ^ 32) :
    Acts host g (.request session p gap) (g.forward host session p gap)
  | echo (session : ℕ) (p : Packet) (gap : ℕ) (hid : p.packetId ≠ 0x02) :
    Acts host g (.request session p gap) { g with echoes := g.echoes ++ [(session, p)] }
  | stash (i : ℕ) (r : Forwarded) (hi : i ∈ g.stashing) (hr : g.forwarded[i]? = some r) :
    Acts host g (.stash i) (g.stash i r)
  | reorder (m : List (UInt32 × Pending)) (hm : m.Perm g.pendingMap) :
    Acts host g (.reorder m) { g with pendingMap := m }
  | client (e : Client.Event) (c : Client) (hown : ownStep e = true)
    (hc : g.client.step (gatewayClient host) e = some c) (hnone : g.client.incoming e = none) :
    Acts host g (.client e) { g with client := c }
  | packet (e : Client.Event) (c : Client) (p : Packet) (hown : ownStep e = true)
    (hc : g.client.step (gatewayClient host) e = some c) (hp : g.client.incoming e = some p) :
    Acts host g (.client e) ({ g with client := c }.onPacket p)

/-- What a step does is one of the listed acts. -/
theorem acts_of_step {host : Endian} {g g' : Gateway} {e : Event}
    (h : step host g e = some g') : Acts host g e g' := by
  cases e with
  | request session p gap =>
    simp only [step] at h
    split at h
    · rename_i hlength
      obtain rfl := Option.some.inj h
      by_cases hid : p.packetId = 0x02
      · rw [onRequest, if_pos hid]
        exact .forward session p gap hid hlength
      · rw [onRequest, if_neg hid]
        exact .echo session p gap hid
    · exact absurd h (by simp)
  | stash i =>
    simp only [step] at h
    split at h
    · rename_i hi
      obtain ⟨r, hr, rfl⟩ := Option.map_eq_some_iff.mp h
      exact .stash i r hi hr
    · exact absurd h (by simp)
  | reorder m =>
    simp only [step] at h
    split at h
    · rename_i hm
      obtain rfl := Option.some.inj h
      exact .reorder m (List.isPerm_iff.mp hm)
    · exact absurd h (by simp)
  | client e =>
    simp only [step] at h
    split at h
    · rename_i hown
      obtain ⟨c, hc, rfl⟩ := Option.map_eq_some_iff.mp h
      rw [Client.packets_step rfl hc, List.drop_left]
      -- the packet handler runs when the client has read the body of a packet
      rcases hin : g.client.incoming e with _ | p
      · exact .client e c hown hc hin
      · exact .packet e c p hown hc hin
    · exact absurd h (by simp)

/-- The loop looks for the number that the packet carries. -/
theorem matchesSeq_iff {dseq : UInt32} {e : UInt32 × Pending} :
    matchesSeq dseq e = true ↔ e.2.downstreamSeq = dseq := beq_iff_eq

/-- A key that is there keeps its entry, and the new one is lost. -/
theorem stash_pendingMap_of_taken {g : Gateway} {i : ℕ} {r : Forwarded}
    (h : r.request.sequence ∈ g.pendingMap.map Prod.fst) :
    (g.stash i r).pendingMap = g.pendingMap := if_pos h

/-- A new key gets its entry. -/
theorem stash_pendingMap_of_fresh {g : Gateway} {i : ℕ} {r : Forwarded}
    (h : r.request.sequence ∉ g.pendingMap.map Prod.fst) :
    (g.stash i r).pendingMap = g.pendingMap ++ [r.entry i] := if_neg h

/-- The packet handler finds an entry, or there is none. -/
theorem onPacket_cases (g : Gateway) (p : Packet) :
    ((∀ e ∈ g.pendingMap, e.2.downstreamSeq ≠ p.sequence) ∧
      g.onPacket p = { g with handled := g.handled ++ [(p, g.forwarded.length)] }) ∨
    ∃ e, g.pendingMap.find? (matchesSeq p.sequence) = some e ∧ e ∈ g.pendingMap ∧
      e.2.downstreamSeq = p.sequence ∧
      g.onPacket p = { g with
        handled := g.handled ++ [(p, g.forwarded.length)]
        pendingMap := g.pendingMap.eraseP (matchesSeq p.sequence)
        answers := g.answers ++ [⟨e.2.respond, p, { p with sequence := e.1 }⟩] } := by
  rcases hfind : g.pendingMap.find? (matchesSeq p.sequence) with _ | e
  · refine .inl ⟨fun e he => ?_, ?_⟩
    · exact fun heq => List.find?_eq_none.mp hfind e he (matchesSeq_iff.mpr heq)
    · simp only [onPacket, hfind]
  · refine .inr ⟨e, rfl, List.mem_of_find?_eq_some hfind, ?_, ?_⟩
    · exact matchesSeq_iff.mp (List.find?_some hfind)
    · simp only [onPacket, hfind]

/-- The packet handler does not look at the client. -/
theorem onPacket_client (g : Gateway) (c : Client) (p : Packet) :
    { g with client := c }.onPacket p = { g.onPacket p with client := c } := by
  simp only [onPacket]
  split <;> rfl

/-- A packet from downstream forwards nothing. -/
theorem onPacket_forwarded (g : Gateway) (p : Packet) : (g.onPacket p).forwarded = g.forwarded := by
  simp only [onPacket]
  split <;> rfl

/-- It is recorded, with what had been forwarded. -/
theorem onPacket_handled (g : Gateway) (p : Packet) :
    (g.onPacket p).handled = g.handled ++ [(p, g.forwarded.length)] := by
  simp only [onPacket]
  split <;> rfl

/-- It touches no request handler that is half way. -/
theorem onPacket_stashing (g : Gateway) (p : Packet) : (g.onPacket p).stashing = g.stashing := by
  simp only [onPacket]
  split <;> rfl

end Gateway

end TurboNet
