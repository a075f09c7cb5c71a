import TurboNet.Client.SendPath
import TurboNet.Server.Authentication
import TurboNet.Gateway.Gateway

/-!
# The gateway's downstream link

Reference: `gateway.cpp`, the set-up of the client; `turbonet_client.cpp`, `connect`;
`turbonet_server.cpp`, `Session::onReadBody`.

A client binds by itself when it connects, if it has been given an id. The gateway gives its client
none, and a session ignores everything before a bind request: not one of the requests that the
gateway forwards reaches the application behind the downstream server (`downstreamUsable_iff`).
-/

namespace TurboNet

open Common

/-- The packet that `sendRequest` makes of a forwarded request. -/
def Forwarded.downstream (r : Forwarded) : Packet :=
  ⟨0x02, 0x00, r.downstreamSeq, r.request.payload⟩

namespace Gateway

/-- What the downstream server receives if every frame is written and delivered in order. -/
def wire (g : Gateway) : List UInt8 := g.client.tx.sendCalls.flatten

/-- The requests among the calls of the request handler. -/
def requests (es : List Event) : List Packet :=
  es.filterMap fun e => match e with
    | .request _ p _ => if p.packetId = 0x02 then some p else none
    | _ => none

/-- A server whose auth handler accepts every client id. -/
def openServer (host : Endian) : Handlers := ⟨host, some fun _ => true, true⟩

/-- Every forwarded request reaches `onRequest_` of the downstream server, with its body and the
number that `sendRequest` returned. -/
def DownstreamUsable (server : Endian) (g : Gateway) : Prop :=
  ∀ r ∈ g.forwarded, SessionCall.request r.downstream ∈
    ((Session.start {}).loop (openServer server) g.wire).1.calls

/-! ## What the gateway sends -/

/-- The client has no id, so its own steps send nothing. -/
theorem ownStep_sendCalls {host : Endian} {c c' : Client} {e : Client.Event}
    (hown : ownStep e = true) (h : c.step (gatewayClient host) e = some c') :
    c'.tx.sendCalls = c.tx.sendCalls := by
  cases Client.acts_of_step h with
  | sendPacket p => exact absurd hown (by simp [ownStep])
  | sendRequest | startRequest | armStarted => exact absurd hown (by simp [ownStep])
  | connectDone ec => cases ec <;> rfl
  | runPosted pkt rest hposted =>
    simp only [Client.runPosted]
    split <;> rfl
  | writeDone ec hwriting => cases ec <;> rfl
  | sweepFire t hdue => rw [Client.sweepFire_eq]
  | other e c' hquiet hsame => rw [hsame.tx]
  | _ => rfl

/-- What has been sent is what has been forwarded, and what has been forwarded is what came in. -/
structure Sends (host : Endian) (g : Gateway) (ps : List Packet) : Prop where
  sendCalls : g.client.tx.sendCalls =
    g.forwarded.map fun r => sendPacketFrame host r.downstream
  forwarded : g.forwarded.map Forwarded.request = ps
  length : ∀ r ∈ g.forwarded, r.request.payload.length < 2 ^ 32

/-- Every step sends what came in with it, and nothing else. -/
theorem Sends.step {host : Endian} {g g' : Gateway} {e : Event} {ps : List Packet}
    (h : Sends host g ps) (hstep : step host g e = some g') :
    Sends host g' (ps ++ requests [e]) := by
  cases acts_of_step hstep with
  | forward session p gap hid hlength =>
    have hrequests : requests [Event.request session p gap] = [p] := by simp [requests, hid]
    -- `sendRequest` posts the packet with the number that it has drawn
    have htx : (g.client.sendRequest (gatewayClient host) p.payload gap).tx.sendCalls =
        g.client.tx.sendCalls ++
          [sendPacketFrame host ⟨0x02, 0x00, g.client.sequenceCounter, p.payload⟩] := by
      rw [Client.sendRequest_tx]
      rfl
    refine ⟨?_, ?_, fun r hr => ?_⟩
    · rw [forward, htx, h.sendCalls, List.map_append]
      rfl
    · rw [forward, hrequests, List.map_append, h.forwarded]
      rfl
    · rcases List.mem_append.mp hr with hr | hr
      · exact h.length r hr
      · obtain rfl := List.mem_singleton.mp hr
        exact hlength
  | echo session p gap hid =>
    have hrequests : requests [Event.request session p gap] = [] := by simp [requests, hid]
    rw [hrequests, List.append_nil]
    exact { h with }
  | stash i r hi hr =>
    rw [show requests [Event.stash i] = [] from rfl, List.append_nil]
    exact { h with }
  | reorder m hm =>
    rw [show requests [Event.reorder m] = [] from rfl, List.append_nil]
    exact { h with }
  | client e c hown hc hnone =>
    rw [show requests [Event.client e] = [] from rfl, List.append_nil]
    exact { h with sendCalls := (ownStep_sendCalls hown hc).trans h.sendCalls }
  | packet e c p hown hc hp =>
    rw [show requests [Event.client e] = [] from rfl, List.append_nil, onPacket_client]
    have hforwarded : { g.onPacket p with client := c }.forwarded = g.forwarded :=
      onPacket_forwarded g p
    refine ⟨?_, ?_, ?_⟩
    · rw [hforwarded]
      exact (ownStep_sendCalls hown hc).trans h.sendCalls
    · rw [hforwarded]
      exact h.forwarded
    · rw [hforwarded]
      exact h.length

/-- So does every run. -/
theorem sends_of_run {host : Endian} {g u : Gateway} {es : List Event} {ps : List Packet}
    (h : Sends host g ps) (hrun : run (step host) g es = some u) :
    Sends host u (ps ++ requests es) := by
  induction es generalizing g ps with
  | nil =>
    obtain rfl : g = u := by simpa using hrun
    rw [show requests [] = [] from rfl, List.append_nil]
    exact h
  | cons e es ih =>
    obtain ⟨t, ht, hu⟩ := run_cons_eq_some.mp hrun
    have hcons : requests (e :: es) = requests [e] ++ requests es := by
      rw [← List.singleton_append, requests, List.filterMap_append]
      rfl
    rw [hcons, ← List.append_assoc]
    exact ih (h.step ht) hu

/-! ## What arrives -/

/-- The application behind the downstream server is never called. -/
theorem Sends.calls_eq_nil {host : Endian} {g : Gateway} {ps : List Packet} (h : Sends host g ps)
    (server : Endian) : ((Session.start {}).loop (openServer server) g.wire).1.calls = [] := by
  have hlength : ∀ p ∈ g.forwarded.map Forwarded.downstream, p.payload.length < 2 ^ 32 := by
    intro p hp
    obtain ⟨r, hr, rfl⟩ := List.mem_map.mp hp
    exact h.length r hr
  obtain ⟨fs, hpackets, hbytes⟩ := Packet.exists_frames_of_length hlength
  have hwire : g.wire = fs.flatMap Frame.bytes := by
    rw [hbytes, wire, h.sendCalls, List.flatMap_map, ← List.flatMap_def]
    exact congrArg (g.forwarded.flatMap ·) (funext fun r => sendPacketFrame_eq host r.downstream)
  rw [hwire, Session.loop_frames _ rfl]
  refine Session.foldl_handleFrame_calls_of_not_bind rfl fun f hf => ?_
  have hmem : f.packet ∈ g.forwarded.map Forwarded.downstream :=
    hpackets ▸ List.mem_map_of_mem hf
  obtain ⟨r, -, hr⟩ := List.mem_map.mp hmem
  rw [← hr]
  exact (by decide : (0x02 : UInt8) ≠ 0x01)

/-- **The downstream link.** In a run of the gateway all forwarded requests reach the application
behind a downstream server that lets everybody in, exactly when no producer sends a request. -/
theorem downstreamUsable_iff (host server : Endian) (es : List Event) (u : Gateway)
    (hrun : run (step host) start es = some u) :
    DownstreamUsable server u ↔ requests es = [] := by
  have h : Sends host u ([] ++ requests es) := sends_of_run ⟨rfl, rfl, by simp [start]⟩ hrun
  rw [List.nil_append] at h
  rw [DownstreamUsable, h.calls_eq_nil server, ← h.forwarded, List.map_eq_nil_iff]
  constructor
  · intro hall
    exact List.eq_nil_iff_forall_not_mem.mpr fun r hr => absurd (hall r hr) (by simp)
  · rintro hnil r hr
    rw [hnil] at hr
    exact absurd hr (by simp)

/-- A producer that sends a packet of another kind is answered by the gateway itself. -/
theorem downstreamUsable_iff_echo :
    ∃ u, run (step .little) start [.client (.connectDone false), .request 0 ⟨0x03, 0, 1, [0x61]⟩ 0]
        = some u ∧ DownstreamUsable .big u := by
  refine ⟨_, rfl, ?_⟩
  exact (downstreamUsable_iff .little .big
    [.client (.connectDone false), .request 0 ⟨0x03, 0, 1, [0x61]⟩ 0] _ rfl).mpr (by decide)

/-- The gateway connects, forwards one request and writes it; the downstream server ignores it. -/
theorem forwarded_request_ignored :
    ∃ u, run (step .little) start [.client (.connectDone false), .request 0 ⟨0x02, 0, 1, [0x61]⟩ 0,
        .stash 0, .client .runPosted, .client (.writeDone false)] = some u ∧
      u.client.tx.written = u.wire ∧ ¬ DownstreamUsable .little u := by
  obtain ⟨u, hrun, hwritten, hsends, hforwarded⟩ : ∃ u, run (step .little) start
        [.client (.connectDone false), .request 0 ⟨0x02, 0, 1, [0x61]⟩ 0, .stash 0,
          .client .runPosted, .client (.writeDone false)] = some u ∧
      u.client.tx.written = u.wire ∧ Sends .little u [⟨0x02, 0, 1, [0x61]⟩] ∧
      u.forwarded = [⟨0, ⟨0x02, 0, 1, [0x61]⟩, 1⟩] :=
    ⟨_, rfl, rfl, ⟨rfl, rfl, by decide⟩, rfl⟩
  refine ⟨u, hrun, hwritten, fun hall => ?_⟩
  have hmem := hall ⟨0, ⟨0x02, 0, 1, [0x61]⟩, 1⟩ (hforwarded ▸ List.mem_singleton_self _)
  rw [hsends.calls_eq_nil] at hmem
  exact absurd hmem (by simp)

end Gateway

end TurboNet
