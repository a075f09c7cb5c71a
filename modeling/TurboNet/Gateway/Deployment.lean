import TurboNet.Common.Lists
import TurboNet.Server.Accept
import TurboNet.Link.Unbound
import TurboNet.Gateway.Downstream

/-!
# The gateway between its producers and a TurboNet server

Reference: `gateway.cpp`; `turbonet_server.cpp`; `turbonet_client.cpp`.

`Deployment.step` is the gateway process with both of its ends: the server that the producers
connect to, with all of its sessions, and the connection of its client to a session of a downstream
TurboNet server. The producers may send any bytes, and the application behind the downstream server
is any.

The client of the gateway never binds, so nothing ever comes back from downstream
(`requests_unanswered`): to a producer the gateway is an application that echoes what is no request
and answers no request, and `pendingMap` forgets nothing.
-/

namespace TurboNet

open Common

structure Deployment where
  /-- The server for the producers. -/
  server : Server := Server.start
  gateway : Gateway := Gateway.start
  /-- The connection of the gateway's client, with the session at its other end. -/
  downstream : Conversation := { client := Gateway.start.client }

namespace Deployment

/-- What the gateway is to its producers, as long as nothing comes back from downstream. -/
def echoOnly : Application where
  onAuth := some fun _ => true
  answer p := if p.packetId = 0x02 then [] else [p]

/-- The gateway leaves a request unanswered. -/
theorem echoOnly_request {p : Packet} (hid : p.packetId = 0x02) : echoOnly.answer p = [] :=
  if_pos hid

/-- It sends every other packet back. -/
theorem echoOnly_other {p : Packet} (hid : p.packetId ≠ 0x02) : echoOnly.answer p = [p] :=
  if_neg hid

/-! ## The machine -/

inductive Event where
  /-- The server for the producers takes a step. `gap` is the time that passes inside `sendRequest`
  if it calls the request handler. -/
  | server (e : Server.Event) (gap : ℕ)
  /-- The request handler gets the lock; `pendingMap` is iterated in another order. -/
  | stash (i : ℕ)
  | reorder (m : List (UInt32 × Pending))
  /-- The client of the gateway takes a step. -/
  | client (e : Client.Event)
  /-- The session at its other end or the network between them takes a step. -/
  | downstream (e : Conversation.Event)

/-- A call of the request handler by the session has not returned, so its strand is busy. -/
def busy (d : Deployment) (i : ℕ) : Bool :=
  d.gateway.stashing.any fun k => d.gateway.forwarded[k]?.any (·.session = i)

/-- The steps that the server for the producers can take. Its `respond` lambdas are called by the
gateway only. -/
def permits (d : Deployment) : Server.Event → Bool
  | .session i (.readDone _) | .session i .readFail => !d.busy i
  | .session _ (.respond _) => false
  | _ => true

/-- The requests that a session has passed to the gateway. -/
def requestsOf (srv : Server) (i : ℕ) : List Packet :=
  (srv.sessions[i]?.map Session.requests).getD []

/-- The calls of the request handler in a step of the server. -/
def handlerCalls (srv srv' : Server) (gap : ℕ) : Server.Event → List Gateway.Event
  | .session i _ =>
    ((requestsOf srv' i).drop (requestsOf srv i).length).map fun p => .request i p gap
  | _ => []

/-- The gateway calls a `respond` lambda. -/
def respond (host : Endian) (srv : Server) (x : ℕ × Packet) : Server :=
  { srv with
    sessions := srv.sessions.modify x.1 (Session.respond (Gateway.openServer host) · x.2) }

/-- What the gateway has passed to `respond` lambdas, with the sessions. -/
def responses (g g' : Gateway) : List (ℕ × Packet) :=
  g'.echoes.drop g.echoes.length ++
    (g'.answers.drop g.answers.length).map fun a => (a.respond.session, a.passed)

/-- The gateway has taken a step. -/
def withGateway (host : Endian) (d : Deployment) (g : Gateway) : Deployment where
  server := (responses d.gateway g).foldl (respond host) d.server
  gateway := g
  downstream := { d.downstream with client := g.client }

def step (host serverHost : Endian) (app : Application) (d : Deployment) :
    Event → Option Deployment
  | .server e gap =>
    if d.permits e then (Server.step (Gateway.openServer host) 50 d.server e).bind fun srv =>
      (run (Gateway.step host) d.gateway (handlerCalls d.server srv gap e)).map
        ({ d with server := srv }.withGateway host)
    else none
  | .stash i => (Gateway.step host d.gateway (.stash i)).map (d.withGateway host)
  | .reorder m => (Gateway.step host d.gateway (.reorder m)).map (d.withGateway host)
  | .client e => (d.downstream.clientStep (gatewayClient host) e).bind fun w =>
      (Gateway.step host d.gateway (.client e)).map ({ d with downstream := w }.withGateway host)
  -- the client at this end is that of the gateway
  | .downstream (.client _) => none
  | .downstream e => (Conversation.step (gatewayClient host) serverHost app d.downstream e).map
      fun w => { d with downstream := w }

variable {host serverHost : Endian} {app : Application} {d d' : Deployment} {g g' : Gateway}

/-! ## The gateway's own part -/

/-- The gateway has passed nothing on, and every request that it has stashed is still found under
its sequence number, unless another one is. -/
structure Unanswered (g : Gateway) : Prop where
  answers : g.answers = []
  kept : ∀ (k : ℕ) (r : Forwarded), g.forwarded[k]? = some r →
    k ∈ g.stashing ∨ r.request.sequence ∈ g.pendingMap.map Prod.fst

/-- Nothing has been passed on at the start. -/
theorem unanswered_start : Unanswered Gateway.start := ⟨rfl, nofun⟩

/-- `emplace` adds its own key and keeps the others. -/
theorem mem_emplace {m : List (UInt32 × Pending)} {e : UInt32 × Pending} {s : UInt32} :
    s ∈ (Gateway.emplace m e).map Prod.fst ↔ s ∈ m.map Prod.fst ∨ s = e.1 := by
  rw [Gateway.emplace]
  split
  · rename_i hmem
    exact ⟨Or.inl, fun h => h.elim id fun heq => heq ▸ hmem⟩
  · rw [List.map_append, List.mem_append, List.map_singleton, List.mem_singleton]

/-- Forwarding a request stashes nothing and answers nothing. -/
theorem Unanswered.forward (h : Unanswered g) (session : ℕ) (p : Packet) (gap : ℕ) :
    Unanswered (g.forward host session p gap) := by
  refine ⟨h.answers, fun k r hr => ?_⟩
  rw [Gateway.forward, List.getElem?_append] at hr
  split at hr
  · rcases h.kept k r hr with hk | hk
    · exact Or.inl (List.mem_append_left _ hk)
    · exact Or.inr hk
  · rename_i hle
    have hlt := (List.getElem?_eq_some_iff.mp hr).1
    rw [List.length_singleton] at hlt
    obtain rfl : k = g.forwarded.length := by omega
    exact Or.inl (List.mem_append_right _ (List.mem_singleton_self _))

/-- A request that is stashed is found under its number. -/
theorem Unanswered.stash (h : Unanswered g) {i : ℕ} {r : Forwarded}
    (hr : g.forwarded[i]? = some r) : Unanswered (g.stash i r) := by
  refine ⟨h.answers, fun k r' hr' => ?_⟩
  by_cases hki : k = i
  · subst hki
    obtain rfl := Option.some.inj (hr.symm.trans hr')
    exact Or.inr (mem_emplace.mpr (Or.inr rfl))
  · rcases h.kept k r' hr' with hk | hk
    · exact Or.inl ((List.mem_erase_of_ne hki).mpr hk)
    · exact Or.inr (mem_emplace.mpr (Or.inl hk))

/-- The order of the map does not matter. -/
theorem Unanswered.reorder (h : Unanswered g) {m : List (UInt32 × Pending)}
    (hm : m.Perm g.pendingMap) : Unanswered { g with pendingMap := m } :=
  ⟨h.answers, fun k r hr => (h.kept k r hr).imp_right (hm.map Prod.fst).mem_iff.mpr⟩

/-- The client of the gateway has not bound. -/
def Silent (w : Conversation) (g : Gateway) : Prop :=
  ∃ packets rest, ({ w with client := g.client } : Conversation).Unbound packets rest

/-- One call of the request handler. -/
theorem request_step {w : Conversation} {i gap : ℕ} {p : Packet} (hg : Unanswered g)
    (hw : Silent w g) (h : Gateway.step host g (.request i p gap) = some g') :
    Unanswered g' ∧ Silent w g' ∧
      g'.echoes = g.echoes ++ (echoOnly.answer p).map (Prod.mk i) := by
  cases Gateway.acts_of_step h with
  | forward _ _ _ hid hlength =>
    refine ⟨hg.forward i p gap, ?_, ?_⟩
    · obtain ⟨packets, rest, hw⟩ := hw
      have hplain : Conversation.plain (.client (.sendRequest p.payload gap)) = true :=
        decide_eq_true hlength
      have hstep : Conversation.clientStep (gatewayClient host) { w with client := g.client }
          (.sendRequest p.payload gap) = some { w with
            client := g.client.sendRequest (gatewayClient host) p.payload gap } := rfl
      exact hw.clientStep rfl hplain hstep
    · rw [echoOnly_request hid]
      exact (List.append_nil _).symm
  | echo _ _ _ hid =>
    refine ⟨⟨hg.answers, hg.kept⟩, hw, ?_⟩
    rw [echoOnly_other hid]
    rfl

/-- The gateway takes the requests of a producer one by one, and echoes what is no request. -/
theorem requests_run {w : Conversation} {i gap : ℕ} {ps : List Packet} (hg : Unanswered g)
    (hw : Silent w g)
    (h : run (Gateway.step host) g (ps.map fun p => .request i p gap) = some g') :
    Unanswered g' ∧ Silent w g' ∧
      g'.echoes = g.echoes ++ (ps.flatMap echoOnly.answer).map (Prod.mk i) := by
  induction ps generalizing g with
  | nil =>
    obtain rfl : g = g' := by simpa using h
    exact ⟨hg, hw, (List.append_nil _).symm⟩
  | cons p ps ih =>
    obtain ⟨g₁, hg₁, hrest⟩ := run_cons_eq_some.mp h
    obtain ⟨hunanswered, hsilent, hechoes⟩ := request_step hg hw hg₁
    obtain ⟨hunanswered', hsilent', hechoes'⟩ := ih hunanswered hsilent hrest
    refine ⟨hunanswered', hsilent', ?_⟩
    rw [hechoes', hechoes, List.flatMap_cons, List.map_append, List.append_assoc]

/-! ## The producers -/

/-- The sessions of the producers get what `echoOnly` answers. -/
def Echoed (host : Endian) (srv : Server) : Prop :=
  ∀ s ∈ srv.sessions, s.Replied host echoOnly

/-- Calls of the `respond` lambdas of one session write their packets one after another. -/
theorem foldl_respond (host : Endian) (srv : Server) (i : ℕ) (ps : List Packet) :
    (ps.map (Prod.mk i)).foldl (respond host) srv = { srv with
      sessions := srv.sessions.modify i
        (ps.foldl (Session.respond (Gateway.openServer host)) ·) } := by
  induction ps generalizing srv with
  | nil =>
    show srv = { srv with sessions := srv.sessions.modify i id }
    rw [List.modify_id]
  | cons p ps ih =>
    rw [List.map_cons, List.foldl_cons, ih, respond, List.modify_modify_eq]
    rfl

/-- A session of the producers takes a step, and what it has passed on is answered. -/
theorem replied_session {s s' : Session} (hs : s.Replied host echoOnly) {e : Session.Event}
    (hrespond : ∀ p, e ≠ .respond p)
    (h : Session.step (Gateway.openServer host) s e = some s') :
    (Conversation.answered host echoOnly s s').Replied host echoOnly := by
  by_cases hread : ∃ bs, e = .readDone bs
  · obtain ⟨bs, rfl⟩ := hread
    cases Session.acts_of_step h with
    | readDone op bs hop hlength =>
      cases op with
      | header =>
        have hrequests : (s.readDone (Gateway.openServer host) .header bs).requests =
            s.requests := rfl
        rw [Session.answered_of_requests hrequests]
        exact ⟨hs.authenticated, hs.sent⟩
      | body n =>
        obtain ⟨hhandles, hhanded⟩ := Session.handles_body (h := Gateway.openServer host) rfl s n bs
        exact (hs.handles hhandles hhanded).1
  · have hnot : ∀ bs, e ≠ .readDone bs := fun bs he => hread ⟨bs, he⟩
    rw [Session.answered_of_requests (Session.still_step hnot h).requests]
    exact hs.still hnot hrespond h

/-- What has been passed to `respond` lambdas, if nothing came back from downstream. -/
theorem responses_eq {xs : List (ℕ × Packet)} (hg : Unanswered g) (hg' : Unanswered g')
    (h : g'.echoes = g.echoes ++ xs) : responses g g' = xs := by
  rw [responses, hg'.answers, hg.answers, h, List.drop_left]
  exact List.append_nil xs

/-- A session of the server takes a step, with the calls of the request handler. -/
theorem Echoed.session {srv : Server} (h : Echoed host srv) {i gap : ℕ} {s s' : Session}
    {e : Session.Event} (hs : srv.sessions[i]? = some s) (hrespond : ∀ p, e ≠ .respond p)
    (hs' : Session.step (Gateway.openServer host) s e = some s') {w : Conversation}
    (hg : Unanswered g) (hw : Silent w g)
    (hrun : run (Gateway.step host) g (handlerCalls srv
      { srv with sessions := srv.sessions.set i s' } gap (.session i e)) = some g') :
    Unanswered g' ∧ Silent w g' ∧ Echoed host ((responses g g').foldl (respond host)
      { srv with sessions := srv.sessions.set i s' }) := by
  have hset : (srv.sessions.set i s')[i]? = some s' :=
    List.getElem?_set_self (List.getElem?_eq_some_iff.mp hs).1
  have hcalls : handlerCalls srv { srv with sessions := srv.sessions.set i s' } gap
      (.session i e) = (s'.requests.drop s.requests.length).map fun p => .request i p gap := by
    simp only [handlerCalls, requestsOf, hset, hs, Option.map_some, Option.getD_some]
  rw [hcalls] at hrun
  obtain ⟨hg', hw', hechoes⟩ := requests_run hg hw hrun
  refine ⟨hg', hw', ?_⟩
  rw [responses_eq hg hg' hechoes, foldl_respond, Echoed, modify_eq_set_of_some hset, List.set_set]
  intro t ht
  rcases List.mem_or_eq_of_mem_set ht with ht | rfl
  · exact h t ht
  · exact replied_session (h s (List.mem_of_getElem? hs)) hrespond hs'

/-- The server for the producers takes a step. -/
theorem Echoed.server {srv srv' : Server} (h : Echoed host srv) {e : Server.Event} {gap : ℕ}
    (hrespond : ∀ i p, e ≠ .session i (.respond p))
    (hstep : Server.step (Gateway.openServer host) 50 srv e = some srv') {w : Conversation}
    (hg : Unanswered g) (hw : Silent w g)
    (hrun : run (Gateway.step host) g (handlerCalls srv srv' gap e) = some g') :
    Unanswered g' ∧ Silent w g' ∧ Echoed host ((responses g g').foldl (respond host) srv') := by
  have hquiet {srv' : Server} (hrun : run (Gateway.step host) g [] = some g')
      (hsrv : Echoed host srv') : Unanswered g' ∧ Silent w g' ∧
        Echoed host ((responses g g').foldl (respond host) srv') := by
    obtain rfl : g = g' := by simpa using hrun
    rw [responses_eq hg hg (List.append_nil _).symm]
    exact ⟨hg, hw, hsrv⟩
  obtain ⟨ec, rfl, rfl⟩ | ⟨i, e, s, s', rfl, hs, hs', rfl⟩ | ⟨rfl, rfl⟩ := Server.step_cases hstep
  · refine hquiet hrun fun s hs => ?_
    rcases Server.onAccept_sessions 50 srv ec with hsame | ⟨-, hnew⟩
    · exact h s (hsame ▸ hs)
    · rw [hnew] at hs
      rcases List.mem_append.mp hs with hs | hs
      · exact h s hs
      · obtain rfl := List.mem_singleton.mp hs
        exact ⟨rfl, rfl⟩
  · exact h.session hs (fun p he => hrespond i p (by rw [he])) hs' hg hw hrun
  · refine hquiet hrun fun s hs => ?_
    obtain ⟨t, ht, rfl⟩ := List.mem_map.mp hs
    exact ⟨(h t ht).authenticated, (h t ht).sent⟩

/-! ## All parts together -/

/-- Nothing has come back from downstream, and the producers have got accordingly. -/
structure Barred (host : Endian) (d : Deployment) : Prop where
  echoed : Echoed host d.server
  unanswered : Unanswered d.gateway
  client : d.downstream.client = d.gateway.client
  silent : Silent d.downstream d.gateway

/-- Nothing has happened at the start. -/
theorem barred_start (host : Endian) : Barred host {} where
  echoed := List.forall_mem_nil _
  unanswered := unanswered_start
  client := rfl
  silent := ⟨[], [], Conversation.unbound_start.client (Or.inl rfl) nofun rfl⟩

/-- The gateway takes a step in which it calls no `respond` lambda. -/
theorem Barred.withGateway (h : Barred host d) (hg : Unanswered g) (hw : Silent d.downstream g)
    (hechoes : g.echoes = d.gateway.echoes) : Barred host (d.withGateway host g) := by
  have hresponses : responses d.gateway g = [] :=
    responses_eq h.unanswered hg (by rw [hechoes, List.append_nil])
  refine ⟨?_, hg, rfl, hw⟩
  rw [Deployment.withGateway, hresponses]
  exact h.echoed

/-- A step of the gateway's client brings nothing back from downstream. -/
theorem Barred.client_step (h : Barred host d) {e : Client.Event} {w : Conversation}
    (hw : d.downstream.clientStep (gatewayClient host) e = some w)
    (hg : Gateway.step host d.gateway (.client e) = some g) :
    Barred host ({ d with downstream := w }.withGateway host g) := by
  obtain ⟨packets, rest, hunbound⟩ := h.silent
  rw [← h.client] at hunbound
  have hplain : Gateway.ownStep e = true → Conversation.plain (.client e) = true := by
    cases e <;> simp [Gateway.ownStep, Conversation.plain]
  have hclient := (Conversation.client_of_clientStep hw).1
  rw [h.client] at hclient
  cases Gateway.acts_of_step hg with
  | client _ c hown hc hnone =>
    obtain rfl := Option.some.inj (hclient.symm.trans hc)
    have hid : (gatewayClient host).clientId = [] := rfl
    have hsilent := hunbound.clientStep hid (hplain hown) hw
    have hresponses : responses d.gateway { d.gateway with client := w.client } = [] :=
      responses_eq h.unanswered ⟨h.unanswered.answers, h.unanswered.kept⟩
        (List.append_nil _).symm
    refine ⟨?_, ⟨h.unanswered.answers, h.unanswered.kept⟩, rfl, hsilent⟩
    rw [Deployment.withGateway, hresponses]
    exact h.echoed
  | packet _ c p hown hc hp =>
    have hnone := hunbound.incoming_eq_none e
    rw [h.client] at hnone
    cases hnone.symm.trans hp

/-- Every step of the deployment keeps the producers barred. -/
theorem Barred.step (h : Barred host d) {e : Event}
    (hd : Deployment.step host serverHost app d e = some d') : Barred host d' := by
  cases e with
  | server e gap =>
    obtain ⟨hpermits, hd⟩ := Option.ite_none_right_eq_some.mp hd
    obtain ⟨srv, hsrv, hd⟩ := Option.bind_eq_some_iff.mp hd
    obtain ⟨g, hg, rfl⟩ := Option.map_eq_some_iff.mp hd
    have hrespond : ∀ i p, e ≠ .session i (.respond p) := by
      rintro i p rfl
      cases hpermits
    obtain ⟨hunanswered, hsilent, hechoed⟩ :=
      h.echoed.server hrespond hsrv h.unanswered h.silent hg
    exact ⟨hechoed, hunanswered, rfl, hsilent⟩
  | stash i =>
    obtain ⟨g, hg, rfl⟩ := Option.map_eq_some_iff.mp hd
    cases Gateway.acts_of_step hg with
    | stash _ r hi hr => exact h.withGateway (h.unanswered.stash hr) h.silent rfl
  | reorder m =>
    obtain ⟨g, hg, rfl⟩ := Option.map_eq_some_iff.mp hd
    cases Gateway.acts_of_step hg with
    | reorder _ hm => exact h.withGateway (h.unanswered.reorder hm) h.silent rfl
  | client e =>
    obtain ⟨w, hw, hd⟩ := Option.bind_eq_some_iff.mp hd
    obtain ⟨g, hg, rfl⟩ := Option.map_eq_some_iff.mp hd
    exact h.client_step hw hg
  | downstream e =>
    obtain ⟨packets, rest, hunbound⟩ := h.silent
    rw [← h.client] at hunbound
    -- the server downstream goes on without a bind request
    have hnext {w : Conversation} {e : Conversation.Event}
        (hw : Conversation.step (gatewayClient host) serverHost app d.downstream e = some w)
        (he : ∀ e', e ≠ .client e') : Barred host { d with downstream := w } := by
      have hclient := (Conversation.client_of_step hw he).trans h.client
      obtain ⟨packets, rest, hunbound⟩ :=
        hunbound.step rfl (Conversation.plain_of_ne he) hw
      exact ⟨h.echoed, h.unanswered, hclient, packets, rest, hclient ▸ hunbound⟩
    cases e with
    | client e => cases hd
    | accept | session e | carry n =>
      obtain ⟨w, hw, rfl⟩ := Option.map_eq_some_iff.mp hd
      exact hnext hw (by simp)

/-- **Requests stay unanswered.** Whatever the producers send, and whatever application is behind
the downstream TurboNet server, the gateway passes no reply on and the downstream application gets
no request. A session of the producers sends what `echoOnly` answers, and the sequence number of a
request that has been stashed stays in `pendingMap` for good. -/
theorem requests_unanswered (host serverHost : Endian) (app : Application) (es : List Event)
    (d : Deployment) (hrun : run (step host serverHost app) {} es = some d) :
    d.gateway.answers = [] ∧ d.downstream.session.requests = [] ∧
      (∀ s ∈ d.server.sessions, s.sent = replies host echoOnly s.handed) ∧
      ∀ (k : ℕ) (r : Forwarded), d.gateway.forwarded[k]? = some r →
        k ∈ d.gateway.stashing ∨ r.request.sequence ∈ d.gateway.pendingMap.map Prod.fst := by
  have h : Barred host d := run_induction (barred_start host) (fun _ _ _ h hd => h.step hd) hrun
  obtain ⟨packets, rest, hunbound⟩ := h.silent
  exact ⟨h.unanswered.answers, hunbound.requests, fun s hs => (h.echoed s hs).sent,
    h.unanswered.kept⟩

/-- A producer binds and sends a request, which the gateway forwards to the server of `server.cpp`,
and then another packet, which the gateway echoes. -/
def requestForwarded : List Event :=
  [.client (.connectDone false), .downstream .accept, .server (.accept false) 0,
    .server (.session 0 (.readDone (Packet.header ⟨0x01, 0x00, 1, [0x61]⟩))) 0,
    .server (.session 0 (.readDone [0x61])) 0,
    .server (.session 0 (.readDone (Packet.header ⟨0x02, 0x00, 7, [0x62]⟩))) 0,
    .server (.session 0 (.readDone [0x62])) 0, .stash 0, .client .runPosted,
    .downstream (.carry 100), .client (.writeDone false),
    .downstream (.session (.readDone (Packet.header ⟨0x02, 0x00, 1, [0x62]⟩))),
    .downstream (.session (.readDone [0x62])),
    .server (.session 0 (.readDone (Packet.header ⟨0x03, 0x00, 8, []⟩))) 0,
    .server (.session 0 (.readDone [])) 0]

/-- In this run the request does arrive downstream, and only the other packet is answered. -/
theorem requests_unanswered_requestForwarded :
    ∃ d s, run (step .little .big echoServer) {} requestForwarded = some d ∧
      d.downstream.session.handed = [⟨0x02, 0x00, 1, [0x62]⟩] ∧
      d.downstream.session.requests = [] ∧ d.server.sessions = [s] ∧
      s.sent = [bindResponse 1, ⟨0x03, 0x00, 8, []⟩] ∧
      d.gateway.pendingMap.map Prod.fst = [7] ∧ d.gateway.answers = [] := by
  obtain ⟨d, s, hrun, hhanded, hsessions, hgot, hpending⟩ : ∃ d s,
      run (step .little .big echoServer) {} requestForwarded = some d ∧
        d.downstream.session.handed = [⟨0x02, 0x00, 1, [0x62]⟩] ∧ d.server.sessions = [s] ∧
        s.handed = [⟨0x01, 0x00, 1, [0x61]⟩, ⟨0x02, 0x00, 7, [0x62]⟩, ⟨0x03, 0x00, 8, []⟩] ∧
        d.gateway.pendingMap.map Prod.fst = [7] :=
    ⟨_, _, rfl, rfl, rfl, rfl, rfl⟩
  obtain ⟨hanswers, hrequests, hsent, -⟩ :=
    requests_unanswered .little .big echoServer requestForwarded d hrun
  refine ⟨d, s, hrun, hhanded, hrequests, hsessions, ?_, hpending, hanswers⟩
  rw [hsent s (hsessions ▸ List.mem_singleton_self s), hgot]
  rfl

end Deployment

end TurboNet
