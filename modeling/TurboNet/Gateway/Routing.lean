import TurboNet.Common.Lists
import TurboNet.Client.ResponseTimeouts
import TurboNet.Gateway.Gateway

/-!
# What the gateway does with replies

Reference: `gateway.cpp`, the packet handler and the request handler.

A reply is never passed to the wrong producer (`routes_replies`). It may be lost, in two ways. The
map is keyed by numbers that producers choose on their own, and an entry under a number that is
taken is not made: `remembers_iff`. And the reply may be handled before its request has been
stashed: `bookkeeping_iff`.
-/

namespace TurboNet

open Common

namespace Gateway

/-! ## Bookkeeping that always holds -/

/-- The requests that have an entry in `pendingMap`. -/
def entries (g : Gateway) : List ℕ := g.pendingMap.map fun e => e.2.respond.request

/-- The requests whose callback has been called. -/
def answered (g : Gateway) : List ℕ := g.answers.map fun a => a.respond.request

structure Consistent (g : Gateway) : Prop where
  counter : g.client.sequenceCounter = UInt32.ofNat (1 + g.forwarded.length)
  drawn : g.client.drawn.length = g.forwarded.length
  downstream : ∀ (i : ℕ) (r : Forwarded), g.forwarded[i]? = some r →
    r.downstreamSeq = UInt32.ofNat (1 + i)
  entry : ∀ e ∈ g.pendingMap, ∃ (i : ℕ) (r : Forwarded), g.forwarded[i]? = some r ∧ e = r.entry i
  answer : ∀ a ∈ g.answers, ∃ (i : ℕ) (r : Forwarded), g.forwarded[i]? = some r ∧
    a = r.answer i a.reply ∧ r.downstreamSeq = a.reply.sequence
  replies : (g.answers.map Answer.reply).Sublist g.client.packets
  stashing_lt : ∀ i ∈ g.stashing, i < g.forwarded.length
  handled_le : ∀ h ∈ g.handled, h.2 ≤ g.forwarded.length
  nodup : (g.entries ++ g.answered ++ g.stashing).Nodup

/-- The gateway has forwarded nothing at the start. -/
theorem Consistent.start : Consistent start where
  counter := rfl
  drawn := rfl
  downstream := by simp [Gateway.start]
  entry := by simp [Gateway.start]
  answer := by simp [Gateway.start]
  replies := List.nil_sublist _
  stashing_lt := by simp [Gateway.start]
  handled_le := by simp [Gateway.start]
  nodup := List.nodup_nil

/-- An entry is one of a request that has been forwarded. -/
theorem Consistent.entries_lt {g : Gateway} (h : Consistent g) :
    ∀ i ∈ g.entries, i < g.forwarded.length := by
  intro i hi
  obtain ⟨e, he, rfl⟩ := List.mem_map.mp hi
  obtain ⟨j, r, hr, rfl⟩ := h.entry e he
  exact (List.getElem?_eq_some_iff.mp hr).1

/-- An answer is one to a request that has been forwarded. -/
theorem Consistent.answered_lt {g : Gateway} (h : Consistent g) :
    ∀ i ∈ g.answered, i < g.forwarded.length := by
  intro i hi
  obtain ⟨a, ha, rfl⟩ := List.mem_map.mp hi
  obtain ⟨j, r, hr, ha', -⟩ := h.answer a ha
  rw [ha']
  exact (List.getElem?_eq_some_iff.mp hr).1

/-- A request is forwarded, and its handler is about to stash it. -/
theorem Consistent.forward {g : Gateway} (h : Consistent g) (host : Endian) (session : ℕ)
    (p : Packet) (gap : ℕ) : Consistent (g.forward host session p gap) := by
  have hstep : g.client.step (gatewayClient host) (.sendRequest p.payload gap) =
      some (g.client.sendRequest (gatewayClient host) p.payload gap) := rfl
  have hpackets := Client.packets_step rfl hstep
  obtain ⟨-, -, hno⟩ | ⟨hdrawn, hcounter, -⟩ := Client.step_drawn hstep
  · exact absurd hno (by simp [Client.Event.requests])
  have hold {i : ℕ} {r : Forwarded} (hr : g.forwarded[i]? = some r) :
      (g.forward host session p gap).forwarded[i]? = some r := getElem?_append_of_some hr _
  refine ⟨?_, ?_, fun i r hr => ?_, fun e he => ?_, fun a ha => ?_, ?_, fun i hi => ?_,
    fun k hk => ?_, ?_⟩
  · show (g.client.sendRequest (gatewayClient host) p.payload gap).sequenceCounter = _
    rw [hcounter, h.counter, Gateway.forward, List.length_append, ← Nat.add_assoc,
      UInt32.ofNat_add (1 + g.forwarded.length)]
    rfl
  · show (g.client.sendRequest (gatewayClient host) p.payload gap).drawn.length = _
    rw [hdrawn, Gateway.forward, List.length_append, List.length_append, h.drawn]
    rfl
  · by_cases hi : i < g.forwarded.length
    · rw [Gateway.forward, List.getElem?_append_left hi] at hr
      exact h.downstream i r hr
    · have hlt := (List.getElem?_eq_some_iff.mp hr).1
      simp only [Gateway.forward, List.length_append, List.length_singleton] at hlt
      obtain rfl : i = g.forwarded.length := by omega
      simp only [Gateway.forward, List.getElem?_concat_length, Option.some.injEq] at hr
      rw [← hr]
      exact h.counter
  · obtain ⟨i, r, hr, heq⟩ := h.entry e he
    exact ⟨i, r, hold hr, heq⟩
  · obtain ⟨i, r, hr, heq⟩ := h.answer a ha
    exact ⟨i, r, hold hr, heq⟩
  · show (g.answers.map Answer.reply).Sublist
      (g.client.sendRequest (gatewayClient host) p.payload gap).packets
    rw [hpackets]
    exact h.replies.trans (List.sublist_append_left _ _)
  · simp only [Gateway.forward, List.length_append, List.length_singleton]
    rcases List.mem_append.mp hi with hi | hi
    · exact Nat.lt_succ_of_lt (h.stashing_lt i hi)
    · rw [List.mem_singleton] at hi
      omega
  · simp only [Gateway.forward, List.length_append, List.length_singleton]
    exact Nat.le_succ_of_le (h.handled_le k hk)
  -- the new request has an index of its own, past all that are in use
  · show (g.entries ++ g.answered ++ (g.stashing ++ [g.forwarded.length])).Nodup
    rw [← List.append_assoc]
    refine h.nodup.append (List.nodup_singleton _) ?_
    intro i hi hnew
    rw [List.mem_singleton] at hnew
    simp only [List.mem_append] at hi
    rcases hi with (hi | hi) | hi
    · exact absurd (h.entries_lt i hi) (by omega)
    · exact absurd (h.answered_lt i hi) (by omega)
    · exact absurd (h.stashing_lt i hi) (by omega)

/-- A request is stashed. -/
theorem Consistent.stash {g : Gateway} (h : Consistent g) {i : ℕ} {r : Forwarded}
    (hi : i ∈ g.stashing) (hr : g.forwarded[i]? = some r) : Consistent (g.stash i r) := by
  -- the request leaves the ones being stashed, and becomes an entry if its number is free
  have hperm : g.stashing.Perm (i :: g.stashing.erase i) := List.perm_cons_erase hi
  have hnodup : (g.entries ++ [i] ++ g.answered ++ g.stashing.erase i).Nodup := by
    refine (List.Perm.nodup_iff ?_).mp h.nodup
    refine (List.Perm.append_left _ hperm).trans ?_
    simp only [List.append_assoc, List.singleton_append]
    refine List.Perm.append_left _ ?_
    exact List.perm_middle
  refine { h with entry := fun e he => ?_, stashing_lt := fun j hj => ?_, nodup := ?_ }
  · by_cases htaken : r.request.sequence ∈ g.pendingMap.map Prod.fst
    · rw [stash_pendingMap_of_taken htaken] at he
      exact h.entry e he
    · rw [stash_pendingMap_of_fresh htaken] at he
      rcases List.mem_append.mp he with he | he
      · exact h.entry e he
      · exact ⟨i, r, hr, List.mem_singleton.mp he⟩
  · exact h.stashing_lt j (List.mem_of_mem_erase hj)
  · by_cases htaken : r.request.sequence ∈ g.pendingMap.map Prod.fst
    · have hentries : (g.stash i r).entries = g.entries := by
        rw [entries, stash_pendingMap_of_taken htaken, entries]
      rw [hentries]
      refine hnodup.sublist ?_
      simp only [List.append_assoc]
      exact List.Sublist.append_left (List.sublist_cons_self _ _) _
    · have hentries : (g.stash i r).entries = g.entries ++ [i] := by
        rw [entries, stash_pendingMap_of_fresh htaken, List.map_append]
        rfl
      rw [hentries]
      exact hnodup

/-- A packet is handled: the entry that is found, if any, is answered and taken out. -/
theorem Consistent.onPacket {g : Gateway} (h : Consistent g) {c : Client} {p : Packet}
    (hcounter : c.sequenceCounter = g.client.sequenceCounter)
    (hdrawn : c.drawn = g.client.drawn) (hpackets : c.packets = g.client.packets ++ [p]) :
    Consistent ({ g with client := c }.onPacket p) := by
  have hhandled : ∀ k ∈ g.handled ++ [(p, g.forwarded.length)], k.2 ≤ g.forwarded.length := by
    intro k hk
    rcases List.mem_append.mp hk with hk | hk
    · exact h.handled_le k hk
    · rw [List.mem_singleton.mp hk]
  obtain ⟨-, heq⟩ | ⟨e, hfind, he, hdseq, heq⟩ := onPacket_cases { g with client := c } p
  · rw [heq]
    refine { h with
      counter := hcounter.trans h.counter
      drawn := ?_
      replies := ?_
      handled_le := hhandled }
    · rw [hdrawn]
      exact h.drawn
    · rw [hpackets]
      exact h.replies.trans (List.sublist_append_left _ _)
  · obtain ⟨i, r, hr, rfl⟩ := h.entry e he
    rw [heq]
    refine { h with
      counter := hcounter.trans h.counter
      drawn := ?_
      entry := fun e he => h.entry e (List.mem_of_mem_eraseP he)
      answer := fun a ha => ?_
      replies := ?_
      handled_le := hhandled
      nodup := ?_ }
    · rw [hdrawn]
      exact h.drawn
    · rcases List.mem_append.mp ha with ha | ha
      · exact h.answer a ha
      · obtain rfl := List.mem_singleton.mp ha
        exact ⟨i, r, hr, rfl, hdseq⟩
    · rw [hpackets, List.map_append]
      exact h.replies.append (List.Sublist.refl _)
    · -- the entry goes from the map to the answers, so no request has two
      have hperm := (perm_cons_eraseP hfind).map fun e => e.2.respond.request
      refine (List.Perm.nodup_iff ?_).mp h.nodup
      refine List.Perm.append_right _ ?_
      refine (List.Perm.append_right _ hperm).trans ?_
      simp only [answered, List.map_append, ← List.append_assoc]
      exact (List.perm_append_singleton i _).symm

/-- The client has no id, so its own steps draw no number. -/
theorem ownStep_drawn {host : Endian} {c c' : Client} {e : Client.Event} (hown : ownStep e = true)
    (h : c.step (gatewayClient host) e = some c') :
    c'.sequenceCounter = c.sequenceCounter ∧ c'.drawn = c.drawn := by
  obtain ⟨hdrawn, hcounter, -⟩ | ⟨-, -, hrequest⟩ := Client.step_drawn h
  · exact ⟨hcounter, hdrawn⟩
  · have hrequests := hrequest rfl
    cases e <;> simp [Client.Event.requests, ownStep] at hrequests hown

/-- Every step keeps the gateway consistent. -/
theorem Consistent.step {host : Endian} {g g' : Gateway} {e : Event} (h : Consistent g)
    (hstep : step host g e = some g') : Consistent g' := by
  cases acts_of_step hstep with
  | forward session p gap hid hlength => exact h.forward host session p gap
  | echo session p gap hid => exact { h with }
  | stash i r hi hr => exact h.stash hi hr
  | reorder m hm =>
    refine { h with entry := fun e he => h.entry e (hm.mem_iff.mp he), nodup := ?_ }
    have hperm := hm.map fun e => e.2.respond.request
    exact (List.Perm.nodup_iff ((hperm.append_right _).append_right _)).mpr h.nodup
  | client e c hown hc hnone =>
    obtain ⟨hcounter, hdrawn⟩ := ownStep_drawn hown hc
    refine { h with counter := hcounter.trans h.counter, drawn := ?_, replies := ?_ }
    · rw [hdrawn]
      exact h.drawn
    · rw [Client.packets_step rfl hc]
      exact h.replies.trans (List.sublist_append_left _ _)
  | packet e c p hown hc hp =>
    obtain ⟨hcounter, hdrawn⟩ := ownStep_drawn hown hc
    refine h.onPacket hcounter hdrawn ?_
    rw [Client.packets_step rfl hc, hp]
    rfl

/-- The gateway is consistent in every run. -/
theorem consistent_of_run {host : Endian} {es : List Event} {u : Gateway}
    (h : run (step host) start es = some u) : Consistent u :=
  run_induction Consistent.start (fun _ _ _ hI hstep => hI.step hstep) h

/-- The first 2^32 requests have distinct downstream numbers. -/
theorem Consistent.index_eq {g : Gateway} (h : Consistent g) (hfew : g.forwarded.length ≤ 2 ^ 32)
    {i j : ℕ} {r r' : Forwarded} (hr : g.forwarded[i]? = some r) (hr' : g.forwarded[j]? = some r')
    (heq : r.downstreamSeq = r'.downstreamSeq) : i = j := by
  have hi := (List.getElem?_eq_some_iff.mp hr).1
  have hj := (List.getElem?_eq_some_iff.mp hr').1
  rw [h.downstream i r hr, h.downstream j r' hr'] at heq
  have hmod : (1 + i) % 2 ^ 32 = (1 + j) % 2 ^ 32 := by
    simpa using congrArg UInt32.toNat heq
  omega

/-! ## Replies are never misrouted -/

/-- **Routing.** In every run in which fewer than 2^32 downstream numbers are drawn, a callback is
called by the packet handler only for a packet that came from downstream, and it is the callback of
the one request that was forwarded under the number of the packet: it belongs to that request's
session, it gets that request's own number, and id, status and body of the packet. No request is
answered twice. -/
theorem routes_replies (host : Endian) (es : List Event) (u : Gateway)
    (hrun : run (step host) start es = some u) (hfew : u.client.drawn.length < 2 ^ 32) :
    (u.answers.map Answer.reply).Sublist u.client.packets ∧
      (∀ a ∈ u.answers, ∃ r, u.forwarded[a.respond.request]? = some r ∧
        r.session = a.respond.session ∧ r.downstreamSeq = a.reply.sequence ∧
        a.passed = ⟨a.reply.packetId, a.reply.status, r.request.sequence, a.reply.payload⟩ ∧
        ∀ (j : ℕ) (r' : Forwarded), u.forwarded[j]? = some r' →
          r'.downstreamSeq = a.reply.sequence → j = a.respond.request) ∧
      (u.answers.map fun a => a.respond.request).Nodup := by
  have h := consistent_of_run hrun
  refine ⟨h.replies, fun a ha => ?_, ?_⟩
  · obtain ⟨i, r, hr, heq, hdseq⟩ := h.answer a ha
    rw [h.drawn] at hfew
    refine ⟨r, ?_, ?_, hdseq, ?_, fun j r' hr' hdseq' => ?_⟩
    · rw [heq]
      exact hr
    · rw [heq]
      rfl
    · rw [heq]
      rfl
    · rw [heq]
      exact h.index_eq (Nat.le_of_lt hfew) hr' hr (hdseq'.trans hdseq.symm)
  · exact (h.nodup.sublist (List.sublist_append_left _ _)).sublist (List.sublist_append_right _ _)

/-- The downstream client connects. -/
def connects : List Event := [.client (.connectDone false)]

/-- Producer `k` sends a request under the number `seq`, and it is written to the downstream
server. -/
def sends (k : ℕ) (seq : UInt32) : List Event :=
  [.request k ⟨0x02, 0x00, seq, []⟩ 0, .client .runPosted, .client (.writeDone false)]

/-- A response to the downstream number `dseq` arrives. -/
def replies (dseq : UInt32) : List Event :=
  [.client (.readDone (Packet.header ⟨0x82, 0x00, dseq, []⟩)), .client (.readDone [])]

/-- Two producers with the same sequence number, one after the other. -/
theorem routes_replies_two_producers :
    ∃ u, run (step .little) start (connects ++ sends 0 7 ++ [.stash 0] ++ replies 1 ++ sends 1 7 ++
        [.stash 1] ++ replies 2) = some u ∧
      u.answers.map (fun a => a.respond.session) = [0, 1] ∧
      (u.answers.map fun a => a.respond.request).Nodup := by
  refine ⟨_, rfl, by decide, ?_⟩
  exact (routes_replies .little (connects ++ sends 0 7 ++ [.stash 0] ++ replies 1 ++ sends 1 7 ++
    [.stash 1] ++ replies 2) _ rfl (by decide)).2.2

/-! ## Requests that are forgotten -/

/-- Every request that has been stashed and not been answered is in `pendingMap`, and the search for
its downstream number finds its entry. -/
def Remembers (g : Gateway) : Prop :=
  ∀ (i : ℕ) (r : Forwarded), g.forwarded[i]? = some r → i ∉ g.stashing → i ∉ g.answered →
    g.pendingMap.find? (matchesSeq r.downstreamSeq) = some (r.entry i)

/-- When a request is stashed there is no entry under its producer's number, and none with its
downstream number. -/
def StashesFresh (g : Gateway) : Event → Prop
  | .stash i => ∀ r ∈ g.forwarded[i]?, r.request.sequence ∉ g.pendingMap.map Prod.fst ∧
      r.downstreamSeq ∉ g.pendingMap.map fun e => e.2.downstreamSeq
  | _ => True

instance (g : Gateway) : ∀ e : Event, Decidable (StashesFresh g e)
  | .stash i => inferInstanceAs (Decidable (∀ r ∈ g.forwarded[i]?,
      r.request.sequence ∉ g.pendingMap.map Prod.fst ∧
        r.downstreamSeq ∉ g.pendingMap.map fun e => e.2.downstreamSeq))
  | .request _ _ _ => isTrue trivial
  | .reorder _ => isTrue trivial
  | .client _ => isTrue trivial

/-- A reply to a request that has been stashed and not been answered is passed to its callback. -/
def PassesReply (host : Endian) (g : Gateway) (e : Event) : Prop :=
  ∀ (ce : Client.Event) (p : Packet) (i : ℕ) (r : Forwarded) (g' : Gateway), e = .client ce →
    g.client.incoming ce = some p → g.forwarded[i]? = some r → i ∉ g.stashing → i ∉ g.answered →
    r.downstreamSeq = p.sequence → step host g e = some g' →
    g'.answers = g.answers ++ [r.answer i p]

/-- A request with an entry has been stashed, and has not been answered. -/
theorem Consistent.not_mem_of_entries {g : Gateway} (h : Consistent g) {i : ℕ}
    (hi : i ∈ g.entries) : i ∉ g.stashing ∧ i ∉ g.answered := by
  have hnodup := h.nodup
  rw [List.append_assoc] at hnodup
  have hdisjoint := (List.nodup_append.mp hnodup).2.2
  constructor
  · exact fun hs => hdisjoint i hi i (List.mem_append_right _ hs) rfl
  · exact fun ha => hdisjoint i hi i (List.mem_append_left _ ha) rfl

/-- A request that is about to be stashed has no entry and no answer. -/
theorem Consistent.not_mem_of_stashing {g : Gateway} (h : Consistent g) {i : ℕ}
    (hi : i ∈ g.stashing) : i ∉ g.entries ∧ i ∉ g.answered := by
  have hdisjoint := (List.nodup_append.mp h.nodup).2.2
  constructor
  · exact fun he => hdisjoint i (List.mem_append_left _ he) i hi rfl
  · exact fun ha => hdisjoint i (List.mem_append_right _ ha) i hi rfl

/-- If nothing is forgotten, the entries have distinct downstream numbers. -/
theorem Remembers.unique {g : Gateway} (hP : Remembers g) (h : Consistent g)
    {e e' : UInt32 × Pending} (he : e ∈ g.pendingMap) (he' : e' ∈ g.pendingMap)
    (heq : e.2.downstreamSeq = e'.2.downstreamSeq) : e = e' := by
  have hfind {e : UInt32 × Pending} (he : e ∈ g.pendingMap) :
      g.pendingMap.find? (matchesSeq e.2.downstreamSeq) = some e := by
    have hi := h.not_mem_of_entries (List.mem_map_of_mem he)
    obtain ⟨i, r, hr, rfl⟩ := h.entry e he
    exact hP i r hr hi.1 hi.2
  have := hfind he
  rw [heq, hfind he'] at this
  exact (Option.some.inj this).symm

/-- A packet takes out the entry that it answers, and no other. -/
theorem remembers_onPacket {g : Gateway} (h : Consistent g) (hP : Remembers g) (p : Packet) :
    Remembers (g.onPacket p) := by
  obtain ⟨-, heq⟩ | ⟨e, hfind, he, hdseq, heq⟩ := onPacket_cases g p
  · rw [heq]
    exact hP
  · rw [heq]
    intro j r hr hstashing hanswered
    simp only [answered, List.map_append, List.map_singleton, List.mem_append,
      List.mem_singleton, not_or] at hanswered
    have hj := hP j r hr hstashing hanswered.1
    have hmem := List.mem_of_find?_eq_some hj
    -- the entry that was taken out is not the one of `j`
    have hne : ¬ matchesSeq p.sequence (r.entry j) = true := by
      intro hmatch
      have hsame := hP.unique h hmem he ((matchesSeq_iff.mp hmatch).trans hdseq.symm)
      exact hanswered.2 (by rw [← hsame]; rfl)
    refine find?_eq_of_unique ((List.mem_eraseP_of_neg hne).mpr hmem) (List.find?_some hj) ?_
    intro b hb hmatch
    exact hP.unique h (List.mem_of_mem_eraseP hb) hmem (matchesSeq_iff.mp hmatch)

/-- A stash is remembered exactly when neither of the two numbers has an entry. -/
theorem remembers_stash {g : Gateway} (h : Consistent g) (hP : Remembers g) {i : ℕ} {r : Forwarded}
    (hi : i ∈ g.stashing) (hr : g.forwarded[i]? = some r) :
    Remembers (g.stash i r) ↔ r.request.sequence ∉ g.pendingMap.map Prod.fst ∧
      r.downstreamSeq ∉ g.pendingMap.map fun e => e.2.downstreamSeq := by
  have hnot := h.not_mem_of_stashing hi
  have hnodup : g.stashing.Nodup := (List.nodup_append.mp h.nodup).2.1
  constructor
  · -- the entry is found afterwards, so it was put in and nothing before it matches
    intro hP'
    have hfind := hP' i r hr (fun hmem => (hnodup.mem_erase_iff.mp hmem).1 rfl) hnot.2
    have hnew : r.entry i ∉ g.pendingMap := fun he => hnot.1 (List.mem_map_of_mem he)
    have hfresh : r.request.sequence ∉ g.pendingMap.map Prod.fst := by
      intro htaken
      rw [stash_pendingMap_of_taken htaken] at hfind
      exact hnew (List.mem_of_find?_eq_some hfind)
    refine ⟨hfresh, fun hdseq => ?_⟩
    obtain ⟨e, he, heq⟩ := List.mem_map.mp hdseq
    have hsome : (g.pendingMap.find? (matchesSeq r.downstreamSeq)).isSome = true :=
      List.find?_isSome.mpr ⟨e, he, matchesSeq_iff.mpr heq⟩
    obtain ⟨e', he'⟩ := Option.isSome_iff_exists.mp hsome
    rw [stash_pendingMap_of_fresh hfresh, List.find?_append, he'] at hfind
    obtain rfl : e' = r.entry i := Option.some.inj hfind
    exact hnew (List.mem_of_find?_eq_some he')
  · rintro ⟨hfresh, hdseq⟩ j r' hr' hstashing hanswered
    rw [stash_pendingMap_of_fresh hfresh, List.find?_append]
    by_cases hij : j = i
    · obtain rfl := hij
      obtain rfl : r = r' := Option.some.inj (hr.symm.trans hr')
      have hnone : g.pendingMap.find? (matchesSeq r.downstreamSeq) = none := by
        refine List.find?_eq_none.mpr fun e he hmatch => hdseq ?_
        exact List.mem_map.mpr ⟨e, he, matchesSeq_iff.mp hmatch⟩
      rw [hnone, Option.none_or]
      exact List.find?_cons_of_pos (matchesSeq_iff.mpr rfl)
    · have hj : j ∉ g.stashing := fun hmem => hstashing (hnodup.mem_erase_iff.mpr ⟨hij, hmem⟩)
      rw [hP j r' hr' hj hanswered]
      rfl

/-- A step keeps all that has been stashed exactly when it stashes under fresh numbers. -/
theorem remembers_step {host : Endian} {g g' : Gateway} {e : Event} (h : Consistent g)
    (hP : Remembers g) (hstep : step host g e = some g') : Remembers g' ↔ StashesFresh g e := by
  cases acts_of_step hstep with
  | forward session p gap hid hlength =>
    refine iff_of_true (fun i r hr hstashing hanswered => ?_) trivial
    simp only [forward, List.mem_append, List.mem_singleton, not_or] at hstashing
    have hlt := (List.getElem?_eq_some_iff.mp hr).1
    simp only [forward, List.length_append, List.length_singleton] at hlt
    rw [forward, List.getElem?_append_left (by omega)] at hr
    exact hP i r hr hstashing.1 hanswered
  | echo session p gap hid => exact iff_of_true hP trivial
  | stash i r hi hr =>
    rw [remembers_stash h hP hi hr, StashesFresh, hr]
    simp
  | reorder m hm =>
    refine iff_of_true (fun i r hr hstashing hanswered => ?_) trivial
    have hfind := hP i r hr hstashing hanswered
    have hmem := List.mem_of_find?_eq_some hfind
    refine find?_eq_of_unique (hm.mem_iff.mpr hmem) (List.find?_some hfind) fun b hb hmatch => ?_
    exact hP.unique h (hm.mem_iff.mp hb) hmem (matchesSeq_iff.mp hmatch)
  | client e c hown hc hnone => exact iff_of_true hP trivial
  | packet e c p hown hc hp =>
    rw [onPacket_client]
    exact iff_of_true (remembers_onPacket h hP p) trivial

/-- A gateway that remembers what has been stashed passes every reply on. -/
theorem Remembers.passesReply {g : Gateway} (hP : Remembers g) (host : Endian) (e : Event) :
    PassesReply host g e := by
  rintro ce p i r g' rfl hp hr hstashing hanswered hdseq hstep
  have hfind := hP i r hr hstashing hanswered
  rw [hdseq] at hfind
  cases acts_of_step hstep with
  | client _ c hown hc hnone => exact absurd hp (by simp [hnone])
  | packet _ c p' hown hc hp' =>
    obtain rfl : p = p' := Option.some.inj (hp.symm.trans hp')
    rw [onPacket_client]
    simp only [onPacket, hfind]
    rfl

/-- **Requests that are forgotten.** In every state of a run all requests that have been stashed and
not been answered are in `pendingMap`, exactly when at each stash the producer's number is free and
the downstream number is new. In such a run every reply to a stashed request is passed on to the
producer that asked. -/
theorem remembers_iff (host : Endian) (es : List Event) (u : Gateway)
    (hrun : run (step host) start es = some u) :
    (EveryState (step host) start es Remembers ↔ EveryStep (step host) start es StashesFresh) ∧
      (EveryStep (step host) start es StashesFresh →
        EveryStep (step host) start es (PassesReply host)) := by
  have hiff : EveryState (step host) start es Remembers ↔
      EveryStep (step host) start es StashesFresh := by
    refine everyState_iff_everyStep (I := Consistent) ?_ Consistent.start ?_ ?_ hrun
    · intro i r hr
      exact absurd hr (by simp [start])
    · exact fun t e t' _ _ hI ht => hI.step ht
    · exact fun t e t' _ _ hI hP ht => remembers_step hI hP ht
  refine ⟨hiff, fun hC pre e post t hes ht => ?_⟩
  exact (hiff.mpr hC pre (e :: post) t hes ht).passesReply host e

/-- Two producers with different numbers, answered in the opposite order. -/
theorem remembers_iff_two_producers :
    EveryState (step .little) start (connects ++ sends 0 7 ++ [.stash 0] ++ sends 1 8 ++
      [.stash 1] ++ replies 2 ++ replies 1) Remembers :=
  (remembers_iff .little (connects ++ sends 0 7 ++ [.stash 0] ++ sends 1 8 ++ [.stash 1] ++
    replies 2 ++ replies 1) _ rfl).1.mpr (by decide)

/-- Two producers use the same number at the same time. The second has no entry, and the reply to it
is dropped. -/
theorem second_producer_forgotten :
    ∃ g u, run (step .little) start (connects ++ sends 0 7 ++ [.stash 0] ++ sends 1 7 ++
        [.stash 1]) = some g ∧ ¬ Remembers g ∧
      run (step .little) g (replies 2) = some u ∧ u.answers = [] ∧ u.stashing = [] := by
  refine ⟨_, _, rfl, fun hP => ?_, rfl, rfl, rfl⟩
  exact absurd (hP 1 ⟨1, ⟨0x02, 0x00, 7, []⟩, 2⟩ rfl (by decide) (by decide)) (by decide)

/-! ## Replies that come too early -/

/-- A packet under the number of the `i`-th request has been handled since it was sent. -/
def Replied (g : Gateway) (i : ℕ) (r : Forwarded) : Prop :=
  ∃ h ∈ g.handled, h.1.sequence = r.downstreamSeq ∧ i < h.2

/-- Every request to which a reply has been handled has had its callback called, and it has no entry
in `pendingMap`. -/
def Bookkeeping (g : Gateway) : Prop :=
  ∀ (i : ℕ) (r : Forwarded), g.forwarded[i]? = some r → g.Replied i r →
    i ∈ g.answered ∧ i ∉ g.entries

/-- A packet is handled only when the request whose number it has is not between `sendRequest` and
its stash. -/
def RepliesToStashed (g : Gateway) : Event → Prop
  | .client e => ∀ p ∈ g.client.incoming e, ∀ i ∈ g.stashing, ∀ r ∈ g.forwarded[i]?,
      r.downstreamSeq ≠ p.sequence
  | _ => True

instance (g : Gateway) : ∀ e : Event, Decidable (RepliesToStashed g e)
  | .client e => inferInstanceAs (Decidable (∀ p ∈ g.client.incoming e, ∀ i ∈ g.stashing,
      ∀ r ∈ g.forwarded[i]?, r.downstreamSeq ≠ p.sequence))
  | .request _ _ _ => isTrue trivial
  | .reorder _ => isTrue trivial
  | .stash _ => isTrue trivial

/-- The producers' numbers of the requests forwarded so far. -/
def producerSeqs (g : Gateway) : List UInt32 := g.forwarded.map fun r => r.request.sequence

/-- What has been forwarded stays. -/
theorem forwarded_prefix_of_step {host : Endian} {g g' : Gateway} {e : Event}
    (h : step host g e = some g') : g.forwarded <+: g'.forwarded := by
  cases acts_of_step h with
  | forward session p gap hid hlength => exact List.prefix_append _ _
  | packet e c p hown hc hp =>
    have hsame := onPacket_forwarded { g with client := c } p
    exact ⟨[], by rw [hsame, List.append_nil]⟩
  | _ => exact List.prefix_refl _

/-- What has been forwarded stays, in every run. -/
theorem forwarded_prefix_of_run {host : Endian} {g u : Gateway} {es : List Event}
    (h : run (step host) g es = some u) : g.forwarded <+: u.forwarded :=
  run_induction (P := fun t => g.forwarded <+: t.forwarded) (List.prefix_refl _)
    (fun _ _ _ hpre ht => hpre.trans (forwarded_prefix_of_step ht)) h

/-- Requests with distinct numbers have distinct downstream numbers, as there are at most 2^32. -/
theorem length_le_of_nodup {g : Gateway} (h : g.producerSeqs.Nodup) :
    g.forwarded.length ≤ 2 ^ 32 := by
  have hnodup : (g.producerSeqs.map UInt32.toNat).Nodup :=
    h.map fun a b hab => UInt32.toNat_inj.mp hab
  have hsub : g.producerSeqs.map UInt32.toNat ⊆ List.range (2 ^ 32) := by
    intro n hn
    obtain ⟨s, -, rfl⟩ := List.mem_map.mp hn
    exact List.mem_range.mpr s.toNat_lt
  have hle := (List.subperm_of_subset hnodup hsub).length_le
  simpa [producerSeqs] using hle

/-- Where all producers' numbers differ, a request is known by its number. -/
theorem producerSeq_inj {g : Gateway} (h : g.producerSeqs.Nodup) {i j : ℕ} {r r' : Forwarded}
    (hr : g.forwarded[i]? = some r) (hr' : g.forwarded[j]? = some r')
    (heq : r.request.sequence = r'.request.sequence) : i = j := by
  have hi := (List.getElem?_eq_some_iff.mp hr).1
  refine (List.getElem?_inj (by simpa [producerSeqs] using hi) h).mp ?_
  simp only [producerSeqs, List.getElem?_map, hr, hr', Option.map_some, heq]

/-- With distinct producers' numbers every stash is made under a free number. -/
theorem stashesFresh_of_nodup {g : Gateway} (h : Consistent g) (hseqs : g.producerSeqs.Nodup)
    {host : Endian} {g' : Gateway} {e : Event} (hstep : step host g e = some g') :
    StashesFresh g e := by
  cases acts_of_step hstep with
  | stash i r hi hr =>
    intro r' hr'
    obtain rfl : r = r' := Option.some.inj (hr.symm.trans hr')
    have hother {e : UInt32 × Pending} (he : e ∈ g.pendingMap) :
        ∃ (j : ℕ) (r' : Forwarded), g.forwarded[j]? = some r' ∧ e = r'.entry j ∧ j ≠ i := by
      obtain ⟨j, r', hr', rfl⟩ := h.entry e he
      refine ⟨j, r', hr', rfl, ?_⟩
      rintro rfl
      exact (h.not_mem_of_entries (List.mem_map_of_mem he)).1 hi
    constructor
    · intro hmem
      obtain ⟨e, he, heq⟩ := List.mem_map.mp hmem
      obtain ⟨j, r', hr', rfl, hne⟩ := hother he
      exact hne (producerSeq_inj hseqs hr' hr heq)
    · intro hmem
      obtain ⟨e, he, heq⟩ := List.mem_map.mp hmem
      obtain ⟨j, r', hr', rfl, hne⟩ := hother he
      exact hne (h.index_eq (length_le_of_nodup hseqs) hr' hr heq)
  | _ => exact trivial

/-- A request that has been answered is not about to be stashed, and has no entry. -/
theorem Consistent.not_mem_of_answered {g : Gateway} (h : Consistent g) {i : ℕ}
    (hi : i ∈ g.answered) : i ∉ g.stashing ∧ i ∉ g.entries :=
  ⟨fun hs => (h.not_mem_of_stashing hs).2 hi, fun he => (h.not_mem_of_entries he).2 hi⟩

/-- What has been answered stays answered. -/
theorem onPacket_answered (g : Gateway) (p : Packet) : g.answered ⊆ (g.onPacket p).answered := by
  obtain ⟨-, heq⟩ | ⟨e, -, -, -, heq⟩ := onPacket_cases g p
  · rw [heq]
    exact List.Subset.refl _
  · rw [heq, answered, answered, List.map_append]
    exact List.subset_append_left _ _

/-- The books stay in order exactly when the packet is no reply to a request that is about to be
stashed. -/
theorem bookkeeping_onPacket {g : Gateway} {p : Packet} (h : Consistent g)
    (h' : ∀ i ∈ (g.onPacket p).answered,
      i ∉ (g.onPacket p).stashing ∧ i ∉ (g.onPacket p).entries)
    (hremembers : Remembers g) (hP : Bookkeeping g) :
    Bookkeeping (g.onPacket p) ↔
      ∀ i ∈ g.stashing, ∀ r ∈ g.forwarded[i]?, r.downstreamSeq ≠ p.sequence := by
  constructor
  · intro hP' i hi r hr heq
    have hreplied : (g.onPacket p).Replied i r := by
      refine ⟨(p, g.forwarded.length), ?_, heq.symm, h.stashing_lt i hi⟩
      rw [onPacket_handled]
      exact List.mem_append_right _ (List.mem_singleton_self _)
    have hanswered := (hP' i r (by rw [onPacket_forwarded]; exact hr) hreplied).1
    exact (h' i hanswered).1 (by rw [onPacket_stashing]; exact hi)
  · intro hC i r hr hreplied
    rw [onPacket_forwarded] at hr
    suffices hanswered : i ∈ (g.onPacket p).answered from
      ⟨hanswered, (h' i hanswered).2⟩
    obtain ⟨k, hk, hseq, hlt⟩ := hreplied
    rw [onPacket_handled] at hk
    rcases List.mem_append.mp hk with hold | hnew
    · exact onPacket_answered g p (hP i r hr ⟨k, hold, hseq, hlt⟩).1
    · obtain rfl := List.mem_singleton.mp hnew
      by_cases hanswered : i ∈ g.answered
      · exact onPacket_answered g p hanswered
      · have hstashed : i ∉ g.stashing := fun hi => hC i hi r hr hseq.symm
        have hfind := hremembers i r hr hstashed hanswered
        rw [← hseq] at hfind
        simp only [onPacket, hfind, answered, List.map_append, List.map_singleton]
        exact List.mem_append_right _ (List.mem_singleton_self _)

/-- The books stay in order exactly when the step handles no reply to a request that is about to be
stashed. -/
theorem bookkeeping_step {host : Endian} {g g' : Gateway} {e : Event} (h : Consistent g)
    (hremembers : Remembers g) (hP : Bookkeeping g) (hstep : step host g e = some g') :
    Bookkeeping g' ↔ RepliesToStashed g e := by
  have h' := h.step hstep
  cases acts_of_step hstep with
  | forward session p gap hid hlength =>
    refine iff_of_true (fun i r hr hreplied => ?_) trivial
    -- the new request is later than all packets
    obtain ⟨k, hk, hseq, hlt⟩ := hreplied
    rw [forward, List.getElem?_append_left (Nat.lt_of_lt_of_le hlt (h.handled_le k hk))] at hr
    exact hP i r hr ⟨k, hk, hseq, hlt⟩
  | echo session p gap hid => exact iff_of_true hP trivial
  | stash i r hi hr =>
    refine iff_of_true (fun j r' hr' hreplied => ?_) trivial
    have hanswered := (hP j r' hr' hreplied).1
    exact ⟨hanswered, (h'.not_mem_of_answered hanswered).2⟩
  | reorder m hm =>
    refine iff_of_true (fun i r hr hreplied => ?_) trivial
    have hanswered := (hP i r hr hreplied).1
    exact ⟨hanswered, (h'.not_mem_of_answered hanswered).2⟩
  | client e c hown hc hnone =>
    refine iff_of_true hP ?_
    simp [RepliesToStashed, hnone]
  | packet e c p hown hc hp =>
    rw [onPacket_client] at h' ⊢
    refine (bookkeeping_onPacket h (fun i hi => h'.not_mem_of_answered hi) hremembers hP).trans ?_
    simp [RepliesToStashed, hp]

/-- **Replies that come too early.** In a run in which all producers' numbers are distinct, every
request to which a reply has been handled has had its callback called and has left no entry behind,
exactly when no packet is handled while the request whose number it has is between `sendRequest` and
its stash. -/
theorem bookkeeping_iff (host : Endian) (es : List Event) (u : Gateway)
    (hrun : run (step host) start es = some u) (hseqs : u.producerSeqs.Nodup) :
    EveryState (step host) start es Bookkeeping ↔
      EveryStep (step host) start es RepliesToStashed := by
  have hnodup {t t' : Gateway} {e : Event} (ht : step host t e = some t')
      (hend : ∃ fs, run (step host) t' fs = some u) : t.producerSeqs.Nodup := by
    obtain ⟨fs, hfs⟩ := hend
    have hpre := (forwarded_prefix_of_step ht).trans (forwarded_prefix_of_run hfs)
    exact hseqs.sublist (hpre.sublist.map _)
  refine everyState_iff_everyStep (I := fun t => Consistent t ∧ Remembers t) ?_
    ⟨Consistent.start, ?_⟩ ?_ ?_ hrun
  · intro i r hr
    exact absurd hr (by simp [start])
  · intro i r hr
    exact absurd hr (by simp [start])
  · rintro t e t' - hend ⟨hI, hremembers⟩ ht
    exact ⟨hI.step ht,
      (remembers_step hI hremembers ht).mpr (stashesFresh_of_nodup hI (hnodup ht hend) ht)⟩
  · rintro t e t' - - ⟨hI, hremembers⟩ hP ht
    exact bookkeeping_step hI hremembers hP ht

/-- Two producers, the second of which is being stashed while the reply to the first is handled. -/
theorem bookkeeping_iff_interleaved :
    EveryState (step .little) start (connects ++ sends 0 7 ++ [.stash 0] ++ sends 1 8 ++
      replies 1 ++ [.stash 1] ++ replies 2) Bookkeeping :=
  (bookkeeping_iff .little (connects ++ sends 0 7 ++ [.stash 0] ++ sends 1 8 ++ replies 1 ++
    [.stash 1] ++ replies 2) _ rfl (by decide)).mpr (by decide)

/-- The reply is handled before the request has been stashed. It is dropped, and the entry that is
made afterwards stays. -/
theorem reply_outruns_stash :
    ∃ u, run (step .little) start (connects ++ sends 0 7 ++ replies 1 ++ [.stash 0]) = some u ∧
      u.producerSeqs.Nodup ∧ ¬ Bookkeeping u ∧ u.answers = [] ∧ u.entries = [0] := by
  refine ⟨_, rfl, by decide, fun hP => ?_, rfl, rfl⟩
  have hreplied := hP 0 ⟨0, ⟨0x02, 0x00, 7, []⟩, 1⟩ rfl
    ⟨(⟨0x82, 0x00, 1, []⟩, 1), by decide, by decide, by decide⟩
  exact absurd hreplied.1 (by decide)

end Gateway

end TurboNet
