import TurboNet.Client.ReadLoop

/-!
# The rounds of the client's read loop

Reference: `turbonet_client.cpp`, `doReadHeader`, `onReadHeader`, `doReadBody`, `onReadBody`,
`sendPacket`.

A round goes from one header read to the next. `Performs` says what a round is in terms of the
reads of the loop alone; that a round which delivers a packet has consumed the frame `sendPacket`
builds for it, and every other one a header with a length field below 10, is `Performs.accounted`.
The loop is a sequence of rounds on any stream, not only on one that a peer has built
(`loop_rounds`).
-/

namespace TurboNet

open Common

namespace Client

/-- A round of the loop: the bytes of each of its reads and the packets it handed to
`onPacket_`. -/
structure Round where
  reads : List (List UInt8)
  delivered : List Packet
deriving DecidableEq, Repr

/-- The bytes the round has consumed. -/
def Round.bytes (r : Round) : List UInt8 := r.reads.flatten

/-- The round delivered one packet and consumed its frame, or it delivered nothing and consumed a
header whose length field is below 10. -/
def Round.Accounted (host : Endian) (r : Round) : Prop :=
  (∃ p : Packet, r.delivered = [p] ∧ r.bytes = sendPacketFrame host p) ∨
    (r.delivered = [] ∧ r.bytes.length = 10 ∧ (fromBigEndian host r.bytes 0).toNat < 10)

/-- The reads of the round lead from a header read to the next one. -/
structure Performs (cfg : ClientConfig) (c : Client) (r : Round) (c' : Client) : Prop where
  start : c.rx.reading = some .header
  reads : run (reader cfg).step c r.reads = some c'
  stop : c'.rx.reading = some .header
  nonempty : r.reads ≠ []
  inside : ∀ front back d, r.reads = front ++ back → front ≠ [] → back ≠ [] →
    run (reader cfg).step c front = some d → d.rx.reading ≠ some .header
  delivered : c'.packets = c.packets ++ r.delivered

/-- Rounds one after another. -/
inductive Rounds (cfg : ClientConfig) : Client → List Round → Client → Prop
  | nil (c : Client) : Rounds cfg c [] c
  | cons {c d c' : Client} {r : Round} {rs : List Round} :
      Performs cfg c r d → Rounds cfg d rs c' → Rounds cfg c (r :: rs) c'

/-! ## One completion, once more -/

/-- A header hands on nothing. -/
theorem readDone_header_packets (cfg : ClientConfig) (c : Client) (bs : List UInt8) :
    (c.readDone cfg .header bs).packets = c.packets := by
  rw [packets, readDone, onReadHeader_calls]
  rfl

/-- A body hands on its packet. -/
theorem readDone_body_packets {cfg : ClientConfig} (hset : cfg.onPacket = true) (c : Client) (n : ℕ)
    (bs : List UInt8) :
    (c.readDone cfg (.body n) bs).packets =
      c.packets ++ [⟨c.rx.lastPacketId, c.rx.lastStatus, c.rx.lastSequence, bs⟩] := by
  rw [packets, readDone, onReadBody_calls, if_neg (by simp), List.filterMap_append, hset]
  refine congrArg (c.packets ++ ·) ?_
  rw [List.filterMap_append]
  split <;> rfl

/-- A step of the loop is a completed read of the size asked for. -/
theorem step_reader {cfg : ClientConfig} {c d : Client} {op : ReadOp} {bs : List UInt8}
    (hop : c.rx.reading = some op) :
    (reader cfg).step c bs = some d ↔ bs.length = op.size ∧ d = c.readDone cfg op bs := by
  rw [ExactReader.step_eq_some, reader_want hop, reader_deliver hop, Option.some.injEq, eq_comm,
    eq_comm (a := d)]

/-! ## What a round is -/

/-- A header whose declared total is below 10 makes a round of its own. -/
theorem performs_skip (cfg : ClientConfig) {c : Client} (hc : c.rx.reading = some .header)
    {h : List UInt8} (hh : h.length = 10) (hlt : (headerTotal h).toNat < 10) :
    Performs cfg c ⟨[h], []⟩ (c.readDone cfg .header h) where
  start := hc
  reads := run_cons_eq_some.mpr ⟨_, (step_reader hc).mpr ⟨hh, rfl⟩, rfl⟩
  stop := by rw [readDone_header_rx cfg c hh, if_neg (by omega)]
  nonempty := List.cons_ne_nil h []
  inside := by
    intro front back d hsplit hfront hback
    have hlength := congrArg List.length hsplit
    rw [List.length_append, List.length_singleton] at hlength
    have hf := List.length_pos_iff.mpr hfront
    have hb := List.length_pos_iff.mpr hback
    omega
  delivered := by rw [readDone_header_packets, List.append_nil]

/-- After a header the client reads the body that it declares. -/
theorem readDone_header_reading (cfg : ClientConfig) (c : Client) {f : Frame}
    (hf : 10 ≤ (headerTotal f.header).toNat) :
    (c.readDone cfg .header f.header).rx.reading = some (.body f.body.length) := by
  rw [readDone_header_rx cfg c f.header_length, if_pos hf, f.body_length]

/-- A frame hands on its packet. -/
theorem handleFrame_packets {cfg : ClientConfig} (hset : cfg.onPacket = true) (c : Client)
    {f : Frame} (hf : 10 ≤ (headerTotal f.header).toNat) :
    (c.handleFrame cfg f).packets = c.packets ++ [f.packet] := by
  rw [handleFrame, readDone_body_packets hset, readDone_header_packets,
    readDone_header_rx cfg c f.header_length, if_pos hf]
  rfl

/-- The reads of a header and of the body it announces make a round. -/
theorem performs_frame {cfg : ClientConfig} (hset : cfg.onPacket = true) {c : Client}
    (hrun : c.running = true) (hc : c.rx.reading = some .header) {f : Frame}
    (hf : 10 ≤ (headerTotal f.header).toNat) :
    Performs cfg c ⟨[f.header, f.body], [f.packet]⟩ (c.handleFrame cfg f) where
  start := hc
  reads := by
    refine run_cons_eq_some.mpr ⟨_, (step_reader hc).mpr ⟨f.header_length, rfl⟩, ?_⟩
    have hbody := readDone_header_reading cfg c hf
    exact run_cons_eq_some.mpr ⟨_, (step_reader hbody).mpr ⟨rfl, rfl⟩, rfl⟩
  stop := by rw [handleFrame_rx cfg hrun hf]
  nonempty := List.cons_ne_nil _ _
  inside := by
    intro front back d hsplit hfront hback hd
    -- the only place inside the round is after its header
    obtain rfl : front = [f.header] := by
      match front, hfront, back, hback with
      | [_], _, _, _ =>
        rw [List.cons_append, List.cons.injEq] at hsplit
        rw [hsplit.1]
      | _ :: _ :: _, _, _ :: _, _ => simp at hsplit
    obtain ⟨d', hstep, hnil⟩ := run_cons_eq_some.mp hd
    obtain ⟨-, rfl⟩ := (step_reader hc).mp hstep
    obtain rfl := Option.some.inj hnil
    rw [readDone_header_reading cfg c hf]
    simp
  delivered := handleFrame_packets hset c hf

/-- Every round is one of these two. -/
theorem Performs.eq_skip_or_frame {cfg : ClientConfig} (hset : cfg.onPacket = true)
    {c c' : Client} {r : Round} (hrun : c.running = true) (hr : Performs cfg c r c') :
    (∃ h, h.length = 10 ∧ (headerTotal h).toNat < 10 ∧ r = ⟨[h], []⟩) ∨
      ∃ f : Frame, 10 ≤ (headerTotal f.header).toNat ∧
        r = ⟨[f.header, f.body], [f.packet]⟩ := by
  obtain ⟨reads, delivered⟩ := r
  obtain ⟨hstart, hreads, hstop, hne, hinside, hdelivered⟩ := hr
  dsimp only at hreads hne hinside hdelivered
  match reads, hne with
  | h :: rest, _ =>
    obtain ⟨d, hd, hrest⟩ := run_cons_eq_some.mp hreads
    obtain ⟨hh, hdone⟩ := (step_reader hstart).mp hd
    have hone : run (reader cfg).step c [h] = some d := run_cons_eq_some.mpr ⟨d, hd, rfl⟩
    by_cases hlt : (headerTotal h).toNat < 10
    · -- the loop is back at a header read, so the round has ended
      have hheader : d.rx.reading = some .header := by
        rw [hdone, readDone_header_rx cfg c hh, if_neg (by omega)]
      have hlast : rest = [] := by
        by_contra hne
        exact hinside [h] rest d rfl (List.cons_ne_nil h []) hne hone hheader
      subst hlast
      obtain rfl := Option.some.inj hrest
      rw [hdone, readDone_header_packets, List.self_eq_append_right] at hdelivered
      exact .inl ⟨h, hh, hlt, by rw [hdelivered]⟩
    · have hbody : d.rx.reading = some (.body (headerTotal h - 10).toNat) := by
        rw [hdone, readDone_header_rx cfg c hh, if_pos (by omega)]
      match rest with
      | [] =>
        obtain rfl := Option.some.inj hrest
        simp [hbody] at hstop
      | b :: more =>
        obtain ⟨d', hd', hmore⟩ := run_cons_eq_some.mp hrest
        obtain ⟨hb, hdone'⟩ := (step_reader hbody).mp hd'
        let f : Frame := ⟨h, b, hh, hb⟩
        have hf : 10 ≤ (headerTotal f.header).toNat := Nat.not_lt.mp hlt
        have hframe : d' = c.handleFrame cfg f := by
          rw [hdone', hdone, handleFrame, show f.body.length = (headerTotal h - 10).toNat from hb]
        have htwo : run (reader cfg).step c [h, b] = some d' :=
          run_cons_eq_some.mpr ⟨d, hd, run_cons_eq_some.mpr ⟨d', hd', rfl⟩⟩
        have hlast : more = [] := by
          by_contra hne
          refine hinside [h, b] more d' rfl (List.cons_ne_nil _ _) hne htwo ?_
          rw [hframe, handleFrame_rx cfg hrun hf]
        subst hlast
        obtain rfl := Option.some.inj hmore
        rw [hframe, handleFrame_packets hset c hf, List.append_cancel_left_eq] at hdelivered
        exact .inr ⟨f, hf, by rw [← hdelivered]⟩

/-- A round accounts for the bytes it has consumed. -/
theorem Performs.accounted {cfg : ClientConfig} (hset : cfg.onPacket = true) {c c' : Client}
    {r : Round} (hrun : c.running = true) (hr : Performs cfg c r c') :
    r.Accounted cfg.host ∧ 10 ≤ r.bytes.length := by
  obtain ⟨h, hh, hlt, rfl⟩ | ⟨f, hf, rfl⟩ := hr.eq_skip_or_frame hset hrun
  · have hbytes : Round.bytes ⟨[h], []⟩ = h := List.flatten_singleton
    refine ⟨.inr ⟨rfl, ?_, ?_⟩, ?_⟩
    · rw [hbytes, hh]
    · rw [hbytes, fromBigEndian_total cfg.host hh]
      exact hlt
    · rw [hbytes, hh]
  · have hbytes : Round.bytes ⟨[f.header, f.body], [f.packet]⟩ = f.bytes := by
      simp [Round.bytes, Frame.bytes]
    refine ⟨.inl ⟨f.packet, rfl, ?_⟩, ?_⟩
    · rw [hbytes, sendPacketFrame_eq, Frame.packet_wire hf]
    · rw [hbytes, Frame.bytes, List.length_append, f.header_length]
      omega

/-- A round does not stop the client. -/
theorem Performs.running {cfg : ClientConfig} {c c' : Client} {r : Round}
    (hr : Performs cfg c r c') : c'.running = c.running := by
  refine run_induction (P := fun d => d.running = c.running) rfl ?_ hr.reads
  intro d bs d' hd hstep
  obtain ⟨hw, rfl⟩ := ExactReader.step_eq_some.mp hstep
  obtain ⟨op, hop, -⟩ := Option.map_eq_some_iff.mp hw
  rw [reader_deliver hop, (readDone_flags ..).1, hd]

/-! ## The loop as a sequence of rounds -/

/-- Where the loop stands when it is blocked: at a header read that cannot be completed, or after
a header whose body cannot be. -/
def Waiting (cfg : ClientConfig) (c : Client) (tail : List UInt8) (last : Client × List UInt8) :
    Prop :=
  (last = (c, tail) ∧ tail.length < 10) ∨
    ∃ h n, h.length = 10 ∧ tail = h ++ last.2 ∧ last.1 = c.readDone cfg .header h ∧
      last.1.rx.reading = some (.body n) ∧ last.2.length < n

/-- With fewer bytes than a frame the loop waits. -/
theorem waiting_loop (cfg : ClientConfig) {c : Client} (hc : c.rx.reading = some .header)
    {h rest : List UInt8} (hh : h.length = 10) (htotal : 10 ≤ (headerTotal h).toNat)
    (hlt : rest.length < (headerTotal h - 10).toNat) :
    Waiting cfg c (h ++ rest) (c.loop cfg (h ++ rest)) := by
  have hbody : (c.readDone cfg .header h).rx.reading
      = some (.body (headerTotal h - 10).toNat) := by
    rw [readDone_header_rx cfg c hh, if_pos htotal]
  have hloop : c.loop cfg (h ++ rest) = (c.readDone cfg .header h, rest) := by
    rw [← reader_deliver hc]
    refine ExactReader.drain_append_of_lt ?_ ?_ hlt
    · rw [reader_want hc, hh]
      rfl
    · rw [reader_deliver hc, reader_want hbody]
      rfl
  rw [hloop]
  exact .inr ⟨h, _, hh, rfl, rfl, hbody, hlt⟩

/-- What a loop that is not blocked does next: a round, after which it goes on with the rest. -/
theorem loop_round {cfg : ClientConfig} (hset : cfg.onPacket = true) {c : Client}
    (hrun : c.running = true) (hc : c.rx.reading = some .header) (stream : List UInt8) :
    Waiting cfg c stream (c.loop cfg stream) ∨
      ∃ r d rest, Performs cfg c r d ∧ stream = r.bytes ++ rest ∧
        c.loop cfg stream = d.loop cfg rest := by
  by_cases hshort : stream.length < 10
  · exact .inl (.inl ⟨ExactReader.drain_of_lt (reader_want hc) hshort, hshort⟩)
  · obtain ⟨h, rest, hh, rfl⟩ : ∃ h rest, h.length = 10 ∧ stream = h ++ rest :=
      ⟨stream.take 10, stream.drop 10, List.length_take_of_le (by omega),
        (List.take_append_drop 10 stream).symm⟩
    by_cases hlt : (headerTotal h).toNat < 10
    · refine .inr ⟨_, _, rest, performs_skip cfg hc hh hlt, ?_, ?_⟩
      · rw [Round.bytes, List.flatten_singleton]
      · rw [loop, ExactReader.drain_append, reader_deliver hc, loop]
        rw [reader_want hc, hh]
        rfl
    · by_cases hbody : rest.length < (headerTotal h - 10).toNat
      · exact .inl (waiting_loop cfg hc hh (Nat.not_lt.mp hlt) hbody)
      · obtain ⟨b, rest, hb, rfl⟩ :
            ∃ b rest', b.length = (headerTotal h - 10).toNat ∧ rest = b ++ rest' :=
          ⟨rest.take _, rest.drop _, List.length_take_of_le (Nat.not_lt.mp hbody),
            (List.take_append_drop _ rest).symm⟩
        let f : Frame := ⟨h, b, hh, hb⟩
        have hf : 10 ≤ (headerTotal f.header).toNat := Nat.not_lt.mp hlt
        refine .inr ⟨_, _, rest, performs_frame hset hrun hc hf, ?_, ?_⟩
        · simp [Round.bytes, f]
        · rw [← List.append_assoc]
          exact loop_frame cfg hc hf rest

/-- The loop is a sequence of rounds, after which it waits. -/
theorem loop_rounds {cfg : ClientConfig} (hset : cfg.onPacket = true) {c : Client}
    (hrun : c.running = true) (hc : c.rx.reading = some .header) (stream : List UInt8) :
    ∃ rounds d tail, Rounds cfg c rounds d ∧ stream = rounds.flatMap Round.bytes ++ tail ∧
      Waiting cfg d tail (c.loop cfg stream) := by
  -- every round leaves a shorter stream
  induction hn : stream.length using Nat.strong_induction_on generalizing c stream with
  | _ n ih =>
    obtain hwait | ⟨r, d, rest, hr, rfl, hloop⟩ := loop_round hset hrun hc stream
    · exact ⟨[], c, stream, .nil c, rfl, hwait⟩
    · have hlength := (hr.accounted hset hrun).2
      obtain ⟨rounds, d', tail, hrounds, rfl, hwait⟩ :=
        ih rest.length (by rw [← hn, List.length_append]; omega)
          (hr.running.trans hrun) hr.stop rest rfl
      refine ⟨r :: rounds, d', tail, .cons hr hrounds, ?_, ?_⟩
      · rw [List.flatMap_cons, List.append_assoc]
      · rw [hloop]
        exact hwait

/-- Every round of a sequence accounts for its bytes. -/
theorem Rounds.accounted {cfg : ClientConfig} (hset : cfg.onPacket = true) {c d : Client}
    {rounds : List Round} (hrun : c.running = true) (h : Rounds cfg c rounds d) :
    ∀ r ∈ rounds, r.Accounted cfg.host ∧ 10 ≤ r.bytes.length := by
  induction h with
  | nil c => simp
  | cons hr hrs ih =>
    exact List.forall_mem_cons.mpr ⟨hr.accounted hset hrun, ih (hr.running.trans hrun)⟩

/-- The packets handed on are those of the rounds. -/
theorem Rounds.packets {cfg : ClientConfig} {c d : Client} {rounds : List Round}
    (h : Rounds cfg c rounds d) : d.packets = c.packets ++ rounds.flatMap Round.delivered := by
  induction h with
  | nil c => simp
  | cons hr hrs ih => rw [ih, hr.delivered, List.flatMap_cons, List.append_assoc]

/-- A loop that waits hands on nothing more. -/
theorem Waiting.packets {cfg : ClientConfig} {c : Client} {tail : List UInt8}
    {last : Client × List UInt8} (h : Waiting cfg c tail last) : last.1.packets = c.packets := by
  obtain ⟨rfl, -⟩ | ⟨h, n, -, -, hlast, -⟩ := h
  · rfl
  · rw [hlast, readDone_header_packets]

/-- Blocks of at least ten bytes are at most a tenth of the bytes in number. -/
theorem length_rounds_le {rounds : List Round} (h : ∀ r ∈ rounds, 10 ≤ r.bytes.length) :
    10 * rounds.length ≤ (rounds.flatMap Round.bytes).length := by
  induction rounds with
  | nil => simp
  | cons r rounds ih =>
    obtain ⟨hr, hrs⟩ := List.forall_mem_cons.mp h
    have := ih hrs
    rw [List.length_cons, List.flatMap_cons, List.length_append]
    omega

/-- On every stream, of any peer, the loop consumes one block after another, each of them the
frame of the packet it delivers or a header with a length field below 10, and then waits for more
than is left. -/
theorem loop_accounts_for_every_byte (cfg : ClientConfig) (hset : cfg.onPacket = true) (c : Client)
    (hrun : c.running = true) (hc : c.rx.reading = some .header) (stream : List UInt8) :
    ∃ rounds d tail, Rounds cfg c rounds d ∧ stream = rounds.flatMap Round.bytes ++ tail ∧
      Waiting cfg d tail (c.loop cfg stream) ∧
      (c.loop cfg stream).1.packets = c.packets ++ rounds.flatMap Round.delivered ∧
      (∀ r ∈ rounds, r.Accounted cfg.host ∧ 10 ≤ r.bytes.length) ∧
      rounds.length ≤ stream.length / 10 := by
  obtain ⟨rounds, d, tail, hrounds, hstream, hwait⟩ := loop_rounds hset hrun hc stream
  have haccounted := hrounds.accounted hset hrun
  refine ⟨rounds, d, tail, hrounds, hstream, hwait, ?_, haccounted, ?_⟩
  · rw [hwait.packets, hrounds.packets]
  · have hle := length_rounds_le fun r hr => (haccounted r hr).2
    rw [hstream, List.length_append]
    omega

/-- A stream of one skipped header, one frame without a body and three bytes of the next
header. -/
theorem loop_accounts_skip_frame :
    ∃ rounds d tail, Rounds { host := .little }
        { rx := { reading := some .header } } rounds d ∧
      [0, 0, 0, 9, 1, 2, 3, 4, 5, 6, 0, 0, 0, 10, 2, 0, 0, 0, 0, 7, 0, 0, 0]
        = rounds.flatMap Round.bytes ++ tail ∧ rounds.length ≤ 23 / 10 := by
  obtain ⟨rounds, d, tail, hrounds, hstream, -, -, -, hle⟩ :=
    loop_accounts_for_every_byte { host := .little } rfl
      { rx := { reading := some .header } } rfl rfl
      [0, 0, 0, 9, 1, 2, 3, 4, 5, 6, 0, 0, 0, 10, 2, 0, 0, 0, 0, 7, 0, 0, 0]
  exact ⟨rounds, d, tail, hrounds, hstream, hle⟩

end Client

end TurboNet
