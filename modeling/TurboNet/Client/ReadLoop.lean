import TurboNet.Client.Client

/-!
# The client's read loop

Reference: `turbonet_client.cpp`, `doReadHeader`, `onReadHeader`, `doReadBody`, `onReadBody`.

`Client.loop` feeds a byte stream to the reads of the client, each of which returns exactly the
bytes asked for. Unlike the session of the server, the client skips a header whose declared total
length is below the size of a header and reads the next one.
-/

namespace TurboNet

open Common

/-- `onReadHeader` keeps the fields of the header it has received. -/
def Receiver.loadHeader (r : Receiver) (bs : List UInt8) : Receiver :=
  { r with
    headerBuf := bs
    lastPacketId := bs.getD 4 0
    lastStatus := bs.getD 5 0
    lastSequence := ofBytesBE ((bs.drop 6).take 4) }

namespace Client

/-! ## One completion -/

/-- The receive side after a header: a body read if the declared total covers the header, else a
read of the next header. -/
theorem readDone_header_rx (cfg : ClientConfig) (c : Client) {bs : List UInt8}
    (hbs : bs.length = 10) :
    (c.readDone cfg .header bs).rx =
      if 10 ≤ (headerTotal bs).toNat then
        { c.rx.loadHeader bs with
          reading := some (.body (headerTotal bs - 10).toNat)
          bodyReads := c.rx.bodyReads ++ [(headerTotal bs, (headerTotal bs - 10).toNat)] }
      else { c.rx.loadHeader bs with reading := some .header } := by
  simp only [readDone, onReadHeader, Bool.false_eq_true, ↓reduceIte,
    fromBigEndian_total cfg.host hbs, fromBigEndian_sequence cfg.host hbs]
  split <;> rfl

/-- The receive side after a body, while the client has not been closed. -/
theorem readDone_body_rx (cfg : ClientConfig) {c : Client} (hrun : c.running = true) (n : ℕ)
    (bs : List UInt8) :
    (c.readDone cfg (.body n) bs).rx =
      { c.rx with
        bodyBuf := bs
        reading := some .header
        handed := c.rx.handed ++
          [⟨c.rx.lastPacketId, c.rx.lastStatus, c.rx.lastSequence, bs⟩] } := by
  simp only [readDone, onReadBody, Bool.false_eq_true, ↓reduceIte]
  split
  · rfl
  · rename_i hstop
    exact absurd hrun hstop

/-- After a body the client reads a header, or nothing. -/
theorem readDone_body_reading (cfg : ClientConfig) (c : Client) (n : ℕ) (bs : List UInt8) :
    (c.readDone cfg (.body n) bs).rx.reading = none ∨
      (c.readDone cfg (.body n) bs).rx.reading = some .header := by
  simp only [readDone, onReadBody, Bool.false_eq_true, ↓reduceIte]
  split
  · exact .inr rfl
  · exact .inl rfl

/-- A connection that has been made starts the loop. -/
theorem onConnect_rx (cfg : ClientConfig) (c : Client) :
    (c.onConnect cfg false).rx = { c.rx with reading := some .header } ∧
      (c.onConnect cfg false).running = c.running := by
  cases hid : cfg.clientId.isEmpty <;>
    simp only [onConnect, hid, Bool.false_eq_true, ↓reduceIte] <;>
    exact ⟨rfl, rfl⟩

/-! ## The loop -/

/-- The read loop: a body read of no bytes is followed by a header read, or by none. -/
def reader (cfg : ClientConfig) : ExactReader Client UInt8 where
  want c := c.rx.reading.map ReadOp.size
  deliver c bs := match c.rx.reading with
    | some op => c.readDone cfg op bs
    | none => c
  rank c := match c.rx.reading with
    | some (.body _) => 1
    | _ => 0
  bound := 1
  rank_le c := by
    rcases c.rx.reading with _ | op
    · exact Nat.zero_le 1
    · cases op with
      | header => exact Nat.zero_le 1
      | body n => exact Nat.le_refl 1
  rank_lt c hw := by
    cases hr : c.rx.reading with
    | none => simp [hr] at hw
    | some op =>
      cases op with
      | header => simp [hr, ReadOp.size] at hw
      | body n =>
        rcases readDone_body_reading cfg c n [] with hnext | hnext <;>
          simp only [hnext] <;> omega

/-- The loop asks for what the outstanding read asks for. -/
theorem reader_want {cfg : ClientConfig} {c : Client} {op : ReadOp}
    (hop : c.rx.reading = some op) : (reader cfg).want c = some op.size := by
  simp only [reader, hop, Option.map_some]

/-- What it gets goes to the handler of the read. -/
theorem reader_deliver {cfg : ClientConfig} {c : Client} {op : ReadOp}
    (hop : c.rx.reading = some op) (bs : List UInt8) :
    (reader cfg).deliver c bs = c.readDone cfg op bs := by
  simp only [reader, hop]

/-- Feed a byte stream to the read loop until the outstanding read asks for more than remains. -/
def loop (cfg : ClientConfig) (c : Client) (stream : List UInt8) : Client × List UInt8 :=
  (reader cfg).drain c stream

/-- Outside a sweep the read loop is a run of the client in which nothing but its reads
completes. -/
theorem run_loop (cfg : ClientConfig) {c : Client} (hc : c.responses.sweeping = none)
    (stream : List UInt8) :
    ∃ bss : List (List UInt8), run (step cfg) c (bss.map .readDone) = some (c.loop cfg stream).1 ∧
      bss.flatten ++ (c.loop cfg stream).2 = stream ∧
      (reader cfg).Blocked (c.loop cfg stream).1 (c.loop cfg stream).2 := by
  obtain ⟨bss, hrun, hcat, hblocked⟩ := (reader cfg).run_drain c stream
  refine ⟨bss, ?_, hcat, hblocked⟩
  have hstep {t t' : Client} {bs : List UInt8} (ht : (reader cfg).step t bs = some t') :
      ∃ op, t.rx.reading = some op ∧ op.size = bs.length ∧ t.readDone cfg op bs = t' := by
    obtain ⟨hw, rfl⟩ := ExactReader.step_eq_some.mp ht
    obtain ⟨op, hop, hsize⟩ := Option.map_eq_some_iff.mp hw
    exact ⟨op, hop, hsize, (reader_deliver hop bs).symm⟩
  refine run_map (I := fun t => t.responses.sweeping = none) hc ?_ ?_ hrun
  · intro t bs t' hI ht
    obtain ⟨op, -, -, rfl⟩ := hstep ht
    rw [(readDone_sameCore cfg t op bs).responses, hI]
  · intro t bs t' hI ht
    obtain ⟨op, hop, hsize, rfl⟩ := hstep ht
    simp [step, onStrand, hI, hop, hsize]

/-- Header and body of one frame. -/
def handleFrame (cfg : ClientConfig) (c : Client) (f : Frame) : Client :=
  (c.readDone cfg .header f.header).readDone cfg (.body f.body.length) f.body

/-- A frame does not stop the client. -/
theorem handleFrame_running (cfg : ClientConfig) (c : Client) (f : Frame) :
    (c.handleFrame cfg f).running = c.running := by
  rw [handleFrame, (readDone_flags ..).1, (readDone_flags ..).1]

/-- The receive side after a frame whose declared total covers its header: `onReadBody` has seen
exactly the fields of the frame and its body. -/
theorem handleFrame_rx (cfg : ClientConfig) {c : Client} (hrun : c.running = true) {f : Frame}
    (hf : 10 ≤ (headerTotal f.header).toNat) :
    (c.handleFrame cfg f).rx =
      { c.rx.loadHeader f.header with
        bodyBuf := f.body
        reading := some .header
        handed := c.rx.handed ++ [f.packet]
        bodyReads := c.rx.bodyReads ++ [(headerTotal f.header, f.body.length)] } := by
  have hrun' : (c.readDone cfg .header f.header).running = true := by
    rw [(readDone_flags ..).1, hrun]
  rw [handleFrame, readDone_body_rx cfg hrun', readDone_header_rx cfg c f.header_length, if_pos hf,
    ← f.body_length]
  rfl

/-- A loop that waits for a header takes a whole frame. -/
theorem loop_frame (cfg : ClientConfig) {c : Client} (hc : c.rx.reading = some .header) {f : Frame}
    (hf : 10 ≤ (headerTotal f.header).toNat) (rest : List UInt8) :
    c.loop cfg (f.bytes ++ rest) = (c.handleFrame cfg f).loop cfg rest := by
  have hbody : (c.readDone cfg .header f.header).rx.reading = some (.body f.body.length) := by
    rw [readDone_header_rx cfg c f.header_length, if_pos hf, f.body_length]
  rw [loop, Frame.bytes, ExactReader.drain_append_append, reader_deliver hc, reader_deliver hbody]
  · rfl
  · rw [reader_want hc, f.header_length]
    rfl
  · rw [reader_deliver hc, reader_want hbody]
    rfl

/-- A loop that waits for a header takes whole frames one after another and stops at the next
header boundary. -/
theorem loop_frames (cfg : ClientConfig) {c : Client} (hrun : c.running = true)
    (hc : c.rx.reading = some .header) {fs : List Frame}
    (hfs : ∀ f ∈ fs, 10 ≤ (headerTotal f.header).toNat) :
    (c.loop cfg (fs.flatMap Frame.bytes)).1.rx.handed = c.rx.handed ++ fs.map Frame.packet ∧
      (c.loop cfg (fs.flatMap Frame.bytes)).1.rx.reading = some .header ∧
      (c.loop cfg (fs.flatMap Frame.bytes)).2 = [] := by
  induction fs generalizing c with
  | nil =>
    have hwait : c.loop cfg [] = (c, []) :=
      ExactReader.drain_of_lt (reader_want hc) (by simp [ReadOp.size])
    simp [hwait, hc]
  | cons f fs ih =>
    obtain ⟨hf, hfs⟩ := List.forall_mem_cons.mp hfs
    have hrx := handleFrame_rx cfg hrun hf
    obtain ⟨hhanded, hreading, hrest⟩ :=
      ih ((handleFrame_running cfg c f).trans hrun) (by rw [hrx]) hfs
    rw [List.flatMap_cons, loop_frame cfg hc hf]
    refine ⟨?_, hreading, hrest⟩
    rw [hhanded, hrx, List.map_cons, ← List.append_cons]

/-! ## The packets handed to the application -/

/-- The packets with which `onPacket_` has been called. -/
def packets (c : Client) : List Packet :=
  c.calls.filterMap fun k => match k with
    | .packet p => some p
    | _ => none

/-- The packet whose body the event completes. -/
def incoming (c : Client) : Event → Option Packet
  | .readDone bs =>
    match c.rx.reading with
    | some (.body _) => some ⟨c.rx.lastPacketId, c.rx.lastStatus, c.rx.lastSequence, bs⟩
    | _ => none
  | _ => none

/-- With a packet handler, every packet whose body has been read is handed over, and nothing
else. -/
theorem packets_step {cfg : ClientConfig} {c c' : Client} {e : Event} (hset : cfg.onPacket = true)
    (h : step cfg c e = some c') : c'.packets = c.packets ++ (c.incoming e).toList := by
  rw [packets, calls_step h, List.filterMap_append]
  refine congrArg (c.packets ++ ·) ?_
  cases e with
  | readDone bs =>
    rcases hop : c.rx.reading with _ | _ | n
    · simp only [newCalls, incoming, hop]
      rfl
    · simp only [newCalls, incoming, hop]
      rfl
    · simp only [newCalls, incoming, hop, List.filterMap_append, hset]
      split <;> rfl
  | timerDue t =>
    cases t with
    | response =>
      simp only [newCalls]
      split <;> simp [incoming, List.filterMap_map]
    | _ => rfl
  | close =>
    simp only [newCalls]
    split <;> rfl
  | connectDone ec =>
    simp only [newCalls]
    split <;> rfl
  | _ => rfl

end Client

end TurboNet
