import TurboNet.Common.ExactReader
import TurboNet.Asio.Packet

/-!
# The read loop of the asio programs

Reference: `claude/asio_server.cpp`, `Connection::readHeader`, `readPayload`, `processPacket`;
`claude/asio_client.cpp`, the same functions of `TcpClient`.

The two programs have the same read loop on the same members. Both call `processPacket` with the
header and the payload they hold when a packet is complete; here it is a record of its calls, and
what each program does with the packet is part of its own model.
-/

namespace TurboNet.Asio

open Common

/-- `MAX_BUFFER_SIZE` of the server, `DEFAULT_BUFFER_SIZE` of the client. -/
def bufferSize : ℕ := 16384

inductive ReadState where
  | header
  | payload
deriving DecidableEq, Repr

structure PacketReader where
  readState : ReadState := .header
  headerBytesRead : ℕ := 0
  payloadBytesRead : ℕ := 0
  currentPayloadSize : ℕ := 0
  currentHeader : PacketHeader := ⟨0, 0, 0, 0⟩
  currentPayload : List UInt8 := []
  headerBuffer : List UInt8 := List.replicate sizeofHeader 0
  /-- The outstanding `async_read`, of `readHeader` or of `readPayload`. -/
  reading : Option ReadState := none
  /-- `close` has been called because of an invalid length. -/
  closed : Bool := false
  /-- History: the packets `processPacket` has seen. -/
  processed : List Packet := []
deriving DecidableEq, Repr

namespace PacketReader

/-- `vector::resize`. -/
def resize (v : List UInt8) (n : ℕ) : List UInt8 := v.take n ++ List.replicate (n - v.length) 0

/-- `readHeader`. -/
def readHeader (r : PacketReader) : PacketReader := { r with reading := some .header }

/-- `readPayload`. -/
def readPayload (r : PacketReader) : PacketReader := { r with reading := some .payload }

/-- How many bytes the outstanding read asks for. -/
def wanted (r : PacketReader) : Option ℕ :=
  match r.reading with
  | some .header => some (sizeofHeader - r.headerBytesRead)
  | some .payload => some (r.currentPayloadSize - r.payloadBytesRead)
  | none => none

/-- `processPacket`, up to what it does with the packet. -/
def processPacket (r : PacketReader) : PacketReader :=
  { r with processed := r.processed ++ [⟨r.currentHeader, r.currentPayload⟩] }

/-- The end of a packet: process it, reset for the next header and read it. -/
def finishPacket (r : PacketReader) : PacketReader :=
  { r.processPacket with headerBytesRead := 0, readState := .header }.readHeader

/-- The handler of `readHeader`, for a read that put `bs` into the buffer. -/
def onReadHeader (host : Endian) (r : PacketReader) (bs : List UInt8) : PacketReader :=
  let r := { r with
    headerBuffer := memcpy r.headerBuffer r.headerBytesRead bs
    headerBytesRead := r.headerBytesRead + bs.length }
  if r.headerBytesRead = sizeofHeader then
    let r := { r with
      currentHeader := (PacketHeader.ofImage host r.headerBuffer).toHostByteOrder host }
    if r.currentHeader.length.toNat < sizeofHeader ∨ bufferSize < r.currentHeader.length.toNat then
      { r with closed := true }
    else
      let r := { r with currentPayloadSize := r.currentHeader.length.toNat - sizeofHeader }
      -- only this branch resizes the vector; without a payload it stays as it is
      if 0 < r.currentPayloadSize then
        { r with
          currentPayload := resize r.currentPayload r.currentPayloadSize
          payloadBytesRead := 0
          readState := .payload }.readPayload
      else r.finishPacket
  else r.readHeader

/-- The handler of `readPayload`, for a read that put `bs` into the vector. -/
def onReadPayload (r : PacketReader) (bs : List UInt8) : PacketReader :=
  let r := { r with
    currentPayload := memcpy r.currentPayload r.payloadBytesRead bs
    payloadBytesRead := r.payloadBytesRead + bs.length }
  if r.payloadBytesRead = r.currentPayloadSize then r.finishPacket else r.readPayload

/-- The outstanding read completes. -/
def onRead (host : Endian) (r : PacketReader) (bs : List UInt8) : PacketReader :=
  match r.reading with
  | some .header => { r with reading := none }.onReadHeader host bs
  | some .payload => { r with reading := none }.onReadPayload bs
  | none => r

/-- The reader when the connection has been made. -/
def start : PacketReader := ({} : PacketReader).readHeader

/-- The read loop. No reachable state asks for no bytes. -/
def reader (host : Endian) : ExactReader PacketReader UInt8 where
  want r := r.wanted.filter (0 < ·)
  deliver := onRead host
  rank _ := 0
  bound := 0
  rank_le _ := Nat.le_refl 0
  rank_lt r h := absurd (Option.mem_filter_iff.mp h).2 (by simp)

/-- Feed a byte stream to the read loop until the outstanding read asks for more than remains. -/
def loop (host : Endian) (r : PacketReader) (stream : List UInt8) : PacketReader × List UInt8 :=
  (reader host).drain r stream

/-! ## The next read -/

/-- The handler of a header begins the next read, unless the length is invalid. -/
theorem reading_of_onReadHeader {host : Endian} {r : PacketReader} {bs : List UInt8}
    (h : (r.onReadHeader host bs).closed = false) :
    (r.onReadHeader host bs).reading.isSome = true := by
  simp only [onReadHeader] at h ⊢
  split at h
  · split at h
    · exact absurd h (by simp)
    · rename_i hheader hlength
      rw [if_pos hheader, if_neg hlength]
      split <;> rfl
  · rename_i hheader
    rw [if_neg hheader]
    rfl

/-- After a payload another read is begun. -/
theorem reading_onReadPayload (r : PacketReader) (bs : List UInt8) :
    (r.onReadPayload bs).reading.isSome = true := by
  simp only [onReadPayload]
  split <;> rfl

/-! ## One packet -/

/-- The loop waits for a header, of which nothing has arrived. -/
structure AtHeader (r : PacketReader) : Prop where
  reading : r.reading = some .header
  headerBytesRead : r.headerBytesRead = 0
  headerBuffer : r.headerBuffer.length = sizeofHeader
  closed : r.closed = false

/-- A new reader waits for a header. -/
theorem AtHeader.start : AtHeader start := ⟨rfl, rfl, rfl, rfl⟩

/-- It asks for a whole one. -/
theorem AtHeader.want {r : PacketReader} (h : r.AtHeader) (host : Endian) :
    (reader host).want r = some sizeofHeader := by
  simp only [reader, wanted, h.reading, h.headerBytesRead]
  rfl

/-- A header overwrites the whole buffer. -/
theorem AtHeader.onRead {r : PacketReader} (h : r.AtHeader) (host : Endian) (padding : Padding)
    (header : PacketHeader) :
    r.onRead host (header.wire padding) =
      if header.length.toNat < sizeofHeader ∨ bufferSize < header.length.toNat then
        { r with
          headerBuffer := header.wire padding
          headerBytesRead := sizeofHeader
          currentHeader := header
          reading := none
          closed := true }
      else if 0 < header.length.toNat - sizeofHeader then
        { r with
          headerBuffer := header.wire padding
          headerBytesRead := sizeofHeader
          currentHeader := header
          currentPayloadSize := header.length.toNat - sizeofHeader
          currentPayload := resize r.currentPayload (header.length.toNat - sizeofHeader)
          payloadBytesRead := 0
          readState := .payload
          reading := some .payload }
      else
        { r with
          headerBuffer := header.wire padding
          headerBytesRead := 0
          currentHeader := header
          currentPayloadSize := header.length.toNat - sizeofHeader
          readState := .header
          reading := some .header
          processed := r.processed ++ [⟨header, r.currentPayload⟩] } := by
  -- the header fills the buffer, so nothing of the one before is left
  have hbuffer : memcpy r.headerBuffer 0 (header.wire padding) = header.wire padding := by
    rw [memcpy, PacketHeader.length_wire, Nat.zero_add, ← h.headerBuffer, List.drop_length]
    simp
  simp only [PacketReader.onRead, h.reading, onReadHeader, h.headerBytesRead, hbuffer,
    PacketHeader.length_wire, Nat.zero_add, ↓reduceIte, PacketHeader.ofImage_wire, finishPacket,
    processPacket, readHeader, readPayload]

/-- `resize` makes a vector of the length asked for. -/
theorem length_resize (v : List UInt8) (n : ℕ) : (resize v n).length = n := by
  rw [resize, List.length_append, List.length_take, List.length_replicate]
  omega

/-- What `processPacket` sees of a packet with this header and this body, if the vector holds `old`
from before. -/
def seen (old : List UInt8) (header : PacketHeader) (body : List UInt8) : Packet :=
  ⟨header, if body = [] then old else body⟩

/-- A loop that waits for a header takes a packet with a valid length. -/
theorem loop_packet (host : Endian) {r : PacketReader} (hr : r.AtHeader) (padding : Padding)
    {header : PacketHeader} {body : List UInt8} (rest : List UInt8)
    (hlength : header.length.toNat = sizeofHeader + body.length)
    (hbound : header.length.toNat ≤ bufferSize) :
    ∃ r' : PacketReader,
      r.loop host (header.wire padding ++ body ++ rest) = r'.loop host rest ∧ r'.AtHeader ∧
      r'.processed = r.processed ++ [seen r.currentPayload header body] ∧
      r'.currentPayload = (seen r.currentPayload header body).payload := by
  have hheader := hr.onRead host padding header
  rw [if_neg (by omega)] at hheader
  have hsize : header.length.toNat - sizeofHeader = body.length := by omega
  -- for a packet without a payload there is no second read, and the vector stays as it was
  by_cases hbody : body = []
  · obtain rfl := hbody
    rw [hsize, if_neg (by simp)] at hheader
    refine ⟨r.onRead host (header.wire padding), ?_, ?_, ?_, ?_⟩
    · rw [List.append_nil]
      exact ExactReader.drain_append (hr.want host)
    · rw [hheader]
      exact ⟨rfl, rfl, rfl, hr.closed⟩
    · rw [hheader]
      rfl
    · rw [hheader]
      rfl
  · have hpos : 0 < body.length := List.length_pos_iff.mpr hbody
    rw [hsize, if_pos hpos] at hheader
    have hpayload : memcpy (resize r.currentPayload body.length) 0 body = body := by
      rw [memcpy, Nat.zero_add, List.drop_of_length_le (by rw [length_resize])]
      simp
    refine ⟨(r.onRead host (header.wire padding)).onRead host body, ?_, ?_, ?_, ?_⟩
    · refine ExactReader.drain_append_append (hr.want host) ?_
      show ((r.onRead host (header.wire padding)).wanted.filter (0 < ·)) = _
      rw [hheader]
      simp [wanted, hpos]
    all_goals
      rw [hheader]
      simp only [PacketReader.onRead, onReadPayload, hpayload, Nat.zero_add, ↓reduceIte,
        finishPacket, processPacket, readHeader]
    · exact ⟨rfl, rfl, rfl, hr.closed⟩
    · rw [seen, if_neg hbody]
    · rw [seen, if_neg hbody]

/-- A loop that waits for a header closes on an invalid length. -/
theorem loop_invalid (host : Endian) {r : PacketReader} (hr : r.AtHeader) (padding : Padding)
    {header : PacketHeader} (rest : List UInt8) (hlength : header.length.toNat < sizeofHeader) :
    (r.loop host (header.wire padding ++ rest)).1.processed = r.processed := by
  have hheader := hr.onRead host padding header
  rw [if_pos (.inl hlength)] at hheader
  rw [loop, ExactReader.drain_append (hr.want host)]
  show ((reader host).drain (r.onRead host (header.wire padding)) rest).1.processed = _
  rw [hheader, ExactReader.drain_of_blocked]
  intro k hk
  exact absurd hk (by simp [reader, wanted])

/-- The record of processed packets only grows. -/
theorem processed_prefix_loop (host : Endian) (r : PacketReader) (stream : List UInt8) :
    r.processed <+: (r.loop host stream).1.processed := by
  refine ExactReader.drain_induction (P := fun t : PacketReader => r.processed <+: t.processed)
    (List.prefix_refl _) ?_ stream
  rintro t k bs ht - -
  refine ht.trans ?_
  show t.processed <+: (t.onRead host bs).processed
  simp only [PacketReader.onRead, onReadHeader, onReadPayload]
  repeat' split
  all_goals first | exact List.prefix_refl _ | exact List.prefix_append _ _

/-! ## A stream of packets -/

/-- The concatenated output of `serialize` for packets made by `createPacket`, each with the padding
it happens to have. -/
def stream (sender : Endian) (items : List (TurboNet.Packet × Padding)) : List UInt8 :=
  items.flatMap fun x => (createPacket x.1).serialize sender x.2

/-- `processPacket` sees exactly the packets, and the loop ends at a header boundary with every byte
consumed. -/
def RoundTrip (sender receiver : Endian) (items : List (TurboNet.Packet × Padding)) : Prop :=
  (start.loop receiver (stream sender items)).1.processed = items.map (fun x => createPacket x.1) ∧
    (start.loop receiver (stream sender items)).1.AtHeader ∧
    (start.loop receiver (stream sender items)).2 = []

/-- No length is truncated, and no packet without a payload comes after one with a payload. -/
def Clean (items : List (TurboNet.Packet × Padding)) : Prop :=
  (∀ x ∈ items, sizeofHeader + x.1.payload.length < 2 ^ 32) ∧
    items.Pairwise fun x y => y.1.payload = [] → x.1.payload = []

instance (items : List (TurboNet.Packet × Padding)) : Decidable (Clean items) :=
  inferInstanceAs (Decidable (_ ∧ _))

/-- The first packet comes first in the stream. -/
theorem stream_cons (sender : Endian) (x : TurboNet.Packet × Padding)
    (items : List (TurboNet.Packet × Padding)) :
    stream sender (x :: items) =
      (createPacket x.1).header.wire x.2 ++ x.1.payload ++ stream sender items := by
  rw [stream, List.flatMap_cons, Packet.serialize_eq]
  rfl

/-- The length field wraps at 2^32. -/
theorem toNat_createPacket_length (p : TurboNet.Packet) :
    (createPacket p).header.length.toNat = (sizeofHeader + p.payload.length) % 2 ^ 32 :=
  UInt32.toNat_ofNat'

/-- Once a packet has been seen as `y`, it stays the one that was seen. -/
theorem seen_eq_of_processed {host : Endian} {r r' : PacketReader} {rest : List UInt8}
    {y p : Packet} {ps : List Packet} (hr' : r'.processed = r.processed ++ [y])
    (heq : (r'.loop host rest).1.processed = r.processed ++ p :: ps) : y = p := by
  have hinitial := processed_prefix_loop host r' rest
  rw [hr', heq, List.prefix_append_right_inj, List.cons_prefix_cons] at hinitial
  exact hinitial.1

/-- A packet whose length was truncated is not seen as it is. -/
theorem not_loop_truncated (host sender : Endian) {r : PacketReader} (hr : r.AtHeader)
    (hold : r.currentPayload.length ≤ bufferSize) (x : TurboNet.Packet × Padding)
    (items : List (TurboNet.Packet × Padding))
    (hbound : (createPacket x.1).header.length.toNat ≤ bufferSize)
    (htruncated : 2 ^ 32 ≤ sizeofHeader + x.1.payload.length) :
    (r.loop host (stream sender (x :: items))).1.processed ≠
      r.processed ++ (x :: items).map fun x => createPacket x.1 := by
  intro heq
  have hlong : bufferSize < x.1.payload.length := by
    simp only [bufferSize, sizeofHeader] at htruncated ⊢
    omega
  rw [stream_cons, List.map_cons] at heq
  by_cases hvalid : (createPacket x.1).header.length.toNat < sizeofHeader
  · rw [List.append_assoc, loop_invalid host hr x.2 _ hvalid] at heq
    exact absurd (congrArg List.length heq) (by simp)
  · -- the packet that is seen has the short payload that the truncated length announces
    obtain ⟨n, hn⟩ := Nat.exists_eq_add_of_le (Nat.not_lt.mp hvalid)
    have hcut : (x.1.payload.take n).length = n := List.length_take_of_le (by omega)
    have hlength : (createPacket x.1).header.length.toNat =
        sizeofHeader + (x.1.payload.take n).length := by rw [hcut, hn]
    obtain ⟨r', hloop, -, hprocessed, -⟩ :=
      loop_packet host hr x.2 (x.1.payload.drop n ++ stream sender items) hlength hbound
    rw [← List.append_assoc, List.append_assoc _ (x.1.payload.take n),
      List.take_append_drop] at hloop
    rw [hloop] at heq
    have hseen := congrArg (fun p : Packet => p.payload.length)
      (seen_eq_of_processed hprocessed heq)
    simp only [seen, createPacket] at hseen
    split at hseen <;> omega

/-- A packet is seen as it is unless it is empty and the vector is not. -/
theorem seen_createPacket {old : List UInt8} {p : TurboNet.Packet} :
    seen old (createPacket p).header p.payload = createPacket p ↔ (p.payload = [] → old = []) := by
  by_cases hnil : p.payload = []
  · simp [seen, createPacket, hnil]
  · simp [seen, createPacket, hnil]

/-- The condition, packet by packet. -/
theorem clean_cons {x : TurboNet.Packet × Padding} {items : List (TurboNet.Packet × Padding)} :
    Clean (x :: items) ↔ sizeofHeader + x.1.payload.length < 2 ^ 32 ∧
      (∀ y ∈ items, y.1.payload = [] → x.1.payload = []) ∧ Clean items := by
  rw [Clean, List.forall_mem_cons, List.pairwise_cons, Clean]
  tauto

/-- From a header boundary, with whatever is in the payload vector. -/
theorem loop_stream_iff (host sender : Endian) {r : PacketReader} (hr : r.AtHeader)
    (hold : r.currentPayload.length ≤ bufferSize) (items : List (TurboNet.Packet × Padding))
    (hbound : ∀ x ∈ items, (createPacket x.1).header.length.toNat ≤ bufferSize) :
    (r.loop host (stream sender items)).1.processed =
        r.processed ++ items.map (fun x => createPacket x.1) ↔
      Clean items ∧ (∀ x ∈ items, x.1.payload = [] → r.currentPayload = []) := by
  induction items generalizing r with
  | nil =>
    have hwait : r.loop host [] = (r, []) :=
      ExactReader.drain_of_lt (hr.want host) (by decide)
    simp [stream, hwait, Clean]
  | cons x items ih =>
    obtain ⟨hx, hitems⟩ := List.forall_mem_cons.mp hbound
    -- a length that has wrapped takes the reader out of step for good
    by_cases htruncated : 2 ^ 32 ≤ sizeofHeader + x.1.payload.length
    · refine iff_of_false (not_loop_truncated host sender hr hold x items hx htruncated) ?_
      rintro ⟨⟨hfits, -⟩, -⟩
      exact absurd (hfits x List.mem_cons_self) (by omega)
    · have hlength : (createPacket x.1).header.length.toNat =
          sizeofHeader + x.1.payload.length := by
        rw [toNat_createPacket_length, Nat.mod_eq_of_lt (by omega)]
      obtain ⟨r', hloop, hr', hprocessed, hpayload⟩ :=
        loop_packet host hr x.2 (stream sender items) hlength hx
      rw [stream_cons, hloop, List.map_cons]
      -- a packet without a payload is seen with what the vector holds from before
      by_cases hstale : x.1.payload = [] → r.currentPayload = []
      · have hsame := seen_createPacket.mpr hstale
        rw [hsame] at hprocessed hpayload
        have hold' : r'.currentPayload.length ≤ bufferSize := by
          rw [hpayload]
          exact Nat.le_trans (Nat.le_add_left _ sizeofHeader) (hlength ▸ hx)
        have hrest := ih hr' hold' hitems
        rw [hprocessed, hpayload, List.append_assoc, List.singleton_append] at hrest
        rw [hrest, clean_cons]
        constructor
        · rintro ⟨hclean, hempty⟩
          refine ⟨⟨by omega, hempty, hclean⟩, List.forall_mem_cons.mpr ⟨hstale, ?_⟩⟩
          exact fun y hy hnil => hstale (hempty y hy hnil)
        · rintro ⟨⟨-, hempty, hclean⟩, -⟩
          exact ⟨hclean, hempty⟩
      · refine iff_of_false (fun heq => ?_) fun h => hstale (h.2 x List.mem_cons_self)
        exact hstale (seen_createPacket.mp (seen_eq_of_processed hprocessed heq))

/-- If all lengths fit, the loop ends at a header boundary. -/
theorem loop_stream_atHeader (host sender : Endian) {r : PacketReader} (hr : r.AtHeader)
    (items : List (TurboNet.Packet × Padding))
    (hbound : ∀ x ∈ items, (createPacket x.1).header.length.toNat ≤ bufferSize)
    (hfits : ∀ x ∈ items, sizeofHeader + x.1.payload.length < 2 ^ 32) :
    (r.loop host (stream sender items)).1.AtHeader ∧
      (r.loop host (stream sender items)).2 = [] := by
  induction items generalizing r with
  | nil =>
    have hwait : r.loop host [] = (r, []) :=
      ExactReader.drain_of_lt (hr.want host) (by decide)
    rw [stream, List.flatMap_nil, hwait]
    exact ⟨hr, rfl⟩
  | cons x items ih =>
    obtain ⟨hx, hitems⟩ := List.forall_mem_cons.mp hbound
    obtain ⟨hfit, hfits⟩ := List.forall_mem_cons.mp hfits
    have hlength : (createPacket x.1).header.length.toNat = sizeofHeader + x.1.payload.length := by
      rw [toNat_createPacket_length, Nat.mod_eq_of_lt hfit]
    obtain ⟨r', hloop, hr', -, -⟩ := loop_packet host hr x.2 (stream sender items) hlength hx
    rw [stream_cons, hloop]
    exact ih hr' hitems hfits

/-- **Packet stream round trip.** For every list of packets made by `createPacket` whose headers
announce at most 16384 bytes, on hosts of either byte order and with any padding, the read loop sees
exactly that list and ends at a header boundary, exactly when no length is truncated to 32 bits and
no packet without a payload comes after one with a payload. -/
theorem roundTrip_iff (sender receiver : Endian) (items : List (TurboNet.Packet × Padding))
    (hbound : ∀ x ∈ items, (createPacket x.1).header.length.toNat ≤ bufferSize) :
    RoundTrip sender receiver items ↔ Clean items := by
  have hiff := loop_stream_iff receiver sender AtHeader.start (Nat.zero_le _) items hbound
  have hstart : Clean items ∧ (∀ x ∈ items, x.1.payload = [] → start.currentPayload = []) ↔
      Clean items := and_iff_left fun _ _ _ => rfl
  rw [hstart] at hiff
  constructor
  · exact fun h => hiff.mp h.1
  · intro hclean
    exact ⟨hiff.mpr hclean,
      loop_stream_atHeader receiver sender AtHeader.start items hbound hclean.1⟩

/-- An empty packet comes first, between hosts of different byte order. -/
theorem roundTrip_iff_empty_first :
    RoundTrip .little .big [(⟨0x01, 0, 1, []⟩, (0xcc, 0xcc)), (⟨0x02, 0, 2, [0x61]⟩, (0, 0))] :=
  (roundTrip_iff .little .big _ (by decide)).mpr (by decide)

/-- An empty packet after one with a payload is processed with the payload of that one. -/
theorem empty_packet_sees_old_payload :
    (start.loop .little (stream .little
        [(⟨0x02, 0, 1, [0x61]⟩, (0, 0)), (⟨0x02, 0, 2, []⟩, (0, 0))])).1.processed =
      [⟨⟨13, 0x02, 0, 1⟩, [0x61]⟩, ⟨⟨12, 0x02, 0, 2⟩, [0x61]⟩] ∧
    ¬ RoundTrip .little .little [(⟨0x02, 0, 1, [0x61]⟩, (0, 0)), (⟨0x02, 0, 2, []⟩, (0, 0))] := by
  have hprocessed : (start.loop .little (stream .little
      [(⟨0x02, 0, 1, [0x61]⟩, (0, 0)), (⟨0x02, 0, 2, []⟩, (0, 0))])).1.processed =
      [⟨⟨13, 0x02, 0, 1⟩, [0x61]⟩, ⟨⟨12, 0x02, 0, 2⟩, [0x61]⟩] := by decide
  refine ⟨hprocessed, fun h => ?_⟩
  exact absurd (hprocessed.symm.trans h.1) (by decide)

end PacketReader

end TurboNet.Asio
