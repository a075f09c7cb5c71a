import TurboNet.Common.Chunks
import TurboNet.Asio.PacketReader

/-!
# Packets that come in pieces

Reference: `claude/asio_server.cpp`, `Connection::readHeader`, `readPayload`, `processPacket`.

The handlers of the read loop do not rely on a read to bring all that it asked for: they count in
`header_bytes_read_` and `payload_bytes_read_` what has come, and go on reading behind it. Here a
read completes with at least one byte and at most as many as it asked for. `chunks_irrelevant` says
that the loop sees the same packets however the stream is cut.
-/

namespace TurboNet.Asio.PacketReader

open Common

variable {host : Endian} {r : PacketReader} {bs : List UInt8}

/-- The outstanding read stays inside its buffer and asks for a byte at least. -/
structure InBounds (r : PacketReader) : Prop where
  headerBuffer : r.headerBuffer.length = sizeofHeader
  header : r.reading = some .header → r.headerBytesRead < sizeofHeader
  payload : r.reading = some .payload →
    r.payloadBytesRead < r.currentPayloadSize ∧ r.currentPayload.length = r.currentPayloadSize
  closed : r.reading = none → r.closed = true

/-- The first read is of a whole header. -/
theorem inBounds_start : InBounds start :=
  ⟨rfl, fun _ => by decide, fun h => absurd h (by decide), fun h => absurd h (by decide)⟩

/-- How many bytes the outstanding read asks for, 0 if there is none. -/
def want (r : PacketReader) : ℕ := r.wanted.getD 0

/-- What is left of the header is asked for. -/
theorem want_header (h : r.reading = some .header) :
    r.want = sizeofHeader - r.headerBytesRead := by
  rw [want, wanted, h]
  rfl

/-- What is left of the payload is asked for. -/
theorem want_payload (h : r.reading = some .payload) :
    r.want = r.currentPayloadSize - r.payloadBytesRead := by
  rw [want, wanted, h]
  rfl

/-- No read asks for nothing. -/
theorem want_none (h : r.reading = none) : r.want = 0 := by
  rw [want, wanted, h]
  rfl

/-! ## A piece of a header -/

/-- A piece that does not complete the header is kept, and the rest is read. -/
theorem onRead_header_of_lt (h : r.reading = some .header)
    (hlt : r.headerBytesRead + bs.length < sizeofHeader) :
    r.onRead host bs = { r with
      headerBuffer := memcpy r.headerBuffer r.headerBytesRead bs
      headerBytesRead := r.headerBytesRead + bs.length } := by
  rw [onRead, h]
  simp only [onReadHeader]
  rw [if_neg (by omega), readHeader, ← h]

/-- The read after a packet is of a whole header. -/
theorem inBounds_finishPacket (hbuffer : r.headerBuffer.length = sizeofHeader) :
    InBounds r.finishPacket := by
  unfold finishPacket readHeader
  refine ⟨hbuffer, fun _ => ?_, fun h => absurd h (by simp), fun h => absurd h (by simp)⟩
  show 0 < sizeofHeader
  decide

/-- A piece of a header leaves the next read in bounds. -/
theorem InBounds.onReadHeader (hr : InBounds r) (h : r.reading = some .header)
    (hle : r.headerBytesRead + bs.length ≤ sizeofHeader) : InBounds (r.onRead host bs) := by
  have hlength : (memcpy r.headerBuffer r.headerBytesRead bs).length = sizeofHeader := by
    rw [length_memcpy (by rw [hr.headerBuffer]; exact hle), hr.headerBuffer]
  by_cases hlt : r.headerBytesRead + bs.length < sizeofHeader
  · rw [onRead_header_of_lt h hlt]
    exact ⟨hlength, fun _ => hlt, fun h' => absurd (h.symm.trans h') (by simp),
      fun h' => absurd (h.symm.trans h') (by simp)⟩
  · rw [onRead, h]
    simp only [PacketReader.onReadHeader]
    rw [if_pos (by omega)]
    split
    · exact ⟨hlength, fun h' => absurd h' (by simp), fun h' => absurd h' (by simp), fun _ => rfl⟩
    · split
      · rename_i hpos
        exact ⟨hlength, fun h' => absurd h' (by simp [readPayload]),
          fun _ => ⟨hpos, length_resize _ _⟩, fun h' => absurd h' (by simp [readPayload])⟩
      · exact inBounds_finishPacket hlength

/-! ## A piece of a payload -/

/-- A piece that does not complete the payload is kept, and the rest is read. -/
theorem onRead_payload_of_lt (h : r.reading = some .payload)
    (hlt : r.payloadBytesRead + bs.length < r.currentPayloadSize) :
    r.onRead host bs = { r with
      currentPayload := memcpy r.currentPayload r.payloadBytesRead bs
      payloadBytesRead := r.payloadBytesRead + bs.length } := by
  rw [onRead, h]
  simp only [onReadPayload]
  rw [if_neg (by omega), readPayload, ← h]

/-- A piece of a payload leaves the next read in bounds. -/
theorem InBounds.onReadPayload (hr : InBounds r) (h : r.reading = some .payload)
    (hle : r.payloadBytesRead + bs.length ≤ r.currentPayloadSize) :
    InBounds (r.onRead host bs) := by
  by_cases hlt : r.payloadBytesRead + bs.length < r.currentPayloadSize
  · rw [onRead_payload_of_lt h hlt]
    refine ⟨hr.headerBuffer, fun h' => absurd (h.symm.trans h') (by simp), fun _ => ⟨hlt, ?_⟩,
      fun h' => absurd (h.symm.trans h') (by simp)⟩
    rw [length_memcpy (by rw [(hr.payload h).2]; exact hle)]
    exact (hr.payload h).2
  · rw [onRead, h]
    simp only [PacketReader.onReadPayload]
    rw [if_pos (by omega)]
    exact inBounds_finishPacket hr.headerBuffer

/-! ## The loop as a reader of chunks -/

/-- Every read that brings a byte leaves the next one in bounds. -/
theorem InBounds.onRead (hr : InBounds r) (hne : bs ≠ []) (hle : bs.length ≤ r.want) :
    InBounds (r.onRead host bs) := by
  have hpos : 0 < bs.length := List.length_pos_iff.mpr hne
  cases h : r.reading with
  | none =>
    rw [want_none h] at hle
    omega
  | some state =>
    cases state with
    | header =>
      rw [want_header h] at hle
      exact hr.onReadHeader h (by omega)
    | payload =>
      rw [want_payload h] at hle
      exact hr.onReadPayload h (by omega)

/-- A read that is not full leaves the rest to be asked for. -/
theorem want_onRead (hne : bs ≠ []) (hlt : bs.length < r.want) :
    (r.onRead host bs).want = r.want - bs.length := by
  have hpos : 0 < bs.length := List.length_pos_iff.mpr hne
  cases h : r.reading with
  | none =>
    rw [want_none h] at hlt
    omega
  | some state =>
    cases state with
    | header =>
      rw [want_header h] at hlt ⊢
      rw [onRead_header_of_lt h (by omega), Nat.sub_sub]
      exact want_header h
    | payload =>
      rw [want_payload h] at hlt ⊢
      rw [onRead_payload_of_lt h (by omega), Nat.sub_sub]
      exact want_payload h

/-- Two pieces of one read are read like one. -/
theorem InBounds.onRead_append (hr : InBounds r) {cs : List UInt8} (hbs : bs ≠ []) (hcs : cs ≠ [])
    (hle : bs.length + cs.length ≤ r.want) :
    r.onRead host (bs ++ cs) = (r.onRead host bs).onRead host cs := by
  have hpos : 0 < bs.length := List.length_pos_iff.mpr hbs
  have hpos' : 0 < cs.length := List.length_pos_iff.mpr hcs
  cases h : r.reading with
  | none =>
    rw [want_none h] at hle
    omega
  | some state =>
    -- the first piece does not complete anything, so the second is put behind it
    cases state with
    | header =>
      rw [want_header h] at hle
      have hinside : r.headerBytesRead ≤ r.headerBuffer.length := by
        rw [hr.headerBuffer]
        omega
      have hfirst : r.onRead host bs = _ := onRead_header_of_lt h (by omega)
      rw [hfirst, PacketReader.onRead, h, PacketReader.onRead]
      simp only [PacketReader.onReadHeader, memcpy_memcpy hinside, List.length_append,
        Nat.add_assoc]
    | payload =>
      rw [want_payload h] at hle
      have hinside : r.payloadBytesRead ≤ r.currentPayload.length := by
        have hread := hr.payload h
        omega
      have hfirst : r.onRead host bs = _ := onRead_payload_of_lt h (by omega)
      rw [hfirst, PacketReader.onRead, h, PacketReader.onRead]
      simp only [PacketReader.onReadPayload, memcpy_memcpy hinside, List.length_append,
        Nat.add_assoc]

/-- The read loop, when reads bring what there is. -/
def chunkReader (host : Endian) : ChunkReader PacketReader UInt8 where
  want := want
  deliver := onRead host
  Good := InBounds
  good_deliver _ _ hr hne hle := hr.onRead hne hle
  want_deliver _ _ _ hne hlt := want_onRead hne hlt
  deliver_append _ _ _ hr hbs hcs hle := hr.onRead_append hbs hcs hle

/-- **Chunks.** However a stream is cut into completions, `processPacket` sees the same packets, and
the loop closes at the same place of the stream or not at all; it leaves bytes unread only if it
closes. And in every state, the outstanding read is inside its buffer and asks for a byte at
least. -/
theorem chunks_irrelevant (host : Endian) :
    (∀ stream css css' r r' rest rest',
      (chunkReader host).Delivers start stream css r rest →
      (chunkReader host).Delivers start stream css' r' rest' →
      r.processed = r'.processed ∧ r.closed = r'.closed ∧ rest = rest' ∧
        (rest = [] ∨ r.closed = true)) ∧
    ∀ css r, run (chunkReader host).step start css = some r →
      r.headerBuffer.length = sizeofHeader ∧
      (r.reading = some .header → r.headerBytesRead < sizeofHeader) ∧
      (r.reading = some .payload →
        r.payloadBytesRead < r.currentPayloadSize ∧
          r.currentPayload.length = r.currentPayloadSize) := by
  constructor
  · intro stream css css' r r' rest rest' h h'
    obtain ⟨rfl, rfl⟩ := h.unique inBounds_start h'
    refine ⟨rfl, rfl, rfl, h.2.2.imp_right fun hwant => ?_⟩
    have hr : InBounds r := ChunkReader.good_run inBounds_start h.1
    change r.want = 0 at hwant
    cases hreading : r.reading with
    | none => exact hr.closed hreading
    | some state =>
      cases state with
      | header =>
        have hlt := hr.header hreading
        rw [want_header hreading] at hwant
        omega
      | payload =>
        have hlt := hr.payload hreading
        rw [want_payload hreading] at hwant
        omega
  · intro css r h
    have hr : InBounds r := ChunkReader.good_run inBounds_start h
    exact ⟨hr.headerBuffer, hr.header, hr.payload⟩

/-- The bytes of a packet with one byte of payload. -/
def oneByteFrame : List UInt8 := [0, 0, 0, 13, 1, 0, 7, 7, 0, 0, 0, 1, 0x43]

/-- The reads bring all they asked for, or the header in three pieces. -/
theorem chunks_irrelevant_three_pieces :
    ∃ r r', (chunkReader .little).Delivers start oneByteFrame
        [[0, 0, 0, 13, 1, 0, 7, 7, 0, 0, 0, 1], [0x43]] r [] ∧
      (chunkReader .little).Delivers start oneByteFrame
        [[0], [0, 0, 13, 1, 0, 7], [7, 0, 0, 0, 1], [0x43]] r' [] ∧
      r.processed = r'.processed ∧ r'.processed.map (·.payload) = [[0x43]] ∧
      r'.headerBuffer.length = sizeofHeader := by
  obtain ⟨r, r', h, h', hpayload⟩ : ∃ r r', (chunkReader .little).Delivers start oneByteFrame
        [[0, 0, 0, 13, 1, 0, 7, 7, 0, 0, 0, 1], [0x43]] r [] ∧
      (chunkReader .little).Delivers start oneByteFrame
        [[0], [0, 0, 13, 1, 0, 7], [7, 0, 0, 0, 1], [0x43]] r' [] ∧
      r'.processed.map (·.payload) = [[0x43]] :=
    ⟨_, _, ⟨rfl, rfl, Or.inl rfl⟩, ⟨rfl, rfl, Or.inl rfl⟩, rfl⟩
  obtain ⟨hirrelevant, hbuffer⟩ := chunks_irrelevant .little
  exact ⟨r, r', h, h', (hirrelevant _ _ _ _ _ _ _ h h').1, hpayload, (hbuffer _ _ h'.1).1⟩

end TurboNet.Asio.PacketReader
