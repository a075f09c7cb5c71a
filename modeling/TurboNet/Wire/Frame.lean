import TurboNet.Common.Bytes

/-!
# TurboNet packets and frames

Reference: `turbonet_client.cpp`, `turbonet_server.cpp`.

A frame is a 10-byte header (4-byte big-endian total length, packet id, status, 4-byte big-endian
sequence) followed by the payload. Three places of the source build one by hand, with the same
`memcpy` offsets and different length arithmetic: `TurboNetClient::sendPacket`, the `respond`
lambda and the bind response of `Session::onReadBody`. They are `buildFrame` at their own total
length. `Packet.wire` is the layout itself, and each builder produces it (`sendPacketFrame_eq`,
`respondFrame_eq`, `bindResponseFrame_eq`).
-/

namespace TurboNet

open Common

/-- What the handlers see of a packet: `packetId`, `status`, `sequence`, `payload`. -/
structure Packet where
  packetId : UInt8
  status : UInt8
  sequence : UInt32
  payload : List UInt8
deriving DecidableEq, Repr

/-- The total length of the packet's frame fits into the 32-bit length field. -/
def Packet.Fits (p : Packet) : Prop := 10 + p.payload.length < 2 ^ 32

instance (p : Packet) : Decidable p.Fits := inferInstanceAs (Decidable (_ < _))

/-- The header layout: big-endian total length, id, status, big-endian sequence. -/
def Packet.header (p : Packet) : List UInt8 :=
  bytesBE (UInt32.ofNat (10 + p.payload.length)) ++
    ([p.packetId, p.status] ++ bytesBE p.sequence)

/-- The frame layout: header and payload. -/
def Packet.wire (p : Packet) : List UInt8 := p.header ++ p.payload

/-! ## The three frame builders -/

/-- Fill a vector of `10 + len` bytes field by field. -/
def buildFrame (host : Endian) (total : UInt32) (p : Packet) : List UInt8 :=
  let pkt := List.replicate (10 + p.payload.length) (0 : UInt8)
  let beLen := htonl host total
  let pkt := memcpy pkt 0 (store32 host beLen)
  let pkt := pkt.set 4 p.packetId
  let pkt := pkt.set 5 p.status
  let beSeq := htonl host p.sequence
  let pkt := memcpy pkt 6 (store32 host beSeq)
  memcpy pkt 10 p.payload

/-- `TurboNetClient::sendPacket`: `totalLen = 10 + static_cast<uint32_t>(len)`. -/
def sendPacketFrame (host : Endian) (p : Packet) : List UInt8 :=
  buildFrame host (10 + UInt32.ofNat p.payload.length) p

/-- The `respond` lambda: `tot = static_cast<uint32_t>(10 + rpBody.size())`. -/
def respondFrame (host : Endian) (p : Packet) : List UInt8 :=
  buildFrame host (UInt32.ofNat (10 + p.payload.length)) p

/-- The bytes of `std::string id = "test_server"`. -/
def serverId : List UInt8 := [0x74, 0x65, 0x73, 0x74, 0x5f, 0x73, 0x65, 0x72, 0x76, 0x65, 0x72]

/-- The bind response to sequence `seq`: id `0x81`, success status, the server's name. -/
def bindResponse (seq : UInt32) : Packet := ⟨0x81, 0x00, seq, serverId⟩

/-- The bind response as `Session::onReadBody` builds it: `be = htonl(10 + id.length())`. -/
def bindResponseFrame (host : Endian) (seq : UInt32) : List UInt8 :=
  buildFrame host (UInt32.ofNat (10 + serverId.length)) (bindResponse seq)

/-- A header has ten bytes. -/
@[simp] theorem length_header (p : Packet) : p.header.length = 10 := rfl

/-- A frame is its header and its payload. -/
theorem length_wire (p : Packet) : p.wire.length = 10 + p.payload.length := by
  rw [Packet.wire, List.length_append, length_header]

/-- The hand-written offsets put every field where the layout has it. -/
theorem buildFrame_eq (host : Endian) (total : UInt32) (p : Packet) :
    buildFrame host total p =
      bytesBE total ++ ([p.packetId, p.status] ++ bytesBE p.sequence) ++ p.payload := by
  have hzero : List.replicate (10 + p.payload.length) (0 : UInt8)
      = [0, 0, 0, 0] ++ ([0, 0] ++ ([0, 0, 0, 0] ++ List.replicate p.payload.length 0)) := by
    rw [List.replicate_add]
    rfl
  have hlen (back : List UInt8) :
      memcpy ([0, 0, 0, 0] ++ back) 0 (bytesBE total) = bytesBE total ++ back := by
    simp [memcpy]
  have hfields (back : List UInt8) :
      ((bytesBE total ++ ([0, 0] ++ back)).set 4 p.packetId).set 5 p.status
        = (bytesBE total ++ [p.packetId, p.status]) ++ back := by
    simp [bytesBE]
  have hseq (back : List UInt8) :
      memcpy ((bytesBE total ++ [p.packetId, p.status]) ++ ([0, 0, 0, 0] ++ back)) 6
          (bytesBE p.sequence)
        = (bytesBE total ++ [p.packetId, p.status] ++ bytesBE p.sequence) ++ back := by
    rw [memcpy_append (by simp) (by simp)]
    simp only [List.append_assoc]
  have hbody : memcpy ((bytesBE total ++ [p.packetId, p.status] ++ bytesBE p.sequence)
        ++ (List.replicate p.payload.length 0 ++ [])) 10 p.payload
      = (bytesBE total ++ [p.packetId, p.status] ++ bytesBE p.sequence) ++ (p.payload ++ []) :=
    memcpy_append (by simp) (by simp)
  simp only [buildFrame, store32_htonl, hzero, hlen, hfields, hseq]
  rw [← List.append_nil (List.replicate _ _), hbody]
  simp

/-- The client builds the frame of the layout. -/
theorem sendPacketFrame_eq (host : Endian) (p : Packet) : sendPacketFrame host p = p.wire := by
  have hlen : 10 + UInt32.ofNat p.payload.length = UInt32.ofNat (10 + p.payload.length) := by
    rw [UInt32.ofNat_add]
    rfl
  rw [sendPacketFrame, buildFrame_eq, hlen, Packet.wire, Packet.header]

/-- So does the `respond` lambda. -/
theorem respondFrame_eq (host : Endian) (p : Packet) : respondFrame host p = p.wire :=
  buildFrame_eq host _ p

/-- So does the server for its bind response. -/
theorem bindResponseFrame_eq (host : Endian) (seq : UInt32) :
    bindResponseFrame host seq = (bindResponse seq).wire :=
  buildFrame_eq host _ _

/-- No frame is empty. -/
theorem sendPacketFrame_ne_nil (host : Endian) (p : Packet) : sendPacketFrame host p ≠ [] := by
  intro h
  have hlen := congrArg List.length h
  rw [sendPacketFrame_eq, length_wire] at hlen
  simp at hlen

/-! ## Reading a header back -/

/-- The 32-bit word at `buf + off`, taken from network order: `fromBigEndian(buf + off)` in the
client, `ntohl(*reinterpret_cast<uint32_t*>(buf + off))` in the server. -/
def fromBigEndian (host : Endian) (buf : List UInt8) (off : ℕ) : UInt32 :=
  ntohl host (load32 host ((buf.drop off).take 4))

/-- The declared total length of a header, by the layout. -/
def headerTotal (h : List UInt8) : UInt32 := ofBytesBE (h.take 4)

/-- The fields of a header, by the layout, with a body. -/
def headerPacket (h body : List UInt8) : Packet :=
  ⟨h.getD 4 0, h.getD 5 0, ofBytesBE ((h.drop 6).take 4), body⟩

/-- What a receiver takes from the start of a header is the declared total. -/
theorem fromBigEndian_total (host : Endian) {h : List UInt8} (hh : h.length = 10) :
    fromBigEndian host h 0 = headerTotal h := by
  rw [fromBigEndian, ntohl_load32 host (by simp [hh]), List.drop_zero, headerTotal]

/-- What it takes from offset 6 is the sequence number. -/
theorem fromBigEndian_sequence (host : Endian) {h : List UInt8} (hh : h.length = 10) :
    fromBigEndian host h 6 = ofBytesBE ((h.drop 6).take 4) :=
  ntohl_load32 host (by simp [hh])

/-- The declared total of a packet's header, as the 32 bits have it. -/
@[simp] theorem headerTotal_header (p : Packet) :
    headerTotal p.header = UInt32.ofNat (10 + p.payload.length) := by
  rw [headerTotal, Packet.header, List.take_left' (length_bytesBE _), ofBytesBE_bytesBE]

/-- A header and its payload give the packet back. -/
@[simp] theorem headerPacket_header (p : Packet) : headerPacket p.header p.payload = p := by
  have hseq : ofBytesBE ((p.header.drop 6).take 4) = p.sequence := ofBytesBE_bytesBE p.sequence
  rw [headerPacket, hseq]
  rfl

/-- A header and the body that a receiver asks for after it: `total - 10` bytes in `uint32_t`
arithmetic, also when `total` is below 10. -/
structure Frame where
  header : List UInt8
  body : List UInt8
  header_length : header.length = 10
  body_length : body.length = (headerTotal header - 10).toNat

/-- The bytes of a frame. -/
def Frame.bytes (f : Frame) : List UInt8 := f.header ++ f.body

/-- What a receiver extracts from a frame. -/
def Frame.packet (f : Frame) : Packet := headerPacket f.header f.body

/-- The uint32 subtraction in the receivers, for a total length that does not wrap. -/
theorem toNat_sub_ten {total : UInt32} (h : 10 ≤ total.toNat) :
    (total - 10).toNat = total.toNat - 10 := by
  have hle : (10 : UInt32) ≤ total := UInt32.le_iff_toNat_le.mpr h
  rw [UInt32.toNat_sub_of_le _ _ hle]
  rfl

/-- The total of a packet that fits does not wrap. -/
theorem Packet.Fits.toNat_total {p : Packet} (h : p.Fits) :
    (UInt32.ofNat (10 + p.payload.length)).toNat = 10 + p.payload.length :=
  UInt32.toNat_ofNat_of_lt h

/-- The frame of a packet that fits. -/
def Packet.frame (p : Packet) (h : p.Fits) : Frame where
  header := p.header
  body := p.payload
  header_length := length_header p
  body_length := by
    rw [headerTotal_header, toNat_sub_ten (by rw [h.toNat_total]; omega), h.toNat_total]
    omega

/-- The frame of a packet is what goes over the wire. -/
@[simp] theorem Packet.frame_bytes (p : Packet) (h : p.Fits) : (p.frame h).bytes = p.wire := rfl

/-- A receiver extracts the packet from its frame. -/
@[simp] theorem Packet.frame_packet (p : Packet) (h : p.Fits) : (p.frame h).packet = p :=
  headerPacket_header p

/-- Packets that fit are a list of frames, each of which covers its own header. -/
theorem Packet.exists_frames {ps : List Packet} (h : ∀ p ∈ ps, p.Fits) :
    ∃ fs : List Frame, fs.map Frame.packet = ps ∧
      fs.flatMap Frame.bytes = ps.flatMap Packet.wire ∧
      ∀ f ∈ fs, 10 ≤ (headerTotal f.header).toNat := by
  induction ps with
  | nil => exact ⟨[], rfl, rfl, by simp⟩
  | cons p ps ih =>
    obtain ⟨hp, hps⟩ := List.forall_mem_cons.mp h
    obtain ⟨fs, hpackets, hbytes, hcover⟩ := ih hps
    refine ⟨p.frame hp :: fs, by simp [hpackets], by simp [hbytes], ?_⟩
    refine List.forall_mem_cons.mpr ⟨?_, hcover⟩
    have htotal : (headerTotal p.header).toNat = 10 + p.payload.length := by
      rw [headerTotal_header, hp.toNat_total]
    exact htotal ▸ Nat.le_add_right 10 _

/-- The receiver's subtraction undoes the sender's addition, also where the total length wraps. -/
theorem toNat_total_sub_ten {n : ℕ} (h : n < 2 ^ 32) : (UInt32.ofNat (10 + n) - 10).toNat = n := by
  have hten : (10 : UInt32).toNat = 10 := rfl
  rw [UInt32.toNat_sub, UInt32.toNat_ofNat', hten]
  omega

/-- Packets with payloads of at most 32-bit length are a list of frames. -/
theorem Packet.exists_frames_of_length {ps : List Packet}
    (h : ∀ p ∈ ps, p.payload.length < 2 ^ 32) :
    ∃ fs : List Frame, fs.map Frame.packet = ps ∧
      fs.flatMap Frame.bytes = ps.flatMap Packet.wire := by
  induction ps with
  | nil => exact ⟨[], rfl, rfl⟩
  | cons p ps ih =>
    obtain ⟨hp, hps⟩ := List.forall_mem_cons.mp h
    obtain ⟨fs, hpackets, hbytes⟩ := ih hps
    have hlength : p.payload.length = (headerTotal p.header - 10).toNat := by
      rw [headerTotal_header, toNat_total_sub_ten hp]
    refine ⟨⟨p.header, p.payload, length_header p, hlength⟩ :: fs, ?_, ?_⟩
    · rw [List.map_cons, hpackets, Frame.packet, headerPacket_header]
    · rw [List.flatMap_cons, hbytes, List.flatMap_cons]
      rfl

/-- A frame whose declared total covers its header is what the builders make of the packet
extracted from it. -/
theorem Frame.packet_wire {f : Frame} (hf : 10 ≤ (headerTotal f.header).toNat) :
    f.packet.wire = f.bytes := by
  have htotal : UInt32.ofNat (10 + f.body.length) = headerTotal f.header := by
    rw [f.body_length, toNat_sub_ten hf, Nat.add_sub_cancel' hf, UInt32.ofNat_toNat]
  have hlength : bytesBE (headerTotal f.header) = f.header.take 4 :=
    bytesBE_ofBytesBE (by rw [List.length_take, f.header_length]; rfl)
  have hsequence : bytesBE (ofBytesBE ((f.header.drop 6).take 4)) = (f.header.drop 6).take 4 :=
    bytesBE_ofBytesBE (by rw [List.length_take, List.length_drop, f.header_length]; rfl)
  have hheader : f.header.take 4 ++
      ([f.header.getD 4 0, f.header.getD 5 0] ++ (f.header.drop 6).take 4) = f.header := by
    match f.header, f.header_length with
    | [_, _, _, _, _, _, _, _, _, _], _ => rfl
  unfold Packet.wire Packet.header Frame.packet headerPacket Frame.bytes
  dsimp only
  rw [htotal, hlength, hsequence, hheader]

/-- An outstanding `async_read` of a receiver: the header buffer or a body of a given length. -/
inductive ReadOp where
  | header
  | body (len : ℕ)
deriving DecidableEq, Repr

/-- How many bytes the read asks for. -/
def ReadOp.size : ReadOp → ℕ
  | .header => 10
  | .body len => len

end TurboNet
