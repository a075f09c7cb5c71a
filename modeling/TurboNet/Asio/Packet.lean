import TurboNet.Wire.Frame

/-!
# Packets of the asio programs

Reference: `claude/asio_server.cpp`, `claude/asio_client.cpp`, `PacketHeader`, `Packet`.

`PacketHeader` is sent as it lies in memory. The struct is not packed: `sequence` is aligned to four
bytes, so there are two bytes of padding before it, and `sizeof(PacketHeader)` is 12. Nothing writes
the padding, so its content is arbitrary; `serialize` takes it as a parameter.

The two programs declare the same types. The four arguments of `createPacket` are the fields of a
`TurboNet.Packet`.
-/

namespace TurboNet.Asio

open Common

structure PacketHeader where
  length : UInt32
  packetId : UInt8
  status : UInt8
  sequence : UInt32
deriving DecidableEq, Repr

/-- `PacketHeader::BIND`, `BIND_RESP`, `REQUEST`, `RESPONSE`. -/
def idBind : UInt8 := 0x01
def idBindResp : UInt8 := 0x81
def idRequest : UInt8 := 0x02
def idResponse : UInt8 := 0x82

/-- `sizeof(PacketHeader)`. -/
def sizeofHeader : ℕ := 12

/-- The content of the two bytes between `status` and `sequence`. -/
abbrev Padding := UInt8 × UInt8

namespace PacketHeader

/-- `toNetworkByteOrder`. -/
def toNetworkByteOrder (host : Endian) (h : PacketHeader) : PacketHeader :=
  { h with length := htonl host h.length, sequence := htonl host h.sequence }

/-- `toHostByteOrder`. -/
def toHostByteOrder (host : Endian) (h : PacketHeader) : PacketHeader :=
  { h with length := ntohl host h.length, sequence := ntohl host h.sequence }

/-- The bytes of a header in memory. -/
def image (host : Endian) (padding : Padding) (h : PacketHeader) : List UInt8 :=
  store32 host h.length ++ ([h.packetId, h.status, padding.1, padding.2] ++
    store32 host h.sequence)

/-- The header whose bytes lie in memory. -/
def ofImage (host : Endian) (bs : List UInt8) : PacketHeader :=
  ⟨load32 host (bs.take 4), bs.getD 4 0, bs.getD 5 0, load32 host ((bs.drop 8).take 4)⟩

end PacketHeader

structure Packet where
  header : PacketHeader
  payload : List UInt8
deriving DecidableEq, Repr

/-- `Packet::createPacket`. The length is a `size_t` that is assigned to a `uint32_t`. -/
def createPacket (p : TurboNet.Packet) : Packet :=
  ⟨⟨UInt32.ofNat (sizeofHeader + p.payload.length), p.packetId, p.status, p.sequence⟩, p.payload⟩

/-- `Packet::serialize`. -/
def Packet.serialize (host : Endian) (padding : Padding) (p : Packet) : List UInt8 :=
  let buffer := List.replicate (sizeofHeader + p.payload.length) (0 : UInt8)
  let buffer := memcpy buffer 0 ((p.header.toNetworkByteOrder host).image host padding)
  if p.payload.isEmpty then buffer else memcpy buffer sizeofHeader p.payload

/-! ## The layout -/

/-- The header on the wire: big-endian length, id, status, padding, big-endian sequence. -/
def PacketHeader.wire (padding : Padding) (h : PacketHeader) : List UInt8 :=
  bytesBE h.length ++ ([h.packetId, h.status, padding.1, padding.2] ++ bytesBE h.sequence)

/-- A header takes `sizeof(PacketHeader)` bytes on the wire. -/
@[simp] theorem PacketHeader.length_wire (padding : Padding) (h : PacketHeader) :
    (h.wire padding).length = sizeofHeader := rfl

/-- The memory of a converted header is what goes over the wire, on either kind of host. -/
theorem PacketHeader.image_toNetworkByteOrder (host : Endian) (padding : Padding)
    (h : PacketHeader) : (h.toNetworkByteOrder host).image host padding = h.wire padding := by
  simp only [image, toNetworkByteOrder, store32_htonl, wire]

/-- `serialize` puts the header before the payload. -/
theorem Packet.serialize_eq (host : Endian) (padding : Padding) (p : Packet) :
    p.serialize host padding = p.header.wire padding ++ p.payload := by
  have hbuffer : memcpy (List.replicate (sizeofHeader + p.payload.length) (0 : UInt8)) 0
        (p.header.wire padding) =
      p.header.wire padding ++ List.replicate p.payload.length 0 := by
    rw [memcpy, List.take_zero, List.nil_append, Nat.zero_add, PacketHeader.length_wire,
      List.drop_replicate, Nat.add_sub_cancel_left]
  simp only [serialize, PacketHeader.image_toNetworkByteOrder, hbuffer]
  split
  · rename_i hempty
    rw [List.isEmpty_iff.mp hempty]
    rfl
  · have hcopy : memcpy (p.header.wire padding ++ (List.replicate p.payload.length 0 ++ []))
          sizeofHeader p.payload = p.header.wire padding ++ (p.payload ++ []) :=
      memcpy_append (PacketHeader.length_wire padding p.header) (by simp)
    simpa only [List.append_nil] using hcopy

/-- A header is read back, whatever the padding and the byte orders of the two hosts. -/
theorem PacketHeader.ofImage_wire (host : Endian) (padding : Padding) (h : PacketHeader) :
    (ofImage host (h.wire padding)).toHostByteOrder host = h := by
  have hlength : ntohl host (load32 host ((h.wire padding).take 4)) = h.length :=
    (ntohl_load32 host rfl).trans (ofBytesBE_bytesBE h.length)
  have hsequence : ntohl host (load32 host (((h.wire padding).drop 8).take 4)) = h.sequence :=
    (ntohl_load32 host rfl).trans (ofBytesBE_bytesBE h.sequence)
  simp only [ofImage, toHostByteOrder, hlength, hsequence]
  rfl

/-! ## Two wire formats

The comment at `PacketHeader` says 10 bytes in total, which is the header of `sendPacketFrame`. The
padding makes it two bytes longer, and the length field counts these two bytes as well. -/

/-- `serialize` makes as many bytes as header and payload have. -/
theorem Packet.length_serialize (host : Endian) (padding : Padding) (p : Packet) :
    (p.serialize host padding).length = sizeofHeader + p.payload.length := by
  rw [serialize_eq, List.length_append, PacketHeader.length_wire]

/-- **Wire formats.** No packet is serialized to the frame that `TurboNetClient::sendPacket` builds
for the same fields, whatever the padding holds. -/
theorem serialize_ne_sendPacketFrame (sender host : Endian) (padding : Padding)
    (p : TurboNet.Packet) :
    (createPacket p).serialize sender padding ≠ sendPacketFrame host p := by
  intro heq
  have hlength : ((createPacket p).serialize sender padding).length =
      (sendPacketFrame host p).length := congrArg List.length heq
  rw [Packet.length_serialize, sendPacketFrame_eq, length_wire] at hlength
  have hpayload : (createPacket p).payload.length = p.payload.length := rfl
  have hheader : sizeofHeader = 12 := rfl
  omega

/-- An empty request: the length field says 12 where the frame has 10, and two bytes of padding
stand before the sequence. -/
theorem empty_request_wire_formats_differ :
    (⟨idRequest, 0, 1, []⟩ : TurboNet.Packet).Fits ∧
    (createPacket ⟨idRequest, 0, 1, []⟩).serialize .little (0, 0) =
      [0, 0, 0, 12, 2, 0, 0, 0, 0, 0, 0, 1] ∧
    sendPacketFrame .little ⟨idRequest, 0, 1, []⟩ = [0, 0, 0, 10, 2, 0, 0, 0, 0, 1] ∧
    (createPacket ⟨idRequest, 0, 1, []⟩).serialize .little (0, 0) ≠
      sendPacketFrame .little ⟨idRequest, 0, 1, []⟩ := by
  decide

end TurboNet.Asio
