import TurboNet.Common.ExactReader
import TurboNet.Wire.Frame

/-!
# The packet stream of a qwen session

Reference: `qwen/server.cpp`, `session::send_packet`, `do_read_length`, `do_read_body`,
`handle_packet`.

The length field counts the whole packet: `send_packet` puts 10 plus the size of the payload into
it, and the read loop asks for that many bytes less the four of the field itself. But the vector
that `send_packet` fills has four bytes more than it says, which stay zero
(`sendPacketBytes_eq`). The peer takes them for the next length field, finds it too short, and stops
reading without a word (`loop_cons`).

`handle_packet` is a record of its calls here; what the session and the server do with a packet is
part of the model of the server. A packet has the fields of a `TurboNet.Packet`.
-/

namespace TurboNet.Qwen

open Common

/-- `enum { length_size = 4 }`. -/
def lengthSize : ℕ := 4

/-- `send_packet`, up to `post_write`. The sums that have a `uint32_t` on the left are taken in
32 bits. -/
def sendPacketBytes (host : Endian) (p : Packet) : List UInt8 :=
  let length : UInt32 := UInt32.ofNat (10 + p.payload.length)
  let packet := List.replicate (4 + length).toNat (0 : UInt8)
  let packet := memcpy packet 0 (store32 host (htonl host length))
  let packet := packet.set 4 p.packetId
  let packet := packet.set 5 p.status
  let packet := memcpy packet 6 (store32 host (htonl host p.sequence))
  memcpy packet 10 p.payload

/-- The outstanding `async_read`: of the length, or of a body with the length that was read. -/
inductive SessionRead where
  | length
  | body (packetLength : UInt32)
deriving DecidableEq, Repr

/-- What a session needs to read. -/
structure SessionReader where
  lengthBuffer : List UInt8 := List.replicate lengthSize 0
  messageBuffer : List UInt8 := []
  reading : Option SessionRead := none
  /-- History: the packets that `handle_packet` has extracted. -/
  handled : List Packet := []
deriving DecidableEq, Repr

namespace SessionReader

/-- `do_read_length`. -/
def doReadLength (r : SessionReader) : SessionReader := { r with reading := some .length }

/-- `do_read_body`. -/
def doReadBody (r : SessionReader) (packetLength : UInt32) : SessionReader :=
  { r with reading := some (.body packetLength) }

/-- `handle_packet`, up to what is done with the packet. -/
def handlePacket (host : Endian) (r : SessionReader) (packetLength : UInt32) : SessionReader :=
  if r.messageBuffer.length ≠ (packetLength - 4).toNat then r
  else
    { r with handled := r.handled ++ [⟨r.messageBuffer.getD 0 0, r.messageBuffer.getD 1 0,
        ntohl host (load32 host ((r.messageBuffer.drop 2).take 4)), r.messageBuffer.drop 6⟩] }

/-- The handler of `do_read_length`, for a read that filled the buffer with `bs`. -/
def onReadLength (host : Endian) (r : SessionReader) (bs : List UInt8) : SessionReader :=
  let r := { r with lengthBuffer := bs }
  let packetLength := ntohl host (load32 host r.lengthBuffer)
  if packetLength < 10 then r
  else
    -- `resize`
    let size := (packetLength - 4).toNat
    { r with messageBuffer := (r.messageBuffer.take size).rightpad size 0 }.doReadBody packetLength

/-- The handler of `do_read_body`, for a read that filled the vector with `bs`. -/
def onReadBody (host : Endian) (r : SessionReader) (packetLength : UInt32) (bs : List UInt8) :
    SessionReader :=
  ({ r with messageBuffer := bs }.handlePacket host packetLength).doReadLength

/-- How many bytes the outstanding read asks for: the size of its buffer. -/
def wanted (r : SessionReader) : Option ℕ :=
  match r.reading with
  | some .length => some lengthSize
  | some (.body _) => some r.messageBuffer.length
  | none => none

/-- The outstanding read completes. -/
def onRead (host : Endian) (r : SessionReader) (bs : List UInt8) : SessionReader :=
  match r.reading with
  | some .length => { r with reading := none }.onReadLength host bs
  | some (.body packetLength) => { r with reading := none }.onReadBody host packetLength bs
  | none => r

/-- The reader when `start` has been called. -/
def start : SessionReader := ({} : SessionReader).doReadLength

/-- After a body a length is read, so no two reads in a row ask for nothing. -/
def rank (r : SessionReader) : ℕ :=
  match r.reading with
  | some (.body _) => 1
  | _ => 0

/-- A read of nothing brings the loop nearer to one of something. -/
theorem rank_onRead {host : Endian} {r : SessionReader} (h : r.wanted = some 0) :
    (r.onRead host []).rank < r.rank := by
  unfold wanted at h
  unfold onRead rank
  split at h
  · exact absurd (Option.some.inj h) (by decide)
  · rename_i hreading
    rw [hreading]
    exact Nat.zero_lt_one
  · exact absurd h (by simp)

/-- The read loop. -/
def reader (host : Endian) : ExactReader SessionReader UInt8 where
  want := wanted
  deliver := onRead host
  rank := rank
  bound := 1
  rank_le r := by
    unfold rank
    split <;> omega
  rank_lt _ h := rank_onRead h

/-- Feed a byte stream to the read loop until the outstanding read asks for more than remains. -/
def loop (host : Endian) (r : SessionReader) (stream : List UInt8) : SessionReader × List UInt8 :=
  (reader host).drain r stream

end SessionReader

/-! ## The bytes of a packet -/

/-- Filling a vector that goes on behind the frame leaves the rest of it alone. -/
theorem buildFrame_append (host : Endian) (total : UInt32) (p : Packet) (back : List UInt8) :
    memcpy (memcpy (((memcpy (List.replicate (10 + p.payload.length) 0 ++ back) 0
        (store32 host (htonl host total))).set 4 p.packetId).set 5 p.status) 6
        (store32 host (htonl host p.sequence))) 10 p.payload =
      buildFrame host total p ++ back := by
  have hlength (v : UInt32) : (memcpy (List.replicate (10 + p.payload.length) (0 : UInt8)) 0
      (bytesBE v)).length = 10 + p.payload.length := by
    rw [length_memcpy] <;> rw [List.length_replicate]
    rw [length_bytesBE]
    omega
  simp only [buildFrame, store32_htonl]
  rw [memcpy_append_of_le, List.set_append_left, List.set_append_left, memcpy_append_of_le,
    memcpy_append_of_le]
  · rw [length_memcpy] <;> simp only [List.length_set, hlength, length_bytesBE] <;> omega
  all_goals simp only [List.length_set, List.length_replicate, hlength, length_bytesBE]
  all_goals omega

/-- The bytes are the frame of the packet and four zeros. -/
theorem sendPacketBytes_eq (host : Endian) {p : Packet} (h : p.payload.length + 14 < 2 ^ 32) :
    sendPacketBytes host p = p.wire ++ [0, 0, 0, 0] := by
  have hsize : (4 + UInt32.ofNat (10 + p.payload.length)).toNat = 10 + p.payload.length + 4 := by
    have hfits : p.Fits := by
      unfold Packet.Fits
      omega
    rw [UInt32.toNat_add, hfits.toNat_total]
    show (4 + (10 + p.payload.length)) % 2 ^ 32 = _
    omega
  have hvector : List.replicate (10 + p.payload.length + 4) (0 : UInt8) =
      List.replicate (10 + p.payload.length) 0 ++ [0, 0, 0, 0] := by
    rw [List.replicate_add]
    rfl
  simp only [sendPacketBytes]
  rw [hsize, hvector, buildFrame_append, buildFrame_eq, Packet.wire, Packet.header]

/-! ## One packet -/

namespace SessionReader

/-- The loop waits for a length. -/
def AtLength (r : SessionReader) : Prop := r.reading = some .length

/-- A big-endian word is read right on either kind of host. -/
theorem ntohl_load32_bytesBE (host : Endian) (v : UInt32) :
    ntohl host (load32 host (bytesBE v)) = v := by
  rw [ntohl_load32 host (length_bytesBE v), ofBytesBE_bytesBE]

/-- What follows the length field in the frame of a packet. -/
def frameBody (p : Packet) : List UInt8 :=
  [p.packetId, p.status] ++ bytesBE p.sequence ++ p.payload

/-- The body has six bytes before the payload. -/
theorem length_frameBody (p : Packet) : (frameBody p).length = 6 + p.payload.length := by
  rw [frameBody, List.length_append, List.length_append, length_bytesBE]
  rfl

/-- A length that is not too short is followed by a read of as many bytes as it leaves. -/
theorem onRead_length (host : Endian) {r : SessionReader} (hr : r.AtLength) {total : UInt32}
    (hlong : ¬ total < 10) :
    r.onRead host (bytesBE total) =
      { r with
        lengthBuffer := bytesBE total
        messageBuffer := (r.messageBuffer.take (total - 4).toNat).rightpad (total - 4).toNat 0
        reading := some (.body total) } := by
  rw [onRead, show r.reading = some .length from hr]
  simp only [onReadLength, ntohl_load32_bytesBE, if_neg hlong, doReadBody]

/-- The body of a frame is extracted as its packet. -/
theorem onRead_frameBody (host : Endian) {r : SessionReader} {total : UInt32} {p : Packet}
    (hreading : r.reading = some (.body total)) (hsize : (total - 4).toNat = 6 + p.payload.length) :
    (r.onRead host (frameBody p)).AtLength ∧
      (r.onRead host (frameBody p)).handled = r.handled ++ [p] := by
  have hsequence : ntohl host (load32 host (((frameBody p).drop 2).take 4)) = p.sequence :=
    ntohl_load32_bytesBE host p.sequence
  rw [onRead, hreading]
  constructor
  · rfl
  · simp only [onReadBody, handlePacket, doReadLength, hsize, length_frameBody, hsequence, ne_eq,
      not_true_eq_false, if_false]
    rfl

/-- A loop that waits for a length takes the frame of a packet. -/
theorem loop_wire (host : Endian) {r : SessionReader} (hr : r.AtLength) {p : Packet}
    (h : p.payload.length + 14 < 2 ^ 32) (rest : List UInt8) :
    ∃ r' : SessionReader, r.loop host (p.wire ++ rest) = r'.loop host rest ∧ r'.AtLength ∧
      r'.handled = r.handled ++ [p] := by
  obtain ⟨total, htotal⟩ : ∃ total, total = UInt32.ofNat (10 + p.payload.length) := ⟨_, rfl⟩
  have hfits : p.Fits := by
    unfold Packet.Fits
    omega
  have hnat : total.toNat = 10 + p.payload.length := by rw [htotal, hfits.toNat_total]
  have hlong : ¬ total < 10 := by
    rw [UInt32.lt_iff_toNat_lt, hnat]
    simp
  -- the body read takes the rest of the frame, the length word apart
  have hsize : (total - 4).toNat = 6 + p.payload.length := by
    have hfour : (4 : UInt32).toNat = 4 := rfl
    rw [UInt32.toNat_sub, hfour, hnat]
    omega
  have hwire : p.wire = bytesBE total ++ frameBody p := by
    rw [Packet.wire, Packet.header, htotal, frameBody, List.append_assoc]
  have hlength := onRead_length host hr hlong
  have hbody : (r.onRead host (bytesBE total)).reading = some (.body total) := by rw [hlength]
  obtain ⟨hat, hhandled⟩ := onRead_frameBody host hbody hsize
  refine ⟨(r.onRead host (bytesBE total)).onRead host (frameBody p), ?_, hat, ?_⟩
  · rw [hwire]
    refine ExactReader.drain_append_append ?_ ?_
    · show r.wanted = _
      rw [wanted, show r.reading = some .length from hr]
      rfl
    · show (r.onRead host (bytesBE total)).wanted = _
      rw [hlength, length_frameBody, ← hsize]
      simp [wanted]
  · rw [hhandled, hlength]

/-- A loop that waits for a length stops at four zeros. -/
theorem loop_zeros (host : Endian) {r : SessionReader} (hr : r.AtLength) (rest : List UInt8) :
    ∃ r' : SessionReader, r.loop host ([0, 0, 0, 0] ++ rest) = (r', rest) ∧ r'.reading = none ∧
      r'.handled = r.handled := by
  have hzero : ntohl host (load32 host [0, 0, 0, 0]) = 0 := ntohl_load32_bytesBE host 0
  have hread : r.onRead host [0, 0, 0, 0] =
      { r with lengthBuffer := [0, 0, 0, 0], reading := none } := by
    simp only [onRead, show r.reading = _ from hr, onReadLength, hzero]
    rfl
  refine ⟨r.onRead host [0, 0, 0, 0], ?_, by rw [hread], by rw [hread]⟩
  rw [loop, ExactReader.drain_append (by
    show r.wanted = _
    rw [wanted, show r.reading = _ from hr]
    rfl)]
  refine ExactReader.drain_of_blocked fun k hk => ?_
  rw [show (reader host).deliver r [0, 0, 0, 0] = _ from hread] at hk
  exact absurd hk (by simp [reader, wanted])

/-! ## A stream of packets -/

/-- The concatenated bytes of packets. -/
def stream (sender : Endian) (ps : List Packet) : List UInt8 := ps.flatMap (sendPacketBytes sender)

/-- `handle_packet` extracts exactly the packets, every byte is consumed, and the loop waits for the
next length. -/
def RoundTrip (sender receiver : Endian) (ps : List Packet) : Prop :=
  (start.loop receiver (stream sender ps)).1.handled = ps ∧
    (start.loop receiver (stream sender ps)).1.AtLength ∧
    (start.loop receiver (stream sender ps)).2 = []

/-- The first packet arrives, and nothing after it is read. -/
theorem loop_cons (sender receiver : Endian) {p : Packet} (h : p.payload.length + 14 < 2 ^ 32)
    (ps : List Packet) :
    ∃ r : SessionReader, start.loop receiver (stream sender (p :: ps)) = (r, stream sender ps) ∧
      r.reading = none ∧ r.handled = [p] := by
  obtain ⟨r, hloop, hr, hhandled⟩ := loop_wire receiver (r := start) rfl h
    ([0, 0, 0, 0] ++ stream sender ps)
  obtain ⟨r', hloop', hreading, hhandled'⟩ := loop_zeros receiver hr (stream sender ps)
  refine ⟨r', ?_, hreading, ?_⟩
  · rw [stream, List.flatMap_cons, ← stream, sendPacketBytes_eq sender h, List.append_assoc, hloop]
    exact hloop'
  · rw [hhandled', hhandled]
    rfl

/-- A stream that begins with a packet is never read back. -/
theorem not_roundTrip_cons (sender receiver : Endian) {p : Packet}
    (h : p.payload.length + 14 < 2 ^ 32) (ps : List Packet) :
    ¬ RoundTrip sender receiver (p :: ps) := by
  intro hround
  obtain ⟨r, hloop, hreading, -⟩ := loop_cons sender receiver h ps
  have hwaits : r.AtLength := by simpa [hloop] using hround.2.1
  exact absurd (hreading.symm.trans hwaits) (by simp)

/-- **Packet stream.** Only the empty list of packets makes the round trip. -/
theorem stream_roundTrip_iff (sender receiver : Endian) (ps : List Packet)
    (h : ∀ p ∈ ps, p.payload.length + 14 < 2 ^ 32) : RoundTrip sender receiver ps ↔ ps = [] := by
  constructor
  · intro hround
    cases ps with
    | nil => rfl
    | cons p ps =>
      exact absurd hround (not_roundTrip_cons sender receiver (h p List.mem_cons_self) ps)
  · rintro rfl
    have hloop : start.loop receiver [] = (start, []) :=
      ExactReader.drain_of_lt (k := lengthSize) rfl (by simp [lengthSize])
    rw [RoundTrip, show stream sender [] = [] from rfl, hloop]
    exact ⟨rfl, rfl, rfl⟩

/-- A heartbeat and its answer. -/
def twoPackets : List Packet := [⟨0x03, 0, 1, []⟩, ⟨0x83, 0, 1, []⟩]

/-- They satisfy the condition of the stream theorem and do not make the round trip. -/
theorem stream_roundTrip_iff_twoPackets : ¬ RoundTrip .little .little twoPackets := by
  have hsmall : ∀ p ∈ twoPackets, p.payload.length + 14 < 2 ^ 32 := by decide
  exact fun h => absurd ((stream_roundTrip_iff .little .little twoPackets hsmall).mp h) (by decide)

/-- Of the two packets the first one arrives; the four zeros behind it are taken for a length, and
the second packet is left unread. -/
theorem second_packet_unread :
    ∃ r : SessionReader, start.loop .little (stream .little twoPackets) =
        (r, [0, 0, 0, 10, 0x83, 0, 0, 0, 0, 1, 0, 0, 0, 0]) ∧
      r.handled = [⟨0x03, 0, 1, []⟩] ∧ r.reading = none ∧
      ¬ RoundTrip .little .little twoPackets := by
  obtain ⟨r, hloop, hreading, hhandled⟩ :=
    loop_cons .little .little (p := ⟨0x03, 0, 1, []⟩) (by decide) [⟨0x83, 0, 1, []⟩]
  exact ⟨r, hloop, hhandled, hreading, not_roundTrip_cons .little .little (by decide) _⟩

end SessionReader

end TurboNet.Qwen
