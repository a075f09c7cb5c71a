import TurboNet.Asio.WriteOrder

/-!
# Packets in a byte stream

Reference: `claude/asio_server.cpp`, `Connection::readHeader`, `readPayload`;
`claude/asio_client.cpp`, the same functions of `TcpClient`; `Packet::serialize` of both.

The sender serializes packets one after another. `Awaits` relates the reader to the bytes that it
has still to get: they are the packets that it has yet to process, and the payload of the next one
if it has the header. `Awaits.onRead` is what one read does, if the packets are `Legible`.
-/

namespace TurboNet.Asio

open Common

/-- The reader can tell the packets apart: the length fields are right and not too large, and no
packet without a payload comes after one with a payload. -/
structure Legible (packets : List Packet) : Prop where
  length : ∀ p ∈ packets, p.header.length.toNat = sizeofHeader + p.payload.length
  bound : ∀ p ∈ packets, p.header.length.toNat ≤ bufferSize
  empty : packets.Pairwise fun x y => y.payload = [] → x.payload = []

instance (packets : List Packet) : Decidable (Legible packets) :=
  decidable_of_iff
    ((∀ p ∈ packets, p.header.length.toNat = sizeofHeader + p.payload.length) ∧
      (∀ p ∈ packets, p.header.length.toNat ≤ bufferSize) ∧
      packets.Pairwise fun x y => y.payload = [] → x.payload = [])
    ⟨fun h => ⟨h.1, h.2.1, h.2.2⟩, fun h => ⟨h.1, h.2, h.3⟩⟩

/-- Frames of more packets follow those of the first ones. -/
theorem Frames.append_frames {host : Endian} {frames frames' : List (List UInt8)}
    {packets packets' : List Packet} (h : Frames host frames packets)
    (h' : Frames host frames' packets') : Frames host (frames ++ frames') (packets ++ packets') :=
  List.rel_append h h'

/-- `serialize` makes the frames of the packets. -/
theorem frames_serialize (host : Endian) (padding : Padding) (packets : List Packet) :
    Frames host (packets.map fun p => p.serialize host padding) packets :=
  List.forall₂_map_left_iff.mpr (List.forall₂_same.mpr fun _ _ => ⟨padding, rfl⟩)

namespace PacketReader

variable {host sender : Endian} {r : PacketReader} {packets new : List Packet}
  {rest bs : List UInt8}

/-- The reader has the header of this packet and waits for its payload. -/
structure AtPayload (r : PacketReader) (p : Packet) : Prop where
  reading : r.reading = some .payload
  currentHeader : r.currentHeader = p.header
  currentPayloadSize : r.currentPayloadSize = p.payload.length
  currentPayload : r.currentPayload.length = p.payload.length
  payloadBytesRead : r.payloadBytesRead = 0
  headerBuffer : r.headerBuffer.length = sizeofHeader
  closed : r.closed = false
  payload : p.payload ≠ []

/-- What is in the payload vector is from a packet that has been processed. -/
def Settled (r : PacketReader) : Prop :=
  r.currentPayload ≠ [] → ∃ q ∈ r.processed, q.payload ≠ []

/-- The reader has these packets still to process and these bytes still to read, or it does not read
any more. -/
inductive Awaits (sender : Endian) (r : PacketReader) (packets : List Packet)
    (rest : List UInt8) : Prop where
  | header (frames : List (List UInt8)) (hr : r.AtHeader) (hsettled : r.Settled)
      (hframes : Frames sender frames packets) (hrest : rest = frames.flatten)
  | payload (frames : List (List UInt8)) (p : Packet) (ps : List Packet) (hr : r.AtPayload p)
      (hpackets : packets = p :: ps) (hframes : Frames sender frames ps)
      (hrest : rest = p.payload ++ frames.flatten)
  | ended (hreading : r.reading = none)

/-- A new reader awaits nothing. -/
theorem awaits_start (sender : Endian) : Awaits sender start [] [] :=
  .header [] .start (fun h => absurd rfl h) .nil rfl

/-- The sender goes on. -/
theorem Awaits.append (h : Awaits sender r packets rest) {frames : List (List UInt8)}
    (hframes : Frames sender frames new) :
    Awaits sender r (packets ++ new) (rest ++ frames.flatten) := by
  cases h with
  | header frames' hr hsettled hframes' hrest =>
    refine .header (frames' ++ frames) hr hsettled (hframes'.append_frames hframes) ?_
    rw [hrest, List.flatten_append]
  | payload frames' p ps hr hpackets hframes' hrest =>
    refine .payload (frames' ++ frames) p (ps ++ new) hr ?_ (hframes'.append_frames hframes) ?_
    · rw [hpackets, List.cons_append]
    · rw [hrest, List.flatten_append, List.append_assoc]
  | ended hreading => exact .ended hreading

/-- A reader that reads has not closed its connection. -/
theorem Awaits.closed (h : Awaits sender r packets rest) (hreading : r.reading.isSome = true) :
    r.closed = false := by
  cases h with
  | header _ hr => exact hr.closed
  | payload _ _ _ hr => exact hr.closed
  | ended hnone => simp [hnone] at hreading

/-- The reader never asks for nothing. -/
theorem Awaits.wanted_ne (h : Awaits sender r packets rest) : r.wanted ≠ some 0 := by
  cases h with
  | header _ hr => simp [wanted, hr.reading, hr.headerBytesRead, sizeofHeader]
  | payload _ _ _ hr =>
    simp [wanted, hr.reading, hr.currentPayloadSize, hr.payloadBytesRead, hr.payload]
  | ended hnone => simp [wanted, hnone]

/-- A read in which the reader has got the next packet, or the header of the next packet. -/
structure Reads (host sender : Endian) (r : PacketReader) (packets : List Packet)
    (rest bs : List UInt8) (new : List Packet) : Prop where
  closed : (r.onRead host bs).closed = false
  reading : (r.onRead host bs).reading.isSome = true
  processed : (r.onRead host bs).processed = r.processed ++ new
  one : new = [] ∨ ∃ p, new = [p]
  awaits : ∃ packets', packets = new ++ packets' ∧
    Awaits sender (r.onRead host bs) packets' (rest.drop bs.length)

/-- The reader gets the header of the next packet. -/
theorem reads_header {frames : List (List UInt8)} {p : Packet} {ps : List Packet}
    {padding : Padding} (hr : r.AtHeader) (hsettled : r.Settled)
    (hlegible : Legible (r.processed ++ p :: ps)) (hframes : Frames sender frames ps) :
    ∃ new, Reads host sender r (p :: ps) (p.serialize sender padding ++ frames.flatten)
      (p.header.wire padding) new := by
  have hmem : p ∈ r.processed ++ p :: ps := by simp
  have hlength := hlegible.length p hmem
  have hread := hr.onRead host padding p.header
  rw [if_neg (by have := hlegible.bound p hmem; omega)] at hread
  have hsize : p.header.length.toNat - sizeofHeader = p.payload.length := by omega
  have hdrop : (p.serialize sender padding ++ frames.flatten).drop (p.header.wire padding).length =
      p.payload ++ frames.flatten := by
    rw [Packet.serialize_eq, List.append_assoc, List.drop_left]
  rw [hsize] at hread
  by_cases hempty : p.payload = []
  · -- all packets before it are empty as well, so there is nothing in the vector
    have hold : r.currentPayload = [] := by
      by_contra hne
      obtain ⟨q, hq, hqne⟩ := hsettled hne
      have hpairs := (List.pairwise_append.mp hlegible.empty).2.2
      exact hqne (hpairs q hq p List.mem_cons_self hempty)
    rw [hempty, List.length_nil, if_neg (Nat.lt_irrefl 0)] at hread
    refine ⟨[p], ?_, ?_, ?_, Or.inr ⟨p, rfl⟩, ps, rfl, ?_⟩
    · rw [hread]
      exact hr.closed
    · rw [hread]
      rfl
    · rw [hread, hold, ← hempty]
    · rw [hdrop, hempty, hread]
      refine .header frames ⟨rfl, rfl, rfl, hr.closed⟩ ?_ hframes rfl
      exact fun hne => absurd hold hne
  · rw [if_pos (List.length_pos_iff.mpr hempty)] at hread
    refine ⟨[], ?_, ?_, ?_, Or.inl rfl, p :: ps, rfl, ?_⟩
    · rw [hread]
      exact hr.closed
    · rw [hread]
      rfl
    · rw [hread, List.append_nil]
    · rw [hdrop, hread]
      exact .payload frames p ps ⟨rfl, rfl, rfl, length_resize _ _, rfl, rfl, hr.closed, hempty⟩ rfl
        hframes rfl

/-- The reader gets the payload of the next packet. -/
theorem reads_payload {frames : List (List UInt8)} {p : Packet} {ps : List Packet}
    (hr : r.AtPayload p) (hframes : Frames sender frames ps) :
    Reads host sender r (p :: ps) (p.payload ++ frames.flatten) p.payload [p] := by
  have hcopy : memcpy r.currentPayload 0 p.payload = p.payload := by
    rw [memcpy, Nat.zero_add, List.drop_of_length_le (by rw [hr.currentPayload])]
    simp
  have hread : r.onRead host p.payload = { r with
      currentPayload := p.payload
      payloadBytesRead := p.payload.length
      processed := r.processed ++ [p]
      headerBytesRead := 0
      readState := .header
      reading := some .header } := by
    simp only [onRead, hr.reading, onReadPayload, hr.payloadBytesRead, hcopy, Nat.zero_add,
      hr.currentPayloadSize, ↓reduceIte, finishPacket, processPacket, readHeader, hr.currentHeader]
  refine ⟨?_, ?_, ?_, Or.inr ⟨p, rfl⟩, ps, rfl, ?_⟩
  · rw [hread]
    exact hr.closed
  · rw [hread]
    rfl
  · rw [hread]
  · rw [List.drop_left, hread]
    refine .header frames ⟨rfl, rfl, hr.headerBuffer, hr.closed⟩ (fun hne => ?_) hframes rfl
    exact ⟨p, by simp, hne⟩

/-- **One read.** A read of the bytes that come next gets the header or the payload of the next
packet. -/
theorem Awaits.onRead (host : Endian) (h : Awaits sender r packets rest)
    (hlegible : Legible (r.processed ++ packets)) (hwanted : r.wanted = some bs.length)
    (hbs : bs <+: rest) : ∃ new, Reads host sender r packets rest bs new := by
  obtain ⟨more, hmore⟩ := hbs
  -- the read brings all of the header, or all of the payload
  cases h with
  | header frames hr hsettled hframes hrest =>
    have hsize : bs.length = sizeofHeader := by
      have hwant : r.wanted = some sizeofHeader := by
        simp [wanted, hr.reading, hr.headerBytesRead]
      exact (Option.some.inj (hwant.symm.trans hwanted)).symm
    cases hframes with
    | nil =>
      rw [hrest] at hmore
      rw [(List.append_eq_nil_iff.mp hmore).1] at hsize
      cases hsize
    | @cons frame p frames ps hframe hframes =>
      obtain ⟨padding, rfl⟩ := hframe
      rw [List.flatten_cons] at hrest
      have hwire : bs = p.header.wire padding := by
        rw [hrest, Packet.serialize_eq, List.append_assoc] at hmore
        exact (List.append_inj hmore hsize).1
      rw [hwire, hrest]
      exact reads_header hr hsettled hlegible hframes
  | payload frames p ps hr hpackets hframes hrest =>
    have hsize : p.payload.length = bs.length := by
      have hwant : r.wanted = some p.payload.length := by
        simp [wanted, hr.reading, hr.currentPayloadSize, hr.payloadBytesRead]
      exact Option.some.inj (hwant.symm.trans hwanted)
    rw [hrest] at hmore
    obtain rfl := (List.append_inj hmore hsize.symm).1
    rw [hpackets, hrest]
    exact ⟨[p], reads_payload hr hframes⟩
  | ended hreading => simp [wanted, hreading] at hwanted

end PacketReader

end TurboNet.Asio
