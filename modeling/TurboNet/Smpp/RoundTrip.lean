import Mathlib.Data.List.TakeDrop
import TurboNet.Smpp.Batch

/-!
# Reading back what has been sent

Reference: `new_chatgpt/main.cpp`, `SmppPdu::to_buffers`, `SmppPdu::deserialize`,
`SmppSession::send_pdu`, `BindTransceiver`, `BindTransceiverResp`, `EnquireLink`.

`to_buffers` writes `command_length` as the object has it, and `deserialize` cuts the body off at
that length. Nothing between the constructor and the write sets the field: what it holds is what
was in memory when the object was made. `deserialize_toBuffers` says what comes of a PDU with any
length; `readsBack_iff` says that the PDU comes back exactly when the length is that of its bytes.
With the right lengths the two ends of a connection agree: `parsed_sendEach` takes the PDUs of one
session through the read loop of the other.
-/

namespace TurboNet.Smpp

open Common

/-! ## The PDUs of the library -/

/-- The calls of constructors, with their arguments. -/
inductive Built where
  | bindTransceiver (seq : UInt32) (systemId password : List UInt8)
  | bindTransceiverResp (seq status : UInt32)
  | enquireLink (seq : UInt32)
deriving DecidableEq, Repr

namespace Built

/-- The object that is made. `garbage` is what memory holds where `command_length` is. -/
def pdu (garbage : UInt32) : Built → SmppPdu
  | .bindTransceiver seq systemId password =>
    Smpp.bindTransceiver garbage seq systemId password
  | .bindTransceiverResp seq status => Smpp.bindTransceiverResp garbage seq status
  | .enquireLink seq => Smpp.enquireLink garbage seq

/-- The size of header and body. -/
def size : Built → ℕ
  | .bindTransceiver _ systemId password => 23 + systemId.length + password.length
  | .bindTransceiverResp _ _ => 28
  | .enquireLink _ => 16

/-- The length field is what memory happens to hold. -/
@[simp] theorem commandLength_pdu (b : Built) (garbage : UInt32) :
    (b.pdu garbage).commandLength = garbage := by
  cases b <;> rfl

/-- The object has the size that was asked for. -/
theorem length_body_pdu (b : Built) (garbage : UInt32) :
    16 + (b.pdu garbage).body.length = b.size := by
  cases b with
  | bindTransceiver seq systemId password =>
    simp only [pdu, Smpp.bindTransceiver, size, List.length_append, List.length_cons,
      List.length_nil]
    omega
  | bindTransceiverResp => rfl
  | enquireLink => rfl

end Built

/-! ## From `to_buffers` to `deserialize` -/

variable (host peer : Endian) (p : SmppPdu)

/-- Header and body as the peer expects them. -/
theorem toBuffers_eq : p.toBuffers host =
    bytesBE p.commandLength ++ (bytesBE p.commandId ++ (bytesBE p.commandStatus ++
      (bytesBE p.sequenceNumber ++ p.body))) := by
  simp only [SmppPdu.toBuffers, store32_htonl, List.append_assoc]

/-- The buffers hold 16 bytes of header and the body. -/
theorem length_toBuffers : (p.toBuffers host).length = 16 + p.body.length := by
  simp only [toBuffers_eq, List.length_append, length_bytesBE]
  omega

/-- A word of network order is read where it stands. -/
theorem wordAt_append {front back : List UInt8} {offset : ℕ} (v : UInt32)
    (hoffset : front.length = offset) :
    wordAt peer (front ++ (bytesBE v ++ back)) offset = v := by
  subst hoffset
  have hlength : front.length + 4 ≤ (front ++ (bytesBE v ++ back)).length := by
    simp only [List.length_append, length_bytesBE]
    omega
  rw [wordAt_eq peer hlength, List.drop_left, List.take_left' (length_bytesBE v),
    ofBytesBE_bytesBE]

/-- The four header fields are read where they were written. -/
theorem wordAt_toBuffers :
    wordAt peer (p.toBuffers host) 0 = p.commandLength ∧
      wordAt peer (p.toBuffers host) 4 = p.commandId ∧
      wordAt peer (p.toBuffers host) 8 = p.commandStatus ∧
      wordAt peer (p.toBuffers host) 12 = p.sequenceNumber := by
  rw [toBuffers_eq]
  refine ⟨?_, ?_, ?_, ?_⟩
  · exact wordAt_append peer p.commandLength (List.length_nil (α := UInt8))
  · exact wordAt_append peer p.commandId rfl
  · rw [← List.append_assoc]
    exact wordAt_append peer p.commandStatus rfl
  · rw [← List.append_assoc, ← List.append_assoc]
    exact wordAt_append peer p.sequenceNumber rfl

/-- The body comes after the header. -/
theorem drop_toBuffers : (p.toBuffers host).drop 16 = p.body := by
  refine List.drop_left' ?_
  simp only [store32_htonl, List.length_append, length_bytesBE]

/-- What comes of the bytes of a PDU. A length that is more than they are is refused, and one that
is less than a header makes an inverted range; any other one cuts the body off. -/
theorem deserialize_toBuffers (hsize : 16 + p.body.length ≤ maxPduSize) :
    deserialize peer (p.toBuffers host) (p.toBuffers host).length =
      if 16 + p.body.length < p.commandLength.toNat then .null
      else if p.commandLength.toNat < 16 then .inverted
      else .pdu { p with body := p.body.take (p.commandLength.toNat - 16) } := by
  obtain ⟨hlength, hid, hstatus, hnumber⟩ := wordAt_toBuffers host peer p
  unfold deserialize
  rw [length_toBuffers, if_neg (by rw [maxHeader]; omega)]
  simp only [hlength, hid, hstatus, hnumber]
  by_cases hlong : 16 + p.body.length < p.commandLength.toNat
  · rw [if_pos (Or.inl hlong), if_pos hlong]
  · rw [if_neg (by omega), if_neg hlong, List.drop_take, drop_toBuffers]

/-- The body comes back whole only with a length that is the number of bytes, and then the PDU is
the one that was written. -/
theorem deserialize_toBuffers_iff (hsize : 16 + p.body.length ≤ maxPduSize) (q : SmppPdu) :
    deserialize peer (p.toBuffers host) (p.toBuffers host).length = .pdu q ∧ q.body = p.body ↔
      p.commandLength.toNat = 16 + p.body.length ∧ q = p := by
  rw [deserialize_toBuffers host peer p hsize]
  constructor
  · rintro ⟨hq, hbody⟩
    split at hq
    · exact absurd hq (by simp)
    · rename_i hlong
      split at hq
      · exact absurd hq (by simp)
      · obtain rfl := Deserialized.pdu.inj hq
        have hwhole : p.body.length ≤ p.commandLength.toNat - 16 :=
          (List.take_eq_self_iff _).mp hbody
        exact ⟨by omega, congrArg (fun body => { p with body := body }) hbody⟩
  · rintro ⟨hlength, rfl⟩
    have hwhole : q.body.take (q.commandLength.toNat - 16) = q.body :=
      List.take_of_length_le (by omega)
    rw [if_neg (by omega), if_neg (by omega), hwhole]
    exact ⟨rfl, rfl⟩

/-! ## What has been sent is read back -/

/-- The bytes that `send_pdu` writes for the PDU at an address are deserialized to a PDU with the
same id, status and body, and the number that `send_pdu` has given to it. -/
def ReadsBack (now timeout : ℕ) (st : Store) (address : ℕ) : Prop :=
  let sent := (st.sendPdu host now timeout address).2
  ∃ q, deserialize peer sent sent.length = .pdu q ∧
    q.commandId = (st.pdus address).commandId ∧
    q.commandStatus = (st.pdus address).commandStatus ∧
    q.sequenceNumber = st.session.seq ∧
    q.body = (st.pdus address).body

/-- `send_pdu` writes the PDU with the number it has given to it. -/
theorem sendPdu_bytes (now timeout : ℕ) (st : Store) (address : ℕ) :
    (st.sendPdu host now timeout address).2 =
      (st.session.numbered (st.pdus address)).toBuffers host :=
  congrArg (SmppPdu.toBuffers host) (Function.update_self ..)

/-- A PDU comes back exactly when its length field is the number of its bytes. -/
theorem readsBack_iff (now timeout : ℕ) (st : Store) (address : ℕ)
    (hsize : 16 + (st.pdus address).body.length ≤ maxPduSize) :
    ReadsBack host peer now timeout st address ↔
      (st.pdus address).commandLength.toNat = 16 + (st.pdus address).body.length := by
  have hiff := deserialize_toBuffers_iff host peer (st.session.numbered (st.pdus address)) hsize
  unfold ReadsBack
  rw [sendPdu_bytes]
  constructor
  · rintro ⟨q, hq, -, -, -, hbody⟩
    exact ((hiff q).mp ⟨hq, hbody⟩).1
  · intro hlength
    obtain ⟨hq, hbody⟩ := (hiff _).mpr ⟨hlength, rfl⟩
    exact ⟨_, hq, rfl, rfl, rfl, hbody⟩

/-- **The length of a PDU is not set.** A PDU that the library has built, of at most 8192 bytes,
comes back from the bytes that `send_pdu` writes for it exactly when the memory of its
`command_length` happened to hold the number of these bytes. -/
theorem built_readsBack_iff (now timeout : ℕ) (st : Store) (address : ℕ) (b : Built)
    (garbage : UInt32) (hbuilt : st.pdus address = b.pdu garbage) (hsize : b.size ≤ 8192) :
    ReadsBack host peer now timeout st address ↔ garbage.toNat = b.size := by
  have hlength := b.length_body_pdu garbage
  have hiff := readsBack_iff host peer now timeout st address
    (by rw [hbuilt, hlength]; exact hsize)
  rw [hiff, hbuilt, hlength, Built.commandLength_pdu]

/-- `BindTransceiver(1, "id", "pw")`, with the right length by chance. -/
theorem built_readsBack_iff_bind :
    ReadsBack .little .big 0 30
      { session := { onRequest := true, onResponse := true }
        pdus := fun _ => bindTransceiver 27 1 [0x69, 0x64] [0x70, 0x77] } 0 :=
  (built_readsBack_iff .little .big 0 30 _ 0 (.bindTransceiver 1 [0x69, 0x64] [0x70, 0x77]) 27 rfl
    (by decide)).mpr rfl

/-- `EnquireLink(1)` in memory that held 17: the length says that a byte is missing, and nothing
comes back. -/
theorem enquireLink_not_read_back :
    ¬ (∀ (host peer : Endian) (now timeout : ℕ) (st : Store) (address : ℕ) (b : Built)
      (garbage : UInt32), st.pdus address = b.pdu garbage → b.size ≤ 8192 →
        ReadsBack host peer now timeout st address) := by
  intro h
  obtain ⟨q, hq, -⟩ := h .little .little 0 30
    { session := { onRequest := true, onResponse := true }, pdus := fun _ => enquireLink 17 1 } 0
    (.enquireLink 1) 17 rfl (by decide)
  have hnull : deserialize .little ((enquireLink 17 1).toBuffers .little) 16 = .null := by decide
  exact absurd (hnull.symm.trans hq) (by simp)

/-! ## From a session to the read loop of its peer -/

/-- The length field is the number of bytes, and these are not too many. -/
def SmppPdu.Sized (p : SmppPdu) : Prop :=
  p.commandLength.toNat = 16 + p.body.length ∧ 16 + p.body.length ≤ maxPduSize

variable {p}

/-- The reader takes the length field from the front of what is written. -/
theorem blockLength_toBuffers_append (rest : List UInt8) :
    blockLength (p.toBuffers host ++ rest) = p.commandLength.toNat := by
  rw [blockLength, toBuffers_eq, List.append_assoc, List.take_left' (length_bytesBE _),
    ofBytesBE_bytesBE]

/-- The block of a PDU is parsed as this PDU. -/
theorem SmppPdu.Sized.pduOf_toBuffers (h : p.Sized) : pduOf (p.toBuffers host) = p := by
  have hlength := length_toBuffers host p
  obtain ⟨hfield, hmax⟩ := h
  have hblock : blockLength (p.toBuffers host) = (p.toBuffers host).length := by
    have happend := blockLength_toBuffers_append host (p := p) []
    rw [List.append_nil] at happend
    rw [happend, hfield, hlength]
  have hpdu := deserialize_block host (by omega) (by rw [hlength]; exact hmax) hblock
  obtain ⟨hself, -⟩ := (deserialize_toBuffers_iff host host p hmax p).mpr ⟨hfield, rfl⟩
  exact Deserialized.pdu.inj (hpdu.symm.trans hself)

/-- A PDU of the right length is parsed off the front of the stream. -/
theorem SmppPdu.Sized.greedy_append (h : p.Sized) (rest : List UInt8) :
    greedy (p.toBuffers host ++ rest) = (p :: (greedy rest).1, (greedy rest).2) := by
  have hlength : (p.toBuffers host).length = blockLength (p.toBuffers host ++ rest) := by
    rw [length_toBuffers, blockLength_toBuffers_append, h.1]
  have hblock : HasBlock (p.toBuffers host ++ rest) := by
    obtain ⟨hfield, hmax⟩ := h
    have hfield' := blockLength_toBuffers_append host (p := p) rest
    refine ⟨by omega, ?_, by rw [List.length_append]; omega⟩
    rw [hfield', hfield]
    exact hmax
  rw [greedy_of_hasBlock hblock, List.take_left' hlength, List.drop_left' hlength,
    h.pduOf_toBuffers host]

/-- PDUs of the right length are all parsed, and nothing is left. -/
theorem greedy_flatMap_toBuffers {ps : List SmppPdu} (h : ∀ p ∈ ps, p.Sized) :
    greedy (ps.flatMap (SmppPdu.toBuffers host)) = (ps, []) := by
  induction ps with
  | nil =>
    have hempty : ¬ HasBlock [] := by decide
    exact greedy_of_not_hasBlock hempty
  | cons p ps ih =>
    obtain ⟨hp, hps⟩ := List.forall_mem_cons.mp h
    rw [List.flatMap_cons, hp.greedy_append host, ih hps]

/-- PDUs with the right length that are sent one after another arrive at the other end as they were
sent, in this order and with the numbers of the sender. -/
theorem parsed_sendEach (now timeout : ℕ) (st : Store) (batch : List ℕ)
    (h : ∀ address ∈ batch, (st.pdus address).Sized) :
    (Reader.receive peer (st.sendEach host now timeout batch).2).parsed =
      (Store.numbers st.session.seq batch).map fun x =>
        .pdu (Store.withNumber (st.pdus x.1) x.2) := by
  have hsized : ∀ p ∈ (Store.numbers st.session.seq batch).map fun x =>
      Store.withNumber (st.pdus x.1) x.2, p.Sized := by
    intro p hp
    obtain ⟨x, hx, rfl⟩ := List.mem_map.mp hp
    refine h x.1 ?_
    rw [← Store.map_fst_numbers st.session.seq batch]
    exact List.mem_map_of_mem hx
  have hgreedy := greedy_flatMap_toBuffers host hsized
  rw [List.flatMap_map] at hgreedy
  rw [Reader.receive, Reader.parsed_onError, (Reader.loop_greedy peer Reader.atHeader_start).1,
    Store.sendEach_bytes, hgreedy, List.map_map]
  rfl

end TurboNet.Smpp
