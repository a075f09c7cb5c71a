import TurboNet.Common.Bytes
import TurboNet.Common.ExactReader

/-!
# Framing of SMPP PDUs

Reference: `new_chatgpt/main.cpp`, `SmppPdu::deserialize`, `SmppSession::read_header`,
`handle_header`, `read_body`, `parse_pdu`.

The read loop appends to `streambuf_` twice for each PDU, first the header and then the body, and
checks the length in between; `deserialize` checks it again, with other bounds. `greedy` is what the
loop is for: cut the stream into blocks whose first word is their length, as long as the length is
one of a PDU and the block is all there. `loop_eq_greedy` says that the loop does this, and that it
closes exactly where the parse ends.

What becomes of a PDU in `parse_pdu`, and the inactivity timer, are not part of the framing.
-/

namespace TurboNet.Smpp

open Common

/-- `MAX_HEADER` and `MAX_PDU_SIZE`. -/
def maxHeader : ℕ := 16
def maxPduSize : ℕ := 1024 * 8

structure SmppPdu where
  commandLength : UInt32
  commandId : UInt32
  commandStatus : UInt32
  sequenceNumber : UInt32
  body : List UInt8
deriving DecidableEq, Repr

/-- The word at an offset, `big_to_native(*reinterpret_cast<const uint32_t*>(data+offset))`. -/
def wordAt (host : Endian) (data : List UInt8) (offset : ℕ) : UInt32 :=
  ntohl host (load32 host ((data.drop offset).take 4))

/-- What `deserialize` can end in: `nullptr`, an `assign` from a range that ends before it begins,
or a PDU. -/
inductive Deserialized where
  | null
  | inverted
  | pdu (p : SmppPdu)
deriving DecidableEq, Repr

/-- `SmppPdu::deserialize`. -/
def deserialize (host : Endian) (data : List UInt8) (size : ℕ) : Deserialized :=
  if size < maxHeader then .null
  else
    let cmdLen := wordAt host data 0
    if size < cmdLen.toNat ∨ maxPduSize < cmdLen.toNat then .null
    -- `assign(data+16, data+cmd_len)`
    else if cmdLen.toNat < 16 then .inverted
    else .pdu
      { commandLength := cmdLen
        commandId := wordAt host data 4
        commandStatus := wordAt host data 8
        sequenceNumber := wordAt host data 12
        body := (data.take cmdLen.toNat).drop 16 }

/-! ## The greedy parse -/

/-- The length that a block begins with. -/
def blockLength (bs : List UInt8) : ℕ := (ofBytesBE (bs.take 4)).toNat

/-- The PDU of a block: four big-endian words, and the body. -/
def pduOf (block : List UInt8) : SmppPdu where
  commandLength := ofBytesBE (block.take 4)
  commandId := ofBytesBE ((block.drop 4).take 4)
  commandStatus := ofBytesBE ((block.drop 8).take 4)
  sequenceNumber := ofBytesBE ((block.drop 12).take 4)
  body := block.drop 16

/-- There is a header, and its length is not the length of a PDU. -/
def BadHeader (bs : List UInt8) : Prop :=
  16 ≤ bs.length ∧ (blockLength bs < 16 ∨ 8192 < blockLength bs)

instance (bs : List UInt8) : Decidable (BadHeader bs) :=
  inferInstanceAs (Decidable (16 ≤ bs.length ∧ (blockLength bs < 16 ∨ 8192 < blockLength bs)))

/-- A whole block. -/
def HasBlock (bs : List UInt8) : Prop :=
  16 ≤ blockLength bs ∧ blockLength bs ≤ 8192 ∧ blockLength bs ≤ bs.length

instance (bs : List UInt8) : Decidable (HasBlock bs) :=
  inferInstanceAs (Decidable (16 ≤ blockLength bs ∧ blockLength bs ≤ 8192 ∧
    blockLength bs ≤ bs.length))

/-- Cut blocks off the stream while there are any. Returns the PDUs and what is left. -/
def greedy (bs : List UInt8) : List SmppPdu × List UInt8 :=
  if HasBlock bs then
    let rest := greedy (bs.drop (blockLength bs))
    (pduOf (bs.take (blockLength bs)) :: rest.1, rest.2)
  else ([], bs)
termination_by bs.length
decreasing_by
  rename_i h
  obtain ⟨hle, -, hlen⟩ := h
  rw [List.length_drop]
  omega

/-- A whole block is cut off first. -/
theorem greedy_of_hasBlock {bs : List UInt8} (h : HasBlock bs) :
    greedy bs = (pduOf (bs.take (blockLength bs)) :: (greedy (bs.drop (blockLength bs))).1,
      (greedy (bs.drop (blockLength bs))).2) := by
  rw [greedy, if_pos h]

/-- Where there is no whole block nothing is cut off. -/
theorem greedy_of_not_hasBlock {bs : List UInt8} (h : ¬ HasBlock bs) : greedy bs = ([], bs) := by
  rw [greedy, if_neg h]

/-! ## What `deserialize` returns -/

/-- A word in the data is big-endian, whatever the host is. -/
theorem wordAt_eq (host : Endian) {data : List UInt8} {offset : ℕ}
    (h : offset + 4 ≤ data.length) :
    wordAt host data offset = ofBytesBE ((data.drop offset).take 4) := by
  refine ntohl_load32 host ?_
  rw [List.length_take, List.length_drop]
  omega

/-- `deserialize` of a block with its own length returns its PDU. -/
theorem deserialize_block (host : Endian) {block : List UInt8} (hlength : 16 ≤ block.length)
    (hmax : block.length ≤ 8192) (hblock : blockLength block = block.length) :
    deserialize host block block.length = .pdu (pduOf block) := by
  have hcmdLen : wordAt host block 0 = ofBytesBE (block.take 4) :=
    wordAt_eq host (by omega)
  have htoNat : (wordAt host block 0).toNat = block.length := by
    rw [hcmdLen]
    exact hblock
  unfold deserialize maxHeader maxPduSize
  rw [if_neg (by omega)]
  simp only [htoNat]
  rw [if_neg (by omega), if_neg (by omega), hcmdLen, wordAt_eq host (by omega),
    wordAt_eq host (by omega), wordAt_eq host (by omega), List.take_length, pduOf]

/-! ## The read loop -/

inductive Reading where
  | header
  | body (size : ℕ)
deriving DecidableEq, Repr

structure Reader where
  streambuf : List UInt8 := []
  /-- The outstanding `async_read`. -/
  reading : Option Reading := none
  /-- History: how often `close` has been called. -/
  closes : ℕ := 0
  /-- History: what `deserialize` has returned. -/
  parsed : List Deserialized := []
deriving DecidableEq, Repr

namespace Reader

/-- `read_header`. -/
def readHeader (r : Reader) : Reader := { r with reading := some .header }

/-- `read_body`. -/
def readBody (r : Reader) (size : ℕ) : Reader := { r with reading := some (.body size) }

/-- `close`. -/
def close (r : Reader) : Reader := { r with closes := r.closes + 1 }

/-- `handle_header`. -/
def handleHeader (host : Endian) (r : Reader) : Reader :=
  let cmdLen := wordAt host r.streambuf 0
  if cmdLen.toNat < maxHeader ∨ maxPduSize < cmdLen.toNat then r.close
  else r.readBody (cmdLen.toNat - maxHeader)

/-- `parse_pdu`, up to what it does with the PDU. -/
def parsePdu (host : Endian) (r : Reader) (total : ℕ) : Reader :=
  { r with
    parsed := r.parsed ++ [deserialize host r.streambuf total]
    streambuf := r.streambuf.drop total }

/-- The outstanding read completes without an error. -/
def onRead (host : Endian) (r : Reader) (bs : List UInt8) : Reader :=
  match r.reading with
  | some .header => { r with streambuf := r.streambuf ++ bs, reading := none }.handleHeader host
  | some (.body size) =>
    ({ r with streambuf := r.streambuf ++ bs, reading := none }.parsePdu host
      (size + maxHeader)).readHeader
  | none => r

/-- The outstanding read completes with an error, after some bytes. -/
def onError (r : Reader) (bs : List UInt8) : Reader :=
  if r.reading.isSome then
    { r with streambuf := r.streambuf ++ bs, reading := none }.close
  else r

/-- `start`. -/
def start : Reader := ({} : Reader).readHeader

/-- How many bytes the outstanding read asks for. -/
def wanted (r : Reader) : Option ℕ :=
  match r.reading with
  | some .header => some maxHeader
  | some (.body size) => some size
  | none => none

/-- A read of a body may ask for no bytes, but not two in a row. -/
def rank (r : Reader) : ℕ :=
  match r.reading with
  | some (.body _) => 1
  | _ => 0

/-- After a body of no bytes a header is read. -/
theorem rank_onRead {host : Endian} {r : Reader} (h : r.wanted = some 0) :
    (r.onRead host []).rank < r.rank := by
  unfold wanted at h
  unfold onRead rank
  split at h
  · exact absurd (Option.some.inj h) (by decide)
  · rename_i hreading
    rw [hreading]
    exact Nat.zero_lt_one
  · exact absurd h (by simp)

/-- The read loop. -/
def reader (host : Endian) : ExactReader Reader UInt8 where
  want := wanted
  deliver := onRead host
  rank := rank
  bound := 1
  rank_le r := by
    unfold rank
    split <;> omega
  rank_lt _ h := rank_onRead h

/-- Feed a byte stream to the read loop until the outstanding read asks for more than remains. -/
def loop (host : Endian) (r : Reader) (stream : List UInt8) : Reader × List UInt8 :=
  (reader host).drain r stream

/-- Feed a byte stream to the read loop, and end it. -/
def receive (host : Endian) (stream : List UInt8) : Reader :=
  (loop host start stream).1.onError (loop host start stream).2

/-- A read completes, or the stream ends before it does. -/
inductive Event where
  | completed (bs : List UInt8)
  | ended (bs : List UInt8)
deriving DecidableEq

/-- The bytes that have come. -/
def Event.bytes : Event → List UInt8
  | .completed bs => bs
  | .ended bs => bs

/-- The read loop as a machine. -/
def step (host : Endian) (r : Reader) : Event → Option Reader
  | .completed bs => (reader host).step r bs
  | .ended bs => (r.wanted.filter (bs.length < ·)).map fun _ => r.onError bs

/-! ## One round of the loop -/

variable (host : Endian) {r : Reader} {bs : List UInt8}

/-- The loop waits for a header, and there are no bytes of it yet. -/
structure AtHeader (r : Reader) : Prop where
  reading : r.reading = some .header
  streambuf : r.streambuf = []

/-- The loop asks for 16 bytes. -/
theorem AtHeader.want (h : AtHeader r) : (reader host).want r = some 16 := by
  show r.wanted = some maxHeader
  rw [wanted, h.reading]

/-- The first word of a header is the length of the block. -/
theorem toNat_wordAt_header (h : bs.length = 16) :
    (wordAt host bs 0).toNat = blockLength bs := by
  rw [wordAt_eq host (by omega), List.drop_zero, blockLength]

/-- A header with the length of a PDU is kept, and the body is read. -/
theorem onRead_header (hr : AtHeader r) (hlen : bs.length = 16) (hmin : 16 ≤ blockLength bs)
    (hmax : blockLength bs ≤ 8192) :
    r.onRead host bs =
      { r with streambuf := bs, reading := some (.body (blockLength bs - 16)) } := by
  rw [onRead, hr.reading, hr.streambuf, List.nil_append]
  simp only [handleHeader, toNat_wordAt_header host hlen, maxHeader, maxPduSize]
  rw [if_neg (by omega), readBody]

/-- A header with another length closes the session. -/
theorem onRead_badHeader (hr : AtHeader r) (hlen : bs.length = 16)
    (hbad : blockLength bs < 16 ∨ 8192 < blockLength bs) :
    r.onRead host bs = { r with streambuf := bs, reading := none, closes := r.closes + 1 } := by
  rw [onRead, hr.reading, hr.streambuf, List.nil_append]
  simp only [handleHeader, toNat_wordAt_header host hlen, maxHeader, maxPduSize]
  rw [if_pos (by omega), close]

/-- The body completes the block. It is parsed and consumed. -/
theorem onRead_body {n : ℕ} (hreading : r.reading = some (.body n))
    (hlen : (r.streambuf ++ bs).length = n + 16) (hmax : n + 16 ≤ 8192)
    (hblock : blockLength (r.streambuf ++ bs) = n + 16) :
    r.onRead host bs =
      { r with
        streambuf := []
        reading := some .header
        parsed := r.parsed ++ [.pdu (pduOf (r.streambuf ++ bs))] } := by
  rw [onRead, hreading]
  have hparse : deserialize host (r.streambuf ++ bs) (n + maxHeader) =
      .pdu (pduOf (r.streambuf ++ bs)) := by
    have hdeserialize := @deserialize_block host (r.streambuf ++ bs) (by omega) (by omega)
      (by omega)
    rwa [hlen] at hdeserialize
  have hconsume : (r.streambuf ++ bs).drop (n + maxHeader) = [] :=
    List.drop_eq_nil_of_le (by rw [hlen, maxHeader])
  simp only [parsePdu, hparse, hconsume, readHeader]

/-- The length of a block is in its first four bytes. -/
theorem blockLength_take {n : ℕ} (hn : 4 ≤ n) : blockLength (bs.take n) = blockLength bs := by
  rw [blockLength, List.take_take, Nat.min_eq_left hn, blockLength]

/-- A block goes through the loop in two reads. -/
theorem loop_of_hasBlock (hr : AtHeader r) (h : HasBlock bs) :
    loop host r bs =
      loop host { r with parsed := r.parsed ++ [.pdu (pduOf (bs.take (blockLength bs)))] }
        (bs.drop (blockLength bs)) := by
  obtain ⟨hmin, hmax, hlen⟩ := h
  -- the header, the body, and the rest of the stream
  have hsplit : bs = bs.take 16 ++ (bs.drop 16).take (blockLength bs - 16) ++
      bs.drop (blockLength bs) := by
    rw [← List.take_add, Nat.add_sub_cancel' hmin, List.take_append_drop]
  have htake : bs.take 16 ++ (bs.drop 16).take (blockLength bs - 16) =
      bs.take (blockLength bs) := by
    rw [← List.take_add, Nat.add_sub_cancel' hmin]
  have hheader : (bs.take 16).length = 16 := List.length_take_of_le (by omega)
  have hlength : blockLength (bs.take 16) = blockLength bs := blockLength_take (by omega)
  have hfirst := onRead_header host hr hheader (by omega) (by omega)
  rw [hlength] at hfirst
  have hbody : ((bs.drop 16).take (blockLength bs - 16)).length = blockLength bs - 16 :=
    List.length_take_of_le (by rw [List.length_drop]; omega)
  have hsecond := @onRead_body host
    { r with streambuf := bs.take 16, reading := some (.body (blockLength bs - 16)) }
    ((bs.drop 16).take (blockLength bs - 16)) (blockLength bs - 16) rfl
    (by rw [List.length_append, hheader, hbody]; omega) (by omega)
    (by rw [htake, blockLength_take (by omega)]; omega)
  have hround : loop host r bs =
      loop host ((r.onRead host (bs.take 16)).onRead host
        ((bs.drop 16).take (blockLength bs - 16))) (bs.drop (blockLength bs)) := by
    conv_lhs => rw [hsplit]
    refine (reader host).drain_append_append (by rw [hr.want host, hheader]) ?_
    rw [hbody]
    show (r.onRead host (bs.take 16)).wanted = _
    rw [hfirst, wanted]
  rw [hround, hfirst, hsecond, htake]
  congr 1
  rw [← hr.reading, ← hr.streambuf]

/-- Without a block the loop ends: it closes after a bad header, and waits otherwise. -/
theorem loop_of_not_hasBlock (hr : AtHeader r) (h : ¬ HasBlock bs) :
    (loop host r bs).1.parsed = r.parsed ∧
      (BadHeader bs → (loop host r bs).1.closes = r.closes + 1 ∧
        (loop host r bs).1.reading = none ∧ (loop host r bs).2 = bs.drop 16) ∧
      (¬ BadHeader bs → (loop host r bs).1.closes = r.closes ∧
        (loop host r bs).1.reading.isSome = true) := by
  by_cases hlen : bs.length < 16
  · -- not even a header
    have hwait : loop host r bs = (r, bs) := (reader host).drain_of_lt (hr.want host) hlen
    refine ⟨by rw [hwait], fun hbad => ?_, fun _ => ?_⟩
    · have := hbad.1
      omega
    · rw [hwait, hr.reading]
      exact ⟨rfl, rfl⟩
  · have hheader : (bs.take 16).length = 16 := List.length_take_of_le (by omega)
    have hlength : blockLength (bs.take 16) = blockLength bs := blockLength_take (by omega)
    have hround : loop host r bs = loop host (r.onRead host (bs.take 16)) (bs.drop 16) := by
      conv_lhs => rw [← List.take_append_drop 16 bs]
      exact (reader host).drain_append (by rw [hr.want host, hheader])
    by_cases hbad : blockLength bs < 16 ∨ 8192 < blockLength bs
    · have hfirst := onRead_badHeader host hr hheader (by rwa [hlength])
      have hstop (xs : List UInt8) : loop host
          { r with streambuf := bs.take 16, reading := none, closes := r.closes + 1 } xs =
          ({ r with streambuf := bs.take 16, reading := none, closes := r.closes + 1 }, xs) :=
        (reader host).drain_of_blocked fun k hk => absurd hk (by simp [reader, wanted])
      rw [hround, hfirst, hstop]
      exact ⟨rfl, fun _ => ⟨rfl, rfl, rfl⟩, fun hnot => absurd ⟨by omega, hbad⟩ hnot⟩
    · -- the body is not all there
      have hfirst := onRead_header host hr hheader (by omega) (by omega)
      rw [hlength] at hfirst
      have hshort : (bs.drop 16).length < blockLength bs - 16 := by
        rw [List.length_drop]
        by_contra hge
        exact h ⟨by omega, by omega, by omega⟩
      have hwait : loop host (r.onRead host (bs.take 16)) (bs.drop 16) =
          (r.onRead host (bs.take 16), bs.drop 16) := by
        refine (reader host).drain_of_lt (k := blockLength bs - 16) ?_ hshort
        show (r.onRead host (bs.take 16)).wanted = _
        rw [hfirst, wanted]
      rw [hround, hwait, hfirst]
      exact ⟨rfl, fun hbad' => absurd hbad'.2 hbad, fun _ => ⟨rfl, rfl⟩⟩

/-! ## The whole stream -/

/-- The loop returns the PDUs of the greedy parse, and closes if that ends at a bad header. -/
theorem loop_greedy (hr : AtHeader r) :
    (loop host r bs).1.parsed = r.parsed ++ (greedy bs).1.map .pdu ∧
      (BadHeader (greedy bs).2 → (loop host r bs).1.closes = r.closes + 1 ∧
        (loop host r bs).1.reading = none ∧ (loop host r bs).2 = (greedy bs).2.drop 16) ∧
      (¬ BadHeader (greedy bs).2 → (loop host r bs).1.closes = r.closes ∧
        (loop host r bs).1.reading.isSome = true) := by
  induction bs using greedy.induct generalizing r with
  | case1 bs h ih =>
    rw [loop_of_hasBlock host hr h, greedy_of_hasBlock h]
    obtain ⟨hparsed, hclosed⟩ := ih (r := { r with
      parsed := r.parsed ++ [.pdu (pduOf (bs.take (blockLength bs)))] }) ⟨hr.reading, hr.streambuf⟩
    refine ⟨?_, hclosed⟩
    rw [hparsed, List.append_assoc, List.map_cons]
    rfl
  | case2 bs h =>
    rw [greedy_of_not_hasBlock h]
    obtain ⟨hparsed, hclosed⟩ := loop_of_not_hasBlock host hr h
    exact ⟨by rw [hparsed, List.map_nil, List.append_nil], hclosed⟩

/-- The loop waits for a header at the start. -/
theorem atHeader_start : AtHeader start := ⟨rfl, rfl⟩

/-- A read that fails leaves its bytes in the buffer, and the loop closes. -/
theorem onError_of_reading (h : r.reading.isSome = true) (bs : List UInt8) :
    r.onError bs = { r with
      streambuf := r.streambuf ++ bs, reading := none, closes := r.closes + 1 } := by
  rw [onError, if_pos h, close]

/-- Where no read is outstanding none fails. -/
theorem onError_of_not_reading (h : r.reading = none) (bs : List UInt8) : r.onError bs = r := by
  rw [onError, h]
  rfl

/-- A read that fails parses nothing. -/
theorem parsed_onError (r : Reader) (bs : List UInt8) : (r.onError bs).parsed = r.parsed := by
  rw [onError]
  split <;> rfl

/-- Where no read is outstanding nothing is asked for. -/
theorem wanted_of_not_reading (h : r.reading = none) : r.wanted = none := by
  rw [wanted, h]

/-- A run that has come to its end has done what the loop does with the stream. -/
theorem eq_of_run {es : List Event} {t : Reader} (h : run (step host) r es = some t)
    (hend : t.reading = none) :
    t = (loop host r (es.flatMap Event.bytes)).1.onError
      (loop host r (es.flatMap Event.bytes)).2 := by
  induction es generalizing r with
  | nil =>
    obtain rfl : r = t := by simpa using h
    have hstop : loop host r [] = (r, []) := by
      refine (reader host).drain_of_blocked fun k hk => ?_
      exact absurd ((wanted_of_not_reading hend).symm.trans hk) (by simp)
    rw [List.flatMap_nil, hstop, onError_of_not_reading hend]
  | cons e es ih =>
    obtain ⟨r', hr', hrest⟩ := run_cons_eq_some.mp h
    rw [List.flatMap_cons]
    cases e with
    | completed bs =>
      obtain ⟨hwant, rfl⟩ := ExactReader.step_eq_some.mp hr'
      have hround : loop host r (bs ++ es.flatMap Event.bytes) =
          loop host (r.onRead host bs) (es.flatMap Event.bytes) :=
        (reader host).drain_append hwant
      rw [Event.bytes, hround]
      exact ih hrest
    | ended bs =>
      obtain ⟨k, hk, rfl⟩ := Option.map_eq_some_iff.mp hr'
      obtain ⟨hwant, hlt⟩ := Option.filter_eq_some_iff.mp hk
      have hnone : (r.onError bs).reading = none := by
        rw [onError]
        split
        · rfl
        · rename_i hreading
          exact Option.not_isSome_iff_eq_none.mp hreading
      -- nothing is read after the end
      obtain rfl : es = [] := by
        cases es with
        | nil => rfl
        | cons e es =>
          obtain ⟨r'', hr'', -⟩ := run_cons_eq_some.mp hrest
          have hwanted := wanted_of_not_reading hnone
          cases e with
          | completed cs =>
            obtain ⟨hwant', -⟩ := ExactReader.step_eq_some.mp hr''
            exact absurd (hwanted.symm.trans hwant') (by simp)
          | ended cs => exact absurd hr'' (by rw [step, hwanted]; simp)
      have hwait : loop host r bs = (r, bs) :=
        (reader host).drain_of_lt hwant (of_decide_eq_true hlt)
      rw [Event.bytes, List.flatMap_nil, List.append_nil, hwait]
      exact (Option.some.inj hrest).symm

/-! ## Every state of the loop -/

/-- The buffer holds nothing but the header of a block whose body is read, and `deserialize` has
returned PDUs only. -/
structure Framed (r : Reader) : Prop where
  header : r.reading = some .header → r.streambuf = []
  body : ∀ n, r.reading = some (.body n) →
    r.streambuf.length = 16 ∧ blockLength r.streambuf = n + 16 ∧ n + 16 ≤ 8192
  parsed : ∀ d ∈ r.parsed, ∃ p, d = .pdu p

/-- A read that is complete keeps this. -/
theorem Framed.onRead (h : Framed r) (hwant : r.wanted = some bs.length) :
    Framed (r.onRead host bs) := by
  cases hreading : r.reading with
  | none => exact absurd ((wanted_of_not_reading hreading).symm.trans hwant) (by simp)
  | some reading =>
    cases reading with
    | header =>
      have hr : AtHeader r := ⟨hreading, h.header hreading⟩
      have hlen : bs.length = 16 := Option.some.inj (hwant.symm.trans (hr.want host))
      by_cases hbad : blockLength bs < 16 ∨ 8192 < blockLength bs
      · rw [onRead_badHeader host hr hlen hbad]
        refine ⟨fun hreading => absurd hreading (by simp), fun n hreading => ?_, h.parsed⟩
        exact absurd hreading (by simp)
      · rw [onRead_header host hr hlen (by omega) (by omega)]
        refine ⟨fun hreading => absurd hreading (by simp), fun n hreading => ?_, h.parsed⟩
        obtain rfl : blockLength bs - 16 = n := by simpa using hreading
        exact ⟨hlen, show blockLength bs = _ by omega, by omega⟩
    | body n =>
      obtain ⟨hlen, hblock, hmax⟩ := h.body n hreading
      have hbody : bs.length = n := by
        rw [wanted, hreading] at hwant
        exact (Option.some.inj hwant).symm
      -- the header is still at the front of the buffer, so the block has the length that it says
      have hlength : blockLength (r.streambuf ++ bs) = n + 16 := by
        rw [blockLength, List.take_append_of_le_length (by omega), ← blockLength, hblock]
      rw [onRead_body host hreading (by rw [List.length_append]; omega) hmax hlength]
      refine ⟨fun _ => rfl, fun n hreading => absurd hreading (by simp), fun d hd => ?_⟩
      rcases List.mem_append.mp hd with hd | hd
      · exact h.parsed d hd
      · exact ⟨_, List.mem_singleton.mp hd⟩

/-- Every step keeps this. -/
theorem Framed.step {e : Event} {t : Reader} (h : Framed r) (hstep : step host r e = some t) :
    Framed t := by
  cases e with
  | completed bs =>
    obtain ⟨hwant, rfl⟩ := ExactReader.step_eq_some.mp hstep
    exact h.onRead host hwant
  | ended bs =>
    obtain ⟨k, hk, rfl⟩ := Option.map_eq_some_iff.mp hstep
    rw [onError]
    split
    · refine ⟨fun hreading => absurd hreading (by simp [close]), fun n hreading => ?_, h.parsed⟩
      exact absurd hreading (by simp [close])
    · exact h

/-- The buffer is empty at the start. -/
theorem framed_start : Framed start :=
  ⟨fun _ => rfl, fun n h => absurd h (by simp [start, readHeader]),
    fun d hd => absurd hd (by simp [start, readHeader])⟩

/-- **Framing.** On every stream the read loop returns the PDUs of the greedy parse. It closes once:
where the parse ends at a bad header, having read nothing after that header, and otherwise when the
stream ends. A run that has ended has done just this. And in every state of a run, the buffer is
empty when a header is to be read, and `deserialize` has returned PDUs only. -/
theorem loop_eq_greedy (host : Endian) :
    (∀ stream : List UInt8,
      (receive host stream).parsed = (greedy stream).1.map .pdu ∧
      (receive host stream).closes = 1 ∧
      (loop host start stream).1.closes = (if BadHeader (greedy stream).2 then 1 else 0) ∧
      (BadHeader (greedy stream).2 → (loop host start stream).2 = (greedy stream).2.drop 16)) ∧
    ∀ (es : List Event) (t : Reader), run (step host) start es = some t →
      (t.reading = none → t = receive host (es.flatMap Event.bytes)) ∧
      (t.reading = some .header → t.streambuf = []) ∧
      ∀ d ∈ t.parsed, ∃ p, d = .pdu p := by
  constructor
  · intro stream
    obtain ⟨hparsed, hbad, hgood⟩ := @loop_greedy host start stream atHeader_start
    refine ⟨by rw [receive, parsed_onError, hparsed]; rfl, ?_⟩
    by_cases h : BadHeader (greedy stream).2
    · obtain ⟨hcloses, hreading, hrest⟩ := hbad h
      rw [receive, onError_of_not_reading hreading, if_pos h]
      exact ⟨hcloses, hcloses, fun _ => hrest⟩
    · obtain ⟨hcloses, hreading⟩ := hgood h
      rw [receive, onError_of_reading hreading, if_neg h]
      exact ⟨congrArg (· + 1) hcloses, hcloses, fun hbad => absurd hbad h⟩
  · intro es t hrun
    have hframed : Framed t := run_induction framed_start (fun _ _ _ hI h => hI.step host h) hrun
    exact ⟨fun hend => eq_of_run host hrun hend, hframed.header, hframed.parsed⟩

/-- A PDU without a body, and a header with the length 15. -/
def secondHeaderBad : List Event :=
  [.completed [0, 0, 0, 16, 0, 0, 0, 21, 0, 0, 0, 0, 0, 0, 0, 1], .completed [],
    .completed [0, 0, 0, 15, 0, 0, 0, 21, 0, 0, 0, 0, 0, 0, 0, 2]]

/-- The loop has closed behind the second header. -/
theorem loop_eq_greedy_secondHeaderBad :
    ∃ t, run (step .little) start secondHeaderBad = some t ∧ t.parsed = [.pdu ⟨16, 21, 0, 1, []⟩] ∧
      t = receive .little (secondHeaderBad.flatMap Event.bytes) :=
  ⟨_, rfl, rfl, ((loop_eq_greedy .little).2 secondHeaderBad _ rfl).1 rfl⟩

end Reader

end TurboNet.Smpp
