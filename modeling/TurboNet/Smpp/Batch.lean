import TurboNet.Common.Lists
import TurboNet.Smpp.Session

/-!
# Sending in batches

Reference: `new_chatgpt/main.cpp`, `SmppPdu::to_buffers`, `SmppSession::send_pdu`,
`SmppSession::send_batch`.

Both functions number PDUs in place, so PDUs are objects in a store and a batch is a list of
pointers, in which a PDU may occur more than once. `send_pdu` converts the header fields before it
writes them. `send_batch` makes buffers that point into the objects, and what is written is what the
objects hold when the loop is over: the fields in host order, with the last number a PDU was given.

`to_buffers` returns a buffer on its own local array. What is taken for its bytes here are those it
has put there.
-/

namespace TurboNet.Smpp

open Common

/-- The session and the PDUs that can be sent, by address. -/
structure Store where
  session : Session
  pdus : ℕ → SmppPdu

/-- A buffer on an object: the 16 bytes from `command_length` on, or the body. -/
inductive Buffer where
  | header (address : ℕ)
  | body (address : ℕ)
deriving DecidableEq, Repr

/-- The header fields in network order and the body: the buffers that `to_buffers` fills. -/
def SmppPdu.toBuffers (host : Endian) (p : SmppPdu) : List UInt8 :=
  (store32 host (htonl host p.commandLength) ++ store32 host (htonl host p.commandId) ++
    store32 host (htonl host p.commandStatus) ++ store32 host (htonl host p.sequenceNumber)) ++
    p.body

/-- The 16 bytes of the object from `command_length` on. -/
def SmppPdu.headerMemory (host : Endian) (p : SmppPdu) : List UInt8 :=
  store32 host p.commandLength ++ store32 host p.commandId ++ store32 host p.commandStatus ++
    store32 host p.sequenceNumber

namespace Store

/-- `pdu->sequence_number = seq_++`, with the session that comes after it. -/
def number (st : Store) (address : ℕ) (session : Session) : Store where
  session := session
  pdus := Function.update st.pdus address (st.session.numbered (st.pdus address))

/-- `send_pdu`, with what it writes. -/
def sendPdu (host : Endian) (now timeout : ℕ) (st : Store) (address : ℕ) : Store × List UInt8 :=
  let st := st.number address (st.session.sendPdu now timeout)
  (st, (st.pdus address).toBuffers host)

/-- `send_pdu` for one PDU after another. -/
def sendEach (host : Endian) (now timeout : ℕ) (st : Store) : List ℕ → Store × List UInt8
  | [] => (st, [])
  | address :: batch =>
    let first := st.sendPdu host now timeout address
    let rest := first.1.sendEach host now timeout batch
    (rest.1, first.2 ++ rest.2)

/-- The loop of `send_batch`: numbers the PDUs and collects the buffers. -/
def batchLoop (st : Store) : List ℕ → Store × List Buffer
  | [] => (st, [])
  | address :: batch =>
    let rest := (st.number address { st.session with seq := st.session.seq + 1 }).batchLoop batch
    (rest.1, .header address :: .body address :: rest.2)

/-- What a buffer shows. -/
def read (host : Endian) (st : Store) : Buffer → List UInt8
  | .header address => (st.pdus address).headerMemory host
  | .body address => (st.pdus address).body

/-- `send_batch`, with what it writes. -/
def sendBatch (host : Endian) (st : Store) (batch : List ℕ) : Store × List UInt8 :=
  let looped := st.batchLoop batch
  (looped.1, looped.2.flatMap (looped.1.read host))

/-- The last place of a PDU in a batch. -/
def LastAt (batch : List ℕ) (place address : ℕ) : Prop :=
  batch[place]? = some address ∧ ∀ later, place < later → batch[later]? ≠ some address

/-- The header words of the PDU at every place are what memory shows of it: its own fields are, and
so is the number of this place for the one the PDU gets last. -/
def ReadsAlike (host : Endian) (st : Store) (batch : List ℕ) : Prop :=
  ∀ place address last, batch[place]? = some address → LastAt batch last address →
    htonl host (st.pdus address).commandLength = (st.pdus address).commandLength ∧
    htonl host (st.pdus address).commandId = (st.pdus address).commandId ∧
    htonl host (st.pdus address).commandStatus = (st.pdus address).commandStatus ∧
    htonl host (st.session.seq + UInt32.ofNat last) = st.session.seq + UInt32.ofNat place

/-! ## The numbers of a batch -/

/-- The PDUs of a batch with the numbers they are given in turn. -/
def numbers (seq : UInt32) : List ℕ → List (ℕ × UInt32)
  | [] => []
  | address :: batch => (address, seq) :: numbers (seq + 1) batch

/-- The number after `k` more steps from the next one. -/
theorem add_one_add_ofNat (seq : UInt32) (k : ℕ) :
    seq + 1 + UInt32.ofNat k = seq + UInt32.ofNat (k + 1) := by
  rw [Nat.add_comm k 1, UInt32.ofNat_add, UInt32.add_assoc]
  rfl

/-- The PDU at place `k` gets the `k`-th number. -/
theorem getElem?_numbers (seq : UInt32) (batch : List ℕ) (k : ℕ) :
    (numbers seq batch)[k]? = batch[k]?.map fun address => (address, seq + UInt32.ofNat k) := by
  induction batch generalizing seq k with
  | nil => rfl
  | cons address batch ih =>
    cases k with
    | zero => simp [numbers]
    | succ k => rw [numbers, List.getElem?_cons_succ, List.getElem?_cons_succ, ih,
        add_one_add_ofNat]

/-- Numbering changes no address. -/
theorem map_fst_numbers (seq : UInt32) (batch : List ℕ) :
    (numbers seq batch).map Prod.fst = batch := by
  induction batch generalizing seq with
  | nil => rfl
  | cons address batch ih => rw [numbers, List.map_cons, ih]

/-- A PDU that occurs in a batch has a last place there. -/
theorem exists_lastAt {batch : List ℕ} {address : ℕ} (h : address ∈ batch) :
    ∃ last, LastAt batch last address := by
  induction batch with
  | nil => simp at h
  | cons b batch ih =>
    by_cases hmem : address ∈ batch
    · obtain ⟨last, hlast, hlater⟩ := ih hmem
      refine ⟨last + 1, hlast, fun later hlt => ?_⟩
      cases later with
      | zero => omega
      | succ later => exact hlater later (by omega)
    · obtain rfl : address = b := (List.mem_cons.mp h).resolve_right hmem
      refine ⟨0, rfl, fun later hlt hlater => hmem ?_⟩
      cases later with
      | zero => omega
      | succ later => exact List.mem_of_getElem? hlater

/-! ## What is written -/

/-- The PDU with another number. -/
def withNumber (p : SmppPdu) (m : UInt32) : SmppPdu := { p with sequenceNumber := m }

/-- Numbering changes nothing of a PDU but its number. -/
theorem withNumber_number (st : Store) (address : ℕ) (session : Session) (a : ℕ) (m : UInt32) :
    withNumber ((st.number address session).pdus a) m = withNumber (st.pdus a) m := by
  by_cases ha : a = address
  · subst ha
    have hself : (st.number a session).pdus a = st.session.numbered (st.pdus a) :=
      Function.update_self ..
    rw [hself]
    rfl
  · exact congrArg (withNumber · m) (Function.update_of_ne ha ..)

/-- One after another the PDUs are written with their fields in network order and the number of
their place. -/
theorem sendEach_bytes (host : Endian) (now timeout : ℕ) (st : Store) (batch : List ℕ) :
    (st.sendEach host now timeout batch).2 = (numbers st.session.seq batch).flatMap fun x =>
      (withNumber (st.pdus x.1) x.2).toBuffers host := by
  induction batch generalizing st with
  | nil => rfl
  | cons address batch ih =>
    rw [numbers, List.flatMap_cons, sendEach]
    refine congrArg₂ (· ++ ·) ?_ ((ih _).trans ?_)
    · exact congrArg (SmppPdu.toBuffers host) (Function.update_self ..)
    · simp only [sendPdu, withNumber_number]
      rfl

/-- As many numbers are drawn as PDUs are sent one by one. -/
theorem sendEach_seq (host : Endian) (now timeout : ℕ) (st : Store) (batch : List ℕ) :
    (st.sendEach host now timeout batch).1.session.seq =
      st.session.seq + UInt32.ofNat batch.length := by
  induction batch generalizing st with
  | nil => exact (UInt32.add_zero _).symm
  | cons address batch ih =>
    rw [List.length_cons, ← add_one_add_ofNat]
    exact ih _

/-- As many as the loop of `send_batch` draws. -/
theorem batchLoop_seq (st : Store) (batch : List ℕ) :
    (st.batchLoop batch).1.session.seq = st.session.seq + UInt32.ofNat batch.length := by
  induction batch generalizing st with
  | nil => exact (UInt32.add_zero _).symm
  | cons address batch ih =>
    rw [List.length_cons, ← add_one_add_ofNat]
    exact ih _

/-- The loop collects header and body of each PDU. -/
theorem batchLoop_bufs (st : Store) (batch : List ℕ) :
    (st.batchLoop batch).2 = batch.flatMap fun address => [.header address, .body address] := by
  induction batch generalizing st with
  | nil => rfl
  | cons address batch ih =>
    rw [List.flatMap_cons, batchLoop]
    exact congrArg (fun bufs => Buffer.header address :: .body address :: bufs) (ih _)

/-- A PDU that is not in the batch keeps its fields. -/
theorem batchLoop_pdus_of_notMem (st : Store) {batch : List ℕ} {a : ℕ} (ha : a ∉ batch) :
    (st.batchLoop batch).1.pdus a = st.pdus a := by
  induction batch generalizing st with
  | nil => rfl
  | cons address batch ih =>
    obtain ⟨hne, ha⟩ := not_or.mp (List.mem_cons.not.mp ha)
    exact (ih _ ha).trans (Function.update_of_ne hne _ _)

/-- After the loop a PDU has the number of its last place. -/
theorem batchLoop_pdus_of_lastAt (st : Store) {batch : List ℕ} {last a : ℕ}
    (h : LastAt batch last a) :
    (st.batchLoop batch).1.pdus a =
      withNumber (st.pdus a) (st.session.seq + UInt32.ofNat last) := by
  induction batch generalizing st last with
  | nil => exact absurd h.1 (by simp)
  | cons address batch ih =>
    obtain ⟨hlast, hlater⟩ := h
    cases last with
    | zero =>
      obtain rfl : address = a := by simpa using hlast
      have hnotMem : address ∉ batch := by
        intro hmem
        obtain ⟨k, hk⟩ := List.mem_iff_getElem?.mp hmem
        exact hlater (k + 1) (by omega) hk
      refine (batchLoop_pdus_of_notMem _ hnotMem).trans ((Function.update_self ..).trans ?_)
      exact congrArg (withNumber _) (UInt32.add_zero _).symm
    | succ last =>
      have htail : LastAt batch last a := ⟨hlast, fun later hlt => hlater (later + 1) (by omega)⟩
      refine (ih _ htail).trans ((withNumber_number ..).trans ?_)
      exact congrArg (withNumber _) (add_one_add_ofNat ..)

/-- The batch is written with the fields in host order and the number of the last place. -/
theorem sendBatch_bytes (host : Endian) (st : Store) (batch : List ℕ) :
    (st.sendBatch host batch).2 = (numbers st.session.seq batch).flatMap fun x =>
      ((st.batchLoop batch).1.pdus x.1).headerMemory host ++
        ((st.batchLoop batch).1.pdus x.1).body := by
  have hmap (f : ℕ → List UInt8) : (numbers st.session.seq batch).flatMap (fun x => f x.1) =
      batch.flatMap f := by
    rw [← List.flatMap_map, map_fst_numbers]
  refine Eq.trans ?_ (hmap fun address =>
    ((st.batchLoop batch).1.pdus address).headerMemory host ++
      ((st.batchLoop batch).1.pdus address).body).symm
  rw [sendBatch, batchLoop_bufs, List.flatMap_assoc]
  refine congrArg (batch.flatMap ·) (funext fun address => ?_)
  simp [read]

/-- Memory shows the header that is written for a PDU exactly when the words are alike. -/
theorem headerMemory_eq_iff (host : Endian) (p : SmppPdu) (m m' : UInt32) :
    (withNumber p m).headerMemory host ++ (withNumber p m).body =
        (withNumber p m').toBuffers host ↔
      htonl host p.commandLength = p.commandLength ∧ htonl host p.commandId = p.commandId ∧
        htonl host p.commandStatus = p.commandStatus ∧ htonl host m = m' := by
  have hlength (v w : UInt32) : (store32 host v).length = (bytesBE w).length := by
    cases host <;> simp [store32]
  simp only [SmppPdu.headerMemory, SmppPdu.toBuffers, withNumber, store32_htonl,
    List.append_cancel_right_eq]
  rw [List.append_eq_append_iff_of_size_eq_left (by simp [hlength _ 0]),
    List.append_eq_append_iff_of_size_eq_left (by simp [hlength _ 0]),
    List.append_eq_append_iff_of_size_eq_left (hlength _ _)]
  simp only [store32_eq_bytesBE_iff, and_assoc]

/-- Block by block: the batch is written as its PDUs one by one exactly when memory shows what
`to_buffers` would write. -/
theorem bytes_eq_iff (host : Endian) (now timeout : ℕ) (st : Store) (batch : List ℕ) :
    (st.sendBatch host batch).2 = (st.sendEach host now timeout batch).2 ↔
      ReadsAlike host st batch := by
  have hpdu {a last : ℕ} (h : LastAt batch last a) := batchLoop_pdus_of_lastAt st h
  -- the blocks have the same lengths, so they are compared one by one
  rw [sendBatch_bytes, sendEach_bytes, flatMap_eq_flatMap_iff]
  · constructor
    · intro h place a last hplace hlast
      have hmem : (a, st.session.seq + UInt32.ofNat place) ∈ numbers st.session.seq batch := by
        refine List.mem_of_getElem? (i := place) ?_
        rw [getElem?_numbers, hplace]
        rfl
      have hblock := h _ hmem
      rw [hpdu hlast, headerMemory_eq_iff] at hblock
      exact hblock
    · rintro h ⟨a, m⟩ hmem
      obtain ⟨place, hplace⟩ := List.mem_iff_getElem?.mp hmem
      rw [getElem?_numbers] at hplace
      obtain ⟨a', ha, heq⟩ := Option.map_eq_some_iff.mp hplace
      obtain ⟨rfl, rfl⟩ := Prod.mk.inj heq
      obtain ⟨last, hlast⟩ := exists_lastAt (List.mem_of_getElem? ha)
      rw [hpdu hlast, headerMemory_eq_iff]
      exact h place a' last ha hlast
  · rintro ⟨a, m⟩ hmem
    have ha : a ∈ batch := by
      rw [← map_fst_numbers st.session.seq batch]
      exact List.mem_map_of_mem hmem
    obtain ⟨last, hlast⟩ := exists_lastAt ha
    rw [hpdu hlast]
    have hlength (v : UInt32) : (store32 host v).length = 4 := by cases host <;> rfl
    simp [SmppPdu.headerMemory, SmppPdu.toBuffers, withNumber, hlength]

/-- **A batch is not sent as its PDUs are.** On a little-endian host `send_batch` writes what
`send_pdu` would write for the same PDUs, and leaves `seq_` the same, exactly when every header
word reads the same from both ends: command length, id and status of every PDU, and the number of
every place against the one its PDU gets last. -/
theorem batch_eq_each_iff (now timeout : ℕ) (st : Store) (batch : List ℕ) :
    ((st.sendBatch .little batch).2 = (st.sendEach .little now timeout batch).2 ∧
      (st.sendBatch .little batch).1.session.seq =
        (st.sendEach .little now timeout batch).1.session.seq) ↔
      ReadsAlike .little st batch := by
  have hseq : (st.sendBatch .little batch).1.session.seq =
      (st.sendEach .little now timeout batch).1.session.seq :=
    (batchLoop_seq st batch).trans (sendEach_seq .little now timeout st batch).symm
  rw [bytes_eq_iff, and_iff_left hseq]

/-- One `enquire_link` of 16 bytes, the first PDU of its session: the length goes out as
`10 00 00 00`. -/
theorem batch_reverses_header :
    ¬ (∀ (now timeout : ℕ) (st : Store) (batch : List ℕ),
      (st.sendBatch .little batch).2 = (st.sendEach .little now timeout batch).2 ∧
        (st.sendBatch .little batch).1.session.seq =
          (st.sendEach .little now timeout batch).1.session.seq) := by
  intro h
  have hbytes := (h 0 30
    { session := { onRequest := true, onResponse := true }
      pdus := fun _ => ⟨16, 0x00000015, 0, 0, []⟩ } [0]).1
  exact absurd hbytes (by decide)

end Store

end TurboNet.Smpp
