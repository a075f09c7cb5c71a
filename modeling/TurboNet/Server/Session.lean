import TurboNet.Common.ExactReader
import TurboNet.Common.Machine
import TurboNet.Common.Outbox
import TurboNet.Wire.Frame

/-!
# A session of the TurboNet server

Reference: `turbonet_server.cpp`, `TurboNetServer::Session`; `turbonet_server.h`.

A session reads a header, then a body, then calls the server's handlers and reads the next header.
Its handlers run on its strand, so each is one step. `Session.step` is the session as a machine:
completions of its reads, calls of the `respond` lambdas it has handed out, and what the socket
does with its writes. `Session.reader` is its read loop alone, fed with a byte stream by reads that
return exactly the bytes asked for.

The set `sessions_` of the server is represented by the flag `registered` of its elements: only
insertion, removal and size of the set are used.
-/

namespace TurboNet

open Common

/-- What is installed on the server: the byte order of its host, `onAuth_` as a pure predicate on
the client id (`none` while no handler is set), and whether `onRequest_` is set. -/
structure Handlers where
  host : Endian
  onAuth : Option (List UInt8 → Bool)
  onRequest : Bool

/-- What a session does of its own accord with a frame: consult `onAuth_`, send a bind response,
call `onRequest_`. -/
inductive SessionCall where
  | auth (clientId : List UInt8)
  | bindResponse (message : List UInt8)
  | request (p : Packet)
deriving DecidableEq, Repr

structure Session where
  headerBuf : List UInt8 := []
  bodyBuf : List UInt8 := []
  authenticated : Bool := false
  /-- The socket has not been closed on this side. -/
  socketOpen : Bool := true
  /-- The session is an element of `sessions_`. -/
  registered : Bool := true
  /-- The outstanding `async_read`. -/
  reading : Option ReadOp := none
  /-- The writes started by `send`, and the bytes that reach the peer. -/
  out : Outbox UInt8 := {}
  /-- History: the calls made by `onReadBody`. -/
  calls : List SessionCall := []
  /-- History: what `onReadBody` saw whenever it was called without an error. -/
  handed : List Packet := []
  /-- History: declared total length and requested body length of every header received. -/
  bodyReads : List (UInt32 × ℕ) := []
deriving DecidableEq, Repr

namespace Session

/-- `TurboNetServer::removeSession`. -/
def removeSession (s : Session) : Session := { s with registered := false }

/-- `Session::doReadHeader`. -/
def doReadHeader (s : Session) : Session := { s with reading := some .header }

/-- `Session::start`. -/
def start (s : Session) : Session := s.doReadHeader

/-- `Session::doReadBody`. The buffer gets its size here and its content from the read. -/
def doReadBody (s : Session) (len : UInt32) : Session :=
  { s with reading := some (.body len.toNat) }

/-- `Session::onReadHeader`. -/
def onReadHeader (h : Handlers) (s : Session) (ec : Bool) : Session :=
  if ec then s.removeSession
  else
    let total := fromBigEndian h.host s.headerBuf 0
    let bodyLen := total - 10
    { s with bodyReads := s.bodyReads ++ [(total, bodyLen.toNat)] }.doReadBody bodyLen

/-- `Session::send`. The buffer refers to the caller's vector. -/
def send (s : Session) (message : List UInt8) : Session := { s with out := s.out.start message }

/-- Id, status, sequence and body of the frame in the buffers. -/
def current (h : Handlers) (s : Session) : Packet :=
  ⟨s.headerBuf.getD 4 0, s.headerBuf.getD 5 0, fromBigEndian h.host s.headerBuf 6, s.bodyBuf⟩

/-- The branch of `Session::onReadBody` for a bind request; the client id is the body. -/
def onBind (h : Handlers) (s : Session) : Session :=
  match h.onAuth with
  | none => s.removeSession
  | some auth =>
    if auth s.bodyBuf then
      let resp := bindResponseFrame h.host (fromBigEndian h.host s.headerBuf 6)
      { s with
        calls := s.calls ++ [SessionCall.auth s.bodyBuf, SessionCall.bindResponse resp]
        authenticated := true }.send resp
    else
      { s with calls := s.calls ++ [SessionCall.auth s.bodyBuf] }.removeSession

/-- The branch of `Session::onReadBody` that forwards to the application. -/
def forward (h : Handlers) (s : Session) : Session :=
  if h.onRequest then { s with calls := s.calls ++ [SessionCall.request (s.current h)] } else s

/-- The body of `Session::onReadBody` between the test for an error and the next read. -/
def dispatch (h : Handlers) (s : Session) : Session :=
  if !s.authenticated && s.headerBuf.getD 4 0 == 0x01 then s.onBind h
  else if s.authenticated then s.forward h
  else s

/-- `Session::onReadBody`. -/
def onReadBody (h : Handlers) (s : Session) (ec : Bool) : Session :=
  if ec then s.removeSession
  else ({ s with handed := s.handed ++ [s.current h] }.dispatch h).doReadHeader

/-- The `respond` lambda that `onReadBody` passes to `onRequest_`. -/
def respond (h : Handlers) (s : Session) (p : Packet) : Session := s.send (respondFrame h.host p)

/-- A read completes with the bytes it asked for. -/
def readDone (h : Handlers) (s : Session) (op : ReadOp) (bs : List UInt8) : Session :=
  match op with
  | .header => { s with headerBuf := bs, reading := none }.onReadHeader h false
  | .body _ => { s with bodyBuf := bs, reading := none }.onReadBody h false

/-- A read completes with an error. -/
def readFail (h : Handlers) (s : Session) (op : ReadOp) : Session :=
  match op with
  | .header => { s with reading := none }.onReadHeader h true
  | .body _ => { s with reading := none }.onReadBody h true

/-! ## The session as a machine -/

inductive Event where
  /-- The outstanding read completes with these bytes, or with an error. -/
  | readDone (bs : List UInt8)
  | readFail
  /-- The application calls a `respond` lambda it has got. -/
  | respond (p : Packet)
  /-- The socket takes `k` bytes of the `i`-th outstanding write. -/
  | transfer (i k : ℕ)
  /-- The vector behind the `i`-th outstanding write, destroyed when `send`'s caller returned, is
  overwritten. -/
  | reuse (i : ℕ) (memory : List UInt8)
  /-- The `i`-th outstanding write completes with an error. -/
  | writeFail (i : ℕ)
deriving DecidableEq, Repr

/-- `onRequest_` has been called, so the application holds a `respond` lambda. -/
def hasRespond (s : Session) : Bool :=
  s.calls.any fun c => match c with
    | .request _ => true
    | _ => false

def step (h : Handlers) (s : Session) : Event → Option Session
  | .readDone bs =>
    match s.reading with
    | some op => if bs.length = op.size then some (s.readDone h op bs) else none
    | none => none
  | .readFail => s.reading.map (s.readFail h)
  | .respond p => if s.hasRespond then some (s.respond h p) else none
  | .transfer i k => (s.out.transfer i k).map fun o => { s with out := o }
  | .reuse i memory => (s.out.reuse i memory).map fun o => { s with out := o }
  | .writeFail i => (s.out.fail i).map fun o => { s with out := o }

/-- What a step of a session can do, one constructor for each kind of event. -/
inductive Acts (h : Handlers) (s : Session) : Event → Session → Prop where
  | readDone (op : ReadOp) (bs : List UInt8) (hop : s.reading = some op)
    (hlen : bs.length = op.size) : Acts h s (.readDone bs) (s.readDone h op bs)
  | readFail (op : ReadOp) (hop : s.reading = some op) : Acts h s .readFail (s.readFail h op)
  | respond (p : Packet) (hheld : s.hasRespond = true) : Acts h s (.respond p) (s.respond h p)
  | transfer (i k : ℕ) (o : Outbox UInt8) (ho : s.out.transfer i k = some o) :
    Acts h s (.transfer i k) { s with out := o }
  | reuse (i : ℕ) (memory : List UInt8) (o : Outbox UInt8) (ho : s.out.reuse i memory = some o) :
    Acts h s (.reuse i memory) { s with out := o }
  | writeFail (i : ℕ) (o : Outbox UInt8) (ho : s.out.fail i = some o) :
    Acts h s (.writeFail i) { s with out := o }

/-- Every step is one of the acts. -/
theorem acts_of_step {h : Handlers} {s s' : Session} {e : Event} (hstep : step h s e = some s') :
    Acts h s e s' := by
  cases e with
  | readDone bs =>
    cases hr : s.reading with
    | none => simp [step, hr] at hstep
    | some op =>
      obtain ⟨hlen, rfl⟩ : bs.length = op.size ∧ s.readDone h op bs = s' := by
        simpa [step, hr] using hstep
      exact .readDone op bs hr hlen
  | readFail =>
    obtain ⟨op, hop, rfl⟩ := Option.map_eq_some_iff.mp hstep
    exact .readFail op hop
  | respond p =>
    obtain ⟨hheld, rfl⟩ : s.hasRespond = true ∧ s.respond h p = s' := by simpa [step] using hstep
    exact .respond p hheld
  | transfer i k =>
    obtain ⟨o, ho, rfl⟩ := Option.map_eq_some_iff.mp hstep
    exact .transfer i k o ho
  | reuse i memory =>
    obtain ⟨o, ho, rfl⟩ := Option.map_eq_some_iff.mp hstep
    exact .reuse i memory o ho
  | writeFail i =>
    obtain ⟨o, ho, rfl⟩ := Option.map_eq_some_iff.mp hstep
    exact .writeFail i o ho

/-! ## What the handlers do to the read chain -/

/-- After a body the next header is read. -/
theorem readDone_body_reading (h : Handlers) (s : Session) (n : ℕ) (bs : List UInt8) :
    (s.readDone h (.body n) bs).reading = some .header := rfl

/-- After a read that fails none is outstanding. -/
theorem readFail_reading (h : Handlers) (s : Session) (op : ReadOp) :
    (s.readFail h op).reading = none := by
  cases op <;> rfl

/-- The read loop: a body read of no bytes is followed by a header read. -/
def reader (h : Handlers) : ExactReader Session UInt8 where
  want s := s.reading.map ReadOp.size
  deliver s bs := match s.reading with
    | some op => s.readDone h op bs
    | none => s
  rank s := match s.reading with
    | some (.body _) => 1
    | _ => 0
  bound := 1
  rank_le s := by
    rcases s.reading with _ | op
    · exact Nat.zero_le 1
    · cases op with
      | header => exact Nat.zero_le 1
      | body n => exact Nat.le_refl 1
  rank_lt s hw := by
    cases hr : s.reading with
    | none => simp [hr] at hw
    | some op =>
      cases op with
      | header => simp [hr, ReadOp.size] at hw
      | body n => simp only [readDone_body_reading]; omega

/-- The loop asks for what the outstanding read asks for. -/
theorem reader_want {h : Handlers} {s : Session} {op : ReadOp} (hop : s.reading = some op) :
    (reader h).want s = some op.size := by
  simp only [reader, hop, Option.map_some]

/-- The loop is handed what the outstanding read is. -/
theorem reader_deliver {h : Handlers} {s : Session} {op : ReadOp} (hop : s.reading = some op)
    (bs : List UInt8) : (reader h).deliver s bs = s.readDone h op bs := by
  simp only [reader, hop]

/-- Feed a byte stream to the read loop until the outstanding read asks for more than remains. -/
def loop (h : Handlers) (s : Session) (stream : List UInt8) : Session × List UInt8 :=
  (reader h).drain s stream

/-- The read loop is a run of the session in which nothing but its reads completes. -/
theorem run_loop (h : Handlers) (s : Session) (stream : List UInt8) :
    ∃ bss : List (List UInt8), run (step h) s (bss.map .readDone) = some (s.loop h stream).1 ∧
      bss.flatten ++ (s.loop h stream).2 = stream ∧
      (reader h).Blocked (s.loop h stream).1 (s.loop h stream).2 := by
  obtain ⟨bss, hrun, hcat, hblocked⟩ := (reader h).run_drain s stream
  refine ⟨bss, ?_, hcat, hblocked⟩
  refine run_map (I := fun _ => True) trivial (fun _ _ _ _ _ => trivial) ?_ hrun
  intro t bs t' _ ht
  obtain ⟨hw, rfl⟩ := ExactReader.step_eq_some.mp ht
  obtain ⟨op, hop, hsize⟩ := Option.map_eq_some_iff.mp hw
  rw [reader_deliver hop]
  simp only [step, hop, hsize, ↓reduceIte]

/-- Header and body of one frame. -/
def handleFrame (h : Handlers) (s : Session) (f : Frame) : Session :=
  (s.readDone h .header f.header).readDone h (.body f.body.length) f.body

/-- After a frame the next header is read. -/
@[simp] theorem handleFrame_reading (h : Handlers) (s : Session) (f : Frame) :
    (s.handleFrame h f).reading = some .header := rfl

/-- After a header as many bytes are read as it says, less its own. -/
theorem readDone_header_reading (h : Handlers) (s : Session) {bs : List UInt8}
    (hbs : bs.length = 10) :
    (s.readDone h .header bs).reading = some (.body (headerTotal bs - 10).toNat) := by
  rw [← fromBigEndian_total h.host hbs]
  rfl

/-- After the header of a frame its body is read. -/
theorem readDone_frame_header_reading (h : Handlers) (s : Session) (f : Frame) :
    (s.readDone h .header f.header).reading = some (.body f.body.length) := by
  rw [readDone_header_reading h s f.header_length, f.body_length]

/-- A loop that waits for a header takes a whole frame. -/
theorem loop_frame (h : Handlers) {s : Session} (hs : s.reading = some .header) (f : Frame)
    (rest : List UInt8) : s.loop h (f.bytes ++ rest) = (s.handleFrame h f).loop h rest := by
  have hbody := readDone_frame_header_reading h s f
  rw [loop, Frame.bytes, ExactReader.drain_append_append, reader_deliver hs, reader_deliver hbody]
  · rfl
  · rw [reader_want hs, f.header_length]
    rfl
  · rw [reader_deliver hs, reader_want hbody]
    rfl

/-- A loop that waits for a header takes whole frames one after another and stops at the next
header boundary. -/
theorem loop_frames (h : Handlers) {s : Session} (hs : s.reading = some .header)
    (fs : List Frame) :
    s.loop h (fs.flatMap Frame.bytes) = (fs.foldl (handleFrame h) s, []) := by
  induction fs generalizing s with
  | nil =>
    exact ExactReader.drain_of_lt (reader_want hs) (by simp [ReadOp.size])
  | cons f fs ih =>
    rw [List.flatMap_cons, loop_frame h hs, ih (handleFrame_reading h s f), List.foldl_cons]

/-- After some frames the next header is read. -/
theorem foldl_handleFrame_reading (h : Handlers) {s : Session} (hs : s.reading = some .header)
    (fs : List Frame) : (fs.foldl (handleFrame h) s).reading = some .header := by
  induction fs generalizing s with
  | nil => exact hs
  | cons f fs ih => exact ih (handleFrame_reading h s f)

/-! ## What one frame does

The buffers hold the frame when `onReadBody` runs, so `current` is the frame's packet. -/

/-- The packet in the buffers is read from the header. -/
theorem current_eq (h : Handlers) (s : Session) (hh : s.headerBuf.length = 10) :
    s.current h = headerPacket s.headerBuf s.bodyBuf := by
  rw [current, fromBigEndian_sequence h.host hh, headerPacket]

/-- The session when `onReadBody` starts to look at a frame. -/
def load (s : Session) (f : Frame) : Session :=
  { s with
    headerBuf := f.header
    bodyBuf := f.body
    reading := none
    handed := s.handed ++ [f.packet]
    bodyReads := s.bodyReads ++ [(headerTotal f.header, f.body.length)] }

/-- A frame is loaded and dispatched, and then the next header is read. -/
theorem handleFrame_eq (h : Handlers) (s : Session) (f : Frame) :
    s.handleFrame h f = ((s.load f).dispatch h).doReadHeader := by
  have hcur (s : Session) (hh : s.headerBuf = f.header) (hb : s.bodyBuf = f.body) :
      s.current h = f.packet := by
    rw [current_eq h s (by rw [hh, f.header_length]), hh, hb, Frame.packet]
  have htotal : fromBigEndian h.host f.header 0 = headerTotal f.header :=
    fromBigEndian_total h.host f.header_length
  simp only [handleFrame, readDone, onReadHeader, onReadBody, doReadBody, load, htotal,
    f.body_length, hcur, Bool.false_eq_true, ↓reduceIte]

/-- To dispatch a frame hands no further one over. -/
theorem dispatch_handed (h : Handlers) (s : Session) : (s.dispatch h).handed = s.handed := by
  rw [dispatch, onBind, forward]
  repeat' split
  all_goals rfl

/-- To dispatch a frame begins no read of a body. -/
theorem dispatch_bodyReads (h : Handlers) (s : Session) :
    (s.dispatch h).bodyReads = s.bodyReads := by
  rw [dispatch, onBind, forward]
  repeat' split
  all_goals rfl

/-- `onReadBody` sees exactly the fields of the frame and its body. -/
theorem handleFrame_handed (h : Handlers) (s : Session) (f : Frame) :
    (s.handleFrame h f).handed = s.handed ++ [f.packet] := by
  rw [handleFrame_eq]
  exact dispatch_handed h (s.load f)

/-- The body of a frame is read at the length that its header says. -/
theorem handleFrame_bodyReads (h : Handlers) (s : Session) (f : Frame) :
    (s.handleFrame h f).bodyReads = s.bodyReads ++ [(headerTotal f.header, f.body.length)] := by
  rw [handleFrame_eq]
  exact dispatch_bodyReads h (s.load f)

/-- All frames are handed over, as packets. -/
theorem foldl_handleFrame_handed (h : Handlers) (s : Session) (fs : List Frame) :
    (fs.foldl (handleFrame h) s).handed = s.handed ++ fs.map Frame.packet := by
  induction fs generalizing s with
  | nil => simp
  | cons f fs ih => rw [List.foldl_cons, ih, handleFrame_handed, List.map_cons, ← List.append_cons]

end Session

end TurboNet
