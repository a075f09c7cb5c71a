import TurboNet.Server.Session

/-!
# The authentication gate of a session

Reference: `turbonet_server.cpp`, `Session::onReadBody`.

A session forwards requests only after a bind request (`0x01`) that `onAuth_` accepted.
`authentication_gate` gives the complete trace of calls of a session for any sequence of frames,
whatever the application does with its `respond` lambdas meanwhile.

A refused bind request removes the session from `sessions_` and then falls through to the next
read. `rejectedIsFinished_iff` says for which frames a refused client is finished nevertheless:
those in which nobody is refused.
-/

namespace TurboNet

open Common

namespace Session

/-- The frame is a bind request that `onAuth_` accepts. -/
def accepts (h : Handlers) (f : Frame) : Bool :=
  f.packet.packetId == 0x01 && h.onAuth.any fun auth => auth f.body

/-! ## What one frame does -/

/-- Only a bind request is accepted. -/
theorem accepts_eq_false {h : Handlers} {f : Frame} (hf : ¬ f.packet.packetId = 0x01) :
    accepts h f = false := by
  rw [accepts, beq_false_of_ne hf, Bool.false_and]

/-- Behind the gate every frame is forwarded. -/
theorem dispatch_of_authenticated {h : Handlers} {s : Session} (hs : s.authenticated = true)
    (f : Frame) : (s.load f).dispatch h = (s.load f).forward h := by
  have hload : (s.load f).authenticated = true := hs
  rw [dispatch, hload]
  rfl

/-- Before the gate a bind request is looked at. -/
theorem dispatch_of_bind {h : Handlers} {s : Session} (hs : s.authenticated = false) {f : Frame}
    (hf : f.packet.packetId = 0x01) : (s.load f).dispatch h = (s.load f).onBind h := by
  have hload : (s.load f).authenticated = false := hs
  have hid : (s.load f).headerBuf.getD 4 0 = 0x01 := hf
  rw [dispatch, hload, hid]
  rfl

/-- Before the gate everything else is dropped. -/
theorem dispatch_of_not_bind {h : Handlers} {s : Session} (hs : s.authenticated = false) {f : Frame}
    (hf : f.packet.packetId ≠ 0x01) : (s.load f).dispatch h = s.load f := by
  have hload : (s.load f).authenticated = false := hs
  have hid : ((s.load f).headerBuf.getD 4 0 == 0x01) = false := beq_false_of_ne hf
  rw [dispatch, hload, hid]
  rfl

/-- A frame opens the gate if it is accepted. -/
theorem handleFrame_authenticated (h : Handlers) (s : Session) (f : Frame) :
    (s.handleFrame h f).authenticated = (s.authenticated || accepts h f) := by
  rw [handleFrame_eq]
  cases hs : s.authenticated with
  | true =>
    rw [dispatch_of_authenticated hs, forward]
    split <;> exact hs
  | false =>
    by_cases hf : f.packet.packetId = 0x01
    · rw [dispatch_of_bind hs hf, onBind]
      cases hauth : h.onAuth with
      | none => simpa [doReadHeader, removeSession, load, accepts, hauth] using hs
      | some auth =>
        by_cases hb : auth f.body = true
        · simp [doReadHeader, send, load, accepts, hauth, hf, hb]
        · simp [doReadHeader, removeSession, load, accepts, hauth, hb, hs]
    · rw [dispatch_of_not_bind hs hf, accepts_eq_false hf]
      exact hs

/-- Behind the gate a frame is passed to `onRequest_`. -/
theorem handleFrame_calls_of_authenticated {h : Handlers} {s : Session}
    (hs : s.authenticated = true) (hr : h.onRequest = true) (f : Frame) :
    (s.handleFrame h f).calls = s.calls ++ [.request f.packet] := by
  have hcur : (s.load f).current h = f.packet := current_eq h _ f.header_length
  rw [handleFrame_eq, dispatch_of_authenticated hs, forward, if_pos hr, hcur]
  rfl

/-- Before the session is authenticated only bind requests make it call anything. -/
theorem handleFrame_calls_of_not_bind {h : Handlers} {s : Session} (hs : s.authenticated = false)
    {f : Frame} (hf : f.packet.packetId ≠ 0x01) : (s.handleFrame h f).calls = s.calls := by
  rw [handleFrame_eq, dispatch_of_not_bind hs hf]
  rfl

/-- A bind request that is accepted is passed to `onAuth_` and answered. -/
theorem handleFrame_calls_of_accepted {h : Handlers} {s : Session} (hs : s.authenticated = false)
    {auth : List UInt8 → Bool} (hauth : h.onAuth = some auth) {f : Frame}
    (hf : f.packet.packetId = 0x01) (hb : auth f.body = true) :
    (s.handleFrame h f).calls =
      s.calls ++ [.auth f.body, .bindResponse (bindResponse f.packet.sequence).wire] := by
  have hseq : fromBigEndian h.host f.header 6 = f.packet.sequence :=
    fromBigEndian_sequence h.host f.header_length
  rw [handleFrame_eq, dispatch_of_bind hs hf]
  simp [onBind, hauth, load, hb, doReadHeader, send, hseq, bindResponseFrame_eq]

/-- A bind request that is refused is passed to `onAuth_` only. -/
theorem handleFrame_calls_of_refused {h : Handlers} {s : Session} (hs : s.authenticated = false)
    {auth : List UInt8 → Bool} (hauth : h.onAuth = some auth) {f : Frame}
    (hf : f.packet.packetId = 0x01) (hb : auth f.body = false) :
    (s.handleFrame h f).calls = s.calls ++ [.auth f.body] := by
  rw [handleFrame_eq, dispatch_of_bind hs hf]
  simp [onBind, hauth, load, hb, doReadHeader, removeSession]

/-! ## What a sequence of frames does -/

/-- The frames up to the first accepted bind request, it included. -/
def upToAccept (h : Handlers) (fs : List Frame) : List Frame :=
  fs.takeWhile (fun f => !accepts h f) ++ (fs.dropWhile (fun f => !accepts h f)).take 1

/-- The calls that the frames of a whole session should make: `onAuth_` for the bind requests up to
the first accepted one, the response to that one, `onRequest_` for every frame after it. -/
def gateCalls (h : Handlers) (fs : List Frame) : List SessionCall :=
  ((upToAccept h fs).filter fun f => f.packet.packetId == 0x01).map (fun f => .auth f.body) ++
    ((fs.dropWhile fun f => !accepts h f).take 1).map
      (fun f => .bindResponse (bindResponse f.packet.sequence).wire) ++
    ((fs.dropWhile fun f => !accepts h f).drop 1).map (fun f => .request f.packet)

/-- The gate is open after some frames if one of them is accepted. -/
theorem foldl_handleFrame_authenticated (h : Handlers) (s : Session) (fs : List Frame) :
    (fs.foldl (handleFrame h) s).authenticated = (s.authenticated || fs.any (accepts h)) := by
  induction fs generalizing s with
  | nil => simp
  | cons f fs ih =>
    rw [List.foldl_cons, ih, handleFrame_authenticated, List.any_cons, Bool.or_assoc]

/-- A session to which nobody binds makes no calls. -/
theorem foldl_handleFrame_calls_of_not_bind {h : Handlers} {s : Session}
    (hs : s.authenticated = false) {fs : List Frame} (hfs : ∀ f ∈ fs, f.packet.packetId ≠ 0x01) :
    (fs.foldl (handleFrame h) s).calls = s.calls := by
  induction fs generalizing s with
  | nil => rfl
  | cons f fs ih =>
    obtain ⟨hf, hfs⟩ := List.forall_mem_cons.mp hfs
    have hs' : (s.handleFrame h f).authenticated = false := by
      rw [handleFrame_authenticated, hs, accepts_eq_false hf]
      rfl
    rw [List.foldl_cons, ih hs' hfs, handleFrame_calls_of_not_bind hs hf]

/-- Behind the gate all frames are passed to `onRequest_`. -/
theorem foldl_handleFrame_calls_of_authenticated {h : Handlers} {s : Session}
    (hs : s.authenticated = true) (hr : h.onRequest = true) (fs : List Frame) :
    (fs.foldl (handleFrame h) s).calls = s.calls ++ fs.map fun f => .request f.packet := by
  induction fs generalizing s with
  | nil => simp
  | cons f fs ih =>
    rw [List.foldl_cons, ih (by simp [handleFrame_authenticated, hs]),
      handleFrame_calls_of_authenticated hs hr, List.map_cons, ← List.append_cons]

/-- Before the gate the frames make the calls that they should make. -/
theorem foldl_handleFrame_calls {h : Handlers} {auth : List UInt8 → Bool}
    (hauth : h.onAuth = some auth) (hr : h.onRequest = true) {s : Session}
    (hs : s.authenticated = false) (fs : List Frame) :
    (fs.foldl (handleFrame h) s).calls = s.calls ++ gateCalls h fs := by
  -- by induction on the frames; the state stays unauthenticated until the first accepted one
  induction fs generalizing s with
  | nil => simp [gateCalls, upToAccept]
  | cons f fs ih =>
    rw [List.foldl_cons]
    cases hacc : accepts h f with
    | true =>
      obtain ⟨hid, hb⟩ : f.packet.packetId = 0x01 ∧ auth f.body = true := by
        simpa [accepts, hauth] using hacc
      rw [foldl_handleFrame_calls_of_authenticated
        (by simp [handleFrame_authenticated, hacc]) hr,
        handleFrame_calls_of_accepted hs hauth hid hb]
      simp [gateCalls, upToAccept, hacc, hid]
    | false =>
      rw [ih (by simp [handleFrame_authenticated, hs, hacc])]
      by_cases hid : f.packet.packetId = 0x01
      · have hb : auth f.body = false := by simpa [accepts, hauth, hid] using hacc
        rw [handleFrame_calls_of_refused hs hauth hid hb]
        simp [gateCalls, upToAccept, hacc, hid]
      · rw [handleFrame_calls_of_not_bind hs hid]
        simp [gateCalls, upToAccept, hacc, hid]

/-! ## The gate, over whole runs of a session -/

/-- The completions of a run's reads, in order. -/
def readsOf (es : List Event) : List (List UInt8) :=
  es.filterMap fun e => match e with
    | .readDone bs => some bs
    | _ => none

/-- The session without its writes and its place in `sessions_`. -/
def input (s : Session) : Session := { s with out := {}, registered := true }

/-- Sessions with the same input have made the same calls. -/
theorem input_calls {s t : Session} (hst : s.input = t.input) : s.calls = t.calls :=
  (congrArg Session.calls hst : s.input.calls = t.input.calls)

/-- What is being written, and whether the session is in `sessions_`, has no bearing on a frame. -/
theorem input_dispatch (h : Handlers) (s : Session) (o : Outbox UInt8) (r : Bool) :
    (dispatch h { s with out := o, registered := r }).input = (s.dispatch h).input := by
  simp only [dispatch]
  split
  · simp only [onBind]
    cases h.onAuth with
    | none => rfl
    | some auth =>
      dsimp only
      split <;> rfl
  · split
    · simp only [forward]
      split <;> rfl
    · rfl

/-- Nor has it on a completed read. -/
theorem input_readDone (h : Handlers) (s : Session) (o : Outbox UInt8) (r : Bool) (op : ReadOp)
    (bs : List UInt8) :
    (readDone h { s with out := o, registered := r } op bs).input = (s.readDone h op bs).input := by
  cases op with
  | header => rfl
  | body n =>
    exact congrArg Session.doReadHeader (input_dispatch h
      { s with bodyBuf := bs, reading := none
               handed := s.handed ++ [current h { s with bodyBuf := bs, reading := none }] } o r)

/-- The read chain does not look at the writes or at `sessions_`. -/
theorem input_deliver (h : Handlers) {s t : Session} (hst : s.input = t.input) (bs : List UInt8) :
    ((reader h).deliver s bs).input = ((reader h).deliver t bs).input := by
  have ht : t = { s with out := t.out, registered := t.registered } := by
    cases s
    cases t
    simpa [input, eq_comm] using hst
  have hr : t.reading = s.reading :=
    (congrArg Session.reading hst : s.input.reading = t.input.reading).symm
  simp only [reader, hr]
  cases s.reading with
  | none => exact hst
  | some op =>
    rw [ht]
    exact (input_readDone h s _ _ op bs).symm

/-- A session without an outstanding read gets no further one. -/
theorem run_of_reading_none {h : Handlers} {s u : Session} {es : List Event}
    (hs : s.reading = none) (hrun : run (step h) s es = some u) :
    readsOf es = [] ∧ u.calls = s.calls := by
  induction es generalizing s with
  | nil =>
    obtain rfl : s = u := by simpa using hrun
    exact ⟨rfl, rfl⟩
  | cons e es ih =>
    obtain ⟨t, ht, hu⟩ := run_cons_eq_some.mp hrun
    have hsame : (∀ bs, e ≠ .readDone bs) ∧ t.reading = none ∧ t.calls = s.calls := by
      cases acts_of_step ht with
      | readDone op bs hop hlen => simp [hs] at hop
      | readFail op hop => simp [hs] at hop
      | _ => exact ⟨by simp, hs, rfl⟩
    obtain ⟨hreads, hcalls⟩ := ih hsame.2.1 hu
    refine ⟨?_, hcalls.trans hsame.2.2⟩
    cases e with
    | readDone bs => exact absurd rfl (hsame.1 bs)
    | _ => exact hreads

/-- The calls of a session are a function of what its reads returned. -/
theorem run_calls {h : Handlers} {s t u : Session} {es : List Event} (hst : s.input = t.input)
    (hrun : run (step h) s es = some u) :
    u.calls = ((readsOf es).foldl (reader h).deliver t).calls := by
  induction es generalizing s t with
  | nil =>
    obtain rfl : s = u := by simpa using hrun
    exact input_calls hst
  | cons e es ih =>
    obtain ⟨v, hv, hu⟩ := run_cons_eq_some.mp hrun
    have hout (o : Outbox UInt8) (hvo : v = { s with out := o }) : v.input = t.input := by
      rw [hvo, ← hst]
      rfl
    cases acts_of_step hv with
    | readDone op bs hop hlen =>
      exact ih (reader_deliver hop bs ▸ input_deliver h hst bs) hu
    | readFail op hop =>
      -- the read chain has ended, so nothing is read afterwards
      obtain ⟨hreads, hcalls⟩ := run_of_reading_none (readFail_reading h s op) hu
      have hfail : (s.readFail h op).calls = s.calls := by cases op <;> rfl
      have hnil : readsOf (.readFail :: es) = [] := hreads
      rw [hnil, hcalls, hfail]
      exact input_calls hst
    | _ => exact ih (hout _ rfl) hu

/-- Two completions make up a frame. -/
theorem foldl_deliver_frames (h : Handlers) {s : Session} (hs : s.reading = some .header)
    (fs : List Frame) :
    (fs.flatMap fun f => [f.header, f.body]).foldl (reader h).deliver s
      = fs.foldl (handleFrame h) s := by
  induction fs generalizing s with
  | nil => rfl
  | cons f fs ih =>
    have htwo : (reader h).deliver ((reader h).deliver s f.header) f.body = s.handleFrame h f := by
      rw [reader_deliver hs, reader_deliver (readDone_frame_header_reading h s f), handleFrame]
    rw [List.flatMap_cons, List.foldl_append, List.foldl_cons, List.foldl_cons, List.foldl_nil,
      htwo, ih (handleFrame_reading h s f), List.foldl_cons]

/-! ## What a session passes to `send` -/

/-- The bind responses among the calls of a session. -/
def bindFrames (calls : List SessionCall) : List (List UInt8) :=
  calls.filterMap fun c => match c with
    | .bindResponse message => some message
    | _ => none

/-- The frames that the `respond` calls of a run pass to `send`. -/
def respondsOf (h : Handlers) (es : List Event) : List (List UInt8) :=
  es.filterMap fun e => match e with
    | .respond p => some (respondFrame h.host p)
    | _ => none

/-- The frame handler passes to `send` just the bind responses it records. -/
theorem dispatch_started (h : Handlers) (s : Session) :
    ∃ fs, (s.dispatch h).out.started = s.out.started ++ fs ∧
      bindFrames (s.dispatch h).calls = bindFrames s.calls ++ fs := by
  rw [dispatch]
  split
  · rw [onBind]
    split
    · exact ⟨[], by simp [removeSession]⟩
    · split
      · exact ⟨[bindResponseFrame h.host (fromBigEndian h.host s.headerBuf 6)], rfl,
          by simp [send, bindFrames]⟩
      · exact ⟨[], by simp [removeSession, bindFrames]⟩
  · split
    · rw [forward]
      split
      · exact ⟨[], by simp [bindFrames]⟩
      · exact ⟨[], by simp⟩
    · exact ⟨[], by simp⟩

/-- A read starts the writes of the bind responses that it calls for, and no others. -/
theorem readDone_started (h : Handlers) (s : Session) (op : ReadOp) (bs : List UInt8) :
    ∃ fs, (s.readDone h op bs).out.started = s.out.started ++ fs ∧
      bindFrames (s.readDone h op bs).calls = bindFrames s.calls ++ fs := by
  cases op with
  | header => exact ⟨[], (List.append_nil _).symm, (List.append_nil _).symm⟩
  | body n => exact dispatch_started h _

/-- A session passes to `send` its own bind responses and what `respond` is called with. -/
theorem run_started {h : Handlers} {s u : Session} {es : List Event} (base : List (List UInt8))
    (hs : s.out.started.Perm (bindFrames s.calls ++ base)) (hrun : run (step h) s es = some u) :
    u.out.started.Perm (bindFrames u.calls ++ (base ++ respondsOf h es)) := by
  induction es generalizing s base with
  | nil =>
    obtain rfl : s = u := by simpa using hrun
    simpa [respondsOf] using hs
  | cons e es ih =>
    obtain ⟨t, ht, hu⟩ := run_cons_eq_some.mp hrun
    have hsocket {o : Outbox UInt8} (ho : o.started = s.out.started) :
        o.started.Perm (bindFrames s.calls ++ base) := ho ▸ hs
    -- only which frames there are matters, so those of a read and the answers are taken apart
    cases acts_of_step ht with
    | readDone op bs hop hlen =>
      obtain ⟨fs, hstarted, hcalls⟩ := readDone_started h s op bs
      refine ih base ?_ hu
      rw [hstarted, hcalls]
      exact (hs.append_right fs).trans (by
        rw [List.append_assoc, List.append_assoc]
        exact List.perm_append_comm.append_left _)
    | readFail op hop =>
      have hsame : (s.readFail h op).out = s.out ∧ (s.readFail h op).calls = s.calls := by
        cases op <;> exact ⟨rfl, rfl⟩
      refine ih base ?_ hu
      rw [hsame.1, hsame.2]
      exact hs
    | respond p hheld =>
      have hnext := ih (base ++ [respondFrame h.host p])
        (by rw [← List.append_assoc]; exact hs.append_right _) hu
      simpa [respondsOf] using hnext
    | transfer i k o ho =>
      exact ih (s := { s with out := o }) base (hsocket (Outbox.transfer_started ho)) hu
    | reuse i memory o ho =>
      exact ih (s := { s with out := o }) base (hsocket (Outbox.reuse_started ho)) hu
    | writeFail i o ho =>
      exact ih (s := { s with out := o }) base (hsocket (Outbox.fail_started ho)) hu

/-- There is one bind response at most, to the first frame that is accepted. -/
theorem bindFrames_gateCalls (h : Handlers) (fs : List Frame) :
    bindFrames (gateCalls h fs) = ((fs.dropWhile fun f => !accepts h f).take 1).map
      fun f => (bindResponse f.packet.sequence).wire := by
  have hauth (l : List Frame) : bindFrames (l.map fun f => .auth f.body) = [] := by
    simp [bindFrames]
  have hreq (l : List Frame) : bindFrames (l.map fun f => .request f.packet) = [] := by
    simp [bindFrames]
  have hbind (l : List Frame) :
      bindFrames (l.map fun f => .bindResponse (bindResponse f.packet.sequence).wire)
        = l.map fun f => (bindResponse f.packet.sequence).wire := by
    simp [bindFrames, List.filterMap_map]
  have happ (a b : List SessionCall) : bindFrames (a ++ b) = bindFrames a ++ bindFrames b :=
    List.filterMap_append
  rw [gateCalls, happ, happ, hauth, hreq, hbind, List.nil_append, List.append_nil]

/-- **The authentication gate.** In every run of a session whose reads return the frames `fs`, with
a pure auth handler and a request handler installed: the session consults the auth handler exactly
on the bind requests up to and including the first accepted one, sends a bind response to that one,
and calls the request handler with exactly the frames after it, in this order; and besides what the
application passes to `respond`, that bind response is all it ever passes to `send`. -/
theorem authentication_gate (host : Endian) (auth : List UInt8 → Bool) (fs : List Frame)
    (es : List Event) (s : Session)
    (hrun : run (step ⟨host, some auth, true⟩) (start {}) es = some s)
    (hreads : readsOf es = fs.flatMap fun f => [f.header, f.body]) :
    s.calls = gateCalls ⟨host, some auth, true⟩ fs ∧
      s.out.started.Perm
        (((fs.dropWhile fun f => !accepts ⟨host, some auth, true⟩ f).take 1).map
            (fun f => (bindResponse f.packet.sequence).wire) ++
          respondsOf ⟨host, some auth, true⟩ es) := by
  have hcalls : s.calls = gateCalls ⟨host, some auth, true⟩ fs := by
    rw [run_calls rfl hrun, hreads, foldl_deliver_frames _ rfl,
      foldl_handleFrame_calls rfl rfl rfl]
    rfl
  have hstarted := run_started [] (List.Perm.refl _) hrun
  rw [hcalls, bindFrames_gateCalls, List.nil_append] at hstarted
  exact ⟨hcalls, hstarted⟩

/-- An auth handler that lets in the client `"a"` only. -/
def onlyA (clientId : List UInt8) : Bool := clientId == [0x61]

/-- A bind request of the client with the given id. -/
def bindFrame (seq : UInt32) (clientId : UInt8) : Frame :=
  Packet.frame ⟨0x01, 0x00, seq, [clientId]⟩ (by decide : 10 + 1 < 2 ^ 32)

/-- A request with a one-byte body. -/
def requestFrame (seq : UInt32) (b : UInt8) : Frame :=
  Packet.frame ⟨0x02, 0x00, seq, [b]⟩ (by decide : 10 + 1 < 2 ^ 32)

/-- A request, a refused and an accepted bind request, and a request that is answered while the
bind response is still being written. -/
def refusedThenAccepted : List Event :=
  [.readDone (requestFrame 1 0x78).header, .readDone (requestFrame 1 0x78).body,
    .readDone (bindFrame 2 0x62).header, .readDone (bindFrame 2 0x62).body,
    .readDone (bindFrame 3 0x61).header, .readDone (bindFrame 3 0x61).body, .transfer 0 4,
    .readDone (requestFrame 4 0x79).header, .readDone (requestFrame 4 0x79).body,
    .respond ⟨0x82, 0x00, 4, []⟩]

/-- The calls of the session in `refusedThenAccepted`. -/
theorem authentication_gate_refused_then_accepted :
    ∃ s, run (step ⟨.little, some onlyA, true⟩) (start {}) refusedThenAccepted = some s ∧
      s.calls = gateCalls ⟨.little, some onlyA, true⟩
        [requestFrame 1 0x78, bindFrame 2 0x62, bindFrame 3 0x61, requestFrame 4 0x79] := by
  obtain ⟨s, hs⟩ := Option.isSome_iff_exists.mp (show (run (step ⟨.little, some onlyA, true⟩)
    (start {}) refusedThenAccepted).isSome = true by decide)
  exact ⟨s, hs, (authentication_gate .little onlyA _ _ s hs (by decide)).1⟩

/-! ## A refused client -/

/-- The session after its read loop has received the frames `fs`. -/
def after (h : Handlers) (fs : List Frame) : Session :=
  (loop h (start {}) (fs.flatMap Frame.bytes)).1

/-- To receive frames is to handle one after another. -/
theorem after_eq (h : Handlers) (fs : List Frame) :
    after h fs = fs.foldl (handleFrame h) (start {}) := by
  rw [after, loop_frames h rfl]

/-- The session is about to handle a bind request that is refused, or for which no auth handler is
set. -/
def Refuses (h : Handlers) (s : Session) (f : Frame) : Prop :=
  s.authenticated = false ∧ f.packet.packetId = 0x01 ∧ accepts h f = false

/-- A client whose bind request was refused is finished: the session issues no further read, none
of the later frames reaches `onAuth_` or `onRequest_`, and the session never gets authenticated. -/
def RejectedIsFinished (h : Handlers) (fs : List Frame) : Prop :=
  ∀ pre f post, fs = pre ++ f :: post → Refuses h (after h pre) f →
    ∀ more, more <+: post →
      (after h (pre ++ f :: more)).reading = none ∧
      (after h (pre ++ f :: more)).calls = (after h (pre ++ [f])).calls ∧
      (after h (pre ++ f :: more)).authenticated = false

/-- The first bind request, if there is one, is accepted. -/
def FirstBindAccepted (h : Handlers) (fs : List Frame) : Prop :=
  ∀ f, (fs.find? fun f => f.packet.packetId == 0x01) = some f → accepts h f = true

/-- Between two frames the session waits for a header. -/
theorem after_reading (h : Handlers) (fs : List Frame) : (after h fs).reading = some .header := by
  rw [after_eq]
  exact foldl_handleFrame_reading h rfl fs

/-- The gate is open if one of the frames is accepted. -/
theorem after_authenticated (h : Handlers) (fs : List Frame) :
    (after h fs).authenticated = fs.any (accepts h) := by
  rw [after_eq, foldl_handleFrame_authenticated]
  rfl

/-- The read after a refusal is issued like any other, so the clients that are finished once they
have been refused are those that are never refused: their first bind request is accepted. -/
theorem rejectedIsFinished_iff (h : Handlers) (fs : List Frame) :
    RejectedIsFinished h fs ↔ FirstBindAccepted h fs := by
  constructor
  · intro hfin f hfind
    by_contra hacc
    obtain ⟨hid, pre, post, rfl, hpre⟩ := List.find?_eq_some_iff_append.mp hfind
    have hunauth : (after h pre).authenticated = false := by
      rw [after_authenticated, List.any_eq_false]
      intro g hg
      have hne : ¬ g.packet.packetId = 0x01 := by simpa using hpre g hg
      simp [accepts_eq_false hne]
    have hrefuses : Refuses h (after h pre) f :=
      ⟨hunauth, by simpa using hid, by simpa using hacc⟩
    have hnone := (hfin pre f post rfl hrefuses [] List.nil_prefix).1
    rw [after_reading] at hnone
    exact absurd hnone (by simp)
  · rintro hfirst pre f post rfl ⟨hunauth, hid, hacc⟩
    -- the first bind request is in `pre`, which is then authenticated, or it is `f` itself
    exfalso
    rw [after_authenticated, List.any_eq_false] at hunauth
    cases hfind : pre.find? fun f => f.packet.packetId == 0x01 with
    | none =>
      have hf := hfirst f (by rw [List.find?_append, hfind]; simp [hid])
      rw [hacc] at hf
      exact absurd hf (by simp)
    | some g =>
      have hg := hfirst g (by rw [List.find?_append, hfind]; rfl)
      exact hunauth g (List.mem_of_find?_eq_some hfind) hg

/-- A client that is refused binds again, is accepted, and gets a request through. -/
theorem refused_client_gets_in :
    ¬ RejectedIsFinished ⟨.little, some onlyA, true⟩
      [bindFrame 1 0x62, bindFrame 2 0x61, requestFrame 3 0x78] ∧
    (after ⟨.little, some onlyA, true⟩
      [bindFrame 1 0x62, bindFrame 2 0x61, requestFrame 3 0x78]).authenticated = true := by
  refine ⟨fun hfin => ?_, by decide⟩
  have hauth := (hfin [] (bindFrame 1 0x62) [bindFrame 2 0x61, requestFrame 3 0x78] rfl
    ⟨by decide, by decide, by decide⟩ _ List.prefix_rfl).2.2
  exact absurd hauth (by decide)

end Session

end TurboNet
