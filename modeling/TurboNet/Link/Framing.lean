import TurboNet.Server.Session
import TurboNet.Client.ReadLoop

/-!
# Framing between client and server

Reference: `turbonet_client.cpp`, `sendPacket`, `onReadHeader`, `onReadBody`;
`turbonet_server.cpp`, `Session::onReadHeader`, `Session::onReadBody`.

Frames built on one side are read back on the other (`framing_round_trip`). On an arbitrary byte
stream the two receivers agree as long as they meet no header that declares a total length below
the size of a header (`sameFraming_iff`): there the client skips the header, while the server
computes `total - 10` in `uint32_t` and asks for almost 2^32 bytes.
-/

namespace TurboNet

open Common

/-! ## Round trip -/

/-- **Framing round trip.** The frames that `sendPacket` builds on a host of either byte order make
the loop of a session, on a host of either byte order, see exactly their packets in order and stop
at a header boundary with every byte consumed; and so do the frames of the `respond` lambda with the
loop of a client that has not been closed. -/
theorem framing_round_trip (sender : Endian) (ps : List Packet) (hfits : ∀ p ∈ ps, p.Fits) :
    (∀ (h : Handlers) (s : Session), s.reading = some .header →
      (s.loop h (ps.flatMap (sendPacketFrame sender))).1.handed = s.handed ++ ps ∧
      (s.loop h (ps.flatMap (sendPacketFrame sender))).1.reading = some .header ∧
      (s.loop h (ps.flatMap (sendPacketFrame sender))).2 = []) ∧
    (∀ (cfg : ClientConfig) (c : Client), c.running = true → c.rx.reading = some .header →
      (c.loop cfg (ps.flatMap (respondFrame sender))).1.rx.handed = c.rx.handed ++ ps ∧
      (c.loop cfg (ps.flatMap (respondFrame sender))).1.rx.reading = some .header ∧
      (c.loop cfg (ps.flatMap (respondFrame sender))).2 = []) := by
  obtain ⟨fs, hpackets, hbytes, hcover⟩ := Packet.exists_frames hfits
  have hsent : ps.flatMap (sendPacketFrame sender) = fs.flatMap Frame.bytes := by
    rw [hbytes, funext (sendPacketFrame_eq sender)]
  have hresponded : ps.flatMap (respondFrame sender) = fs.flatMap Frame.bytes := by
    rw [hbytes, funext (respondFrame_eq sender)]
  constructor
  · intro h s hs
    rw [hsent, Session.loop_frames h hs]
    refine ⟨?_, Session.foldl_handleFrame_reading h hs fs, rfl⟩
    rw [Session.foldl_handleFrame_handed, hpackets]
  · intro cfg c hrun hc
    rw [hresponded, ← hpackets]
    exact Client.loop_frames cfg hrun hc hcover

/-- The client right after its connection has been made. -/
def Client.connected (cfg : ClientConfig) : Client := (({} : Client).connect 0).onConnect cfg false

/-- Two packets, one of them with an empty payload, in both directions between hosts of different
byte order. -/
theorem framing_round_trip_two_packets :
    ((Session.start {}).loop ⟨.big, none, true⟩
        ([⟨0x02, 0, 1, [0x61]⟩, ⟨0x02, 0, 2, []⟩].flatMap (sendPacketFrame .little))).1.handed
        = [⟨0x02, 0, 1, [0x61]⟩, ⟨0x02, 0, 2, []⟩] ∧
      ((Client.connected { host := .big }).loop { host := .big }
        ([⟨0x82, 0, 1, []⟩, ⟨0x82, 7, 2, [0x61, 0x62]⟩].flatMap
          (respondFrame .little))).1.rx.handed
        = [⟨0x82, 0, 1, []⟩, ⟨0x82, 7, 2, [0x61, 0x62]⟩] :=
  ⟨((framing_round_trip .little _ (by decide)).1 _ _ rfl).1,
    ((framing_round_trip .little _ (by decide)).2 _ _ rfl rfl).1⟩

/-! ## Arbitrary streams -/

/-- A body read that asks for the declared total less the header, with no wrap in between. -/
def ExactBodyRead (r : UInt32 × ℕ) : Prop := 10 ≤ r.1.toNat ∧ r.2 = r.1.toNat - 10

instance (r : UInt32 × ℕ) : Decidable (ExactBodyRead r) := inferInstanceAs (Decidable (_ ∧ _))

/-- A session and a client, both fresh, find the same packets in the stream, and the body reads of
both ask for what was declared. -/
def SameFraming (h : Handlers) (cfg : ClientConfig) (stream : List UInt8) : Prop :=
  ((Session.start {}).loop h stream).1.handed
      = ((Client.connected cfg).loop cfg stream).1.rx.handed ∧
    (∀ r ∈ ((Session.start {}).loop h stream).1.bodyReads, ExactBodyRead r) ∧
    ∀ r ∈ ((Client.connected cfg).loop cfg stream).1.rx.bodyReads, ExactBodyRead r

/-- Cutting the stream into frames from its start, one meets no header with a declared total below
the size of a header. The last frame may be incomplete. -/
inductive WellFramed : List UInt8 → Prop where
  | cutHeader (stream : List UInt8) (hcut : stream.length < 10) : WellFramed stream
  | cutBody (header rest : List UInt8) (hheader : header.length = 10)
    (htotal : 10 ≤ (headerTotal header).toNat)
    (hcut : rest.length < (headerTotal header).toNat - 10) : WellFramed (header ++ rest)
  | frame (f : Frame) (htotal : 10 ≤ (headerTotal f.header).toNat) (rest : List UInt8)
    (hrest : WellFramed rest) : WellFramed (f.bytes ++ rest)

namespace Session

/-- A loop that waits for a header and gets it, but not the whole body behind it. -/
theorem loop_cutBody (h : Handlers) {s : Session} (hs : s.reading = some .header)
    {header rest : List UInt8} (hheader : header.length = 10)
    (hcut : rest.length < (headerTotal header - 10).toNat) :
    s.loop h (header ++ rest) = (s.readDone h .header header, rest) := by
  have hbody := reader_want (h := h) (readDone_header_reading h s hheader)
  rw [loop, ExactReader.drain_append_of_lt _ (reader_deliver hs header ▸ hbody) hcut,
    reader_deliver hs]
  rw [reader_want hs, hheader]
  rfl

/-- The session asks for the declared total less the header. -/
theorem readDone_header_bodyReads (h : Handlers) (s : Session) {header : List UInt8}
    (hheader : header.length = 10) :
    (s.readDone h .header header).bodyReads =
      s.bodyReads ++ [(headerTotal header, (headerTotal header - 10).toNat)] := by
  rw [← fromBigEndian_total h.host hheader]
  rfl

/-- The record of body reads only grows. -/
theorem bodyReads_subset_loop (h : Handlers) (s : Session) (stream : List UInt8) :
    s.bodyReads ⊆ (s.loop h stream).1.bodyReads := by
  refine ExactReader.drain_induction (P := fun t : Session => s.bodyReads ⊆ t.bodyReads)
    (List.Subset.refl _) (fun t k xs ht _ _ => ?_) stream
  simp only [reader]
  split
  · rename_i op _
    cases op with
    | header => exact List.subset_append_of_subset_left _ ht
    | body n =>
      change s.bodyReads ⊆ (dispatch h _).bodyReads
      rw [dispatch_bodyReads]
      exact ht
  · exact ht

end Session

namespace Client

/-- A body that has not come in whole is left. -/
theorem loop_cutBody (cfg : ClientConfig) {c : Client} (hc : c.rx.reading = some .header)
    {header rest : List UInt8} (hheader : header.length = 10)
    (htotal : 10 ≤ (headerTotal header).toNat)
    (hcut : rest.length < (headerTotal header - 10).toNat) :
    c.loop cfg (header ++ rest) = (c.readDone cfg .header header, rest) := by
  have hreading : (c.readDone cfg .header header).rx.reading
      = some (.body (headerTotal header - 10).toNat) := by
    rw [readDone_header_rx cfg c hheader, if_pos htotal]
  have hbody : (reader cfg).want (c.readDone cfg .header header) = _ := reader_want hreading
  rw [loop, ExactReader.drain_append_of_lt _ (reader_deliver hc header ▸ hbody) hcut,
    reader_deliver hc]
  rw [reader_want hc, hheader]
  rfl

end Client

/-- A session and a client that have found the same packets and wait for the next header. -/
structure InSync (s : Session) (c : Client) : Prop where
  session_reading : s.reading = some .header
  client_running : c.running = true
  client_reading : c.rx.reading = some .header
  handed : s.handed = c.rx.handed
  bodyReads : s.bodyReads = c.rx.bodyReads
  exact : ∀ r ∈ s.bodyReads, ExactBodyRead r

/-- A new session and a client that has just connected both wait for their first header. -/
theorem InSync.init (cfg : ClientConfig) : InSync (Session.start {}) (Client.connected cfg) := by
  obtain ⟨hrx, hrun⟩ := Client.onConnect_rx cfg (({} : Client).connect 0)
  rw [← Client.connected] at hrx hrun
  exact ⟨rfl, hrun, by rw [hrx], by rw [hrx]; rfl, by rw [hrx]; rfl, fun r hr => absurd hr (by
    simp [Session.start, Session.doReadHeader])⟩

/-- No wrap comes into the body read of a header that declares its own size at least. -/
theorem exactBodyRead_sub {total : UInt32} (h : 10 ≤ total.toNat) :
    ExactBodyRead (total, (total - 10).toNat) :=
  ⟨h, toNat_sub_ten h⟩

/-- One more such body read is exact as well. -/
theorem InSync.exact_append {s : Session} {c : Client} (hsync : InSync s c) {total : UInt32}
    (htotal : 10 ≤ total.toNat) :
    ∀ r ∈ s.bodyReads ++ [(total, (total - 10).toNat)], ExactBodyRead r := by
  intro r hr
  rcases List.mem_append.mp hr with hr | hr
  · exact hsync.exact r hr
  · exact List.mem_singleton.mp hr ▸ exactBodyRead_sub htotal

/-- A frame that covers its header keeps the receivers in step. -/
theorem InSync.frame (h : Handlers) (cfg : ClientConfig) {s : Session} {c : Client}
    (hsync : InSync s c) {f : Frame} (htotal : 10 ≤ (headerTotal f.header).toNat) :
    InSync (s.handleFrame h f) (c.handleFrame cfg f) := by
  have hrx := Client.handleFrame_rx cfg hsync.client_running htotal
  have hreads := Session.handleFrame_bodyReads h s f
  refine ⟨rfl, ?_, by rw [hrx], ?_, ?_, ?_⟩
  · rw [Client.handleFrame_running, hsync.client_running]
  · rw [hrx, Session.handleFrame_handed, hsync.handed]
  · rw [hrx, hreads, hsync.bodyReads]
  · rw [hreads, f.body_length]
    exact hsync.exact_append htotal

/-- Receivers in step find the same in a well framed stream. -/
theorem InSync.loop (h : Handlers) (cfg : ClientConfig) {stream : List UInt8}
    (hwf : WellFramed stream) {s : Session} {c : Client} (hsync : InSync s c) :
    (s.loop h stream).1.handed = (c.loop cfg stream).1.rx.handed ∧
      (∀ r ∈ (s.loop h stream).1.bodyReads, ExactBodyRead r) ∧
      ∀ r ∈ (c.loop cfg stream).1.rx.bodyReads, ExactBodyRead r := by
  -- both receivers cut the stream at the same places, frame by frame
  induction hwf generalizing s c with
  | cutHeader stream hcut =>
    have hserver : s.loop h stream = (s, stream) :=
      ExactReader.drain_of_lt (Session.reader_want hsync.session_reading) hcut
    have hclient : c.loop cfg stream = (c, stream) :=
      ExactReader.drain_of_lt (Client.reader_want hsync.client_reading) hcut
    rw [hserver, hclient]
    exact ⟨hsync.handed, hsync.exact, hsync.bodyReads ▸ hsync.exact⟩
  | cutBody header rest hheader htotal hcut =>
    have hcut' : rest.length < (headerTotal header - 10).toNat := by rwa [toNat_sub_ten htotal]
    rw [Session.loop_cutBody h hsync.session_reading hheader hcut',
      Client.loop_cutBody cfg hsync.client_reading hheader htotal hcut']
    have hrx := Client.readDone_header_rx cfg c hheader
    rw [if_pos htotal] at hrx
    refine ⟨?_, ?_, ?_⟩
    · rw [hrx]
      exact hsync.handed
    · rw [Session.readDone_header_bodyReads h s hheader]
      exact hsync.exact_append htotal
    · rw [hrx, ← hsync.bodyReads]
      exact hsync.exact_append htotal
  | frame f htotal rest hrest ih =>
    rw [Session.loop_frame h hsync.session_reading,
      Client.loop_frame cfg hsync.client_reading htotal]
    exact ih (hsync.frame h cfg htotal)

/-- A stream in which no body read of the session wraps is well framed. -/
theorem wellFramed_of_exact (h : Handlers) {s : Session} (hs : s.reading = some .header)
    (stream : List UInt8) (hexact : ∀ r ∈ (s.loop h stream).1.bodyReads, ExactBodyRead r) :
    WellFramed stream := by
  -- by induction on the length of the stream, a frame at a time
  induction hn : stream.length using Nat.strong_induction_on generalizing s stream with
  | _ n ih =>
    by_cases hcut : stream.length < 10
    · exact .cutHeader stream hcut
    obtain ⟨header, back, rfl, hheader⟩ :
        ∃ header back, stream = header ++ back ∧ header.length = 10 :=
      ⟨stream.take 10, stream.drop 10, (List.take_append_drop 10 stream).symm,
        List.length_take_of_le (Nat.not_lt.mp hcut)⟩
    by_cases hbody : back.length < (headerTotal header - 10).toNat
    · -- the body read of this header is the last one
      rw [Session.loop_cutBody h hs hheader hbody, Session.readDone_header_bodyReads h s hheader]
        at hexact
      have htotal := (hexact _ (List.mem_append_right _ List.mem_cons_self)).1
      exact .cutBody header back hheader htotal (by rwa [← toNat_sub_ten htotal])
    · let f : Frame := ⟨header, back.take (headerTotal header - 10).toNat, hheader,
        List.length_take_of_le (Nat.not_lt.mp hbody)⟩
      have hsplit : header ++ back = f.bytes ++ back.drop (headerTotal header - 10).toNat := by
        rw [Frame.bytes, List.append_assoc, List.take_append_drop]
      rw [hsplit, Session.loop_frame h hs] at hexact
      rw [hsplit]
      have hread : (headerTotal f.header, f.body.length) ∈ (s.handleFrame h f).bodyReads := by
        rw [Session.handleFrame_bodyReads]
        exact List.mem_append_right _ List.mem_cons_self
      refine .frame f (hexact _ (Session.bodyReads_subset_loop h _ _ hread)).1 _ ?_
      refine ih _ ?_ (Session.handleFrame_reading h s f) _ hexact rfl
      simp only [List.length_append, List.length_drop] at hn ⊢
      omega

/-- **The receivers implement the same framing** exactly on the streams in which no header declares
a total length below the size of a header. -/
theorem sameFraming_iff (h : Handlers) (cfg : ClientConfig) (stream : List UInt8) :
    SameFraming h cfg stream ↔ WellFramed stream :=
  ⟨fun hsame => wellFramed_of_exact h rfl stream hsame.2.1,
    fun hwf => (InSync.init cfg).loop h cfg hwf⟩

/-- A header that declares a total of 0 bytes, then a frame: the client finds the frame, the server
asks for 2^32 - 10 bytes. -/
theorem zero_total_splits_receivers :
    ¬ SameFraming ⟨.little, none, true⟩ { host := .little }
        (List.replicate 10 0 ++ Packet.wire ⟨0x82, 0, 1, [0x61]⟩) ∧
      ((Session.start {}).loop ⟨.little, none, true⟩
        (List.replicate 10 0 ++ Packet.wire ⟨0x82, 0, 1, [0x61]⟩)).1.bodyReads
        = [(0, 4294967286)] ∧
      ((Client.connected { host := .little }).loop { host := .little }
        (List.replicate 10 0 ++ Packet.wire ⟨0x82, 0, 1, [0x61]⟩)).1.rx.handed
        = [⟨0x82, 0, 1, [0x61]⟩] := by
  refine ⟨fun hsame => absurd hsame.1 (by decide), by decide, by decide⟩

end TurboNet
