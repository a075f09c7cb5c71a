import TurboNet.Client.Client

/-!
# What the client's send path delivers

Reference: `turbonet_client.cpp`, `sendPacket`, `doWrite`, `onWrite`.

`onWrite` clears all of `txBuffer_` after a write, also what was appended while it was in flight,
and leaves the buffer as it is after a write that failed. `accounted_iff` and `notWedged_iff` say
exactly which runs are spared: those in which nothing waits behind a write that completes, and
those in which no write fails.
-/

namespace TurboNet

open Common

namespace Sender

/-- What the handler posted by `sendPacket` does to the send path. -/
def runPosted (t : Sender) (pkt : List UInt8) (rest : List (List UInt8)) : Sender :=
  if t.txBuffer = [] then ({ t with posted := rest }.insert pkt).asyncWrite
  else { t with posted := rest }.insert pkt

/-- What a step of the client can do to the send path. -/
inductive Acts (t : Sender) : Client.Event → Sender → Prop where
  | runPosted (pkt : List UInt8) (rest : List (List UInt8)) (hposted : t.posted = pkt :: rest) :
    Acts t .runPosted (t.runPosted pkt rest)
  | writeDone (ec : Bool) (hwriting : t.writing.isSome = true) :
    Acts t (.writeDone ec) (t.onWrite ec)
  | post (e : Client.Event) (pkt : List UInt8) (hpkt : pkt ≠ []) (he : ∀ ec, e ≠ .writeDone ec) :
    Acts t e (t.post pkt)
  | same (e : Client.Event) (he : ∀ ec, e ≠ .writeDone ec) : Acts t e t

end Sender

namespace Client

/-- The handler of `sendPacket` acts on the send path only. -/
theorem runPosted_tx (cfg : ClientConfig) (c : Client) (pkt : List UInt8)
    (rest : List (List UInt8)) : (c.runPosted cfg pkt rest).tx = c.tx.runPosted pkt rest := by
  by_cases hempty : c.tx.txBuffer = []
  · simp [runPosted, Sender.runPosted, hempty, doWrite, startWriteTimer]
  · simp [runPosted, Sender.runPosted, hempty]

/-- `sendRequest` posts a frame with the next sequence number. -/
theorem sendRequest_tx (cfg : ClientConfig) (c : Client) (data : List UInt8) (gap : ℕ) :
    (c.sendRequest cfg data gap).tx =
      c.tx.post (sendPacketFrame cfg.host ⟨0x02, 0x00, c.sequenceCounter, data⟩) := by
  obtain ⟨r, now, heq⟩ := sendRequest_eq cfg c data gap
  rw [heq]
  rfl

/-- So does its first half. -/
theorem startRequest_tx (cfg : ClientConfig) (c : Client) (data : List UInt8) :
    (c.startRequest cfg data).tx =
      c.tx.post (sendPacketFrame cfg.host ⟨0x02, 0x00, c.sequenceCounter, data⟩) := by
  obtain ⟨r, heq⟩ := startRequest_eq cfg c data
  rw [heq]
  rfl

/-- Connecting may post the bind request. -/
theorem onConnect_tx (cfg : ClientConfig) (c : Client) (ec : Bool) :
    (c.onConnect cfg ec).tx = c.tx ∨
      ∃ p, (c.onConnect cfg ec).tx = c.tx.post (sendPacketFrame cfg.host p) := by
  cases ec with
  | true => exact .inl rfl
  | false =>
    cases hid : cfg.clientId.isEmpty with
    | true =>
      refine .inl ?_
      simp only [onConnect, hid]
      rfl
    | false =>
      refine .inr ⟨⟨0x01, 0x00, c.sequenceCounter, cfg.clientId⟩, ?_⟩
      simp only [onConnect, hid]
      rfl

/-- Every step of the client acts on the send path in one of four ways. -/
theorem step_tx {cfg : ClientConfig} {c c' : Client} {e : Event} (h : step cfg c e = some c') :
    c.tx.Acts e c'.tx := by
  -- a packet that is sent is posted, and written by a handler of its own
  have hpost (e : Event) (he : ∀ ec, e ≠ .writeDone ec) (p : Packet) :
      c.tx.Acts e (c.tx.post (sendPacketFrame cfg.host p)) :=
    .post e _ (sendPacketFrame_ne_nil cfg.host p) he
  cases acts_of_step h with
  | sendPacket p => exact hpost _ (by simp) p
  | sendRequest data gap =>
    rw [sendRequest_tx]
    exact hpost _ (by simp) _
  | startRequest data =>
    rw [startRequest_tx]
    exact hpost _ (by simp) _
  | close => exact .same _ (by simp)
  | connectDone ec =>
    rcases onConnect_tx cfg c ec with hsame | ⟨p, hp⟩
    · exact hsame ▸ .same _ (by simp)
    · exact hp ▸ hpost _ (by simp) p
  | runPosted pkt rest hposted =>
    rw [runPosted_tx]
    exact .runPosted pkt rest hposted
  | writeDone ec hwriting => exact .writeDone ec hwriting
  | sweepFire t hdue =>
    rw [sweepFire_eq]
    exact .same _ (by simp)
  | sweepAborted t haborted => exact .same _ (by simp)
  | sweepExpire t hexpire => exact .same _ (by simp)
  | armStarted q hq => exact .same _ (by simp)
  | sweepNext now hsweeping | sweepRearm now hsweeping => exact .same _ (by simp)
  | tick d => exact .same _ (by simp)
  | other e c' hquiet hsame =>
    rw [hsame.tx]
    refine .same e ?_
    rintro ec rfl
    exact absurd hquiet (by simp [Event.quiet])

end Client

namespace Sender

/-- Written, in flight and waiting bytes make up the appended frames, which are the posted ones in
the order of posting; with no write in flight they have all been written. -/
def Accounted (t : Sender) : Prop :=
  t.written ++ (t.inFlight ++ t.waiting) = t.appended.flatten ∧
    t.appended ++ t.posted = t.sendCalls ∧
    (t.writing = none → t.written = t.appended.flatten)

/-- The shape of the send path in every run: the write in flight is at the front of the buffer. -/
structure Shaped (t : Sender) : Prop where
  busy : ∀ w, t.writing = some w → w ≠ [] ∧ w <+: t.txBuffer
  posted_ne_nil : ∀ pkt ∈ t.posted, pkt ≠ []

/-- The shape as long as no write fails: without a write in flight the buffer is empty. -/
structure InStep (t : Sender) : Prop extends Shaped t where
  idle : t.writing = none → t.txBuffer = []

/-- Nothing is written at the start. -/
theorem InStep.init : InStep {} := ⟨⟨by simp, by simp⟩, fun _ => rfl⟩

/-- The buffer holds what is in flight. -/
theorem Shaped.txBuffer_ne_nil {t : Sender} (h : t.Shaped) (hw : t.writing.isSome = true) :
    t.txBuffer ≠ [] := by
  obtain ⟨w, hw⟩ := Option.isSome_iff_exists.mp hw
  obtain ⟨hne, hpre⟩ := h.busy w hw
  intro hempty
  rw [hempty] at hpre
  exact hne (List.prefix_nil.mp hpre)

/-- Every act keeps the shape. -/
theorem Shaped.acts {t t' : Sender} {e : Client.Event} (h : t.Shaped) (ha : t.Acts e t') :
    t'.Shaped := by
  cases ha with
  | runPosted pkt rest hposted =>
    have hpkt : pkt ≠ [] := h.posted_ne_nil pkt (by simp [hposted])
    have hrest : ∀ p ∈ rest, p ≠ [] := fun p hp => h.posted_ne_nil p (by simp [hposted, hp])
    rw [runPosted]
    split
    · rename_i hempty
      exact ⟨by simp [asyncWrite, insert, hempty, hpkt], hrest⟩
    · refine ⟨fun w hw => ?_, hrest⟩
      obtain ⟨hne, hpre⟩ := h.busy w hw
      exact ⟨hne, hpre.trans (List.prefix_append _ _)⟩
  | writeDone ec hwriting => cases ec <;> exact ⟨by simp [onWrite], h.posted_ne_nil⟩
  | post e pkt hpkt =>
    refine ⟨h.busy, fun p hp => ?_⟩
    rcases List.mem_append.mp hp with hp | hp
    · exact h.posted_ne_nil p hp
    · exact List.mem_singleton.mp hp ▸ hpkt
  | same => exact h

/-- Every act but a failed write keeps the buffer empty without a write. -/
theorem InStep.acts {t t' : Sender} {e : Client.Event} (h : t.InStep) (he : e ≠ .writeDone true)
    (ha : t.Acts e t') : t'.InStep := by
  refine ⟨h.toShaped.acts ha, ?_⟩
  cases ha with
  | runPosted pkt rest hposted =>
    rw [runPosted]
    split
    · simp [asyncWrite]
    · rename_i hne
      exact fun hw => absurd (h.idle hw) hne
  | writeDone ec hwriting =>
    cases ec with
    | true => exact absurd rfl he
    | false => exact fun _ => rfl
  | post => exact h.idle
  | same => exact h.idle

/-- A step keeps the account exactly when it is not a completion with something waiting. -/
theorem accounted_step {t t' : Sender} {e : Client.Event} (h : t.InStep) (hacc : t.Accounted)
    (he : e ≠ .writeDone true) (ha : t.Acts e t') :
    t'.Accounted ↔ (e = .writeDone false → t.waiting = []) := by
  obtain ⟨hbytes, horder, hidle⟩ := hacc
  cases ha with
  | runPosted pkt rest hposted =>
    refine iff_of_true ?_ (by simp)
    have horder' : (t.appended ++ [pkt]) ++ rest = t.sendCalls := by
      rw [← horder, hposted, List.append_assoc]
      rfl
    rw [runPosted]
    split
    · -- the buffer was empty: the frame is written at once
      rename_i hempty
      have hnone : t.writing = none := by
        by_contra hw
        exact h.txBuffer_ne_nil (Option.isSome_iff_ne_none.mpr hw) hempty
      refine ⟨?_, horder', by simp [asyncWrite]⟩
      simp [asyncWrite, insert, inFlight, waiting, hempty, hidle hnone]
    · -- a write is in flight: the frame waits behind it
      rename_i hne
      cases hw : t.writing with
      | none => exact absurd (h.idle hw) hne
      | some w =>
        obtain ⟨-, hpre⟩ := h.busy w hw
        refine ⟨?_, horder', by simp [insert]⟩
        have hdrop : (t.txBuffer ++ pkt).drop w.length = t.txBuffer.drop w.length ++ pkt :=
          List.drop_append_of_le_length hpre.length_le
        simp only [inFlight, waiting, hw, Option.getD_some] at hbytes
        simp only [insert, inFlight, waiting, Option.getD_some, hdrop, List.flatten_append,
          List.flatten_cons, List.flatten_nil, List.append_nil, ← hbytes, List.append_assoc]
  | writeDone ec hwriting =>
    cases ec with
    | true => exact absurd rfl he
    | false =>
      have hflat : t.appended.flatten = t.written ++ t.inFlight ++ t.waiting := by
        rw [← hbytes, List.append_assoc]
      have hall : (t.onWrite false).Accounted ↔ t.written ++ t.inFlight = t.appended.flatten := by
        simp [Accounted, onWrite, inFlight, waiting, horder]
      rw [hall, hflat]
      simp
  | post e pkt hpkt he' =>
    refine iff_of_true ⟨hbytes, ?_, hidle⟩ (fun h => absurd h (he' false))
    simp only [post, ← horder, List.append_assoc]
  | same e he' => exact iff_of_true ⟨hbytes, horder, hidle⟩ (fun h => absurd h (he' false))

end Sender

namespace Client

/-- **Nothing is lost on the send path.** In a run without failed writes, the bytes that have been
written, are in flight and wait are those of the appended frames in order, in every state, exactly
when nothing waits behind any write that completes. -/
theorem accounted_iff (cfg : ClientConfig) (es : List Event) (c : Client)
    (hrun : run (step cfg) {} es = some c) (hok : Event.writeDone true ∉ es) :
    EveryState (step cfg) {} es (fun c => c.tx.Accounted) ↔
      EveryStep (step cfg) {} es fun c e => e = .writeDone false → c.tx.waiting = [] := by
  have hne {e : Event} (he : e ∈ es) : e ≠ .writeDone true := fun h => hok (h ▸ he)
  refine everyState_iff_everyStep (I := fun c => c.tx.InStep) ?_ Sender.InStep.init
    (fun t e t' he _ hI ht => hI.acts (hne he) (step_tx ht))
    (fun t e t' he _ hI hP ht => Sender.accounted_step hI hP (hne he) (step_tx ht)) hrun
  exact ⟨rfl, rfl, fun _ => rfl⟩

/-- Two packets, the second sent when the first has been written. -/
theorem accounted_iff_one_at_a_time :
    EveryState (step { host := .little }) {}
      [.connect 0, .connectDone false, .sendPacket ⟨0x02, 0, 1, [0x61]⟩, .runPosted,
        .writeDone false, .sendPacket ⟨0x02, 0, 2, [0x62]⟩, .runPosted, .writeDone false]
      (fun c => c.tx.Accounted) := by
  refine (accounted_iff _ _ _ rfl ?_).mpr ?_
  · decide
  · decide

/-- The handler of a second packet runs while the first is being written: when that write has
completed, nothing is in flight or waiting and the second packet has not been written. -/
theorem appended_while_writing_is_lost :
    ∃ c, run (step { host := .little }) {}
        [.connect 0, .connectDone false, .sendPacket ⟨0x02, 0, 1, [0x61]⟩,
          .sendPacket ⟨0x02, 0, 2, [0x62]⟩, .runPosted, .runPosted, .writeDone false] = some c ∧
      ¬ c.tx.Accounted ∧ c.tx.writing = none ∧ c.tx.txBuffer = [] ∧
      c.tx.written = Packet.wire ⟨0x02, 0, 1, [0x61]⟩ ∧
      c.tx.appended = [Packet.wire ⟨0x02, 0, 1, [0x61]⟩, Packet.wire ⟨0x02, 0, 2, [0x62]⟩] := by
  refine ⟨_, rfl, fun hacc => ?_, rfl, rfl, by decide, by decide⟩
  exact absurd (hacc.2.2 rfl) (by decide)

/-! ## The writer after a failure -/

/-- The buffer tells whether a write is in flight, and with none in flight the next packet starts
one. -/
def NotWedged (cfg : ClientConfig) (c : Client) : Prop :=
  (c.tx.txBuffer ≠ [] ↔ c.tx.writing.isSome = true) ∧
    (c.tx.writing = none → ∀ c', step cfg c .runPosted = some c' → c'.tx.writing.isSome = true)

/-- A send path in step takes the next packet up. -/
theorem notWedged_of_inStep (cfg : ClientConfig) {c : Client} (h : c.tx.InStep) :
    NotWedged cfg c := by
  constructor
  · refine ⟨fun hne => ?_, h.txBuffer_ne_nil⟩
    rw [Option.isSome_iff_ne_none]
    exact fun hw => hne (h.idle hw)
  · intro hw c' hstep
    cases acts_of_step hstep with
    | runPosted pkt rest hposted =>
      rw [runPosted_tx, Sender.runPosted, if_pos (h.idle hw)]
      rfl
    | other _ _ hquiet => exact absurd hquiet (by simp [Event.quiet])

/-- A step leaves the writer usable exactly when it is not a failed write. -/
theorem notWedged_step {cfg : ClientConfig} {c c' : Client} {e : Event} (h : c.tx.Shaped)
    (hP : NotWedged cfg c) (hstep : step cfg c e = some c') :
    NotWedged cfg c' ↔ e ≠ .writeDone true := by
  constructor
  · rintro hP' rfl
    cases acts_of_step hstep with
    | writeDone _ hwriting =>
      -- the buffer keeps the bytes of the write that is over
      exact absurd (hP'.1.mp (h.txBuffer_ne_nil hwriting)) (by simp [onWrite, Sender.onWrite])
    | other _ _ hquiet => exact absurd hquiet (by simp [Event.quiet])
  · intro he
    have hidle : c.tx.writing = none → c.tx.txBuffer = [] := fun hw => by
      by_contra hne
      exact absurd (hP.1.mp hne) (by simp [hw])
    exact notWedged_of_inStep cfg (Sender.InStep.acts ⟨h, hidle⟩ he (step_tx hstep))

/-- **The writer is never wedged** exactly in the runs in which no write fails. -/
theorem notWedged_iff (cfg : ClientConfig) (es : List Event) (c : Client)
    (hrun : run (step cfg) {} es = some c) :
    EveryState (step cfg) {} es (NotWedged cfg) ↔ Event.writeDone true ∉ es := by
  rw [everyState_iff_everyStep (I := fun c => c.tx.Shaped) (C := fun _ e => e ≠ .writeDone true)
    (notWedged_of_inStep cfg Sender.InStep.init) Sender.InStep.init.toShaped
    (fun t e t' _ _ hI ht => hI.acts (step_tx ht))
    (fun t e t' _ _ hI hP ht => notWedged_step hI hP ht) hrun, everyStep_iff_forall_mem hrun]
  exact ⟨fun h hmem => h _ hmem rfl, fun h e he heq => h (heq ▸ he)⟩

/-- Two packets sent after the connection has been made, the second while the first is being
written. -/
theorem notWedged_iff_connected :
    EveryState (step { host := .little }) {}
      [.connect 0, .connectDone false, .sendPacket ⟨0x02, 0, 1, [0x61]⟩, .runPosted,
        .sendPacket ⟨0x02, 0, 2, [0x62]⟩, .runPosted, .writeDone false]
      (NotWedged { host := .little }) := by
  refine (notWedged_iff _ _ _ rfl).mpr ?_
  decide

/-- A packet sent before the connection is there fails; when the connection is there the next packet
does not start a write. -/
theorem wedged_after_failed_write :
    ∃ c, run (step { host := .little }) {}
        [.sendPacket ⟨0x02, 0, 1, [0x61]⟩, .runPosted, .writeDone true, .connect 0,
          .connectDone false, .sendPacket ⟨0x02, 0, 2, [0x62]⟩, .runPosted] = some c ∧
      ¬ NotWedged { host := .little } c ∧ c.tx.writing = none := by
  refine ⟨_, rfl, fun h => ?_, rfl⟩
  exact absurd (h.1.mp (by decide)) (by decide)

end Client

end TurboNet
