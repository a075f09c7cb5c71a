import TurboNet.Common.TimedOp
import TurboNet.Client.SendPath

/-!
# The lifecycle of a connection

Reference: `turbonet_client.cpp`, the connect, read and write timers, `close`, the destructor.

A connect, the read of a packet and a write each run under a timer, and the handler of the timer
closes the socket. Cancelling a timer does not revoke a handler whose wait has expired, and the
handler does not look whether its operation is still in progress: `queuedTimeoutsCurrent_iff` says
in which runs that does no harm. `close` calls `onClose_` each time it is called, and the destructor
calls it: `announcesOnce_iff`.
-/

namespace TurboNet

open Common

namespace Client

/-! ## The three operations -/

def connectOp (c : Client) : TimedOp := ⟨c.connectTimer, true, c.connecting, c.connects⟩

/-- The read of a packet, header and body. -/
def readOp (cfg : ClientConfig) (c : Client) : TimedOp :=
  ⟨c.readTimer, decide (0 < cfg.readTimeoutMs), c.rx.reading.isSome, c.reads⟩

def writeOp (cfg : ClientConfig) (c : Client) : TimedOp :=
  ⟨c.writeTimer, decide (0 < cfg.writeTimeoutMs), c.tx.writing.isSome, c.writes⟩

/-- The event completes the connect in progress. -/
def Event.completesConnect : Event → Bool
  | .connectDone _ => true
  | _ => false

/-- The event completes the packet read in progress: the body has been read, a read fails, or the
header is dropped because its length is too small. -/
def completesRead (cfg : ClientConfig) (c : Client) : Event → Bool
  | .readDone bs => c.rx.reading != some .header || (fromBigEndian cfg.host bs 0).toNat < 10
  | .readFail => true
  | _ => false

/-- The event completes the write in progress. -/
def Event.completesWrite : Event → Bool
  | .writeDone _ => true
  | _ => false

/-- To start a timer takes nothing away from the handlers that are due. -/
@[simp] theorem startTimer_due (timer : Timer ℕ) (timeoutMs : ℤ) (now label : ℕ) :
    (startTimer timer timeoutMs now label).due = timer.due := by
  rw [startTimer]
  split <;> rfl

/-- A wait that is pending was started now, or was pending before a timer without a timeout. -/
theorem startTimer_wait {timer : Timer ℕ} {timeoutMs : ℤ} {now label d n : ℕ}
    (h : (startTimer timer timeoutMs now label).wait = some (d, n)) :
    decide (0 < timeoutMs) = false ∧ timer.wait = some (d, n) ∨
      decide (0 < timeoutMs) = true ∧ n = label := by
  rw [startTimer] at h
  split at h
  · rename_i hoff
    exact .inl ⟨decide_eq_false (by omega), h⟩
  · rename_i hon
    rw [Timer.arm_wait, Option.some.injEq, Prod.mk.injEq] at h
    exact .inr ⟨decide_eq_true (by omega), h.2.symm⟩

/-- What a step does to the three operations. -/
structure OpActs (cfg : ClientConfig) (c : Client) (e : Event) (c' : Client) : Prop where
  connect : c.connectOp.Acts e.completesConnect c'.connectOp
  read : (c.readOp cfg).Acts (c.completesRead cfg e) (c'.readOp cfg)
  write : (c.writeOp cfg).Acts e.completesWrite (c'.writeOp cfg)

/-- `startTimer` for the next packet read. -/
theorem doReadHeader_wait {cfg : ClientConfig} {c : Client} {d n : ℕ}
    (h : ((c.doReadHeader cfg).readOp cfg).timer.wait = some (d, n)) :
    (c.readOp cfg).enabled = false ∧ c.readTimer.wait = some (d, n) ∨
      (c.readOp cfg).enabled = true ∧ ((c.doReadHeader cfg).readOp cfg).InProgress n := by
  rcases startTimer_wait h with hold | ⟨hon, hn⟩
  · exact .inl hold
  · exact .inr ⟨hon, rfl, hn⟩

/-- The handler of a connect ends the connect and cancels its timer. -/
theorem onConnect_connectOp (cfg : ClientConfig) (c : Client) (ec : Bool) :
    (c.onConnect cfg ec).connectOp = ⟨c.connectTimer.cancel, true, false, c.connects⟩ := by
  cases ec with
  | true => rfl
  | false =>
    simp only [onConnect, Bool.false_eq_true, ↓reduceIte]
    split <;> rfl

/-- Without an error the first read begins. -/
theorem onConnect_readOp (cfg : ClientConfig) (c : Client) (ec : Bool) :
    (c.onConnect cfg ec).readOp cfg =
      if ec then c.readOp cfg else (c.doReadHeader cfg).readOp cfg := by
  cases ec with
  | true => rfl
  | false =>
    simp only [onConnect, Bool.false_eq_true, ↓reduceIte]
    split <;> rfl

/-- The handler of a connect leaves the write alone. -/
theorem onConnect_writeOp (cfg : ClientConfig) (c : Client) (ec : Bool) :
    (c.onConnect cfg ec).writeOp cfg = c.writeOp cfg := by
  cases ec with
  | true => rfl
  | false =>
    simp only [onConnect, Bool.false_eq_true, ↓reduceIte]
    split <;> rfl

/-- The handler of the connect. -/
theorem onConnect_acts (cfg : ClientConfig) {c : Client} (ec : Bool)
    (hreading : c.rx.reading = none) : OpActs cfg c (.connectDone ec) (c.onConnect cfg ec) where
  connect := by
    rw [onConnect_connectOp]
    exact .complete _ rfl (.inl rfl) rfl fun d n hw => absurd hw (by simp [Timer.cancel])
  read := by
    rw [onConnect_readOp]
    split
    · exact .of_eq rfl
    · refine .start _ rfl (by simp [readOp, hreading]) (startTimer_due _ _ _ _) fun d n hw => ?_
      exact (doReadHeader_wait hw).imp_left And.right
  write := .of_eq (onConnect_writeOp cfg c ec)

/-- The handler of the header: the read of the packet goes on, or the header is dropped and the
next packet read starts. -/
theorem onReadHeader_acts (cfg : ClientConfig) {c : Client} (bs : List UInt8)
    (hreading : c.rx.reading = some .header) :
    OpActs cfg c (.readDone bs) (c.readDone cfg .header bs) := by
  have hcompletes : c.completesRead cfg (.readDone bs) =
      decide ((fromBigEndian cfg.host bs 0).toNat < 10) := by
    simp [completesRead, hreading]
  rw [readDone, onReadHeader, if_neg Bool.false_ne_true]
  dsimp only
  split
  · rename_i hlong
    refine ⟨.of_eq rfl, ?_, .of_eq rfl⟩
    -- the wait that was armed for the header goes on for the body
    rw [hcompletes, decide_eq_false (by omega)]
    exact .of_eq (by simp [readOp, doReadBody, hreading])
  · rename_i hshort
    refine ⟨.of_eq rfl, ?_, .of_eq rfl⟩
    rw [hcompletes, decide_eq_true (by omega)]
    refine .complete _ rfl (.inr (Nat.lt_succ_self _)) (startTimer_due _ _ _ _) fun d n hw => ?_
    exact doReadHeader_wait hw

/-- A packet read is over and its timer cancelled. -/
def readOver (cfg : ClientConfig) (c : Client) : TimedOp :=
  { c.readOp cfg with timer := c.readTimer.cancel, active := false }

/-- A packet read ends, and its timer is cancelled. -/
theorem readOver_acts (cfg : ClientConfig) (c : Client) :
    (c.readOp cfg).Acts true (c.readOver cfg) :=
  .complete _ rfl (.inl rfl) rfl fun d n hw => absurd hw (by simp [readOver, Timer.cancel])

/-- A packet read is over, and the next one starts if the client runs. -/
theorem nextRead_acts {cfg : ClientConfig} {c d : Client} {e : Event}
    (he : e.completesConnect = false ∧ c.completesRead cfg e = true ∧ e.completesWrite = false)
    (hconnect : d.connectOp = c.connectOp) (hread : d.readOp cfg = c.readOver cfg)
    (hwrite : d.writeOp cfg = c.writeOp cfg) :
    OpActs cfg c e (if d.running then d.doReadHeader cfg else d) := by
  have htimer : d.readTimer = c.readTimer.cancel := congrArg TimedOp.timer hread
  have hreads : d.reads = c.reads := congrArg TimedOp.started hread
  obtain ⟨hc, hr, hw⟩ := he
  split
  -- the timer may be armed again at once, for the read that starts
  · refine ⟨hc ▸ .of_eq hconnect, hr ▸ .complete _ rfl (.inr ?_) ?_ fun k n hwait => ?_,
      hw ▸ .of_eq hwrite⟩
    · show c.reads < d.reads + 1
      omega
    · refine (startTimer_due _ _ _ _).trans ?_
      rw [htimer]
      rfl
    · refine (doReadHeader_wait hwait).imp_left fun ⟨_, hold⟩ => ?_
      rw [htimer] at hold
      exact absurd hold (by simp [Timer.cancel])
  · exact ⟨hc ▸ .of_eq hconnect, hr ▸ hread ▸ readOver_acts cfg c, hw ▸ .of_eq hwrite⟩

/-- The handler of a body ends the packet read, and begins the next one if there was no error. -/
theorem onReadBody_acts (cfg : ClientConfig) {c : Client} {e : Event} {rx : Receiver} (ec : Bool)
    (he : e.completesConnect = false ∧ c.completesRead cfg e = true ∧ e.completesWrite = false)
    (hnone : rx.reading = none) : OpActs cfg c e ({ c with rx := rx }.onReadBody cfg ec) := by
  cases ec with
  | true =>
    refine nextRead_acts he rfl ?_ rfl
    simp [readOp, readOver, cancelReadTimer, hnone]
  | false =>
    refine nextRead_acts he rfl ?_ rfl
    simp [readOp, readOver, cancelReadTimer, deliver, call, hnone]

/-- A header leads to the body or to the next packet read, and a body to the next one. -/
theorem readDone_acts (cfg : ClientConfig) {c : Client} {op : ReadOp} (bs : List UInt8)
    (hreading : c.rx.reading = some op) : OpActs cfg c (.readDone bs) (c.readDone cfg op bs) := by
  cases op with
  | header => exact onReadHeader_acts cfg bs hreading
  | body n => exact onReadBody_acts cfg false ⟨rfl, by simp [completesRead, hreading], rfl⟩ rfl

/-- A read that fails ends the packet read. -/
theorem readFail_acts (cfg : ClientConfig) (c : Client) (op : ReadOp) :
    OpActs cfg c .readFail (c.readFail cfg op) := by
  cases op with
  | header => exact ⟨.of_eq rfl, readOver_acts cfg c, .of_eq rfl⟩
  | body n => exact onReadBody_acts cfg true ⟨rfl, rfl, rfl⟩ rfl

/-- The handler posted by `sendPacket` starts a write only if none is in progress. -/
theorem runPosted_acts (cfg : ClientConfig) {c : Client} (pkt : List UInt8)
    (rest : List (List UInt8)) (htx : c.tx.Shaped) :
    OpActs cfg c .runPosted (c.runPosted cfg pkt rest) := by
  simp only [runPosted]
  split
  · exact ⟨.of_eq rfl, .of_eq rfl, .of_eq rfl⟩
  · rename_i hempty
    have hidle : c.tx.writing.isSome = false := by
      by_contra hbusy
      exact htx.txBuffer_ne_nil (by simpa only [Bool.not_eq_false] using hbusy)
        (by simpa using hempty)
    refine ⟨.of_eq rfl, .of_eq rfl, .start _ rfl hidle (startTimer_due _ _ _ _) fun d n hw => ?_⟩
    rcases startTimer_wait hw with ⟨-, hold⟩ | ⟨hon, hn⟩
    · exact .inl hold
    · exact .inr ⟨hon, rfl, hn⟩

/-- The handler of an expired wait takes nothing but this wait. -/
theorem timerDue_acts {cfg : ClientConfig} {c c' : Client} {t : TimerId}
    (h : c.timerDue cfg t = some c') : OpActs cfg c (.timerDue t) c' := by
  cases t with
  | connect =>
    obtain ⟨⟨n, t⟩, ht, rfl⟩ := Option.map_eq_some_iff.mp h
    exact ⟨.takeDue ht, .of_eq rfl, .of_eq rfl⟩
  | read =>
    obtain ⟨⟨n, t⟩, ht, rfl⟩ := Option.map_eq_some_iff.mp h
    exact ⟨.of_eq rfl, .takeDue ht, .of_eq rfl⟩
  | write =>
    obtain ⟨⟨n, t⟩, ht, rfl⟩ := Option.map_eq_some_iff.mp h
    exact ⟨.of_eq rfl, .of_eq rfl, .takeDue ht⟩
  | response =>
    obtain ⟨⟨_, t⟩, -, rfl⟩ := Option.map_eq_some_iff.mp h
    dsimp only
    rw [sweepFire_eq]
    exact ⟨.of_eq rfl, .of_eq rfl, .of_eq rfl⟩

/-- The handler of an aborted wait takes nothing but this wait. -/
theorem timerAborted_acts {cfg : ClientConfig} {c c' : Client} {t : TimerId}
    (h : c.timerAborted t = some c') : OpActs cfg c (.timerAborted t) c' := by
  cases t with
  | connect =>
    obtain ⟨⟨n, t⟩, ht, rfl⟩ := Option.map_eq_some_iff.mp h
    exact ⟨.takeAborted ht, .of_eq rfl, .of_eq rfl⟩
  | read =>
    obtain ⟨⟨n, t⟩, ht, rfl⟩ := Option.map_eq_some_iff.mp h
    exact ⟨.of_eq rfl, .takeAborted ht, .of_eq rfl⟩
  | write =>
    obtain ⟨⟨n, t⟩, ht, rfl⟩ := Option.map_eq_some_iff.mp h
    exact ⟨.of_eq rfl, .of_eq rfl, .takeAborted ht⟩
  | response =>
    obtain ⟨⟨_, t⟩, -, rfl⟩ := Option.map_eq_some_iff.mp h
    exact ⟨.of_eq rfl, .of_eq rfl, .of_eq rfl⟩

/-- A wait expires. -/
theorem expire_acts {cfg : ClientConfig} {c c' : Client} {t : TimerId}
    (h : c.expire t = some c') : OpActs cfg c (.expire t) c' := by
  cases t with
  | connect =>
    obtain ⟨t, ht, rfl⟩ := Option.map_eq_some_iff.mp h
    exact ⟨.expire ht, .of_eq rfl, .of_eq rfl⟩
  | read =>
    obtain ⟨t, ht, rfl⟩ := Option.map_eq_some_iff.mp h
    exact ⟨.of_eq rfl, .expire ht, .of_eq rfl⟩
  | write =>
    obtain ⟨t, ht, rfl⟩ := Option.map_eq_some_iff.mp h
    exact ⟨.of_eq rfl, .of_eq rfl, .expire ht⟩
  | response =>
    obtain ⟨t, -, rfl⟩ := Option.map_eq_some_iff.mp h
    exact ⟨.of_eq rfl, .of_eq rfl, .of_eq rfl⟩

/-- What a step does to connect, read and write. -/
theorem opActs_of_step {cfg : ClientConfig} {c c' : Client} {e : Event} (htx : c.tx.Shaped)
    (hfree : c.connecting = true → c.rx.reading = none) (h : step cfg c e = some c') :
    OpActs cfg c e c' := by
  cases transition_of_step h with
  | connect timeoutMs hidle hreading =>
    refine ⟨.start _ rfl hidle (startTimer_due _ _ _ _) fun d n hw => ?_, .of_eq rfl, .of_eq rfl⟩
    rcases startTimer_wait hw with ⟨-, hold⟩ | ⟨-, hnew⟩
    · exact .inl hold
    · exact .inr ⟨rfl, rfl, hnew⟩
  | sendPacket p => exact ⟨.of_eq rfl, .of_eq rfl, .of_eq rfl⟩
  | sendRequest data gap =>
    obtain ⟨r, now, heq⟩ := sendRequest_eq cfg c data gap
    rw [heq]
    exact ⟨.of_eq rfl, .of_eq rfl, .of_eq rfl⟩
  | startRequest data =>
    obtain ⟨r, heq⟩ := startRequest_eq cfg c data
    rw [heq]
    exact ⟨.of_eq rfl, .of_eq rfl, .of_eq rfl⟩
  | close => exact ⟨.cancel _, .cancel _, .cancel _⟩
  | connectDone ec hconnecting => exact onConnect_acts cfg ec (hfree hconnecting)
  | runPosted pkt rest hposted => exact runPosted_acts cfg pkt rest htx
  -- a read that completes can begin the next one, so its timer may be set again
  | readDone op bs hreading hlength => exact readDone_acts cfg bs hreading
  | readFail op hreading => exact readFail_acts cfg c op
  | writeDone ec hwriting =>
    refine ⟨.of_eq rfl, .of_eq rfl, .complete _ rfl (.inl ?_) rfl fun d n hw => ?_⟩
    · cases ec <;> rfl
    · exact absurd hw (by simp [writeOp, onWrite, cancelWriteTimer, Timer.cancel])
  | timerDue t c' hdue => exact timerDue_acts hdue
  | timerAborted t c' haborted => exact timerAborted_acts haborted
  | armStarted q hq => exact ⟨.of_eq rfl, .of_eq rfl, .of_eq rfl⟩
  | sweepNext now hsweeping | sweepRearm now hsweeping => exact ⟨.of_eq rfl, .of_eq rfl, .of_eq rfl⟩
  | tick d => exact ⟨.of_eq rfl, .of_eq rfl, .of_eq rfl⟩
  | expire t c' hexpire => exact expire_acts hexpire

/-! ## Timeouts that come too late -/

/-- Every expired wait whose handler is still to be run was armed for an operation that is in
progress. -/
structure QueuedTimeoutsCurrent (cfg : ClientConfig) (c : Client) : Prop where
  connect : c.connectOp.Current
  read : (c.readOp cfg).Current
  write : (c.writeOp cfg).Current

/-- If the event runs `onConnectTimeout`, `onReadTimeout` or `onWriteTimeout` without an error,
which closes the socket, the operation the wait was armed for is in progress. -/
def TimeoutHitsCurrent (cfg : ClientConfig) (c : Client) : Event → Prop
  | .timerDue .connect => ∀ n ∈ c.connectTimer.due.head?, c.connectOp.InProgress n
  | .timerDue .read => ∀ n ∈ c.readTimer.due.head?, (c.readOp cfg).InProgress n
  | .timerDue .write => ∀ n ∈ c.writeTimer.due.head?, (c.writeOp cfg).InProgress n
  | _ => True

/-- The event completes no operation whose wait has expired with the handler still to be run. -/
def CompletesInTime (cfg : ClientConfig) (c : Client) (e : Event) : Prop :=
  (e.completesConnect = true → c.connectTimer.due = []) ∧
    (c.completesRead cfg e = true → c.readTimer.due = []) ∧
    (e.completesWrite = true → c.writeTimer.due = [])

instance (cfg : ClientConfig) (c : Client) (e : Event) : Decidable (CompletesInTime cfg c e) :=
  inferInstanceAs (Decidable (_ ∧ _ ∧ _))

/-- What the timers rest on. -/
structure Guarded (cfg : ClientConfig) (c : Client) : Prop where
  connect : c.connectOp.Armed
  read : (c.readOp cfg).Armed
  write : (c.writeOp cfg).Armed
  tx : c.tx.Shaped
  free : c.connecting = true → c.rx.reading = none

/-- A client that is just constructed has nothing in progress. -/
theorem Guarded.init (cfg : ClientConfig) : Guarded cfg {} where
  connect := by simp [TimedOp.Armed, connectOp]
  read := by simp [TimedOp.Armed, readOp]
  write := by simp [TimedOp.Armed, writeOp]
  tx := Sender.InStep.init.toShaped
  free := fun _ => rfl

/-- A read that fails has nothing to do with a connect. -/
theorem readFail_connecting (cfg : ClientConfig) (c : Client) (op : ReadOp) :
    (c.readFail cfg op).connecting = c.connecting := by
  cases op with
  | header => rfl
  | body n =>
    simp only [readFail, onReadBody, ↓reduceIte]
    split <;> rfl

/-- While a connect is in progress nothing is read. -/
theorem reading_eq_none_of_step {cfg : ClientConfig} {c c' : Client} {e : Event}
    (h : c.connecting = true → c.rx.reading = none) (hstep : step cfg c e = some c') :
    c'.connecting = true → c'.rx.reading = none := by
  cases transition_of_step hstep with
  | connect timeoutMs hidle hreading => exact fun _ => hreading
  | sendRequest data gap =>
    obtain ⟨r, now, heq⟩ := sendRequest_eq cfg c data gap
    rw [heq]
    exact h
  | startRequest data =>
    obtain ⟨r, heq⟩ := startRequest_eq cfg c data
    rw [heq]
    exact h
  | connectDone ec hconnecting =>
    -- the attempt is over, whatever comes of it
    have hover : (c.onConnect cfg ec).connecting = false :=
      congrArg TimedOp.active (onConnect_connectOp cfg c ec)
    exact fun hc => absurd hc (by simp [hover])
  | runPosted pkt rest hposted =>
    simp only [runPosted]
    split <;> exact h
  | readDone op bs hreading hlength =>
    rw [(readDone_flags ..).2]
    exact fun hc => absurd (h hc) (by simp [hreading])
  | readFail op hreading =>
    rw [readFail_connecting]
    exact fun hc => absurd (h hc) (by simp [hreading])
  | timerDue t c' hdue =>
    cases t with
    | response =>
      obtain ⟨⟨_, t⟩, -, rfl⟩ := Option.map_eq_some_iff.mp hdue
      dsimp only
      rw [sweepFire_eq]
      exact h
    | _ =>
      obtain ⟨⟨_, t⟩, -, rfl⟩ := Option.map_eq_some_iff.mp hdue
      exact h
  | timerAborted t c' haborted =>
    cases t <;> obtain ⟨⟨_, t⟩, -, rfl⟩ := Option.map_eq_some_iff.mp haborted <;> exact h
  | expire t c' hexpire =>
    cases t <;> obtain ⟨t, -, rfl⟩ := Option.map_eq_some_iff.mp hexpire <;> exact h
  | _ => exact h

/-- Every step keeps what the timers rest on. -/
theorem Guarded.step {cfg : ClientConfig} {c c' : Client} {e : Event} (h : Guarded cfg c)
    (hstep : step cfg c e = some c') : Guarded cfg c' := by
  have hacts := opActs_of_step h.tx h.free hstep
  exact ⟨h.connect.acts hacts.connect, h.read.acts hacts.read, h.write.acts hacts.write,
    h.tx.acts (step_tx hstep), reading_eq_none_of_step h.free hstep⟩

/-- The waits that are due go on being current exactly when the step completes no operation whose
wait is due. -/
theorem queuedTimeoutsCurrent_step {cfg : ClientConfig} {c c' : Client} {e : Event}
    (h : Guarded cfg c) (hP : QueuedTimeoutsCurrent cfg c) (hstep : step cfg c e = some c') :
    QueuedTimeoutsCurrent cfg c' ↔ CompletesInTime cfg c e := by
  have hacts := opActs_of_step h.tx h.free hstep
  have hconnect := TimedOp.current_acts h.connect hP.connect hacts.connect
  have hread := TimedOp.current_acts h.read hP.read hacts.read
  have hwrite := TimedOp.current_acts h.write hP.write hacts.write
  constructor
  · intro hP'
    exact ⟨hconnect.mp hP'.connect, hread.mp hP'.read, hwrite.mp hP'.write⟩
  · rintro ⟨hc, hr, hw⟩
    exact ⟨hconnect.mpr hc, hread.mpr hr, hwrite.mpr hw⟩

/-- Where the waits that are due are current, a timeout hits the operation that it was armed for. -/
theorem QueuedTimeoutsCurrent.hits {cfg : ClientConfig} {c : Client}
    (h : QueuedTimeoutsCurrent cfg c) (e : Event) : TimeoutHitsCurrent cfg c e := by
  cases e with
  | timerDue t =>
    cases t with
    | connect => exact fun n hn => h.connect n (List.mem_of_mem_head? hn)
    | read => exact fun n hn => h.read n (List.mem_of_mem_head? hn)
    | write => exact fun n hn => h.write n (List.mem_of_mem_head? hn)
    | response => exact trivial
  | _ => exact trivial

/-- **Timeouts and operations that have finished.** In every state of a run all timeout handlers
that are still to be run belong to operations in progress, exactly when no step completes an
operation whose wait has expired with the handler still to be run. In such a run every timeout
handler that closes the socket finds its operation in progress. -/
theorem queuedTimeoutsCurrent_iff (cfg : ClientConfig) (es : List Event) (u : Client)
    (hrun : run (step cfg) {} es = some u) :
    (EveryState (step cfg) {} es (QueuedTimeoutsCurrent cfg) ↔
        EveryStep (step cfg) {} es (CompletesInTime cfg)) ∧
      (EveryStep (step cfg) {} es (CompletesInTime cfg) →
        EveryStep (step cfg) {} es (TimeoutHitsCurrent cfg)) := by
  have hinit : QueuedTimeoutsCurrent cfg {} :=
    ⟨by simp [TimedOp.Current, connectOp], by simp [TimedOp.Current, readOp],
      by simp [TimedOp.Current, writeOp]⟩
  have hiff : EveryState (step cfg) {} es (QueuedTimeoutsCurrent cfg) ↔
      EveryStep (step cfg) {} es (CompletesInTime cfg) := by
    refine everyState_iff_everyStep (I := Guarded cfg) hinit (Guarded.init cfg) ?_ ?_ hrun
    · exact fun t e t' _ _ hI ht => hI.step ht
    · exact fun t e t' _ _ hI hP ht => queuedTimeoutsCurrent_step hI hP ht
  refine ⟨hiff, fun hC pre e post t hes ht => ?_⟩
  exact (hiff.mpr hC pre (e :: post) t hes ht).hits e

/-- A client that gives each packet read 10 ms. -/
def tenMsReads : ClientConfig := { host := .little, readTimeoutMs := 10 }

/-- A packet comes in time, none follows, and the read that waits for it is timed out. -/
theorem queuedTimeoutsCurrent_iff_in_time :
    EveryStep (step tenMsReads) {}
      [.connect 0, .connectDone false, .readDone (Packet.header ⟨0x82, 0, 1, []⟩), .readDone [],
        .timerAborted .read, .tick (millis 10), .expire .read, .timerDue .read, .readFail]
      (TimeoutHitsCurrent tenMsReads) := by
  exact (queuedTimeoutsCurrent_iff tenMsReads _ _ rfl).2 (by decide)

/-- The wait of a read expires, the packet arrives before the handler of the timer has run, and the
handler closes the socket under the next read. -/
theorem timeout_hits_next_read :
    ∃ c c', run (step tenMsReads) {}
        [.connect 0, .connectDone false, .tick (millis 10), .expire .read,
          .readDone (Packet.header ⟨0x82, 0, 1, []⟩), .readDone []] = some c ∧
      step tenMsReads c (.timerDue .read) = some c' ∧
      ¬ TimeoutHitsCurrent tenMsReads c (.timerDue .read) ∧
      c.socketOpen = true ∧ c'.socketOpen = false := by
  refine ⟨_, _, rfl, rfl, ?_, rfl, rfl⟩
  intro h
  exact absurd (h 1 rfl) (by decide)

/-! ## The announcement of the close -/

/-- The destructor, up to the end of the threads: nothing runs after it. -/
def destroy (cfg : ClientConfig) (c : Client) : Client := c.close cfg

/-- How often `onClose_` has been called. -/
def closes (c : Client) : ℕ := c.calls.count .close

/-- Only a call of `close` announces anything. -/
theorem closes_step {cfg : ClientConfig} {c c' : Client} {e : Event}
    (h : step cfg c e = some c') :
    c'.closes = c.closes + if e = .close ∧ cfg.onClose = true then 1 else 0 := by
  rw [closes, calls_step h, List.count_append]
  refine congrArg (c.closes + ·) ?_
  cases e with
  | close => cases hset : cfg.onClose <;> simp [newCalls, hset]
  | connectDone ec => cases hset : cfg.connectHandler <;> simp [newCalls, hset]
  | readDone bs =>
    simp only [newCalls]
    split
    · rw [List.count_append]
      split <;> split <;> simp
    · simp
  | timerDue t =>
    cases t with
    | response => cases hset : cfg.onTimeout <;> simp [newCalls, hset, List.count_eq_zero]
    | _ => simp [newCalls]
  | _ => simp [newCalls]

/-- In a run `onClose_` is called once for each call of `close`, if it is set. -/
theorem closes_run {cfg : ClientConfig} {c u : Client} {es : List Event}
    (h : run (step cfg) c es = some u) :
    u.closes = c.closes + if cfg.onClose then es.count .close else 0 := by
  induction es generalizing c with
  | nil =>
    obtain rfl : c = u := by simpa using h
    simp
  | cons e es ih =>
    obtain ⟨t, ht, hu⟩ := run_cons_eq_some.mp h
    rw [ih hu, closes_step ht, List.count_cons]
    cases cfg.onClose <;> simp [Nat.add_assoc, Nat.add_comm]

/-- **The announcement of the close.** A client that is destroyed after a run has called `onClose_`
exactly once, exactly when there is such a handler and nobody has called `close` before. -/
theorem announcesOnce_iff (cfg : ClientConfig) (es : List Event) (u : Client)
    (hrun : run (step cfg) {} es = some u) :
    (u.destroy cfg).closes = 1 ↔ cfg.onClose = true ∧ Event.close ∉ es := by
  have hstep : u.step cfg .close = some (u.close cfg) := rfl
  have hdestroy := closes_step hstep
  have hinit : closes {} = 0 := rfl
  rw [destroy, hdestroy, closes_run hrun, hinit, ← List.count_eq_zero]
  cases cfg.onClose with
  | true => simp
  | false => simp

/-- The peer disconnects. -/
theorem announcesOnce_iff_disconnected :
    ∃ u, run (step tenMsReads) {} [.connect 0, .connectDone false, .readFail, .timerAborted .read]
        = some u ∧ (u.destroy tenMsReads).closes = 1 := by
  refine ⟨_, rfl, ?_⟩
  exact (announcesOnce_iff tenMsReads
    [.connect 0, .connectDone false, .readFail, .timerAborted .read] _ rfl).mpr ⟨rfl, by decide⟩

/-- The client is closed by its user before it is destroyed. -/
theorem close_announced_twice :
    ∃ u, run (step tenMsReads) {}
        [.connect 0, .connectDone false, .close, .readFail, .timerAborted .read] = some u ∧
      (u.destroy tenMsReads).closes = 2 :=
  ⟨_, rfl, rfl⟩

end Client

end TurboNet
