import TurboNet.Common.Machine
import TurboNet.Epoll.Connection

/-!
# The read buffer of an epoll connection and its bounds

Reference: `claude/server.cpp`, `Connection::readData`, `Connection::processData`.

`readData` and `processData` may be called in any order, and `recv` decides how much it delivers,
up to what it was asked for. The level stays within the buffer, and `recv` is asked for what is left
of it. But the buffer has no room behind its last byte: `processData` writes its zero at the level,
which is no index of the buffer once the buffer is full. `accessesInBounds_iff` says that this is
the only access that goes wrong.
-/

namespace TurboNet.Epoll

open Common

/-- What `recv` returns: -1, or the bytes that it has delivered. None are the end of the stream. -/
inductive RecvResult where
  | error
  | received (bs : List UInt8)
deriving DecidableEq, Repr

/-- The calls, with what `recv` returns in them. -/
inductive Call where
  | readData (result : RecvResult)
  | processData
deriving DecidableEq, Repr

namespace Connection

/-- One call. `recv` does not deliver more than it was asked for. -/
def call (c : Connection) : Call → Option Connection
  | .readData .error => some c
  | .readData (.received bs) => if bs.length ≤ c.space then some (c.readData bs) else none
  | .processData => some c.processData

/-- The accesses that a call makes are within the buffer. What `readData` asks for has not wrapped
around, and ends where the buffer ends or before; the index that `processData` writes is one of the
buffer. -/
def AccessInBounds (c : Connection) : Call → Prop
  | .readData _ =>
    c.bytesInBuffer + c.space = maxBufferSize ∧ c.bytesInBuffer + c.space ≤ c.readBuffer.length
  | .processData => 0 < c.bytesInBuffer → c.bytesInBuffer < c.readBuffer.length

/-- How many bytes `recv` has delivered since the buffer was processed last. -/
def delivered : List Call → ℕ :=
  List.foldl (fun n e => match e with
    | .readData .error => n
    | .readData (.received bs) => n + bs.length
    | .processData => 0) 0

/-! ## One call -/

variable {c c' : Connection} {e : Call}

/-- Each of the two calls stays inside the buffer. -/
theorem InBounds.call (h : c.InBounds) (hcall : c.call e = some c') : c'.InBounds := by
  match e with
  | .readData .error =>
    obtain rfl := Option.some.inj hcall
    exact h
  | .readData (.received bs) =>
    obtain ⟨hbs, heq⟩ := Option.ite_none_right_eq_some.mp hcall
    exact Option.some.inj heq ▸ h.readData hbs
  | .processData => exact Option.some.inj hcall ▸ h.processData

/-- Within the bounds only `processData` can access what is not there, in a buffer that is full. -/
theorem InBounds.accessInBounds_iff (h : c.InBounds) :
    c.AccessInBounds e ↔ (e = .processData → c.bytesInBuffer ≠ maxBufferSize) := by
  have hlevel := h.level
  have hlength := h.length
  have hpos : 0 < maxBufferSize := by decide
  cases e with
  | readData result =>
    have hspace := h.space_eq
    refine iff_of_true ⟨?_, ?_⟩ (fun heq => absurd heq (by simp)) <;> omega
  | processData =>
    simp only [AccessInBounds, forall_const]
    omega

/-! ## Runs -/

/-- Every run of the two calls stays inside the buffer. -/
theorem run_inBounds {sockfd : ℕ} {es : List Call}
    (h : run call { sockfd := sockfd } es = some c) : c.InBounds :=
  run_induction (inBounds_new sockfd) (fun _ _ _ hI hcall => hI.call hcall) h

/-- The level is what has been delivered since the buffer was processed. -/
theorem bytesInBuffer_eq_delivered {sockfd : ℕ} {es : List Call}
    (h : run call { sockfd := sockfd } es = some c) : c.bytesInBuffer = delivered es := by
  induction es using List.reverseRecOn generalizing c with
  | nil =>
    obtain rfl := Option.some.inj h
    rfl
  | append_singleton es e ih =>
    obtain ⟨b, hb, hlast⟩ := run_append_eq_some.mp h
    rw [run_singleton] at hlast
    have hlevel := ih hb
    rw [delivered, List.foldl_concat]
    match e with
    | .readData .error =>
      obtain rfl := Option.some.inj hlast
      exact hlevel
    | .readData (.received bs) =>
      obtain ⟨-, heq⟩ := Option.ite_none_right_eq_some.mp hlast
      obtain rfl := Option.some.inj heq
      exact congrArg (· + bs.length) hlevel
    | .processData =>
      obtain rfl := Option.some.inj hlast
      exact bytesInBuffer_processData b

/-- **The zero behind a full buffer.** The level never exceeds the buffer, and all accesses of a
run are within the buffer exactly when no call of `processData` comes after `recv` has delivered
4096 bytes since the last one. -/
theorem accessesInBounds_iff (sockfd : ℕ) (es : List Call) (c : Connection)
    (h : run call { sockfd := sockfd } es = some c) :
    (EveryState call { sockfd := sockfd } es (fun c => c.bytesInBuffer ≤ maxBufferSize) ∧
      EveryStep call { sockfd := sockfd } es AccessInBounds) ↔
      ∀ pre post, es = pre ++ .processData :: post → delivered pre ≠ maxBufferSize := by
  constructor
  · rintro ⟨-, hsteps⟩ pre post rfl
    obtain ⟨b, hb, -⟩ := run_append_eq_some.mp h
    rw [← bytesInBuffer_eq_delivered hb]
    exact (run_inBounds hb).accessInBounds_iff.mp (hsteps pre _ post b rfl hb) rfl
  · intro hfull
    refine ⟨fun pre post b _ hb => (run_inBounds hb).level, fun pre e post b heq hb => ?_⟩
    refine (run_inBounds hb).accessInBounds_iff.mpr fun he => ?_
    rw [bytesInBuffer_eq_delivered hb]
    exact hfull pre post (he ▸ heq)

/-- Two bytes are received and processed. -/
theorem accessesInBounds_iff_two_bytes :
    EveryState call {} [.readData (.received [0x61, 0x62]), .processData]
        (fun c => c.bytesInBuffer ≤ maxBufferSize) ∧
      EveryStep call {} [.readData (.received [0x61, 0x62]), .processData] AccessInBounds := by
  refine (accessesInBounds_iff 0 _ _ rfl).mpr fun pre post heq => ?_
  match pre with
  | [] => exact absurd (List.head_eq_of_cons_eq heq) (by decide)
  | [e] =>
    obtain rfl := (List.head_eq_of_cons_eq heq).symm
    decide
  | _ :: _ :: pre => exact absurd (congrArg List.length heq) (by simp)

/-- A `recv` that fills the buffer, and `processData` after it. -/
theorem full_of_received {bs : List UInt8} (hbs : bs.length = maxBufferSize) :
    ∃ b c : Connection, call {} (.readData (.received bs)) = some b ∧
      b.call .processData = some c ∧ ¬ b.AccessInBounds .processData := by
  have hspace : bs.length ≤ ({} : Connection).space := by
    rw [hbs, (inBounds_new 0).space_eq]
    exact Nat.le_refl _
  refine ⟨Connection.readData {} bs, _, if_pos hspace, rfl, fun haccess => ?_⟩
  have hI : (Connection.readData {} bs).InBounds := (inBounds_new 0).readData hspace
  have hlevel : (Connection.readData {} bs).bytesInBuffer = maxBufferSize :=
    (Nat.zero_add _).trans hbs
  exact hI.accessInBounds_iff.mp haccess rfl hlevel

/-- One `recv` delivers 4096 bytes. The zero goes behind them, and behind the buffer. -/
theorem full_buffer_written_behind :
    ¬ (∀ (sockfd : ℕ) (es : List Call) (c : Connection),
      run call { sockfd := sockfd } es = some c →
        EveryState call { sockfd := sockfd } es (fun c => c.bytesInBuffer ≤ maxBufferSize) ∧
          EveryStep call { sockfd := sockfd } es AccessInBounds) := by
  intro h
  obtain ⟨b, c, hb, hc, hbehind⟩ :=
    full_of_received (List.length_replicate (n := maxBufferSize) (a := 0x61))
  obtain ⟨-, hsteps⟩ := h 0 [.readData (.received (List.replicate maxBufferSize 0x61)),
    .processData] c (run_cons_eq_some.mpr ⟨b, hb, (run_singleton ..).trans hc⟩)
  exact hbehind (hsteps [_] .processData [] b rfl ((run_singleton ..).trans hb))

end Connection

end TurboNet.Epoll
