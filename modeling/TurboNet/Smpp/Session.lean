import TurboNet.Common.Machine
import TurboNet.Common.Timer
import TurboNet.Smpp.Framing

/-!
# An SMPP session

Reference: `new_chatgpt/main.cpp`, `SmppSession::send_pdu`, `SmppSession::parse_pdu`,
`BindTransceiver`, `BindTransceiverResp`, `EnquireLink`.

A session numbers everything it sends with its own counter, answers included, and keeps a timer for
each PDU that it has sent in a table by number. A PDU that comes in is a response if its number is
in this table, and a request otherwise; `command_id` is not looked at.
-/

namespace TurboNet.Smpp

open Common

/-! ## PDUs -/

/-- The command ids of `bind_transceiver`, `bind_transceiver_resp` and `enquire_link`. -/
def bindTransceiverId : UInt32 := 0x00000009
def bindTransceiverRespId : UInt32 := 0x80000009
def enquireLinkId : UInt32 := 0x00000015

/-- Bit 31 of the command id is set. -/
def SmppPdu.isResponse (p : SmppPdu) : Bool := p.commandId &&& 0x80000000 ≠ 0

/-- `BindTransceiver`. The constructor leaves `command_length` as it finds it. -/
def bindTransceiver (commandLength seq : UInt32) (systemId password : List UInt8) : SmppPdu where
  commandLength := commandLength
  commandId := bindTransceiverId
  commandStatus := 0
  sequenceNumber := seq
  -- after the two strings `system_type`, version, TON, NPI and `address_range`
  body := systemId ++ [0] ++ password ++ [0] ++ [0, 0x34, 0, 0, 0]

/-- The bytes of `std::string system_id = "SMPP-SERVER"`. -/
def systemId : List UInt8 := [0x53, 0x4d, 0x50, 0x50, 0x2d, 0x53, 0x45, 0x52, 0x56, 0x45, 0x52]

/-- `BindTransceiverResp`. The constructor leaves `command_length` as it finds it. -/
def bindTransceiverResp (commandLength seq status : UInt32) : SmppPdu where
  commandLength := commandLength
  commandId := bindTransceiverRespId
  commandStatus := status
  sequenceNumber := seq
  body := systemId ++ [0]

/-- `EnquireLink`. The constructor leaves `command_length` as it finds it. -/
def enquireLink (commandLength seq : UInt32) : SmppPdu where
  commandLength := commandLength
  commandId := enquireLinkId
  commandStatus := 0
  sequenceNumber := seq
  body := []

/-! ## Sessions -/

/-- The callbacks that `parse_pdu` may pass a PDU to. -/
inductive Callback where
  | onRequest
  | onResponse
deriving DecidableEq, Repr

structure Session where
  seq : UInt32 := 1
  /-- `pending_timers_`, by the place of the timer among all. -/
  pendingTimers : Std.TreeMap UInt32 ℕ := ∅
  /-- All timers that `send_pdu` has made. -/
  timers : List (Timer UInt32) := []
  /-- `on_request` and `on_response` are set. -/
  onRequest : Bool
  onResponse : Bool

namespace Session

/-- `send_pdu`, up to the write. -/
def sendPdu (s : Session) (now timeout : ℕ) : Session :=
  let timer := ({} : Timer UInt32).arm (now + timeout) s.seq
  { s with
    seq := s.seq + 1
    -- `emplace` does not replace; a timer that is not taken is destroyed
    timers := s.timers ++ [if s.pendingTimers.contains s.seq then timer.cancel else timer]
    pendingTimers := s.pendingTimers.insertIfNew s.seq s.timers.length }

/-- The PDU as `send_pdu` sends it. -/
def numbered (s : Session) (pdu : SmppPdu) : SmppPdu := { pdu with sequenceNumber := s.seq }

/-- What `parse_pdu` does with a PDU. -/
def parsePdu (s : Session) (pdu : SmppPdu) : Session × Option Callback :=
  match s.pendingTimers[pdu.sequenceNumber]? with
  | some i =>
    ({ s with
        timers := s.timers.modify i Timer.cancel
        pendingTimers := s.pendingTimers.erase pdu.sequenceNumber },
      if s.onResponse then some .onResponse else none)
  | none => (s, if s.onRequest then some .onRequest else none)

/-- A PDU whose number is in the table cancels the timer and is a response. -/
theorem parsePdu_of_contains {s : Session} {pdu : SmppPdu}
    (h : s.pendingTimers.contains pdu.sequenceNumber = true) :
    (s.parsePdu pdu).1.pendingTimers = s.pendingTimers.erase pdu.sequenceNumber ∧
      (s.parsePdu pdu).2 = if s.onResponse then some .onResponse else none := by
  rw [Std.TreeMap.contains_eq_isSome_getElem?] at h
  obtain ⟨i, hi⟩ := Option.isSome_iff_exists.mp h
  rw [parsePdu, hi]
  exact ⟨rfl, rfl⟩

/-- Any other PDU is a request. -/
theorem parsePdu_of_not_contains {s : Session} {pdu : SmppPdu}
    (h : s.pendingTimers.contains pdu.sequenceNumber = false) :
    s.parsePdu pdu = (s, if s.onRequest then some .onRequest else none) := by
  rw [Std.TreeMap.contains_eq_isSome_getElem?] at h
  have hnone := Option.not_isSome_iff_eq_none.mp (by rw [h]; exact Bool.false_ne_true)
  rw [parsePdu, hnone]

end Session

end TurboNet.Smpp
