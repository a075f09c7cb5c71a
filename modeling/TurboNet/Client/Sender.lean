import TurboNet.Wire.Frame

/-!
# The client's send path

Reference: `turbonet_client.cpp`, the handler posted by `sendPacket`, `doWrite`, `onWrite`.

`sendPacket` posts a handler that appends the frame to `txBuffer_` and starts a write if the buffer
was empty. A write puts on the socket the bytes the buffer had when it was started; when it
completes without an error the buffer is cleared. The only record of a write in progress is that
`txBuffer_` is not empty.
-/

namespace TurboNet

/-- `txBuffer_`, the outstanding `async_write` and the send handlers waiting on the strand. -/
structure Sender where
  txBuffer : List UInt8 := []
  /-- The bytes of the outstanding `async_write`. -/
  writing : Option (List UInt8) := none
  /-- The bytes of all writes that completed without an error. -/
  written : List UInt8 := []
  /-- The frames of the posted handlers that have not run yet, oldest first. -/
  posted : List (List UInt8) := []
  /-- History: the frames whose handlers have run. -/
  appended : List (List UInt8) := []
  /-- History: the frames of all `sendPacket` calls. -/
  sendCalls : List (List UInt8) := []
deriving DecidableEq, Repr

namespace Sender

/-- The end of `sendPacket`: post a handler for the frame. -/
def post (t : Sender) (pkt : List UInt8) : Sender :=
  { t with posted := t.posted ++ [pkt], sendCalls := t.sendCalls ++ [pkt] }

/-- The insertion of the posted handler. -/
def insert (t : Sender) (pkt : List UInt8) : Sender :=
  { t with txBuffer := t.txBuffer ++ pkt, appended := t.appended ++ [pkt] }

/-- The `async_write` of `doWrite`. -/
def asyncWrite (t : Sender) : Sender := { t with writing := some t.txBuffer }

/-- `onWrite`: only a write without an error clears the buffer. -/
def onWrite (t : Sender) (ec : Bool) : Sender :=
  if ec then { t with writing := none }
  else { t with
    writing := none
    written := t.written ++ t.writing.getD []
    txBuffer := [] }

/-- The bytes of the write in flight. -/
def inFlight (t : Sender) : List UInt8 := t.writing.getD []

/-- The bytes that wait in `txBuffer_` behind the write in flight. -/
def waiting (t : Sender) : List UInt8 := t.txBuffer.drop t.inFlight.length

end Sender

end TurboNet
