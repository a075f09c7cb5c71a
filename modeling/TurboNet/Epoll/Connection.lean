import TurboNet.Common.Bytes

/-!
# A connection of the epoll server

Reference: `claude/server.cpp`, `Connection`.

The read buffer is filled by `readData` from its level on and emptied by `processData`. What `recv`
delivers is an argument of `readData`; how much it may be is what `recv` was asked for.
-/

namespace TurboNet.Epoll

open Common

/-- `MAX_BUFFER_SIZE`. -/
def maxBufferSize : ℕ := 4096

structure Connection where
  sockfd : ℕ := 0
  readBuffer : List UInt8 := List.replicate maxBufferSize 0
  bytesInBuffer : ℕ := 0
deriving DecidableEq

namespace Connection

/-- How much `readData` asks `recv` for. The difference is a `size_t`. -/
def space (c : Connection) : ℕ := (maxBufferSize + (2 ^ 64 - c.bytesInBuffer)) % 2 ^ 64

/-- `readData`, with the bytes that `recv` has delivered. -/
def readData (c : Connection) (bs : List UInt8) : Connection :=
  { c with
    readBuffer := memcpy c.readBuffer c.bytesInBuffer bs
    bytesInBuffer := c.bytesInBuffer + bs.length }

/-- What `processData` finds in the buffer. -/
def contents (c : Connection) : List UInt8 := c.readBuffer.take c.bytesInBuffer

/-- `processData`. The zero behind the bytes is written wherever they end. -/
def processData (c : Connection) : Connection :=
  if 0 < c.bytesInBuffer then
    { c with readBuffer := c.readBuffer.set c.bytesInBuffer 0, bytesInBuffer := 0 }
  else c

variable {c : Connection}

/-- The level is one of the buffer. -/
structure InBounds (c : Connection) : Prop where
  length : c.readBuffer.length = maxBufferSize
  level : c.bytesInBuffer ≤ maxBufferSize

/-- The buffer of a new connection is empty. -/
theorem inBounds_new (sockfd : ℕ) : InBounds { sockfd := sockfd } :=
  ⟨List.length_replicate, Nat.zero_le _⟩

/-- `recv` may write the rest of the buffer. -/
theorem InBounds.space_eq (h : c.InBounds) : c.space = maxBufferSize - c.bytesInBuffer := by
  have hlevel := h.level
  simp only [space, maxBufferSize] at hlevel ⊢
  omega

/-- A `recv` of no more than that stays inside the buffer. -/
theorem InBounds.readData (h : c.InBounds) {bs : List UInt8} (hbs : bs.length ≤ c.space) :
    (c.readData bs).InBounds := by
  have hlevel := h.level
  have hlength := h.length
  rw [h.space_eq] at hbs
  refine ⟨?_, by simp only [Connection.readData]; omega⟩
  rw [← h.length]
  exact length_memcpy (by omega)

/-- It adds its bytes to the contents. -/
theorem InBounds.contents_readData (h : c.InBounds) (bs : List UInt8) :
    (c.readData bs).contents = c.contents ++ bs := by
  have hlevel := h.level
  have hlength := h.length
  have htake : (c.readBuffer.take c.bytesInBuffer ++ bs).length = c.bytesInBuffer + bs.length := by
    rw [List.length_append, List.length_take, Nat.min_eq_left (by omega)]
  rw [contents, Connection.readData, memcpy, contents, ← htake, List.take_left]

/-- `processData` keeps the buffer as it is. -/
theorem InBounds.processData (h : c.InBounds) : c.processData.InBounds := by
  rw [Connection.processData]
  split
  · exact ⟨List.length_set.trans h.length, Nat.zero_le _⟩
  · exact h

/-- It empties the buffer. -/
@[simp] theorem bytesInBuffer_processData (c : Connection) : c.processData.bytesInBuffer = 0 := by
  rw [processData]
  split
  · rfl
  · omega

end Connection

end TurboNet.Epoll
