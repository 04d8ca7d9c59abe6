/-
`FifoBuffer`, in `talk/base/stream.cc`: a ring of bytes in a block of memory.

What a new block holds is not known (`fresh`). A pointer that is given out is the place in the
block; what the caller stores there is a write of its own (`Store`). The functions run under the
lock of the buffer, and the events for the owner are kept in the order in which they are posted.
The assertions of `ConsumeReadData` and `ConsumeWriteBuffer` are for the callers to meet.
-/
import Gxmpp.ByteBuffer

set_option autoImplicit false

namespace Gxmpp.TalkBase

inductive StreamState where
  | SS_CLOSED
  | SS_OPENING
  | SS_OPEN
deriving DecidableEq

inductive StreamResult where
  | SR_ERROR
  | SR_SUCCESS
  | SR_BLOCK
  | SR_EOS
deriving DecidableEq

/-- `StreamEvent`, of which these two are posted here. -/
inductive StreamEvent where
  | SE_READ
  | SE_WRITE
deriving DecidableEq

structure FifoBuffer where
  state_ : StreamState
  buffer_ : Str
  buffer_length_ : Nat
  data_length_ : Nat
  read_position_ : Nat
  /-- what was posted to the owner -/
  posted : List StreamEvent

namespace FifoBuffer

open Ring (put)
open ByteBuffer (newBlock)

def Construct (fresh : Nat → UInt8) (size : Nat) : FifoBuffer :=
  ⟨.SS_OPEN, newBlock fresh size, size, 0, 0, []⟩

variable (b : FifoBuffer)

def PostEvent (event : StreamEvent) : FifoBuffer := { b with posted := b.posted ++ [event] }

def GetState : StreamState := b.state_

def GetBuffered : Nat := b.data_length_

def GetWriteRemaining : Nat := b.buffer_length_ - b.data_length_

def SetCapacity (fresh : Nat → UInt8) (size : Nat) : FifoBuffer × Bool :=
  if b.data_length_ > size then (b, false)
  else if size ≠ b.buffer_length_ then
    let copy := b.data_length_
    let tail_copy := min copy (b.buffer_length_ - b.read_position_)
    let buffer := put (newBlock fresh size) 0 ((b.buffer_.drop b.read_position_).take tail_copy)
    let buffer := put buffer tail_copy (b.buffer_.take (copy - tail_copy))
    ({ b with buffer_ := buffer, read_position_ := 0, buffer_length_ := size }, true)
  else (b, true)

/-- `ReadOffsetLocked`: what is copied out, and how many bytes. -/
def ReadOffsetLocked (bytes offset : Nat) : StreamResult × Str × Nat :=
  if offset ≥ b.data_length_ then
    (if b.state_ ≠ .SS_CLOSED then .SR_BLOCK else .SR_EOS, [], 0)
  else
    let available := b.data_length_ - offset
    let read_position := (b.read_position_ + offset) % b.buffer_length_
    let copy := min bytes available
    let tail_copy := min copy (b.buffer_length_ - read_position)
    (.SR_SUCCESS,
      (b.buffer_.drop read_position).take tail_copy ++ b.buffer_.take (copy - tail_copy), copy)

/-- `WriteOffsetLocked`: how many bytes are copied in. -/
def WriteOffsetLocked (data : Str) (offset : Nat) : FifoBuffer × StreamResult × Nat :=
  if b.state_ = .SS_CLOSED then (b, .SR_EOS, 0)
  else if b.data_length_ + offset ≥ b.buffer_length_ then (b, .SR_BLOCK, 0)
  else
    let available := b.buffer_length_ - b.data_length_ - offset
    let write_position := (b.read_position_ + b.data_length_ + offset) % b.buffer_length_
    let copy := min data.length available
    let tail_copy := min copy (b.buffer_length_ - write_position)
    let buffer := put b.buffer_ write_position (data.take tail_copy)
    let buffer := put buffer 0 ((data.drop tail_copy).take (copy - tail_copy))
    ({ b with buffer_ := buffer }, .SR_SUCCESS, copy)

def ReadOffset (bytes offset : Nat) : StreamResult × Str × Nat := b.ReadOffsetLocked bytes offset

def WriteOffset (data : Str) (offset : Nat) : FifoBuffer × StreamResult × Nat :=
  b.WriteOffsetLocked data offset

/-- If the buffer was full before, and now it is not, an event is posted. -/
def ConsumeReadData (size : Nat) : FifoBuffer :=
  let was_writable := b.data_length_ < b.buffer_length_
  let c :=
    { b with
      read_position_ := (b.read_position_ + size) % b.buffer_length_
      data_length_ := b.data_length_ - size }
  if ¬was_writable ∧ size > 0 then c.PostEvent .SE_WRITE else c

/-- If there was nothing to read before, and now there is, an event is posted. -/
def ConsumeWriteBuffer (size : Nat) : FifoBuffer :=
  let was_readable := b.data_length_ > 0
  let c := { b with data_length_ := b.data_length_ + size }
  if ¬was_readable ∧ size > 0 then c.PostEvent .SE_READ else c

/-- `Read`, which goes on after a success as `ConsumeReadData` does. -/
def Read (bytes : Nat) : FifoBuffer × StreamResult × Str × Nat :=
  let (result, buffer, copy) := b.ReadOffsetLocked bytes 0
  (if result = .SR_SUCCESS then b.ConsumeReadData copy else b, result, buffer, copy)

/-- `Write`, which goes on after a success as `ConsumeWriteBuffer` does. -/
def Write (buffer : Str) : FifoBuffer × StreamResult × Nat :=
  let (b, result, copy) := b.WriteOffsetLocked buffer 0
  (if result = .SR_SUCCESS then b.ConsumeWriteBuffer copy else b, result, copy)

/-- `GetReadData`: the place, and the size there. -/
def GetReadData : Nat × Nat :=
  (b.read_position_,
    if b.read_position_ + b.data_length_ ≤ b.buffer_length_ then b.data_length_
    else b.buffer_length_ - b.read_position_)

/-- `GetWriteBuffer`: the place, and the size there. -/
def GetWriteBuffer : FifoBuffer × Option (Nat × Nat) :=
  if b.state_ = .SS_CLOSED then (b, none)
  else
    -- if empty, reset the write position to the beginning, so we can get the biggest possible block
    let b := if b.data_length_ = 0 then { b with read_position_ := 0 } else b
    let write_position := (b.read_position_ + b.data_length_) % b.buffer_length_
    (b, some (write_position,
      if write_position > b.read_position_ ∨ b.data_length_ = 0 then
        b.buffer_length_ - write_position
      else b.read_position_ - write_position))

/-- What is stored at a place that was given out. -/
def Store (place : Nat) (s : Str) : FifoBuffer := { b with buffer_ := put b.buffer_ place s }

def Close : FifoBuffer := { b with state_ := .SS_CLOSED }

end FifoBuffer

end Gxmpp.TalkBase
