/-
`StreamInterface` with its loops `WriteAll` and `ReadAll`, and `MemoryStream`, in
`talk/base/stream.cc`.

A stream is what its virtual functions `Read` and `Write` do to a state. A memory stream is a block
of memory of which the first bytes are in use. What a new block holds behind them is not known
(`fresh`), and there is always memory for it. How the block is aligned is left out.
-/
import Gxmpp.FifoBuffer
import Gxmpp.Walking

set_option autoImplicit false

namespace Gxmpp.TalkBase

/-! ## 1. Streams -/

/-- A stream with states in `σ`: how much is to be read, and then what was; what is to be written,
and then how much was. -/
structure StreamInterface (σ : Type) where
  Read : σ → ℕ → σ × StreamResult × Str
  Write : σ → Str → σ × StreamResult × ℕ

namespace StreamInterface

variable {σ : Type} (io : StreamInterface σ)

/-- One round of the loop of `WriteAll`, which has written `total_written` bytes. -/
def writeAllRound (data : Str) : Walking.Round (σ × ℕ) (σ × StreamResult × ℕ) :=
  fun (s, total_written) =>
    if total_written < data.length then
      let (s, result, current_written) := io.Write s (data.drop total_written)
      if result ≠ .SR_SUCCESS then .inr (s, result, total_written)
      else .inl (s, total_written + current_written)
    else .inr (s, .SR_SUCCESS, total_written)

/-- `WriteAll`, of at most `n` rounds. -/
def WriteAll (n : ℕ) (s : σ) (data : Str) : Option (σ × StreamResult × ℕ) :=
  Walking.rounds (io.writeAllRound data) n (s, 0)

/-- One round of the loop of `ReadAll`, which has read `buffer`. -/
def readAllRound (buffer_len : ℕ) : Walking.Round (σ × Str) (σ × StreamResult × Str) :=
  fun (s, buffer) =>
    if buffer.length < buffer_len then
      let (s, result, bytes) := io.Read s (buffer_len - buffer.length)
      if result ≠ .SR_SUCCESS then .inr (s, result, buffer)
      else .inl (s, buffer ++ bytes)
    else .inr (s, .SR_SUCCESS, buffer)

/-- `ReadAll`, of at most `n` rounds. -/
def ReadAll (n : ℕ) (s : σ) (buffer_len : ℕ) : Option (σ × StreamResult × Str) :=
  Walking.rounds (io.readAllRound buffer_len) n (s, [])

section Rounds

variable {s s' : σ} {data buffer bytes : Str} {total k len : ℕ} {result : StreamResult}

theorem writeAllRound_next (hmore : total < data.length)
    (hwrite : io.Write s (data.drop total) = (s', .SR_SUCCESS, k)) :
    io.writeAllRound data (s, total) = .inl (s', total + k) := by
  simp only [writeAllRound, if_pos hmore, hwrite]
  rfl

theorem writeAllRound_done (hdone : ¬total < data.length) :
    io.writeAllRound data (s, total) = .inr (s, .SR_SUCCESS, total) := by
  simp only [writeAllRound, if_neg hdone]

theorem readAllRound_next (hmore : buffer.length < len)
    (hread : io.Read s (len - buffer.length) = (s', .SR_SUCCESS, bytes)) :
    io.readAllRound len (s, buffer) = .inl (s', buffer ++ bytes) := by
  simp only [readAllRound, if_pos hmore, hread]
  rfl

theorem readAllRound_left (hmore : buffer.length < len) (hresult : result ≠ .SR_SUCCESS)
    (hread : io.Read s (len - buffer.length) = (s', result, bytes)) :
    io.readAllRound len (s, buffer) = .inr (s', result, buffer) := by
  simp only [readAllRound, if_pos hmore, hread]
  exact if_pos hresult

theorem readAllRound_done (hdone : ¬buffer.length < len) :
    io.readAllRound len (s, buffer) = .inr (s, .SR_SUCCESS, buffer) := by
  simp only [readAllRound, if_neg hdone]

end Rounds

end StreamInterface

/-! ## 2. Streams in memory -/

structure MemoryStream where
  buffer_ : Str
  buffer_length_ : ℕ
  data_length_ : ℕ
  seek_position_ : ℕ

namespace MemoryStream

open Ring (put)
open ByteBuffer (newBlock)

/-- A new stream, which has no block yet. -/
def new : MemoryStream := ⟨[], 0, 0, 0⟩

variable (fresh : ℕ → UInt8) (m : MemoryStream)

def SetData (data : Str) : MemoryStream :=
  { buffer_ := put (newBlock fresh data.length) 0 data
    buffer_length_ := data.length
    data_length_ := data.length
    seek_position_ := 0 }

def Read (bytes : ℕ) : MemoryStream × StreamResult × Str :=
  if m.seek_position_ ≥ m.data_length_ then (m, .SR_EOS, [])
  else
    let available := m.data_length_ - m.seek_position_
    let bytes := if bytes > available then available else bytes
    ({ m with seek_position_ := m.seek_position_ + bytes }, .SR_SUCCESS,
      (m.buffer_.drop m.seek_position_).take bytes)

def DoReserve (size : ℕ) : MemoryStream × StreamResult :=
  if m.buffer_length_ ≥ size then (m, .SR_SUCCESS)
  else
    ({ m with
        buffer_ := put (newBlock fresh size) 0 (m.buffer_.take m.data_length_)
        buffer_length_ := size }, .SR_SUCCESS)

/-- The end of `Write`, where there is a place or nothing to be written. -/
def writeSome (buffer : Str) : MemoryStream × StreamResult × ℕ :=
  let available := m.buffer_length_ - m.seek_position_
  let bytes := if buffer.length > available then available else buffer.length
  let seek_position_ := m.seek_position_ + bytes
  ({ m with
      buffer_ := put m.buffer_ m.seek_position_ (buffer.take bytes)
      seek_position_
      data_length_ := if m.data_length_ < seek_position_ then seek_position_ else m.data_length_ },
    .SR_SUCCESS, bytes)

def Write (buffer : Str) : MemoryStream × StreamResult × ℕ :=
  let available := m.buffer_length_ - m.seek_position_
  if 0 = available then
    -- the new position rounded up to the next 256 bytes, or twice the previous length
    let new_buffer_length :=
      max (((m.seek_position_ + buffer.length) ||| 0xFF) + 1) (m.buffer_length_ * 2)
    let (m, result) := m.DoReserve fresh new_buffer_length
    if result ≠ .SR_SUCCESS then (m, result, 0) else m.writeSome buffer
  else m.writeSome buffer

def SetPosition (position : ℕ) : MemoryStream × Bool :=
  if position > m.data_length_ then (m, false)
  else ({ m with seek_position_ := position }, true)

def GetPosition : ℕ := m.seek_position_

def GetSize : ℕ := m.data_length_

def GetAvailable : ℕ := m.data_length_ - m.seek_position_

def ReserveSize (size : ℕ) : MemoryStream × Bool :=
  let (m, result) := m.DoReserve fresh size
  (m, result = .SR_SUCCESS)

/-- A memory stream is a stream. -/
def stream : StreamInterface MemoryStream := ⟨Read, Write fresh⟩

end MemoryStream

end Gxmpp.TalkBase
