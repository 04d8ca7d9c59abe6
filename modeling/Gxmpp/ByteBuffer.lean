/-
`talk/base/bytebuffer.cc`, and what it uses of `talk/base/byteorder.h`.

The buffer is a block of memory with a part that is in use, from `start_` up to `end_`. What a
new block holds is not known (`fresh`), and neither is the byte order of the host. `memcpy` and
`memmove` inside of a block are `Ring.put`. A pointer that is given out is the place in the block;
what a caller stores there is a write of its own.

`version_` is an `int` and goes round after `2 ^ 32` moves.
-/
import Gxmpp.Ring
import Gxmpp.XmlElement

set_option autoImplicit false

namespace Gxmpp.TalkBase

/-! ## `byteorder.h` -/

/-- `SetBE16`, `SetBE32` and `SetBE64`, with the number of bytes. -/
def SetBE (w v : Nat) : Str := (List.range w).map fun i => UInt8.ofNat (v >>> (8 * (w - 1 - i)))

/-- `GetBE16`, `GetBE32` and `GetBE64`. -/
def GetBE (w : Nat) (memory : Str) : Nat :=
  (List.range w).foldl (fun v i => v ||| (memory.getD i 0).toNat <<< (8 * (w - 1 - i))) 0

example (v : Nat) : SetBE 4 v
    = [UInt8.ofNat (v >>> 24), UInt8.ofNat (v >>> 16), UInt8.ofNat (v >>> 8),
      UInt8.ofNat (v >>> 0)] := rfl

/-- The byte order of the host. -/
structure Host where
  isBigEndian : Bool

/-- A number in the memory of the host. -/
def Host.store (host : Host) (w v : Nat) : Str :=
  if host.isBigEndian then SetBE w v else (SetBE w v).reverse

/-- The number that is in the memory of the host. -/
def Host.load (host : Host) (w : Nat) (memory : Str) : Nat :=
  if host.isBigEndian then GetBE w memory else GetBE w memory.reverse

/-- `HostToNetwork16`, `HostToNetwork32` and `HostToNetwork64`. -/
def HostToNetwork (host : Host) (w n : Nat) : Nat := host.load w (SetBE w n)

/-- `NetworkToHost16`, `NetworkToHost32` and `NetworkToHost64`. -/
def NetworkToHost (host : Host) (w n : Nat) : Nat := GetBE w (host.store w n)

/-! ## The buffer -/

inductive ByteOrder where
  | ORDER_NETWORK
  | ORDER_HOST
deriving DecidableEq

structure ByteBuffer where
  bytes_ : Str
  size_ : Nat
  start_ : Nat
  end_ : Nat
  version_ : UInt32
  byte_order_ : ByteOrder

/-- `ByteBuffer::ReadPosition`. -/
structure ReadPosition where
  start_ : Nat
  version_ : UInt32

namespace ByteBuffer

open Ring (put)

def DEFAULT_SIZE : Nat := 4096

/-- A new block. -/
def newBlock (fresh : Nat → UInt8) (size : Nat) : Str := (List.range size).map fresh

theorem length_newBlock (fresh : Nat → UInt8) (n : Nat) : (newBlock fresh n).length = n := by
  unfold newBlock
  simp

/-- `Construct`, with the bytes or without. -/
def Construct (fresh : Nat → UInt8) (bytes : Option Str) (len : Nat) (byte_order : ByteOrder) :
    ByteBuffer :=
  match bytes with
  | some bytes => ⟨put (newBlock fresh len) 0 (bytes.take len), len, 0, len, 0, byte_order⟩
  | none => ⟨newBlock fresh len, len, 0, 0, 0, byte_order⟩

variable (b : ByteBuffer)

/-- `Data`, up to the end. -/
def Data : Str := (b.bytes_.take b.end_).drop b.start_

def Length : Nat := b.end_ - b.start_

def Capacity : Nat := b.size_ - b.start_

def Resize (fresh : Nat → UInt8) (size : Nat) : ByteBuffer :=
  let len := min (b.end_ - b.start_) size
  let moved := (b.bytes_.drop b.start_).take len
  if size ≤ b.size_ then
    -- Don't reallocate, just move data backwards
    { b with
      bytes_ := put b.bytes_ 0 moved, start_ := 0, end_ := len, version_ := b.version_ + 1 }
  else
    -- Reallocate a larger buffer.
    let size_ := max size (3 * b.size_ / 2)
    { b with
      bytes_ := put (newBlock fresh size_) 0 moved, size_, start_ := 0, end_ := len,
      version_ := b.version_ + 1 }

/-- `ReserveWriteBuffer`: the place of the reserved bytes. -/
def ReserveWriteBuffer (fresh : Nat → UInt8) (len : Nat) : ByteBuffer × Nat :=
  let b := if b.Length + len > b.Capacity then b.Resize fresh (b.Length + len) else b
  ({ b with end_ := b.end_ + len }, b.end_)

/-- What is stored at a place that was given out. -/
def Store (i : Nat) (s : Str) : ByteBuffer := { b with bytes_ := put b.bytes_ i s }

def WriteBytes (fresh : Nat → UInt8) (val : Str) : ByteBuffer :=
  let (b, start) := b.ReserveWriteBuffer fresh val.length
  b.Store start val

def Consume (size : Nat) : ByteBuffer × Bool :=
  if size > b.Length then (b, false) else ({ b with start_ := b.start_ + size }, true)

def GetReadPosition : ReadPosition := ⟨b.start_, b.version_⟩

def SetReadPosition (position : ReadPosition) : ByteBuffer × Bool :=
  if position.version_ ≠ b.version_ then (b, false)
  else ({ b with start_ := position.start_ }, true)

def Clear : ByteBuffer :=
  { b with
    bytes_ := List.replicate b.size_ 0, start_ := 0, end_ := 0, version_ := b.version_ + 1 }

/-! ## Reads -/

/-- `ReadBytes`: nothing is the result `false`. -/
def ReadBytes (len : Nat) : ByteBuffer × Option Str :=
  if len > b.Length then (b, none)
  else ({ b with start_ := b.start_ + len }, some ((b.bytes_.drop b.start_).take len))

/-- `ReadString`, and what is appended to `val`, if there is a `val`. -/
def ReadString (val : Bool) (len : Nat) : ByteBuffer × Option Str :=
  if !val then (b, none) else b.ReadBytes len

/-- What the readers of numbers have in common: `w` bytes go into a number of the host, which is
a number of the network or is not. -/
def ReadUInt (host : Host) (w : Nat) (val : Bool) : ByteBuffer × Option Nat :=
  if !val then (b, none)
  else
    match b.ReadBytes w with
    | (b, none) => (b, none)
    | (b, some bytes) =>
      let v := host.load w bytes
      (b, some (if b.byte_order_ = .ORDER_NETWORK then NetworkToHost host w v else v))

def ReadUInt8 (val : Bool) : ByteBuffer × Option Nat :=
  if !val then (b, none)
  else
    match b.ReadBytes 1 with
    | (b, none) => (b, none)
    | (b, some bytes) => (b, some (bytes.getD 0 0).toNat)

def ReadUInt16 (host : Host) (val : Bool) : ByteBuffer × Option Nat := b.ReadUInt host 2 val

def ReadUInt32 (host : Host) (val : Bool) : ByteBuffer × Option Nat := b.ReadUInt host 4 val

def ReadUInt64 (host : Host) (val : Bool) : ByteBuffer × Option Nat := b.ReadUInt host 8 val

/-- The three bytes of `v` that count, of four. -/
def offset24 (host : Host) : Nat :=
  if b.byte_order_ = .ORDER_NETWORK ∨ host.isBigEndian then 1 else 0

def ReadUInt24 (host : Host) (val : Bool) : ByteBuffer × Option Nat :=
  if !val then (b, none)
  else
    match b.ReadBytes 3 with
    | (b, none) => (b, none)
    | (b, some bytes) =>
      let v := host.load 4 (put (host.store 4 0) (b.offset24 host) bytes)
      (b, some (if b.byte_order_ = .ORDER_NETWORK then NetworkToHost host 4 v else v))

/-! ## Writes -/

variable (fresh : Nat → UInt8)

/-- What the writers of numbers have in common. -/
def WriteUInt (host : Host) (w val : Nat) : ByteBuffer :=
  let v := if b.byte_order_ = .ORDER_NETWORK then HostToNetwork host w val else val
  b.WriteBytes fresh (host.store w v)

def WriteUInt8 (val : UInt8) : ByteBuffer := b.WriteBytes fresh [val]

def WriteUInt16 (host : Host) (val : UInt16) : ByteBuffer := b.WriteUInt fresh host 2 val.toNat

def WriteUInt32 (host : Host) (val : UInt32) : ByteBuffer := b.WriteUInt fresh host 4 val.toNat

def WriteUInt64 (host : Host) (val : UInt64) : ByteBuffer := b.WriteUInt fresh host 8 val.toNat

def WriteUInt24 (host : Host) (val : UInt32) : ByteBuffer :=
  let v := if b.byte_order_ = .ORDER_NETWORK then HostToNetwork host 4 val.toNat else val.toNat
  b.WriteBytes fresh (((host.store 4 v).drop (b.offset24 host)).take 3)

def WriteString (val : Str) : ByteBuffer := b.WriteBytes fresh val

end ByteBuffer

end Gxmpp.TalkBase
