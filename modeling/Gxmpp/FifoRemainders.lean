/-
Where the functions of `FifoBuffer` take a remainder by `buffer_length_`.

A capacity of 0 is accepted, and then there is no such remainder. The functions are given here once
more, with a value only where each remainder that they take has one. Most of them have found out by
then that there is a byte or a place, so that the capacity is not 0. `ConsumeReadData` and
`GetWriteBuffer` have not (`remainders_iff`).
-/
import Gxmpp.FifoLevels

set_option autoImplicit false

namespace Gxmpp.TalkBase.FifoBuffer

open Ring (put)

/-! ## 1. The functions -/

/-- `a % n`, which there is for no `n = 0`. -/
def remainder (a n : ℕ) : Option ℕ := if n = 0 then none else some (a % n)

section Checked

variable (b : FifoBuffer)

def ReadOffsetLocked? (bytes offset : ℕ) : Option (StreamResult × Str × ℕ) :=
  if offset ≥ b.data_length_ then
    some (if b.state_ ≠ .SS_CLOSED then .SR_BLOCK else .SR_EOS, [], 0)
  else do
    let available := b.data_length_ - offset
    let read_position ← remainder (b.read_position_ + offset) b.buffer_length_
    let copy := min bytes available
    let tail_copy := min copy (b.buffer_length_ - read_position)
    some (.SR_SUCCESS,
      (b.buffer_.drop read_position).take tail_copy ++ b.buffer_.take (copy - tail_copy), copy)

def WriteOffsetLocked? (data : Str) (offset : ℕ) : Option (FifoBuffer × StreamResult × ℕ) :=
  if b.state_ = .SS_CLOSED then some (b, .SR_EOS, 0)
  else if b.data_length_ + offset ≥ b.buffer_length_ then some (b, .SR_BLOCK, 0)
  else do
    let available := b.buffer_length_ - b.data_length_ - offset
    let write_position ← remainder (b.read_position_ + b.data_length_ + offset) b.buffer_length_
    let copy := min data.length available
    let tail_copy := min copy (b.buffer_length_ - write_position)
    let buffer := put b.buffer_ write_position (data.take tail_copy)
    let buffer := put buffer 0 ((data.drop tail_copy).take (copy - tail_copy))
    some ({ b with buffer_ := buffer }, .SR_SUCCESS, copy)

def ConsumeReadData? (size : ℕ) : Option FifoBuffer := do
  -- nothing has been compared yet, and a `size` of 0 comes here too
  let was_writable := b.data_length_ < b.buffer_length_
  let read_position ← remainder (b.read_position_ + size) b.buffer_length_
  let c := { b with read_position_ := read_position, data_length_ := b.data_length_ - size }
  some (if ¬was_writable ∧ size > 0 then c.PostEvent .SE_WRITE else c)

def Read? (bytes : ℕ) : Option (FifoBuffer × StreamResult × Str × ℕ) := do
  let (result, buffer, copy) ← b.ReadOffsetLocked? bytes 0
  let b ← if result = .SR_SUCCESS then b.ConsumeReadData? copy else some b
  some (b, result, buffer, copy)

def Write? (buffer : Str) : Option (FifoBuffer × StreamResult × ℕ) := do
  let (b, result, copy) ← b.WriteOffsetLocked? buffer 0
  some (if result = .SR_SUCCESS then b.ConsumeWriteBuffer copy else b, result, copy)

def GetWriteBuffer? : Option (FifoBuffer × Option (ℕ × ℕ)) :=
  if b.state_ = .SS_CLOSED then some (b, none)
  else do
    -- the buffer is open, and it may have no places
    let b := if b.data_length_ = 0 then { b with read_position_ := 0 } else b
    let write_position ← remainder (b.read_position_ + b.data_length_) b.buffer_length_
    some (b, some (write_position,
      if write_position > b.read_position_ ∨ b.data_length_ = 0 then
        b.buffer_length_ - write_position
      else b.read_position_ - write_position))

end Checked

/-- What a call does, where each remainder has a value. -/
def act? (fresh : ℕ → UInt8) (w : World) : Call → Option (World × Answer)
  | .read bytes => do
      let (b, result, buffer, copy) ← w.buffer.Read? bytes
      some ({ w with buffer := b }, .read result buffer copy)
  | .readOffset bytes offset => do
      let (result, buffer, copy) ← w.buffer.ReadOffsetLocked? bytes offset
      some (w, .read result buffer copy)
  | .write data => do
      let (b, result, copy) ← w.buffer.Write? data
      some (⟨b, advance w.offer copy⟩, .written result copy)
  | .writeOffset data offset => do
      let (b, result, copy) ← w.buffer.WriteOffsetLocked? data offset
      some ({ w with buffer := b }, .written result copy)
  | .consumeReadData size => do
      let b ← w.buffer.ConsumeReadData? size
      some ({ w with buffer := b }, .done)
  | .getWriteBuffer => do
      match ← w.buffer.GetWriteBuffer? with
      | (b, some (place, size)) => some (⟨b, (place, size)⟩, .place (some size))
      | (b, none) => some ({ w with buffer := b }, .place none)
  -- the others take no remainder
  | call => some (act fresh w call)

/-! ## 2. Which remainders there are -/

section Values

variable {b : FifoBuffer}

theorem remainder_eq {a n : ℕ} (h : n ≠ 0) : remainder a n = some (a % n) := if_neg h

theorem readOffset?_eq (hle : b.data_length_ ≤ b.buffer_length_) (bytes offset : ℕ) :
    b.ReadOffsetLocked? bytes offset = some (b.ReadOffsetLocked bytes offset) := by
  unfold ReadOffsetLocked? ReadOffsetLocked
  split_ifs with hnone
  · rfl
  · rfl
  · rw [remainder_eq (by omega)]
    rfl

/-- There is a place for the byte. -/
theorem writeOffset?_eq (data : Str) (offset : ℕ) :
    b.WriteOffsetLocked? data offset = some (b.WriteOffsetLocked data offset) := by
  unfold WriteOffsetLocked? WriteOffsetLocked
  split_ifs with hclosed hfull
  · rfl
  · rfl
  · rw [remainder_eq (by omega)]
    rfl

theorem consumeReadData?_eq (size : ℕ) :
    b.ConsumeReadData? size
      = if b.buffer_length_ = 0 then none else some (b.ConsumeReadData size) := by
  unfold ConsumeReadData? remainder
  dsimp only
  by_cases hzero : b.buffer_length_ = 0
  · rw [if_pos hzero, if_pos hzero]
    rfl
  · rw [if_neg hzero, if_neg hzero]
    rfl

theorem read?_eq (hle : b.data_length_ ≤ b.buffer_length_) (bytes : ℕ) :
    b.Read? bytes = some (b.Read bytes) := by
  unfold Read? Read
  rw [readOffset?_eq hle]
  -- a read that succeeds has found a byte, and a byte has a place
  have hsuccess : (b.ReadOffsetLocked bytes 0).1 = .SR_SUCCESS → b.buffer_length_ ≠ 0 := by
    intro h hzero
    unfold ReadOffsetLocked at h
    rw [if_pos (by omega)] at h
    dsimp only at h
    split_ifs at h
  generalize b.ReadOffsetLocked bytes 0 = r at hsuccess ⊢
  obtain ⟨result, buffer, copy⟩ := r
  by_cases h : result = .SR_SUCCESS
  · have hlength := hsuccess h
    simp only [Option.bind_eq_bind, Option.bind_some, if_pos h, consumeReadData?_eq,
      if_neg hlength]
  · simp only [Option.bind_eq_bind, Option.bind_some, if_neg h]

theorem write?_eq (buffer : Str) : b.Write? buffer = some (b.Write buffer) := by
  unfold Write? Write
  rw [writeOffset?_eq]
  rfl

theorem getWriteBuffer?_eq :
    b.GetWriteBuffer? = if b.state_ ≠ .SS_CLOSED ∧ b.buffer_length_ = 0 then none
      else some b.GetWriteBuffer := by
  unfold GetWriteBuffer? GetWriteBuffer
  by_cases hclosed : b.state_ = .SS_CLOSED
  · rw [if_pos hclosed, if_pos hclosed, if_neg (fun h => h.1 hclosed)]
  · rw [if_neg hclosed, if_neg hclosed]
    -- going back to the first place leaves the capacity
    have hlength : (if b.data_length_ = 0 then { b with read_position_ := 0 } else b).buffer_length_
        = b.buffer_length_ := by split_ifs <;> rfl
    generalize (if b.data_length_ = 0 then { b with read_position_ := 0 } else b) = c at hlength ⊢
    unfold remainder
    dsimp only
    rw [hlength]
    by_cases hzero : b.buffer_length_ = 0
    · rw [if_pos hzero, if_pos ⟨hclosed, hzero⟩]
      rfl
    · rw [if_neg hzero, if_neg (fun h => hzero h.2)]
      rfl

end Values

/-- A remainder is taken, and whether there are places has not been looked at. -/
def Unguarded (w : World) : Call → Prop
  | .consumeReadData _ => True
  | .getWriteBuffer => w.buffer.state_ ≠ .SS_CLOSED
  | _ => False

/-- Such a call where the capacity is 0. -/
def Trap (w : World) (call : Call) : Prop := Unguarded w call ∧ w.buffer.buffer_length_ = 0

/-- A call that is no trap does what it does where remainders are not looked at. -/
theorem act?_eq (fresh : ℕ → UInt8) {w : World}
    (hle : w.buffer.data_length_ ≤ w.buffer.buffer_length_) {call : Call} (h : ¬Trap w call) :
    act? fresh w call = some (act fresh w call) := by
  cases call with
  | read bytes =>
    rw [act?, read?_eq hle]
    rfl
  | readOffset bytes offset =>
    rw [act?, readOffset?_eq hle]
    rfl
  | write data =>
    rw [act?, write?_eq]
    rfl
  | writeOffset data offset =>
    rw [act?, writeOffset?_eq]
    rfl
  | consumeReadData size =>
    rw [act?, consumeReadData?_eq, if_neg fun hzero => h ⟨trivial, hzero⟩]
    rfl
  | getWriteBuffer =>
    rw [act?, getWriteBuffer?_eq,
      if_neg (show ¬(w.buffer.state_ ≠ .SS_CLOSED ∧ w.buffer.buffer_length_ = 0) from h)]
    simp only [Option.bind_eq_bind, Option.bind_some]
    unfold act
    generalize w.buffer.GetWriteBuffer = r
    obtain ⟨b, _ | ⟨place, size⟩⟩ := r <;> rfl
  | _ => rfl

theorem act?_trap (fresh : ℕ → UInt8) {w : World} {call : Call} (h : Trap w call) :
    act? fresh w call = none := by
  obtain ⟨hunguarded, hzero⟩ := h
  cases call with
  | consumeReadData size =>
    rw [act?, consumeReadData?_eq, if_pos hzero]
    rfl
  | getWriteBuffer =>
    rw [act?, getWriteBuffer?_eq, if_pos ⟨hunguarded, hzero⟩]
    rfl
  | _ => cases hunguarded

/-! ## 3. Every run -/

open Refining

/-- A call of a run takes no remainder by 0. -/
def Divides (fresh : ℕ → UInt8) (w : World) (call : Call) : Prop :=
  (act? fresh w call).isSome = true

theorem divides_iff (fresh : ℕ → UInt8) {w : World}
    (hle : w.buffer.data_length_ ≤ w.buffer.buffer_length_) (call : Call) :
    Divides fresh w call ↔ ¬Trap w call := by
  unfold Divides
  by_cases h : Trap w call
  · rw [act?_trap fresh h]
    exact iff_of_false Bool.false_ne_true (not_not.2 h)
  · rw [act?_eq fresh hle h]
    exact iff_of_true rfl h

/-- A run of calls takes no remainder by 0 exactly where `ConsumeReadData` is not called, nor
`GetWriteBuffer` of an open buffer, while the capacity is 0. -/
theorem remainders_iff (fresh : ℕ → UInt8) (size : ℕ) (calls : List Call)
    (hcalls : Meets (step fresh) Within (start fresh size) calls) :
    Meets (step fresh) (Divides fresh) (start fresh size) calls
      ↔ Meets (step fresh) (fun w call => ¬Trap w call) (start fresh size) calls := by
  have hstart : (start fresh size).buffer.data_length_ ≤ (start fresh size).buffer.buffer_length_ :=
    Nat.zero_le _
  generalize start fresh size = w at hcalls hstart
  -- what the induction carries is that there are never more bytes than places
  induction calls generalizing w with
  | nil => exact Iff.rfl
  | cons call calls ih =>
    have hnext := ih _ hcalls.2 (step_le fresh hstart hcalls.1)
    exact and_congr (divides_iff fresh hstart call) hnext

/-- The last byte is taken out, and then there is no capacity to take a remainder by. -/
theorem remainders_iff_one :
    Meets (step fun _ => 0) (Divides fun _ => 0) (start (fun _ => 0) 1)
        [.write [1], .read 1, .setCapacity 0, .write [2], .consumeReadData 0]
      ↔ Meets (step fun _ => 0) (fun w call => ¬Trap w call) (start (fun _ => 0) 1)
        [.write [1], .read 1, .setCapacity 0, .write [2], .consumeReadData 0] :=
  remainders_iff _ 1 _ ⟨trivial, trivial, trivial, trivial, Nat.le_refl 0, trivial⟩

/-- A buffer of no places is asked for a place. -/
theorem place_of_nothing :
    ¬∀ (fresh : ℕ → UInt8) (size : ℕ) (calls : List Call),
      Meets (step fresh) Within (start fresh size) calls →
        Meets (step fresh) (Divides fresh) (start fresh size) calls := by
  intro hall
  have hdivides := (hall (fun _ => 0) 0 [.getWriteBuffer] ⟨trivial, trivial⟩).1
  have htrap : Trap (start (fun _ => 0) 0) .getWriteBuffer := ⟨StreamState.noConfusion, rfl⟩
  exact (divides_iff _ (Nat.le_refl 0) _).1 hdivides htrap

end Gxmpp.TalkBase.FifoBuffer
