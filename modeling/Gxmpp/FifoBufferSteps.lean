/-
What the functions of `FifoBuffer` do.

Read from its first byte on, the block is the content of the buffer, followed by the room for
more. A read makes room of what it takes, a write content of what it puts into the room, and how
the content lies in the block makes no difference. A place for a write is given at the start of the
room, up to the end of the block at most, and what is stored there is in the room.
-/
import Gxmpp.FifoBuffer

set_option autoImplicit false

namespace Gxmpp.TalkBase.FifoBuffer

open Ring

/-! ## 1. Content and room -/

/-- The counters are inside of the block. -/
structure Wf (b : FifoBuffer) : Prop where
  length_buffer : b.buffer_.length = b.buffer_length_
  read_lt : b.read_position_ < b.buffer_length_
  data_le : b.data_length_ ≤ b.buffer_length_

/-- The block, from the first byte of the content on. -/
def ring (b : FifoBuffer) : Str := b.buffer_.rotate b.read_position_

def content (b : FifoBuffer) : Str := b.ring.take b.data_length_

def room (b : FifoBuffer) : Str := b.ring.drop b.data_length_

variable {b : FifoBuffer}

theorem Wf.length_ring (h : b.Wf) : b.ring.length = b.buffer_length_ :=
  (List.length_rotate _ _).trans h.length_buffer

theorem Wf.length_content (h : b.Wf) : b.content.length = b.data_length_ :=
  List.length_take_of_le (h.length_ring.symm ▸ h.data_le)

theorem Wf.length_room (h : b.Wf) : b.room.length = b.buffer_length_ - b.data_length_ := by
  unfold room
  rw [List.length_drop, h.length_ring]

/-- Going on by `n` bytes of the content makes room of them. -/
theorem forward_spec (h : b.Wf) {n : ℕ} (hn : n ≤ b.data_length_) :
    let c : FifoBuffer :=
      { b with
        read_position_ := (b.read_position_ + n) % b.buffer_length_
        data_length_ := b.data_length_ - n }
    c.Wf ∧ c.content = b.content.drop n ∧ c.room = b.room ++ b.content.take n := by
  have hring := h.length_ring
  have hdata := h.data_le
  have hread := h.read_lt
  have hadvance := rotate_advance (m := b.buffer_) (p := b.read_position_) (n := n)
    (by rw [h.length_buffer]; omega)
  rw [h.length_buffer] at hadvance
  have hdrop : (b.ring.drop n).length = b.buffer_length_ - n := by
    rw [List.length_drop, hring]
  intro c
  have hc : c.ring = b.ring.drop n ++ b.ring.take n := hadvance
  have hle : b.data_length_ - n ≤ b.buffer_length_ := by omega
  refine ⟨⟨h.length_buffer, Nat.mod_lt _ (by omega), hle⟩, ?_, ?_⟩
  · show c.ring.take (b.data_length_ - n) = (b.ring.take b.data_length_).drop n
    rw [hc, List.take_append_of_le_length (by omega), List.drop_take]
  · show c.ring.drop (b.data_length_ - n)
        = b.ring.drop b.data_length_ ++ (b.ring.take b.data_length_).take n
    rw [hc, List.drop_append_of_le_length (by omega), List.drop_drop, Nat.add_sub_cancel' hn,
      List.take_take, Nat.min_eq_left hn]

/-- The first bytes of the room become content. -/
theorem commit_spec (h : b.Wf) {n : ℕ} (hn : n ≤ b.room.length) :
    let c : FifoBuffer := { b with data_length_ := b.data_length_ + n }
    c.Wf ∧ c.content = b.content ++ b.room.take n ∧ c.room = b.room.drop n := by
  have hdata := h.data_le
  rw [h.length_room] at hn
  have hle : b.data_length_ + n ≤ b.buffer_length_ := by omega
  intro c
  refine ⟨⟨h.length_buffer, h.read_lt, hle⟩, ?_, ?_⟩
  · exact List.take_add
  · exact (List.drop_drop).symm

/-- What changes the ring behind the content changes the room. -/
theorem store_spec (h : b.Wf) {memory s : Str} {k : ℕ}
    (hlength : memory.length = b.buffer_length_)
    (hring : memory.rotate b.read_position_ = put b.ring (b.data_length_ + k) s) :
    let c : FifoBuffer := { b with buffer_ := memory }
    c.Wf ∧ c.content = b.content ∧ c.room = put b.room k s := by
  obtain ⟨htake, hdrop⟩ := put_add (m := b.ring) (k := k) (s := s)
    (h.length_ring.symm ▸ h.data_le)
  intro c
  refine ⟨⟨hlength, h.read_lt, h.data_le⟩, ?_, ?_⟩
  · show (memory.rotate b.read_position_).take b.data_length_ = b.content
    rw [hring]
    exact htake
  · show (memory.rotate b.read_position_).drop b.data_length_ = put b.room k s
    rw [hring]
    exact hdrop

/-! ## 2. What the functions do -/

/-- Bytes are got from the content, from `offset` on. -/
theorem readOffset_spec (h : b.Wf) (bytes offset : ℕ) :
    b.ReadOffsetLocked bytes offset = if b.content.length ≤ offset then
        (if b.state_ ≠ .SS_CLOSED then .SR_BLOCK else .SR_EOS, [], 0)
      else
        (.SR_SUCCESS, (b.content.drop offset).take bytes,
          min bytes (b.content.length - offset)) := by
  have hdata := h.data_le
  have hread := h.read_lt
  have hbuffer := h.length_buffer
  have hring := h.length_ring
  unfold ReadOffsetLocked
  rw [h.length_content]
  by_cases hoffset : b.data_length_ ≤ offset
  · rw [if_pos hoffset, if_pos hoffset]
  · have hplace : (b.read_position_ + offset) % b.buffer_length_ < b.buffer_.length := by
      rw [hbuffer]
      exact Nat.mod_lt _ (by omega)
    have htwo := take_two (n := min bytes (b.data_length_ - offset)) hplace (by omega)
    have hadvance := rotate_advance (m := b.buffer_) (p := b.read_position_)
      (n := offset) (by omega)
    rw [hbuffer] at htwo hadvance
    rw [if_neg hoffset, if_neg hoffset]
    dsimp only
    rw [htwo, hadvance]
    have hleft : min bytes (b.data_length_ - offset) ≤ (b.ring.drop offset).length := by
      rw [List.length_drop, hring]
      omega
    have hcontent : (b.content.drop offset).take bytes
        = (b.ring.drop offset).take (min bytes (b.data_length_ - offset)) := by
      unfold content
      rw [List.drop_take, List.take_take]
    rw [hcontent]
    exact congrArg (fun s => (StreamResult.SR_SUCCESS, s, _))
      (List.take_append_of_le_length hleft)

/-- Bytes are put into the room, from `offset` on, as many as there is room for. -/
theorem writeOffset_spec (h : b.Wf) (hstate : b.state_ ≠ .SS_CLOSED) (data : Str) {offset : ℕ}
    (hoffset : offset < b.room.length) :
    ∃ c : FifoBuffer, b.WriteOffsetLocked data offset
        = (c, .SR_SUCCESS, min data.length (b.room.length - offset))
      ∧ c.Wf ∧ c.content = b.content
      ∧ c.room = put b.room offset (data.take (b.room.length - offset))
      ∧ ∃ memory, c = { b with buffer_ := memory } := by
  have hdata := h.data_le
  have hread := h.read_lt
  have hbuffer := h.length_buffer
  rw [h.length_room] at hoffset ⊢
  unfold WriteOffsetLocked
  rw [if_neg hstate, if_neg (show ¬b.data_length_ + offset ≥ b.buffer_length_ by omega)]
  dsimp only
  -- the bytes that there is room for, and the two pieces of them
  set bytes := data.take (b.buffer_length_ - b.data_length_ - offset) with hbytes
  have hlength : bytes.length = min data.length (b.buffer_length_ - b.data_length_ - offset) := by
    rw [hbytes, List.length_take, Nat.min_comm]
  have hcopy : data.take bytes.length = bytes := by
    rw [hbytes, List.length_take]
    apply List.take_eq_take_iff.2
    omega
  have hpieces : ∀ n, n ≤ bytes.length →
      data.take n = bytes.take n ∧ (data.drop n).take (bytes.length - n) = bytes.drop n := by
    intro n hn
    constructor
    · rw [← hcopy, List.take_take, Nat.min_eq_left hn]
    · rw [← List.drop_take, hcopy]
  rw [← hlength]
  obtain ⟨hfirst, hsecond⟩ := hpieces (min bytes.length (b.buffer_length_
    - (b.read_position_ + b.data_length_ + offset) % b.buffer_length_)) (Nat.min_le_left _ _)
  obtain ⟨hring, hmemory⟩ := rotate_put_two (m := b.buffer_) (s := bytes)
    (p := b.read_position_) (k := b.data_length_ + offset) (hbuffer.symm ▸ hread) (by omega)
  rw [hbuffer, ← Nat.add_assoc] at hring hmemory
  rw [hfirst, hsecond]
  obtain ⟨hwf, hcontent, hroom⟩ := store_spec h hmemory hring
  exact ⟨_, rfl, hwf, hcontent, hroom, _, rfl⟩

/-- What is read at the place that `GetReadData` gives is the first bytes of the content. -/
theorem getReadData_spec (h : b.Wf) :
    (b.buffer_.drop b.GetReadData.1).take b.GetReadData.2 = b.content.take b.GetReadData.2
      ∧ b.GetReadData.2 ≤ b.content.length ∧ (b.content ≠ [] → 0 < b.GetReadData.2) := by
  have hdata := h.data_le
  have hread := h.read_lt
  have hbuffer := h.length_buffer
  have hlength := h.length_content
  have hsize : b.GetReadData.2 ≤ b.data_length_
      ∧ b.GetReadData.2 ≤ b.buffer_length_ - b.read_position_
      ∧ (0 < b.data_length_ → 0 < b.GetReadData.2) := by
    unfold GetReadData
    dsimp only
    split <;> omega
  obtain ⟨hle, hend, hpos⟩ := hsize
  refine ⟨?_, hlength.symm ▸ hle, ?_⟩
  · have hdrop : (b.buffer_.drop b.read_position_).length
        = b.buffer_length_ - b.read_position_ := by
      rw [List.length_drop, hbuffer]
    unfold content ring
    rw [List.take_take, Nat.min_eq_left hle,
      List.rotate_eq_drop_append_take (show b.read_position_ ≤ b.buffer_.length by omega),
      List.take_append_of_le_length (hdrop.symm ▸ hend)]
    rfl
  · intro hcontent
    apply hpos
    rw [← hlength]
    exact List.length_pos_iff.2 hcontent

/-- A place is given at the start of the room, up to the end of it or of the block. An empty
buffer is turned so that it begins at the start of the block, and then all of it is given. -/
theorem getWriteBuffer_spec (h : b.Wf) (hstate : b.state_ ≠ .SS_CLOSED) :
    ∃ (c : FifoBuffer) (size : ℕ),
      b.GetWriteBuffer = (c, some ((c.read_position_ + c.data_length_) % c.buffer_length_, size))
      ∧ c.Wf ∧ c.content = b.content ∧ c.room.length = b.room.length
      ∧ (b.content ≠ [] → c = b) ∧ (∃ first, c = { b with read_position_ := first })
      ∧ size ≤ b.room.length ∧ (b.room ≠ [] → 0 < size)
      ∧ (b.content = [] → size = b.room.length)
      ∧ (c.read_position_ + c.data_length_) % c.buffer_length_ + size ≤ c.buffer_length_ := by
  have hdata := h.data_le
  have hread := h.read_lt
  have hempty : b.content = [] ↔ b.data_length_ = 0 := by
    rw [← List.length_eq_zero_iff, h.length_content]
  have hnone : b.room = [] ↔ b.buffer_length_ - b.data_length_ = 0 := by
    rw [← List.length_eq_zero_iff, h.length_room]
  unfold GetWriteBuffer
  rw [if_neg hstate]
  dsimp only
  by_cases hzero : b.data_length_ = 0
  · -- turned to the start of the block
    have hwf : ({ b with read_position_ := 0 } : FifoBuffer).Wf :=
      ⟨h.length_buffer, show 0 < b.buffer_length_ by omega, hdata⟩
    rw [if_pos hzero]
    refine ⟨_, _, rfl, hwf, ?_, ?_, ?_, ⟨_, rfl⟩, ?_⟩
    · rw [hempty.2 hzero, ← List.length_eq_zero_iff, hwf.length_content]
      exact hzero
    · rw [hwf.length_room, h.length_room]
    · exact fun hcontent => absurd (hempty.2 hzero) hcontent
    · have hplace : (0 + b.data_length_) % b.buffer_length_ = 0 := by
        rw [hzero, Nat.zero_add, Nat.zero_mod]
      rw [h.length_room, hempty, Ne, hnone]
      dsimp only
      rw [hplace, if_pos (Or.inr hzero)]
      omega
  · rw [if_neg hzero]
    refine ⟨b, _, rfl, h, rfl, rfl, fun _ => rfl, ⟨_, rfl⟩, ?_⟩
    have hplace := mod_of_lt_two
      (show b.read_position_ + b.data_length_ < b.buffer_length_ + b.buffer_length_ by omega)
    rw [h.length_room, hempty, Ne, hnone]
    generalize (b.read_position_ + b.data_length_) % b.buffer_length_ = place at hplace
    split at hplace <;> split <;> omega

/-- What is stored inside of the place that was given is put into the room. -/
theorem store_place (h : b.Wf) {place size i : ℕ} {s : Str}
    (hplace : place = (b.read_position_ + b.data_length_) % b.buffer_length_)
    (hsize : size ≤ b.room.length) (hend : place + size ≤ b.buffer_length_)
    (hi : i + s.length ≤ size) :
    (b.Store (place + i) s).Wf ∧ (b.Store (place + i) s).content = b.content
      ∧ (b.Store (place + i) s).room = put b.room i s := by
  have hdata := h.data_le
  have hbuffer := h.length_buffer
  rw [h.length_room] at hsize
  unfold Store
  by_cases hnil : s = []
  · rw [hnil, put_nil, put_nil]
    exact ⟨h, rfl, rfl⟩
  have hpos := List.length_pos_iff.2 hnil
  have hround : (b.read_position_ + (b.data_length_ + i)) % b.buffer_.length = place + i := by
    rw [hbuffer, ← Nat.add_assoc, ← Nat.mod_add_mod, ← hplace]
    exact Nat.mod_eq_of_lt (by omega)
  have hblock : place + i + s.length ≤ b.buffer_.length := by omega
  have hring := rotate_put (m := b.buffer_) (s := s) (hbuffer.symm ▸ h.read_lt)
    (show b.data_length_ + i + s.length ≤ _ by omega) (hround.symm ▸ hblock)
  rw [hround] at hring
  exact store_spec h ((length_put hblock).trans hbuffer) hring

/-- What `SetCapacity` copies into a new block. -/
theorem copied (fresh : ℕ → UInt8) (h : b.Wf) {n : ℕ} (hn : b.data_length_ ≤ n) :
    ∃ memory,
      put (put (ByteBuffer.newBlock fresh n) 0
          ((b.buffer_.drop b.read_position_).take
            (min b.data_length_ (b.buffer_length_ - b.read_position_))))
        (min b.data_length_ (b.buffer_length_ - b.read_position_))
        (b.buffer_.take (b.data_length_
          - min b.data_length_ (b.buffer_length_ - b.read_position_))) = memory
      ∧ memory.length = n ∧ memory.take b.data_length_ = b.content := by
  have hdata := h.data_le
  have hread := h.read_lt
  have hbuffer := h.length_buffer
  have hnew := ByteBuffer.length_newBlock fresh n
  have htwo := take_two (m := b.buffer_) (n := b.data_length_) (hbuffer.symm ▸ hread)
    (hbuffer.symm ▸ hdata)
  rw [hbuffer] at htwo
  generalize htail : min b.data_length_ (b.buffer_length_ - b.read_position_) = tail at htwo ⊢
  have hfirst : ((b.buffer_.drop b.read_position_).take tail).length = tail := by
    rw [List.length_take, List.length_drop]
    omega
  have hsecond : (b.buffer_.take (b.data_length_ - tail)).length = b.data_length_ - tail := by
    rw [List.length_take]
    omega
  have hput := put_put (m := ByteBuffer.newBlock fresh n) (i := 0)
    (s := (b.buffer_.drop b.read_position_).take tail)
    (t := b.buffer_.take (b.data_length_ - tail)) (by omega)
  rw [Nat.zero_add, hfirst, htwo] at hput
  have hlength : (List.take b.data_length_ (b.buffer_.rotate b.read_position_)).length
      = b.data_length_ := h.length_content
  rw [hput]
  refine ⟨_, rfl, (length_put (by omega)).trans hnew, ?_⟩
  rw [put_zero]
  exact List.take_left' hlength

/-- The content is kept, if it fits. -/
theorem setCapacity_spec (fresh : ℕ → UInt8) (h : b.Wf) {n : ℕ} (hpos : 0 < n) :
    b.SetCapacity fresh n = (b, false) ∧ n < b.content.length
      ∨ b.SetCapacity fresh n = (b, true) ∧ b.content.length ≤ n
        ∧ n = b.content.length + b.room.length
      ∨ ∃ c : FifoBuffer, b.SetCapacity fresh n = (c, true) ∧ b.content.length ≤ n
        ∧ n ≠ b.content.length + b.room.length ∧ c.Wf ∧ c.content = b.content
        ∧ c.content.length + c.room.length = n ∧ c.buffer_length_ = n
        ∧ c.state_ = b.state_ ∧ c.posted = b.posted := by
  have hdata := h.data_le
  have hbuffer := h.length_buffer
  have hcontent := h.length_content
  have hroom := h.length_room
  unfold SetCapacity
  by_cases hfits : b.data_length_ > n
  · rw [if_pos hfits]
    exact Or.inl ⟨rfl, by omega⟩
  · rw [if_neg hfits]
    by_cases hsame : n ≠ b.buffer_length_
    · rw [if_pos hsame]
      -- the two pieces of the content are copied to the start of a new block
      obtain ⟨memory, hmemory, hcopied⟩ := copied fresh h (n := n) (by omega)
      have hring : memory.rotate 0 = memory := List.rotate_zero memory
      have hwf : ({ b with buffer_ := memory, read_position_ := 0, buffer_length_ := n }
          : FifoBuffer).Wf :=
        ⟨hcopied.1, hpos, Nat.le_of_not_lt hfits⟩
      have hkept : (memory.rotate 0).take b.data_length_ = b.content := by
        rw [hring, hcopied.2]
      refine Or.inr (Or.inr ⟨_, rfl, by omega, by omega, ?_⟩)
      rw [hmemory]
      refine ⟨hwf, hkept, ?_, rfl, rfl, rfl⟩
      rw [hwf.length_content, hwf.length_room]
      show b.data_length_ + (n - b.data_length_) = n
      omega
    · rw [if_neg hsame]
      exact Or.inr (Or.inl ⟨rfl, by omega, by omega⟩)

theorem Wf.room_nil_iff (h : b.Wf) : b.room = [] ↔ ¬b.data_length_ < b.buffer_length_ := by
  rw [← List.length_eq_zero_iff, h.length_room]
  omega

theorem Wf.content_nil_iff (h : b.Wf) : b.content = [] ↔ ¬b.data_length_ > 0 := by
  rw [← List.length_eq_zero_iff, h.length_content]
  omega

theorem consumeReadData_eq (b : FifoBuffer) (n : ℕ) :
    b.ConsumeReadData n =
      { b with
        read_position_ := (b.read_position_ + n) % b.buffer_length_
        data_length_ := b.data_length_ - n
        posted := b.posted
          ++ if ¬b.data_length_ < b.buffer_length_ ∧ n > 0 then [.SE_WRITE] else [] } := by
  unfold ConsumeReadData PostEvent
  dsimp only
  by_cases hpost : ¬b.data_length_ < b.buffer_length_ ∧ n > 0
  · rw [if_pos hpost, if_pos hpost]
  · rw [if_neg hpost, if_neg hpost, List.append_nil]

theorem consumeWriteBuffer_eq (b : FifoBuffer) (n : ℕ) :
    b.ConsumeWriteBuffer n =
      { b with
        data_length_ := b.data_length_ + n
        posted := b.posted ++ if ¬b.data_length_ > 0 ∧ n > 0 then [.SE_READ] else [] } := by
  unfold ConsumeWriteBuffer PostEvent
  dsimp only
  by_cases hpost : ¬b.data_length_ > 0 ∧ n > 0
  · rw [if_pos hpost, if_pos hpost]
  · rw [if_neg hpost, if_neg hpost, List.append_nil]

/-- The place behind the content, which is where the room begins. -/
def writePlace (b : FifoBuffer) : ℕ := (b.read_position_ + b.data_length_) % b.buffer_length_

/-- What is consumed becomes room, and that there is room again is posted. -/
theorem consumeReadData_spec (h : b.Wf) {n : ℕ} (hn : n ≤ b.content.length) :
    (b.ConsumeReadData n).Wf ∧ (b.ConsumeReadData n).content = b.content.drop n
      ∧ (b.ConsumeReadData n).room = b.room ++ b.content.take n
      ∧ (b.ConsumeReadData n).posted = b.posted
        ++ (if b.room = [] ∧ (b.ConsumeReadData n).room ≠ [] then [.SE_WRITE] else [])
      ∧ (b.ConsumeReadData n).state_ = b.state_
      ∧ (b.ConsumeReadData n).buffer_length_ = b.buffer_length_
      ∧ (b.ConsumeReadData n).writePlace = b.writePlace := by
  have hlength := h.length_content
  obtain ⟨hwf, hcontent, hroom⟩ := forward_spec h (n := n) (by omega)
  have hplace : ((b.read_position_ + n) % b.buffer_length_ + (b.data_length_ - n))
      % b.buffer_length_ = (b.read_position_ + b.data_length_) % b.buffer_length_ := by
    rw [Nat.mod_add_mod]
    congr 1
    omega
  have hevent : (b.room = [] ∧ b.room ++ b.content.take n ≠ [])
      ↔ ¬b.data_length_ < b.buffer_length_ ∧ n > 0 := by
    rw [h.room_nil_iff]
    refine and_congr_right ?_
    intro hfull
    have htake : (b.content.take n).length = n := List.length_take_of_le hn
    rw [h.room_nil_iff.2 hfull, List.nil_append, ← List.length_pos_iff, htake]
  rw [← hroom] at hevent
  rw [consumeReadData_eq]
  refine ⟨{ hwf with }, hcontent, hroom, ?_, rfl, rfl, hplace⟩
  exact congrArg (b.posted ++ ·) (if_congr hevent.symm rfl rfl)

/-- What is consumed becomes content, and that there is content again is posted. -/
theorem consumeWriteBuffer_spec (h : b.Wf) {n : ℕ} (hn : n ≤ b.room.length) :
    (b.ConsumeWriteBuffer n).Wf
      ∧ (b.ConsumeWriteBuffer n).content = b.content ++ b.room.take n
      ∧ (b.ConsumeWriteBuffer n).room = b.room.drop n
      ∧ (b.ConsumeWriteBuffer n).posted = b.posted
        ++ (if b.content = [] ∧ (b.ConsumeWriteBuffer n).content ≠ [] then [.SE_READ] else [])
      ∧ (b.ConsumeWriteBuffer n).state_ = b.state_
      ∧ (b.ConsumeWriteBuffer n).buffer_length_ = b.buffer_length_
      ∧ (b.ConsumeWriteBuffer n).writePlace = (b.writePlace + n) % b.buffer_length_ := by
  obtain ⟨hwf, hcontent, hroom⟩ := commit_spec h hn
  have hplace : (b.read_position_ + (b.data_length_ + n)) % b.buffer_length_
      = ((b.read_position_ + b.data_length_) % b.buffer_length_ + n) % b.buffer_length_ := by
    rw [Nat.mod_add_mod, Nat.add_assoc]
  have hevent : (b.content = [] ∧ b.content ++ b.room.take n ≠ [])
      ↔ ¬b.data_length_ > 0 ∧ n > 0 := by
    rw [h.content_nil_iff]
    refine and_congr_right ?_
    intro hempty
    have htake : (b.room.take n).length = n := List.length_take_of_le hn
    rw [h.content_nil_iff.2 hempty, List.nil_append, ← List.length_pos_iff, htake]
  rw [← hcontent] at hevent
  rw [consumeWriteBuffer_eq]
  refine ⟨{ hwf with }, hcontent, hroom, ?_, rfl, rfl, hplace⟩
  exact congrArg (b.posted ++ ·) (if_congr hevent.symm rfl rfl)

end Gxmpp.TalkBase.FifoBuffer
