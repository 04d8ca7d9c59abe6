/-
How full a `FifoBuffer` is, and what is posted when that changes.

Each call leaves the number of bytes as it is, takes some of them, puts some more, or changes the
capacity (`level`, `setCapacity_level`). From this alone it follows which calls wake somebody up.
A reader that found the buffer empty is told of the bytes that come next. A writer that found it
full is told of the room that comes next, unless it is `SetCapacity` that makes the room
(`wakes_iff`): that function posts nothing.
-/
import Gxmpp.FifoQueue

set_option autoImplicit false

namespace Gxmpp.TalkBase.FifoBuffer

/-! ## 1. What a call does to the level -/

/-- What the caller promises: sizes within what is there, and to store at no other place than was
given. Any capacity may be set. -/
def Within (w : World) : Call → Prop
  | .consumeReadData size => size ≤ w.buffer.data_length_
  | .consumeWriteBuffer size => size ≤ w.buffer.buffer_length_ - w.buffer.data_length_
  | .store i s => i + s.length ≤ w.offer.2
  | _ => True

instance (w : World) (call : Call) : Decidable (Within w call) :=
  match call with
  | .consumeReadData size => inferInstanceAs (Decidable (size ≤ w.buffer.data_length_))
  | .consumeWriteBuffer size =>
    inferInstanceAs (Decidable (size ≤ w.buffer.buffer_length_ - w.buffer.data_length_))
  | .store i s => inferInstanceAs (Decidable (i + s.length ≤ w.offer.2))
  | .read _ | .readOffset .. | .write _ | .writeOffset .. | .getReadData | .getWriteBuffer
  | .setCapacity _ | .getBuffered | .getWriteRemaining | .getState | .close => .isTrue trivial

/-- What is posted while the bytes of `b` become those of `c`, in a block of the same size. -/
inductive Level (b c : FifoBuffer) : List StreamEvent → Prop
  | still (hdata : c.data_length_ = b.data_length_) : Level b c []
  | taken (n : ℕ) (hn : n ≤ b.data_length_) (hdata : c.data_length_ = b.data_length_ - n) :
      Level b c (if ¬b.data_length_ < b.buffer_length_ ∧ n > 0 then [.SE_WRITE] else [])
  | put (n : ℕ) (hn : b.data_length_ + n ≤ b.buffer_length_)
      (hdata : c.data_length_ = b.data_length_ + n) :
      Level b c (if ¬b.data_length_ > 0 ∧ n > 0 then [.SE_READ] else [])

/-- The capacity is the same, and what is posted is what the level says. -/
def Goes (b c : FifoBuffer) : Prop :=
  c.buffer_length_ = b.buffer_length_
    ∧ ∃ events, c.posted = b.posted ++ events ∧ Level b c events

variable {b c : FifoBuffer}

theorem goes_still (hlength : c.buffer_length_ = b.buffer_length_)
    (hdata : c.data_length_ = b.data_length_) (hposted : c.posted = b.posted) : Goes b c :=
  ⟨hlength, [], hposted.trans (List.append_nil _).symm, .still hdata⟩

theorem goes_consumeReadData {n : ℕ} (hn : n ≤ b.data_length_) : Goes b (b.ConsumeReadData n) := by
  rw [consumeReadData_eq]
  exact ⟨rfl, _, rfl, .taken n hn rfl⟩

theorem goes_consumeWriteBuffer {n : ℕ} (hn : b.data_length_ + n ≤ b.buffer_length_) :
    Goes b (b.ConsumeWriteBuffer n) := by
  rw [consumeWriteBuffer_eq]
  exact ⟨rfl, _, rfl, .put n hn rfl⟩

theorem readOffset_le (bytes offset : ℕ) :
    (b.ReadOffsetLocked bytes offset).2.2 ≤ b.data_length_ - offset := by
  unfold ReadOffsetLocked
  split
  · exact Nat.zero_le _
  · exact Nat.min_le_right _ _

theorem goes_read (bytes : ℕ) : Goes b (b.Read bytes).1 := by
  have hle := readOffset_le (b := b) bytes 0
  unfold Read
  dsimp only
  split
  · exact goes_consumeReadData hle
  · exact goes_still rfl rfl rfl

/-- What is put into the room changes no level, and fits. -/
theorem writeOffset_level (data : Str) (offset : ℕ) :
    Goes b (b.WriteOffsetLocked data offset).1
      ∧ (b.WriteOffsetLocked data offset).1.data_length_ = b.data_length_
      ∧ (b.WriteOffsetLocked data offset).1.posted = b.posted
      ∧ (b.data_length_ ≤ b.buffer_length_ →
        b.data_length_ + (b.WriteOffsetLocked data offset).2.2 ≤ b.buffer_length_) := by
  unfold WriteOffsetLocked
  split_ifs with hclosed hfull
  · exact ⟨goes_still rfl rfl rfl, rfl, rfl, id⟩
  · exact ⟨goes_still rfl rfl rfl, rfl, rfl, id⟩
  · refine ⟨goes_still rfl rfl rfl, rfl, rfl, fun hle => ?_⟩
    show b.data_length_ + min data.length (b.buffer_length_ - b.data_length_ - offset)
      ≤ b.buffer_length_
    omega

theorem goes_write (hle : b.data_length_ ≤ b.buffer_length_) (data : Str) :
    Goes b (b.Write data).1 := by
  obtain ⟨hgoes, hdata, hposted, hfits⟩ := writeOffset_level (b := b) data 0
  have hlength := hgoes.1
  have hfits := hfits hle
  unfold Write
  dsimp only
  split
  · -- the bytes are put first, and the level that counts them is changed after that
    rw [← hdata, ← hlength] at hfits
    obtain ⟨hsame, events, hevents, hlevel⟩ := goes_consumeWriteBuffer hfits
    refine ⟨hsame.trans hlength, events, by rw [hevents, hposted], ?_⟩
    cases hlevel with
    | still h => exact .still (h.trans hdata)
    | taken n hn h =>
      rw [hdata, hlength]
      exact .taken n (hdata ▸ hn) (hdata ▸ h)
    | put n hn h =>
      rw [hdata]
      exact .put n (hdata ▸ hlength ▸ hn) (hdata ▸ h)
  · exact hgoes

theorem goes_getWriteBuffer : Goes b b.GetWriteBuffer.1 := by
  unfold GetWriteBuffer
  dsimp only
  by_cases hclosed : b.state_ = .SS_CLOSED
  · rw [if_pos hclosed]
    exact goes_still rfl rfl rfl
  · rw [if_neg hclosed]
    by_cases hempty : b.data_length_ = 0
    · rw [if_pos hempty]
      exact goes_still rfl rfl rfl
    · rw [if_neg hempty]
      exact goes_still rfl rfl rfl

section Step

variable {w : World} (fresh : ℕ → UInt8)

/-- What a call that is not `SetCapacity` does to the level. -/
theorem level {call : Call} (hle : w.buffer.data_length_ ≤ w.buffer.buffer_length_)
    (hcall : Within w call) (hset : ∀ n, call ≠ .setCapacity n) :
    (step fresh w call).1.buffer.buffer_length_ = w.buffer.buffer_length_
      ∧ Level w.buffer (step fresh w call).1.buffer (step fresh w call).2.2 := by
  have hgoes : Goes w.buffer (step fresh w call).1.buffer := by
    cases call with
    | read bytes => exact goes_read bytes
    | write data => exact goes_write hle data
    | writeOffset data offset => exact (writeOffset_level data offset).1
    | consumeReadData n => exact goes_consumeReadData hcall
    | consumeWriteBuffer n =>
      have hn : n ≤ w.buffer.buffer_length_ - w.buffer.data_length_ := hcall
      exact goes_consumeWriteBuffer (by omega)
    | getWriteBuffer =>
      have hget := goes_getWriteBuffer (b := w.buffer)
      unfold step act
      dsimp only
      split <;> rename_i heq <;> rw [heq] at hget <;> exact hget
    | setCapacity n => exact absurd rfl (hset n)
    | readOffset | getReadData | store | getBuffered | getWriteRemaining | getState | close =>
      exact goes_still rfl rfl rfl
  obtain ⟨hlength, events, hposted, hlevel⟩ := hgoes
  -- what is seen of a call is what was posted in it
  have hseen : (step fresh w call).2.2 = events := by
    show (step fresh w call).1.buffer.posted.drop w.buffer.posted.length = events
    rw [hposted, List.drop_left]
  exact ⟨hlength, hseen ▸ hlevel⟩

/-- `SetCapacity` changes the capacity where the bytes fit, and posts nothing. -/
theorem setCapacity_level (n : ℕ) :
    (step fresh w (.setCapacity n)).2.2 = []
      ∧ (step fresh w (.setCapacity n)).1.buffer.data_length_ = w.buffer.data_length_
      ∧ (step fresh w (.setCapacity n)).1.buffer.buffer_length_
        = if w.buffer.data_length_ > n then w.buffer.buffer_length_ else n := by
  unfold step act SetCapacity
  dsimp only
  split_ifs with hfits hother
  · exact ⟨List.drop_length, rfl, rfl⟩
  · exact ⟨List.drop_length, rfl, rfl⟩
  · exact ⟨List.drop_length, rfl, (not_not.1 hother).symm⟩

/-- There are never more bytes than places. -/
theorem step_le {call : Call} (hle : w.buffer.data_length_ ≤ w.buffer.buffer_length_)
    (hcall : Within w call) :
    (step fresh w call).1.buffer.data_length_ ≤ (step fresh w call).1.buffer.buffer_length_ := by
  by_cases hset : ∃ n, call = .setCapacity n
  · obtain ⟨n, rfl⟩ := hset
    obtain ⟨-, hdata, hlength⟩ := setCapacity_level (w := w) fresh n
    rw [hdata, hlength]
    split_ifs <;> omega
  · obtain ⟨hlength, hlevel⟩ := level fresh hle hcall (not_exists.1 hset)
    rw [hlength]
    generalize (step fresh w call).2.2 = events at hlevel
    cases hlevel with
    | still | taken | put => omega

end Step

/-! ## 2. Who is told -/

open Refining

section Wake

variable (fresh : ℕ → UInt8)

/-- No byte can be written. -/
def Full (w : World) : Prop := w.buffer.buffer_length_ ≤ w.buffer.data_length_

/-- No byte can be read. -/
def Empty (w : World) : Prop := w.buffer.data_length_ = 0

/-- A `Write` that returns `SR_BLOCK`. -/
def WriteBlocks (call : Call) (seen : Answer × List StreamEvent) : Prop :=
  ∃ data n, call = .write data ∧ seen.1 = .written .SR_BLOCK n

/-- A `Read` that returns `SR_BLOCK`. -/
def ReadBlocks (call : Call) (seen : Answer × List StreamEvent) : Prop :=
  ∃ bytes s n, call = .read bytes ∧ seen.1 = .read .SR_BLOCK s n

/-- When there is room for the first time since a `Write` blocked, the writer is told. -/
def WakesWriter (w : World) (calls : List Call) : Prop :=
  ∀ x call, Waits (step fresh) WriteBlocks Full w calls x call → ¬Full (step fresh x call).1 →
    .SE_WRITE ∈ (step fresh x call).2.2

/-- When there are bytes for the first time since a `Read` blocked, the reader is told. -/
def WakesReader (w : World) (calls : List Call) : Prop :=
  ∀ x call, Waits (step fresh) ReadBlocks Empty w calls x call → ¬Empty (step fresh x call).1 →
    .SE_READ ∈ (step fresh x call).2.2

/-- While a `Write` is blocked, the capacity is not set to more than the bytes that are there. -/
def KeepsBlocked (w : World) (calls : List Call) : Prop :=
  ∀ x n, Waits (step fresh) WriteBlocks Full w calls x (.setCapacity n) →
    n ≤ x.buffer.data_length_

variable {fresh} {w x : World} {call : Call}

/-- Room in a full buffer is told of, but where `SetCapacity` makes it. -/
theorem writer_told (hle : x.buffer.data_length_ ≤ x.buffer.buffer_length_)
    (hcall : Within x call) (hfull : Full x) (hroom : ¬Full (step fresh x call).1)
    (hset : ∀ n, call ≠ .setCapacity n) : .SE_WRITE ∈ (step fresh x call).2.2 := by
  unfold Full at hfull hroom
  obtain ⟨hlength, hlevel⟩ := level fresh hle hcall hset
  rw [hlength] at hroom
  generalize (step fresh x call).2.2 = events at hlevel ⊢
  cases hlevel with
  | still h => exact absurd (h.symm ▸ hfull) hroom
  | taken n hn h =>
    -- the buffer was full, and more than no bytes were taken
    rw [if_pos (by omega)]
    exact List.mem_singleton_self _
  | put n hn h => omega

/-- Bytes in an empty buffer are told of. -/
theorem reader_told (hle : x.buffer.data_length_ ≤ x.buffer.buffer_length_)
    (hcall : Within x call) (hempty : Empty x) (hbytes : ¬Empty (step fresh x call).1) :
    .SE_READ ∈ (step fresh x call).2.2 := by
  unfold Empty at hempty hbytes
  by_cases hset : ∃ n, call = .setCapacity n
  · obtain ⟨n, rfl⟩ := hset
    rw [(setCapacity_level fresh n).2.1] at hbytes
    exact absurd hempty hbytes
  · obtain ⟨-, hlevel⟩ := level fresh hle hcall (not_exists.1 hset)
    generalize (step fresh x call).2.2 = events at hlevel ⊢
    cases hlevel with
    | still h => exact absurd (h.trans hempty) hbytes
    | taken n hn h => omega
    | put n hn h =>
      rw [if_pos (by omega)]
      exact List.mem_singleton_self _

/-- `SetCapacity` makes room in a full buffer exactly where it is set to more than the bytes. -/
theorem setCapacity_full (hfull : Full x) (n : ℕ) :
    Full (step fresh x (.setCapacity n)).1 ↔ n ≤ x.buffer.data_length_ := by
  unfold Full at *
  obtain ⟨-, hdata, hlength⟩ := setCapacity_level (w := x) fresh n
  rw [hdata, hlength]
  split_ifs <;> omega

/-- A blocked reader is told of the bytes that come next, in every run. A blocked writer is told of
the room that comes next exactly where it is not `SetCapacity` that makes it. -/
theorem wakes_iff (fresh : ℕ → UInt8) (size : ℕ) (calls : List Call)
    (hcalls : Meets (step fresh) Within (start fresh size) calls) :
    (WakesWriter fresh (start fresh size) calls ∧ WakesReader fresh (start fresh size) calls)
      ↔ KeepsBlocked fresh (start fresh size) calls := by
  have hkept : ∀ w call, w.buffer.data_length_ ≤ w.buffer.buffer_length_ → Within w call →
      (step fresh w call).1.buffer.data_length_ ≤ (step fresh w call).1.buffer.buffer_length_ :=
    fun w call hle hcall => step_le fresh hle hcall
  have hstart : (start fresh size).buffer.data_length_ ≤ (start fresh size).buffer.buffer_length_ :=
    Nat.zero_le _
  constructor
  · rintro ⟨hwriter, -⟩ x n hwaits
    obtain ⟨hfull, -, -⟩ := hwaits.state hkept hstart hcalls
    -- nothing is posted, so there is no room
    by_contra hmore
    have htold := hwriter x _ hwaits (mt (setCapacity_full hfull n).1 hmore)
    rw [(setCapacity_level fresh n).1] at htold
    cases htold
  · -- any other call that makes room tells of it
    intro hblocked
    refine ⟨fun x call hwaits hroom => ?_, fun x call hwaits hbytes => ?_⟩
    · obtain ⟨hfull, hle, hcall⟩ := hwaits.state hkept hstart hcalls
      refine writer_told hle hcall hfull hroom ?_
      rintro n rfl
      exact hroom ((setCapacity_full hfull n).2 (hblocked x n hwaits))
    · obtain ⟨hempty, hle, hcall⟩ := hwaits.state hkept hstart hcalls
      exact reader_told hle hcall hempty hbytes

/-- A byte is written, read, and waited for. -/
theorem wakes_iff_one :
    (WakesWriter (fun _ => 0) (start (fun _ => 0) 1) [.write [1], .write [2], .read 1, .read 1]
      ∧ WakesReader (fun _ => 0) (start (fun _ => 0) 1) [.write [1], .write [2], .read 1, .read 1])
      ↔ KeepsBlocked (fun _ => 0) (start (fun _ => 0) 1)
        [.write [1], .write [2], .read 1, .read 1] :=
  wakes_iff _ 1 _ ⟨trivial, trivial, trivial, trivial, trivial⟩

/-- A `Write` blocks on a buffer of one byte that is full, and `SetCapacity` makes room for another
one without a word. -/
theorem room_untold :
    ¬∀ (fresh : ℕ → UInt8) (size : ℕ) (calls : List Call),
      Meets (step fresh) Within (start fresh size) calls →
        WakesWriter fresh (start fresh size) calls
          ∧ WakesReader fresh (start fresh size) calls := by
  intro hall
  have hwriter := (hall (fun _ => 0) 1 [.write [1], .write [2], .setCapacity 2]
    ⟨trivial, trivial, trivial, trivial⟩).1
  have hwaits : Waits (step fun _ => 0) WriteBlocks Full (start (fun _ => 0) 1)
      [.write [1], .write [2], .setCapacity 2]
      (run (step fun _ => 0) (start (fun _ => 0) 1) [.write [1], .write [2]])
      (.setCapacity 2) := by
    refine ⟨[.write [1]], .write [2], [], [], rfl, ⟨[2], 0, rfl, rfl⟩, fun l hl => ?_, rfl⟩
    rw [List.prefix_nil.1 hl]
    show 1 ≤ 1
    exact Nat.le_refl 1
  have htold := hwriter _ _ hwaits (by show ¬2 ≤ 1; decide)
  have hnone := (setCapacity_level (fun _ => 0)
    (w := run (step fun _ => 0) (start (fun _ => 0) 1) [.write [1], .write [2]]) 2).1
  rw [hnone] at htold
  cases htold

end Wake

end Gxmpp.TalkBase.FifoBuffer
