/-
A `MemoryStream` is an array of bytes that grows, with a position in it.

A write puts bytes over those at the position, and over the end where there are too many
(`Growable.overwrite`). It may put only some of them there, since the block grows only when there
is no place at all; `WriteAll` goes on until all are. What the block holds behind the data is never
seen (`stream_follows`).
-/
import Gxmpp.MemoryStream
import Gxmpp.Refining

set_option autoImplicit false

namespace Gxmpp.TalkBase.MemoryStream

open Ring

/-! ## 1. What the functions do -/

/-- The counters are in order, and inside of the block. -/
structure Wf (m : MemoryStream) : Prop where
  length_buffer : m.buffer_.length = m.buffer_length_
  seek_le : m.seek_position_ ≤ m.data_length_
  data_le : m.data_length_ ≤ m.buffer_length_

def content (m : MemoryStream) : Str := m.buffer_.take m.data_length_

variable {m c : MemoryStream}

theorem Wf.length_content (h : m.Wf) : m.content.length = m.data_length_ :=
  List.length_take_of_le (h.length_buffer.symm ▸ h.data_le)

theorem new_wf : new.Wf := ⟨rfl, Nat.le_refl 0, Nat.le_refl 0⟩

theorem setData_spec (fresh : ℕ → UInt8) (data : Str) :
    (SetData fresh data).Wf ∧ (SetData fresh data).content = data := by
  have hblock := ByteBuffer.length_newBlock fresh data.length
  have hput : put (ByteBuffer.newBlock fresh data.length) 0 data = data := by
    rw [put_zero, List.drop_eq_nil_of_le (Nat.le_of_eq hblock), List.append_nil]
  unfold SetData content
  rw [hput]
  exact ⟨⟨rfl, Nat.zero_le _, Nat.le_refl _⟩, List.take_length⟩

/-- A larger block holds what the old one did. -/
theorem doReserve_spec (fresh : ℕ → UInt8) (h : m.Wf) (size : ℕ) :
    ∃ c, m.DoReserve fresh size = (c, .SR_SUCCESS) ∧ c.Wf ∧ c.content = m.content
      ∧ c.seek_position_ = m.seek_position_ ∧ size ≤ c.buffer_length_ := by
  have hdata := h.data_le
  have hlength := h.length_content
  unfold DoReserve
  split_ifs with hlarge
  · exact ⟨m, rfl, h, rfl, rfl, hlarge⟩
  · -- what is in use is put at the front of the larger block
    have hblock := ByteBuffer.length_newBlock fresh size
    have hfits : 0 + (m.buffer_.take m.data_length_).length
        ≤ (ByteBuffer.newBlock fresh size).length := by
      rw [hblock]
      show 0 + m.content.length ≤ size
      omega
    refine ⟨_, rfl, ⟨?_, h.seek_le, ?_⟩, ?_, rfl, Nat.le_refl size⟩
    · exact (length_put hfits).trans hblock
    · show m.data_length_ ≤ size
      omega
    · show (put (ByteBuffer.newBlock fresh size) 0 m.content).take m.data_length_ = m.content
      rw [put_zero, ← hlength, List.take_left]

/-- Where there is a place, something is put there. -/
theorem writeSome_spec (h : m.Wf) (s : Str) (hplace : m.seek_position_ < m.buffer_length_) :
    ∃ c n, m.writeSome s = (c, .SR_SUCCESS, n) ∧ n ≤ s.length ∧ (s ≠ [] → 0 < n) ∧ c.Wf
      ∧ c.content = put m.content m.seek_position_ (s.take n)
      ∧ c.seek_position_ = m.seek_position_ + n := by
  have hbuffer := h.length_buffer
  have hseek := h.seek_le
  have hdata := h.data_le
  unfold writeSome
  dsimp only
  have hn : ∃ n, (if s.length > m.buffer_length_ - m.seek_position_
        then m.buffer_length_ - m.seek_position_ else s.length) = n
      ∧ n ≤ s.length ∧ (0 < s.length → 0 < n) ∧ m.seek_position_ + n ≤ m.buffer_length_ := by
    split_ifs with hmany <;> exact ⟨_, rfl, by omega, by omega, by omega⟩
  obtain ⟨n, hn, hle, hpos, hfits⟩ := hn
  rw [hn]
  have htake : (s.take n).length = n := List.length_take_of_le hle
  have hmax : (if m.data_length_ < m.seek_position_ + n then m.seek_position_ + n
      else m.data_length_) = max m.data_length_ (m.seek_position_ + n) := by
    split_ifs <;> omega
  rw [hmax]
  have hcontent := take_put (m := m.buffer_) (s := s.take n) hseek (hbuffer.symm ▸ hdata)
  rw [htake] at hcontent
  have hlength : (put m.buffer_ m.seek_position_ (s.take n)).length = m.buffer_length_ := by
    rw [length_put (by omega)]
    exact hbuffer
  refine ⟨_, n, rfl, hle, fun hnil => hpos (List.length_pos_iff.2 hnil),
    ⟨hlength, Nat.le_max_right _ _, ?_⟩, hcontent, rfl⟩
  exact Nat.max_le.2 ⟨hdata, hfits⟩

/-- A write puts some of the bytes over those at the position, and at least one if there is one. -/
theorem write_spec (fresh : ℕ → UInt8) (h : m.Wf) (s : Str) :
    ∃ c n, m.Write fresh s = (c, .SR_SUCCESS, n) ∧ n ≤ s.length ∧ (s ≠ [] → 0 < n) ∧ c.Wf
      ∧ c.content = put m.content m.seek_position_ (s.take n)
      ∧ c.seek_position_ = m.seek_position_ + n := by
  have hseek := h.seek_le
  have hdata := h.data_le
  unfold Write
  dsimp only
  by_cases hnone : 0 = m.buffer_length_ - m.seek_position_
  · -- there is no place, and the block grows
    rw [if_pos hnone]
    obtain ⟨c, hreserve, hwf, hcontent, hposition, hlarge⟩ := doReserve_spec fresh h
      (max (((m.seek_position_ + s.length) ||| 0xFF) + 1) (m.buffer_length_ * 2))
    have hround : m.seek_position_ + s.length ≤ (m.seek_position_ + s.length) ||| 0xFF :=
      Nat.left_le_or
    rw [hreserve]
    dsimp only
    rw [if_neg (not_not.2 rfl)]
    have hwrite := writeSome_spec hwf s (by omega)
    rw [hcontent, hposition] at hwrite
    exact hwrite
  · rw [if_neg hnone]
    exact writeSome_spec h s (by omega)

theorem read_spec (h : m.Wf) (n : ℕ) :
    (m.content.length ≤ m.seek_position_ ∧ m.Read n = (m, .SR_EOS, []))
      ∨ (m.seek_position_ < m.content.length
        ∧ m.Read n = ({ m with seek_position_ :=
            m.seek_position_ + ((m.content.drop m.seek_position_).take n).length },
          .SR_SUCCESS, (m.content.drop m.seek_position_).take n)) := by
  have hlength := h.length_content
  unfold Read
  dsimp only
  by_cases hend : m.seek_position_ ≥ m.data_length_
  · rw [if_pos hend]
    exact Or.inl ⟨by omega, rfl⟩
  · rw [if_neg hend]
    refine Or.inr ⟨by omega, ?_⟩
    have hmin : (if n > m.data_length_ - m.seek_position_ then m.data_length_ - m.seek_position_
        else n) = min n (m.data_length_ - m.seek_position_) := by
      split_ifs <;> omega
    have hbytes : (m.buffer_.drop m.seek_position_).take
        (min n (m.data_length_ - m.seek_position_)) = (m.content.drop m.seek_position_).take n := by
      unfold content
      rw [List.drop_take, List.take_take]
    have hcount : ((m.content.drop m.seek_position_).take n).length
        = min n (m.data_length_ - m.seek_position_) := by
      rw [List.length_take, List.length_drop, hlength]
    rw [hmin, hbytes, hcount]

/-- The position may be moved inside of the data. -/
theorem seek_wf (h : m.Wf) {p : ℕ} (hp : p ≤ m.content.length) :
    ({ m with seek_position_ := p } : MemoryStream).Wf :=
  ⟨h.length_buffer, h.length_content ▸ hp, h.data_le⟩

/-! ## 2. The loops -/

/-- However many bytes are written in each round, all are in the end. -/
theorem writeAll_rounds (fresh : ℕ → UInt8) (h : m.Wf) (data : Str) {total n : ℕ} (hc : c.Wf)
    (hcontent : c.content = put m.content m.seek_position_ (data.take total))
    (hseek : c.seek_position_ = m.seek_position_ + total) (htotal : total ≤ data.length)
    (hn : data.length - total < n) :
    ∃ d, Walking.rounds ((stream fresh).writeAllRound data) n (c, total)
        = some (d, .SR_SUCCESS, data.length)
      ∧ d.Wf ∧ d.content = put m.content m.seek_position_ data
      ∧ d.seek_position_ = m.seek_position_ + data.length := by
  induction n generalizing c total with
  | zero => exact absurd hn (Nat.not_lt_zero _)
  | succ n ih =>
    rw [Walking.rounds]
    by_cases hmore : total < data.length
    · obtain ⟨d, k, hwrite, hk, hpos, hd, hmade, hmoved⟩ :=
        write_spec fresh hc (data.drop total)
      rw [StreamInterface.writeAllRound_next (stream fresh) hmore hwrite]
      rw [List.length_drop] at hk
      -- a round writes a byte, so the rounds that are left become fewer
      have hk0 : 0 < k := hpos fun hnil => by
        have hlength := congrArg List.length hnil
        rw [List.length_drop, List.length_nil] at hlength
        omega
      have htake : (data.take total).length = total := List.length_take_of_le htotal
      have hle : m.seek_position_ ≤ m.content.length := by
        rw [h.length_content]
        exact h.seek_le
      have hboth : d.content = put m.content m.seek_position_ (data.take (total + k)) := by
        have hjoin := put_put (s := data.take total) (t := (data.drop total).take k) hle
        rw [htake, ← List.take_add] at hjoin
        rw [hmade, hcontent, hseek]
        exact hjoin
      refine ih hd hboth ?_ (by omega) (by omega)
      rw [hmoved, hseek, Nat.add_assoc]
    · -- all of the data has been put
      have hall : total = data.length := by omega
      rw [hall, List.take_length] at hcontent
      rw [StreamInterface.writeAllRound_done (stream fresh) hmore, hall]
      rw [hall] at hseek
      exact ⟨c, rfl, hc, hcontent, hseek⟩

theorem writeAll_spec (fresh : ℕ → UInt8) (h : m.Wf) (data : Str) {n : ℕ}
    (hn : data.length < n) :
    ∃ d, (stream fresh).WriteAll n m data = some (d, .SR_SUCCESS, data.length) ∧ d.Wf
      ∧ d.content = put m.content m.seek_position_ data
      ∧ d.seek_position_ = m.seek_position_ + data.length := by
  refine writeAll_rounds fresh h data h ?_ rfl (Nat.zero_le _) hn
  rw [List.take_zero, put_nil]

/-- However many bytes are read in each round, all that are there or asked for are in the end. -/
theorem readAll_rounds (fresh : ℕ → UInt8) (h : m.Wf) (len : ℕ) {p n : ℕ} {buffer : Str}
    (hbuffer : buffer = (m.content.drop p).take buffer.length) (hlen : buffer.length ≤ len)
    (hp : p + buffer.length = m.seek_position_) (hn : len - buffer.length < n) :
    Walking.rounds ((stream fresh).readAllRound len) n (m, buffer)
      = some ({ m with seek_position_ := p + ((m.content.drop p).take len).length },
        if len ≤ m.content.length - p then .SR_SUCCESS else .SR_EOS,
        (m.content.drop p).take len) := by
  induction n generalizing m buffer with
  | zero => exact absurd hn (Nat.not_lt_zero _)
  | succ n ih =>
    have hlength := h.length_content
    have hseek := h.seek_le
    rw [Walking.rounds]
    by_cases hmore : buffer.length < len
    · rcases read_spec h (len - buffer.length) with ⟨hend, hread⟩ | ⟨hend, hread⟩
      · -- the end: all that is there has been read
        have hall : (m.content.drop p).length = buffer.length := by
          rw [List.length_drop]
          have hle := congrArg List.length hbuffer
          rw [List.length_take, List.length_drop] at hle
          omega
        have heq : m.content.drop p = buffer := by
          rw [hbuffer, ← hall, List.take_length]
        have hrest : (m.content.drop p).take len = buffer := by
          rw [heq]
          exact List.take_of_length_le (Nat.le_of_lt hmore)
        rw [StreamInterface.readAllRound_left (stream fresh) hmore (by decide) hread,
          if_neg (by rw [List.length_drop] at hall; omega), hrest, hp]
      · -- what has been read, and what is read now, are one piece of the content
        have hcount : ((m.content.drop m.seek_position_).take (len - buffer.length)).length
            = min (len - buffer.length) (m.content.length - m.seek_position_) := by
          rw [List.length_take, List.length_drop]
        have hjoin : buffer ++ (m.content.drop m.seek_position_).take (len - buffer.length)
            = (m.content.drop p).take len := by
          have hadd := List.take_add (l := m.content.drop p) (i := buffer.length)
            (j := len - buffer.length)
          rw [Nat.add_sub_cancel' hlen, ← hbuffer, List.drop_drop, hp] at hadd
          exact hadd.symm
        have hlength := congrArg List.length hjoin
        rw [List.length_append, hcount] at hlength
        rw [StreamInterface.readAllRound_next (stream fresh) hmore hread]
        refine ih (seek_wf h ?_) ?_ ?_ ?_ ?_
        · omega
        · rw [hjoin, List.length_take]
          show (m.content.drop p).take len
            = (m.content.drop p).take (min len (m.content.drop p).length)
          rw [List.take_eq_take_iff]
          omega
        · rw [List.length_append]
          omega
        · rw [List.length_append, ← Nat.add_assoc, hp]
        · rw [List.length_append]
          omega
    · -- as many as were asked for
      have hall : buffer.length = len := by omega
      have hcount : ((m.content.drop p).take len).length = len := by
        rw [← hall, ← hbuffer]
      rw [List.length_take, List.length_drop] at hcount
      rw [StreamInterface.readAllRound_done (stream fresh) hmore, if_pos (by omega), ← hall,
        ← hbuffer, hp]

theorem readAll_spec (fresh : ℕ → UInt8) (h : m.Wf) (len : ℕ) {n : ℕ} (hn : len < n) :
    (stream fresh).ReadAll n m len
      = some ({ m with seek_position_ :=
            m.seek_position_ + ((m.content.drop m.seek_position_).take len).length },
        if len ≤ m.content.length - m.seek_position_ then .SR_SUCCESS else .SR_EOS,
        (m.content.drop m.seek_position_).take len) :=
  readAll_rounds fresh h len rfl (Nat.zero_le _) rfl hn

/-! ## 3. The array -/

/-- An array of bytes that grows, and a position in it. -/
structure Growable where
  content : Str
  position : ℕ

/-- A call. -/
inductive Call where
  | write (data : Str)
  | writeAll (data : Str)
  | read (bytes : ℕ)
  | readAll (bytes : ℕ)
  | setPosition (position : ℕ)
  | setData (data : Str)
  | reserveSize (size : ℕ)
  | getPosition
  | getSize
  | getAvailable

inductive Answer where
  | written (result : StreamResult) (count : ℕ)
  | read (result : StreamResult) (bytes : Str)
  | flag (ok : Bool)
  | size (n : ℕ)
  | done
  /-- a loop has not ended -/
  | endless
deriving DecidableEq

namespace Growable

/-- Bytes are put over those at the position, and over the end. -/
def overwrite (a : Growable) (s : Str) : Growable :=
  ⟨a.content.take a.position ++ s ++ a.content.drop (a.position + s.length),
    a.position + s.length⟩

/-- The bytes at the position, at most `n`. -/
def ahead (a : Growable) (n : ℕ) : Str := (a.content.drop a.position).take n

def move (a : Growable) (n : ℕ) : Growable := { a with position := a.position + n }

/-- What a call may do. -/
def Spec (a : Growable) : Call → Answer → Growable → Prop
  | .write s, answer, a' =>
    ∃ n ≤ s.length, (s ≠ [] → 0 < n) ∧ answer = .written .SR_SUCCESS n
      ∧ a' = a.overwrite (s.take n)
  | .writeAll s, answer, a' => answer = .written .SR_SUCCESS s.length ∧ a' = a.overwrite s
  | .read n, answer, a' =>
    answer = (if a.content.length ≤ a.position then .read .SR_EOS []
      else .read .SR_SUCCESS (a.ahead n))
      ∧ a' = a.move (a.ahead n).length
  | .readAll n, answer, a' =>
    answer = .read (if n ≤ a.content.length - a.position then .SR_SUCCESS else .SR_EOS)
        (a.ahead n)
      ∧ a' = a.move (a.ahead n).length
  | .setPosition p, answer, a' =>
    if a.content.length < p then answer = .flag false ∧ a' = a
    else answer = .flag true ∧ a' = { a with position := p }
  | .setData data, answer, a' => answer = .done ∧ a' = ⟨data, 0⟩
  | .reserveSize _, answer, a' => answer = .flag true ∧ a' = a
  | .getPosition, answer, a' => answer = .size a.position ∧ a' = a
  | .getSize, answer, a' => answer = .size a.content.length ∧ a' = a
  | .getAvailable, answer, a' => answer = .size (a.content.length - a.position) ∧ a' = a

end Growable

/-- What a call does. The loops may go round once more than there are bytes. -/
def act (fresh : ℕ → UInt8) (m : MemoryStream) : Call → MemoryStream × Answer
  | .write data =>
    let (m, result, count) := m.Write fresh data
    (m, .written result count)
  | .writeAll data =>
    match (stream fresh).WriteAll (data.length + 1) m data with
    | some (m, result, count) => (m, .written result count)
    | none => (m, .endless)
  | .read bytes =>
    let (m, result, s) := m.Read bytes
    (m, .read result s)
  | .readAll bytes =>
    match (stream fresh).ReadAll (bytes + 1) m bytes with
    | some (m, result, s) => (m, .read result s)
    | none => (m, .endless)
  | .setPosition position =>
    let (m, ok) := m.SetPosition position
    (m, .flag ok)
  | .setData data => (SetData fresh data, .done)
  | .reserveSize size =>
    let (m, ok) := m.ReserveSize fresh size
    (m, .flag ok)
  | .getPosition => (m, .size m.GetPosition)
  | .getSize => (m, .size m.GetSize)
  | .getAvailable => (m, .size m.GetAvailable)

example (fresh : ℕ → UInt8) : act fresh m .getSize = (m, .size m.GetSize) := by rw [act]

/-- A call, and what is seen then: the answer, the data and the position. -/
def step (fresh : ℕ → UInt8) (m : MemoryStream) (call : Call) :
    MemoryStream × (Answer × Str × ℕ) :=
  let (m, answer) := act fresh m call
  (m, (answer, m.buffer_.take m.data_length_, m.seek_position_))

/-- What is seen of a call is what the array allows. -/
def Observed (a : Growable) (call : Call) (seen : Answer × Str × ℕ) (a' : Growable) : Prop :=
  a.Spec call seen.1 a' ∧ seen.2 = (a'.content, a'.position)

/-- The stream is the array. -/
structure Related (m : MemoryStream) (a : Growable) : Prop where
  wf : m.Wf
  content : m.content = a.content
  position : m.seek_position_ = a.position

section Step

variable {a : Growable} (fresh : ℕ → UInt8)

/-- A call does to the stream what it does to the array. -/
def Kept (m : MemoryStream) (a : Growable) (call : Call) : Prop :=
  ∃ a', Observed a call (step fresh m call).2 a' ∧ Related (step fresh m call).1 a'

variable {fresh} {call : Call} {d : MemoryStream} {answer : Answer} {a' : Growable}

theorem kept_of_act (hact : act fresh m call = (d, answer)) (hspec : a.Spec call answer a')
    (hrelated : Related d a') : Kept fresh m a call := by
  unfold Kept step
  rw [hact]
  exact ⟨a', ⟨hspec, Prod.ext hrelated.content hrelated.position⟩, hrelated⟩

theorem Related.moved (h : Related m a) {n : ℕ} (hn : a.position + n ≤ a.content.length) :
    Related { m with seek_position_ := m.seek_position_ + n } (a.move n) := by
  refine ⟨seek_wf h.wf ?_, h.content, congrArg (· + n) h.position⟩
  rw [h.position, h.content]
  exact hn

theorem Related.position_le (h : Related m a) : a.position ≤ a.content.length := by
  rw [← h.position, ← h.content, h.wf.length_content]
  exact h.wf.seek_le

theorem Related.ahead_le (h : Related m a) (n : ℕ) :
    a.position + (a.ahead n).length ≤ a.content.length := by
  have hposition := h.position_le
  unfold Growable.ahead
  rw [List.length_take, List.length_drop]
  omega

variable (fresh)

theorem Related.kept_write (h : Related m a) (s : Str) : Kept fresh m a (.write s) := by
  obtain ⟨d, n, hwrite, hn, hpos, hwf, hcontent, hseek⟩ := write_spec fresh h.wf s
  have hact : act fresh m (.write s) = (d, .written .SR_SUCCESS n) := by
    rw [act, hwrite]
  rw [h.content, h.position] at hcontent
  rw [h.position] at hseek
  refine kept_of_act hact ⟨n, hn, hpos, rfl, rfl⟩ ⟨hwf, hcontent, ?_⟩
  rw [hseek]
  unfold Growable.overwrite
  rw [List.length_take_of_le hn]

theorem Related.kept_writeAll (h : Related m a) (s : Str) : Kept fresh m a (.writeAll s) := by
  obtain ⟨d, hwrite, hwf, hcontent, hseek⟩ := writeAll_spec fresh h.wf s (Nat.lt_succ_self _)
  have hact : act fresh m (.writeAll s) = (d, .written .SR_SUCCESS s.length) := by
    rw [act, hwrite]
  rw [h.content, h.position] at hcontent
  rw [h.position] at hseek
  exact kept_of_act hact ⟨rfl, rfl⟩ ⟨hwf, hcontent, hseek⟩

theorem Related.kept_read (h : Related m a) (n : ℕ) : Kept fresh m a (.read n) := by
  have hread := read_spec h.wf n
  rw [h.content, h.position] at hread
  rcases hread with ⟨hend, hread⟩ | ⟨hend, hread⟩
  · have hact : act fresh m (.read n) = (m, .read .SR_EOS []) := by
      rw [act, hread]
    have hnone : a.ahead n = [] := by
      unfold Growable.ahead
      rw [List.drop_eq_nil_of_le hend, List.take_nil]
    refine kept_of_act hact ⟨(if_pos hend).symm, rfl⟩ ?_
    rw [hnone]
    exact h
  · have hact : act fresh m (.read n)
        = ({ m with seek_position_ := m.seek_position_ + (a.ahead n).length },
          .read .SR_SUCCESS (a.ahead n)) := by
      rw [act, hread, h.position]
      rfl
    exact kept_of_act hact ⟨(if_neg (Nat.not_le_of_lt hend)).symm, rfl⟩
      (h.moved (h.ahead_le n))

theorem Related.kept_readAll (h : Related m a) (n : ℕ) : Kept fresh m a (.readAll n) := by
  have hread := readAll_spec fresh h.wf n (Nat.lt_succ_self n)
  rw [h.content, h.position] at hread
  have hact : act fresh m (.readAll n)
      = ({ m with seek_position_ := m.seek_position_ + (a.ahead n).length },
        .read (if n ≤ a.content.length - a.position then .SR_SUCCESS else .SR_EOS)
          (a.ahead n)) := by
    rw [act, hread, h.position]
    rfl
  exact kept_of_act hact ⟨rfl, rfl⟩ (h.moved (h.ahead_le n))

theorem Related.kept_setPosition (h : Related m a) (p : ℕ) : Kept fresh m a (.setPosition p) := by
  have hlength : m.data_length_ = a.content.length := by
    rw [← h.wf.length_content, h.content]
  by_cases hbeyond : a.content.length < p
  · -- a place behind the end is refused
    have hact : act fresh m (.setPosition p) = (m, .flag false) := by
      rw [act, SetPosition, hlength, if_pos hbeyond]
    exact kept_of_act hact ((if_pos hbeyond).mpr ⟨rfl, rfl⟩) h
  · have hact : act fresh m (.setPosition p)
        = ({ m with seek_position_ := p }, .flag true) := by
      rw [act, SetPosition, hlength, if_neg hbeyond]
    refine kept_of_act hact ((if_neg hbeyond).mpr ⟨rfl, rfl⟩) ⟨seek_wf h.wf ?_, h.content, rfl⟩
    rw [h.content]
    exact Nat.le_of_not_lt hbeyond

/-- Every call does to the stream what it does to the array. -/
theorem step_kept (h : Related m a) (call : Call) : Kept fresh m a call := by
  cases call with
  | write s => exact h.kept_write fresh s
  | writeAll s => exact h.kept_writeAll fresh s
  | read n => exact h.kept_read fresh n
  | readAll n => exact h.kept_readAll fresh n
  | setPosition p => exact h.kept_setPosition fresh p
  | setData data =>
    obtain ⟨hwf, hcontent⟩ := setData_spec fresh data
    have hspec : a.Spec (.setData data) .done ⟨data, 0⟩ := ⟨rfl, rfl⟩
    exact kept_of_act rfl hspec ⟨hwf, hcontent, rfl⟩
  | reserveSize size =>
    obtain ⟨d, hreserve, hwf, hcontent, hseek, -⟩ := doReserve_spec fresh h.wf size
    have hact : act fresh m (.reserveSize size) = (d, .flag true) := by
      rw [act, ReserveSize, hreserve]
      rfl
    exact kept_of_act hact ⟨rfl, rfl⟩
      ⟨hwf, hcontent.trans h.content, hseek.trans h.position⟩
  | getPosition => exact kept_of_act rfl ⟨congrArg Answer.size h.position, rfl⟩ h
  | getSize =>
    have hlength : m.GetSize = a.content.length := by
      rw [← h.content]
      exact h.wf.length_content.symm
    exact kept_of_act rfl ⟨congrArg Answer.size hlength, rfl⟩ h
  | getAvailable =>
    have hlength : m.GetAvailable = a.content.length - a.position := by
      rw [← h.content, ← h.position, h.wf.length_content]
      rfl
    exact kept_of_act rfl ⟨congrArg Answer.size hlength, rfl⟩ h

end Step

/-! ## 4. Every run -/

/-- A new stream: with the bytes, or without. -/
def Construct (fresh : ℕ → UInt8) : Option Str → MemoryStream
  | some data => SetData fresh data
  | none => new

theorem construct_related (fresh : ℕ → UInt8) (data : Option Str) :
    Related (Construct fresh data) ⟨data.getD [], 0⟩ := by
  cases data with
  | none => exact ⟨new_wf, rfl, rfl⟩
  | some data =>
    obtain ⟨hwf, hcontent⟩ := setData_spec fresh data
    exact ⟨hwf, hcontent, rfl⟩

open Refining in
/-- Every run of a memory stream follows an array that grows; its loops end, and its counters are
in order. -/
theorem stream_follows (fresh : ℕ → UInt8) (data : Option Str) (calls : List Call) :
    Follows Observed ⟨data.getD [], 0⟩ (trace (step fresh) (Construct fresh data) calls)
      ∧ (run (step fresh) (Construct fresh data) calls).seek_position_
        ≤ (run (step fresh) (Construct fresh data) calls).data_length_
      ∧ (run (step fresh) (Construct fresh data) calls).data_length_
        ≤ (run (step fresh) (Construct fresh data) calls).buffer_length_ := by
  have hstep : ∀ m a call, Related m a → True → _ := fun m a call h _ => step_kept fresh h call
  have hstart := construct_related fresh data
  have hcalls : Meets (step fresh) (fun _ _ => True) (Construct fresh data) calls :=
    .of_forall fun _ _ _ => trivial
  obtain ⟨a, hrelated⟩ := related hstep hstart hcalls
  exact ⟨follows hstep hstart hcalls, hrelated.wf.seek_le, hrelated.wf.data_le⟩

end Gxmpp.TalkBase.MemoryStream
