/-
A `FifoBuffer` is a queue of bytes that has some room.

A write moves bytes into the content and a read takes them out, first come first served, and the
content and the room make up the capacity (`fifo_follows`). What is in the room is not lost
either: `WriteOffset` and the caller who has been given a place store there what
`ConsumeWriteBuffer` makes content of. Only `SetCapacity`, and `GetWriteBuffer` where there is no
content, leave it open what the room holds.
-/
import Gxmpp.FifoBufferSteps
import Gxmpp.Refining

set_option autoImplicit false

namespace Gxmpp.TalkBase.FifoBuffer

open Ring

/-! ## 1. The queue -/

/-- A call. `store` is what a caller does at the place that it was given. -/
inductive Call where
  | read (bytes : ℕ)
  | readOffset (bytes offset : ℕ)
  | write (data : Str)
  | writeOffset (data : Str) (offset : ℕ)
  | getReadData
  | consumeReadData (size : ℕ)
  | getWriteBuffer
  | store (i : ℕ) (s : Str)
  | consumeWriteBuffer (size : ℕ)
  | setCapacity (size : ℕ)
  | getBuffered
  | getWriteRemaining
  | getState
  | close

inductive Answer where
  | read (result : StreamResult) (bytes : Str) (count : ℕ)
  | written (result : StreamResult) (count : ℕ)
  /-- what is at the place that is given -/
  | data (bytes : Str)
  /-- how large the place is that is given, if one is -/
  | place (size : Option ℕ)
  | flag (ok : Bool)
  | size (n : ℕ)
  | state (state : StreamState)
  | done

/-- A bounded queue: its content, what its room holds, and how much of the room the caller has
been given. -/
structure Queue where
  content : Str
  room : Str
  offered : ℕ
  closed : Bool

namespace Queue

/-- Where nothing can be read or written. -/
def blocked (q : Queue) : StreamResult := if q.closed then .SR_EOS else .SR_BLOCK

def take (q : Queue) (n : ℕ) : Queue :=
  { q with content := q.content.drop n, room := q.room ++ q.content.take n }

def put (q : Queue) (s : Str) : Queue :=
  { q with
    content := q.content ++ s
    room := q.room.drop s.length
    offered := q.offered - s.length }

/-- What a call may do. -/
def Spec (q : Queue) : Call → Answer → Queue → Prop
  | .read n, answer, q' =>
    answer = (if q.content = [] then .read q.blocked [] 0
      else .read .SR_SUCCESS (q.content.take n) (min n q.content.length))
      ∧ q' = q.take (min n q.content.length)
  | .readOffset n offset, answer, q' =>
    answer = (if q.content.length ≤ offset then .read q.blocked [] 0
      else .read .SR_SUCCESS ((q.content.drop offset).take n)
        (min n (q.content.length - offset)))
      ∧ q' = q
  | .write data, answer, q' =>
    if q.closed ∨ q.room = [] then answer = .written q.blocked 0 ∧ q' = q
    else answer = .written .SR_SUCCESS (min data.length q.room.length)
      ∧ q' = q.put (data.take q.room.length)
  | .writeOffset data offset, answer, q' =>
    if q.closed ∨ q.room.length ≤ offset then answer = .written q.blocked 0 ∧ q' = q
    else answer = .written .SR_SUCCESS (min data.length (q.room.length - offset))
      ∧ q' = { q with room := Ring.put q.room offset (data.take (q.room.length - offset)) }
  | .getReadData, answer, q' =>
    (∃ n, answer = .data (q.content.take n) ∧ n ≤ q.content.length ∧ (q.content ≠ [] → 0 < n))
      ∧ q' = q
  | .consumeReadData n, answer, q' => answer = .done ∧ q' = q.take n
  | .getWriteBuffer, answer, q' =>
    if q.closed then answer = .place none ∧ q' = q
    else ∃ size room',
      answer = .place (some size) ∧ q' = { q with room := room', offered := size }
      ∧ size ≤ q.room.length ∧ (q.room ≠ [] → 0 < size)
      ∧ (q.content = [] → size = q.room.length)
      ∧ room'.length = q.room.length ∧ (q.content ≠ [] → room' = q.room)
  | .store i s, answer, q' => answer = .done ∧ q' = { q with room := Ring.put q.room i s }
  | .consumeWriteBuffer n, answer, q' => answer = .done ∧ q' = q.put (q.room.take n)
  | .setCapacity n, answer, q' =>
    if n < q.content.length then answer = .flag false ∧ q' = q
    else answer = .flag true
      ∧ if n = q.content.length + q.room.length then q' = q
        else ∃ room', q' = { q with room := room', offered := 0 }
          ∧ q.content.length + room'.length = n
  | .getBuffered, answer, q' => answer = .size q.content.length ∧ q' = q
  | .getWriteRemaining, answer, q' => answer = .size q.room.length ∧ q' = q
  | .getState, answer, q' =>
    answer = .state (if q.closed then .SS_CLOSED else .SS_OPEN) ∧ q' = q
  | .close, answer, q' => answer = .done ∧ q' = { q with closed := true }

/-- What is posted: that a full queue has room again, or an empty one content. -/
def posts (q : Queue) : Call → Queue → List StreamEvent
  | .read _, q' | .consumeReadData _, q' =>
    if q.room = [] ∧ q'.room ≠ [] then [.SE_WRITE] else []
  | .write _, q' | .consumeWriteBuffer _, q' =>
    if q.content = [] ∧ q'.content ≠ [] then [.SE_READ] else []
  | _, _ => []

end Queue

/-! ## 2. Runs -/

/-- A buffer, and the place that was given to the caller, with what is left there. -/
structure World where
  buffer : FifoBuffer
  offer : ℕ × ℕ

/-- Some bytes of what was given are content now. -/
def advance (offer : ℕ × ℕ) (n : ℕ) : ℕ × ℕ := (offer.1 + n, offer.2 - n)

/-- What a call does. A new block leaves nothing of a place in the old one. -/
def act (fresh : ℕ → UInt8) (w : World) : Call → World × Answer
  | .read bytes =>
    let (b, result, buffer, copy) := w.buffer.Read bytes
    ({ w with buffer := b }, .read result buffer copy)
  | .readOffset bytes offset =>
    let (result, buffer, copy) := w.buffer.ReadOffset bytes offset
    (w, .read result buffer copy)
  | .write data =>
    let (b, result, copy) := w.buffer.Write data
    (⟨b, advance w.offer copy⟩, .written result copy)
  | .writeOffset data offset =>
    let (b, result, copy) := w.buffer.WriteOffset data offset
    ({ w with buffer := b }, .written result copy)
  | .getReadData =>
    let (place, size) := w.buffer.GetReadData
    (w, .data ((w.buffer.buffer_.drop place).take size))
  | .consumeReadData size => ({ w with buffer := w.buffer.ConsumeReadData size }, .done)
  | .getWriteBuffer =>
    match w.buffer.GetWriteBuffer with
    | (b, some (place, size)) => (⟨b, (place, size)⟩, .place (some size))
    | (b, none) => ({ w with buffer := b }, .place none)
  | .store i s => ({ w with buffer := w.buffer.Store (w.offer.1 + i) s }, .done)
  | .consumeWriteBuffer size =>
    (⟨w.buffer.ConsumeWriteBuffer size, advance w.offer size⟩, .done)
  | .setCapacity size =>
    let (b, ok) := w.buffer.SetCapacity fresh size
    (⟨b, if b.buffer_length_ = w.buffer.buffer_length_ then w.offer else (0, 0)⟩, .flag ok)
  | .getBuffered => (w, .size w.buffer.GetBuffered)
  | .getWriteRemaining => (w, .size w.buffer.GetWriteRemaining)
  | .getState => (w, .state w.buffer.GetState)
  | .close => ({ w with buffer := w.buffer.Close }, .done)

/-- A call, and what is seen then: the answer, and what is posted. -/
def step (fresh : ℕ → UInt8) (w : World) (call : Call) : World × (Answer × List StreamEvent) :=
  let (v, answer) := act fresh w call
  (v, (answer, v.buffer.posted.drop w.buffer.posted.length))

/-- What the caller promises: what the functions assert, to store at no other place than was given,
and a capacity that is not 0. -/
def Promised (w : World) : Call → Prop
  | .consumeReadData size => size ≤ w.buffer.data_length_
  | .consumeWriteBuffer size => size ≤ w.buffer.buffer_length_ - w.buffer.data_length_
  | .store i s => i + s.length ≤ w.offer.2
  | .setCapacity size => 0 < size
  | _ => True

instance (w : World) (call : Call) : Decidable (Promised w call) :=
  match call with
  | .consumeReadData size => inferInstanceAs (Decidable (size ≤ w.buffer.data_length_))
  | .consumeWriteBuffer size =>
    inferInstanceAs (Decidable (size ≤ w.buffer.buffer_length_ - w.buffer.data_length_))
  | .store i s => inferInstanceAs (Decidable (i + s.length ≤ w.offer.2))
  | .setCapacity size => inferInstanceAs (Decidable (0 < size))
  | .read _ | .readOffset .. | .write _ | .writeOffset .. | .getReadData | .getWriteBuffer
  | .getBuffered | .getWriteRemaining | .getState | .close => .isTrue trivial

/-- What is seen of a call is what the queue allows. -/
def Observed (q : Queue) (call : Call) (seen : Answer × List StreamEvent) (q' : Queue) : Prop :=
  q.Spec call seen.1 q' ∧ seen.2 = q.posts call q'

/-! ## 3. The relation -/

/-- The buffer is the queue, and what was given to the caller is the start of the room. -/
structure Related (w : World) (q : Queue) : Prop where
  wf : w.buffer.Wf
  content : w.buffer.content = q.content
  room : w.buffer.room = q.room
  state : w.buffer.state_ = if q.closed then .SS_CLOSED else .SS_OPEN
  offered : w.offer.2 = q.offered
  offered_le : q.offered ≤ q.room.length
  place : 0 < q.offered → w.offer.1 = w.buffer.writePlace
    ∧ w.offer.1 + w.offer.2 ≤ w.buffer.buffer_length_

section Step

variable {w : World} {q : Queue}

theorem Related.length_content (h : Related w q) :
    w.buffer.content.length = q.content.length := congrArg List.length h.content

theorem Related.length_room (h : Related w q) : w.buffer.room.length = q.room.length :=
  congrArg List.length h.room

theorem Related.not_closed_iff (h : Related w q) :
    w.buffer.state_ ≠ .SS_CLOSED ↔ q.closed = false := by
  rw [h.state]
  cases q.closed <;> decide

/-- The room begins where it did, and may be larger. -/
theorem Related.same_place (h : Related w q) {c : FifoBuffer} {content room : Str} (hwf : c.Wf)
    (hcontent : c.content = content) (hroom : c.room = room) (hle : q.room.length ≤ room.length)
    (hstate : c.state_ = w.buffer.state_) (hlength : c.buffer_length_ = w.buffer.buffer_length_)
    (hplace : c.writePlace = w.buffer.writePlace) :
    Related { w with buffer := c } { q with content, room } := by
  refine ⟨hwf, hcontent, hroom, hstate.trans h.state, h.offered, h.offered_le.trans hle, ?_⟩
  intro hpos
  show w.offer.1 = c.writePlace ∧ w.offer.1 + w.offer.2 ≤ c.buffer_length_
  rw [hplace, hlength]
  exact h.place hpos

/-- Bytes are taken off the content. -/
theorem Related.consume (h : Related w q) {n : ℕ} (hn : n ≤ q.content.length) :
    Related { w with buffer := w.buffer.ConsumeReadData n } (q.take n)
      ∧ (w.buffer.ConsumeReadData n).posted.drop w.buffer.posted.length
        = if q.room = [] ∧ (q.take n).room ≠ [] then [.SE_WRITE] else [] := by
  rw [← h.content] at hn
  obtain ⟨hwf, hcontent, hroom, hposted, hstate, hlength, hplace⟩ := consumeReadData_spec h.wf hn
  rw [hroom, h.content, h.room] at hposted
  rw [h.content] at hcontent hroom
  rw [h.room] at hroom
  refine ⟨h.same_place hwf hcontent hroom ?_ hstate hlength hplace, ?_⟩
  · rw [List.length_append]
    exact Nat.le_add_right _ _
  · rw [hposted, List.drop_left]
    rfl

/-- Bytes of the room are made content. -/
theorem Related.commit (h : Related w q) {n : ℕ} (hn : n ≤ q.room.length) :
    Related ⟨w.buffer.ConsumeWriteBuffer n, advance w.offer n⟩ (q.put (q.room.take n))
      ∧ (w.buffer.ConsumeWriteBuffer n).posted.drop w.buffer.posted.length
        = if q.content = [] ∧ (q.put (q.room.take n)).content ≠ [] then [.SE_READ] else [] := by
  have htake : (q.room.take n).length = n := List.length_take_of_le hn
  have hle := h.offered_le
  have hoffered := h.offered
  have hlengths := hn
  rw [← h.room] at hn
  obtain ⟨hwf, hcontent, hroom, hposted, hstate, hlength, hplace⟩ :=
    consumeWriteBuffer_spec h.wf hn
  rw [hcontent, h.content, h.room] at hposted
  rw [h.room] at hcontent hroom
  rw [h.content] at hcontent
  unfold Queue.put
  rw [htake]
  refine ⟨⟨hwf, hcontent, hroom, hstate.trans h.state, ?_, ?_, ?_⟩, ?_⟩
  · exact congrArg (· - n) hoffered
  · show q.offered - n ≤ (q.room.drop n).length
    rw [List.length_drop]
    omega
  · intro hpos
    have hleft : 0 < q.offered - n := hpos
    obtain ⟨hstart, hend⟩ := h.place (by omega)
    show w.offer.1 + n = (w.buffer.ConsumeWriteBuffer n).writePlace
      ∧ w.offer.1 + n + (w.offer.2 - n) ≤ (w.buffer.ConsumeWriteBuffer n).buffer_length_
    rw [hplace, hlength, ← hstart, Nat.mod_eq_of_lt (by omega)]
    omega
  · rw [hposted, List.drop_left]

/-- Bytes are put into the room, and stay room. -/
theorem Related.place_in_room (h : Related w q) {c : FifoBuffer} {k : ℕ} {s : Str} (hwf : c.Wf)
    (hcontent : c.content = w.buffer.content) (hroom : c.room = Ring.put w.buffer.room k s)
    (hfits : k + s.length ≤ q.room.length)
    (hmemory : ∃ memory, c = { w.buffer with buffer_ := memory }) :
    Related { w with buffer := c } { q with room := Ring.put q.room k s }
      ∧ c.posted = w.buffer.posted := by
  obtain ⟨memory, rfl⟩ := hmemory
  rw [h.room] at hroom
  refine ⟨h.same_place hwf (hcontent.trans h.content) hroom ?_ rfl rfl rfl, rfl⟩
  exact Nat.le_of_eq (length_put hfits).symm

/-- What is put into the room and made content. -/
theorem Queue.put_room (q : Queue) (s : Str) :
    ({ q with room := Ring.put q.room 0 s } : Queue).put ((Ring.put q.room 0 s).take s.length)
      = q.put s := by
  have hput := put_zero q.room s
  have htake : (Ring.put q.room 0 s).take s.length = s := by
    rw [hput, List.take_left]
  have hdrop : (Ring.put q.room 0 s).drop s.length = q.room.drop s.length := by
    rw [hput, List.drop_left]
  unfold Queue.put
  rw [htake]
  dsimp only
  rw [hdrop]

theorem Related.blocked (h : Related w q) :
    (if w.buffer.state_ ≠ .SS_CLOSED then StreamResult.SR_BLOCK else .SR_EOS) = q.blocked := by
  rw [h.state]
  unfold Queue.blocked
  cases q.closed <;> rfl

theorem Related.blocked_ne (_ : Related w q) : ¬q.blocked = .SR_SUCCESS := by
  unfold Queue.blocked
  cases q.closed <;> decide

/-- A closed buffer takes nothing, nor does one that has no room there. -/
theorem Related.write_blocked (h : Related w q) (data : Str) {offset : ℕ}
    (hblocked : q.closed = true ∨ q.room.length ≤ offset) :
    w.buffer.WriteOffsetLocked data offset = (w.buffer, q.blocked, 0) := by
  have hdata := h.wf.data_le
  have hroom := h.wf.length_room
  rw [h.room] at hroom
  unfold WriteOffsetLocked Queue.blocked
  rw [h.state]
  cases hclosed : q.closed with
  | true => rfl
  | false =>
    have hfull : q.room.length ≤ offset := hblocked.resolve_left (hclosed ▸ Bool.false_ne_true)
    rw [if_neg (show ¬(if false = true then StreamState.SS_CLOSED else .SS_OPEN) = .SS_CLOSED
        from nofun),
      if_pos (show w.buffer.data_length_ + offset ≥ w.buffer.buffer_length_ by omega)]
    rfl

/-- Bytes are put into the room of an open buffer. -/
theorem Related.write_open (h : Related w q) (data : Str) {offset : ℕ}
    (hopen : ¬(q.closed = true ∨ q.room.length ≤ offset)) :
    ∃ c : FifoBuffer, w.buffer.WriteOffsetLocked data offset
        = (c, .SR_SUCCESS, min data.length (q.room.length - offset))
      ∧ Related { w with buffer := c }
        { q with room := Ring.put q.room offset (data.take (q.room.length - offset)) }
      ∧ c.posted = w.buffer.posted := by
  rw [not_or, Bool.not_eq_true, Nat.not_le] at hopen
  obtain ⟨hclosed, hoffset⟩ := hopen
  have hlength := h.length_room
  rw [← hlength] at hoffset
  obtain ⟨c, hwrite, hwf, hcontent, hroom, hmemory⟩ :=
    writeOffset_spec h.wf (h.not_closed_iff.2 hclosed) data hoffset
  rw [hlength] at hwrite hroom hoffset
  have hfits : offset + (data.take (q.room.length - offset)).length ≤ q.room.length := by
    rw [List.length_take]
    omega
  exact ⟨c, hwrite, h.place_in_room hwf hcontent hroom hfits hmemory⟩

variable (fresh : ℕ → UInt8)

/-- A call does to the buffer what it does to the queue. -/
def Kept (w : World) (q : Queue) (call : Call) : Prop :=
  ∃ q', Observed q call (step fresh w call).2 q' ∧ Related (step fresh w call).1 q'

variable {fresh} {call : Call} {v : World} {answer : Answer} {q' : Queue}

theorem kept_of_act (hact : act fresh w call = (v, answer)) (hspec : q.Spec call answer q')
    (hposted : v.buffer.posted.drop w.buffer.posted.length = q.posts call q')
    (hrelated : Related v q') : Kept fresh w q call := by
  unfold Kept step
  rw [hact]
  exact ⟨q', ⟨hspec, hposted⟩, hrelated⟩

/-- A call that posts nothing. -/
theorem kept_of_quiet (hact : act fresh w call = (v, answer)) (hspec : q.Spec call answer q')
    (hposted : v.buffer.posted = w.buffer.posted) (hposts : q.posts call q' = [])
    (hrelated : Related v q') : Kept fresh w q call := by
  apply kept_of_act hact hspec ?_ hrelated
  rw [hposted, List.drop_length, hposts]

/-- The buffer and the queue are as they were. -/
theorem Related.unchanged (h : Related w q) (hact : act fresh w call = (w, answer))
    (hspec : q.Spec call answer q) (hposts : q.posts call q = []) : Kept fresh w q call :=
  kept_of_quiet hact hspec rfl hposts h

variable (fresh)

theorem Related.kept_read (h : Related w q) (n : ℕ) : Kept fresh w q (.read n) := by
  have hread := readOffset_spec h.wf n 0
  have hzero : q.content.length ≤ 0 ↔ q.content = [] := by
    rw [Nat.le_zero, List.length_eq_zero_iff]
  rw [h.content, h.blocked, List.drop_zero, Nat.sub_zero] at hread
  by_cases hnil : q.content = []
  · rw [if_pos (hzero.2 hnil)] at hread
    have hact : act fresh w (.read n) = (w, .read q.blocked [] 0) := by
      unfold act Read
      dsimp only
      rw [hread]
      dsimp only
      rw [if_neg h.blocked_ne]
    have htake : q.take (min n q.content.length) = q := by
      unfold Queue.take
      rw [hnil, List.drop_nil, List.take_nil, List.append_nil, ← hnil]
    refine h.unchanged hact ⟨(if_pos hnil).symm, htake.symm⟩ ?_
    exact if_neg (fun hroom => hroom.2 hroom.1)
  · rw [if_neg (mt hzero.1 hnil)] at hread
    obtain ⟨hrelated, hposted⟩ := h.consume (Nat.min_le_right n q.content.length)
    have hact : act fresh w (.read n)
        = ({ w with buffer := w.buffer.ConsumeReadData (min n q.content.length) },
          .read .SR_SUCCESS (q.content.take n) (min n q.content.length)) := by
      unfold act Read
      dsimp only
      rw [hread]
      dsimp only
      rw [if_pos rfl]
    exact kept_of_act hact ⟨(if_neg hnil).symm, rfl⟩ hposted hrelated

theorem Related.kept_readOffset (h : Related w q) (n offset : ℕ) :
    Kept fresh w q (.readOffset n offset) := by
  have hread := readOffset_spec h.wf n offset
  rw [h.content, h.blocked] at hread
  have hact : act fresh w (.readOffset n offset)
      = (w, if q.content.length ≤ offset then .read q.blocked [] 0
        else .read .SR_SUCCESS ((q.content.drop offset).take n)
          (min n (q.content.length - offset))) := by
    unfold act ReadOffset
    dsimp only
    rw [hread]
    split <;> rfl
  exact h.unchanged hact ⟨rfl, rfl⟩ rfl

/-- A write puts bytes into the room, and makes content of them. -/
theorem Related.kept_write (h : Related w q) (data : Str) : Kept fresh w q (.write data) := by
  have hzero : q.closed = true ∨ q.room = [] ↔ q.closed = true ∨ q.room.length ≤ 0 := by
    rw [Nat.le_zero, List.length_eq_zero_iff]
  by_cases hblocked : q.closed = true ∨ q.room = []
  · have hact : act fresh w (.write data) = (⟨w.buffer, advance w.offer 0⟩,
        .written q.blocked 0) := by
      unfold act Write
      dsimp only
      rw [h.write_blocked data (hzero.1 hblocked)]
      dsimp only
      rw [if_neg h.blocked_ne]
    refine h.unchanged hact ?_ ?_
    · exact (if_pos hblocked).mpr ⟨rfl, rfl⟩
    · exact if_neg (fun hcontent => hcontent.2 hcontent.1)
  · obtain ⟨c, hwrite, hput, hposted⟩ := h.write_open data (mt hzero.2 hblocked)
    rw [Nat.sub_zero] at hwrite hput
    have hlength : (data.take q.room.length).length = min data.length q.room.length := by
      rw [List.length_take, Nat.min_comm]
    have hact : act fresh w (.write data)
        = (⟨c.ConsumeWriteBuffer (min data.length q.room.length),
            advance w.offer (min data.length q.room.length)⟩,
          .written .SR_SUCCESS (min data.length q.room.length)) := by
      unfold act Write
      dsimp only
      rw [hwrite]
      dsimp only
      rw [if_pos rfl]
    have hfits : (data.take q.room.length).length
        ≤ (put q.room 0 (data.take q.room.length)).length := by
      rw [length_put (by omega)]
      omega
    obtain ⟨hrelated, hseen⟩ := hput.commit hfits
    rw [q.put_room, hlength] at hrelated hseen
    rw [hposted] at hseen
    exact kept_of_act hact ((if_neg hblocked).mpr ⟨rfl, rfl⟩) hseen hrelated

theorem Related.kept_writeOffset (h : Related w q) (data : Str) (offset : ℕ) :
    Kept fresh w q (.writeOffset data offset) := by
  by_cases hblocked : q.closed = true ∨ q.room.length ≤ offset
  · have hact : act fresh w (.writeOffset data offset) = (w, .written q.blocked 0) := by
      unfold act WriteOffset
      dsimp only
      rw [h.write_blocked data hblocked]
    refine h.unchanged hact ?_ rfl
    exact (if_pos hblocked).mpr ⟨rfl, rfl⟩
  · obtain ⟨c, hwrite, hrelated, hposted⟩ := h.write_open data hblocked
    have hact : act fresh w (.writeOffset data offset)
        = ({ w with buffer := c },
          .written .SR_SUCCESS (min data.length (q.room.length - offset))) := by
      unfold act WriteOffset
      dsimp only
      rw [hwrite]
    exact kept_of_quiet hact ((if_neg hblocked).mpr ⟨rfl, rfl⟩) hposted rfl hrelated

theorem Related.kept_getWriteBuffer (h : Related w q) : Kept fresh w q .getWriteBuffer := by
  by_cases hclosed : q.closed = true
  · have hstate := h.state
    rw [if_pos hclosed] at hstate
    have hact : act fresh w .getWriteBuffer = (w, .place none) := by
      unfold act GetWriteBuffer
      rw [if_pos hstate]
    exact h.unchanged hact ((if_pos hclosed).mpr ⟨rfl, rfl⟩) rfl
  · obtain ⟨c, size, hget, hwf, hcontent, hlength, hsame, ⟨first, hfirst⟩, hle, hpos, hwhole,
      hend⟩ := getWriteBuffer_spec h.wf (h.not_closed_iff.2 (Bool.not_eq_true _ ▸ hclosed))
    have hact : act fresh w .getWriteBuffer
        = (⟨c, (c.writePlace, size)⟩, .place (some size)) := by
      unfold act
      rw [hget]
      rfl
    have hposted : c.posted = w.buffer.posted := by rw [hfirst]
    have hstate : c.state_ = w.buffer.state_ := by rw [hfirst]
    have hkept : q.content ≠ [] → c.room = q.room := by
      intro hcontent'
      rw [hsame (h.content ▸ hcontent'), h.room]
    rw [h.length_room] at hlength hle
    rw [h.room] at hpos
    rw [h.content, h.length_room] at hwhole
    have hrelated : Related ⟨c, (c.writePlace, size)⟩ { q with room := c.room, offered := size } :=
      ⟨hwf, hcontent.trans h.content, rfl, hstate.trans h.state, rfl, hlength.symm ▸ hle,
        fun _ => ⟨rfl, hend⟩⟩
    refine kept_of_quiet hact ?_ hposted rfl hrelated
    exact (if_neg hclosed).mpr ⟨size, c.room, rfl, rfl, hle, hpos, hwhole, hlength, hkept⟩

theorem Related.kept_store (h : Related w q) {i : ℕ} {s : Str}
    (hcall : Promised w (.store i s)) : Kept fresh w q (.store i s) := by
  have hroom := h.offered_le
  have hlength := h.length_room
  have hoffered := h.offered
  have hfits : i + s.length ≤ q.offered := h.offered ▸ hcall
  have hact : act fresh w (.store i s)
      = ({ w with buffer := w.buffer.Store (w.offer.1 + i) s }, .done) := rfl
  by_cases hpos : 0 < q.offered
  · obtain ⟨hplace, hend⟩ := h.place hpos
    obtain ⟨hwf, hcontent, hstored⟩ :=
      store_place h.wf (s := s) hplace (by omega) hend (h.offered.symm ▸ hfits)
    obtain ⟨hrelated, -⟩ := h.place_in_room hwf hcontent hstored (by omega) ⟨_, rfl⟩
    exact kept_of_quiet hact ⟨rfl, rfl⟩ rfl rfl hrelated
  · -- no place was given, and nothing is stored
    have hnil : s = [] := List.length_eq_zero_iff.1 (by omega)
    have hstore : w.buffer.Store (w.offer.1 + i) s = w.buffer := by
      unfold Store
      rw [hnil, put_nil]
    rw [hstore] at hact
    refine h.unchanged hact ⟨rfl, ?_⟩ rfl
    rw [hnil, put_nil]

theorem Related.kept_setCapacity (h : Related w q) {n : ℕ} (hcall : 0 < n) :
    Kept fresh w q (.setCapacity n) := by
  have hset : act fresh w (.setCapacity n)
      = (⟨(w.buffer.SetCapacity fresh n).1,
          if (w.buffer.SetCapacity fresh n).1.buffer_length_ = w.buffer.buffer_length_
            then w.offer else (0, 0)⟩, .flag (w.buffer.SetCapacity fresh n).2) := rfl
  have hcapacity : w.buffer.buffer_length_ = q.content.length + q.room.length := by
    have hdata := h.wf.data_le
    rw [← h.length_content, ← h.length_room, h.wf.length_content, h.wf.length_room]
    omega
  have hspec := setCapacity_spec fresh h.wf hcall
  rw [h.length_content, h.length_room] at hspec
  rcases hspec with ⟨hb, hless⟩ | ⟨hb, hle, hsame⟩ | ⟨c, hb, hle, hother, hspec⟩
  · rw [hb, if_pos rfl] at hset
    exact h.unchanged hset ((if_pos hless).mpr ⟨rfl, rfl⟩) rfl
  · rw [hb, if_pos rfl] at hset
    refine h.unchanged hset ?_ rfl
    exact (if_neg (Nat.not_lt_of_le hle)).mpr ⟨rfl, (if_pos hsame).mpr rfl⟩
  · obtain ⟨hwf, hcontent, hsum, hlength, hstate, hposted⟩ := hspec
    rw [hb, if_neg (show ¬c.buffer_length_ = _ by rw [hlength, hcapacity]; exact hother)]
      at hset
    have hrelated : Related ⟨c, (0, 0)⟩ { q with room := c.room, offered := 0 } :=
      ⟨hwf, hcontent.trans h.content, rfl, hstate.trans h.state, rfl, Nat.zero_le _, nofun⟩
    rw [hcontent, h.length_content] at hsum
    refine kept_of_quiet hset ?_ hposted rfl hrelated
    exact (if_neg (Nat.not_lt_of_le hle)).mpr ⟨rfl, (if_neg hother).mpr ⟨c.room, rfl, hsum⟩⟩

/-- Every call does to the buffer what it does to the queue. -/
theorem step_seen (h : Related w q) (call : Call) (hcall : Promised w call) :
    Kept fresh w q call := by
  cases call with
  | read n => exact h.kept_read fresh n
  | readOffset n offset => exact h.kept_readOffset fresh n offset
  | write data => exact h.kept_write fresh data
  | writeOffset data offset => exact h.kept_writeOffset fresh data offset
  | getReadData =>
    obtain ⟨hdata, hle, hpos⟩ := getReadData_spec h.wf
    rw [h.content] at hdata hle hpos
    have hact : act fresh w .getReadData
        = (w, .data (q.content.take w.buffer.GetReadData.2)) :=
      congrArg (fun s => (w, Answer.data s)) hdata
    exact h.unchanged hact ⟨⟨_, rfl, hle, hpos⟩, rfl⟩ rfl
  | consumeReadData n =>
    have hn : n ≤ q.content.length := by
      rw [← h.length_content, h.wf.length_content]
      exact hcall
    obtain ⟨hrelated, hposted⟩ := h.consume hn
    exact ⟨_, ⟨⟨rfl, rfl⟩, hposted⟩, hrelated⟩
  | getWriteBuffer => exact h.kept_getWriteBuffer fresh
  | store i s => exact h.kept_store fresh hcall
  | consumeWriteBuffer n =>
    have hn : n ≤ q.room.length := by
      rw [← h.length_room, h.wf.length_room]
      exact hcall
    obtain ⟨hrelated, hposted⟩ := h.commit hn
    exact ⟨_, ⟨⟨rfl, rfl⟩, hposted⟩, hrelated⟩
  | setCapacity n => exact h.kept_setCapacity fresh hcall
  | getBuffered =>
    have hact : act fresh w .getBuffered = (w, .size q.content.length) := by
      rw [← h.length_content, h.wf.length_content]
      rfl
    exact h.unchanged hact ⟨rfl, rfl⟩ rfl
  | getWriteRemaining =>
    have hact : act fresh w .getWriteRemaining = (w, .size q.room.length) := by
      rw [← h.length_room, h.wf.length_room]
      rfl
    exact h.unchanged hact ⟨rfl, rfl⟩ rfl
  | getState =>
    exact h.unchanged (congrArg (fun s => (w, Answer.state s)) h.state) ⟨rfl, rfl⟩ rfl
  | close =>
    have hact : act fresh w .close = ({ w with buffer := w.buffer.Close }, .done) := rfl
    refine kept_of_quiet hact ⟨rfl, rfl⟩ rfl rfl ?_
    exact ⟨⟨h.wf.length_buffer, h.wf.read_lt, h.wf.data_le⟩, h.content, h.room, rfl, h.offered,
      h.offered_le, h.place⟩

end Step

/-! ## 4. Every run -/

/-- A new buffer. -/
def start (fresh : ℕ → UInt8) (size : ℕ) : World := ⟨Construct fresh size, (0, 0)⟩

/-- An empty queue, whose room holds what the new block does. -/
def newQueue (fresh : ℕ → UInt8) (size : ℕ) : Queue :=
  ⟨[], ByteBuffer.newBlock fresh size, 0, false⟩

theorem start_related (fresh : ℕ → UInt8) {size : ℕ} (hsize : 0 < size) :
    Related (start fresh size) (newQueue fresh size) := by
  have hring : (ByteBuffer.newBlock fresh size).rotate 0 = ByteBuffer.newBlock fresh size :=
    List.rotate_zero _
  refine ⟨⟨ByteBuffer.length_newBlock fresh size, hsize, Nat.zero_le _⟩, rfl, ?_, rfl, rfl,
    Nat.zero_le _, nofun⟩
  exact hring

open Refining in
/-- Every run of a buffer follows a bounded queue, wherever its content lies in the block, and its
counters stay inside of the block. -/
theorem fifo_follows (fresh : ℕ → UInt8) {size : ℕ} (hsize : 0 < size) (calls : List Call)
    (hcalls : Meets (step fresh) Promised (start fresh size) calls) :
    Follows Observed (newQueue fresh size) (trace (step fresh) (start fresh size) calls)
      ∧ (run (step fresh) (start fresh size) calls).buffer.read_position_
        < (run (step fresh) (start fresh size) calls).buffer.buffer_length_
      ∧ (run (step fresh) (start fresh size) calls).buffer.data_length_
        ≤ (run (step fresh) (start fresh size) calls).buffer.buffer_length_ := by
  have hstep : ∀ w q call, Related w q → Promised w call → _ :=
    fun w q call h hcall => step_seen fresh h call hcall
  have hstart := start_related fresh hsize
  obtain ⟨q, hrelated⟩ := related hstep hstart hcalls
  exact ⟨follows hstep hstart hcalls, hrelated.wf.read_lt, hrelated.wf.data_le⟩

open Refining in
/-- Four bytes of room: three bytes are written and two of them read, one is stored at the place
that is given, and what is written then goes over the end of the block. -/
theorem fifo_follows_four :
    Follows Observed (newQueue (fun _ => 0) 4)
      (trace (step fun _ => 0) (start (fun _ => 0) 4)
        [.write [1, 2, 3], .read 2, .getWriteBuffer, .store 0 [4], .consumeWriteBuffer 1,
          .write [5, 6, 7], .readOffset 4 1, .setCapacity 6, .getReadData,
          .consumeReadData 4]) := by
  refine (fifo_follows (fun _ => 0) (by decide) _ ?_).1
  refine ⟨?_, ?_, ?_, ?_, ?_, ?_, ?_, ?_, ?_, ?_, trivial⟩
  all_goals decide

end Gxmpp.TalkBase.FifoBuffer
