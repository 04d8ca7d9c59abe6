/-
The byte buffer is a queue of bytes.

A read position is a place in the block, and good as long as nothing has moved: then what lies
behind it is what was there, and what was written since. A buffer tells from its version whether
something has moved, and the version goes round. A position is taken for good again after
`2 ^ 32` moves, or `2 * 2 ^ 32`, and so on, and what is read from there is anything. Short of that
every run follows the queue (`buffer_follows`).
-/
import Gxmpp.ByteBufferSteps
import Gxmpp.Refining

set_option autoImplicit false

namespace Gxmpp.TalkBase.ByteBuffer

open BigEndian
open Ring (put put_zero)

/-! ## 1. The queue -/

/-- A number or text that is written. -/
inductive Write where
  | uint8 (val : UInt8)
  | uint16 (val : UInt16)
  | uint24 (val : UInt32)
  | uint32 (val : UInt32)
  | uint64 (val : UInt64)
  | string (val : Str)
  | bytes (val : Str)

/-- What is asked for; a number or a string may be asked for without a place for it. -/
inductive Read where
  | uint8 (val : Bool)
  | uint16 (val : Bool)
  | uint24 (val : Bool)
  | uint32 (val : Bool)
  | uint64 (val : Bool)
  | string (val : Bool) (len : ℕ)
  | bytes (len : ℕ)

/-- A call. Reserved room is filled by the caller; what is left as it was is filled with that. A
position is given by how many were taken before it. -/
inductive Call where
  | write (w : Write)
  | reserveWriteBuffer (filled : Str)
  | read (r : Read)
  | consume (size : ℕ)
  | resize (size : ℕ)
  | getReadPosition
  | setReadPosition (k : ℕ)
  | clear

inductive Answer where
  | done
  | flag (ok : Bool)
  | number (val : Option ℕ)
  | text (val : Option Str)

/-- A queue of bytes, and what is restored by each position that was taken. -/
structure Queue where
  content : Str
  saved : List Str

section Spec

variable (order : ByteOrder) (host : Host)

/-- The bytes that a write puts into the queue. -/
def Write.encode : Write → Str
  | .uint8 val => bytesOf order host 1 val.toNat
  | .uint16 val => bytesOf order host 2 val.toNat
  | .uint24 val => bytesOf order host 3 val.toNat
  | .uint32 val => bytesOf order host 4 val.toNat
  | .uint64 val => bytesOf order host 8 val.toNat
  | .string val | .bytes val => val

/-- How many bytes are asked for, if there is a place for them. -/
def Read.width : Read → Option ℕ
  | .uint8 val => if val then some 1 else none
  | .uint16 val => if val then some 2 else none
  | .uint24 val => if val then some 3 else none
  | .uint32 val => if val then some 4 else none
  | .uint64 val => if val then some 8 else none
  | .string val len => if val then some len else none
  | .bytes len => some len

/-- What is answered. -/
def Read.answer (bytes : Option Str) : Read → Answer
  | .string .. | .bytes .. => .text bytes
  | _ => .number (bytes.map (valueOf order host))

/-- The queue puts bytes behind its content, there and in what positions restore. -/
def Queue.put (q : Queue) (s : Str) : Queue := ⟨q.content ++ s, q.saved.map (· ++ s)⟩

/-- The queue gives its first bytes, as many as are asked for, or nothing. -/
def Queue.take (q : Queue) : Option ℕ → Option Str × Queue
  | some n =>
    if n ≤ q.content.length then
      (some (q.content.take n), { q with content := q.content.drop n })
    else (none, q)
  | none => (none, q)

/-- What a call may do to the queue. -/
def Queue.Spec (q : Queue) : Call → Answer → Queue → Prop
  | .write w, answer, q' => answer = .done ∧ q' = q.put (w.encode order host)
  | .reserveWriteBuffer filled, answer, q' => answer = .done ∧ q' = q.put filled
  | .read r, answer, q' =>
    answer = r.answer order host (q.take r.width).1 ∧ q' = (q.take r.width).2
  | .consume n, answer, q' =>
    answer = .flag (q.take (some n)).1.isSome ∧ q' = (q.take (some n)).2
  | .resize _, answer, q' => answer = .done ∧ q' = q
  | .getReadPosition, answer, q' =>
    answer = .done ∧ q' = { q with saved := q.saved ++ [q.content] }
  | .setReadPosition k, answer, q' =>
    answer = .flag false ∧ q' = q
      ∨ ∃ s, q.saved[k]? = some s ∧ answer = .flag true ∧ q' = { q with content := s }
  | .clear, answer, q' => answer = .done ∧ q' = { q with content := [] }

end Spec

/-! ## 2. Runs -/

variable {b : ByteBuffer} (fresh : ℕ → UInt8)

/-- A buffer, the positions that were taken, each with how often bytes had moved then, and how
often they have now. -/
structure World where
  buffer : ByteBuffer
  positions : List (ReadPosition × ℕ)
  moves : ℕ

variable (host : Host)

def write : Write → ByteBuffer → ByteBuffer
  | .uint8 val, b => b.WriteUInt8 fresh val
  | .uint16 val, b => b.WriteUInt16 fresh host val
  | .uint24 val, b => b.WriteUInt24 fresh host val
  | .uint32 val, b => b.WriteUInt32 fresh host val
  | .uint64 val, b => b.WriteUInt64 fresh host val
  | .string val, b => b.WriteString fresh val
  | .bytes val, b => b.WriteBytes fresh val

def read : Read → ByteBuffer → ByteBuffer × Answer
  | .uint8 val, b => (b.ReadUInt8 val).map id .number
  | .uint16 val, b => (b.ReadUInt16 host val).map id .number
  | .uint24 val, b => (b.ReadUInt24 host val).map id .number
  | .uint32 val, b => (b.ReadUInt32 host val).map id .number
  | .uint64 val, b => (b.ReadUInt64 host val).map id .number
  | .string val len, b => (b.ReadString val len).map id .text
  | .bytes len, b => (b.ReadBytes len).map id .text

/-- Reserved room is filled at the place that was given out. -/
def fill (filled : Str) (b : ByteBuffer) : ByteBuffer :=
  let (b, start) := b.ReserveWriteBuffer fresh filled.length
  b.Store start filled

/-- What a call does to the buffer. -/
def act (positions : List (ReadPosition × ℕ)) : Call → ByteBuffer → ByteBuffer × Answer
  | .write w, b => (write fresh host w b, .done)
  | .reserveWriteBuffer filled, b => (fill fresh filled b, .done)
  | .read r, b => read host r b
  | .consume size, b => (b.Consume size).map id .flag
  | .resize size, b => (b.Resize fresh size, .done)
  | .getReadPosition, b => (b, .done)
  | .setReadPosition k, b =>
    match positions[k]? with
    | some position => (b.SetReadPosition position.1).map id .flag
    | none => (b, .flag false)
  | .clear, b => (b.Clear, .done)

/-- A call, and what is seen then: the answer, and what can be read. -/
def step (w : World) (call : Call) : World × (Answer × Str) :=
  let (buffer, answer) := act fresh host w.positions call w.buffer
  ({ buffer
     positions := match call with
       | .getReadPosition => w.positions ++ [(w.buffer.GetReadPosition, w.moves)]
       | _ => w.positions
     moves := if buffer.version_ = w.buffer.version_ then w.moves else w.moves + 1 },
    (answer, buffer.Data))

/-! ## 3. What a call does -/

/-- What is stored for a write. -/
theorem write_eq (w : Write) (b : ByteBuffer) :
    write fresh host w b = b.WriteBytes fresh (w.encode b.byte_order_ host) := by
  cases w with
  | uint8 val =>
    have hone : [val] = bytesOf b.byte_order_ host 1 val.toNat := by
      unfold bytesOf encode
      simp [encode]
    exact congrArg (b.WriteBytes fresh) hone
  | uint16 val => exact congrArg (b.WriteBytes fresh) (written_bytes _ host 2 _)
  | uint24 val =>
    have hbytes := written_bytes24 b host val.toNat
    rw [← written_bytes] at hbytes
    exact congrArg (b.WriteBytes fresh) hbytes
  | uint32 val => exact congrArg (b.WriteBytes fresh) (written_bytes _ host 4 _)
  | uint64 val => exact congrArg (b.WriteBytes fresh) (written_bytes _ host 8 _)
  | string val | bytes val => rfl

/-- What the readers of numbers have in common. -/
theorem readUInt_spec (h : b.Wf) (w : ℕ) :
    b.ReadUInt host w true = if w ≤ b.Data.length then
        ({ b with start_ := b.start_ + w },
          some (valueOf b.byte_order_ host (b.Data.take w)))
      else (b, none) := by
  unfold ReadUInt
  rw [readBytes_spec h]
  by_cases hw : w ≤ b.Data.length
  · have hvalue := read_value b.byte_order_ host (b.Data.take w)
    rw [List.length_take_of_le hw] at hvalue
    rw [if_pos hw, if_pos hw]
    exact congrArg (fun v => (_, some v)) hvalue
  · rw [if_neg hw, if_neg hw]
    rfl

theorem readUInt24_spec (h : b.Wf) :
    b.ReadUInt24 host true = if 3 ≤ b.Data.length then
        ({ b with start_ := b.start_ + 3 },
          some (valueOf b.byte_order_ host (b.Data.take 3)))
      else (b, none) := by
  unfold ReadUInt24
  rw [readBytes_spec h]
  by_cases hthree : 3 ≤ b.Data.length
  · have hvalue := read_value24 b host (List.length_take_of_le hthree)
    rw [if_pos hthree, if_pos hthree]
    exact congrArg (fun v => (_, some v)) hvalue
  · rw [if_neg hthree, if_neg hthree]
    rfl

theorem readUInt8_spec (h : b.Wf) :
    b.ReadUInt8 true = if 1 ≤ b.Data.length then
        ({ b with start_ := b.start_ + 1 },
          some (valueOf b.byte_order_ host (b.Data.take 1)))
      else (b, none) := by
  unfold ReadUInt8
  rw [readBytes_spec h]
  by_cases hone : 1 ≤ b.Data.length
  · have hlength := List.length_take_of_le hone
    obtain ⟨x, hx⟩ := List.length_eq_one_iff.1 hlength
    have hvalue : valueOf b.byte_order_ host [x] = x.toNat := by
      unfold valueOf
      simp [decode]
    rw [if_pos hone, if_pos hone, hx, hvalue]
    rfl
  · rw [if_neg hone, if_neg hone]
    rfl

/-- A read takes as many bytes as it asks for, and answers with them, or changes nothing. -/
theorem read_spec (h : b.Wf) (r : Read) :
    read host r b = match r.width with
      | some n =>
        if n ≤ b.Data.length then
          ({ b with start_ := b.start_ + n },
            r.answer b.byte_order_ host (some (b.Data.take n)))
        else (b, r.answer b.byte_order_ host none)
      | none => (b, r.answer b.byte_order_ host none) := by
  -- what a read of some width answers, when its bytes are there and when they are not
  have hmap : ∀ {α : Type} (n : ℕ) (val : α) (f : Option α → Answer),
      (if n ≤ b.Data.length then
          (({ b with start_ := b.start_ + n }, some val) : ByteBuffer × Option α)
        else (b, none)).map id f
      = if n ≤ b.Data.length then ({ b with start_ := b.start_ + n }, f (some val))
        else (b, f none) := by
    intro α n val f
    split <;> rfl
  cases r with
  | uint8 val =>
    cases val
    · rfl
    · exact (congrArg (Prod.map id _) (readUInt8_spec host h)).trans (hmap 1 _ _)
  | uint16 val =>
    cases val
    · rfl
    · exact (congrArg (Prod.map id _) (readUInt_spec host h 2)).trans (hmap 2 _ _)
  | uint24 val =>
    cases val
    · rfl
    · exact (congrArg (Prod.map id _) (readUInt24_spec host h)).trans (hmap 3 _ _)
  | uint32 val =>
    cases val
    · rfl
    · exact (congrArg (Prod.map id _) (readUInt_spec host h 4)).trans (hmap 4 _ _)
  | uint64 val =>
    cases val
    · rfl
    · exact (congrArg (Prod.map id _) (readUInt_spec host h 8)).trans (hmap 8 _ _)
  | string val len =>
    cases val
    · rfl
    · exact (congrArg (Prod.map id _) (readBytes_spec h len)).trans (hmap len _ _)
  | bytes len => exact (congrArg (Prod.map id _) (readBytes_spec h len)).trans (hmap len _ _)

/-! ## 4. The relation -/

/-- As long as nothing has moved since a position was taken, it restores what is saved. -/
structure Saved (b : ByteBuffer) (moves : ℕ) (p : ReadPosition × ℕ) (s : Str) : Prop where
  le : p.2 ≤ moves
  version : b.version_ = p.1.version_ + UInt32.ofNat (moves - p.2)
  restores : moves = p.2 → p.1.start_ ≤ (b.bytes_.take b.end_).length
    ∧ (b.bytes_.take b.end_).drop p.1.start_ = s

/-- The buffer is the queue. -/
structure Related (order : ByteOrder) (w : World) (q : Queue) : Prop where
  wf : w.buffer.Wf
  order_eq : w.buffer.byte_order_ = order
  content : w.buffer.Data = q.content
  saved : List.Forall₂ (Saved w.buffer w.moves) w.positions q.saved

variable {c : ByteBuffer} {moves : ℕ} {p : ReadPosition × ℕ} {s : Str}

/-- Where nothing moves and nothing is written, positions restore what they did. -/
theorem Saved.stay {b : ByteBuffer} (h : Saved b moves p s) (hversion : c.version_ = b.version_)
    (htake : c.bytes_.take c.end_ = b.bytes_.take b.end_) : Saved c moves p s := by
  refine ⟨h.le, hversion.trans h.version, ?_⟩
  rw [htake]
  exact h.restores

/-- What is written is restored as well. -/
theorem Saved.append {b : ByteBuffer} {t : Str} (h : Saved b moves p s)
    (hversion : c.version_ = b.version_)
    (htake : c.bytes_.take c.end_ = b.bytes_.take b.end_ ++ t) : Saved c moves p (s ++ t) := by
  refine ⟨h.le, hversion.trans h.version, ?_⟩
  intro hmoves
  obtain ⟨hle, hdrop⟩ := h.restores hmoves
  rw [htake, List.length_append]
  refine ⟨Nat.le_add_right_of_le hle, ?_⟩
  rw [List.drop_append_of_le_length hle, hdrop]

/-- After a move nothing is promised. -/
theorem Saved.move {b : ByteBuffer} (t : Str) (h : Saved b moves p s)
    (hversion : c.version_ = b.version_ + 1) : Saved c (moves + 1) p t := by
  have hle := h.le
  refine ⟨Nat.le_succ_of_le hle, ?_, ?_⟩
  · have hone : moves + 1 - p.2 = moves - p.2 + 1 := by omega
    rw [hversion, h.version, hone, UInt32.ofNat_add, UInt32.add_assoc]
    rfl
  · intro hmoves
    omega

theorem ne_add_one (v : UInt32) : v + 1 ≠ v := by
  intro h
  have hsum := congrArg UInt32.toNat h
  have hlt := v.toNat_lt
  rw [UInt32.toNat_add] at hsum
  have hone : (1 : UInt32).toNat = 1 := rfl
  omega

/-- Positions are the same after as many moves only if the version has not gone round. -/
theorem Saved.still {b : ByteBuffer} (h : Saved b moves p s)
    (hversion : p.1.version_ = b.version_) (hround : moves = p.2 ∨ ¬ 2 ^ 32 ∣ moves - p.2) :
    moves = p.2 := by
  apply hround.resolve_right
  intro hnot
  apply hnot
  have hsum := congrArg UInt32.toNat h.version
  have hlt := p.1.version_.toNat_lt
  rw [← hversion, UInt32.toNat_add, UInt32.toNat_ofNat'] at hsum
  omega

section Step

variable {order : ByteOrder} {w : World} {q : Queue}

/-- Nothing has moved, and the block up to the end is what it was. -/
theorem Related.stay (h : Related order w q) {c : ByteBuffer} {content : Str} (hwf : c.Wf)
    (horder : c.byte_order_ = w.buffer.byte_order_) (hcontent : c.Data = content)
    (hversion : c.version_ = w.buffer.version_)
    (htake : c.bytes_.take c.end_ = w.buffer.bytes_.take w.buffer.end_) :
    Related order { w with buffer := c } { q with content } :=
  ⟨hwf, horder.trans h.order_eq, hcontent, h.saved.imp fun _ _ hs => hs.stay hversion htake⟩

/-- Bytes have moved. -/
theorem Related.move (h : Related order w q) {c : ByteBuffer} {q' : Queue} (hwf : c.Wf)
    (horder : c.byte_order_ = w.buffer.byte_order_) (hcontent : c.Data = q'.content)
    (hsaved : ∃ f : Str → Str, q'.saved = q.saved.map f)
    (hversion : c.version_ = w.buffer.version_ + 1) :
    Related order { w with buffer := c, moves := w.moves + 1 } q' := by
  obtain ⟨f, hf⟩ := hsaved
  refine ⟨hwf, horder.trans h.order_eq, hcontent, ?_⟩
  rw [hf]
  apply List.forall₂_map_right_iff.2
  exact h.saved.imp fun _ s hs => hs.move (f s) hversion

/-- A write keeps the relation, whether the bytes move for it or not. -/
theorem Related.write (h : Related order w q) (s : Str) :
    Related order
      { w with
        buffer := w.buffer.WriteBytes fresh s
        moves := if (w.buffer.WriteBytes fresh s).version_ = w.buffer.version_ then w.moves
          else w.moves + 1 }
      (q.put s) := by
  obtain ⟨hwf, hdata, horder, hmoved⟩ := writeBytes_spec fresh h.wf s
  have hcontent : (w.buffer.WriteBytes fresh s).Data = (q.put s).content := by
    rw [hdata, h.content]
    rfl
  rcases hmoved with ⟨hversion, htake⟩ | hversion
  · rw [if_pos hversion]
    refine ⟨hwf, horder.trans h.order_eq, hcontent, ?_⟩
    apply List.forall₂_map_right_iff.2
    exact h.saved.imp fun _ _ hs => hs.append hversion htake
  · have hne : ¬ (w.buffer.WriteBytes fresh s).version_ = w.buffer.version_ := by
      rw [hversion]
      exact ne_add_one _
    rw [if_neg hne]
    exact h.move hwf horder hcontent ⟨_, rfl⟩ hversion

/-- A position that was taken, and what it restores. -/
theorem Related.saved_of_get (h : Related order w q) {k : ℕ} {p : ReadPosition × ℕ}
    (hp : w.positions[k]? = some p) :
    ∃ s, q.saved[k]? = some s ∧ Saved w.buffer w.moves p s := by
  obtain ⟨hk, hget⟩ := List.getElem?_eq_some_iff.1 hp
  have hk' : k < q.saved.length := by
    rw [← h.saved.length_eq]
    exact hk
  have hsaved := h.saved.get hk hk'
  rw [List.get_eq_getElem, List.get_eq_getElem, hget] at hsaved
  exact ⟨q.saved[k], List.getElem?_eq_getElem hk', hsaved⟩

/-- What the caller of `Resize` promises: there is room for what can be read. -/
def Promised (w : World) : Call → Prop
  | .resize size => w.buffer.Length ≤ size
  | _ => True

/-- The version has not gone round to the same number again since a position was taken. -/
def NotRound (w : World) : Call → Prop
  | .setReadPosition k => ∀ p, w.positions[k]? = some p → w.moves = p.2 ∨ ¬ 2 ^ 32 ∣ w.moves - p.2
  | _ => True

/-- What is seen of a call is what the queue allows. -/
def Observed (order : ByteOrder) (host : Host) (q : Queue) (call : Call) (seen : Answer × Str)
    (q' : Queue) : Prop :=
  q.Spec order host call seen.1 q' ∧ seen.2 = q'.content

variable {host}

theorem Related.forward (h : Related order w q) {n : ℕ} (hn : n ≤ q.content.length) :
    Related order { w with buffer := { w.buffer with start_ := w.buffer.start_ + n } }
      { q with content := q.content.drop n } := by
  rw [← h.content] at hn ⊢
  obtain ⟨hwf, hdata⟩ := forward_spec h.wf hn
  exact h.stay hwf rfl hdata rfl rfl

/-- A position that is good restores what is saved for it. -/
theorem Related.restore (h : Related order w q) {k : ℕ} {p : ReadPosition × ℕ}
    (hp : w.positions[k]? = some p) (hversion : p.1.version_ = w.buffer.version_)
    (hround : w.moves = p.2 ∨ ¬ 2 ^ 32 ∣ w.moves - p.2) :
    ∃ s, q.saved[k]? = some s
      ∧ Related order { w with buffer := { w.buffer with start_ := p.1.start_ } }
        { q with content := s } := by
  obtain ⟨s, hs, hsaved⟩ := h.saved_of_get hp
  obtain ⟨hle, hdrop⟩ := hsaved.restores (hsaved.still hversion hround)
  have hstart : p.1.start_ ≤ w.buffer.end_ := Nat.le_trans hle (List.length_take_le _ _)
  exact ⟨s, hs, h.stay ⟨hstart, h.wf.end_le, h.wf.length_bytes⟩ rfl hdrop rfl rfl⟩

/-- A new position restores what can be read now. -/
theorem Related.taken (h : Related order w q) :
    Related order
      { w with positions := w.positions ++ [(w.buffer.GetReadPosition, w.moves)] }
      { q with saved := q.saved ++ [q.content] } := by
  have hnew : Saved w.buffer w.moves (w.buffer.GetReadPosition, w.moves) q.content := by
    refine ⟨Nat.le_refl _, ?_, fun _ => ⟨?_, h.content⟩⟩
    · show w.buffer.version_ = w.buffer.version_ + UInt32.ofNat (w.moves - w.moves)
      rw [Nat.sub_self]
      exact (UInt32.add_zero _).symm
    · show w.buffer.start_ ≤ (w.buffer.bytes_.take w.buffer.end_).length
      have hstart := h.wf.start_le
      have hend := h.wf.end_le
      have hbytes := h.wf.length_bytes
      rw [List.length_take]
      omega
  exact ⟨h.wf, h.order_eq, h.content, List.rel_append h.saved (.cons hnew .nil)⟩

/-- A call that leaves the version as it is moves nothing. -/
theorem step_still {call : Call} {c : ByteBuffer} {answer : Answer}
    (hact : act fresh host w.positions call w.buffer = (c, answer))
    (hcall : call ≠ .getReadPosition) (hversion : c.version_ = w.buffer.version_) :
    step fresh host w call = ({ w with buffer := c }, (answer, c.Data)) := by
  unfold step
  rw [hact]
  dsimp only
  rw [if_pos hversion]
  cases call <;> first | rfl | exact absurd rfl hcall

/-- A call that counts the version up has moved something. -/
theorem step_move {call : Call} {c : ByteBuffer} {answer : Answer}
    (hact : act fresh host w.positions call w.buffer = (c, answer))
    (hcall : call ≠ .getReadPosition) (hversion : c.version_ = w.buffer.version_ + 1) :
    step fresh host w call
      = ({ w with buffer := c, moves := w.moves + 1 }, (answer, c.Data)) := by
  have hne : ¬ c.version_ = w.buffer.version_ := by
    rw [hversion]
    exact ne_add_one _
  unfold step
  rw [hact]
  dsimp only
  rw [if_neg hne]
  cases call <;> first | rfl | exact absurd rfl hcall

/-- A call does to the buffer what it does to the queue. -/
def Kept (order : ByteOrder) (host : Host) (w : World) (q : Queue) (call : Call) : Prop :=
  ∃ q', Observed order host q call (step fresh host w call).2 q'
    ∧ Related order (step fresh host w call).1 q'

section Cases

variable {fresh} {call : Call} {c : ByteBuffer} {answer : Answer} {q' : Queue}

theorem kept_of_still (hact : act fresh host w.positions call w.buffer = (c, answer))
    (hcall : call ≠ .getReadPosition) (hversion : c.version_ = w.buffer.version_)
    (hspec : q.Spec order host call answer q')
    (hrelated : Related order { w with buffer := c } q') :
    Kept fresh order host w q call := by
  unfold Kept
  rw [step_still fresh hact hcall hversion]
  exact ⟨q', ⟨hspec, hrelated.content⟩, hrelated⟩

theorem kept_of_move (hact : act fresh host w.positions call w.buffer = (c, answer))
    (hcall : call ≠ .getReadPosition) (hversion : c.version_ = w.buffer.version_ + 1)
    (hspec : q.Spec order host call answer q')
    (hrelated : Related order { w with buffer := c, moves := w.moves + 1 } q') :
    Kept fresh order host w q call := by
  unfold Kept
  rw [step_move fresh hact hcall hversion]
  exact ⟨q', ⟨hspec, hrelated.content⟩, hrelated⟩

/-- The buffer and the queue are as they were. -/
theorem Related.unchanged (h : Related order w q)
    (hact : act fresh host w.positions call w.buffer = (w.buffer, answer))
    (hcall : call ≠ .getReadPosition) (hspec : q.Spec order host call answer q) :
    Kept fresh order host w q call :=
  kept_of_still hact hcall rfl hspec h

/-- A call that takes the first bytes, or changes nothing. -/
theorem Related.kept_take (h : Related order w q) {n : ℕ} {f : Option Str → Answer}
    (hact : act fresh host w.positions call w.buffer = if n ≤ q.content.length then
        ({ w.buffer with start_ := w.buffer.start_ + n }, f (some (q.content.take n)))
      else (w.buffer, f none))
    (hcall : call ≠ .getReadPosition)
    (hspec : q.Spec order host call (f (q.take (some n)).1) (q.take (some n)).2) :
    Kept fresh order host w q call := by
  by_cases hn : n ≤ q.content.length
  · have htake : q.take (some n)
        = (some (q.content.take n), { q with content := q.content.drop n }) := if_pos hn
    rw [if_pos hn] at hact
    rw [htake] at hspec
    exact kept_of_still hact hcall rfl hspec (h.forward hn)
  · have htake : q.take (some n) = (none, q) := if_neg hn
    rw [if_neg hn] at hact
    rw [htake] at hspec
    exact h.unchanged hact hcall hspec

end Cases

theorem Related.kept_read (h : Related w.buffer.byte_order_ w q) (r : Read) :
    Kept fresh w.buffer.byte_order_ host w q (.read r) := by
  have hread := read_spec host h.wf r
  have hact : act fresh host w.positions (.read r) w.buffer = read host r w.buffer := rfl
  rw [h.content] at hread
  cases hwidth : r.width with
  | none =>
    rw [hwidth] at hread
    apply h.unchanged (hact.trans hread) nofun
    show _ = r.answer _ host (q.take r.width).1 ∧ q = (q.take r.width).2
    rw [hwidth]
    exact ⟨rfl, rfl⟩
  | some n =>
    rw [hwidth] at hread
    apply h.kept_take (f := fun o => r.answer w.buffer.byte_order_ host o)
      (hact.trans hread) nofun
    show _ = r.answer _ host (q.take r.width).1 ∧ _ = (q.take r.width).2
    rw [hwidth]
    exact ⟨rfl, rfl⟩

theorem Related.kept_consume (h : Related order w q) (n : ℕ) :
    Kept fresh order host w q (.consume n) := by
  have hlength := h.wf.length_data
  have hconsume : act fresh host w.positions (.consume n) w.buffer
      = if n ≤ q.content.length then
          ({ w.buffer with start_ := w.buffer.start_ + n }, Answer.flag true)
        else (w.buffer, Answer.flag false) := by
    show (w.buffer.Consume n).map id Answer.flag = _
    unfold Consume
    rw [← hlength, h.content]
    by_cases hn : n ≤ q.content.length
    · rw [if_neg (Nat.not_lt_of_le hn), if_pos hn]
      rfl
    · rw [if_pos (Nat.lt_of_not_le hn), if_neg hn]
      rfl
  exact h.kept_take (f := fun o => Answer.flag o.isSome) hconsume nofun ⟨rfl, rfl⟩

/-- A position restores what is saved for it, or is good no more. -/
theorem Related.kept_setReadPosition (h : Related order w q) {k : ℕ}
    (hround : NotRound w (.setReadPosition k)) :
    Kept fresh order host w q (.setReadPosition k) := by
  have hset : act fresh host w.positions (.setReadPosition k) w.buffer
      = match w.positions[k]? with
        | some position => (w.buffer.SetReadPosition position.1).map id .flag
        | none => (w.buffer, .flag false) := rfl
  cases hp : w.positions[k]? with
  | none =>
    rw [hp] at hset
    exact h.unchanged hset nofun (Or.inl ⟨rfl, rfl⟩)
  | some p =>
    rw [hp] at hset
    dsimp only at hset
    unfold SetReadPosition at hset
    by_cases hversion : p.1.version_ = w.buffer.version_
    · obtain ⟨s, hs, hrestore⟩ := h.restore hp hversion (hround p hp)
      rw [if_neg (not_not.2 hversion)] at hset
      exact kept_of_still hset nofun rfl (Or.inr ⟨s, hs, rfl, rfl⟩) hrestore
    · rw [if_pos hversion] at hset
      exact h.unchanged hset nofun (Or.inl ⟨rfl, rfl⟩)

/-- Every call does to the buffer what it does to the queue. -/
theorem step_observed (h : Related order w q) (call : Call)
    (hcall : Promised w call ∧ NotRound w call) : Kept fresh order host w q call := by
  obtain ⟨hpromised, hround⟩ := hcall
  obtain rfl := h.order_eq
  cases call with
  | write v =>
    have hput := h.write fresh (v.encode w.buffer.byte_order_ host)
    rw [← write_eq] at hput
    exact ⟨_, ⟨⟨rfl, rfl⟩, hput.content⟩, hput⟩
  | reserveWriteBuffer filled =>
    have hput := h.write fresh filled
    exact ⟨q.put filled, ⟨⟨rfl, rfl⟩, hput.content⟩, hput⟩
  | read r => exact h.kept_read fresh r
  | consume n => exact h.kept_consume fresh n
  | resize n =>
    obtain ⟨hwf, hdata, -, -, -, hversion, horder⟩ := resize_spec fresh h.wf hpromised
    have hmove := h.move hwf horder (hdata.trans h.content) ⟨id, (List.map_id _).symm⟩ hversion
    have hact : act fresh host w.positions (.resize n) w.buffer
        = (w.buffer.Resize fresh n, .done) := rfl
    exact kept_of_move hact nofun hversion ⟨rfl, rfl⟩ hmove
  | getReadPosition =>
    have hstep : step fresh host w .getReadPosition
        = ({ w with positions := w.positions ++ [(w.buffer.GetReadPosition, w.moves)] },
          (.done, w.buffer.Data)) := by
      unfold step act
      dsimp only
      rw [if_pos rfl]
    unfold Kept
    rw [hstep]
    exact ⟨_, ⟨⟨rfl, rfl⟩, h.content⟩, h.taken⟩
  | setReadPosition k => exact h.kept_setReadPosition fresh hround
  | clear =>
    have hwf : w.buffer.Clear.Wf :=
      ⟨Nat.le_refl _, Nat.zero_le _, List.length_replicate⟩
    have hmove : Related _ _ { q with content := [] } :=
      h.move hwf rfl rfl ⟨id, (List.map_id _).symm⟩ rfl
    have hact : act fresh host w.positions .clear w.buffer = (w.buffer.Clear, .done) := rfl
    exact kept_of_move hact nofun rfl ⟨rfl, rfl⟩ hmove

end Step

/-! ## 5. Every run -/

/-- A new buffer, of some bytes or with room for some. -/
def start (order : ByteOrder) (bytes : Option Str) (room : ℕ) : World :=
  ⟨Construct fresh bytes ((bytes.map List.length).getD room) order, [], 0⟩

/-- What is read back of a write. -/
def Write.read : Write → Read
  | .uint8 _ => .uint8 true
  | .uint16 _ => .uint16 true
  | .uint24 _ => .uint24 true
  | .uint32 _ => .uint32 true
  | .uint64 _ => .uint64 true
  | .string val => .string true val.length
  | .bytes val => .bytes val.length

/-- The answer to that. -/
def Write.value : Write → Answer
  | .uint8 val => .number (some val.toNat)
  | .uint16 val => .number (some val.toNat)
  | .uint24 val => .number (some (val.toNat % 2 ^ 24))
  | .uint32 val => .number (some val.toNat)
  | .uint64 val => .number (some val.toNat)
  | .string val | .bytes val => .text (some val)

theorem start_related (order : ByteOrder) (bytes : Option Str) (room : ℕ) :
    Related order (start fresh order bytes room) ⟨bytes.getD [], []⟩ := by
  cases bytes with
  | none =>
    refine ⟨⟨Nat.le_refl _, Nat.zero_le _, length_newBlock fresh room⟩, rfl, ?_, .nil⟩
    rfl
  | some s =>
    have hput : put (newBlock fresh s.length) 0 (s.take s.length) = s := by
      rw [put_zero, List.take_length,
        List.drop_of_length_le (Nat.le_of_eq (length_newBlock fresh _)),
        List.append_nil]
    have hdata : ((put (newBlock fresh s.length) 0 (s.take s.length)).take s.length).drop 0
        = s := by
      rw [hput, List.take_length, List.drop_zero]
    refine ⟨⟨Nat.zero_le _, Nat.le_refl _, ?_⟩, rfl, hdata, .nil⟩
    exact congrArg List.length hput

/-- As many bytes are asked for as were written, and they are answered as what was written. -/
theorem width_read (order : ByteOrder) (w : Write) :
    w.read.width = some (w.encode order host).length
      ∧ w.read.answer order host (some (w.encode order host)) = w.value := by
  have hvalue : ∀ {k v : ℕ}, v < 2 ^ (8 * k) →
      Answer.number (some (valueOf order host (bytesOf order host k v))) = .number (some v) := by
    intro k v hv
    rw [valueOf_bytesOf, Nat.mod_eq_of_lt hv]
  cases w with
  | uint8 val =>
    exact ⟨congrArg some (length_bytesOf order host 1 _).symm, hvalue val.toNat_lt⟩
  | uint16 val =>
    exact ⟨congrArg some (length_bytesOf order host 2 _).symm, hvalue val.toNat_lt⟩
  | uint24 val =>
    refine ⟨congrArg some (length_bytesOf order host 3 _).symm, ?_⟩
    exact congrArg (fun v => Answer.number (some v)) (valueOf_bytesOf order host 3 _)
  | uint32 val =>
    exact ⟨congrArg some (length_bytesOf order host 4 _).symm, hvalue val.toNat_lt⟩
  | uint64 val =>
    exact ⟨congrArg some (length_bytesOf order host 8 _).symm, hvalue val.toNat_lt⟩
  | string val | bytes val => exact ⟨rfl, rfl⟩

/-- What is written is read back, whatever is behind it. -/
theorem take_encode (order : ByteOrder) (w : Write) (rest : Str) (saved : List Str) :
    (Queue.mk (w.encode order host ++ rest) saved).take w.read.width
      = (some (w.encode order host), ⟨rest, saved⟩) := by
  have hle : (w.encode order host).length ≤ (w.encode order host ++ rest).length := by
    rw [List.length_append]
    omega
  rw [(width_read host order w).1]
  refine (if_pos hle).trans ?_
  rw [List.take_left, List.drop_left]

open Refining in
/-- Every run follows the queue in which the version does not go round to that of a position, and
every number or text that is written is read back as it was, one of 24 bits as far as these go. -/
theorem buffer_follows (order : ByteOrder) (bytes : Option Str) (room : ℕ) (calls : List Call)
    (hcalls : Meets (step fresh host) (fun w call => Promised w call ∧ NotRound w call)
      (start fresh order bytes room) calls) :
    Follows (Observed order host) ⟨bytes.getD [], []⟩
        (trace (step fresh host) (start fresh order bytes room) calls)
      ∧ ∀ (w : Write) (rest : Str) (saved : List Str) (answer : Answer) (q' : Queue),
        Queue.Spec order host ⟨w.encode order host ++ rest, saved⟩ (.read w.read) answer q'
          ↔ answer = w.value ∧ q' = ⟨rest, saved⟩ := by
  constructor
  · apply follows ?_ (start_related fresh order bytes room) hcalls
    intro w q call h hcall
    exact step_observed fresh h call hcall
  · intro w rest saved answer q'
    have htake := take_encode host order w rest saved
    have hanswer := (width_read host order w).2
    show answer = w.read.answer order host (Queue.take _ w.read.width).1
      ∧ q' = (Queue.take _ w.read.width).2 ↔ _
    rw [htake, hanswer]

open Refining in
/-- A number of 24 bits is written, read, read again from its position, and forgotten. -/
theorem buffer_follows_24 :
    Follows (Observed .ORDER_HOST ⟨false⟩) ⟨[], []⟩
      (trace (step (fun _ => 7) ⟨false⟩) (start (fun _ => 7) .ORDER_HOST none 0)
        [.write (.uint24 70000), .getReadPosition, .read (.uint24 true), .setReadPosition 0,
          .resize 3, .clear]) := by
  refine (buffer_follows (fun _ => 7) ⟨false⟩ .ORDER_HOST none 0 _ ?_).1
  refine ⟨⟨trivial, trivial⟩, ⟨trivial, trivial⟩, ⟨trivial, trivial⟩, ⟨trivial, ?_⟩, ⟨?_, trivial⟩,
    ⟨trivial, trivial⟩, trivial⟩
  · intro p hp
    cases hp
    exact Or.inl rfl
  · exact Nat.le_refl 3

/-! ## 6. A version that has gone round -/

section Round

theorem step_clear (w : World) :
    step fresh host w .clear
      = ({ w with buffer := w.buffer.Clear, moves := w.moves + 1 }, (.done, [])) := by
  have hact : act fresh host w.positions .clear w.buffer = (w.buffer.Clear, .done) := rfl
  rw [step_move fresh hact nofun rfl]
  rfl

/-- Clearing counts the version up, and keeps the positions. -/
theorem run_clears (n : ℕ) (w : World) (hend : w.buffer.end_ = 0) :
    let v := Refining.run (step fresh host) w (List.replicate n .clear)
    v.positions = w.positions ∧ v.buffer.end_ = 0
      ∧ v.buffer.version_ = w.buffer.version_ + UInt32.ofNat n := by
  induction n generalizing w with
  | zero => exact ⟨rfl, hend, (UInt32.add_zero _).symm⟩
  | succ n ih =>
    rw [List.replicate_succ, Refining.run, step_clear]
    obtain ⟨hpositions, hend', hversion⟩ :=
      ih { w with buffer := w.buffer.Clear, moves := w.moves + 1 } rfl
    refine ⟨hpositions, hend', hversion.trans ?_⟩
    show w.buffer.version_ + 1 + UInt32.ofNat n = w.buffer.version_ + UInt32.ofNat (n + 1)
    rw [UInt32.ofNat_add, UInt32.add_assoc, UInt32.add_comm 1]
    rfl

/-- The queue keeps what positions restore, while it is cleared. -/
theorem follows_clears {order : ByteOrder} (n : ℕ) {w : World} {q : Queue} {calls : List Call}
    (h : Refining.Follows (Observed order host) q
      (Refining.trace (step fresh host) w (List.replicate n .clear ++ calls))) :
    ∃ content, Refining.Follows (Observed order host) ⟨content, q.saved⟩
      (Refining.trace (step fresh host)
        (Refining.run (step fresh host) w (List.replicate n .clear)) calls) := by
  induction n generalizing w q with
  | zero => exact ⟨q.content, h⟩
  | succ n ih =>
    rw [List.replicate_succ] at h ⊢
    obtain ⟨q', ⟨⟨-, hq'⟩, -⟩, hmore⟩ := h
    obtain ⟨content, hfollows⟩ := ih hmore
    rw [hq'] at hfollows
    exact ⟨content, hfollows⟩

/-- Where the version has gone round, a position is good although nothing can be read from it. -/
theorem set_round {v : World} (hpositions : v.positions = [(⟨0, 0⟩, 0)])
    (hend : v.buffer.end_ = 0) (hversion : v.buffer.version_ = 0) :
    (step fresh host v (.setReadPosition 0)).2 = (.flag true, []) := by
  have hact : act fresh host v.positions (.setReadPosition 0) v.buffer
      = ({ v.buffer with start_ := 0 }, .flag true) := by
    unfold act
    rw [hpositions]
    show (v.buffer.SetReadPosition ⟨0, 0⟩).map id Answer.flag = _
    unfold SetReadPosition
    rw [if_neg (not_not.2 hversion.symm)]
    rfl
  have hdata : ({ v.buffer with start_ := 0 } : ByteBuffer).Data = [] := by
    unfold Data
    rw [hend]
    rfl
  rw [step_still fresh hact nofun rfl, hdata]

/-- The queue does not allow that, where something could be read when the position was taken. -/
theorem not_follows_round {n : ℕ} (hround : UInt32.ofNat (n + 1) = 0) :
    let calls : List Call :=
      .getReadPosition :: (List.replicate (n + 1) .clear ++ [.setReadPosition 0])
    ¬ Refining.Follows (Observed .ORDER_NETWORK host) ⟨[1], []⟩
      (Refining.trace (step fresh host) (start fresh .ORDER_NETWORK (some [1]) 0) calls) := by
  intro calls hfollows
  obtain ⟨q, ⟨⟨-, rfl⟩, -⟩, hmore⟩ := hfollows
  rw [List.replicate_succ] at hmore
  obtain ⟨q, ⟨⟨-, rfl⟩, -⟩, hmore⟩ := hmore
  rw [step_clear] at hmore
  obtain ⟨content, q', ⟨hspec, hcontent⟩, -⟩ := follows_clears fresh host n hmore
  obtain ⟨hpositions, hend, hversion⟩ := run_clears fresh host n
    ⟨(start fresh .ORDER_NETWORK (some [1]) 0).buffer.Clear, [(⟨0, 0⟩, 0)], 1⟩ rfl
  have hzero := hversion.trans
    (show 1 + UInt32.ofNat n = 0 by rw [← hround, UInt32.ofNat_add, UInt32.add_comm]; rfl)
  have hseen := set_round fresh host hpositions hend hzero
  have hnothing := hcontent.symm.trans (congrArg Prod.snd hseen)
  have hanswer := congrArg Prod.fst hseen
  rcases hspec with ⟨hfalse, -⟩ | ⟨s, hs, -, rfl⟩
  · exact absurd (hanswer.symm.trans hfalse) nofun
  · cases hs
    exact absurd hnothing nofun

end Round

open Refining in
/-- A position of a buffer that was cleared `2 ^ 32` times is taken for good, and restores nothing
of what could be read. -/
theorem old_position_taken :
    let calls : List Call :=
      .getReadPosition :: (List.replicate (2 ^ 32) .clear ++ [.setReadPosition 0])
    let w := start (fun _ => 0) .ORDER_NETWORK (some [1]) 0
    Meets (step (fun _ => 0) ⟨false⟩) Promised w calls
      ∧ ¬ Follows (Observed .ORDER_NETWORK ⟨false⟩) ⟨[1], []⟩
        (trace (step (fun _ => 0) ⟨false⟩) w calls) := by
  intro calls w
  constructor
  · apply Meets.of_forall
    intro call hcall _
    rcases List.mem_cons.1 hcall with rfl | hcall
    · trivial
    rcases List.mem_append.1 hcall with hcall | hcall
    · rw [List.eq_of_mem_replicate hcall]
      trivial
    · rw [List.mem_singleton.1 hcall]
      trivial
  · exact not_follows_round (fun _ => 0) ⟨false⟩ (n := 2 ^ 32 - 1) rfl

/-! ## 7. A record on its way to another host -/

section Record

variable {b : ByteBuffer}

def writeAll (fresh : ℕ → UInt8) (host : Host) (writes : List Write) (b : ByteBuffer) :
    ByteBuffer := writes.foldl (fun b w => write fresh host w b) b

def readAll (host : Host) : List Read → ByteBuffer → ByteBuffer × List Answer
  | [], b => (b, [])
  | r :: rs, b => ((readAll host rs (read host r b).1).1,
      (read host r b).2 :: (readAll host rs (read host r b).1).2)

theorem writeAll_data (fresh : ℕ → UInt8) (host : Host) (writes : List Write) (h : b.Wf) :
    (writeAll fresh host writes b).Data
      = b.Data ++ writes.flatMap fun w => w.encode b.byte_order_ host := by
  induction writes generalizing b with
  | nil => exact (List.append_nil _).symm
  | cons w writes ih =>
    obtain ⟨hwf, hdata, horder, -⟩ := writeBytes_spec fresh h (w.encode b.byte_order_ host)
    rw [← write_eq] at hwf hdata horder
    refine (ih hwf).trans ?_
    rw [hdata, horder, List.flatMap_cons, List.append_assoc]

theorem readAll_answers (host : Host) (writes : List Write) (h : b.Wf) {rest : Str}
    (hdata : b.Data = (writes.flatMap fun w => w.encode b.byte_order_ host) ++ rest) :
    (readAll host (writes.map Write.read) b).2 = writes.map Write.value
      ∧ (readAll host (writes.map Write.read) b).1.Data = rest := by
  induction writes generalizing b with
  | nil => exact ⟨rfl, hdata⟩
  | cons w writes ih =>
    obtain ⟨hwidth, hanswer⟩ := width_read host b.byte_order_ w
    rw [List.flatMap_cons, List.append_assoc] at hdata
    have hle : (w.encode b.byte_order_ host).length ≤ b.Data.length := by
      rw [hdata, List.length_append]
      omega
    have hread := read_spec host h w.read
    rw [hwidth] at hread
    dsimp only at hread
    rw [if_pos hle, hdata, List.take_left, hanswer] at hread
    obtain ⟨hwf, hleft⟩ := forward_spec h hle
    rw [hdata, List.drop_left] at hleft
    obtain ⟨hvalues, hrest⟩ := ih hwf hleft
    unfold List.map readAll
    rw [hread]
    exact ⟨congrArg (w.value :: ·) hvalues, hrest⟩

/-- What is written in the order of the network is read on every host, in front of what follows. -/
theorem record_crosses (fresh fresh' : ℕ → UInt8) (sender receiver : Host) (writes : List Write)
    (room : ℕ) (rest : Str) :
    let sent := (writeAll fresh sender writes (start fresh .ORDER_NETWORK none room).buffer).Data
    let got := readAll receiver (writes.map Write.read)
      (start fresh' .ORDER_NETWORK (some (sent ++ rest)) 0).buffer
    got.2 = writes.map Write.value ∧ got.1.Data = rest := by
  intro sent got
  have hempty := start_related fresh .ORDER_NETWORK none room
  have hsent : sent = writes.flatMap fun w => w.encode .ORDER_NETWORK receiver := by
    refine (writeAll_data fresh sender writes hempty.wf).trans ?_
    rw [hempty.content]
    refine List.flatMap_congr fun w _ => ?_
    cases w with
    | _ => rfl
  have hfilled := start_related fresh' .ORDER_NETWORK (some (sent ++ rest)) 0
  exact readAll_answers receiver writes hfilled.wf (hfilled.content.trans (hsent ▸ rfl))

end Record

end Gxmpp.TalkBase.ByteBuffer
