/-
`Flow`, in `talk/base/stream.cc`.

The source and the sink are streams over one state, so that they may share something, or change with
the time. What has been taken from the one and accepted by the other is written into a ledger by the
streams themselves, not by `Flow`: a stream with a ledger is a stream as well.
-/
import Gxmpp.MemoryStream

set_option autoImplicit false

namespace Gxmpp.TalkBase

open Ring (put)
open Walking (Round rounds Keeps)

variable {σ : Type}

/-! ## 1. The loops -/

namespace Flow

/-- The variables of the loops, `s` being what the streams are in. -/
structure Vars (σ : Type) where
  s : σ
  buffer : Str
  read_pos : ℕ
  end_of_stream : Bool

/-- What is there after a return. -/
structure Returned (σ : Type) where
  s : σ
  buffer : Str
  /-- `*data_len`, if there is one -/
  data_len : Option ℕ
  result : StreamResult

variable (source sink : StreamInterface σ) (buffer_len : ℕ) (data_len : Option ℕ)

/-- Read until buffer is full, end of stream, or error. -/
def readRound : Round (Vars σ) (Returned σ ⊕ Vars σ) := fun v =>
  if v.end_of_stream = false ∧ v.read_pos < buffer_len then
    let (s, result, bytes) := source.Read v.s (buffer_len - v.read_pos)
    if result = .SR_EOS then .inl { v with s, end_of_stream := true }
    else if result ≠ .SR_SUCCESS then
      .inr (.inl ⟨s, v.buffer, data_len.map fun _ => v.read_pos, result⟩)
    else
      .inl { v with s, buffer := put v.buffer v.read_pos bytes
                    read_pos := v.read_pos + bytes.length }
  else .inr (.inr v)

/-- Write until buffer is empty, or error (including end of stream). -/
def writeRound (buffer : Str) (read_pos : ℕ) : Round (σ × ℕ) (Returned σ ⊕ σ) :=
  fun (s, write_pos) =>
    if write_pos < read_pos then
      let (s, result, count) := sink.Write s ((buffer.take read_pos).drop write_pos)
      if result ≠ .SR_SUCCESS then
        -- what is left is moved to the front, where the caller can know how much it is
        let buffer :=
          if data_len.isSome ∧ write_pos > 0 then
            put buffer 0 ((buffer.take read_pos).drop write_pos)
          else buffer
        .inr (.inl ⟨s, buffer, data_len.map fun _ => read_pos - write_pos, result⟩)
      else .inl (s, write_pos + count)
    else .inr (.inr s)

/-- A round of the outer loop. A loop inside may not end in `n` rounds. -/
def pumpRound (n : ℕ) : Round (Vars σ) (Option (Returned σ)) := fun v =>
  match rounds (readRound source buffer_len data_len) n v with
  | none => .inr none
  | some (.inl r) => .inr (some r)
  | some (.inr v) =>
    match rounds (writeRound sink data_len v.buffer v.read_pos) n (v.s, 0) with
    | none => .inr none
    | some (.inl r) => .inr (some r)
    | some (.inr s) =>
      if v.end_of_stream then .inr (some ⟨s, v.buffer, data_len.map fun _ => 0, .SR_SUCCESS⟩)
      else .inl { v with s, read_pos := 0 }

end Flow

/-- `Flow`, of at most `n` rounds of each loop. -/
def Flow (n : ℕ) (source : StreamInterface σ) (buffer : Str) (buffer_len : ℕ)
    (sink : StreamInterface σ) (data_len : Option ℕ) (s : σ) : Option (Flow.Returned σ) :=
  (rounds (Flow.pumpRound source sink buffer_len data_len n) n
    ⟨s, buffer, data_len.getD 0, false⟩).join

/-! ## 2. Streams that count, and the ledger -/

/-- A stream that keeps to the interface: on success something was done, and no more than was asked
for. -/
structure CountingStream (σ : Type) extends StreamInterface σ where
  read_count : ∀ {s s' n bytes}, 0 < n → Read s n = (s', .SR_SUCCESS, bytes) →
    0 < bytes.length ∧ bytes.length ≤ n
  write_count : ∀ {s s' data count}, 0 < data.length → Write s data = (s', .SR_SUCCESS, count) →
    0 < count ∧ count ≤ data.length

/-- What has been taken from the source, what the sink has accepted, and whether the source said
the last time that it has come to its end. -/
structure Ledger where
  taken : Str
  accepted : Str
  ended : Bool

namespace Ledger

def new : Ledger := ⟨[], [], false⟩

def read (l : Ledger) (result : StreamResult) (bytes : Str) : Ledger :=
  { l with
    taken := if result = .SR_SUCCESS then l.taken ++ bytes else l.taken
    ended := result = .SR_EOS }

def write (l : Ledger) (result : StreamResult) (bytes : Str) : Ledger :=
  { l with accepted := if result = .SR_SUCCESS then l.accepted ++ bytes else l.accepted }

end Ledger

/-- The stream, which keeps a ledger. -/
def StreamInterface.booked (io : StreamInterface σ) : StreamInterface (σ × Ledger) where
  Read := fun (s, l) n =>
    let (s, result, bytes) := io.Read s n
    ((s, l.read result bytes), result, bytes)
  Write := fun (s, l) data =>
    let (s, result, count) := io.Write s data
    ((s, l.write result (data.take count)), result, count)

theorem booked_read {io : StreamInterface σ} {s s' : σ} {n : ℕ} {answer : StreamResult × Str}
    (h : io.Read s n = (s', answer)) (l : Ledger) :
    io.booked.Read (s, l) n = ((s', l.read answer.1 answer.2), answer) := by
  simp only [StreamInterface.booked, h]

theorem booked_write {io : StreamInterface σ} {s s' : σ} {data : Str} {answer : StreamResult × ℕ}
    (h : io.Write s data = (s', answer)) (l : Ledger) :
    io.booked.Write (s, l) data = ((s', l.write answer.1 (data.take answer.2)), answer) := by
  simp only [StreamInterface.booked, h]

/-- The books: what the sink has accepted, and then what is pending, is what was there in the
beginning, and then what was taken. -/
def Ledger.Balanced (l : Ledger) (residual pending : Str) : Prop :=
  l.accepted ++ pending = residual ++ l.taken

section Books

variable {l : Ledger} {residual pending : Str}

theorem Ledger.balanced_new (residual : Str) : Ledger.new.Balanced residual residual :=
  (List.append_nil residual).symm

theorem Ledger.Balanced.read (h : l.Balanced residual pending) (bytes : Str) :
    (l.read .SR_SUCCESS bytes).Balanced residual (pending ++ bytes) := by
  have h' : l.accepted ++ pending = residual ++ l.taken := h
  change l.accepted ++ (pending ++ bytes) = residual ++ (l.taken ++ bytes)
  rw [← List.append_assoc, h', List.append_assoc]

theorem Ledger.Balanced.read_nothing (h : l.Balanced residual pending) {result : StreamResult}
    (hresult : result ≠ .SR_SUCCESS) (bytes : Str) :
    (l.read result bytes).Balanced residual pending := by
  unfold Ledger.Balanced Ledger.read
  rw [if_neg hresult]
  exact h

theorem Ledger.Balanced.write (h : l.Balanced residual pending) (count : ℕ) :
    (l.write .SR_SUCCESS (pending.take count)).Balanced residual (pending.drop count) := by
  change l.accepted ++ pending.take count ++ pending.drop count = residual ++ l.taken
  rw [List.append_assoc, List.take_append_drop]
  exact h

theorem Ledger.Balanced.write_nothing (h : l.Balanced residual pending) {result : StreamResult}
    (hresult : result ≠ .SR_SUCCESS) (bytes : Str) :
    (l.write result bytes).Balanced residual pending := by
  unfold Ledger.Balanced Ledger.write
  rw [if_neg hresult]
  exact h

end Books

/-! ## 3. What the loops keep -/

namespace Flow

section Loops

variable (source sink : CountingStream σ) {buffer_len : ℕ} {residual : Str}

/-- Between two operations of the read loop. -/
structure Reading (buffer_len : ℕ) (residual : Str) (v : Vars (σ × Ledger)) : Prop where
  length : v.buffer.length = buffer_len
  read_le : v.read_pos ≤ buffer_len
  books : v.s.2.Balanced residual (v.buffer.take v.read_pos)
  ended : v.end_of_stream = true → v.s.2.ended = true

/-- Between two operations of the write loop. -/
structure Writing (buffer : Str) (read_pos : ℕ) (residual : Str) (ended : Bool)
    (w : (σ × Ledger) × ℕ) : Prop where
  write_le : w.2 ≤ read_pos
  books : w.1.2.Balanced residual ((buffer.take read_pos).drop w.2)
  ended : ended = true → w.1.2.ended = true

/-- The write loop comes to its end with nothing pending. -/
structure Written (residual : Str) (ended : Bool) (s : σ × Ledger) : Prop where
  books : s.2.Balanced residual []
  ended : ended = true → s.2.ended = true

theorem Writing.done {buffer : Str} {read_pos : ℕ} {ended : Bool} {s : σ × Ledger}
    (h : Writing buffer read_pos residual ended (s, read_pos)) : Written residual ended s := by
  refine ⟨?_, h.ended⟩
  have hbooks : s.2.Balanced residual ((buffer.take read_pos).drop read_pos) := h.books
  rwa [List.drop_eq_nil_of_le (List.length_take_le _ _)] at hbooks

/-- After a return, where the caller can know how much is left. -/
structure Settled (buffer_len : ℕ) (residual : Str) (r : Returned (σ × Ledger)) (len : ℕ) :
    Prop where
  data_len : r.data_len = some len
  length : r.buffer.length = buffer_len
  len_le : len ≤ buffer_len
  books : r.s.2.Balanced residual (r.buffer.take len)
  success : r.result = .SR_SUCCESS → len = 0 ∧ r.s.2.ended = true

theorem Settled.some {r : Returned (σ × Ledger)} {len : ℕ} (h : Settled buffer_len residual r len) :
    ∀ r', some r = some r' → ∃ len, Settled buffer_len residual r' len := by
  intro r' hr'
  rw [← Option.some.inj hr']
  exact ⟨len, h⟩

/-- A loop is left with a return, or at its end. -/
inductive Leaves {α : Type} (buffer_len : ℕ) (residual : Str) (Done : α → Prop) :
    Returned (σ × Ledger) ⊕ α → Prop where
  | returned {r : Returned (σ × Ledger)} {len : ℕ} (h : Settled buffer_len residual r len) :
      Leaves buffer_len residual Done (.inl r)
  | done {a : α} (h : Done a) : Leaves buffer_len residual Done (.inr a)

variable {source sink}

/-- A round of the read loop goes on within the buffer, returns, or comes to the end of the
loop. -/
theorem readRound_keeps (len : ℕ) :
    Keeps (readRound source.booked buffer_len (some len)) (Reading buffer_len residual)
      (Leaves buffer_len residual (Reading buffer_len residual)) := by
  rintro ⟨⟨s, l⟩, buffer, read_pos, end_of_stream⟩ h
  have hlength : buffer.length = buffer_len := h.length
  have hread_le : read_pos ≤ buffer_len := h.read_le
  have hbooks : l.Balanced residual (buffer.take read_pos) := h.books
  by_cases hmore : end_of_stream = false ∧ read_pos < buffer_len
  · cases hread : source.Read s (buffer_len - read_pos) with
    | mk s' answer =>
    obtain ⟨result, bytes⟩ := answer
    have hbooked := booked_read hread l
    by_cases heos : result = .SR_EOS
    · -- the end of the stream, which is written down
      refine .inl ⟨⟨(s', l.read result bytes), buffer, read_pos, true⟩, ?_, ?_⟩
      · simp only [readRound, if_pos hmore, hbooked, if_pos heos]
      · refine ⟨hlength, hread_le, hbooks.read_nothing ?_ bytes, fun _ => decide_eq_true heos⟩
        rw [heos]
        decide
    · by_cases hsuccess : result = .SR_SUCCESS
      · subst hsuccess
        have hcount := (source.read_count (by omega) hread).2
        have hfit : read_pos + bytes.length ≤ buffer.length := by omega
        refine .inl ⟨⟨(s', l.read .SR_SUCCESS bytes), put buffer read_pos bytes,
          read_pos + bytes.length, end_of_stream⟩, ?_, ?_⟩
        · simp only [readRound, if_pos hmore, hbooked, if_neg heos]
          exact if_neg (not_not_intro rfl)
        · refine ⟨(Ring.length_put hfit).trans hlength, hlength ▸ hfit, ?_, fun hend => ?_⟩
          · have htake : (put buffer read_pos bytes).take (read_pos + bytes.length)
                = buffer.take read_pos ++ bytes := by
              have hfront : (buffer.take read_pos ++ bytes).length = read_pos + bytes.length := by
                rw [List.length_append, List.length_take_of_le (hlength ▸ hread_le)]
              unfold put
              rw [List.take_left' hfront]
            rw [htake]
            exact hbooks.read bytes
          · exact absurd (hend.symm.trans hmore.1) (by decide)
      · refine .inr ⟨.inl ⟨(s', l.read result bytes), buffer, some read_pos, result⟩, ?_, ?_⟩
        · simp only [readRound, if_pos hmore, hbooked, if_neg heos, if_pos hsuccess]
          rfl
        · have hsettled : Settled buffer_len residual
              ⟨(s', l.read result bytes), buffer, some read_pos, result⟩ read_pos :=
            ⟨rfl, hlength, hread_le, hbooks.read_nothing hsuccess bytes,
              fun h => absurd h hsuccess⟩
          exact .returned hsettled
  · exact .inr ⟨_, if_neg hmore, .done h⟩

/-- A round of the write loop goes on within what is to be written, returns with the rest at the
front of the buffer, or comes to the end of the loop. -/
theorem writeRound_keeps {buffer : Str} {read_pos : ℕ} {ended : Bool}
    (hlength : buffer.length = buffer_len) (hread_le : read_pos ≤ buffer_len) (len : ℕ) :
    Keeps (writeRound sink.booked (some len) buffer read_pos)
      (Writing buffer read_pos residual ended)
      (Leaves buffer_len residual (Written residual ended)) := by
  rintro ⟨⟨s, l⟩, write_pos⟩ h
  have hwrite_le : write_pos ≤ read_pos := h.write_le
  have hbooks : l.Balanced residual ((buffer.take read_pos).drop write_pos) := h.books
  have hrest : ((buffer.take read_pos).drop write_pos).length = read_pos - write_pos := by
    rw [List.length_drop, List.length_take_of_le (hlength ▸ hread_le)]
  by_cases hmore : write_pos < read_pos
  · cases hwrite : sink.Write s ((buffer.take read_pos).drop write_pos) with
    | mk s' answer =>
    obtain ⟨result, count⟩ := answer
    have hbooked := booked_write hwrite l
    by_cases hsuccess : result = .SR_SUCCESS
    · subst hsuccess
      have hcount := (sink.write_count (by omega) hwrite).2
      -- what was accepted goes from the pending bytes to the books
      refine .inl ⟨((s', l.write .SR_SUCCESS (((buffer.take read_pos).drop write_pos).take count)),
        write_pos + count), ?_, ?_⟩
      · simp only [writeRound, if_pos hmore, hbooked]
        exact if_neg (not_not_intro rfl)
      · have hwithin : write_pos + count ≤ read_pos := by omega
        have hbooks' := hbooks.write count
        rw [List.drop_drop] at hbooks'
        exact ⟨hwithin, hbooks', h.ended⟩
    · -- at the front there is nothing to be moved
      have hmoved : (if (some len).isSome = true ∧ write_pos > 0
          then put buffer 0 ((buffer.take read_pos).drop write_pos) else buffer)
          = put buffer 0 ((buffer.take read_pos).drop write_pos) := by
        by_cases hzero : write_pos > 0
        · exact if_pos ⟨rfl, hzero⟩
        · rw [if_neg fun h => hzero h.2, Nat.eq_zero_of_not_pos hzero, List.drop_zero]
          unfold put
          rw [List.take_zero, List.nil_append, Nat.zero_add,
            List.length_take_of_le (hlength ▸ hread_le), List.take_append_drop]
      have hsettled : Settled buffer_len residual
          ⟨(s', l.write result (((buffer.take read_pos).drop write_pos).take count)),
            put buffer 0 ((buffer.take read_pos).drop write_pos), some (read_pos - write_pos),
            result⟩ (read_pos - write_pos) := by
        refine ⟨rfl, ?_, by omega, ?_, fun h => absurd h hsuccess⟩
        · rw [Ring.length_put (by omega), hlength]
        · rw [Ring.put_zero, List.take_left' hrest]
          exact hbooks.write_nothing hsuccess _
      refine .inr ⟨_, ?_, .returned hsettled⟩
      simp only [writeRound, if_pos hmore, hbooked, if_pos hsuccess, hmoved]
      rfl
  · obtain rfl : write_pos = read_pos := Nat.le_antisymm hwrite_le (Nat.le_of_not_lt hmore)
    exact .inr ⟨_, if_neg hmore, .done h.done⟩

/-- A round of the outer loop writes all there is, or returns. -/
theorem pumpRound_keeps (len n : ℕ) :
    Keeps (pumpRound source.booked sink.booked buffer_len (some len) n)
      (Reading buffer_len residual)
      (fun out => ∀ r, out = some r → ∃ len', Settled buffer_len residual r len') := by
  intro v h
  cases hread : rounds (readRound source.booked buffer_len (some len)) n v with
  | none =>
    refine .inr ⟨none, ?_, nofun⟩
    simp only [pumpRound, hread]
  | some out =>
    have hout : Leaves buffer_len residual (Reading buffer_len residual) out :=
      (readRound_keeps len).rounds h hread
    cases hout with
    | @returned r len' hr =>
      refine .inr ⟨some r, ?_, hr.some⟩
      simp only [pumpRound, hread]
    | @done v' hv' =>
      have hstart : Writing v'.buffer v'.read_pos residual v'.end_of_stream (v'.s, 0) :=
        ⟨Nat.zero_le _, hv'.books, hv'.ended⟩
      cases hwrite : rounds (writeRound sink.booked (some len) v'.buffer v'.read_pos) n
          (v'.s, 0) with
      | none =>
        refine .inr ⟨none, ?_, nofun⟩
        simp only [pumpRound, hread, hwrite]
      | some out' =>
        have hout' : Leaves buffer_len residual (Written residual v'.end_of_stream) out' :=
          (writeRound_keeps hv'.length hv'.read_le len).rounds hstart hwrite
        cases hout' with
        | @returned r len' hr =>
          refine .inr ⟨some r, ?_, hr.some⟩
          simp only [pumpRound, hread, hwrite]
        | @done s' hs' =>
          cases hend : v'.end_of_stream with
          | false =>
            refine .inl ⟨{ v' with s := s', read_pos := 0 }, ?_, ?_⟩
            · simp only [pumpRound, hread, hwrite, hend]
              rfl
            · exact ⟨hv'.length, Nat.zero_le _, hs'.books, hs'.ended⟩
          | true =>
            have hr : Settled buffer_len residual
                ⟨s', v'.buffer, some 0, .SR_SUCCESS⟩ 0 :=
              ⟨rfl, hv'.length, Nat.zero_le _, hs'.books,
                fun _ => ⟨rfl, hs'.ended hend⟩⟩
            refine .inr ⟨_, ?_, hr.some⟩
            simp only [pumpRound, hread, hwrite, hend]
            rfl

end Loops

/-! ## 4. The ledger is only written -/

section Forget

/-- Without the ledger. -/
def Vars.forget (v : Vars (σ × Ledger)) : Vars σ :=
  ⟨v.s.1, v.buffer, v.read_pos, v.end_of_stream⟩

/-- Without the ledger. -/
def Returned.forget (r : Returned (σ × Ledger)) : Returned σ :=
  ⟨r.s.1, r.buffer, r.data_len, r.result⟩

variable (source sink : StreamInterface σ) (buffer_len : ℕ) (data_len : Option ℕ)

theorem readRound_booked (v : Vars (σ × Ledger)) :
    readRound source buffer_len data_len v.forget
      = (readRound source.booked buffer_len data_len v).map
          (fun v => v.forget) (Sum.map (fun r => r.forget) (fun v => v.forget)) := by
  obtain ⟨⟨s, l⟩, buffer, read_pos, end_of_stream⟩ := v
  by_cases hmore : end_of_stream = false ∧ read_pos < buffer_len
  · cases hread : source.Read s (buffer_len - read_pos) with
    | mk s' answer =>
    simp only [readRound, Vars.forget, if_pos hmore, hread, booked_read hread l]
    cases answer.1 <;> rfl
  · have hbooked : readRound source.booked buffer_len data_len
        ⟨(s, l), buffer, read_pos, end_of_stream⟩
        = .inr (.inr ⟨(s, l), buffer, read_pos, end_of_stream⟩) := if_neg hmore
    rw [hbooked]
    exact if_neg hmore

theorem writeRound_booked (buffer : Str) (read_pos : ℕ) (w : (σ × Ledger) × ℕ) :
    writeRound sink data_len buffer read_pos (w.1.1, w.2)
      = (writeRound sink.booked data_len buffer read_pos w).map
          (fun w => (w.1.1, w.2)) (Sum.map (fun r => r.forget) Prod.fst) := by
  obtain ⟨⟨s, l⟩, write_pos⟩ := w
  by_cases hmore : write_pos < read_pos
  · cases hwrite : sink.Write s ((buffer.take read_pos).drop write_pos) with
    | mk s' answer =>
    simp only [writeRound, if_pos hmore, hwrite, booked_write hwrite l]
    cases answer.1 <;> rfl
  · simp only [writeRound, if_neg hmore]
    rfl

theorem pumpRound_booked (n : ℕ) (v : Vars (σ × Ledger)) :
    pumpRound source sink buffer_len data_len n v.forget
      = (pumpRound source.booked sink.booked buffer_len data_len n v).map
          (fun v => v.forget) (Option.map fun r => r.forget) := by
  have hread := Walking.rounds_map (fun v : Vars (σ × Ledger) => v.forget) _
    (readRound_booked source buffer_len data_len) n v
  unfold pumpRound
  rw [hread]
  cases rounds (readRound source.booked buffer_len data_len) n v with
  | none => rfl
  | some out =>
    cases out with
    | inl r => rfl
    | inr v' =>
      have hwrite := Walking.rounds_map (fun w : (σ × Ledger) × ℕ => (w.1.1, w.2)) _
        (writeRound_booked sink data_len v'.buffer v'.read_pos) n (v'.s, 0)
      simp only [Option.map_some, Sum.map_inr, Vars.forget]
      rw [hwrite]
      cases rounds (writeRound sink.booked data_len v'.buffer v'.read_pos) n (v'.s, 0) with
      | none => rfl
      | some out' =>
        cases out' with
        | inl r => rfl
        | inr s => cases v'.end_of_stream <;> rfl

/-- Streams with a ledger do what they do without it. -/
theorem Flow_booked (n : ℕ) (buffer : Str) (s : σ) (l : Ledger) :
    Flow n source buffer buffer_len sink data_len s
      = (Flow n source.booked buffer buffer_len sink.booked data_len (s, l)).map
          fun r => r.forget := by
  have hpump := Walking.rounds_map (fun v : Vars (σ × Ledger) => v.forget) _
    (pumpRound_booked source sink buffer_len data_len n) n
    ⟨(s, l), buffer, data_len.getD 0, false⟩
  unfold Flow
  rw [show (⟨s, buffer, data_len.getD 0, false⟩ : Vars σ)
    = Vars.forget ⟨(s, l), buffer, data_len.getD 0, false⟩ from rfl, hpump]
  cases rounds (pumpRound source.booked sink.booked buffer_len data_len n) n
      ⟨(s, l), buffer, data_len.getD 0, false⟩ with
  | none => rfl
  | some out => cases out <;> rfl

end Forget

/-! ## 5. Calls, one after the other -/

variable (source sink : CountingStream σ)

/-- What calls of `Flow` can come to that go on with what is left: the ledger, the buffer and
`*data_len`. Between two calls the streams may have changed. -/
inductive Calls (buffer : Str) (len : ℕ) : Ledger → Str → ℕ → Prop where
  | start : Calls buffer len .new buffer len
  | again {l : Ledger} {b : Str} {k : ℕ} {n : ℕ} {s : σ} {r : Returned (σ × Ledger)} {k' : ℕ}
      (before : Calls buffer len l b k)
      (call : Flow n source.booked b buffer.length sink.booked (some k) (s, l) = some r)
      (left : r.data_len = some k') :
      Calls buffer len r.s.2 r.buffer k'

variable {source sink} {buffer b : Str} {len k : ℕ} {l : Ledger}

theorem flow_settled {residual : Str} (hlength : b.length = buffer.length)
    (hle : k ≤ buffer.length) (hbooks : l.Balanced residual (b.take k)) {n : ℕ} {s : σ}
    {r : Returned (σ × Ledger)}
    (hflow : Flow n source.booked b buffer.length sink.booked (some k) (s, l) = some r) :
    ∃ k', Settled buffer.length residual r k' := by
  have hstart : Reading buffer.length residual ⟨(s, l), b, k, false⟩ :=
    ⟨hlength, hle, hbooks, nofun⟩
  have hout := Option.join_eq_some_iff.1 hflow
  exact (pumpRound_keeps k n).rounds hstart hout r rfl

theorem Calls.settled (h : Calls source sink buffer len l b k) (hlen : len ≤ buffer.length) :
    b.length = buffer.length ∧ k ≤ buffer.length
      ∧ l.Balanced (buffer.take len) (b.take k) := by
  induction h with
  | start => exact ⟨rfl, hlen, Ledger.balanced_new _⟩
  | again before call left ih =>
    obtain ⟨hlength, hle, hbooks⟩ := ih
    obtain ⟨k'', hr⟩ := flow_settled hlength hle hbooks call
    obtain rfl := Option.some.inj (left.symm.trans hr.data_len)
    exact ⟨hr.length, hr.len_le, hr.books⟩

/-- No byte is lost or doubled, whatever was delivered in part or blocked: what the sink has
accepted, and then what is in the buffer, is what was there in the beginning, and then what was
taken from the source. A call succeeds only when the source has come to its end and nothing is
left. -/
theorem conserves (hlen : len ≤ buffer.length) (h : Calls source sink buffer len l b k) {n : ℕ}
    {s : σ} {r : Returned σ}
    (hflow : Flow n source.toStreamInterface b buffer.length sink.toStreamInterface (some k) s
      = some r) :
    ∃ l' k', Flow n source.booked b buffer.length sink.booked (some k) (s, l)
        = some ⟨(r.s, l'), r.buffer, some k', r.result⟩
      ∧ r.data_len = some k' ∧ k' ≤ buffer.length
      ∧ l'.accepted ++ r.buffer.take k' = buffer.take len ++ l'.taken
      ∧ (r.result = .SR_SUCCESS →
        k' = 0 ∧ l'.ended = true ∧ l'.accepted = buffer.take len ++ l'.taken) := by
  obtain ⟨hlength, hle, hbooks⟩ := h.settled hlen
  rw [Flow_booked _ _ _ _ _ _ _ l] at hflow
  obtain ⟨⟨⟨s', l'⟩, b', data_len, result⟩, hbooked, rfl⟩ := Option.map_eq_some_iff.1 hflow
  obtain ⟨k', hr⟩ := flow_settled hlength hle hbooks hbooked
  have hdata_len : data_len = some k' := hr.data_len
  subst hdata_len
  have hbalance : l'.accepted ++ b'.take k' = buffer.take len ++ l'.taken := hr.books
  refine ⟨l', k', hbooked, rfl, hr.len_le, hbalance, ?_⟩
  intro hsuccess
  obtain ⟨hzero, hended⟩ := hr.success hsuccess
  refine ⟨hzero, hended, ?_⟩
  rwa [hzero, List.take_zero, List.append_nil] at hbalance

/-- A stream that gives byte after byte, and takes so many that it is allowed. -/
def trickle : CountingStream (Str × ℕ) where
  Read := fun (bytes, allowed) _ =>
    match bytes with
    | [] => (([], allowed), .SR_EOS, [])
    | c :: rest => ((rest, allowed), .SR_SUCCESS, [c])
  Write := fun (bytes, allowed) _ =>
    match allowed with
    | 0 => ((bytes, 0), .SR_BLOCK, 0)
    | allowed + 1 => ((bytes, allowed), .SR_SUCCESS, 1)
  read_count := by
    rintro ⟨bytes, allowed⟩ s' n out hn h
    cases bytes with
    | nil => cases h
    | cons c rest =>
      cases h
      exact ⟨Nat.one_pos, hn⟩
  write_count := by
    rintro ⟨bytes, allowed⟩ s' data count hdata h
    cases allowed with
    | zero => cases h
    | succ allowed =>
      cases h
      exact ⟨Nat.one_pos, hdata⟩

theorem conserves_trickle :
    ∃ l' k', Flow 5 trickle.booked [2, 2] 2 trickle.booked (some 1) (([3], 4), ⟨[1, 2], [1], false⟩)
        = some ⟨(([], 2), l'), [2, 3], some k', .SR_SUCCESS⟩
      ∧ some 0 = some k' ∧ k' ≤ 2 ∧ l'.accepted ++ [2, 3].take k' = [] ++ l'.taken
      ∧ (StreamResult.SR_SUCCESS = .SR_SUCCESS →
        k' = 0 ∧ l'.ended = true ∧ l'.accepted = [] ++ l'.taken) := by
  -- the first call could write one byte of two that it had read
  have hcall : Flow 5 trickle.booked [0, 0] 2 trickle.booked (some 0) (([1, 2, 3], 1), .new)
      = some ⟨(([3], 0), ⟨[1, 2], [1], false⟩), [2, 2], some 1, .SR_BLOCK⟩ := rfl
  have hblocked : Calls trickle trickle [0, 0] 0 ⟨[1, 2], [1], false⟩ [2, 2] 1 :=
    Calls.again (r := ⟨(([3], 0), ⟨[1, 2], [1], false⟩), [2, 2], some 1, .SR_BLOCK⟩)
      .start hcall rfl
  exact conserves (n := 5) (s := ([3], 4)) (r := ⟨([], 2), [2, 3], some 0, .SR_SUCCESS⟩)
    (Nat.zero_le 2) hblocked rfl

/-! ## 6. A source that comes to its end -/

section Returns

/-- There is no more than `left` to be taken from the source, whatever is written to the sink. -/
structure Finite (source sink : StreamInterface σ) (left : σ → ℕ) : Prop where
  read : ∀ {s s' n result bytes}, source.Read s n = (s', result, bytes) →
    left s' + (if result = .SR_SUCCESS then bytes.length else 0) ≤ left s
  write : ∀ {s s' data answer}, sink.Write s data = (s', answer) → left s' ≤ left s

variable {left : σ → ℕ} {buffer_len : ℕ} {data_len : Option ℕ}

/-- Between two operations, with no more than `total` to come and in the buffer together. -/
structure Bounded (left : σ → ℕ) (buffer_len total : ℕ) (v : Vars σ) : Prop where
  length : v.buffer.length = buffer_len
  read_le : v.read_pos ≤ buffer_len
  left_le : left v.s + v.read_pos ≤ total

/-- The rounds that the read loop may still go. -/
def readRounds (buffer_len : ℕ) (v : Vars σ) : ℕ :=
  buffer_len - v.read_pos + if v.end_of_stream then 0 else 1

/-- A round of the read loop goes on nearer to its end, or returns, or leaves the loop with a full
buffer or at the end of the stream. -/
theorem readRound_total (data_len : Option ℕ)
    (hfinite : Finite source.toStreamInterface sink.toStreamInterface left) {total : ℕ} (v : Vars σ) (h : Bounded left buffer_len total v) :
    (∃ v', readRound source.toStreamInterface buffer_len data_len v = .inl v'
      ∧ Bounded left buffer_len total v' ∧ readRounds buffer_len v' < readRounds buffer_len v)
    ∨ ∃ out, readRound source.toStreamInterface buffer_len data_len v = .inr out
      ∧ ∀ v', out = .inr v' → Bounded left buffer_len total v'
        ∧ (v'.end_of_stream = false → buffer_len ≤ v'.read_pos) := by
  obtain ⟨s, buffer, read_pos, end_of_stream⟩ := v
  have hlength : buffer.length = buffer_len := h.length
  have hread_le : read_pos ≤ buffer_len := h.read_le
  have hleft : left s + read_pos ≤ total := h.left_le
  by_cases hmore : end_of_stream = false ∧ read_pos < buffer_len
  · cases hread : source.Read s (buffer_len - read_pos) with
    | mk s' answer =>
    obtain ⟨result, bytes⟩ := answer
    have hless := hfinite.read hread
    simp only [readRound, if_pos hmore, hread]
    obtain ⟨rfl, hlt⟩ := hmore
    cases result with
    | SR_EOS =>
      refine .inl ⟨_, rfl, ⟨hlength, hread_le, ?_⟩, Nat.lt_succ_self _⟩
      exact (Nat.add_le_add_right hless read_pos).trans hleft
    | SR_SUCCESS =>
      have hcount := source.read_count (by omega) hread
      rw [if_pos rfl] at hless
      refine .inl ⟨_, rfl, ⟨(Ring.length_put (by omega)).trans hlength, ?_, ?_⟩, ?_⟩
      · change read_pos + bytes.length ≤ _
        omega
      · change left s' + (read_pos + bytes.length) ≤ total
        omega
      · change buffer_len - (read_pos + bytes.length) + 1 < buffer_len - read_pos + 1
        omega
    | SR_ERROR | SR_BLOCK => exact .inr ⟨_, rfl, nofun⟩
  · unfold readRound
    rw [if_neg hmore]
    refine .inr ⟨_, rfl, fun v' hv' => ?_⟩
    obtain rfl := Sum.inr.inj hv'
    exact ⟨h, fun hend => Nat.le_of_not_lt fun hlt => hmore ⟨hend, hlt⟩⟩

/-- A round of the write loop goes on, or returns, or leaves the loop when all is written. -/
theorem writeRound_total (data_len : Option ℕ)
    (hfinite : Finite source.toStreamInterface sink.toStreamInterface left) {buffer : Str} {read_pos total : ℕ} (hread_le : read_pos ≤ buffer.length) (w : σ × ℕ)
    (hleft : left w.1 ≤ total) :
    (∃ w', writeRound sink.toStreamInterface data_len buffer read_pos w = .inl w'
      ∧ left w'.1 ≤ total ∧ read_pos - w'.2 < read_pos - w.2)
    ∨ ∃ out, writeRound sink.toStreamInterface data_len buffer read_pos w = .inr out
      ∧ ∀ s, out = .inr s → left s ≤ total := by
  obtain ⟨s, write_pos⟩ := w
  have hrest : ((buffer.take read_pos).drop write_pos).length = read_pos - write_pos := by
    rw [List.length_drop, List.length_take_of_le hread_le]
  by_cases hmore : write_pos < read_pos
  · cases hwrite : sink.Write s ((buffer.take read_pos).drop write_pos) with
    | mk s' answer =>
    obtain ⟨result, count⟩ := answer
    have hless := hfinite.write hwrite
    simp only [writeRound, if_pos hmore, hwrite]
    cases result with
    | SR_SUCCESS =>
      have hcount := sink.write_count (by omega) hwrite
      refine .inl ⟨_, rfl, hless.trans hleft, ?_⟩
      change read_pos - (write_pos + count) < read_pos - write_pos
      omega
    | SR_ERROR | SR_BLOCK | SR_EOS => exact .inr ⟨_, rfl, nofun⟩
  · simp only [writeRound, if_neg hmore]
    exact .inr ⟨_, rfl, fun s' hs' => Sum.inr.inj hs' ▸ hleft⟩

/-- A round of the outer loop that does not return has filled the buffer and written it. -/
theorem pumpRound_total (data_len : Option ℕ)
    (hfinite : Finite source.toStreamInterface sink.toStreamInterface left) (hpos : 0 < buffer_len)
    {n : ℕ} (hn : buffer_len + 1 < n) (v : Vars σ)
    (hv : v.buffer.length = buffer_len ∧ v.read_pos ≤ buffer_len) :
    (∃ v', pumpRound source.toStreamInterface sink.toStreamInterface buffer_len data_len n v
        = .inl v' ∧ (v'.buffer.length = buffer_len ∧ v'.read_pos ≤ buffer_len)
      ∧ left v'.s + v'.read_pos < left v.s + v.read_pos)
    ∨ ∃ out, pumpRound source.toStreamInterface sink.toStreamInterface buffer_len data_len n v
        = .inr out ∧ ∃ r, out = some r := by
  have hstart : Bounded left buffer_len (left v.s + v.read_pos) v := ⟨hv.1, hv.2, Nat.le_refl _⟩
  have hrounds : readRounds buffer_len v < n := by
    unfold readRounds
    split <;> omega
  obtain ⟨out, hread, hout⟩ := Walking.rounds_total (readRounds buffer_len)
    (readRound_total data_len hfinite) hstart hrounds
  rcases out with r | v'
  · exact .inr ⟨some r, by simp only [pumpRound, hread], r, rfl⟩
  obtain ⟨hv', hfull⟩ := hout v' rfl
  -- now what has been read is written
  have hrounds' : v'.read_pos - 0 < n := by
    have hle := hv'.read_le
    omega
  obtain ⟨out', hwrite, hout'⟩ := Walking.rounds_total (fun w => v'.read_pos - w.2)
    (writeRound_total data_len hfinite (hv'.length.symm ▸ hv'.read_le))
    (s := (v'.s, 0)) (Nat.le_refl (left v'.s)) hrounds'
  rcases out' with r | s'
  · exact .inr ⟨some r, by simp only [pumpRound, hread, hwrite], r, rfl⟩
  have hless := hout' s' rfl
  cases hstream : v'.end_of_stream with
  | true => exact .inr ⟨_, by simp only [pumpRound, hread, hwrite, hstream]; rfl, _, rfl⟩
  | false =>
    refine .inl ⟨{ v' with s := s', read_pos := 0 }, ?_, ⟨hv'.length, Nat.zero_le _⟩, ?_⟩
    · simp only [pumpRound, hread, hwrite, hstream]
      rfl
    · -- the read loop came to its end with a full buffer, and all of it has been written
      have hall := hfull hstream
      have htotal := hv'.left_le
      change left s' + 0 < left v.s + v.read_pos
      omega

/-- Where the source comes to its end, `Flow` returns, whatever its streams do in between. -/
theorem returns (hfinite : Finite source.toStreamInterface sink.toStreamInterface left)
    {buffer : Str} (hpos : 0 < buffer.length) (hlen : data_len.getD 0 ≤ buffer.length) {n : ℕ}
    {s : σ} (hn : left s + buffer.length + 1 < n) :
    ∃ r, Flow n source.toStreamInterface buffer buffer.length sink.toStreamInterface data_len s
      = some r := by
  have hmeasure : left s + data_len.getD 0 < n := by omega
  obtain ⟨_, hout, r, rfl⟩ := Walking.rounds_total (fun v : Vars σ => left v.s + v.read_pos)
    (pumpRound_total data_len hfinite hpos (by omega : buffer.length + 1 < n))
    (s := ⟨s, buffer, data_len.getD 0, false⟩) ⟨rfl, hlen⟩ hmeasure
  refine ⟨r, ?_⟩
  unfold Flow
  rw [hout]
  rfl

theorem returns_trickle : ∃ r, Flow 8 trickle.toStreamInterface [0, 0] 2 trickle.toStreamInterface
    (some 0) (([1, 2, 3], 2) : Str × ℕ) = some r := by
  have hfinite : Finite trickle.toStreamInterface trickle.toStreamInterface
      fun s : Str × ℕ => s.1.length := by
    constructor
    · rintro ⟨bytes, allowed⟩ s' n result out h
      cases bytes <;> cases h <;> simp
    · rintro ⟨bytes, allowed⟩ s' data answer h
      cases allowed <;> cases h <;> exact Nat.le_refl _
  exact returns hfinite (by decide) (by decide) (by decide)

end Returns

end Flow

end Gxmpp.TalkBase
