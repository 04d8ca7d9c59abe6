/-
`AsyncWriteStream`, in `talk/base/stream.cc`: a stream that is written on a thread of its own.

The thread of the caller and the write thread take steps in any order. A critical section is one
step, and so are `Post` and `Clear`, which have a lock of their own. `state_` is the caller's.
-/
import Gxmpp.FifoBuffer
import Gxmpp.Interleaving

set_option autoImplicit false

namespace Gxmpp.TalkBase

open Reentrant Interleaving

/-! ## 1. The stream and its two threads -/

/-- The two threads. -/
inductive Drainer where
  | caller
  | writeThread
deriving DecidableEq

/-- What is done on the stream below. -/
inductive StreamCall where
  | writeAll (data : Str)
  | flush
  | close
deriving DecidableEq

structure AsyncWriteStream where
  /-- what was done on it -/
  stream_ : List StreamCall
  state_ : StreamState
  buffer_ : Str
  /-- how many messages wait for the write thread -/
  posted : ℕ
  /-- the data of all `Write`s that were not refused, for stating properties -/
  written : Str
  /-- what was taken out of the buffer and is not yet written, and by whom, in the order of taking,
  for stating properties -/
  taken : List (Drainer × Str)
deriving DecidableEq

/-- Points at which a thread goes on. -/
inductive AsyncStmt where
  /-- the critical section of `Write` -/
  | append (data : Str)
  | post
  | clear
  /-- the first critical section of `ClearBufferAndWrite` -/
  | transfer
  /-- the second one -/
  | writeAll (to_write : Str)
  | flush
  | close
deriving DecidableEq

/-- What the caller calls, and what the write thread does. -/
inductive AsyncCall where
  | write (data : Str)
  | flush
  | close
  | onMessage
deriving DecidableEq

namespace AsyncWriteStream

/-- A new stream, over one in the state `state`. -/
def new (state : StreamState) : AsyncWriteStream where
  stream_ := []
  state_ := state
  buffer_ := []
  posted := 0
  written := []
  taken := []

def Write (s : AsyncWriteStream) (data : Str) : List AsyncStmt :=
  if s.state_ = .SS_CLOSED then [] else [.append data]

def ClearBufferAndWrite : List AsyncStmt := [.transfer]

def Flush (s : AsyncWriteStream) : List AsyncStmt :=
  if s.state_ = .SS_CLOSED then [] else ClearBufferAndWrite ++ [.flush]

def Close (s : AsyncWriteStream) : List AsyncStmt :=
  if s.state_ = .SS_CLOSED then [] else [.clear] ++ ClearBufferAndWrite ++ [.close]

def enter (s : AsyncWriteStream) : AsyncCall → AsyncWriteStream × List AsyncStmt
  | .write data => (s, s.Write data)
  | .flush => (s, s.Flush)
  | .close => (s, s.Close)
  | .onMessage => ({ s with posted := s.posted - 1 }, ClearBufferAndWrite)

/-- The statements of a thread. -/
def exec (t : Drainer) (s : AsyncWriteStream) :
    AsyncStmt → Option (AsyncWriteStream × List AsyncStmt)
  | .append data =>
    let previous_buffer_length := s.buffer_.length
    let s := { s with
      buffer_ := s.buffer_ ++ data
      written := s.written ++ data }
    -- If there's stuff already in the buffer, then we already called Post
    some (s, if previous_buffer_length = 0 then [.post] else [])
  | .post => some ({ s with posted := s.posted + 1 }, [])
  -- what has been posted is lost, and what is in the buffer stays for `ClearBufferAndWrite`
  | .clear => some ({ s with posted := 0 }, [])
  | .transfer =>
    let to_write := s.buffer_
    if to_write.length > 0 then
      some ({ s with
        buffer_ := []
        taken := s.taken ++ [(t, to_write)] }, [.writeAll to_write])
    else some ({ s with buffer_ := [] }, [])
  | .writeAll to_write =>
    some ({ s with
      stream_ := s.stream_ ++ [.writeAll to_write]
      taken := s.taken.eraseP fun b => b.1 = t }, [])
  | .flush => some ({ s with stream_ := s.stream_ ++ [.flush] }, [])
  | .close => some ({ s with
      stream_ := s.stream_ ++ [.close]
      state_ := .SS_CLOSED }, [])

end AsyncWriteStream

/-- The two threads over the stream. -/
def asyncWriteStream (t : Drainer) : Component AsyncWriteStream AsyncStmt AsyncCall Unit where
  exec := AsyncWriteStream.exec t
  foreign _ := false
  resume s _ _ := (s, [])
  enter := AsyncWriteStream.enter

namespace AsyncWriteStream

/-- A configuration of the stream and its two threads. -/
abbrev Conf := Threads Drainer AsyncWriteStream AsyncStmt

def Conf.init (state : StreamState) : Conf := ⟨new state, fun _ => []⟩

/-- What the threads do: the caller calls, and the write thread takes a message when there is
one. -/
def Rules (c : Conf) : Drainer → Act AsyncCall Unit → Prop
  | .caller, .call (.write _) | .caller, .call .flush | .caller, .call .close => True
  | .writeThread, .call .onMessage => 0 < c.state.posted
  | _, .tick => True
  | _, _ => False

instance (c : Conf) (t : Drainer) (a : Act AsyncCall Unit) : Decidable (Rules c t a) :=
  match t, a with
  | .caller, .call (.write _) | .caller, .call .flush | .caller, .call .close => .isTrue trivial
  | .writeThread, .call .onMessage => inferInstanceAs (Decidable (0 < c.state.posted))
  | .caller, .tick | .writeThread, .tick => .isTrue trivial
  | .caller, .call .onMessage | .caller, .ret _ => .isFalse id
  | .writeThread, .call (.write _) | .writeThread, .call .flush => .isFalse id
  | .writeThread, .call .close | .writeThread, .ret _ => .isFalse id

/-- What a thread must not do next: hand bytes on while there are others that were taken before, or
close the stream while there are any. -/
def OutOfOrder (s : AsyncWriteStream) (t : Drainer) : AsyncStmt → Prop
  | .writeAll _ => s.taken.head?.map Prod.fst ≠ some t
  | .close => s.taken ≠ []
  | _ => False

instance (s : AsyncWriteStream) (t : Drainer) (x : AsyncStmt) : Decidable (OutOfOrder s t x) :=
  match x with
  | .writeAll _ => inferInstanceAs (Decidable (s.taken.head?.map Prod.fst ≠ some t))
  | .close => inferInstanceAs (Decidable (s.taken ≠ []))
  | .append _ | .post | .clear | .transfer | .flush => .isFalse id

/-- A step in which nothing is done out of order. -/
def Orderly (c : Conf) (t : Drainer) (a : Act AsyncCall Unit) : Prop :=
  Rules c t a ∧ ∀ x ∈ (c.control t).head?, ¬OutOfOrder c.state t x

instance (c : Conf) (t : Drainer) (a : Act AsyncCall Unit) : Decidable (Orderly c t a) :=
  inferInstanceAs (Decidable (Rules c t a ∧ ∀ x ∈ (c.control t).head?, ¬OutOfOrder c.state t x))

def StreamCall.bytes : StreamCall → Str
  | .writeAll data => data
  | _ => []

/-- The bytes that were handed to `WriteAll`. -/
def handed (s : AsyncWriteStream) : Str := s.stream_.flatMap StreamCall.bytes

/-! ## 2. What the steps keep -/

/-- Where the caller can be: nowhere, or in a call that found the stream open. From the moment at
which `Close` has taken the bytes there are none. -/
inductive CallerStack (s : AsyncWriteStream) : List AsyncStmt → Prop where
  | idle : CallerStack s []
  | write (hopen : s.state_ ≠ .SS_CLOSED) (data : Str) : CallerStack s [.append data]
  | post (hopen : s.state_ ≠ .SS_CLOSED) : CallerStack s [.post]
  | flush (hopen : s.state_ ≠ .SS_CLOSED) : CallerStack s [.transfer, .flush]
  | flushWrites (hopen : s.state_ ≠ .SS_CLOSED) (b : Str) : CallerStack s [.writeAll b, .flush]
  | flushes (hopen : s.state_ ≠ .SS_CLOSED) : CallerStack s [.flush]
  | close (hopen : s.state_ ≠ .SS_CLOSED) : CallerStack s [.clear, .transfer, .close]
  | cleared (hopen : s.state_ ≠ .SS_CLOSED) : CallerStack s [.transfer, .close]
  | closeWrites (hopen : s.state_ ≠ .SS_CLOSED) (hempty : s.buffer_ = []) (b : Str) :
      CallerStack s [.writeAll b, .close]
  | closes (hopen : s.state_ ≠ .SS_CLOSED) (hempty : s.buffer_ = []) : CallerStack s [.close]

/-- Where the write thread can be. -/
inductive WriterStack : List AsyncStmt → Prop where
  | idle : WriterStack []
  | transfer : WriterStack [.transfer]
  | write (b : Str) : WriterStack [.writeAll b]

/-- Where a thread can be. -/
def At (s : AsyncWriteStream) : Drainer → List AsyncStmt → Prop
  | .caller => CallerStack s
  | .writeThread => WriterStack

/-- The bytes a thread is about to write. -/
def AsyncStmt.held : AsyncStmt → Option Str
  | .writeAll to_write => some to_write
  | _ => none

/-- What a thread has taken is what it is about to write. -/
def Holds (s : AsyncWriteStream) (t : Drainer) (l : List AsyncStmt) : Prop :=
  (s.taken.filter fun b => b.1 = t).map Prod.snd = l.filterMap AsyncStmt.held

/-- Each byte is handed to the stream, or taken, or in the buffer, in this order; and there is none
left when the stream has been closed. -/
structure Books (s : AsyncWriteStream) : Prop where
  balance : s.written = s.handed ++ s.taken.flatMap Prod.snd ++ s.buffer_
  closed : s.state_ = .SS_CLOSED → s.buffer_ = [] ∧ s.taken = []

def invariant : Stacks Drainer AsyncWriteStream AsyncStmt where
  global := Books
  stack t s l := At s t l ∧ Holds s t l

section Steps

variable {s s' : AsyncWriteStream} {t : Drainer} {l rest : List AsyncStmt}
  {r : AsyncWriteStream × List AsyncStmt}

/-- What a thread does to the stream without disturbing the other one. -/
structure Frame (t : Drainer) (s s' : AsyncWriteStream) : Prop where
  caller : t = .writeThread → s'.state_ = s.state_ ∧ (s.buffer_ = [] → s'.buffer_ = [])
  others : s'.taken.filter (fun b => b.1 ≠ t) = s.taken.filter fun b => b.1 ≠ t

theorem CallerStack.frame (h : CallerStack s l) (hf : Frame .writeThread s s') :
    CallerStack s' l := by
  obtain ⟨hstate, hbuffer⟩ := hf.caller rfl
  cases h with
  | idle => exact .idle
  | write hopen data => exact .write (hstate ▸ hopen) data
  | post hopen => exact .post (hstate ▸ hopen)
  | flush hopen => exact .flush (hstate ▸ hopen)
  | flushWrites hopen b => exact .flushWrites (hstate ▸ hopen) b
  | flushes hopen => exact .flushes (hstate ▸ hopen)
  | close hopen => exact .close (hstate ▸ hopen)
  | cleared hopen => exact .cleared (hstate ▸ hopen)
  | closeWrites hopen hempty b => exact .closeWrites (hstate ▸ hopen) (hbuffer hempty) b
  | closes hopen hempty => exact .closes (hstate ▸ hopen) (hbuffer hempty)

theorem filter_of_ne (l : List (Drainer × Str)) {u : Drainer} (hu : u ≠ t) :
    (l.filter fun b => b.1 ≠ t).filter (fun b => b.1 = u) = l.filter fun b => b.1 = u := by
  rw [List.filter_filter]
  refine List.filter_congr fun b _ => ?_
  by_cases hb : b.1 = u
  · simp [hb, hu]
  · simp [hb]

theorem Holds.frame {u : Drainer} (h : Holds s u l) (hf : Frame t s s') (hu : u ≠ t) :
    Holds s' u l := by
  unfold Holds at h ⊢
  rw [← filter_of_ne s'.taken hu, hf.others, filter_of_ne s.taken hu]
  exact h

theorem At.frame {u : Drainer} (h : At s u l) (hf : Frame t s s') (hu : u ≠ t) : At s' u l := by
  cases u with
  | writeThread => exact h
  | caller =>
    cases t with
    | caller => exact absurd rfl hu
    | writeThread => exact CallerStack.frame h hf

/-- `TransferTo`. -/
theorem transfer_spec (h : Books s) (hl : Holds s t (.transfer :: rest))
    (hrest : rest.filterMap AsyncStmt.held = [])
    (hr : exec t s .transfer = some r) :
    Books r.1 ∧ Holds r.1 t (r.2 ++ rest) ∧ Frame t s r.1
      ∧ r.1.state_ = s.state_ ∧ r.1.buffer_ = []
      ∧ (r.2 = [] ∨ r.2 = [.writeAll s.buffer_]) := by
  have hl' : (s.taken.filter fun b => b.1 = t).map Prod.snd = rest.filterMap AsyncStmt.held := hl
  by_cases hsome : s.buffer_.length > 0
  · simp only [exec, if_pos hsome] at hr
    obtain rfl := Option.some.inj hr
    refine ⟨⟨?_, ?_⟩, ?_, ⟨fun _ => ⟨rfl, fun _ => rfl⟩, ?_⟩, rfl, rfl, .inr rfl⟩
    · change s.written = s.handed ++ (s.taken ++ [(t, s.buffer_)]).flatMap Prod.snd ++ []
      rw [h.balance]
      simp
    · intro hclosed
      rw [(h.closed hclosed).1] at hsome
      exact absurd hsome (Nat.lt_irrefl 0)
    · change ((s.taken ++ [(t, s.buffer_)]).filter fun b => b.1 = t).map Prod.snd
        = s.buffer_ :: rest.filterMap AsyncStmt.held
      rw [List.filter_append, List.map_append, hl', hrest]
      simp
    · simp
  · -- there is nothing to be written, and nothing is taken
    have hnil : s.buffer_ = [] := List.eq_nil_of_length_eq_zero (Nat.eq_zero_of_not_pos hsome)
    simp only [exec, if_neg hsome] at hr
    obtain rfl := Option.some.inj hr
    refine ⟨⟨?_, ?_⟩, hl', ⟨fun _ => ⟨rfl, fun _ => rfl⟩, rfl⟩, rfl, rfl, .inl rfl⟩
    · change s.written = s.handed ++ s.taken.flatMap Prod.snd ++ []
      rw [h.balance, hnil]
    · exact fun hclosed => ⟨rfl, (h.closed hclosed).2⟩

/-- The second section of `ClearBufferAndWrite`, where nothing was taken before. -/
theorem writeAll_spec {to_write : Str} (h : Books s) (hl : Holds s t (.writeAll to_write :: rest))
    (horder : ¬OutOfOrder s t (.writeAll to_write))
    (hr : exec t s (.writeAll to_write) = some r) :
    Books r.1 ∧ Holds r.1 t rest ∧ Frame t s r.1
      ∧ r.1.state_ = s.state_ ∧ r.1.buffer_ = s.buffer_ ∧ r.2 = [] := by
  obtain rfl := Option.some.inj hr
  have hhead : s.taken.head?.map Prod.fst = some t := Decidable.not_not.1 horder
  obtain ⟨⟨u, b⟩, hfirst, hu⟩ := Option.map_eq_some_iff.1 hhead
  obtain ⟨more, htaken⟩ := List.head?_eq_some_iff.1 hfirst
  obtain rfl : u = t := hu
  have herase : s.taken.eraseP (fun b => b.1 = u) = more := by
    rw [htaken]
    exact List.eraseP_cons_of_pos (decide_eq_true rfl)
  -- the first that was taken is what the thread is about to write
  have hheld : b :: (more.filter fun b => b.1 = u).map Prod.snd
      = to_write :: rest.filterMap AsyncStmt.held := by
    have hl' : (s.taken.filter fun b => b.1 = u).map Prod.snd
        = to_write :: rest.filterMap AsyncStmt.held := hl
    rw [← hl', htaken]
    simp
  obtain ⟨rfl, hmore⟩ := List.cons.inj hheld
  refine ⟨⟨?_, ?_⟩, ?_, ⟨fun _ => ⟨rfl, fun h => h⟩, ?_⟩, rfl, rfl, rfl⟩
  · have hbalance := h.balance
    rw [htaken] at hbalance
    change s.written = (s.stream_ ++ [StreamCall.writeAll b]).flatMap StreamCall.bytes
      ++ (s.taken.eraseP fun b => b.1 = u).flatMap Prod.snd ++ s.buffer_
    rw [herase, hbalance]
    simp [handed, StreamCall.bytes]
  · intro hclosed
    have hnil := (h.closed hclosed).2
    rw [htaken] at hnil
    cases hnil
  · change ((s.taken.eraseP fun b => b.1 = u).filter fun b => b.1 = u).map Prod.snd = _
    rw [herase]
    exact hmore
  · change (s.taken.eraseP fun b => b.1 = u).filter _ = s.taken.filter _
    rw [herase, htaken]
    simp

/-- A statement of the caller. -/
theorem caller_exec {x : AsyncStmt} (h : Books s) (hat : CallerStack s (x :: rest))
    (hl : Holds s .caller (x :: rest)) (horder : ¬OutOfOrder s .caller x)
    (hr : exec .caller s x = some r) :
    Books r.1 ∧ CallerStack r.1 (r.2 ++ rest) ∧ Holds r.1 .caller (r.2 ++ rest)
      ∧ Frame .caller s r.1 := by
  have hframe : ∀ s', s'.taken = s.taken → Frame .caller s s' := fun s' htaken =>
    ⟨nofun, by rw [htaken]⟩
  cases hat with
  | write hopen data =>
    obtain rfl := Option.some.inj hr
    refine ⟨⟨?_, fun hclosed => absurd hclosed hopen⟩, ?_, ?_, hframe _ rfl⟩
    · change s.written ++ data
        = s.handed ++ s.taken.flatMap Prod.snd ++ (s.buffer_ ++ data)
      rw [h.balance, List.append_assoc]
    · by_cases hfirst : s.buffer_.length = 0
      · simp only [if_pos hfirst]
        exact .post hopen
      · simp only [if_neg hfirst]
        exact .idle
    · by_cases hfirst : s.buffer_.length = 0
      · simp only [if_pos hfirst]
        exact hl
      · simp only [if_neg hfirst]
        exact hl
  | post hopen =>
    obtain rfl := Option.some.inj hr
    exact ⟨⟨h.balance, h.closed⟩, .idle, hl, hframe _ rfl⟩
  | flush hopen =>
    obtain ⟨hbooks, hheld, hf, hstate, -, hnext⟩ := transfer_spec h hl rfl hr
    refine ⟨hbooks, ?_, hheld, hf⟩
    rcases hnext with hnext | hnext
    · rw [hnext]
      exact .flushes (hstate ▸ hopen)
    · rw [hnext]
      exact .flushWrites (hstate ▸ hopen) _
  | flushWrites hopen b =>
    obtain ⟨hbooks, hheld, hf, hstate, -, hnext⟩ := writeAll_spec h hl horder hr
    rw [hnext]
    exact ⟨hbooks, .flushes (hstate ▸ hopen), hheld, hf⟩
  | flushes hopen =>
    obtain rfl := Option.some.inj hr
    refine ⟨⟨?_, h.closed⟩, .idle, hl, hframe _ rfl⟩
    change s.written = (s.stream_ ++ [StreamCall.flush]).flatMap StreamCall.bytes
      ++ s.taken.flatMap Prod.snd ++ s.buffer_
    rw [h.balance]
    simp [handed, StreamCall.bytes]
  | close hopen =>
    obtain rfl := Option.some.inj hr
    exact ⟨⟨h.balance, h.closed⟩, .cleared hopen, hl, hframe _ rfl⟩
  | cleared hopen =>
    obtain ⟨hbooks, hheld, hf, hstate, hempty, hnext⟩ := transfer_spec h hl rfl hr
    refine ⟨hbooks, ?_, hheld, hf⟩
    rcases hnext with hnext | hnext
    · rw [hnext]
      exact .closes (hstate ▸ hopen) hempty
    · rw [hnext]
      exact .closeWrites (hstate ▸ hopen) hempty _
  | closeWrites hopen hempty b =>
    obtain ⟨hbooks, hheld, hf, hstate, hbuffer, hnext⟩ := writeAll_spec h hl horder hr
    rw [hnext]
    exact ⟨hbooks, .closes (hstate ▸ hopen) (hbuffer.trans hempty), hheld, hf⟩
  | closes hopen hempty =>
    obtain rfl := Option.some.inj hr
    have hnone : s.taken = [] := Decidable.not_not.1 horder
    refine ⟨⟨?_, fun _ => ⟨hempty, hnone⟩⟩, .idle, hl, hframe _ rfl⟩
    change s.written = (s.stream_ ++ [StreamCall.close]).flatMap StreamCall.bytes
      ++ s.taken.flatMap Prod.snd ++ s.buffer_
    rw [h.balance]
    simp [handed, StreamCall.bytes]

/-- A statement of the write thread. -/
theorem writer_exec {x : AsyncStmt} (h : Books s) (hat : WriterStack (x :: rest))
    (hl : Holds s .writeThread (x :: rest)) (horder : ¬OutOfOrder s .writeThread x)
    (hr : exec .writeThread s x = some r) :
    Books r.1 ∧ WriterStack (r.2 ++ rest) ∧ Holds r.1 .writeThread (r.2 ++ rest)
      ∧ Frame .writeThread s r.1 := by
  cases hat with
  | transfer =>
    obtain ⟨hbooks, hheld, hf, -, -, hnext⟩ := transfer_spec h hl rfl hr
    refine ⟨hbooks, ?_, hheld, hf⟩
    rcases hnext with hnext | hnext
    · rw [hnext]
      exact .idle
    · rw [hnext]
      exact .write _
  | write b =>
    obtain ⟨hbooks, hheld, hf, -, -, hnext⟩ := writeAll_spec h hl horder hr
    rw [hnext]
    exact ⟨hbooks, .idle, hheld, hf⟩

/-- A statement of either thread. -/
theorem At.exec {x : AsyncStmt} (h : Books s) (hat : At s t (x :: rest))
    (hl : Holds s t (x :: rest)) (horder : ¬OutOfOrder s t x) (hr : exec t s x = some r) :
    Books r.1 ∧ At r.1 t (r.2 ++ rest) ∧ Holds r.1 t (r.2 ++ rest) ∧ Frame t s r.1 := by
  cases t with
  | caller => exact caller_exec h hat hl horder hr
  | writeThread => exact writer_exec h hat hl horder hr

/-- The entry of a function, called by a thread that does nothing. -/
theorem At.enter {m : AsyncCall} {c : Conf} (h : Books s) (hl : Holds s t [])
    (hrules : Rules ⟨s, c.control⟩ t (.call m)) :
    Books (enter s m).1 ∧ At (enter s m).1 t (enter s m).2 ∧ Holds (enter s m).1 t (enter s m).2
      ∧ Frame t s (enter s m).1 := by
  have hframe : Frame t s s := ⟨fun _ => ⟨rfl, fun h => h⟩, rfl⟩
  cases t with
  | writeThread =>
    cases m with
    | onMessage => exact ⟨⟨h.balance, h.closed⟩, .transfer, hl, ⟨fun _ => ⟨rfl, fun h => h⟩, rfl⟩⟩
    | write | flush | close => exact hrules.elim
  | caller =>
    by_cases hclosed : s.state_ = .SS_CLOSED
    · cases m with
      | onMessage => exact hrules.elim
      | write data =>
        simp only [AsyncWriteStream.enter, Write, if_pos hclosed]
        exact ⟨h, .idle, hl, hframe⟩
      | flush =>
        simp only [AsyncWriteStream.enter, Flush, if_pos hclosed]
        exact ⟨h, .idle, hl, hframe⟩
      | close =>
        simp only [AsyncWriteStream.enter, Close, if_pos hclosed]
        exact ⟨h, .idle, hl, hframe⟩
    · cases m with
      | onMessage => exact hrules.elim
      | write data =>
        simp only [AsyncWriteStream.enter, Write, if_neg hclosed]
        exact ⟨h, .write hclosed data, hl, hframe⟩
      | flush =>
        simp only [AsyncWriteStream.enter, Flush, if_neg hclosed]
        exact ⟨h, .flush hclosed, hl, hframe⟩
      | close =>
        simp only [AsyncWriteStream.enter, Close, if_neg hclosed]
        exact ⟨h, .close hclosed, hl, hframe⟩

end Steps

/-! ## 3. Every run -/

variable {c c' : Conf}

theorem holds_init (state : StreamState) : invariant.Holds (Conf.init state) where
  global := ⟨rfl, fun _ => ⟨rfl, rfl⟩⟩
  stack t := ⟨by cases t with
    | caller => exact CallerStack.idle
    | writeThread => exact WriterStack.idle, rfl⟩

/-- A step in which nothing is done out of order keeps the books. -/
theorem holds_step {t : Drainer} {a : Act AsyncCall Unit} (h : invariant.Holds c)
    (hK : Orderly c t a) (hstep : step asyncWriteStream c t a = some c') : invariant.Holds c' := by
  obtain ⟨hat, hheld⟩ := h.stack t
  rcases step_cases hstep with ⟨x, rest, r, rfl, hc, -, hr, rfl⟩ | ⟨m, rfl, hw, rfl⟩ |
    ⟨v, x, rest, rfl, -, hf, rfl⟩
  · rw [hc] at hat hheld
    have horder : ¬OutOfOrder c.state t x := hK.2 x (by rw [hc]; rfl)
    obtain ⟨hbooks, hat', hheld', hframe⟩ := hat.exec h.global hheld horder hr
    exact h.put hbooks ⟨hat', hheld'⟩ fun u hu hold =>
      ⟨hold.1.frame hframe hu, hold.2.frame hframe hu⟩
  · -- nobody calls in the middle of a function
    have hidle : c.control t = [] := by
      cases hc : c.control t with
      | nil => rfl
      | cons x rest => exact absurd (hw x (by rw [hc]; rfl)) Bool.false_ne_true
    rw [hidle] at hheld ⊢
    obtain ⟨hbooks, hat', hheld', hframe⟩ := At.enter (c := c) h.global hheld hK.1
    rw [List.append_nil]
    exact h.put hbooks ⟨hat', hheld'⟩ fun u hu hold =>
      ⟨hold.1.frame hframe hu, hold.2.frame hframe hu⟩
  · exact absurd hf Bool.false_ne_true

/-- Where nothing is done out of order, the bytes come to the stream in the order of the calls, and
all of them have come when it is closed. -/
theorem keeps_order (state : StreamState)
    (h : Reaches asyncWriteStream Orderly (Conf.init state) c) :
    c.state.handed <+: c.state.written
      ∧ (c.state.state_ = .SS_CLOSED → c.state.handed = c.state.written) := by
  have hinvariant : invariant.Holds c := h.invariant (holds_init state)
    fun c t a c' _ hc hK hstep => holds_step hc hK hstep
  have hbooks : Books c.state := hinvariant.global
  constructor
  · rw [hbooks.balance, List.append_assoc]
    exact List.prefix_append _ _
  · intro hclosed
    obtain ⟨hbuffer, htaken⟩ := hbooks.closed hclosed
    rw [hbooks.balance, hbuffer, htaken, List.flatMap_nil, List.append_nil, List.append_nil]

theorem keeps_order_closed :
    ∃ c, Reaches asyncWriteStream Orderly (Conf.init .SS_OPEN) c ∧ c.state.written = [1, 2]
      ∧ c.state.state_ = .SS_CLOSED ∧ c.state.handed <+: c.state.written
      ∧ (c.state.state_ = .SS_CLOSED → c.state.handed = c.state.written) := by
  obtain ⟨c, hc, hp⟩ := exists_of_follow (P := asyncWriteStream) (K := Orderly)
    (c := Conf.init .SS_OPEN)
    (l := [(.caller, .call (.write [1])), (.caller, .tick), (.caller, .tick),
      (.writeThread, .call .onMessage), (.writeThread, .tick), (.caller, .call (.write [2])),
      (.caller, .tick), (.writeThread, .tick), (.caller, .tick), (.caller, .call .close),
      (.caller, .tick), (.caller, .tick), (.caller, .tick), (.caller, .tick)])
    (p := fun c => c.state.written = [1, 2] ∧ c.state.state_ = .SS_CLOSED) (by decide)
  obtain ⟨hwritten, hclosed⟩ := of_decide_eq_true hp
  exact ⟨c, hc, hwritten, hclosed, keeps_order .SS_OPEN hc⟩

/-- The write thread has taken the first byte. `Flush` takes the second one, and is the first to
write; `Close` takes nothing, and closes the stream before anything is written. -/
theorem order_lost :
    (∃ c, Reaches asyncWriteStream Rules (Conf.init .SS_OPEN) c
      ∧ ¬c.state.handed <+: c.state.written)
    ∧ ∃ c, Reaches asyncWriteStream Rules (Conf.init .SS_OPEN) c
      ∧ c.state.state_ = .SS_CLOSED ∧ c.state.handed ≠ c.state.written := by
  constructor
  · obtain ⟨c, hc, hp⟩ := exists_of_follow (P := asyncWriteStream) (K := Rules)
      (c := Conf.init .SS_OPEN)
      (l := [(.caller, .call (.write [1])), (.caller, .tick), (.caller, .tick),
        (.writeThread, .call .onMessage), (.writeThread, .tick), (.caller, .call (.write [2])),
        (.caller, .tick), (.caller, .tick), (.caller, .call .flush), (.caller, .tick),
        (.caller, .tick)])
      (p := fun c => ¬c.state.handed <+: c.state.written) (by decide)
    exact ⟨c, hc, of_decide_eq_true hp⟩
  · obtain ⟨c, hc, hp⟩ := exists_of_follow (P := asyncWriteStream) (K := Rules)
      (c := Conf.init .SS_OPEN)
      (l := [(.caller, .call (.write [1])), (.caller, .tick), (.caller, .tick),
        (.writeThread, .call .onMessage), (.writeThread, .tick), (.caller, .call .close),
        (.caller, .tick), (.caller, .tick), (.caller, .tick)])
      (p := fun c => c.state.state_ = .SS_CLOSED ∧ c.state.handed ≠ c.state.written) (by decide)
    exact ⟨c, hc, of_decide_eq_true hp⟩

end AsyncWriteStream

end Gxmpp.TalkBase
