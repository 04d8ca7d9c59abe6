/-
The output of `XmppSocket`, in `talk/xmpp/xmppsocket.cc`: what is written goes into a byte buffer,
and from there to the socket below whenever that takes something.

The socket below is any transport whose `Send` takes no more than it is offered: a part, all of it,
nothing, or it fails. How it answers may depend on everything it was sent before. It is there from
the first `Write` on.

No byte is lost, sent twice or sent before one that was written earlier: `accepted`, which is not
in the code, followed by the buffer is what was written (`stream_kept`).
-/
import Gxmpp.ByteQueue
import Gxmpp.Walking
import Gxmpp.XmppClient

set_option autoImplicit false

namespace Gxmpp

open TalkBase

/-- The socket below, with states in `σ`. -/
structure Transport (σ : Type) where
  Send : σ → Str → σ × Int
  IsBlocking : σ → Bool
  GetError : σ → Int
  /-- no more is taken than was offered -/
  send_le : ∀ s offered, (Send s offered).2 ≤ (offered.length : Int)

/-- `XmppSocket` with its buffer, over a transport. -/
structure OutputSocket (σ : Type) extends XmppSocket where
  buffer_ : ByteBuffer
  cricket_socket_ : σ
  /-- what is logged of failed sends -/
  errors : List Int
  /-- the bytes that the transport has taken, for stating properties -/
  accepted : Str

/-- What makes the socket write. -/
inductive OutputEvent where
  /-- `Write` is called -/
  | write (data : Str)
  /-- the transport signals that it can be written to -/
  | writeEvent

namespace OutputSocket

variable {σ : Type} (t : Transport σ) (fresh : ℕ → UInt8)

/-- A new socket, with an empty buffer. -/
def init (tls : TlsOptions) (s : σ) : OutputSocket σ :=
  { XmppSocket.init tls with
    buffer_ := .Construct fresh none ByteBuffer.DEFAULT_SIZE .ORDER_NETWORK
    cricket_socket_ := s
    errors := []
    accepted := [] }

/-- One round of the loop of `OnWriteEvent`. -/
def writeRound : Walking.Round (OutputSocket σ) (OutputSocket σ) := fun x =>
  if x.buffer_.Length ≠ 0 then
    let (cricket_socket_, written) := t.Send x.cricket_socket_ x.buffer_.Data
    if written > 0 then
      .inl
        { x with
          cricket_socket_
          buffer_ := (x.buffer_.Consume written.toNat).1
          accepted := x.accepted ++ x.buffer_.Data.take written.toNat }
    else
      .inr
        { x with
          cricket_socket_
          errors := if !t.IsBlocking cricket_socket_ then x.errors ++ [t.GetError cricket_socket_]
            else x.errors }
  else .inr x

/-- `OnWriteEvent`, of at most `n` rounds. -/
def OnWriteEvent (n : ℕ) (x : OutputSocket σ) : Option (OutputSocket σ) :=
  Walking.rounds (writeRound t) n x

/-- `Write`; it always returns true. -/
def Write (n : ℕ) (x : OutputSocket σ) (data : Str) : Option (OutputSocket σ) :=
  OnWriteEvent t n { x with buffer_ := x.buffer_.WriteBytes fresh data }

def handle (n : ℕ) (x : OutputSocket σ) : OutputEvent → Option (OutputSocket σ)
  | .write data => x.Write t fresh n data
  | .writeEvent => x.OnWriteEvent t n

/-- Events, one after the other. -/
def run (n : ℕ) (x : OutputSocket σ) : List OutputEvent → Option (OutputSocket σ)
  | [] => some x
  | e :: es => (x.handle t fresh n e).bind fun y => run n y es

/-- All that is written. -/
def written (es : List OutputEvent) : Str :=
  es.flatMap fun e => match e with
    | .write data => data
    | .writeEvent => []

/-- What was taken and what is in the buffer, one behind the other. -/
def stream (x : OutputSocket σ) : Str := x.accepted ++ x.buffer_.Data

variable {t} {fresh}

/-- A round takes bytes off the buffer and hands them over, or leaves the loop; the stream stays. -/
theorem round_kept {x : OutputSocket σ} (h : x.buffer_.Wf) :
    (∃ y, writeRound t x = .inl y ∧ y.buffer_.Wf ∧ y.stream = x.stream
        ∧ y.buffer_.Length < x.buffer_.Length)
      ∨ ∃ y, writeRound t x = .inr y ∧ y.buffer_ = x.buffer_ ∧ y.stream = x.stream := by
  unfold writeRound
  by_cases hlength : x.buffer_.Length ≠ 0
  · rw [if_pos hlength]
    have hle := t.send_le x.cricket_socket_ x.buffer_.Data
    generalize t.Send x.cricket_socket_ x.buffer_.Data = sent at hle ⊢
    obtain ⟨s, written⟩ := sent
    dsimp only at hle ⊢
    by_cases hwritten : written > 0
    · have hn : written.toNat ≤ x.buffer_.Data.length := by omega
      have hdata := h.length_data
      obtain ⟨hwf, hrest⟩ := ByteBuffer.forward_spec h hn
      have hconsume : (x.buffer_.Consume written.toNat).1
          = { x.buffer_ with start_ := x.buffer_.start_ + written.toNat } := by
        unfold ByteBuffer.Consume
        rw [if_neg (by omega)]
      rw [if_pos hwritten]
      refine Or.inl ⟨_, rfl, ?_, ?_, ?_⟩
      · show (x.buffer_.Consume written.toNat).1.Wf
        rw [hconsume]
        exact hwf
      · show x.accepted ++ x.buffer_.Data.take written.toNat
            ++ (x.buffer_.Consume written.toNat).1.Data = x.accepted ++ x.buffer_.Data
        rw [hconsume, hrest, List.append_assoc, List.take_append_drop]
      · show (x.buffer_.Consume written.toNat).1.Length < x.buffer_.Length
        rw [hconsume, ← hwf.length_data, hrest, ← hdata, List.length_drop]
        omega
    · rw [if_neg hwritten]
      exact Or.inr ⟨_, rfl, rfl, rfl⟩
  · rw [if_neg hlength]
    exact Or.inr ⟨x, rfl, rfl, rfl⟩

/-- The loop ends: it goes round at most once for each byte, and the stream stays. -/
theorem onWriteEvent_kept {x : OutputSocket σ} (h : x.buffer_.Wf) {n : ℕ}
    (hn : x.buffer_.Length < n) :
    ∃ y, x.OnWriteEvent t n = some y ∧ y.buffer_.Wf ∧ y.stream = x.stream := by
  unfold OnWriteEvent
  induction n generalizing x with
  | zero => exact absurd hn (Nat.not_lt_zero _)
  | succ n ih =>
    rw [Walking.rounds]
    rcases round_kept h (t := t) with
      ⟨y, hround, hwf, hstream, hless⟩ | ⟨y, hround, hbuffer, hstream⟩
    · obtain ⟨z, hz, hwf', hstream'⟩ := ih hwf (by omega)
      rw [hround]
      exact ⟨z, hz, hwf', hstream'.trans hstream⟩
    · rw [hround]
      exact ⟨y, rfl, hbuffer ▸ h, hstream⟩

/-- An event puts what is written at the end of the stream. -/
theorem handle_kept {x : OutputSocket σ} (h : x.buffer_.Wf) (e : OutputEvent) {n : ℕ}
    (hn : (x.stream ++ written [e]).length < n) :
    ∃ y, x.handle t fresh n e = some y ∧ y.buffer_.Wf ∧ y.stream = x.stream ++ written [e] := by
  have hlength := h.length_data
  unfold stream at hn ⊢
  rw [List.length_append, List.length_append] at hn
  cases e with
  | write data =>
    obtain ⟨hwf, hdata, -⟩ := ByteBuffer.writeBytes_spec fresh h data
    have hone : written [.write data] = data := List.append_nil data
    have hmore := hwf.length_data
    rw [hone] at hn ⊢
    rw [hdata, List.length_append] at hmore
    obtain ⟨y, hy, hwf', hstream⟩ := onWriteEvent_kept (t := t)
      (x := { x with buffer_ := x.buffer_.WriteBytes fresh data }) hwf (n := n)
      (show (x.buffer_.WriteBytes fresh data).Length < n by omega)
    refine ⟨y, hy, hwf', hstream.trans ?_⟩
    show x.accepted ++ (x.buffer_.WriteBytes fresh data).Data = _
    rw [hdata, List.append_assoc]
  | writeEvent =>
    obtain ⟨y, hy, hwf', hstream⟩ := onWriteEvent_kept (t := t) h (n := n) (by omega)
    exact ⟨y, hy, hwf', hstream.trans (List.append_nil _).symm⟩

theorem run_kept {x : OutputSocket σ} (h : x.buffer_.Wf) (es : List OutputEvent) {n : ℕ}
    (hn : (x.stream ++ written es).length < n) :
    ∃ y, x.run t fresh n es = some y ∧ y.buffer_.Wf ∧ y.stream = x.stream ++ written es := by
  induction es generalizing x with
  | nil => exact ⟨x, rfl, h, (List.append_nil _).symm⟩
  | cons e es ih =>
    have hcons : written (e :: es) = written [e] ++ written es := by
      unfold written
      simp
    rw [hcons, ← List.append_assoc] at hn ⊢
    have hfirst : (x.stream ++ written [e]).length < n := by
      rw [List.length_append] at hn
      omega
    obtain ⟨y, hy, hwf, hstream⟩ := handle_kept h e hfirst
    rw [← hstream] at hn ⊢
    obtain ⟨z, hz, hwf', hstream'⟩ := ih hwf hn
    refine ⟨z, ?_, hwf', hstream'⟩
    rw [run, hy]
    exact hz

/-- Whatever is written and whenever the transport signals, every loop ends, and what the
transport has taken, followed by what is in the buffer, is what was written. -/
theorem stream_kept (t : Transport σ) (fresh : ℕ → UInt8) (tls : TlsOptions) (s : σ)
    (es : List OutputEvent) {n : ℕ} (hn : (written es).length < n) :
    ∃ x, (init fresh tls s).run t fresh n es = some x
      ∧ x.accepted ++ x.buffer_.Data = written es := by
  have hrelated := ByteBuffer.start_related fresh .ORDER_NETWORK none ByteBuffer.DEFAULT_SIZE
  have hstream : (init fresh tls s).stream = [] := hrelated.content
  have hfuel : ((init fresh tls s).stream ++ written es).length < n := by
    rw [hstream]
    exact hn
  obtain ⟨x, hx, -, hkept⟩ :=
    run_kept (t := t) (x := init fresh tls s) hrelated.wf es hfuel
  rw [hstream] at hkept
  exact ⟨x, hx, hkept⟩

/-- A transport that takes two bytes as many times as its state says, and would block then. -/
def twoBytes : Transport ℕ where
  Send k offered := (k - 1, if k = 0 then -1 else min 2 offered.length)
  IsBlocking _ := true
  GetError _ := 0
  send_le k offered := by split <;> omega

/-- Two texts of which the second is written while a part of the first is in the buffer. -/
theorem stream_kept_twoBytes :
    ∃ x, (init (fun _ => 0) .disabled 1).run twoBytes (fun _ => 0) 8
        [.write [1, 2, 3], .writeEvent, .write [4, 5]] = some x
      ∧ x.accepted ++ x.buffer_.Data = [1, 2, 3, 4, 5] :=
  stream_kept twoBytes (fun _ => 0) .disabled 1 _ (by decide)

end OutputSocket

end Gxmpp
