/-
What one statement of the engine, and the entry of one of its functions, can do.

The module answers these questions once, so that no property of the engine has to
open `exec` or `enter` for them:

* which members a statement leaves alone, how the state of the engine moves and which
  events the history gains: `StmtFrame`, with `exec_frame`, and `EntryFrame`, with
  `entry_frame`; `Stmt.mayEmit` and `Call.mayEmit` are the tables of the events;
* what kind of statement is pushed: the table `Stmt.mayPush`, with `exec_mayPush` and
  `exec_push`; for the entry of a function `EntryFrame` says it.
-/
import Gxmpp.EngineCases

set_option autoImplicit false

namespace Gxmpp

open World

/-! ## Kinds of statements -/

/-- The statements of `~EnterExit`. -/
def Stmt.isScope : Stmt → Bool
  | .exitScope _ | .afterWrite _ _ | .afterClose _ | .leaveScope _ => true
  | _ => false

/-- The statements that treat input: the parser, what it reports, the login task and
the dispatch to the handlers. -/
def Stmt.isInput : Stmt → Bool
  | .parse _ _ | .incoming _ | .advance | .startedTls | .tlsStarted | .advanced | .resetLogin
  | .peek _ _ | .dispatch _ _ _ | .unhandled _ | .deleteEntry _ => true
  | _ => false

/-- How many open scopes a pending statement stands for. -/
def Stmt.scopes : Stmt → Nat
  | .exitScope _ => 1
  | _ => 0

variable {s p : Stmt} {w : World} {r : World × List Stmt}

theorem Stmt.isScope_of_isInput (h : s.isInput = true) : s.isScope = false := by
  cases s <;> simp_all [Stmt.isInput, Stmt.isScope]

theorem Stmt.scopes_of_isInput (h : s.isInput = true) : s.scopes = 0 := by
  cases s <;> first | rfl | cases h

/-- The events a statement can add to the history. -/
def Stmt.mayEmit : Stmt → Event → Bool
  | .exitScope _, .callback (.writeOutput _) => true
  | .afterWrite _ _, .callback .closeConnection => true
  | .leaveScope _, .callback (.onStateChange _) => true
  | .returned _ _, .returned _ _ => true
  | .incoming _, .parsed _ => true
  | .incoming _, .callback (.iqResponse _ _) => true
  | .advance, ev => ev.byLogin
  | .peek _ _, .callback (.handleStanza _ _ _ _) => true
  | .dispatch _ _ _, .callback (.handleStanza _ _ _ _) => true
  | .unhandled _, ev => ev.bySend
  | .deleteEntry _, .iqFreed _ => true
  | _, _ => false

/-- The events the entry of a function can add to the history, after the call. -/
def Call.mayEmit : Call → Event → Bool
  | .sendStanza _, ev => ev.bySend
  | .sendStanzaError _ _ _, ev => ev.bySend
  | .sendIq _ _, .iqCreated _ => true
  | .sendIq _ _, ev => ev.bySend
  | .sendRaw _, .wrote _ _ => true
  | .disconnect, .wrote _ _ => true
  | .removeIqHandler _, .iqFreed _ => true
  | _, _ => false

/-- The statements a statement can leave to be executed. -/
def Stmt.mayPush : Stmt → Stmt → Bool
  | .exitScope _, .callback (.writeOutput _) => true
  | .exitScope _, .afterWrite _ _ => true
  | .exitScope _, .leaveScope _ => true
  | .afterWrite _ _, .callback .closeConnection => true
  | .afterWrite _ _, .afterClose _ => true
  | .afterWrite _ _, .leaveScope _ => true
  | .afterClose _, .leaveScope _ => true
  | .leaveScope _, .callback (.onStateChange _) => true
  | .parse _ _, .incoming _ => true
  | .parse _ _, .parse _ _ => true
  | .incoming _, .advance => true
  | .incoming _, .advanced => true
  | .incoming _, .resetLogin => true
  | .incoming _, .callback (.iqResponse _ _) => true
  | .incoming _, .deleteEntry _ => true
  | .incoming _, .peek _ _ => true
  | .advance, .advance => true
  | .advance, .callback (.startTls _) => true
  | .advance, .startedTls => true
  | .advance, .tlsStarted => true
  | .tlsStarted, .advance => true
  | .peek _ _, .callback (.handleStanza _ _ _ _) => true
  | .peek _ _, .dispatch _ _ _ => true
  | .dispatch _ _ _, .callback (.handleStanza _ _ _ _) => true
  | .dispatch _ _ _, .dispatch _ _ _ => true
  | .dispatch _ _ _, .unhandled _ => true
  | .unhandled _, .exitScope _ => true
  | _, _ => false

/-! ## The statements -/

/-- What executing `s` leaves alone, and what it adds to the history. -/
structure StmtFrame (s : Stmt) (w w' : World) : Prop where
  output_handler : (∀ saved, s ≠ .afterClose saved) →
    w'.eng.output_handler = w.eng.output_handler
  session_handler : w'.eng.session_handler = w.eng.session_handler
  sasl_handler : w'.eng.sasl_handler = w.eng.sasl_handler
  stanza_handlers : w'.eng.stanza_handlers = w.eng.stanza_handlers
  iq_entries : (∀ ev, s ≠ .incoming ev) → w'.eng.iq_entries = w.eng.iq_entries
  nextCookie : w'.nextCookie = w.nextCookie
  engine_entered : (∀ saved, s ≠ .exitScope saved) → (∀ stanza, s ≠ .unhandled stanza) →
    w'.eng.engine_entered = w.eng.engine_entered
  state : s.isInput = false → w'.eng.state = w.eng.state
  tls_option : s ≠ .tlsStarted → w'.eng.tls_option = w.eng.tls_option
  encrypted : s ≠ .startedTls → w'.eng.encrypted = w.eng.encrypted
  raised_reset : s ≠ .advance → (∀ saved, s ≠ .leaveScope saved) →
    w'.eng.raised_reset = w.eng.raised_reset
  stanza_parser_ : (∀ events status, s ≠ .parse events status) →
    (∀ saved, s ≠ .leaveScope saved) → w'.eng.stanza_parser_ = w.eng.stanza_parser_
  forward : Forward w w'
  grows : Grows (fun ev => s.mayEmit ev = true) w w'

namespace StmtFrame

variable {s : Stmt} {w w' : World}

/-- A change of other members. -/
theorem of_eng (h : w'.eng.output_handler = w.eng.output_handler)
    (h₁ : w'.eng.session_handler = w.eng.session_handler)
    (hsa : w'.eng.sasl_handler = w.eng.sasl_handler)
    (h₂ : w'.eng.stanza_handlers = w.eng.stanza_handlers)
    (h₃ : w'.eng.iq_entries = w.eng.iq_entries) (h₄ : w'.nextCookie = w.nextCookie)
    (h₅ : w'.eng.engine_entered = w.eng.engine_entered) (h₆ : w'.eng.state = w.eng.state)
    (h₇ : w'.eng.error_code = w.eng.error_code) (h₈ : w'.eng.tls_option = w.eng.tls_option)
    (h₉ : w'.eng.encrypted = w.eng.encrypted) (h₁₀ : w'.eng.raised_reset = w.eng.raised_reset)
    (h₁₁ : w'.eng.stanza_parser_ = w.eng.stanza_parser_)
    (hg : Grows (fun ev => s.mayEmit ev = true) w w') : StmtFrame s w w' :=
  ⟨fun _ => h, h₁, hsa, h₂, fun _ => h₃, h₄, fun _ _ => h₅, fun _ => h₆, fun _ => h₈, fun _ => h₉,
    fun _ _ => h₁₀, fun _ _ => h₁₁, .of_eq h₆ h₇, hg⟩

theorem refl (s : Stmt) (w : World) : StmtFrame s w w :=
  of_eng rfl rfl rfl rfl rfl rfl rfl rfl rfl rfl rfl rfl rfl (.refl w)

theorem emit (s : Stmt) (w : World) {ev : Event} (h : s.mayEmit ev = true) :
    StmtFrame s w (w.emit ev) :=
  of_eng rfl rfl rfl rfl rfl rfl rfl rfl rfl rfl rfl rfl rfl (.emit w h)

theorem trans {a b c : World} (h : StmtFrame s a b) (k : StmtFrame s b c) : StmtFrame s a c where
  output_handler hs := (k.output_handler hs).trans (h.output_handler hs)
  session_handler := k.session_handler.trans h.session_handler
  sasl_handler := k.sasl_handler.trans h.sasl_handler
  stanza_handlers := k.stanza_handlers.trans h.stanza_handlers
  iq_entries hs := (k.iq_entries hs).trans (h.iq_entries hs)
  nextCookie := k.nextCookie.trans h.nextCookie
  engine_entered h₁ h₂ := (k.engine_entered h₁ h₂).trans (h.engine_entered h₁ h₂)
  state hs := (k.state hs).trans (h.state hs)
  tls_option hs := (k.tls_option hs).trans (h.tls_option hs)
  encrypted hs := (k.encrypted hs).trans (h.encrypted hs)
  raised_reset h₁ h₂ := (k.raised_reset h₁ h₂).trans (h.raised_reset h₁ h₂)
  stanza_parser_ h₁ h₂ := (k.stanza_parser_ h₁ h₂).trans (h.stanza_parser_ h₁ h₂)
  forward := h.forward.trans k.forward
  grows := h.grows.trans k.grows

end StmtFrame

/-- The frame of the login task is one of a statement that treats input. -/
theorem LoginFrame.stmtFrame {w' : World} (h : LoginFrame w w') (hs : s.isInput = true)
    (hr : s ≠ .advance → w'.eng.raised_reset = w.eng.raised_reset)
    (hg : Grows (fun ev => s.mayEmit ev = true) w w') : StmtFrame s w w' :=
  ⟨fun _ => h.output_handler, h.session_handler, h.sasl_handler, h.stanza_handlers,
    fun _ => h.iq_entries,
    h.nextCookie, fun _ _ => h.engine_entered, fun hn => absurd hs (by simp [hn]),
    fun _ => h.tls_option, fun _ => h.encrypted, fun hn _ => hr hn, fun _ _ => h.stanza_parser_,
    h.forward, hg⟩

theorem signalError_raised (w : World) (code : EngineError) (sub : Int) :
    (w.signalError code sub).eng.raised_reset = w.eng.raised_reset := by
  rw [signalError]
  split <;> rfl

@[simp] theorem signalError_log (w : World) (code : EngineError) (sub : Int) :
    (w.signalError code sub).log = w.log := by
  rw [signalError]
  split <;> rfl

@[simp] theorem signalStreamError_log (w : World) (e : XmlElement) :
    (w.signalStreamError e).log = w.log := by
  rw [signalStreamError]
  split
  · rw [signalError_log]
    rfl
  · rfl

theorem signalError_stmtFrame (hs : s.isInput = true) (w : World) (code : EngineError) (sub : Int) :
    StmtFrame s w (w.signalError code sub) :=
  (LoginFrame.signalError w code sub).stmtFrame hs (fun _ => signalError_raised w code sub)
    (.of_eq (signalError_log w code sub))

theorem incoming_frame {ev : StanzaEvent} (h : Incoming w ev r) :
    StmtFrame (.incoming ev) w r.1 := by
  have hp : StmtFrame (.incoming ev) w (w.emit (.parsed ev)) := .emit _ w rfl
  cases h with
  | blocked hb => exact .refl _ w
  | login lt e isStart hb hl =>
    exact hp.trans (.of_eng rfl rfl rfl rfl rfl rfl rfl rfl rfl rfl rfl rfl rfl (.of_eq rfl))
  | streamError stanza hb =>
    refine hp.trans ?_
    dsimp only
    rw [signalStreamError]
    split
    · refine StmtFrame.trans ?_ (signalError_stmtFrame rfl _ _ _)
      exact .of_eng rfl rfl rfl rfl rfl rfl rfl rfl rfl rfl rfl rfl rfl (.of_eq rfl)
    · exact .refl _ _
  | error code hc hb => exact hp.trans (signalError_stmtFrame rfl _ _ _)
  | response stanza entry hb hl hev hn ht hi hf =>
    refine hp.trans (StmtFrame.trans ?_ (.emit _ _ rfl))
    exact ⟨fun _ => rfl, rfl, rfl, rfl, fun hne => absurd rfl (hne ev), rfl, fun _ _ => rfl,
      fun _ => rfl, fun _ => rfl, fun _ => rfl, fun _ _ => rfl, fun _ _ => rfl, .of_eq rfl rfl,
      .of_eq rfl⟩
  | dispatch stanza hb hl hev => exact hp

theorem send_stmtFrame {v : World} {stanza e : XmlElement} (h : Sent w e v) :
    StmtFrame (.unhandled stanza) w v := by
  have hf := h.frame.1
  exact ⟨fun _ => hf.output_handler, hf.session_handler, hf.sasl_handler, hf.stanza_handlers,
    fun _ => hf.iq_entries, hf.nextCookie, fun _ hn => absurd rfl (hn stanza),
    fun _ => hf.state, fun _ => hf.tls_option, fun _ => hf.encrypted, fun _ _ => hf.raised_reset,
    fun _ _ => hf.stanza_parser_, .of_eq hf.state hf.error_code, hf.grows⟩

/-- What the reply to an iq nobody handled does. -/
theorem unhandled_cases (w : World) (stanza : XmlElement) :
    w.unhandled stanza = (w, []) ∨ (w.eng.state ≠ .closed ∧ ∃ v, Sent w
      (errorReply stanza .featureNotImplemented STR_EMPTY) v ∧
      w.unhandled stanza = (v, [.exitScope w.eng.state])) := by
  rw [unhandled]
  split
  · rw [sendStanzaError]
    split
    · exact .inl rfl
    · rename_i hs
      rcases sendStanza_cases w (errorReply stanza .featureNotImplemented STR_EMPTY) with
        ⟨hc, -⟩ | ⟨-, v, hv, h⟩
      · exact absurd hc hs
      · refine .inr ⟨hs, v, hv, ?_⟩
        rw [h]
  · exact .inl rfl

theorem afterReset_frame (w : World) (saved : EngineState) :
    StmtFrame (.leaveScope saved) w (afterReset w) := by
  rcases afterReset_eq w with h | ⟨-, h⟩ <;> rw [h]
  · exact .refl _ w
  · exact ⟨fun _ => rfl, rfl, rfl, rfl, fun _ => rfl, rfl, fun _ _ => rfl, fun _ => rfl,
      fun _ => rfl,
      fun _ => rfl, fun _ hn => absurd rfl (hn saved), fun _ hn => absurd rfl (hn saved),
      .of_eq rfl rfl, .of_eq rfl⟩

/-- Every statement keeps to its frame. -/
theorem exec_frame (h : w.exec s = some r) : StmtFrame s w r.1 := by
  cases s with
  | callback cb => cases h
  | exitScope saved =>
    have hl : StmtFrame (.exitScope saved) w (leftScope w) :=
      ⟨fun _ => rfl, rfl, rfl, rfl, fun _ => rfl, rfl, fun hn => absurd rfl (hn saved),
        fun _ => rfl, fun _ => rfl, fun _ => rfl, fun _ _ => rfl, fun _ _ => rfl, .of_eq rfl rfl,
        .of_eq rfl⟩
    cases exec_exitScope h with
    | write ho hf hb => exact hl.trans (.emit _ _ rfl)
    | empty | unflushed => exact hl
  | afterWrite saved closing =>
    obtain rfl := Option.some.inj h
    rw [afterWrite]
    dsimp only
    have hw : StmtFrame (.afterWrite saved closing) w (w.set { w.eng with output := [] }) :=
      .of_eng rfl rfl rfl rfl rfl rfl rfl rfl rfl rfl rfl rfl rfl (.of_eq rfl)
    split
    · exact hw.trans (.emit _ _ rfl)
    · exact hw
  | afterClose saved =>
    obtain rfl := Option.some.inj h
    exact ⟨fun hn => absurd rfl (hn saved), rfl, rfl, rfl, fun _ => rfl, rfl, fun _ _ => rfl,
      fun _ => rfl, fun _ => rfl, fun _ => rfl, fun _ _ => rfl, fun _ _ => rfl, .of_eq rfl rfl,
      .of_eq rfl⟩
  | leaveScope saved =>
    cases exec_leaveScope h with
    | inner he => exact .refl _ w
    | notify he hh hs => exact (afterReset_frame w _).trans (.emit _ _ rfl)
    | silent he hn => exact afterReset_frame w _
  | returned | deleteEntry =>
    obtain rfl := Option.some.inj h
    exact .emit _ w rfl
  | parse events status =>
    obtain rfl := Option.some.inj h
    have hset : ∀ p : XmppStanzaParser, StmtFrame (.parse events status) w
        (w.set { w.eng with stanza_parser_ := p }) := fun p =>
      ⟨fun _ => rfl, rfl, rfl, rfl, fun _ => rfl, rfl, fun _ _ => rfl, fun _ => rfl, fun _ => rfl,
        fun _ => rfl, fun _ _ => rfl, fun hn => absurd rfl (hn events status), .of_eq rfl rfl,
        .of_eq rfl⟩
    cases events <;> exact hset _
  | incoming ev => exact incoming_frame (exec_incoming h)
  | advance =>
    obtain ⟨lt, -, hr⟩ := exec_advance h
    have hf := (round_frame hr).1
    exact hf.stmtFrame rfl (fun hn => absurd rfl hn) hf.grows
  | startedTls =>
    obtain rfl := Option.some.inj h
    exact ⟨fun _ => rfl, rfl, rfl, rfl, fun _ => rfl, rfl, fun _ _ => rfl, fun _ => rfl,
      fun _ => rfl,
      fun hn => absurd rfl hn, fun _ _ => rfl, fun _ _ => rfl, .of_eq rfl rfl, .of_eq rfl⟩
  | tlsStarted =>
    obtain ⟨lt, -, rfl⟩ := Option.map_eq_some_iff.1 h
    exact ⟨fun _ => rfl, rfl, rfl, rfl, fun _ => rfl, rfl, fun _ _ => rfl, fun _ => rfl,
      fun hn => absurd rfl hn, fun _ => rfl, fun _ _ => rfl, fun _ _ => rfl, .of_eq rfl rfl,
      .of_eq rfl⟩
  | advanced =>
    obtain ⟨lt, -, rfl⟩ := Option.map_eq_some_iff.1 h
    exact .of_eng rfl rfl rfl rfl rfl rfl rfl rfl rfl rfl rfl rfl rfl (.of_eq rfl)
  | resetLogin =>
    obtain ⟨lt, -, rfl⟩ := Option.map_eq_some_iff.1 h
    dsimp only
    split
    · exact .of_eng rfl rfl rfl rfl rfl rfl rfl rfl rfl rfl rfl rfl rfl (.of_eq rfl)
    · exact .refl _ w
  | peek stanza i =>
    obtain rfl := Option.some.inj h
    rw [peek]
    split
    · exact .emit _ w rfl
    · exact .refl _ w
  | dispatch stanza level i =>
    obtain rfl := Option.some.inj h
    rw [dispatch]
    split
    · exact .emit _ w rfl
    · split <;> exact .refl _ w
  | unhandled stanza =>
    obtain rfl := Option.some.inj h
    rcases unhandled_cases w stanza with h | ⟨-, v, hv, h⟩ <;> rw [h]
    · exact .refl _ w
    · exact send_stmtFrame hv

/-- What a statement can push: a scope statement comes from one, or opens the scope of
the reply to an unhandled iq; an input statement comes from one. -/
structure StmtPush (s : Stmt) (w : World) (p : Stmt) : Prop where
  scope : p.isScope = true → s.isScope = true ∨
    (w.eng.state ≠ .closed ∧ p = .exitScope w.eng.state ∧ ∃ stanza, s = .unhandled stanza)
  scopes : (∀ stanza, s ≠ .unhandled stanza) → p.scopes = 0
  input : p.isInput = true → s.isInput = true
  unreturned : ∀ m status, p ≠ .returned m status

/-- The table of what is pushed is right. -/
theorem exec_mayPush (h : w.exec s = some r) : ∀ p ∈ r.2, s.mayPush p = true := by
  have hnil : ∀ p ∈ ([] : List Stmt), s.mayPush p = true := List.forall_mem_nil _
  cases s with
  | callback cb => cases h
  | exitScope saved =>
    cases exec_exitScope h <;> simp [callOut, Stmt.mayPush]
  | afterWrite saved closing =>
    obtain rfl := Option.some.inj h
    cases closing <;> simp [afterWrite, callOut, Stmt.mayPush]
  | afterClose saved =>
    obtain rfl := Option.some.inj h
    simp [afterClose, Stmt.mayPush]
  | leaveScope saved =>
    cases exec_leaveScope h <;> simp [callOut, Stmt.mayPush]
  | returned | startedTls | deleteEntry =>
    obtain rfl := Option.some.inj h
    exact hnil
  | parse events status =>
    obtain rfl := Option.some.inj h
    intro p hp
    cases events with
    | nil =>
      simp only [parse] at hp
      split at hp <;> simp only [List.mem_cons, List.not_mem_nil, or_false] at hp
      exact hp ▸ rfl
    | cons ev rest =>
      simp only [parse, List.mem_append, Option.mem_toList, Option.map_eq_some_iff,
        List.mem_cons, List.not_mem_nil, or_false] at hp
      rcases hp with ⟨e, -, rfl⟩ | rfl <;> rfl
  | incoming ev =>
    cases exec_incoming h <;> simp [XmppLoginTask.incomingStanza, callOut, Stmt.mayPush]
  | advance =>
    obtain ⟨lt, -, hr⟩ := exec_advance h
    rcases (round_frame hr).2 with h | h | h | ⟨d, h⟩ <;> rw [h] <;> simp [Stmt.mayPush]
  | tlsStarted =>
    obtain ⟨lt, -, rfl⟩ := Option.map_eq_some_iff.1 h
    simp [XmppLoginTask.afterStartTls, XmppLoginTask.goto, Stmt.mayPush]
  | advanced | resetLogin =>
    obtain ⟨lt, -, rfl⟩ := Option.map_eq_some_iff.1 h
    exact hnil
  | peek stanza i =>
    obtain rfl := Option.some.inj h
    rw [peek]
    split <;> simp [callOut, Stmt.mayPush]
  | dispatch stanza level i =>
    obtain rfl := Option.some.inj h
    rw [dispatch]
    split
    · simp [callOut, Stmt.mayPush]
    · split <;> simp [Stmt.mayPush]
  | unhandled stanza =>
    obtain rfl := Option.some.inj h
    rcases unhandled_cases w stanza with h | ⟨-, v, -, h⟩ <;> rw [h] <;> simp [Stmt.mayPush]

/-- The kinds of what is pushed, by any statement but the reply to an unhandled iq. -/
theorem mayPush_kind (h : s.mayPush p = true) (hu : ∀ stanza, s ≠ .unhandled stanza) :
    (p.isScope = true → s.isScope = true) ∧ p.scopes = 0 ∧
      (p.isInput = true → s.isInput = true) := by
  cases s with
  | unhandled stanza => exact absurd rfl (hu stanza)
  | _ => cases p <;>
      first
        | exact ⟨fun _ => rfl, rfl, fun hp => hp⟩
        | exact ⟨fun hp => hp, rfl, fun _ => rfl⟩
        | exact absurd h Bool.false_ne_true

theorem mayPush_unreturned (h : s.mayPush p = true) : ∀ m status, p ≠ .returned m status := by
  rintro m status rfl
  cases s <;> exact absurd h Bool.false_ne_true

theorem exec_push (h : w.exec s = some r) : ∀ p ∈ r.2, StmtPush s w p := by
  intro p hp
  have hm := exec_mayPush h p hp
  by_cases hu : ∃ stanza, s = .unhandled stanza
  · obtain ⟨stanza, rfl⟩ := hu
    obtain rfl := Option.some.inj h
    rcases unhandled_cases w stanza with h | ⟨hs, v, -, h⟩ <;> rw [h] at hp
    · cases hp
    · obtain rfl := List.mem_singleton.1 hp
      exact ⟨fun _ => .inr ⟨hs, rfl, stanza, rfl⟩, fun hn => absurd rfl (hn stanza),
        fun hi => absurd hi Bool.false_ne_true, mayPush_unreturned hm⟩
  · obtain ⟨hscope, hz, hinput⟩ := mayPush_kind hm fun stanza hs => hu ⟨stanza, hs⟩
    exact ⟨fun hps => .inl (hscope hps), fun _ => hz, hinput, mayPush_unreturned hm⟩

/-- A handler that returns leaves only input to be treated. -/
theorem resume_input {v : Bool} (hp : p ∈ World.resume s v) : p.isInput = true := by
  unfold World.resume at hp
  split at hp
  · rw [List.mem_singleton.1 hp]
    rfl
  · split at hp
    · cases hp
    · rw [List.mem_singleton.1 hp]
      rfl
  · cases hp

/-! ## The entry of the functions -/

/-- What the entry of `m` leaves alone, what it adds to the history, and what it
pushes. -/
structure EntryFrame (m : Call) (w : World) (r : World × List Stmt) : Prop where
  output_handler : w.eng.state ≠ .start → r.1.eng.output_handler = w.eng.output_handler
  session_handler : w.eng.state ≠ .start → r.1.eng.session_handler = w.eng.session_handler
  tls_option : w.eng.state ≠ .start → r.1.eng.tls_option = w.eng.tls_option
  encrypted : r.1.eng.encrypted = w.eng.encrypted
  raised_reset : r.1.eng.raised_reset = w.eng.raised_reset
  forward : Forward w r.1
  grows : Grows (fun ev => m.mayEmit ev = true) w r.1
  scope : ∀ p ∈ r.2, p.isScope = true → w.eng.state ≠ .closed ∧ p = .exitScope w.eng.state
  input : ∀ p ∈ r.2, p.isInput = true → r.1.eng.state ≠ .start ∧
    ((w.eng.state = .start ∧ m = .connect) ∨
      ((w.eng.state = .opening ∨ w.eng.state = .open) ∧ ∃ evs st, m = .handleInput evs st))
  called : ∀ p ∈ r.2, ∀ cb, p ≠ .callback cb
  returned : ∀ p ∈ r.2, ∀ m' status, p = .returned m' status → m' = m

/-- The part of the frame that is about the engine and the history. -/
structure EntryKeeps (m : Call) (w w' : World) : Prop where
  output_handler : w.eng.state ≠ .start → w'.eng.output_handler = w.eng.output_handler
  session_handler : w.eng.state ≠ .start → w'.eng.session_handler = w.eng.session_handler
  tls_option : w.eng.state ≠ .start → w'.eng.tls_option = w.eng.tls_option
  encrypted : w'.eng.encrypted = w.eng.encrypted
  raised_reset : w'.eng.raised_reset = w.eng.raised_reset
  forward : Forward w w'
  grows : Grows (fun ev => m.mayEmit ev = true) w w'

namespace EntryKeeps

variable {m : Call} {w w' : World}

theorem of_eng (ho : w'.eng.output_handler = w.eng.output_handler)
    (hse : w'.eng.session_handler = w.eng.session_handler)
    (ht : w'.eng.tls_option = w.eng.tls_option) (he : w'.eng.encrypted = w.eng.encrypted)
    (hr : w'.eng.raised_reset = w.eng.raised_reset) (hf : Forward w w')
    (hg : Grows (fun ev => m.mayEmit ev = true) w w') : EntryKeeps m w w' :=
  ⟨fun _ => ho, fun _ => hse, fun _ => ht, he, hr, hf, hg⟩

theorem enterExit (m : Call) (w : World) : EntryKeeps m w w.enterExit :=
  .of_eng rfl rfl rfl rfl rfl (.of_eq rfl rfl) (.of_eq rfl)

theorem send {u v : World} (h : SendFrame u v) (hg : Grows (fun ev => m.mayEmit ev = true) u v) :
    EntryKeeps m u v :=
  .of_eng h.output_handler h.session_handler h.tls_option h.encrypted h.raised_reset
    (.of_eq h.state h.error_code) hg

/-- A call that returns at once. -/
theorem returned (h : EntryKeeps m w w') (status : XmppReturnStatus) :
    EntryFrame m w (w', [.returned m status]) where
  output_handler := h.output_handler
  session_handler := h.session_handler
  tls_option := h.tls_option
  encrypted := h.encrypted
  raised_reset := h.raised_reset
  forward := h.forward
  grows := h.grows
  scope := by simp [Stmt.isScope]
  input := by simp [Stmt.isInput]
  called := by simp
  returned := by simp +contextual

/-- A call that opens a scope, and leaves in it the statements `push`. -/
theorem leaving (h : EntryKeeps m w w') (hs : w.eng.state ≠ .closed) (push : List Stmt)
    (hpush : ∀ p ∈ push, p.isInput = true ∧ ∀ cb, p ≠ .callback cb)
    (hinput : push ≠ [] → w'.eng.state ≠ .start ∧
      ((w.eng.state = .start ∧ m = .connect) ∨
        ((w.eng.state = .opening ∨ w.eng.state = .open) ∧ ∃ evs st, m = .handleInput evs st))) :
    EntryFrame m w (w', push ++ [.exitScope w.eng.state, .returned m .ok]) where
  output_handler := h.output_handler
  session_handler := h.session_handler
  tls_option := h.tls_option
  encrypted := h.encrypted
  raised_reset := h.raised_reset
  forward := h.forward
  grows := h.grows
  scope p hp hps := by
    rcases List.mem_append.1 hp with hp | hp
    · rw [Stmt.isScope_of_isInput (hpush p hp).1] at hps
      cases hps
    · simp only [List.mem_cons, List.not_mem_nil, or_false] at hp
      rcases hp with rfl | rfl
      · exact ⟨hs, rfl⟩
      · cases hps
  input p hp hpi := by
    rcases List.mem_append.1 hp with hp | hp
    · exact hinput (List.ne_nil_of_mem hp)
    · simp only [List.mem_cons, List.not_mem_nil, or_false] at hp
      rcases hp with rfl | rfl <;> cases hpi
  called p hp cb := by
    rcases List.mem_append.1 hp with hp | hp
    · exact (hpush p hp).2 cb
    · simp only [List.mem_cons, List.not_mem_nil, or_false] at hp
      rcases hp with rfl | rfl <;> simp
  returned p hp m' status heq := by
    rcases List.mem_append.1 hp with hp | hp
    · have hi := (hpush p hp).1
      rw [heq] at hi
      cases hi
    · simp only [List.mem_cons, List.not_mem_nil, or_false] at hp
      rcases hp with rfl | rfl
      · cases heq
      · exact (Stmt.returned.inj heq).1.symm

/-- A call that opens a scope and treats no input. -/
theorem exiting (h : EntryKeeps m w w') (hs : w.eng.state ≠ .closed) :
    EntryFrame m w (w', [.exitScope w.eng.state, .returned m .ok]) :=
  h.leaving hs [] (by simp) fun hn => absurd rfl hn

end EntryKeeps

/-- `Connect` opens the engine. -/
theorem connect_keeps (w' : World) (hs : w.eng.state = .start)
    (h : w'.eng.output_handler = w.eng.output_handler ∧
      w'.eng.session_handler = w.eng.session_handler ∧ w'.eng.tls_option = w.eng.tls_option ∧
      w'.eng.encrypted = w.eng.encrypted ∧ w'.eng.raised_reset = w.eng.raised_reset)
    (hst : w'.eng.state = .opening) (he : w'.eng.error_code = w.eng.error_code)
    (hl : w'.log = w.log) : EntryKeeps .connect w w' := by
  obtain ⟨ho, hse, ht, hen, hr⟩ := h
  refine .of_eng ho hse ht hen hr ⟨?_, .inl he⟩ (.of_eq hl)
  rw [hs, hst]
  exact Nat.le_succ 1

/-- `Disconnect` sends the end of the stream of an open engine, and closes it. -/
theorem disconnect_keeps (w : World) : EntryKeeps .disconnect w
    ((if w.eng.state = .open then w.enterExit.write (str "</stream:stream>")
      else w.enterExit).set { (if w.eng.state = .open then
        w.enterExit.write (str "</stream:stream>") else w.enterExit).eng with
          state := .closed }) := by
  by_cases ho : w.eng.state = .open
  · rw [if_pos ho]
    exact .of_eng rfl rfl rfl rfl rfl ⟨rank_le_closed _, .inl rfl⟩ (.write w.enterExit _ rfl)
  · rw [if_neg ho]
    exact .of_eng rfl rfl rfl rfl rfl ⟨rank_le_closed _, .inl rfl⟩ (.of_eq rfl)

/-- Every call keeps to its frame. -/
theorem entry_frame {m : Call} (h : Entry w m r) : EntryFrame m w r := by
  cases h with
  | refused m status hst =>
    have hkeeps : EntryKeeps m w w := .of_eng rfl rfl rfl rfl rfl (.refl w) (.refl w)
    exact hkeeps.returned status
  | configured m eng hm hs hu hh =>
    have hkeeps : EntryKeeps m w (w.set eng) :=
      ⟨fun hn => absurd hs hn, fun hn => absurd hs hn, fun hn => absurd hs hn, hu.encrypted,
        hu.raised_reset, .of_eq hu.state hu.error_code, .of_eq rfl⟩
    exact hkeeps.returned .ok
  | stored m eng status hm hu ho hse ht hh =>
    have hkeeps : EntryKeeps m w (w.set eng) :=
      .of_eng ho hse ht hu.encrypted hu.raised_reset (.of_eq hu.state hu.error_code) (.of_eq rfl)
    exact hkeeps.returned status
  | connect lt hs hl =>
    have hkeeps := connect_keeps ((w.enterExit.set { w.enterExit.eng with
      state := .opening }).setLogin { lt with pelStanza := none, isStart := false }) hs
      ⟨rfl, rfl, rfl, rfl, rfl⟩ rfl rfl rfl
    have hframe := hkeeps.leaving (by rw [hs]; decide) [.advance, .advanced, .resetLogin]
      (by simp [Stmt.isInput]) fun _ => ⟨by simp [setLogin], .inl ⟨hs, rfl⟩⟩
    rw [hs] at hframe
    exact hframe
  | connectDone hs hl =>
    have hkeeps := connect_keeps (w.enterExit.set { w.enterExit.eng with
      state := .opening }) hs ⟨rfl, rfl, rfl, rfl, rfl⟩ rfl rfl rfl
    have hframe := hkeeps.exiting (by rw [hs]; decide)
    rw [hs] at hframe
    exact hframe
  | handleInput events status hs =>
    have hkeeps : EntryKeeps (.handleInput events status) w (w.enterExit.set
        { w.enterExit.eng with
          stanza_parser_ := { w.eng.stanza_parser_ with expatUsed := true } }) :=
      .of_eng rfl rfl rfl rfl rfl (.of_eq rfl rfl) (.of_eq rfl)
    refine hkeeps.leaving ?_ [.parse events status] (by simp [Stmt.isInput])
      fun _ => ⟨fun h => ?_, .inr ⟨hs, _, _, rfl⟩⟩
    · rcases hs with hs | hs <;> simp [hs]
    · rcases hs with hs | hs <;> exact absurd (hs.symm.trans h) (by simp)
  | inputStopped events status hs he =>
    refine (EntryKeeps.enterExit _ w).exiting ?_
    rcases hs with hs | hs <;> simp [hs]
  | connectionClosed subcode code sub hc hs =>
    have hf := LoginFrame.signalError w.enterExit code sub
    have hforward : Forward w w.enterExit := .of_eq rfl rfl
    have hkeeps : EntryKeeps (.connectionClosed subcode) w (w.enterExit.signalError code sub) :=
      .of_eng hf.output_handler hf.session_handler hf.tls_option hf.encrypted
        (signalError_raised _ _ _) (hforward.trans hf.forward)
        (.of_eq (signalError_log _ _ _))
    exact hkeeps.exiting hs
  | sent m e v hs hm hv =>
    have hf := hv.frame.1
    have hg : Grows (fun ev => m.mayEmit ev = true) w v := hf.grows.mono fun ev hev => by
      rcases hm with rfl | ⟨o, c, t, rfl, -⟩ <;> cases ev <;> first | rfl | cases hev
    exact (EntryKeeps.send hf hg).exiting hs
  | sentIq e h v hs hb hv =>
    have hf := hv.frame.1
    -- the entry is an event of its own
    have hentry : Grows (fun ev => (Call.sendIq (some e) (some h)).mayEmit ev = true) w
        (registerIq w (iqEntry w e h)) := ⟨[_], rfl, by simp [Call.mayEmit]⟩
    have hg := hf.grows.mono (q := fun ev => (Call.sendIq (some e) (some h)).mayEmit ev = true)
      fun ev hev => by cases ev <;> first | rfl | cases hev
    have hkeeps : EntryKeeps (.sendIq (some e) (some h)) w v :=
      .of_eng hf.output_handler hf.session_handler hf.tls_option hf.encrypted hf.raised_reset
        (.of_eq hf.state hf.error_code) (hentry.trans hg)
    exact hkeeps.exiting hs
  | sendRaw text hs hl =>
    have hkeeps : EntryKeeps (.sendRaw text) w (w.enterExit.write text) :=
      .of_eng rfl rfl rfl rfl rfl (.of_eq rfl rfl) (.write w.enterExit text rfl)
    exact hkeeps.exiting hs
  | removed cookie entry hf =>
    have hkeeps : EntryKeeps (.removeIqHandler cookie) w ((w.set { w.eng with
        iq_entries := w.eng.iq_entries.eraseP fun x => x.cookie = cookie }).emit
          (.iqFreed entry)) :=
      .of_eng rfl rfl rfl rfl rfl (.of_eq rfl rfl) ⟨[_], rfl, by simp [Call.mayEmit]⟩
    exact hkeeps.returned .ok
  | disconnect hs => exact (disconnect_keeps w).exiting hs

/-- The SASL handler is set by its setter only. -/
theorem entry_sasl_handler {m : Call} (h : Entry w m r) (hm : ∀ h, m ≠ .setSaslHandler h) :
    r.1.eng.sasl_handler = w.eng.sasl_handler := by
  cases h with
  | configured m eng hmm hs hu hh hsa => exact hsa hm
  | stored m eng status hmm hu ho hse ht hh hsa => exact hsa
  | connectionClosed subcode code sub hc hs =>
    exact (LoginFrame.signalError w.enterExit code sub).sasl_handler
  | sent m e v hs hmm hv | sentIq e h v hs hb hv => exact hv.frame.1.sasl_handler
  | disconnect hs =>
    dsimp only [set_eng]
    split <;> rfl
  | _ => rfl

end Gxmpp
