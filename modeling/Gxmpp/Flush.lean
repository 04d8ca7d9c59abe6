/-
What the engine writes to its output, and what the output handler gets.

`~EnterExit` copies the buffer, calls `WriteOutput` with the copy and clears the
buffer when the call returns. An application that opens another scope from inside
that call has the same bytes written again, because the inner scope is the outermost
one by then: `engine_entered` went down before the call. `UnnestedOutput` excludes
exactly these calls. In a run that keeps to it the bytes are delivered once and in
order, and the session handler is told of the closed state once
(`flushed_once`).

The invariant follows the stack. `FlushShape` says that at most one scope is being
left, and what lies above it. `Accounts` says, for each such shape, how the bytes
delivered, the bytes in the buffer and the bytes appended relate.
-/
import Gxmpp.EngineShape

set_option autoImplicit false

namespace Gxmpp

open World Reentrant

/-! ## The accounts of a history -/

/-- The bytes the output handler got. -/
def delivered (log : List Event) : Str :=
  log.flatMap fun
    | .callback (.writeOutput bytes) => bytes
    | _ => []

/-- The bytes appended to the output buffer of an engine that is not closed. -/
def appended (log : List Event) : Str :=
  log.flatMap fun
    | .wrote s bytes => if s = .closed then [] else bytes
    | _ => []

/-- A notification of the closed state. -/
def Event.isClosedNotice : Event → Bool
  | .callback (.onStateChange .closed) => true
  | _ => false

/-- How often the session handler was told of the closed state. -/
def notices (log : List Event) : Nat := log.countP Event.isClosedNotice

theorem delivered_append (l m : List Event) : delivered (l ++ m) = delivered l ++ delivered m :=
  List.flatMap_append

theorem appended_append (l m : List Event) : appended (l ++ m) = appended l ++ appended m :=
  List.flatMap_append

theorem notices_append (l m : List Event) : notices (l ++ m) = notices l + notices m :=
  List.countP_append

/-- Events that none of the accounts counts. -/
def Event.isQuiet : Event → Bool
  | .callback (.writeOutput _) | .wrote _ _ | .callback (.onStateChange _)
  | .callback .closeConnection => false
  | _ => true

theorem isClose_of_isQuiet {ev : Event} (h : ev.isQuiet = true) : ev.isClose = false := by
  cases ev with
  | callback cb => cases cb <;> first | rfl | exact absurd h Bool.false_ne_true
  | _ => rfl

/-- Quiet events leave the accounts alone. -/
theorem quiet_accounts {l : List Event} (h : ∀ ev ∈ l, ev.isQuiet = true) :
    delivered l = [] ∧ appended l = [] ∧ notices l = 0 := by
  refine ⟨?_, ?_, ?_⟩
  · refine List.flatMap_eq_nil_iff.2 fun ev hev => ?_
    have := h ev hev
    cases ev with
    | callback cb => cases cb <;> first | rfl | cases this
    | _ => rfl
  · refine List.flatMap_eq_nil_iff.2 fun ev hev => ?_
    have := h ev hev
    cases ev <;> first | rfl | cases this
  · refine List.countP_eq_zero.2 fun ev hev => ?_
    have := h ev hev
    cases ev with
    | callback cb => cases cb <;> simp_all [Event.isClosedNotice, Event.isQuiet]
    | _ => simp [Event.isClosedNotice]

/-! ## Steps that only append -/

/-- The handler gets nothing and is told nothing; what is appended goes to the buffer,
and counts unless the engine is closed. -/
structure Flow (w w' : World) : Prop where
  delivered : delivered w'.log = delivered w.log
  notices : notices w'.log = notices w.log
  frozen : w.eng.state = .closed → appended w'.log = appended w.log
  flows : w.eng.state ≠ .closed →
    ∃ bytes, w'.eng.output = w.eng.output ++ bytes ∧ appended w'.log = appended w.log ++ bytes

namespace Flow

theorem of_quiet {w w' : World} (ho : w'.eng.output = w.eng.output)
    (hg : Grows (fun ev => ev.isQuiet = true) w w') : Flow w w' := by
  obtain ⟨evs, hl, hq⟩ := hg
  obtain ⟨hd, ha, hn⟩ := quiet_accounts hq
  have ha' : Gxmpp.appended w'.log = Gxmpp.appended w.log := by
    rw [hl, appended_append, ha, List.append_nil]
  refine ⟨?_, ?_, fun _ => ha', fun _ => ⟨[], by simp [ho], by simp [ha']⟩⟩
  · rw [hl, delivered_append, hd, List.append_nil]
  · rw [hl, notices_append, hn, Nat.add_zero]

theorem of_eq {w w' : World} (ho : w'.eng.output = w.eng.output) (hl : w'.log = w.log) :
    Flow w w' :=
  of_quiet ho (.of_eq hl)

theorem emit (w : World) {ev : Event} (h : ev.isQuiet = true) : Flow w (w.emit ev) :=
  of_quiet rfl (.emit w h)

theorem write (w : World) (bytes : Str) : Flow w (w.write bytes) := by
  refine ⟨?_, ?_, fun hc => ?_, fun hc => ⟨bytes, rfl, ?_⟩⟩
  · exact (delivered_append w.log _).trans (List.append_nil _)
  · exact notices_append w.log _
  · refine (appended_append w.log _).trans ?_
    simp [Gxmpp.appended, hc]
  · refine (appended_append w.log _).trans ?_
    simp [Gxmpp.appended, hc]

/-- Flows compose, as long as the engine is not closed in between. -/
theorem trans {a b c : World} (h : Flow a b) (k : Flow b c)
    (hb : b.eng.state = .closed ↔ a.eng.state = .closed) : Flow a c := by
  refine ⟨k.delivered.trans h.delivered, k.notices.trans h.notices, fun hc => ?_, fun hc => ?_⟩
  · exact (k.frozen (hb.2 hc)).trans (h.frozen hc)
  · obtain ⟨b₁, ho₁, ha₁⟩ := h.flows hc
    obtain ⟨b₂, ho₂, ha₂⟩ := k.flows fun hn => hc (hb.1 hn)
    exact ⟨b₁ ++ b₂, by rw [ho₂, ho₁, List.append_assoc], by rw [ha₂, ha₁, List.append_assoc]⟩

theorem internalSendStanza (w : World) (e : XmlElement) : Flow w (w.internalSendStanza e) := by
  refine trans ?_ (write _ _) Iff.rfl
  exact of_eq rfl rfl

theorem send (w : World) (lt : XmppLoginTask) (e : XmlElement) :
    Flow w (XmppLoginTask.send w lt e) :=
  trans (emit w rfl) (internalSendStanza _ e) Iff.rfl

theorem signalError (w : World) (code : EngineError) (sub : Int) :
    Flow w (w.signalError code sub) := by
  rw [World.signalError]
  split <;> exact of_eq rfl rfl

theorem failure {w v : World} (h : Flow w v) (hs : v.eng.state = w.eng.state)
    (lt : XmppLoginTask) (reason : EngineError) :
    Flow w (XmppLoginTask.failure v lt reason).1 := by
  have hset : Flow v (v.setLogin { lt with state := .done }) := of_eq rfl rfl
  refine trans h (trans hset (signalError _ _ _) Iff.rfl) ?_
  rw [hs]

theorem signalBound (w : World) (jid : Jid) : Flow w (w.signalBound jid) := by
  rw [World.signalBound]
  dsimp only
  split
  · exact of_quiet rfl ⟨[_], rfl, by simp [Event.isQuiet]⟩
  · exact emit w rfl

theorem flush (w : World) (lt : XmppLoginTask) :
    Flow w (XmppLoginTask.flushQueuedStanzas w lt).1 := by
  have h : ∀ (l : List XmlElement) (w : World),
      Flow w (l.foldl (fun w e => (w.emit (.printed e)).internalSendStanza e) w) := by
    intro l
    induction l with
    | nil => exact fun w => of_eq rfl rfl
    | cons e l ih =>
      intro w
      exact trans (trans (emit w rfl) (internalSendStanza _ e) Iff.rfl) (ih _) Iff.rfl
  exact h _ w

end Flow

variable {r : World × List Stmt} {w : World} {s : Stmt} {m : Call} {rest l control : List Stmt}
  {saved : EngineState} {e : XmppEngineImpl} {c : Conf}

/-- Every round of the login task only appends. -/
theorem round_flow {lt : XmppLoginTask} (h : Round w lt r) : Flow w r.1 := by
  have hn : ∀ e, Flow w (XmppLoginTask.nextStanza w lt e).1 := fun e => Flow.emit w rfl
  have hset : ∀ {v : World} (lt' : XmppLoginTask), Flow w v → v.eng.state = w.eng.state →
      Flow w (v.setLogin lt') :=
    fun lt' hv hs => Flow.trans hv (.of_eq rfl rfl) (by rw [hs])
  have hgoto : ∀ {v lt' s}, Flow w v → v.eng.state = w.eng.state →
      Flow w (XmppLoginTask.goto v lt' s).1 := fun hv hs => hset _ hv hs
  have hsend : ∀ {v : World} {lt' e}, Flow w v → v.eng.state = w.eng.state →
      Flow w (XmppLoginTask.send v lt' e) :=
    fun hv hs => Flow.trans hv (.send _ _ _) (by rw [hs])
  cases h with
  | idle hs => exact .of_eq rfl rfl
  | restart hs =>
    have hraise : Flow w w.raiseReset := .of_eq rfl rfl
    exact hgoto (Flow.trans hraise (.write _ _) Iff.rfl) rfl
  | lacking reason hs => exact Flow.failure (.of_eq rfl rfl) rfl _ _
  | refused e lt' reason => exact Flow.failure (hn e) rfl _ _
  | streamStarted e | proceedUnhandled e | ignored e => exact hset _ (hn e) rfl
  | featuresTls e | featuresAuth e | featuresBind e | authenticated e => exact hgoto (hn e) rfl
  | tlsAsked hs => exact hgoto (Flow.send w lt _) rfl
  | proceed e domain hs => exact Flow.trans (hset _ (hn e) rfl) (Flow.emit _ rfl) Iff.rfl
  | unchosen sh mechanisms hs => exact Flow.failure (Flow.emit w rfl) rfl _ _
  | unstarted sh mechanisms choice mech hs =>
    exact Flow.failure (Flow.trans (Flow.emit w rfl) (Flow.emit _ rfl) Iff.rfl) rfl _ _
  | authSent sh mechanisms choice mech auth hs =>
    exact hgoto (hsend (Flow.trans (Flow.emit w rfl) (Flow.emit _ rfl) Iff.rfl) rfl) rfl
  | challenged e response hs => exact hgoto (hsend (hn e) rfl) rfl
  | bindAsked hs =>
    have hid : Flow w w.nextId.1 := .of_eq rfl rfl
    exact hgoto (hsend hid rfl) rfl
  | bound e bind hs =>
    have hid : Flow w (XmppLoginTask.nextStanza w lt e).1.nextId.1 :=
      Flow.trans (hn e) (.of_eq rfl rfl) Iff.rfl
    exact hgoto (hsend hid rfl) rfl
  | sessionStarted e hs =>
    have hs' := signalBound_closed (XmppLoginTask.nextStanza w lt e).1 lt.fullJid
    have hbound := Flow.trans (hn e) (Flow.signalBound _ lt.fullJid) Iff.rfl
    have hflush := Flow.trans hbound (Flow.flush _ (XmppLoginTask.nextStanza w lt e).2) hs'
    refine Flow.trans hflush (.of_eq rfl rfl) ?_
    rw [flush_state]
    exact hs'

theorem incoming_flow {ev : StanzaEvent} (h : Incoming w ev r) : Flow w r.1 := by
  have hp : Flow w (w.emit (.parsed ev)) := .emit w rfl
  cases h with
  | blocked hb => exact .of_eq rfl rfl
  | login lt e isStart hb hl => exact Flow.trans hp (.of_eq rfl rfl) Iff.rfl
  | streamError stanza hb =>
    refine Flow.trans hp ?_ Iff.rfl
    dsimp only
    rw [signalStreamError]
    split
    · refine Flow.trans ?_ (Flow.signalError _ _ _) Iff.rfl
      exact .of_eq rfl rfl
    · exact .of_eq rfl rfl
  | error code hc hb => exact Flow.trans hp (.signalError _ _ _) Iff.rfl
  | response stanza entry hb hl hev hn ht hi hf =>
    refine Flow.trans hp (Flow.trans ?_ (Flow.emit _ rfl) Iff.rfl) Iff.rfl
    exact .of_eq rfl rfl
  | dispatch stanza hb hl hev => exact hp

theorem sent_flow {v : World} {e : XmlElement} (h : Sent w e v) : Flow w v := by
  have hopen : Flow w (w.emit (.accepted e)).enterExit :=
    Flow.trans (Flow.emit w rfl) (.of_eq rfl rfl) Iff.rfl
  cases h with
  | queued lt hl => exact Flow.trans hopen (.of_eq rfl rfl) Iff.rfl
  | through hl =>
    exact Flow.trans hopen (Flow.trans (Flow.emit _ rfl) (.internalSendStanza _ e) Iff.rfl)
      Iff.rfl

/-- A statement that treats input only appends. -/
theorem exec_flow (hs : s.isInput = true) (h : w.exec s = some r) : Flow w r.1 := by
  cases s with
  | parse events status =>
    obtain rfl := Option.some.inj h
    cases events <;> exact .of_eq rfl rfl
  | incoming ev => exact incoming_flow (exec_incoming h)
  | advance =>
    obtain ⟨lt, -, hr⟩ := exec_advance h
    exact round_flow hr
  | startedTls =>
    obtain rfl := Option.some.inj h
    exact .of_eq rfl rfl
  | tlsStarted | advanced =>
    obtain ⟨lt, -, rfl⟩ := Option.map_eq_some_iff.1 h
    exact .of_eq rfl rfl
  | resetLogin =>
    obtain ⟨lt, -, rfl⟩ := Option.map_eq_some_iff.1 h
    dsimp only
    split <;> exact .of_eq rfl rfl
  | peek stanza i =>
    obtain rfl := Option.some.inj h
    rw [peek]
    split
    · exact Flow.emit w rfl
    · exact .of_eq rfl rfl
  | dispatch stanza level i =>
    obtain rfl := Option.some.inj h
    rw [dispatch]
    split
    · exact Flow.emit w rfl
    · split <;> exact .of_eq rfl rfl
  | unhandled stanza =>
    obtain rfl := Option.some.inj h
    rcases unhandled_cases w stanza with h | ⟨-, v, hv, h⟩ <;> rw [h]
    · exact .of_eq rfl rfl
    · exact sent_flow hv
  | deleteEntry entry =>
    obtain rfl := Option.some.inj h
    exact Flow.emit w rfl
  | _ => cases hs

/-- In a closed engine only the login task appends. -/
theorem exec_output_closed (hs : s.isInput = true) (hl : s.isLogin = false)
    (hc : w.eng.state = .closed) (h : w.exec s = some r) : r.1.eng.output = w.eng.output := by
  have hsig : ∀ (v : World) code sub, (v.signalError code sub).eng.output = v.eng.output := by
    intro v code sub
    rw [signalError]
    split <;> rfl
  cases s with
  | parse events status =>
    obtain rfl := Option.some.inj h
    cases events <;> rfl
  | incoming ev =>
    cases exec_incoming h with
    | streamError stanza hb =>
      dsimp only
      rw [signalStreamError]
      split
      · exact hsig _ _ _
      · rfl
    | error code hcode hb => exact hsig _ _ _
    | _ => rfl
  | startedTls | deleteEntry =>
    obtain rfl := Option.some.inj h
    rfl
  | advanced =>
    obtain ⟨lt, -, rfl⟩ := Option.map_eq_some_iff.1 h
    rfl
  | resetLogin =>
    obtain ⟨lt, -, rfl⟩ := Option.map_eq_some_iff.1 h
    dsimp only
    split <;> rfl
  | peek stanza i =>
    obtain rfl := Option.some.inj h
    rw [peek]
    split <;> rfl
  | dispatch stanza level i =>
    obtain rfl := Option.some.inj h
    rw [dispatch]
    split
    · rfl
    · split <;> rfl
  | unhandled stanza =>
    obtain rfl := Option.some.inj h
    rcases unhandled_cases w stanza with h | ⟨hn, -⟩
    · rw [h]
    · exact absurd hc hn
  | advance | tlsStarted => cases hl
  | _ => cases hs

/-- The entry of a function only appends. -/
theorem entry_flow (h : Entry w m r) : Flow w r.1 := by
  have hopen : Flow w w.enterExit := .of_eq rfl rfl
  cases h with
  | refused | connect | connectDone | handleInput | inputStopped => exact .of_eq rfl rfl
  | configured m eng hm hs hu | stored m eng status hm hu => exact .of_eq hu.output rfl
  | connectionClosed subcode code sub hc hs => exact Flow.trans hopen (.signalError _ _ _) Iff.rfl
  | sent m e v hs hm hv => exact sent_flow hv
  | sentIq e h v hs hb hv =>
    have hreg : Flow w (registerIq w (iqEntry w e h)) :=
      .of_quiet rfl ⟨[_], rfl, by simp [Event.isQuiet]⟩
    exact Flow.trans hreg (sent_flow hv) Iff.rfl
  | sendRaw text hs hl => exact Flow.trans hopen (.write _ _) Iff.rfl
  | removed cookie entry hf => exact .of_quiet rfl ⟨[_], rfl, by simp [Event.isQuiet]⟩
  | disconnect hs =>
    dsimp only
    split
    · have hw := Flow.trans hopen (Flow.write w.enterExit (str "</stream:stream>")) Iff.rfl
      exact Flow.trans hw (.of_eq rfl rfl) Iff.rfl
    · exact .of_eq rfl rfl

/-! ## The rule -/

/-- `WriteOutput` is running. -/
def Stmt.isWriting : Stmt → Bool
  | .callback (.writeOutput _) => true
  | _ => false

/-- The call opens an `EnterExit` scope: it is one of those that do, and is not
refused. -/
def Call.opensScope (e : XmppEngineImpl) : Call → Bool
  | .connect => e.state = .start
  | .handleInput _ _ => e.state = .opening || e.state = .open
  | .connectionClosed _ | .sendStanza _ | .sendStanzaError _ _ _ | .disconnect =>
    e.state ≠ .closed
  | .sendRaw _ => e.state ≠ .closed && e.login_task.isNone
  | .sendIq element iq_handler => e.state ≠ .closed && !World.badIq element iq_handler
  | _ => false

/-- The rule: no scope is opened from inside `WriteOutput`. -/
def UnnestedOutput (c : Conf) (m : Call) : Prop :=
  (c.control.any Stmt.isWriting) = true → m.opensScope c.state.eng = false

instance (c : Conf) (m : Call) : Decidable (UnnestedOutput c m) :=
  inferInstanceAs (Decidable (_ → _))

/-- What the entry of a function that opens a scope does. -/
structure EntryScoped (w : World) (m : Call) (r : World × List Stmt) : Prop where
  opens : m.opensScope w.eng = true
  state : w.eng.state ≠ .closed
  scope : .exitScope w.eng.state ∈ r.2
  output_handler : r.1.eng.output_handler = w.eng.output_handler
  session_handler : r.1.eng.session_handler = w.eng.session_handler
  closing : r.1.eng.state = .closed → ∃ rest, r.2 = .exitScope w.eng.state :: rest

/-- What the entry of a function that opens no scope does. -/
structure EntryUnscoped (w : World) (m : Call) (r : World × List Stmt) : Prop where
  push : ∃ status, r.2 = [.returned m status]
  output : r.1.eng.output = w.eng.output
  state : r.1.eng.state = w.eng.state
  quiet : Grows (fun ev => ev.isQuiet = true) w r.1

/-- A call opens a scope, or leaves the engine's output alone and returns at once. -/
theorem entry_split (h : Entry w m r) : EntryScoped w m r ∨ EntryUnscoped w m r := by
  cases h with
  | refused m status hst => exact .inr ⟨⟨_, rfl⟩, rfl, rfl, .refl w⟩
  | configured m eng hm hs hu hh => exact .inr ⟨⟨_, rfl⟩, hu.output, hu.state, .of_eq rfl⟩
  | stored m eng status hm hu ho hse ht hh =>
    exact .inr ⟨⟨_, rfl⟩, hu.output, hu.state, .of_eq rfl⟩
  | removed cookie entry hf =>
    exact .inr ⟨⟨_, rfl⟩, rfl, rfl, ⟨[_], rfl, by simp [Event.isQuiet]⟩⟩
  | connect lt hs | connectDone hs =>
    exact .inl ⟨by simp [Call.opensScope, hs], by simp [hs], by simp [hs], rfl, rfl,
      fun hc => by cases hc⟩
  | handleInput events status hs | inputStopped events status hs =>
    have hne : w.eng.state ≠ .closed := by rcases hs with hs | hs <;> simp [hs]
    exact .inl ⟨by simpa [Call.opensScope] using hs, hne, by simp, rfl, rfl,
      fun hc => absurd hc hne⟩
  | connectionClosed subcode code sub hc hs =>
    have hf := LoginFrame.signalError w.enterExit code sub
    exact .inl ⟨by simpa [Call.opensScope] using hs, hs, by simp, hf.output_handler,
      hf.session_handler, fun _ => ⟨_, rfl⟩⟩
  | sent m e v hs hm hv =>
    have ho : m.opensScope w.eng = true := by
      rcases hm with rfl | ⟨o, c, t, rfl, -⟩ <;> simpa [Call.opensScope] using hs
    exact .inl ⟨ho, hs, by simp, hv.frame.1.output_handler, hv.frame.1.session_handler,
      fun _ => ⟨_, rfl⟩⟩
  | sentIq e h v hs hb hv =>
    exact .inl ⟨by simp [Call.opensScope, hs, hb], hs, by simp, hv.frame.1.output_handler,
      hv.frame.1.session_handler, fun _ => ⟨_, rfl⟩⟩
  | sendRaw text hs hl =>
    exact .inl ⟨by simp [Call.opensScope, hs, hl], hs, by simp, rfl, rfl, fun _ => ⟨_, rfl⟩⟩
  | disconnect hs =>
    refine .inl ⟨by simpa [Call.opensScope] using hs, hs, by simp, ?_, ?_, fun _ => ⟨_, rfl⟩⟩
    · dsimp only [set_eng]
      split <;> rfl
    · dsimp only [set_eng]
      split <;> rfl

/-! ## The shape of the stack -/

/-- The statements of a scope that no longer counts: `engine_entered` has gone down. -/
def Stmt.isLeft : Stmt → Bool
  | .afterWrite _ _ | .afterClose _ | .leaveScope _ => true
  | _ => false

/-- The statements between the two callbacks of the flush. -/
def Stmt.midFlush : Stmt → Bool
  | .afterWrite _ _ | .afterClose _ => true
  | _ => false

/-- No scope is being left. -/
def NoneLeft (l : List Stmt) : Prop := ∀ s ∈ l, s.isLeft = false

/-- At most one scope is being left; above it there is the callback it made, and above
that a call that is refused. -/
inductive FlushShape : List Stmt → Prop where
  | plain {l : List Stmt} (h : NoneLeft l) : FlushShape l
  | left {s : Stmt} {rest : List Stmt} (hs : s.isLeft = true) (h : NoneLeft rest) :
      FlushShape (s :: rest)
  | writing {bytes : Str} {saved : EngineState} {closing : Bool} {rest : List Stmt}
      (h : NoneLeft rest) :
      FlushShape (.callback (.writeOutput bytes) :: .afterWrite saved closing :: rest)
  | closing {saved : EngineState} {rest : List Stmt} (h : NoneLeft rest) :
      FlushShape (.callback .closeConnection :: .afterClose saved :: rest)
  | refused {m : Call} {status : XmppReturnStatus} {cb : Callback} {l : List Stmt}
      (h : FlushShape (.callback cb :: l)) :
      FlushShape (.returned m status :: .callback cb :: l)

/-- Going down the stack of an engine that an error closed, or that is about to flush,
nothing is appended before the next scope statement. -/
def Sealed (e : XmppEngineImpl) : List Stmt → Prop
  | [] => False
  | s :: rest => s.isScope = true ∨
      ((s.inScope = true → s.isLogin = false ∧ e.error_code ≠ .none) ∧ Sealed e rest)

/-- How the bytes and the notifications stand. -/
structure Accounts (w : World) (control : List Stmt) : Prop where
  shape : FlushShape control
  /-- during a flush the buffer has been handed over and is not cleared yet -/
  flushed : w.eng.output_handler = true → (∃ s ∈ control, s.midFlush = true) →
    delivered w.log = appended w.log
  /-- otherwise the buffer holds what has not been handed over -/
  held : w.eng.output_handler = true → (∀ s ∈ control, s.midFlush = false) →
    delivered w.log ++ w.eng.output = appended w.log
  /-- a handler that was let go got everything -/
  released : w.eng.output_handler = false → ClosedOut w.log → delivered w.log = appended w.log
  /-- a handler that was never set got nothing -/
  unset : w.eng.output_handler = false → ¬ ClosedOut w.log → delivered w.log = []
  /-- the closed state is notified by the last scope that is left -/
  noticed : notices w.log = 0 ∨ (notices w.log = 1 ∧ w.eng.state = .closed ∧
    ∀ s ∈ control, s.isScope = false)
  /-- and as long as it is not, a scope is pending that will -/
  owed : w.eng.state = .closed → w.eng.session_handler = true → notices w.log = 0 →
    ∃ s ∈ control, s.isScope = true
  /-- nothing is appended between the closing of the engine and the flush that follows -/
  safe : w.eng.state = .closed → w.eng.output_handler = true → Sealed w.eng control
  /-- at rest the buffer is empty -/
  rest : w.eng.output_handler = true → (∀ s ∈ control, s.isScope = false) → w.eng.output = []
  /-- what the statements of a scope that is being left know -/
  write : ∀ saved closing, .afterWrite saved closing ∈ control →
    w.eng.output_handler = true ∧ (closing = true ↔ w.eng.state = .closed) ∧
      (closing = false → total Stmt.scopes control = 0)
  close : ∀ saved, .afterClose saved ∈ control →
    w.eng.output_handler = true ∧ w.eng.state = .closed ∧ ClosedOut w.log
  leave : ∀ saved, .leaveScope saved ∈ control → w.eng.output_handler = true →
    w.eng.state ≠ .closed ∧ (total Stmt.scopes control = 0 → w.eng.output = [])

theorem isLeft_of_midFlush (h : s.midFlush = true) : s.isLeft = true := by
  cases s <;> first | rfl | cases h

theorem isScope_of_isLeft (h : s.isLeft = true) : s.isScope = true := by
  cases s <;> first | rfl | cases h

theorem FlushShape.noneLeft_exit (h : FlushShape (.exitScope saved :: rest)) : NoneLeft rest := by
  cases h with
  | plain h => exact fun s hs => h s (List.mem_cons_of_mem _ hs)
  | left hs h => cases hs

theorem FlushShape.noneLeft_left (hs : s.isLeft = true) (h : FlushShape (s :: rest)) :
    NoneLeft rest := by
  cases h with
  | plain h => exact absurd (h s List.mem_cons_self) (by simp [hs])
  | left _ h => exact h
  | writing | closing | refused => cases hs

theorem FlushShape.noneLeft_input (hs : s.isInput = true) (h : FlushShape (s :: rest)) :
    NoneLeft (s :: rest) := by
  cases h with
  | plain h => exact h
  | left hl h =>
    have := isScope_of_isLeft hl
    rw [Stmt.isScope_of_isInput hs] at this
    cases this
  | writing | closing | refused => cases hs

/-! ## Leaving a scope -/

theorem noneLeft_mid (h : NoneLeft l) : ∀ s ∈ l, s.midFlush = false := by
  intro s hs
  by_contra hm
  have := h s hs
  rw [isLeft_of_midFlush (by simpa using hm)] at this
  cases this

/-- Where no scope is being left and none is open, no scope statement is pending. -/
theorem noScope_of_total (h : NoneLeft l) (hz : total Stmt.scopes l = 0) :
    ∀ s ∈ l, s.isScope = false := by
  intro s hs
  have hl := h s hs
  have ht := total_le_of_mem (w := Stmt.scopes) hs
  cases s with
  | exitScope saved =>
    rw [hz] at ht
    cases ht
  | _ => first | rfl | cases hl

theorem exists_scope_of_total (hz : total Stmt.scopes l ≠ 0) : ∃ s ∈ l, s.isScope = true := by
  by_contra hn
  refine hz (total_eq_zero fun s hs => ?_)
  cases s with
  | exitScope saved => exact absurd ⟨_, hs, rfl⟩ hn
  | _ => rfl

/-- Where no scope is being left, a statement of a scope that is being left is one that was
just pushed. -/
theorem mem_push_of_left {push : List Stmt} (h : NoneLeft rest) (hs : s ∈ push ++ rest)
    (hl : s.isLeft = true) : s ∈ push := by
  rcases List.mem_append.1 hs with hs | hs
  · exact hs
  · rw [h s hs] at hl
    cases hl

theorem cons_mid {p : Stmt} (hp : p.midFlush = false) (h : NoneLeft rest) :
    ∀ s ∈ p :: rest, s.midFlush = false := by
  intro s hs
  rcases List.mem_cons.1 hs with rfl | hs
  · exact hp
  · exact noneLeft_mid h s hs

/-- While a scope is pending the closed state has not been notified. -/
theorem Accounts.notices_eq_zero (h : Accounts w control) (hs : s ∈ control)
    (hscope : s.isScope = true) : notices w.log = 0 := by
  rcases h.noticed with hz | ⟨-, -, hn⟩
  · exact hz
  · rw [hn s hs] at hscope
    cases hscope

/-- A scope that found the engine open closes it if it is closed now. -/
theorem closing_iff_closed (hsaved : saved ≠ .closed) :
    closing w saved = true ↔ w.eng.state = .closed := by
  rw [closing_iff]
  exact ⟨And.right, fun hc => ⟨fun he => hsaved (he ▸ hc), hc⟩⟩

/-- The depth counter counts the scopes below this one. -/
theorem exit_total
    (hentered : total Stmt.scopes (.exitScope saved :: rest) = w.eng.engine_entered) :
    total Stmt.scopes rest = w.eng.engine_entered - 1 := by
  rw [total_cons] at hentered
  simp only [Stmt.scopes] at hentered
  omega

section Exit

variable (h : Accounts w (.exitScope saved :: rest))
  (hentered : total Stmt.scopes (.exitScope saved :: rest) = w.eng.engine_entered)
  (hsaved : saved ≠ .closed)

include h hentered hsaved

/-- The bytes are copied and handed over. -/
theorem exit_write (ho : w.eng.output_handler = true)
    (hf : closing w saved = true ∨ w.eng.engine_entered - 1 = 0) :
    Accounts ((leftScope w).emit (.callback (.writeOutput w.eng.output)))
      ([.callback (.writeOutput w.eng.output), .afterWrite saved (closing w saved)] ++ rest) := by
  have hnone := h.shape.noneLeft_exit
  have hd : delivered (w.log ++ [.callback (.writeOutput w.eng.output)]) = appended w.log := by
    rw [delivered_append, ← h.held ho (cons_mid rfl hnone)]
    simp [delivered]
  have ha : appended (w.log ++ [.callback (.writeOutput w.eng.output)]) = appended w.log := by
    rw [appended_append]
    simp [appended]
  have hn : notices (w.log ++ [.callback (.writeOutput w.eng.output)]) = 0 := by
    rw [notices_append, h.notices_eq_zero List.mem_cons_self rfl]
    rfl
  refine ⟨.writing hnone, fun _ _ => hd.trans ha.symm, ?_, ?_, ?_, .inl hn, ?_, ?_, ?_, ?_, ?_,
    ?_⟩
  · exact fun _ hm => absurd (hm (.afterWrite saved (closing w saved)) (by simp))
      (by simp [Stmt.midFlush])
  · exact fun hno => absurd (ho.symm.trans hno) (by simp)
  · exact fun hno => absurd (ho.symm.trans hno) (by simp)
  · exact fun _ _ _ => ⟨.afterWrite saved (closing w saved), by simp, rfl⟩
  · exact fun _ _ => .inr ⟨by simp [Stmt.inScope, Stmt.isInput], .inl rfl⟩
  · exact fun _ hm => absurd (hm (.afterWrite saved (closing w saved)) (by simp))
      (by simp [Stmt.isScope])
  · intro saved' closing' hmem
    have hpush := mem_push_of_left hnone hmem rfl
    simp only [List.mem_cons, List.not_mem_nil, reduceCtorEq, or_false, false_or] at hpush
    cases hpush
    refine ⟨ho, closing_iff_closed hsaved, fun hc => ?_⟩
    -- a scope that flushes without closing is the outermost one
    have hz := hf.resolve_left (by simp [hc])
    rw [← exit_total hentered] at hz
    simpa [Stmt.scopes] using hz
  · intro saved' hmem
    simpa using mem_push_of_left hnone hmem rfl
  · intro saved' hmem
    simpa using mem_push_of_left hnone hmem rfl

/-- The buffer is empty: everything has been handed over. -/
theorem exit_empty (ho : w.eng.output_handler = true)
    (hf : closing w saved = true ∨ w.eng.engine_entered - 1 = 0) (hb : w.eng.output = []) :
    Accounts (leftScope w) ([.afterWrite saved (closing w saved)] ++ rest) := by
  have hnone := h.shape.noneLeft_exit
  have hd : delivered w.log = appended w.log := by
    rw [← h.held ho (cons_mid rfl hnone), hb, List.append_nil]
  refine ⟨.left rfl hnone, fun _ _ => hd, ?_, ?_, ?_,
    .inl (h.notices_eq_zero List.mem_cons_self rfl), ?_, ?_, ?_, ?_, ?_, ?_⟩
  · exact fun _ hm => absurd (hm (.afterWrite saved (closing w saved)) (by simp))
      (by simp [Stmt.midFlush])
  · exact fun hno => absurd (ho.symm.trans hno) (by simp)
  · exact fun hno => absurd (ho.symm.trans hno) (by simp)
  · exact fun _ _ _ => ⟨.afterWrite saved (closing w saved), by simp, rfl⟩
  · exact fun _ _ => .inl rfl
  · exact fun _ _ => hb
  · intro saved' closing' hmem
    cases List.mem_singleton.1 (mem_push_of_left hnone hmem rfl)
    refine ⟨ho, closing_iff_closed hsaved, fun hc => ?_⟩
    have hz := hf.resolve_left (by simp [hc])
    rw [← exit_total hentered] at hz
    simpa [Stmt.scopes] using hz
  · intro saved' hmem
    cases List.mem_singleton.1 (mem_push_of_left hnone hmem rfl)
  · intro saved' hmem
    cases List.mem_singleton.1 (mem_push_of_left hnone hmem rfl)

/-- An inner scope of an engine that is not closed keeps the buffer for the outer one. -/
theorem exit_unflushed (hn : w.eng.output_handler = false ∨
      (closing w saved = false ∧ w.eng.engine_entered - 1 ≠ 0)) :
    Accounts (leftScope w) ([.leaveScope saved] ++ rest) := by
  have hnone := h.shape.noneLeft_exit
  have hopen : w.eng.output_handler = true → w.eng.state ≠ .closed ∧
      w.eng.engine_entered - 1 ≠ 0 := by
    intro ho
    rcases hn with hno | ⟨hc, he⟩
    · rw [ho] at hno
      cases hno
    · exact ⟨fun hst => by simp [(closing_iff_closed hsaved).2 hst] at hc, he⟩
  refine ⟨.left rfl hnone, ?_, fun ho _ => h.held ho (cons_mid rfl hnone), h.released, h.unset,
    .inl (h.notices_eq_zero List.mem_cons_self rfl), ?_, ?_, ?_, ?_, ?_, ?_⟩
  · rintro - ⟨s, hs, hm⟩
    rw [cons_mid rfl hnone s hs] at hm
    cases hm
  · exact fun _ _ _ => ⟨.leaveScope saved, List.mem_cons_self, rfl⟩
  · exact fun hc ho => absurd hc (hopen ho).1
  · exact fun _ hm => absurd (hm _ List.mem_cons_self) (by simp [Stmt.isScope])
  · intro saved' closing' hmem
    cases List.mem_singleton.1 (mem_push_of_left hnone hmem rfl)
  · intro saved' hmem
    cases List.mem_singleton.1 (mem_push_of_left hnone hmem rfl)
  · intro saved' hmem ho
    refine ⟨(hopen ho).1, fun hz => absurd ?_ (hopen ho).2⟩
    rw [← exit_total hentered]
    simpa [Stmt.scopes] using hz

/-- The exit of a scope keeps the accounts. -/
theorem exitScope_accounts (hr : w.exec (.exitScope saved) = some r) :
    Accounts r.1 (r.2 ++ rest) := by
  cases exec_exitScope hr with
  | write ho hf hb => exact exit_write h hentered hsaved ho hf
  | empty ho hf hb => exact exit_empty h hentered hsaved ho hf hb
  | unflushed hn => exact exit_unflushed h hentered hsaved hn

end Exit

/-- The buffer is cleared, and a closed engine closes its output handler. -/
theorem afterWrite_accounts {closing : Bool} (h : Accounts w (.afterWrite saved closing :: rest)) :
    Accounts (w.afterWrite saved closing).1 ((w.afterWrite saved closing).2 ++ rest) := by
  have hnone := h.shape.noneLeft_left rfl
  obtain ⟨ho, hcl, hz⟩ := h.write saved closing List.mem_cons_self
  have hd := h.flushed ho ⟨_, List.mem_cons_self, rfl⟩
  have hzero := h.notices_eq_zero List.mem_cons_self rfl
  cases closing with
  | true =>
    have hclosed := hcl.1 rfl
    have hd' : delivered (w.log ++ [.callback .closeConnection])
        = appended (w.log ++ [.callback .closeConnection]) := by
      rw [delivered_append, appended_append, hd]
      simp [delivered, appended]
    have hn : notices (w.log ++ [.callback .closeConnection]) = 0 := by
      rw [notices_append, hzero]
      rfl
    have hpush : ∀ s ∈ (w.afterWrite saved true).2 ++ rest, s.isLeft = true →
        s = .afterClose saved := by
      intro s hs hl
      have hmem := mem_push_of_left hnone hs hl
      simp only [afterWrite, callOut, if_true, List.mem_cons, List.not_mem_nil,
        or_false] at hmem
      rcases hmem with rfl | rfl
      · cases hl
      · rfl
    refine ⟨.closing hnone, fun _ _ => hd', ?_, ?_, ?_, .inl hn, ?_, ?_, fun _ _ => rfl,
      ?_, ?_, ?_⟩
    · exact fun _ hm => absurd (hm (.afterClose saved) (by simp [afterWrite, callOut]))
        (by simp [Stmt.midFlush])
    · exact fun hno => absurd (ho.symm.trans hno) (by simp)
    · exact fun hno => absurd (ho.symm.trans hno) (by simp)
    · exact fun _ _ _ => ⟨.afterClose saved, by simp [afterWrite, callOut], rfl⟩
    · exact fun _ _ => .inr ⟨by simp [Stmt.inScope, Stmt.isInput], .inl rfl⟩
    · exact fun saved' closing' hmem => by cases hpush _ hmem rfl
    · exact fun _ _ => ⟨ho, hclosed, .callback .closeConnection,
        by simp [afterWrite, callOut], rfl⟩
    · exact fun saved' hmem => by cases hpush _ hmem rfl
  | false =>
    have hopen : w.eng.state ≠ .closed := fun hc => by simpa using hcl.2 hc
    refine ⟨.left rfl hnone, ?_, fun _ _ => ?_, ?_, ?_, .inl hzero, ?_, ?_, fun _ _ => rfl,
      ?_, ?_, ?_⟩
    · rintro - ⟨s, hs, hm⟩
      rw [cons_mid rfl hnone s hs] at hm
      cases hm
    · exact (List.append_nil _).trans hd
    · exact fun hno => absurd (ho.symm.trans hno) (by simp)
    · exact fun hno => absurd (ho.symm.trans hno) (by simp)
    · exact fun hc => absurd hc hopen
    · exact fun hc => absurd hc hopen
    · intro saved' closing' hmem
      cases List.mem_singleton.1 (mem_push_of_left hnone hmem rfl)
    · intro saved' hmem
      cases List.mem_singleton.1 (mem_push_of_left hnone hmem rfl)
    · exact fun _ _ _ => ⟨hopen, fun _ => rfl⟩

/-- The output handler is let go. -/
theorem afterClose_accounts (h : Accounts w (.afterClose saved :: rest)) :
    Accounts (w.afterClose saved).1 ((w.afterClose saved).2 ++ rest) := by
  have hnone := h.shape.noneLeft_left rfl
  obtain ⟨ho, hclosed, hout⟩ := h.close saved List.mem_cons_self
  have hd := h.flushed ho ⟨_, List.mem_cons_self, rfl⟩
  have hzero := h.notices_eq_zero List.mem_cons_self rfl
  refine ⟨.left rfl hnone, fun hno => (by cases hno), fun hno => (by cases hno), fun _ _ => hd,
    fun _ hn => absurd hout hn, .inl hzero, ?_, fun _ hno => (by cases hno),
    fun hno => (by cases hno), ?_, ?_, fun _ _ hno => (by cases hno)⟩
  · exact fun _ _ _ => ⟨.leaveScope saved, by simp [afterClose], rfl⟩
  · intro saved' closing' hmem
    cases List.mem_singleton.1 (mem_push_of_left hnone hmem rfl)
  · intro saved' hmem
    cases List.mem_singleton.1 (mem_push_of_left hnone hmem rfl)

/-- The accounts of a stack without a scope being left, from what they say of the
engine alone. -/
theorem Accounts.of_noneLeft (hnone : NoneLeft control)
    (held : w.eng.output_handler = true → delivered w.log ++ w.eng.output = appended w.log)
    (released : w.eng.output_handler = false → ClosedOut w.log → delivered w.log = appended w.log)
    (unset : w.eng.output_handler = false → ¬ ClosedOut w.log → delivered w.log = [])
    (noticed : notices w.log = 0 ∨ (notices w.log = 1 ∧ w.eng.state = .closed ∧
      ∀ s ∈ control, s.isScope = false))
    (owed : w.eng.state = .closed → w.eng.session_handler = true → notices w.log = 0 →
      ∃ s ∈ control, s.isScope = true)
    (safe : w.eng.state = .closed → w.eng.output_handler = true → Sealed w.eng control)
    (rest : w.eng.output_handler = true → (∀ s ∈ control, s.isScope = false) →
      w.eng.output = []) : Accounts w control := by
  have hold : ∀ s ∈ control, s.isLeft = true → False := fun s hs hl => by
    simp [hnone s hs] at hl
  refine ⟨.plain hnone, ?_, fun ho _ => held ho, released, unset, noticed, owed, safe, rest,
    ?_, ?_, ?_⟩
  · rintro - ⟨s, hs, hm⟩
    exact (hold s hs (isLeft_of_midFlush hm)).elim
  · exact fun _ _ hmem => (hold _ hmem rfl).elim
  · exact fun _ hmem => (hold _ hmem rfl).elim
  · exact fun _ hmem => (hold _ hmem rfl).elim

/-- The notification is no byte, and no close. -/
theorem quiet_onStateChange (l : List Event) (st : EngineState) :
    (delivered (l ++ [.callback (.onStateChange st)]) = delivered l
      ∧ appended (l ++ [.callback (.onStateChange st)]) = appended l)
      ∧ (ClosedOut (l ++ [.callback (.onStateChange st)]) ↔ ClosedOut l) := by
  refine ⟨?_, ?_⟩
  · rw [delivered_append, appended_append]
    simp [delivered, appended]
  · simp [ClosedOut, Event.isClose]

/-- It is counted where the state is closed. -/
theorem notices_onStateChange {l : List Event} (st : EngineState) (hzero : notices l = 0) :
    notices (l ++ [.callback (.onStateChange st)]) = if st = .closed then 1 else 0 := by
  rw [notices_append, hzero]
  cases st <;> rfl

/-- The scope is left, and the outermost one notifies. -/
theorem leaveScope_accounts (h : Accounts w (.leaveScope saved :: rest))
    (hentered : total Stmt.scopes (.leaveScope saved :: rest) = w.eng.engine_entered)
    (hsaved : saved ≠ .closed) (hr : w.exec (.leaveScope saved) = some r) :
    Accounts r.1 (r.2 ++ rest) := by
  have hnone := h.shape.noneLeft_left rfl
  have hmid : ∀ s ∈ .leaveScope saved :: rest, s.midFlush = false := cons_mid rfl hnone
  have hleave := h.leave saved List.mem_cons_self
  have hzero := h.notices_eq_zero List.mem_cons_self rfl
  rw [total_cons] at hentered
  simp only [Stmt.scopes, Nat.zero_add] at hentered
  have hreset : (afterReset w).log = w.log ∧ (afterReset w).eng.output = w.eng.output ∧
      (afterReset w).eng.output_handler = w.eng.output_handler ∧
      (afterReset w).eng.session_handler = w.eng.session_handler ∧
      (afterReset w).eng.state = w.eng.state := by
    rcases afterReset_eq w with h | ⟨-, h⟩ <;> rw [h] <;> exact ⟨rfl, rfl, rfl, rfl, rfl⟩
  obtain ⟨hl, hout, ho, hse, hst⟩ := hreset
  cases exec_leaveScope hr with
  | inner he =>
    have hscope : ∃ s ∈ rest, s.isScope = true :=
      exists_scope_of_total (by rw [hentered]; exact he)
    refine .of_noneLeft hnone (fun ho => h.held ho hmid) h.released h.unset (.inl hzero)
      (fun _ _ _ => hscope) (fun hc ho => absurd hc (hleave ho).1) ?_
    intro _ hn
    obtain ⟨s, hs, hsc⟩ := hscope
    simp [hn s hs] at hsc
  | notify he hh hne =>
    -- this is the outermost scope, so the notification is the only one
    have hnoscope := noScope_of_total hnone (hentered.trans he)
    have hnotices := notices_onStateChange w.eng.state hzero
    obtain ⟨hquiet, hclosedOut⟩ := quiet_onStateChange w.log w.eng.state
    refine .of_noneLeft ?_ ?_ ?_ ?_ ?_ ?_ ?_ ?_
    · intro s hs
      simp only [callOut, List.cons_append, List.nil_append, List.mem_cons] at hs
      rcases hs with rfl | hs
      · rfl
      · exact hnone s hs
    · simp only [callOut, emit_eng, emit_log, hl, hout, ho, hquiet]
      exact fun ho => h.held ho hmid
    · simp only [callOut, emit_eng, emit_log, hl, ho, hquiet, hclosedOut]
      exact h.released
    · simp only [callOut, emit_eng, emit_log, hl, ho, hquiet, hclosedOut]
      exact h.unset
    · simp only [callOut, emit_eng, emit_log, hl, hst, hnotices]
      split
      · rename_i hc
        refine .inr ⟨rfl, hc, fun s hs => ?_⟩
        simp only [List.cons_append, List.nil_append, List.mem_cons] at hs
        rcases hs with rfl | hs
        · rfl
        · exact hnoscope s hs
      · exact .inl rfl
    · simp only [callOut, emit_eng, emit_log, hl, hst, hnotices]
      intro hc _ hz
      rw [if_pos hc] at hz
      cases hz
    · simp only [callOut, emit_eng, hst, ho]
      exact fun hc ho => absurd hc (hleave ho).1
    · simp only [callOut, emit_eng, hout, ho]
      exact fun ho _ => (hleave ho).2 (by
        rw [total_cons]
        simpa [Stmt.scopes] using hentered.trans he)
  | silent he hn =>
    refine .of_noneLeft hnone ?_ ?_ ?_ ?_ ?_ ?_ ?_
    · simp only [hl, hout, ho]
      exact fun ho => h.held ho hmid
    · simp only [hl, ho]
      exact h.released
    · simp only [hl, ho]
      exact h.unset
    · exact .inl (by rw [hl]; exact hzero)
    · simp only [hst, hse]
      intro hc hsession
      rcases hn with hn | hn
      · exact absurd (hsession.symm.trans hn) (by simp)
      · exact absurd (hn.symm.trans hc) hsaved
    · simp only [hst, ho]
      exact fun hc ho => absurd hc (hleave ho).1
    · simp only [hout, ho]
      exact fun ho _ => (hleave ho).2 (by
        rw [total_cons]
        simpa [Stmt.scopes] using hentered.trans he)

/-! ## Input -/

/-- An error seals the stack down to the next scope. -/
theorem calm_sealed (h : Calm l) (he : e.error_code ≠ .none) : Sealed e l := by
  induction l with
  | nil => cases h
  | cons s l ih =>
    rcases h with hs | ⟨hs, h⟩
    · exact .inl (isScope_of_isOpen hs)
    · exact .inr ⟨fun _ => ⟨hs, he⟩, ih h⟩

theorem Sealed.mono {e' : XmppEngineImpl} (h : Sealed e l) (he : e'.error_code = e.error_code) :
    Sealed e' l := by
  induction l with
  | nil => cases h
  | cons s l ih =>
    rcases h with hs | ⟨hs, h⟩
    · exact .inl hs
    · exact .inr ⟨fun hi => ⟨(hs hi).1, he ▸ (hs hi).2⟩, ih h⟩

theorem Sealed.append {push : List Stmt} (h : Sealed e l) (he : e.error_code ≠ .none)
    (hp : ∀ p ∈ push, p.isLogin = false) : Sealed e (push ++ l) := by
  induction push with
  | nil => exact h
  | cons p push ih =>
    exact .inr ⟨fun _ => ⟨hp p List.mem_cons_self, he⟩,
      ih fun x hx => hp x (List.mem_cons_of_mem _ hx)⟩

/-- Input held back by an error does not come to the login task. -/
theorem exec_push_login (hs : s.isInput = true) (hl : s.isLogin = false)
    (he : w.eng.error_code ≠ .none) (h : w.exec s = some r) : ∀ p ∈ r.2, p.isLogin = false := by
  have hblocked : w.blocked = true := by
    rw [blocked, hasError, decide_eq_true he]
    rfl
  intro p hp
  by_contra hn
  have hpush := exec_mayPush h p hp
  -- a round is pushed by a round, or by what the parser reports, and that is blocked
  by_cases hinc : ∃ ev, s = .incoming ev
  · obtain ⟨ev, rfl⟩ := hinc
    cases exec_incoming h with
    | blocked | streamError | error => cases hp
    | login lt e isStart hb | response stanza entry hb | dispatch stanza hb => simp [hblocked] at hb
  · cases p with
    | advance =>
      cases s with
      | incoming ev => exact hinc ⟨ev, rfl⟩
      | advance | tlsStarted => cases hl
      | _ => exact absurd hpush Bool.false_ne_true
    | tlsStarted =>
      cases s with
      | advance => cases hl
      | _ => exact absurd hpush Bool.false_ne_true
    | _ => exact hn rfl

theorem ClosedOut.grow {w' : World} {p : Event → Prop} (h : ClosedOut w.log) (hg : Grows p w w') :
    ClosedOut w'.log := by
  obtain ⟨ev, hev, hc⟩ := h
  exact ⟨ev, hg.mem hev, hc⟩

/-- Input is treated inside a scope: what it appends is flushed by that scope. -/
theorem input_accounts (h : Accounts w (s :: rest)) (hg : CloseGlobal w) (hs : s.isInput = true)
    (hc : Calm rest) (hin : s.inScope = true) (hr : w.exec s = some r) :
    Accounts r.1 (r.2 ++ rest) := by
  have hnone := h.shape.noneLeft_input hs
  have hmid := noneLeft_mid hnone
  have hscope : s.isScope = false := Stmt.isScope_of_isInput hs
  have hframe := exec_frame hr
  have hflow := exec_flow hs hr
  have ho : r.1.eng.output_handler = w.eng.output_handler := by
    refine hframe.output_handler ?_
    rintro saved rfl
    cases hs
  -- input neither writes nor closes, and the scope around it is still to flush
  have hout : ClosedOut r.1.log → ClosedOut w.log :=
    (hg.once.grow (hframe.grows.mono fun ev hev => mayEmit_quiet hscope hev)).2
  obtain ⟨x, hx, hxo⟩ := calm_open hc
  have hxs := isScope_of_isOpen hxo
  have hx' : x ∈ r.2 ++ rest := List.mem_append_right _ hx
  have hzero := h.notices_eq_zero (List.mem_cons_of_mem _ hx) hxs
  -- an engine that is closed and has its output handler holds the login task back
  have hsealed : w.eng.state = .closed → w.eng.output_handler = true →
      s.isLogin = false ∧ w.eng.error_code ≠ .none ∧ Sealed w.eng rest := by
    intro hclosed hh
    rcases h.safe hclosed hh with hsc | ⟨hi, hrest⟩
    · rw [hscope] at hsc
      cases hsc
    · exact ⟨(hi hin).1, (hi hin).2, hrest⟩
  refine .of_noneLeft ?_ ?_ ?_ ?_ (.inl (hflow.notices.trans hzero)) ?_ ?_ ?_
  · intro p hp
    rcases List.mem_append.1 hp with hp | hp
    · by_contra hl
      have hpl : p.isLeft = true := by simpa using hl
      rcases (exec_push hr p hp).scope (isScope_of_isLeft hpl) with hsc | ⟨-, rfl, -⟩
      · rw [hscope] at hsc
        cases hsc
      · cases hpl
    · exact hnone p (List.mem_cons_of_mem _ hp)
  · intro hh
    rw [ho] at hh
    have hheld := h.held hh hmid
    -- a closed engine appends nothing, an open one appends to the buffer
    by_cases hclosed : w.eng.state = .closed
    · obtain ⟨hl, -, -⟩ := hsealed hclosed hh
      rw [hflow.delivered, hflow.frozen hclosed, exec_output_closed hs hl hclosed hr]
      exact hheld
    · obtain ⟨bytes, hob, hab⟩ := hflow.flows hclosed
      rw [hflow.delivered, hob, hab, ← hheld, List.append_assoc]
  · intro hh hclosed
    rw [ho] at hh
    rw [hflow.delivered, hflow.frozen (hg.closed (hout hclosed))]
    exact h.released hh (hout hclosed)
  · intro hh hn
    rw [ho] at hh
    rw [hflow.delivered]
    exact h.unset hh fun hclosed => hn (hclosed.grow hframe.grows)
  · exact fun _ _ _ => ⟨x, hx', hxs⟩
  · intro hclosed' hh
    rw [ho] at hh
    by_cases hclosed : w.eng.state = .closed
    · obtain ⟨hl, he, hrest⟩ := hsealed hclosed hh
      have he' : r.1.eng.error_code = w.eng.error_code := by
        rcases hframe.forward.error with heq | ⟨hn, -⟩
        · exact heq
        · exact absurd hclosed hn
      exact (hrest.mono he').append (he' ▸ he) (exec_push_login hs hl he hr)
    · obtain ⟨hnil, he⟩ := exec_closes hs hr hclosed hclosed'
      rw [hnil]
      exact calm_sealed hc he
  · intro _ hn
    rw [hn x hx'] at hxs
    cases hxs

/-! ## Calls and returns -/

/-- A step that changes neither the buffer nor the scopes keeps the accounts. -/
theorem Accounts.same {w' : World} {control' : List Stmt} (h : Accounts w control)
    (hq : Grows (fun ev => ev.isQuiet = true) w w') (hshape : FlushShape control')
    (hmem : ∀ s : Stmt, s.isScope = true → (s ∈ control' ↔ s ∈ control))
    (htotal : total Stmt.scopes control' = total Stmt.scopes control)
    (hout : w'.eng.output = w.eng.output) (ho : w'.eng.output_handler = w.eng.output_handler)
    (hse : w'.eng.session_handler = w.eng.session_handler) (hst : w'.eng.state = w.eng.state)
    (hsealed : Sealed w.eng control → Sealed w'.eng control') : Accounts w' control' := by
  have hclosed : ClosedOut w'.log ↔ ClosedOut w.log := by
    refine ⟨fun hc => ?_, fun hc => hc.grow hq⟩
    obtain ⟨evs, hl, hp⟩ := hq
    obtain ⟨ev, hev, hc⟩ := hc
    rw [hl] at hev
    rcases List.mem_append.1 hev with hev | hev
    · exact ⟨ev, hev, hc⟩
    · rw [isClose_of_isQuiet (hp ev hev)] at hc
      cases hc
  obtain ⟨hd, ha, hn⟩ : delivered w'.log = delivered w.log ∧ appended w'.log = appended w.log ∧
      notices w'.log = notices w.log := by
    obtain ⟨evs, hl, hp⟩ := hq
    obtain ⟨hd, ha, hn⟩ := quiet_accounts hp
    rw [hl, delivered_append, appended_append, notices_append, hd, ha, hn]
    exact ⟨List.append_nil _, List.append_nil _, rfl⟩
  have hmid : (∃ s ∈ control', s.midFlush = true) ↔ ∃ s ∈ control, s.midFlush = true := by
    constructor
    · rintro ⟨s, hs, hm⟩
      exact ⟨s, (hmem s (isScope_of_isLeft (isLeft_of_midFlush hm))).1 hs, hm⟩
    · rintro ⟨s, hs, hm⟩
      exact ⟨s, (hmem s (isScope_of_isLeft (isLeft_of_midFlush hm))).2 hs, hm⟩
  -- the scope statements are the same, so a flush is under way in both or in neither
  have hnomid : (∀ s ∈ control', s.midFlush = false) → ∀ s ∈ control, s.midFlush = false := by
    intro hn s hs
    by_contra hm
    obtain ⟨x, hx, hxm⟩ := hmid.2 ⟨s, hs, by simpa using hm⟩
    rw [hn x hx] at hxm
    cases hxm
  have hnoscope : (∀ s ∈ control', s.isScope = false) ↔ ∀ s ∈ control, s.isScope = false := by
    constructor
    · intro hn s hs
      by_contra hm
      have hsc : s.isScope = true := by simpa using hm
      rw [hn s ((hmem s hsc).2 hs)] at hsc
      cases hsc
    · intro hn s hs
      by_contra hm
      have hsc : s.isScope = true := by simpa using hm
      rw [hn s ((hmem s hsc).1 hs)] at hsc
      cases hsc
  constructor
  · exact hshape
  · rw [hd, ha, ho, hmid]
    exact h.flushed
  · rw [hd, ha, ho, hout]
    exact fun hh hn => h.held hh (hnomid hn)
  · rw [hd, ha, ho, hclosed]
    exact h.released
  · rw [hd, ho, hclosed]
    exact h.unset
  · rw [hn, hst, hnoscope]
    exact h.noticed
  · rw [hn, hst, hse]
    intro hc hsession hz
    obtain ⟨s, hs, hsc⟩ := h.owed hc hsession hz
    exact ⟨s, (hmem s hsc).2 hs, hsc⟩
  · rw [hst, ho]
    exact fun hc hh => hsealed (h.safe hc hh)
  · rw [ho, hout, hnoscope]
    exact h.rest
  · rw [ho, hst, htotal]
    exact fun saved closing hs => h.write saved closing ((hmem _ rfl).1 hs)
  · rw [ho, hst, hclosed]
    exact fun saved hs => h.close saved ((hmem _ rfl).1 hs)
  · rw [ho, hst, hout, htotal]
    exact fun saved hs => h.leave saved ((hmem _ rfl).1 hs)

/-- Members of a stack that are pushed or popped and are no scope statements. -/
theorem mem_cons_scope {x : Stmt} (hx : x.isScope = false) (hs : s.isScope = true) :
    s ∈ x :: l ↔ s ∈ l := by
  refine ⟨fun h => ?_, List.mem_cons_of_mem _⟩
  rcases List.mem_cons.1 h with rfl | h
  · rw [hx] at hs
    cases hs
  · exact h

/-- A call returns. -/
theorem returned_accounts {status : XmppReturnStatus}
    (h : Accounts w (.returned m status :: rest)) :
    Accounts (w.emit (.returned m status)) rest := by
  have hshape : FlushShape rest := by
    cases h.shape with
    | plain hn => exact .plain fun s hs => hn s (List.mem_cons_of_mem _ hs)
    | left hs => cases hs
    | refused hs => exact hs
  refine h.same (.emit w rfl) hshape (fun s hs => (mem_cons_scope rfl hs).symm) ?_ rfl rfl rfl rfl
    ?_
  · rw [total_cons]
    exact (Nat.zero_add _).symm
  · rintro (hs | ⟨-, hs⟩)
    · cases hs
    · exact hs

/-- The flag is set after `StartTls`. -/
theorem startedTls_accounts (h : Accounts w (.startedTls :: rest)) :
    Accounts (w.set { w.eng with encrypted := true }) rest := by
  have hnone := h.shape.noneLeft_input rfl
  refine h.same (.of_eq rfl) (.plain fun s hs => hnone s (List.mem_cons_of_mem _ hs))
    (fun s hs => (mem_cons_scope rfl hs).symm) ?_ rfl rfl rfl rfl ?_
  · rw [total_cons]
    exact (Nat.zero_add _).symm
  · rintro (hs | ⟨-, hs⟩)
    · cases hs
    · exact hs.mono rfl

/-- A handler returns. -/
theorem resume_accounts {cb : Callback} (v : Bool) (h : Accounts w (.callback cb :: rest)) :
    Accounts w (World.resume (.callback cb) v ++ rest) := by
  have hscope : ∀ p ∈ World.resume (.callback cb) v, p.isScope = false :=
    fun p hp => Stmt.isScope_of_isInput (resume_input hp)
  refine h.same (.refl w) ?_ ?_ ?_ rfl rfl rfl rfl ?_
  · cases h.shape with
    | plain hn =>
      refine .plain fun s hs => ?_
      rcases List.mem_append.1 hs with hs | hs
      · by_contra hl
        have := hscope s hs
        rw [isScope_of_isLeft (by simpa using hl)] at this
        cases this
      · exact hn s (List.mem_cons_of_mem _ hs)
    | left hs => cases hs
    | writing hn | closing hn => exact .left rfl hn
  · intro s hs
    rw [mem_cons_scope (x := .callback cb) rfl hs, List.mem_append]
    refine ⟨fun hm => hm.resolve_left fun hp => ?_, .inr⟩
    rw [hscope s hp] at hs
    cases hs
  · have hz : total Stmt.scopes (World.resume (.callback cb) v) = 0 :=
      total_eq_zero fun p hp => Stmt.scopes_of_isInput (resume_input hp)
    rw [total_append, total_cons, hz]
    rfl
  · rintro (hs | ⟨hi, hs⟩)
    · cases hs
    · -- the dispatch goes on only after `HandleStanza`, which the seal held already
      cases cb with
      | handleStanza hd level i stanza =>
        unfold World.resume
        split
        · exact .inr ⟨fun _ => ⟨rfl, (hi rfl).2⟩, hs⟩
        · split
          · exact hs
          · exact .inr ⟨fun _ => ⟨rfl, (hi rfl).2⟩, hs⟩
        · exact hs
      | _ => exact hs

/-- Where the application may open a scope, no scope is being left. -/
theorem noneLeft_waiting (h : Accounts w control) (hw : Config.waiting engine ⟨w, control⟩ = true)
    (hopen : w.eng.state ≠ .closed) (hwriting : control.any Stmt.isWriting = false) :
    NoneLeft control := by
  rcases waiting_cases hw with hnil | ⟨f, rest, hc, hf⟩
  · have hnil : control = [] := hnil
    rw [hnil]
    exact List.forall_mem_nil _
  · have hc : control = f :: rest := hc
    subst hc
    cases h.shape with
    | plain hn => exact hn
    | left hs hn =>
      cases f <;> first
        | exact absurd hs Bool.false_ne_true
        | exact absurd hf Bool.false_ne_true
    | writing hn => cases hwriting
    | closing hn => exact absurd (h.close _ (List.mem_cons_of_mem _ List.mem_cons_self)).2.1 hopen
    | refused h => cases hf

/-- A call that opens a scope keeps the accounts, if it is not made from inside
`WriteOutput`. -/
theorem enter_scoped (h : Accounts c.state c.control) (hg : CloseGlobal c.state)
    (hw : c.waiting engine = true) (hrule : UnnestedOutput c m)
    (hs : EntryScoped (c.state.emit (.called m)) m (c.state.enter m)) :
    Accounts (c.state.enter m).1 ((c.state.enter m).2 ++ c.control) := by
  have hentry := enter_entry c.state m
  have hframe := entry_frame hentry
  have hcalled : Grows (fun ev => ev.isQuiet = true) c.state (c.state.emit (.called m)) :=
    .emit _ rfl
  have hopen : c.state.eng.state ≠ .closed := hs.state
  have hwriting : c.control.any Stmt.isWriting = false := by
    by_contra hwr
    have ho : m.opensScope c.state.eng = true := hs.opens
    rw [hrule (by simpa using hwr)] at ho
    cases ho
  have hnone := noneLeft_waiting h hw hopen hwriting
  have hmid := noneLeft_mid hnone
  have hquiet : Flow c.state (c.state.emit (.called m)) := .of_quiet rfl hcalled
  have hflow : Flow c.state (c.state.enter m).1 := hquiet.trans (entry_flow hentry) Iff.rfl
  have hscope : .exitScope c.state.eng.state ∈ (c.state.enter m).2 ++ c.control :=
    List.mem_append_left _ hs.scope
  have ho : (c.state.enter m).1.eng.output_handler = c.state.eng.output_handler :=
    hs.output_handler
  have hback : ClosedOut (c.state.enter m).1.log → ClosedOut c.state.log := by
    refine (hg.once.grow ((Grows.emit _ ⟨rfl, rfl⟩).trans
      (hframe.grows.mono fun ev hev => entry_quiet hev))).2
  obtain ⟨bytes, hob, hab⟩ := hflow.flows hopen
  refine .of_noneLeft ?_ ?_ ?_ ?_ ?_ (fun _ _ _ => ⟨_, hscope, rfl⟩) ?_ ?_
  · intro s hmem
    rcases List.mem_append.1 hmem with hmem | hmem
    · by_contra hl
      have hleft : s.isLeft = true := by simpa using hl
      rw [(hframe.scope s hmem (isScope_of_isLeft hleft)).2] at hleft
      cases hleft
    · exact hnone s hmem
  · intro hh
    rw [ho] at hh
    rw [hflow.delivered, hob, hab, ← h.held hh hmid, List.append_assoc]
  · exact fun _ hc => absurd (hg.closed (hback hc)) hopen
  · intro hh hn
    rw [ho] at hh
    rw [hflow.delivered]
    refine h.unset hh fun hc => hopen (hg.closed hc)
  · rcases h.noticed with hz | ⟨-, hc, -⟩
    · exact .inl (hflow.notices.trans hz)
    · exact absurd hc hopen
  · intro hc _
    obtain ⟨rest, hrest⟩ := hs.closing hc
    rw [hrest]
    exact .inl rfl
  · intro _ hn
    cases hn _ hscope

/-- While the handlers are being set nothing is pending, and nothing was written yet. -/
theorem enter_started (hshape : shapeInv.Holds c) (hw : c.waiting engine = true)
    (hstart : c.state.eng.state = .start)
    (hu : EntryUnscoped (c.state.emit (.called m)) m (c.state.enter m)) :
    Accounts (c.state.enter m).1 ((c.state.enter m).2 ++ c.control) := by
  obtain ⟨status, hpush⟩ := hu.push
  have hst : (c.state.enter m).1.eng.state = c.state.eng.state := hu.state
  have hout : (c.state.enter m).1.eng.output = c.state.eng.output := hu.output
  have hnil : c.control = [] := by
    rcases waiting_cases hw with hnil | ⟨f, rest, hc, hf⟩
    · exact hnil
    · have := (hshape.frame f (by rw [hc]; exact List.mem_cons_self)).started hstart
      rw [show f.foreign = true from hf] at this
      cases this.2
  have hidle := hshape.global.2 hstart
  have hlog : ∀ ev ∈ (c.state.enter m).1.log, ev.isQuiet = true := by
    have hcalled : Grows (fun ev => ev.isQuiet = true) c.state (c.state.emit (.called m)) :=
      .emit _ rfl
    obtain ⟨evs, hl, hp⟩ := hcalled.trans hu.quiet
    intro ev hev
    rw [hl] at hev
    rcases List.mem_append.1 hev with hev | hev
    · have htraffic := hidle.log ev hev
      cases ev <;> first | rfl | cases htraffic
    · exact hp ev hev
  obtain ⟨hd, ha, hn⟩ := quiet_accounts hlog
  have hopen : (c.state.enter m).1.eng.state ≠ .closed := by
    rw [hst, hstart]
    simp
  rw [hpush, hnil]
  refine .of_noneLeft ?_ ?_ ?_ (fun _ _ => hd) (.inl hn) ?_ (fun hc => absurd hc hopen) ?_
  · intro s hs
    rw [List.mem_singleton.1 hs]
    rfl
  · intro _
    rw [hd, ha, hout, hidle.output]
    rfl
  · exact fun _ _ => hd.trans ha.symm
  · exact fun hc => absurd hc hopen
  · exact fun _ _ => hout.trans hidle.output

/-- A call that opens no scope leaves the output as it is and returns at once. -/
theorem enter_unscoped (h : Accounts c.state c.control) (hw : c.waiting engine = true)
    (hstart : c.state.eng.state ≠ .start)
    (hu : EntryUnscoped (c.state.emit (.called m)) m (c.state.enter m)) :
    Accounts (c.state.enter m).1 ((c.state.enter m).2 ++ c.control) := by
  have hframe := entry_frame (enter_entry c.state m)
  obtain ⟨status, hpush⟩ := hu.push
  have hcalled : Grows (fun ev => ev.isQuiet = true) c.state (c.state.emit (.called m)) :=
    .emit _ rfl
  have hst : (c.state.enter m).1.eng.state = c.state.eng.state := hu.state
  have hout : (c.state.enter m).1.eng.output = c.state.eng.output := hu.output
  have hforward : Forward c.state (c.state.enter m).1 :=
    (Forward.of_eq rfl rfl : Forward c.state (c.state.emit (.called m))).trans hframe.forward
  have he : (c.state.enter m).1.eng.error_code = c.state.eng.error_code := by
    rcases hforward.error with heq | ⟨hn, hc⟩
    · exact heq
    · exact absurd (hst.symm.trans hc) hn
  rw [hpush]
  have hshape' : FlushShape (.returned m status :: c.control) := by
    rcases waiting_cases hw with hnil | ⟨f, rest, hc, hf⟩
    · rw [hnil]
      refine .plain fun s hs => ?_
      rw [List.mem_singleton.1 hs]
      rfl
    · have hfs := h.shape
      rw [hc] at hfs ⊢
      cases f with
      | callback cb => exact .refused hfs
      | _ => cases hf
  refine h.same (hcalled.trans hu.quiet) hshape' (fun s hs => mem_cons_scope rfl hs) ?_ hout
    (hframe.output_handler hstart) (hframe.session_handler hstart) hst ?_
  · rw [List.singleton_append, total_cons]
    exact Nat.zero_add _
  · exact fun hsealed => .inr ⟨fun hi => (Bool.false_ne_true hi).elim, hsealed.mono he⟩

/-- Calling the engine keeps the accounts, if no scope is opened from inside
`WriteOutput`. -/
theorem enter_accounts (h : Accounts c.state c.control) (hg : CloseGlobal c.state)
    (hshape : shapeInv.Holds c) (hw : c.waiting engine = true) (hrule : UnnestedOutput c m) :
    Accounts (c.state.enter m).1 ((c.state.enter m).2 ++ c.control) := by
  rcases entry_split (enter_entry c.state m) with hs | hu
  · exact enter_scoped h hg hw hrule hs
  · by_cases hstart : c.state.eng.state = .start
    · exact enter_started hshape hw hstart hu
    · exact enter_unscoped h hw hstart hu

/-! ## Every run -/

theorem accounts_init : Accounts Conf.init.state Conf.init.control := by
  refine .of_noneLeft ?_ (fun _ => rfl) (fun _ _ => rfl) (fun _ _ => rfl) (.inl rfl) ?_ ?_
    (fun _ _ => rfl)
  · exact List.forall_mem_nil _
  · exact fun hc => nomatch hc
  · exact fun hc => nomatch hc

/-- The accounts are right in every run in which no scope is opened from inside
`WriteOutput`. -/
theorem accounts_reachable (h : engine.Reaches UnnestedOutput Conf.init c) :
    Accounts c.state c.control := by
  refine Reaches.invariant (I := fun c : Conf => Accounts c.state c.control) h accounts_init ?_
  intro c a c' hreach hc ha hs
  have hany := Reaches.any hreach
  have hclose := closeProtocol_reachable hany
  have hsegmented := segmented_reachable hany
  have hentered := entered_reachable hany
  have hshape := shape_reachable hany
  rcases step_cases hs with ⟨s, rest, r, -, hcontrol, hf, hr, rfl⟩ | ⟨m, rfl, hw, rfl⟩ |
    ⟨v, s, rest, -, hcontrol, hf, rfl⟩
  · rw [hcontrol] at hc hsegmented hentered
    have hsaved : ∀ st, s.saved = some st → st ≠ .closed := fun st hst =>
      ((hshape.frame s (by rw [hcontrol]; exact List.mem_cons_self)).saved st hst).1
    have hinput : s.isInput = true → s.inScope = true → Accounts r.1 (r.2 ++ rest) :=
      fun hi hin => input_accounts hc hclose.holds.global hi (hsegmented.1 hin) hin hr
    cases s with
    | callback cb => cases hf
    | exitScope saved => exact exitScope_accounts hc hentered (hsaved _ rfl) hr
    | afterWrite saved closing =>
      obtain rfl := Option.some.inj hr
      exact afterWrite_accounts hc
    | afterClose saved =>
      obtain rfl := Option.some.inj hr
      exact afterClose_accounts hc
    | leaveScope saved => exact leaveScope_accounts hc hentered (hsaved _ rfl) hr
    | returned m status =>
      obtain rfl := Option.some.inj hr
      exact returned_accounts hc
    | startedTls =>
      obtain rfl := Option.some.inj hr
      exact startedTls_accounts hc
    | _ => exact hinput rfl rfl
  · exact enter_accounts hc hclose.holds.global hshape hw (ha m rfl)
  · rw [hcontrol] at hc
    cases s with
    | callback cb => exact resume_accounts v hc
    | _ => cases hf

/-- In a run in which no scope is opened from inside `WriteOutput`: the output handler
gets the bytes that were appended, in order and once, and has all of them whenever no
call is in progress; the session handler is told of the closed state once. -/
theorem flushed_once {c : Conf} (h : engine.Reaches UnnestedOutput Conf.init c) :
    delivered c.state.log <+: appended c.state.log ∧
    (c.control = [] → c.state.eng.output_handler = true ∨ ClosedOut c.state.log →
      delivered c.state.log = appended c.state.log) ∧
    notices c.state.log ≤ 1 ∧
    (c.control = [] → c.state.eng.state = .closed → c.state.eng.session_handler = true →
      notices c.state.log = 1) := by
  have hacc := accounts_reachable h
  refine ⟨?_, fun hnil ho => ?_, ?_, fun hnil hc hse => ?_⟩
  · cases ho : c.state.eng.output_handler with
    | true =>
      by_cases hmid : ∃ s ∈ c.control, s.midFlush = true
      · have hall := hacc.flushed ho hmid
        simp only [hall, List.prefix_rfl]
      · rw [← hacc.held ho fun s hs => by simpa using fun hm => hmid ⟨s, hs, hm⟩]
        exact List.prefix_append _ _
    | false =>
      by_cases hc : ClosedOut c.state.log
      · have hall := hacc.released ho hc
        simp only [hall, List.prefix_rfl]
      · rw [hacc.unset ho hc]
        exact List.nil_prefix
  · by_cases hh : c.state.eng.output_handler = true
    · have hheld := hacc.held hh (by simp [hnil])
      rw [hacc.rest hh (by simp [hnil]), List.append_nil] at hheld
      exact hheld
    · exact hacc.released (by simpa using hh) (ho.resolve_left hh)
  · rcases hacc.noticed with hz | ⟨hone, -, -⟩ <;> omega
  · rcases hacc.noticed with hz | ⟨hone, -, -⟩
    · obtain ⟨s, hs, -⟩ := hacc.owed hc hse hz
      rw [hnil] at hs
      cases hs
    · exact hone

/-- The handlers are set and the connection is opened, and disconnected once it is. -/
def openAndDisconnect : List Step :=
  [.call (.setOutputHandler true), .call (.setSessionHandler true), .call .connect, .ret false,
    .ret false, .call .disconnect, .ret false, .ret false]

theorem flushed_once_disconnected : ∃ c : Conf, c.control = [] ∧ delivered c.state.log ≠ [] ∧
    delivered c.state.log = appended c.state.log ∧ notices c.state.log = 1 := by
  obtain ⟨c, hc, hp⟩ := exists_of_drive (G := UnnestedOutput) (P := engine) (n := 40)
    (c := Conf.init) (l := openAndDisconnect) (p := fun c => c.control.isEmpty
      && c.state.eng.state = .closed && c.state.log.any Event.isClose
      && c.state.eng.session_handler && delivered c.state.log ≠ []) (by decide +kernel)
  simp only [Bool.and_eq_true, List.isEmpty_iff, decide_eq_true_eq, List.any_eq_true] at hp
  obtain ⟨⟨⟨⟨hnil, hclosed⟩, hout⟩, hsession⟩, hd⟩ := hp
  obtain ⟨-, hall, -, hone⟩ := flushed_once hc
  exact ⟨c, hnil, hd, hall hnil (.inr hout), hone hnil hclosed hsession⟩

/-- The application disconnects from inside the first `WriteOutput`. -/
def disconnectInWrite : List Step :=
  [.call (.setOutputHandler true), .call (.setSessionHandler true), .call .connect,
    .call .disconnect, .ret false, .ret false, .ret false, .ret false, .ret false]

/-- Then the start of the stream is written twice, and the closed state is notified
twice. -/
theorem flushed_twice : ∃ c : Conf, Reachable c ∧ c.control = [] ∧
    c.state.eng.state = .closed ∧ appended c.state.log ≠ [] ∧
    delivered c.state.log = appended c.state.log ++ appended c.state.log ∧
    notices c.state.log = 2 := by
  obtain ⟨c, hc, hp⟩ := exists_of_drive (G := anyCall) (P := engine) (n := 40)
    (c := Conf.init) (l := disconnectInWrite) (p := fun c => c.control.isEmpty
      && c.state.eng.state = .closed && appended c.state.log ≠ []
      && delivered c.state.log = appended c.state.log ++ appended c.state.log
      && notices c.state.log = 2) (by decide +kernel)
  simp only [Bool.and_eq_true, List.isEmpty_iff, decide_eq_true_eq] at hp
  exact ⟨c, hc, hp.1.1.1.1, hp.1.1.1.2, hp.1.1.2, hp.1.2, hp.2⟩

end Gxmpp
