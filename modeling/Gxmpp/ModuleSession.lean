/-
`talk/xmpp/moduleimpl.cc`: the modules of the repository as the client of an open engine.

A module registers with the engine as a stanza handler, and what it does with a stanza is
a function of the two, so the modules are a reactive client: while a stanza is treated,
the only calls of the engine are the `SendStanza` of the modules. The handlers of the
application answer by looking at the stanza and call nothing; so do the output and the
session handler.

`Session` is what is left of the engine and its modules when the nesting of calls is
forgotten: the registered handlers, the iq entries, the modules, and whether the engine is
closed. `Session.receive` treats a stanza in one step. That the code does the same is
`incoming_represents` for one stanza, and `handleInput_represents` for a buffer of input.
-/
import Gxmpp.ChatroomModule
import Gxmpp.Disconnect
import Gxmpp.OpenState
import Gxmpp.ReactiveClient

set_option autoImplicit false

namespace Gxmpp

open World Reentrant

/-! ## 1. The modules -/

/-- A registered handler: a module of the repository, or a handler of the application that
only decides whether it takes the stanza. -/
inductive Module where
  | roster (m : XmppRosterModuleImpl)
  | chatroom (m : XmppChatroomModuleImpl)
  | application (handles : XmlElement → Bool)

/-- `XmppModuleImpl::HandleStanza`: the module after it, the stanzas it sends, and the
result. -/
def Module.handleStanza : Module → XmlElement → Module × List XmlElement × Bool
  | .roster m, stanza =>
    let r := m.handleStanza stanza
    (.roster r.module, r.sent, r.result)
  | .chatroom m, stanza =>
    let r := m.handleStanza stanza
    (.chatroom r.module, r.sent, r.result)
  | .application handles, stanza => (.application handles, [], handles stanza)

/-- `XmppIqHandler::IqResponse`. The roster module is the only one that makes requests. -/
def Module.iqResponse : Module → XmlElement → Module
  | .roster m, stanza => .roster (m.iqResponse stanza).1
  | .chatroom m, _ => .chatroom m
  | .application handles, _ => .application handles

/-- The handler objects. -/
abbrev Modules := Handler → Module

/-- One of them is changed. -/
def Modules.set (M : Modules) (h : Handler) (m : Module) : Modules :=
  fun k => if k = h then m else M k

/-- The modules at the callbacks of the engine. -/
def Modules.client : Reactive Modules Stmt Call Bool where
  react M s :=
    match s with
    | .callback (.handleStanza h _ _ stanza) =>
      let r := (M h).handleStanza stanza
      (M.set h r.1, r.2.1.map Call.sendStanza, r.2.2)
    | .callback (.iqResponse entry stanza) =>
      (M.set entry.iq_handler ((M entry.iq_handler).iqResponse stanza), [], false)
    | _ => (M, [], false)

/-! ## 2. The session -/

/-- An engine without a login task, and its modules. -/
structure Session where
  closed : Bool
  handlers : HandlerLevel → List Handler
  entries : List XmppIqEntry
  modules : Modules

/-- Each of the handlers gets the stanza. -/
def Modules.tell (stanza : XmlElement) : Modules → List Handler → Modules × List XmlElement
  | M, [] => (M, [])
  | M, h :: hs =>
    let r := (M h).handleStanza stanza
    let rest := (M.set h r.1).tell stanza hs
    (rest.1, r.2.1 ++ rest.2)

/-- The handlers get the stanza until one of them takes it. -/
def Modules.offer (stanza : XmlElement) :
    Modules → List Handler → Modules × List XmlElement × Bool
  | M, [] => (M, [], false)
  | M, h :: hs =>
    let r := (M h).handleStanza stanza
    if r.2.2 then (M.set h r.1, r.2.1, true)
    else
      let rest := (M.set h r.1).offer stanza hs
      (rest.1, r.2.1 ++ rest.2.1, rest.2.2)

variable {M : Modules} {hs : List Handler} {stanza : XmlElement} {s : Session} {w w' : World}
  {level : HandlerLevel}

theorem offer_taken {h : Handler} (hhandled : ((M h).handleStanza stanza).2.2 = true) :
    M.offer stanza (h :: hs) =
      (M.set h ((M h).handleStanza stanza).1, ((M h).handleStanza stanza).2.1, true) := by
  unfold Modules.offer
  exact if_pos hhandled

theorem offer_left {h : Handler} (hhandled : ¬ ((M h).handleStanza stanza).2.2 = true) :
    M.offer stanza (h :: hs) =
      let rest := (M.set h ((M h).handleStanza stanza).1).offer stanza hs
      (rest.1, ((M h).handleStanza stanza).2.1 ++ rest.2.1, rest.2.2) := by
  rw [Modules.offer]
  exact if_neg hhandled

/-- What the engine sends when nobody took the stanza. -/
def unhandledReply (stanza : XmlElement) : List XmlElement :=
  if stanza.name = QN_IQ
      && !(stanza.attr QN_TYPE = str "error" || stanza.attr QN_TYPE = str "result") then
    [errorReply stanza .featureNotImplemented STR_EMPTY]
  else []

/-- The handlers registered above the peek level, in the order of the dispatch. -/
def above (handlers : HandlerLevel → List Handler) (level : HandlerLevel) : List Handler :=
  level.later.flatMap handlers

namespace Session

/-- A stanza goes to the handlers. -/
def dispatch (s : Session) (stanza : XmlElement) : Session × List XmlElement :=
  let p := s.modules.tell stanza (s.handlers .peek)
  let o := p.1.offer stanza (above s.handlers .peek)
  ({ s with modules := o.1 }, p.2 ++ o.2.1 ++ if o.2.2 then [] else unhandledReply stanza)

/-- The entry a stanza answers. -/
def answered (s : Session) (stanza : XmlElement) : Option XmppIqEntry :=
  if stanza.name = QN_IQ
    && (stanza.attr QN_TYPE = str "result" || stanza.attr QN_TYPE = str "error")
      && stanza.hasAttr QN_ID then
    s.entries.find? fun x => answers x stanza
  else none

/-- The answer to an iq goes to the module that asked. -/
def respond (s : Session) (entry : XmppIqEntry) (stanza : XmlElement) : Session :=
  { s with
    entries := s.entries.eraseP fun x => answers x stanza
    modules := s.modules.set entry.iq_handler ((s.modules entry.iq_handler).iqResponse stanza) }

/-- What the parser reports is treated: the session after it, and the stanzas sent. -/
def receive (s : Session) (ev : StanzaEvent) : Session × List XmlElement :=
  if s.closed then (s, [])
  else
    match ev with
    | .stanza stanza =>
      if stanza.name = QN_STREAM_ERROR then ({ s with closed := true }, [])
      else
        match s.answered stanza with
        | some entry => (s.respond entry stanza, [])
        | none => s.dispatch stanza
    | _ => ({ s with closed := true }, [])

end Session

/-! ## 3. What the engine does meanwhile -/

/-- The engine sends stanzas and does nothing else that matters to the session. -/
structure Passed (w w' : World) (sent : List XmlElement) : Prop where
  state : w'.eng.state = w.eng.state
  error_code : w'.eng.error_code = w.eng.error_code
  raised_reset : w'.eng.raised_reset = w.eng.raised_reset
  login_task : w'.eng.login_task = w.eng.login_task
  stanza_handlers : w'.eng.stanza_handlers = w.eng.stanza_handlers
  iq_entries : w'.eng.iq_entries = w.eng.iq_entries
  stanza_parser_ : w'.eng.stanza_parser_ = w.eng.stanza_parser_
  printed : printed w'.log = printed w.log ++ sent

namespace Passed

variable {u v w : World} {sent sent' : List XmlElement}

theorem refl (w : World) : Passed w w [] :=
  ⟨rfl, rfl, rfl, rfl, rfl, rfl, rfl, (List.append_nil _).symm⟩

theorem trans (h : Passed u v sent) (k : Passed v w sent') : Passed u w (sent ++ sent') where
  state := k.state.trans h.state
  error_code := k.error_code.trans h.error_code
  raised_reset := k.raised_reset.trans h.raised_reset
  login_task := k.login_task.trans h.login_task
  stanza_handlers := k.stanza_handlers.trans h.stanza_handlers
  iq_entries := k.iq_entries.trans h.iq_entries
  stanza_parser_ := k.stanza_parser_.trans h.stanza_parser_
  printed := by rw [k.printed, h.printed, List.append_assoc]

theorem emit (w : World) (ev : Event) (hev : ev.printedStanza = none) : Passed w (w.emit ev) [] :=
  ⟨rfl, rfl, rfl, rfl, rfl, rfl, rfl, by rw [emit_log, printed_append, printed_single, hev]; rfl⟩

/-- A change of the output or of the depth counter. -/
theorem of_log (w w' : World) (hstate : w'.eng.state = w.eng.state)
    (herror : w'.eng.error_code = w.eng.error_code)
    (hraised : w'.eng.raised_reset = w.eng.raised_reset)
    (hlogin : w'.eng.login_task = w.eng.login_task)
    (hhandlers : w'.eng.stanza_handlers = w.eng.stanza_handlers)
    (hentries : w'.eng.iq_entries = w.eng.iq_entries)
    (hparser : w'.eng.stanza_parser_ = w.eng.stanza_parser_) (hlog : w'.log = w.log) :
    Passed w w' [] :=
  ⟨hstate, herror, hraised, hlogin, hhandlers, hentries, hparser,
    by rw [hlog, List.append_nil]⟩

end Passed

/-- The session that an engine and its modules amount to. -/
structure Represents (x : World × Modules) (s : Session) : Prop where
  handlers : x.1.eng.stanza_handlers = s.handlers
  entries : x.1.eng.iq_entries = s.entries
  modules : x.2 = s.modules
  raised_reset : x.1.eng.raised_reset = false
  login_task : x.1.eng.login_task = none
  opened : s.closed = false → x.1.eng.state = .open ∧ x.1.eng.error_code = .none
  closed : s.closed = true → x.1.eng.state = .closed ∧ x.1.eng.error_code ≠ .none

theorem Represents.passed {M' : Modules} {sent : List XmlElement} (h : Represents (w, M) s)
    (hp : Passed w w' sent) : Represents (w', M') { s with modules := M' } where
  handlers := hp.stanza_handlers.trans h.handlers
  entries := hp.iq_entries.trans h.entries
  modules := rfl
  raised_reset := hp.raised_reset.trans h.raised_reset
  login_task := hp.login_task.trans h.login_task
  opened ho := ⟨hp.state.trans (h.opened ho).1, hp.error_code.trans (h.opened ho).2⟩
  closed hc := ⟨hp.state.trans (h.closed hc).1, fun he => (h.closed hc).2 (hp.error_code ▸ he)⟩

/-! ## 4. Scopes and sending -/

/-- The engine with its modules treats the tasks. -/
abbrev Does := Completes engine Modules.client

/-- A handler that is no module calls nothing. -/
theorem callback_does {cb : Callback}
    (hreact : Modules.client.react M (.callback cb) = (M, [], false))
    (hresume : World.resume (.callback cb) false = []) :
    Does (w, M) [.run (.callback cb)] (w, M) := by
  refine Completes.handler (y := (w, M)) rfl hreact (.nil _) ?_
  have hpush : (engine.resume w (.callback cb) false).2 = [] := hresume
  rw [hpush]
  exact .nil _

/-- The end of `~EnterExit`: without a raised reset it only tells the session handler. -/
theorem leaveScope_does (w : World) (M : Modules) (saved : EngineState)
    (hraised : w.eng.raised_reset = false) :
    ∃ w', Passed w w' [] ∧ Does (w, M) [.run (.leaveScope saved)] (w', M) := by
  have hreset : afterReset w = w := by
    rcases afterReset_eq w with h | ⟨h, -⟩
    · exact h
    · rw [hraised] at h
      cases h
  have hexec : engine.exec w (.leaveScope saved) = some (w.leaveScope saved) := rfl
  have hcases := leaveScope_leaving w saved
  generalize w.leaveScope saved = r at hexec hcases
  cases hcases with
  | inner he => exact ⟨w, .refl w, .run rfl hexec (.nil _)⟩
  | notify he hh hs =>
    rw [hreset] at hexec
    exact ⟨_, .emit w _ rfl, .run rfl hexec (callback_does rfl rfl)⟩
  | silent he hn =>
    rw [hreset] at hexec
    exact ⟨w, .refl w, .run rfl hexec (.nil _)⟩

/-- From `WriteOutput` to the end of `~EnterExit`. -/
theorem afterWrite_does (w : World) (M : Modules) (saved : EngineState) (closing : Bool)
    (hraised : w.eng.raised_reset = false) :
    ∃ w', Passed w w' [] ∧ Does (w, M) [.run (.afterWrite saved closing)] (w', M) := by
  by_cases hc : closing = true
  · -- `CloseConnection` is called, and the output handler forgotten
    let v := (w.set { w.eng with output := [] }).emit (.callback .closeConnection)
    let u := v.set { v.eng with output_handler := false }
    have hpassed : Passed w u [] :=
      (Passed.of_log w (w.set { w.eng with output := [] }) rfl rfl rfl rfl rfl rfl rfl rfl).trans
        ((Passed.emit _ (.callback .closeConnection) rfl).trans
          (Passed.of_log v _ rfl rfl rfl rfl rfl rfl rfl rfl))
    obtain ⟨w', hw', hdoes⟩ := leaveScope_does u M saved hraised
    have hafter : Does (v, M) [.run (.afterClose saved)] (w', M) := .run rfl rfl hdoes
    refine ⟨w', hpassed.trans hw', .run (r := (v, [.callback .closeConnection, .afterClose saved]))
      rfl ?_ ((callback_does rfl rfl).append hafter)⟩
    rw [hc]
    rfl
  · have hpassed : Passed w (w.set { w.eng with output := [] }) [] :=
      .of_log w _ rfl rfl rfl rfl rfl rfl rfl rfl
    obtain ⟨w', hw', hdoes⟩ := leaveScope_does (w.set { w.eng with output := [] }) M saved hraised
    refine ⟨w', hpassed.trans hw',
      .run (r := (w.set { w.eng with output := [] }, [.leaveScope saved]))
      rfl ?_ hdoes⟩
    rw [Bool.eq_false_iff.2 hc]
    rfl

/-- `~EnterExit`. -/
theorem exitScope_does (w : World) (M : Modules) (saved : EngineState)
    (hraised : w.eng.raised_reset = false) :
    ∃ w', Passed w w' [] ∧ Does (w, M) [.run (.exitScope saved)] (w', M) := by
  have hleft : Passed w (leftScope w) [] := .of_log w _ rfl rfl rfl rfl rfl rfl rfl rfl
  have hexec : engine.exec w (.exitScope saved) = some (w.exitScope saved) := rfl
  have hcases := exitScope_exiting w saved
  generalize w.exitScope saved = r at hexec hcases
  cases hcases with
  | write ho hf hb =>
    have hwritten := hleft.trans (.emit _ (.callback (.writeOutput w.eng.output)) rfl)
    obtain ⟨w', hw', hdoes⟩ := afterWrite_does _ M saved (closing w saved)
      (hwritten.raised_reset.trans hraised)
    exact ⟨w', hwritten.trans hw', .run rfl hexec ((callback_does rfl rfl).append hdoes)⟩
  | empty ho hf hb =>
    obtain ⟨w', hw', hdoes⟩ := afterWrite_does _ M saved (closing w saved)
      (hleft.raised_reset.trans hraised)
    exact ⟨w', hleft.trans hw', .run rfl hexec hdoes⟩
  | unflushed hn =>
    obtain ⟨w', hw', hdoes⟩ := leaveScope_does _ M saved (hleft.raised_reset.trans hraised)
    exact ⟨w', hleft.trans hw', .run rfl hexec hdoes⟩

/-- What `SendStanza` of an engine without a login task does before its scope ends. -/
theorem sent_passed {v : World} {e : XmlElement} (hlogin : w.eng.login_task = none)
    (h : Sent w e v) : Passed w v [e] := by
  cases h with
  | queued lt hl =>
    rw [hlogin] at hl
    cases hl
  | through hl =>
    refine ⟨rfl, rfl, rfl, rfl, rfl, rfl, rfl, ?_⟩
    have hlog : (((w.emit (.accepted e)).enterExit.emit (.printed e)).internalSendStanza e).log
        = w.log ++ [.accepted e] ++ [.printed e] ++
          [.wrote w.eng.state (XmlPrinter.printXml w.eng.xmlns_stack e).1] := rfl
    rw [hlog]
    simp only [printed_append, printed_single, Event.printedStanza, Option.toList,
      List.append_nil]

/-- The engine is open and sends stanzas straight through. -/
structure Ready (w : World) : Prop where
  state : w.eng.state = .open
  raised_reset : w.eng.raised_reset = false
  login_task : w.eng.login_task = none

theorem Ready.passed {sent : List XmlElement} (h : Ready w) (hp : Passed w w' sent) : Ready w' :=
  ⟨hp.state.trans h.state, hp.raised_reset.trans h.raised_reset, hp.login_task.trans h.login_task⟩

/-- `SendStanza`, up to the end of its scope. -/
theorem send_does (M : Modules) (h : Ready w) (e : XmlElement) :
    ∃ v, Passed w v [e] ∧ (w.sendStanza e) = (v, [.exitScope .open], .ok) ∧
      ∃ w', Passed v w' [] ∧ Does (v, M) [.run (.exitScope .open)] (w', M) := by
  obtain ⟨hc, -⟩ | ⟨-, v, hv, hsend⟩ := sendStanza_cases w e
  · rw [h.state] at hc
    cases hc
  · rw [h.state] at hsend
    have hpassed := sent_passed h.login_task hv
    exact ⟨v, hpassed, hsend, exitScope_does v M .open (hpassed.raised_reset.trans h.raised_reset)⟩

/-- The stanzas a module sends are printed, if the engine is open. -/
theorem sends_does (M : Modules) (sent : List XmlElement) (h : Ready w) :
    ∃ w', Passed w w' sent ∧ Does (w, M) ((sent.map Call.sendStanza).map Task.call) (w', M) := by
  induction sent generalizing w with
  | nil => exact ⟨w, .refl w, .nil _⟩
  | cons e sent ih =>
    let m := Call.sendStanza e
    have hcalled : Passed w (w.emit (.called m)) [] := .emit w _ rfl
    obtain ⟨v, hv, hsend, w₁, hw₁, hexit⟩ := send_does M (h.passed hcalled) e
    have hreturned : Passed w₁ (w₁.emit (.returned m .ok)) [] := .emit w₁ _ rfl
    have hone : Passed w (w₁.emit (.returned m .ok)) [e] :=
      ((hcalled.trans hv).trans hw₁).trans hreturned
    -- the call, from its entry to its return
    have hcall : Does (w, M) [.call m] (w₁.emit (.returned m .ok), M) := by
      refine .enter ?_
      have henter : engine.enter w m = (v, [.exitScope .open, .returned m .ok]) := by
        have heq : engine.enter w m = (((w.emit (.called m)).sendStanza e).1,
          ((w.emit (.called m)).sendStanza e).2.1 ++
            [.returned m ((w.emit (.called m)).sendStanza e).2.2]) := rfl
        rw [heq, hsend]
        rfl
      rw [henter]
      exact hexit.append (.run rfl rfl (.nil _))
    obtain ⟨w', hw', hrest⟩ := ih (h.passed hone)
    exact ⟨w', hone.trans hw', hcall.append hrest⟩

/-! ## 5. The dispatch -/

/-- A handler gets a stanza: it sends its stanzas, and then the dispatch goes on with what
`resume` says. -/
theorem handleStanza_does (h : Ready w) (hd : Handler) (level : HandlerLevel) (i : Nat)
    (stanza : XmlElement) :
    ∃ w', Passed w w' ((M hd).handleStanza stanza).2.1 ∧
      ∀ y, Does (w', M.set hd ((M hd).handleStanza stanza).1)
          ((World.resume (.callback (.handleStanza hd level i stanza))
            ((M hd).handleStanza stanza).2.2).map Task.run) y →
        Does (w.emit (.callback (.handleStanza hd level i stanza)), M)
          [.run (.callback (.handleStanza hd level i stanza))] y := by
  have hcalled : Passed w (w.emit (.callback (.handleStanza hd level i stanza))) [] := .emit w _ rfl
  obtain ⟨w', hw', hcalls⟩ := sends_does (M.set hd ((M hd).handleStanza stanza).1)
    ((M hd).handleStanza stanza).2.1 (h.passed hcalled)
  exact ⟨w', hcalled.trans hw', fun y hy => .handler rfl rfl hcalls hy⟩

/-- The head of what is left of a list, and the rest. -/
theorem drop_cons {α : Type} {l hs : List α} {i : Nat} {x : α} (h : l.drop i = x :: hs) :
    l[i]? = some x ∧ l.drop (i + 1) = hs := by
  rw [← List.head?_drop, ← List.tail_drop, h]
  exact ⟨rfl, rfl⟩

/-- The loop over the peek handlers, from index `i`. -/
theorem peek_does (stanza : XmlElement) (hs : List Handler) (i : Nat) (h : Ready w)
    (hdrop : (w.eng.stanza_handlers .peek).drop i = hs) :
    ∃ w', Passed w w' (M.tell stanza hs).2 ∧
      ∀ y, Does (w', (M.tell stanza hs).1) [.run (.dispatch stanza .single 0)] y →
        Does (w, M) [.run (.peek stanza i)] y := by
  induction hs generalizing i w M with
  | nil =>
    have hnone : (w.eng.stanza_handlers .peek)[i]? = none := by
      rw [← List.head?_drop, hdrop]
      rfl
    refine ⟨w, .refl w, fun y hy => .run (r := (w, [.dispatch stanza .single 0])) rfl ?_ hy⟩
    have hexec : w.peek stanza i = (w, [.dispatch stanza .single 0]) := by
      unfold World.peek
      rw [hnone]
    exact congrArg some hexec
  | cons hd hs ih =>
    obtain ⟨hget, hrest⟩ := drop_cons hdrop
    have hexec : engine.exec w (.peek stanza i)
        = some (w.callOut (.handleStanza hd .peek i stanza) []) := by
      have heq : w.peek stanza i = w.callOut (.handleStanza hd .peek i stanza) [] := by
        unfold World.peek
        rw [hget]
      exact congrArg some heq
    obtain ⟨w₁, hw₁, hgo⟩ := handleStanza_does (M := M) h hd .peek i stanza
    obtain ⟨w', hw', hloop⟩ := ih (i + 1) (M := M.set hd ((M hd).handleStanza stanza).1)
      (h.passed hw₁) (by rw [hw₁.stanza_handlers]; exact hrest)
    exact ⟨w', hw₁.trans hw', fun y hy => .run rfl hexec (hgo y (hloop y hy))⟩

/-- From the task `t` the stanza is offered to the handlers `hs`; if none takes it, the
task `next` follows. -/
def Offering (stanza : XmlElement) (hs : List Handler) (next : Stmt) (x : World × Modules)
    (s : Stmt) : Prop :=
  ∃ w', Passed x.1 w' (x.2.offer stanza hs).2.1 ∧
    ((x.2.offer stanza hs).2.2 = true → Does x [.run s] (w', (x.2.offer stanza hs).1)) ∧
    ((x.2.offer stanza hs).2.2 = false →
      ∀ y, Does (w', (x.2.offer stanza hs).1) [.run next] y → Does x [.run s] y)

theorem resume_above (hlevel : level ≠ .peek) (hd : Handler) (i : Nat) (stanza : XmlElement)
    (handled : Bool) :
    World.resume (.callback (.handleStanza hd level i stanza)) handled
      = if handled then [] else [.dispatch stanza level (i + 1)] := by
  cases level <;> first | rfl | exact absurd rfl hlevel

/-- What follows a level in which nobody took the stanza. -/
def afterLevel (stanza : XmlElement) (level : HandlerLevel) : Stmt :=
  match level.next with
  | some l => .dispatch stanza l 0
  | none => .unhandled stanza

/-- The loop over the handlers of one level, from index `i`. -/
theorem level_offering (stanza : XmlElement) (hlevel : level ≠ .peek) (hs : List Handler)
    (i : Nat) (h : Ready w) (hdrop : (w.eng.stanza_handlers level).drop i = hs) :
    Offering stanza hs (afterLevel stanza level) (w, M) (.dispatch stanza level i) := by
  induction hs generalizing i w M with
  | nil =>
    have hnone : (w.eng.stanza_handlers level)[i]? = none := by
      rw [← List.head?_drop, hdrop]
      rfl
    have hexec : engine.exec w (.dispatch stanza level i)
        = some (w, [afterLevel stanza level]) := by
      have heq : w.dispatch stanza level i = (w, [afterLevel stanza level]) := by
        unfold World.dispatch afterLevel
        rw [hnone]
        cases level.next <;> rfl
      exact congrArg some heq
    exact ⟨w, .refl w, fun ht => absurd ht Bool.false_ne_true, fun _ y hy => .run rfl hexec hy⟩
  | cons hd hs ih =>
    obtain ⟨hget, hrest⟩ := drop_cons hdrop
    have hexec : engine.exec w (.dispatch stanza level i)
        = some (w.callOut (.handleStanza hd level i stanza) []) := by
      have heq : w.dispatch stanza level i = w.callOut (.handleStanza hd level i stanza) [] := by
        unfold World.dispatch
        rw [hget]
      exact congrArg some heq
    obtain ⟨w₁, hw₁, hgo⟩ := handleStanza_does (M := M) h hd level i stanza
    rw [resume_above hlevel] at hgo
    unfold Offering
    dsimp only
    by_cases hhandled : ((M hd).handleStanza stanza).2.2 = true
    · rw [if_pos hhandled] at hgo
      rw [offer_taken hhandled]
      exact ⟨w₁, hw₁, fun _ => .run rfl hexec (hgo _ (.nil _)),
        fun hf => absurd hf.symm Bool.false_ne_true⟩
    · rw [if_neg hhandled] at hgo
      rw [offer_left hhandled]
      obtain ⟨w', hw', htaken, hleft⟩ := ih (i + 1)
        (M := M.set hd ((M hd).handleStanza stanza).1) (h.passed hw₁)
        (by rw [hw₁.stanza_handlers]; exact hrest)
      exact ⟨w', hw₁.trans hw', fun ht => .run rfl hexec (hgo _ (htaken ht)),
        fun hf y hy => .run rfl hexec (hgo y (hleft hf y hy))⟩

theorem offer_append (stanza : XmlElement) (M : Modules) (hs hs' : List Handler) :
    M.offer stanza (hs ++ hs') =
      if (M.offer stanza hs).2.2 then M.offer stanza hs
      else
        let rest := (M.offer stanza hs).1.offer stanza hs'
        (rest.1, (M.offer stanza hs).2.1 ++ rest.2.1, rest.2.2) := by
  induction hs generalizing M with
  | nil => rfl
  | cons hd hs ih =>
    rw [List.cons_append]
    by_cases hhandled : ((M hd).handleStanza stanza).2.2 = true
    · rw [offer_taken hhandled, offer_taken hhandled, if_pos rfl]
    · rw [offer_left hhandled, offer_left hhandled, ih]
      dsimp only
      split
      · rfl
      · rw [List.append_assoc]

/-- One offer after the other. -/
theorem Offering.trans {hs' : List Handler} {x : World × Modules} {s s' s'' : Stmt}
    (hx : Ready x.1) (h : Offering stanza hs s' x s)
    (k : ∀ w' M', Ready w' → w'.eng.stanza_handlers = x.1.eng.stanza_handlers →
      Offering stanza hs' s'' (w', M') s') : Offering stanza (hs ++ hs') s'' x s := by
  obtain ⟨w₁, hw₁, htaken, hleft⟩ := h
  unfold Offering
  rw [offer_append]
  by_cases hhandled : (x.2.offer stanza hs).2.2 = true
  · rw [if_pos hhandled]
    exact ⟨w₁, hw₁, htaken, fun hf => absurd (hf.symm.trans hhandled) Bool.false_ne_true⟩
  · rw [if_neg hhandled]
    have hfalse := Bool.eq_false_iff.2 hhandled
    obtain ⟨w', hw', htaken', hleft'⟩ :=
      k w₁ (x.2.offer stanza hs).1 (hx.passed hw₁) hw₁.stanza_handlers
    exact ⟨w', hw₁.trans hw', fun ht => hleft hfalse _ (htaken' ht),
      fun hf y hy => hleft hfalse y (hleft' hf y hy)⟩

/-- A level and those after it. -/
theorem levels_offering (stanza : XmlElement) (hlevel : level ≠ .peek) (hnone : level ≠ .none)
    (h : Ready w) :
    Offering stanza (w.eng.stanza_handlers level ++ above w.eng.stanza_handlers level)
      (.unhandled stanza) (w, M) (.dispatch stanza level 0) := by
  have hone : ∀ (l : HandlerLevel) (w : World) (M : Modules), l ≠ .peek → Ready w →
      Offering stanza (w.eng.stanza_handlers l) (afterLevel stanza l) (w, M)
        (.dispatch stanza l 0) :=
    fun l w M hl hw => level_offering stanza hl _ 0 hw List.drop_zero
  -- the levels from the last one down
  have hall : ∀ (w : World) (M : Modules), Ready w →
      Offering stanza (w.eng.stanza_handlers .all ++ above w.eng.stanza_handlers .all)
        (.unhandled stanza) (w, M) (.dispatch stanza .all 0) := by
    intro w M hw
    rw [show above w.eng.stanza_handlers .all = [] from rfl, List.append_nil]
    exact hone .all w M (by decide) hw
  have hstep : ∀ (l l' : HandlerLevel), l.next = some l' → l ≠ .peek →
      (∀ (w : World) (M : Modules), Ready w →
        Offering stanza (w.eng.stanza_handlers l' ++ above w.eng.stanza_handlers l')
          (.unhandled stanza) (w, M) (.dispatch stanza l' 0)) →
      ∀ (w : World) (M : Modules), Ready w →
        Offering stanza (w.eng.stanza_handlers l ++ above w.eng.stanza_handlers l)
          (.unhandled stanza) (w, M) (.dispatch stanza l 0) := by
    intro l l' hnext hl hlater w M hw
    have hafter : afterLevel stanza l = .dispatch stanza l' 0 := by
      unfold afterLevel
      rw [hnext]
    have habove : above w.eng.stanza_handlers l
        = w.eng.stanza_handlers l' ++ above w.eng.stanza_handlers l' := by
      unfold above
      rw [later_next hnext, List.flatMap_cons]
    rw [habove]
    refine Offering.trans hw (hafter ▸ hone l w M hl hw) fun w' M' hw' heq => ?_
    rw [← heq]
    exact hlater w' M' hw'
  have htype := hstep .type .all rfl (by decide) hall
  have hsender := hstep .sender .type rfl (by decide) htype
  cases level with
  | none => exact absurd rfl hnone
  | peek => exact absurd rfl hlevel
  | single => exact hstep .single .sender rfl (by decide) hsender w M h
  | sender => exact hsender w M h
  | type => exact htype w M h
  | all => exact hall w M h

/-- The end of `IncomingStanza`. -/
theorem unhandled_does (stanza : XmlElement) (M : Modules) (h : Ready w) :
    ∃ w', Passed w w' (unhandledReply stanza) ∧ Does (w, M) [.run (.unhandled stanza)] (w', M) := by
  have hexec : engine.exec w (.unhandled stanza) = some (w.unhandled stanza) := rfl
  unfold unhandledReply
  by_cases hreply : (stanza.name = QN_IQ
      && !(stanza.attr QN_TYPE = str "error" || stanza.attr QN_TYPE = str "result")) = true
  · rw [if_pos hreply]
    obtain ⟨v, hv, hsend, w', hw', hexit⟩ :=
      send_does M h (errorReply stanza .featureNotImplemented STR_EMPTY)
    have heq : w.unhandled stanza = (v, [.exitScope .open]) := by
      have hc : ¬ w.eng.state = .closed := by
        rw [h.state]
        decide
      unfold World.unhandled World.sendStanzaError
      rw [if_pos hreply, if_neg hc, hsend]
    rw [heq] at hexec
    refine ⟨w', ?_, .run rfl hexec hexit⟩
    exact hv.trans hw'
  · rw [if_neg hreply]
    have heq : w.unhandled stanza = (w, []) := by
      unfold World.unhandled
      rw [if_neg hreply]
    rw [heq] at hexec
    exact ⟨w, .refl w, .run rfl hexec (.nil _)⟩

/-- A stanza for the handlers. -/
theorem dispatch_does (s : Session) (stanza : XmlElement) (h : Ready w)
    (hhandlers : w.eng.stanza_handlers = s.handlers) :
    ∃ w', Passed w w' (s.dispatch stanza).2 ∧
      Does (w, s.modules) [.run (.peek stanza 0)] (w', (s.dispatch stanza).1.modules) := by
  let p := s.modules.tell stanza (s.handlers .peek)
  obtain ⟨w₁, hw₁, hpeek⟩ := peek_does (M := s.modules) stanza (s.handlers .peek) 0 h
    (by rw [hhandlers, List.drop_zero])
  have hready₁ : Ready w₁ := h.passed hw₁
  obtain ⟨w₂, hw₂, htaken, hleft⟩ := levels_offering (M := p.1) stanza
    (show HandlerLevel.single ≠ .peek by decide) (by decide) hready₁
  have hlevels : w₁.eng.stanza_handlers .single ++ above w₁.eng.stanza_handlers .single
      = above s.handlers .peek := by
    rw [hw₁.stanza_handlers, hhandlers]
    rfl
  rw [hlevels] at hw₂ htaken hleft
  unfold Session.dispatch
  dsimp only
  by_cases hhandled : (p.1.offer stanza (above s.handlers .peek)).2.2 = true
  · rw [if_pos hhandled, List.append_nil]
    exact ⟨w₂, hw₁.trans hw₂, hpeek _ (htaken hhandled)⟩
  · rw [if_neg hhandled]
    obtain ⟨w₃, hw₃, hunhandled⟩ := unhandled_does stanza
      (p.1.offer stanza (above s.handlers .peek)).1 (hready₁.passed hw₂)
    exact ⟨w₃, (hw₁.trans hw₂).trans hw₃,
      hpeek _ (hleft (Bool.eq_false_iff.2 hhandled) _ hunhandled)⟩

/-! ## 6. What the parser reports -/

theorem handleIqResponse_eq (hentries : w.eng.iq_entries = s.entries) (stanza : XmlElement) :
    w.handleIqResponse stanza = (s.answered stanza).map fun entry =>
      (w.set { w.eng with iq_entries := w.eng.iq_entries.eraseP fun x => answers x stanza }).callOut
        (.iqResponse entry stanza) [.deleteEntry entry] := by
  unfold World.handleIqResponse Session.answered
  rw [hentries]
  by_cases hempty : s.entries = []
  · simp [hempty]
  · have hnonempty : ¬ s.entries.isEmpty = true := by
      rw [List.isEmpty_iff]
      exact hempty
    rw [if_neg hnonempty]
    by_cases hname : stanza.name = QN_IQ
    · by_cases hresult : stanza.attr QN_TYPE = str "result"
      · by_cases hid : stanza.hasAttr QN_ID = true
        · simp only [hname, hresult, hid]
          cases s.entries.find? fun x => answers x stanza <;> rfl
        · simp [hname, hresult, hid]
      · by_cases herror : stanza.attr QN_TYPE = str "error"
        · by_cases hid : stanza.hasAttr QN_ID = true
          · simp only [hname, herror, hid]
            cases s.entries.find? fun x => answers x stanza <;> rfl
          · simp [hname, herror, hid]
        · simp [hname, hresult, herror]
    · simp [hname]

theorem Represents.ready (h : Represents (w, M) s) (ho : s.closed = false) : Ready w :=
  ⟨(h.opened ho).1, h.raised_reset, h.login_task⟩

theorem Represents.blocked (h : Represents (w, M) s) : w.blocked = s.closed := by
  unfold World.blocked World.hasError
  rw [h.raised_reset, Bool.or_false]
  by_cases hc : s.closed = true
  · rw [hc]
    exact decide_eq_true (h.closed hc).2
  · have ho := Bool.eq_false_iff.2 hc
    rw [ho, (h.opened ho).2]
    rfl

/-- An open engine that closes with an error. -/
theorem Represents.fails (h : Represents (w, M) s)
    (hhandlers : w'.eng.stanza_handlers = w.eng.stanza_handlers)
    (hentries : w'.eng.iq_entries = w.eng.iq_entries)
    (hraised : w'.eng.raised_reset = w.eng.raised_reset)
    (hlogin : w'.eng.login_task = w.eng.login_task) (hstate : w'.eng.state = .closed)
    (herror : w'.eng.error_code ≠ .none) : Represents (w', M) { s with closed := true } where
  handlers := hhandlers.trans h.handlers
  entries := hentries.trans h.entries
  modules := h.modules
  raised_reset := hraised.trans h.raised_reset
  login_task := hlogin.trans h.login_task
  opened ho := absurd ho.symm Bool.false_ne_true
  closed _ := ⟨hstate, herror⟩

/-- What the engine makes of what the parser reports is what the session makes of it. -/
theorem incoming_represents (h : Represents (w, M) s) (ev : StanzaEvent) :
    ∃ x, Does (w, M) [.run (.incoming ev)] x ∧ Represents x (s.receive ev).1 ∧
      printed x.1.log = printed w.log ++ (s.receive ev).2 ∧
      x.1.eng.stanza_parser_ = w.eng.stanza_parser_ := by
  obtain rfl : M = s.modules := h.modules
  have hexec : engine.exec w (.incoming ev) = some (w.incoming ev) := rfl
  unfold World.incoming at hexec
  rw [h.blocked] at hexec
  unfold Session.receive
  by_cases hc : s.closed = true
  · rw [if_pos hc] at hexec ⊢
    exact ⟨_, .run rfl hexec (.nil _), h, (List.append_nil _).symm, rfl⟩
  -- the session is open, so the guard of the engine lets the report through
  · rw [if_neg hc] at hexec ⊢
    have hready := h.ready (Bool.eq_false_iff.2 hc)
    have hparsed : Passed w (w.emit (.parsed ev)) [] := .emit w _ rfl
    -- an error closes the engine
    have hfails : ∀ v code, Passed w v [] → code ≠ .none →
        engine.exec w (.incoming ev) = some (v.signalError code 0, []) →
        ∃ x, Does (w, s.modules) [.run (.incoming ev)] x ∧
          Represents x { s with closed := true } ∧ printed x.1.log = printed w.log ++ [] ∧
          x.1.eng.stanza_parser_ = w.eng.stanza_parser_ := by
      intro v code hv hcode hexec
      have hopen : v.eng.state ≠ .closed := by
        rw [hv.state, hready.state]
        decide
      unfold World.signalError at hexec
      rw [if_pos hopen] at hexec
      exact ⟨_, .run rfl hexec (.nil _), h.fails hv.stanza_handlers hv.iq_entries hv.raised_reset
        hv.login_task rfl hcode, hv.printed, hv.stanza_parser_⟩
    cases ev with
    | startStream start =>
      refine hfails _ .xml hparsed (by decide) (hexec.trans ?_)
      dsimp only
      unfold World.incomingStart
      rw [emit_eng, h.login_task]
    | endStream => exact hfails _ .documentClosed hparsed (by decide) hexec
    | xmlError => exact hfails _ .xml hparsed (by decide) hexec
    | stanza stanza =>
      dsimp only at hexec ⊢
      unfold World.incomingStanza at hexec
      by_cases hname : stanza.name = QN_STREAM_ERROR
      · rw [if_pos hname] at hexec ⊢
        have hopen : (w.emit (.parsed (.stanza stanza))).eng.state ≠ .closed := by
          rw [emit_eng, hready.state]
          decide
        unfold World.signalStreamError at hexec
        rw [if_pos hopen] at hexec
        refine hfails _ .stream ?_ (by decide) hexec
        exact hparsed.trans (.of_log _ _ rfl rfl rfl rfl rfl rfl rfl rfl)
      · rw [if_neg hname] at hexec ⊢
        have hlogin : (w.emit (.parsed (.stanza stanza))).eng.login_task = none := h.login_task
        rw [hlogin] at hexec
        dsimp only at hexec
        rw [handleIqResponse_eq (w := w.emit (.parsed (.stanza stanza))) h.entries] at hexec
        cases hanswered : s.answered stanza with
        | some entry =>
          rw [hanswered] at hexec
          let cb := Callback.iqResponse entry stanza
          let v := (w.emit (.parsed (.stanza stanza))).set { w.eng with
            iq_entries := w.eng.iq_entries.eraseP fun x => answers x stanza }
          -- the reply goes to the module that asked, and its entry is deleted after it
          have hanswer : Does (v.emit (.callback cb), s.modules) [.run (.callback cb)]
              (v.emit (.callback cb), (s.respond entry stanza).modules) :=
            .handler rfl rfl (.nil _) (.nil _)
          have hfreed : Does (v.emit (.callback cb), (s.respond entry stanza).modules)
              [.run (.deleteEntry entry)]
              ((v.emit (.callback cb)).emit (.iqFreed entry),
                (s.respond entry stanza).modules) :=
            .run rfl rfl (.nil _)
          refine ⟨_, .run rfl hexec (hanswer.append hfreed), ?_, ?_, rfl⟩
          · exact ⟨h.handlers, congrArg _ h.entries, rfl, h.raised_reset, h.login_task,
              h.opened, h.closed⟩
          · have hcalled := (hparsed.trans (.emit _ (.callback cb) rfl)).trans
              (.emit _ (.iqFreed entry) rfl)
            exact hcalled.printed
        | none =>
          rw [hanswered] at hexec
          obtain ⟨w', hw', hdoes⟩ := dispatch_does s stanza (hready.passed hparsed) h.handlers
          have hpassed := hparsed.trans hw'
          exact ⟨_, .run rfl hexec hdoes, h.passed hpassed, hpassed.printed,
            hpassed.stanza_parser_⟩

/-! ## 7. Input -/

namespace XmppStanzaParser

/-- The parser after the callbacks of one `XML_Parse`, and what it reports. -/
def feed : XmppStanzaParser → List ExpatEvent → XmppStanzaParser × List StanzaEvent
  | p, [] => (p, [])
  | p, ev :: events =>
    let r := p.expatEvent ev
    let rest := feed r.1 events
    (rest.1, r.2.toList ++ rest.2)

/-- The same for the rest of `XmlParser::Parse`. -/
def finish (p : XmppStanzaParser) (events : List ExpatEvent) (status : XmlErrorCode) :
    XmppStanzaParser × List StanzaEvent :=
  let r := p.feed events
  let e := r.1.parseReturned status
  (e.1, r.2 ++ if e.2 then [.xmlError] else [])

/-- `XmppStanzaParser::Parse` for one buffer. -/
def input (p : XmppStanzaParser) (events : List ExpatEvent) (status : XmlErrorCode) :
    XmppStanzaParser × List StanzaEvent :=
  if p.sentError then (p, []) else finish { p with expatUsed := true } events status

/-- What a sequence of buffers makes the parser report. -/
def reports : XmppStanzaParser → List (List ExpatEvent × XmlErrorCode) → List StanzaEvent
  | _, [] => []
  | p, i :: inputs => (p.input i.1 i.2).2 ++ reports (p.input i.1 i.2).1 inputs

end XmppStanzaParser

namespace Session

/-- The session after several reports, and the stanzas sent. -/
def receiveAll : Session → List StanzaEvent → Session × List XmlElement
  | s, [] => (s, [])
  | s, ev :: evs =>
    let r := s.receive ev
    let rest := receiveAll r.1 evs
    (rest.1, r.2 ++ rest.2)

theorem receiveAll_append (s : Session) (l m : List StanzaEvent) :
    s.receiveAll (l ++ m) = (((s.receiveAll l).1.receiveAll m).1,
      (s.receiveAll l).2 ++ ((s.receiveAll l).1.receiveAll m).2) := by
  induction l generalizing s with
  | nil => rfl
  | cons ev l ih =>
    rw [List.cons_append]
    simp only [receiveAll, ih, List.append_assoc]

theorem receiveAll_single (s : Session) (ev : StanzaEvent) : s.receiveAll [ev] = s.receive ev := by
  simp only [receiveAll, List.append_nil]

theorem receiveAll_closed {s : Session} (h : s.closed = true) (l : List StanzaEvent) :
    s.receiveAll l = (s, []) := by
  induction l with
  | nil => rfl
  | cons ev l ih =>
    have hone : s.receive ev = (s, []) := by
      unfold receive
      rw [if_pos h]
    simp only [receiveAll, hone, ih, List.append_nil]

end Session

/-- The parser is no part of the session. -/
theorem Represents.withParser (h : Represents (w, M) s) (q : XmppStanzaParser) :
    Represents (w.set { w.eng with stanza_parser_ := q }, M) s :=
  { h with }

/-- `XML_Parse` goes on: the engine gets each report where the parser makes it. -/
theorem parse_represents (events : List ExpatEvent) (status : XmlErrorCode)
    (h : Represents (w, M) s) :
    ∃ x, Does (w, M) [.run (.parse events status)] x ∧
      Represents x (s.receiveAll (w.eng.stanza_parser_.finish events status).2).1 ∧
      printed x.1.log
        = printed w.log ++ (s.receiveAll (w.eng.stanza_parser_.finish events status).2).2 ∧
      x.1.eng.stanza_parser_ = (w.eng.stanza_parser_.finish events status).1 := by
  induction events generalizing w M s with
  | nil =>
    let e := w.eng.stanza_parser_.parseReturned status
    have hexec : engine.exec w (.parse [] status) = some (
      w.set { w.eng with stanza_parser_ := e.1 },
      if e.2 then [.incoming .xmlError] else []) := rfl
    have hfinish : w.eng.stanza_parser_.finish [] status
        = (e.1, if e.2 then [.xmlError] else []) := rfl
    rw [hfinish]
    by_cases hreported : e.2 = true
    · rw [if_pos hreported] at hexec ⊢
      obtain ⟨x, hdoes, hx, hprinted, hparser⟩ := incoming_represents (h.withParser e.1) .xmlError
      rw [Session.receiveAll_single]
      exact ⟨x, .run rfl hexec hdoes, hx, hprinted, hparser⟩
    · rw [if_neg hreported] at hexec ⊢
      exact ⟨_, .run rfl hexec (.nil _), h.withParser e.1, (List.append_nil _).symm, rfl⟩
  | cons ev events ih =>
    let r := w.eng.stanza_parser_.expatEvent ev
    have hexec : engine.exec w (.parse (ev :: events) status)
        = some (w.set { w.eng with stanza_parser_ := r.1 },
          (r.2.map Stmt.incoming).toList ++ [.parse events status]) := rfl
    have hfinish : w.eng.stanza_parser_.finish (ev :: events) status
        = ((r.1.finish events status).1, r.2.toList ++ (r.1.finish events status).2) :=
      congrArg (Prod.mk _) (List.append_assoc _ _ _)
    rw [hfinish]
    cases hreport : r.2 with
    | none =>
      rw [hreport] at hexec
      obtain ⟨x, hdoes, hx, hprinted, hparser⟩ := ih (h.withParser r.1)
      exact ⟨x, .run rfl hexec hdoes, hx, hprinted, hparser⟩
    | some report =>
      rw [hreport] at hexec
      obtain ⟨y, hone, hy, hprinted, hparser⟩ := incoming_represents (h.withParser r.1) report
      obtain ⟨x, hdoes, hx, hprinted', hparser'⟩ := ih hy
      have hparser₀ : y.1.eng.stanza_parser_ = r.1 := hparser
      rw [hparser₀] at hx hprinted' hparser'
      refine ⟨x, .run rfl hexec (hone.append hdoes), ?_, ?_, hparser'⟩
      · rw [Option.toList_some, Session.receiveAll_append, Session.receiveAll_single]
        exact hx
      · rw [Option.toList_some, Session.receiveAll_append, Session.receiveAll_single, hprinted',
          hprinted]
        exact List.append_assoc _ _ _

/-- `HandleInput` is the session receiving what the parser reports. -/
theorem handleInput_represents (events : List ExpatEvent) (status : XmlErrorCode)
    {p : XmppStanzaParser} (h : Represents (w, M) s)
    (hp : s.closed = false → w.eng.stanza_parser_ = p) :
    ∃ x, Does (w, M) [.call (.handleInput events status)] x ∧
      Represents x (s.receiveAll (p.input events status).2).1 ∧
      ((s.receiveAll (p.input events status).2).1.closed = false →
        x.1.eng.stanza_parser_ = (p.input events status).1) := by
  obtain rfl : M = s.modules := h.modules
  let m := Call.handleInput events status
  have hreturns : ∀ (v : World) (M : Modules) (st : XmppReturnStatus),
      Does (v, M) [.run (.returned m st)] (v.emit (.returned m st), M) :=
    fun v M st => .run rfl rfl (.nil _)
  have henter : engine.enter w m = (w.emit (.called m)).handleInput events status := rfl
  unfold World.handleInput at henter
  dsimp only at henter
  by_cases hc : s.closed = true
  · -- a closed engine takes no input
    have hstate : ((w.emit (.called m)).eng.state.rank < EngineState.opening.rank ||
        (w.emit (.called m)).eng.state.rank > EngineState.open.rank) = true := by
      rw [emit_eng, (h.closed hc).1]
      rfl
    rw [if_pos hstate] at henter
    rw [Session.receiveAll_closed hc]
    have hpassed : Passed w ((w.emit (.called m)).emit (.returned m .badState)) [] :=
      (Passed.emit w _ rfl).trans (.emit _ _ rfl)
    refine ⟨_, .enter ?_, h.passed hpassed, fun ho => absurd (ho.symm.trans hc) Bool.false_ne_true⟩
    rw [henter]
    exact hreturns _ _ .badState
  · have ho := Bool.eq_false_iff.2 hc
    have hstate : ¬ ((w.emit (.called m)).eng.state.rank < EngineState.opening.rank ||
        (w.emit (.called m)).eng.state.rank > EngineState.open.rank) = true := by
      rw [emit_eng, (h.opened ho).1]
      decide
    rw [if_neg hstate] at henter
    have hparser : (w.emit (.called m)).enterExit.eng.stanza_parser_ = p := hp ho
    have hentered : Represents ((w.emit (.called m)).enterExit, s.modules) s :=
      { h with }
    -- the end of the scope, and the return
    have hends : ∀ {x : World × Modules} {t : Session} (saved : EngineState), Represents x t →
        ∃ w', Passed x.1 w' [] ∧
          Does x [.run (.exitScope saved), .run (.returned m .ok)] (w', x.2) := by
      intro x t saved hx
      obtain ⟨v, hv, hexit⟩ := exitScope_does x.1 x.2 saved hx.raised_reset
      exact ⟨_, hv.trans (.emit v (.returned m .ok) rfl), hexit.append (hreturns v x.2 .ok)⟩
    unfold XmppStanzaParser.input
    rw [hparser] at henter
    -- a parser that failed is not asked again
    by_cases hsent : p.sentError = true
    · rw [if_pos hsent] at henter ⊢
      obtain ⟨w', hw', hdoes⟩ := hends (w.emit (.called m)).eng.state hentered
      refine ⟨_, .enter ?_, hentered.passed hw', fun _ => ?_⟩
      · rw [henter]
        exact hdoes
      · exact hw'.stanza_parser_.trans hparser
    · rw [if_neg hsent] at henter ⊢
      let v := (w.emit (.called m)).enterExit.set
        { (w.emit (.called m)).enterExit.eng with stanza_parser_ := { p with expatUsed := true } }
      have hused : Represents (v, s.modules) s := hentered.withParser { p with expatUsed := true }
      obtain ⟨x, hparse, hx, -, hfinished⟩ := parse_represents events status hused
      obtain ⟨w', hw', hdoes⟩ := hends (w.emit (.called m)).eng.state hx
      refine ⟨(w', x.2), .enter ?_, ?_, fun _ => hw'.stanza_parser_.trans hfinished⟩
      · rw [henter]
        exact hparse.append hdoes
      · obtain ⟨w₁, M₁⟩ := x
        obtain rfl := hx.modules
        exact hx.passed hw'

/-- A sequence of buffers. -/
theorem inputs_represent (inputs : List (List ExpatEvent × XmlErrorCode)) {p : XmppStanzaParser}
    (h : Represents (w, M) s) (hp : s.closed = false → w.eng.stanza_parser_ = p) :
    ∃ x, Does (w, M) (inputs.map fun i => Task.call (.handleInput i.1 i.2)) x ∧
      Represents x (s.receiveAll (p.reports inputs)).1 := by
  induction inputs generalizing w M s p with
  | nil => exact ⟨(w, M), .nil _, h⟩
  | cons i inputs ih =>
    obtain ⟨y, hone, hy, hparser⟩ := handleInput_represents i.1 i.2 h hp
    obtain ⟨x, hrest, hx⟩ := ih hy hparser
    refine ⟨x, hone.append hrest, ?_⟩
    unfold XmppStanzaParser.reports
    rw [Session.receiveAll_append]
    exact hx

/-! ## 8. The session of a run -/

/-- The session of an open engine. -/
def sessionOf (w : World) (M : Modules) : Session :=
  ⟨false, w.eng.stanza_handlers, w.eng.iq_entries, M⟩

/-- Wherever a run has an open engine, in no round of the login task, there is a session. -/
theorem open_represents {c : Conf} (M : Modules) (h : Reachable c)
    (hhead : ∀ s, c.control.head? = some s → s.atWork = false) (hopen : c.state.eng.state = .open) :
    Represents (c.state, M) (sessionOf c.state M) := by
  obtain ⟨herror, hraised, hlogin⟩ := open_unguarded h hhead hopen
  exact ⟨rfl, rfl, rfl, hraised, hlogin, fun _ => ⟨hopen, herror⟩, fun hc => (nomatch hc)⟩

end Gxmpp
