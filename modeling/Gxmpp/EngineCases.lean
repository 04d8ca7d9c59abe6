/-
The ways through the engine's functions.

`Incoming` lists what `IncomingStart`, `IncomingStanza` and `IncomingEnd` can do
with what the parser reports, `Entry` what the entry of a public function can do.
Each comes with the theorem that the list is complete. As with `Round`, the
properties of the engine are proved over these lists.
-/
import Gxmpp.LoginRound

set_option autoImplicit false

namespace Gxmpp

open World

/-! ## `~EnterExit` -/

/-- `closing`, for the state saved by the constructor. -/
def closing (w : World) (saved : EngineState) : Bool :=
  w.eng.state ≠ saved && w.eng.state = .closed

theorem closing_iff (w : World) (saved : EngineState) :
    closing w saved = true ↔ w.eng.state ≠ saved ∧ w.eng.state = .closed := by
  simp [closing]

/-- The world once the depth counter has gone down. -/
def leftScope (w : World) : World :=
  w.set { w.eng with engine_entered := w.eng.engine_entered - 1 }

/-- The ways through the flush, up to the call of `WriteOutput`. -/
inductive Exiting (w : World) (saved : EngineState) : World × List Stmt → Prop where
  /-- the output is written -/
  | write (ho : w.eng.output_handler = true)
      (hf : closing w saved = true ∨ w.eng.engine_entered - 1 = 0) (hb : w.eng.output ≠ []) :
      Exiting w saved ((leftScope w).callOut (.writeOutput w.eng.output)
        [.afterWrite saved (closing w saved)])
  /-- there is nothing to write -/
  | empty (ho : w.eng.output_handler = true)
      (hf : closing w saved = true ∨ w.eng.engine_entered - 1 = 0) (hb : w.eng.output = []) :
      Exiting w saved (leftScope w, [.afterWrite saved (closing w saved)])
  /-- no flush here -/
  | unflushed (hn : w.eng.output_handler = false ∨
      (closing w saved = false ∧ w.eng.engine_entered - 1 ≠ 0)) :
      Exiting w saved (leftScope w, [.leaveScope saved])

theorem exitScope_exiting (w : World) (saved : EngineState) :
    Exiting w saved (w.exitScope saved) := by
  have heq : w.exitScope saved =
      if (w.eng.output_handler && (closing w saved || w.eng.engine_entered - 1 = 0)) = true then
        if w.eng.output.length > 0 then
          (leftScope w).callOut (.writeOutput w.eng.output) [.afterWrite saved (closing w saved)]
        else (leftScope w, [.afterWrite saved (closing w saved)])
      else (leftScope w, [.leaveScope saved]) := rfl
  rw [heq]
  split
  · rename_i hf
    simp only [Bool.and_eq_true, Bool.or_eq_true, decide_eq_true_eq] at hf
    split
    · rename_i hlen
      exact .write hf.1 hf.2 (List.ne_nil_of_length_pos hlen)
    · rename_i hlen
      exact .empty hf.1 hf.2 (by simpa using hlen)
  · rename_i hf
    refine .unflushed ?_
    cases ho : w.eng.output_handler with
    | false => exact .inl rfl
    | true => exact .inr (by simpa [ho] using hf)

/-- The world once a parser reset has been carried out. -/
def afterReset (w : World) : World :=
  if w.eng.raised_reset then w.set { w.eng with stanza_parser_ := .init, raised_reset := false }
  else w

/-- The ways through the end of `~EnterExit`. -/
inductive Leaving (w : World) (saved : EngineState) : World × List Stmt → Prop where
  /-- an outer scope is open -/
  | inner (he : w.eng.engine_entered ≠ 0) : Leaving w saved (w, [])
  /-- the session handler is told the new state -/
  | notify (he : w.eng.engine_entered = 0) (hh : w.eng.session_handler = true)
      (hs : w.eng.state ≠ saved) :
      Leaving w saved ((afterReset w).callOut (.onStateChange w.eng.state) [])
  /-- there is nothing to tell, or nobody -/
  | silent (he : w.eng.engine_entered = 0)
      (hn : w.eng.session_handler = false ∨ w.eng.state = saved) :
      Leaving w saved (afterReset w, [])

theorem afterReset_eq (w : World) : afterReset w = w ∨
    (w.eng.raised_reset = true ∧
      afterReset w = w.set { w.eng with stanza_parser_ := .init, raised_reset := false }) := by
  rw [afterReset]
  split
  · exact .inr ⟨by assumption, rfl⟩
  · exact .inl rfl

theorem leaveScope_leaving (w : World) (saved : EngineState) :
    Leaving w saved (w.leaveScope saved) := by
  rw [leaveScope]
  split
  · exact .inner (by assumption)
  · rename_i he
    have hs : (afterReset w).eng.session_handler = w.eng.session_handler := by
      rcases afterReset_eq w with h | ⟨-, h⟩ <;> rw [h]
      rfl
    have ht : (afterReset w).eng.state = w.eng.state := by
      rcases afterReset_eq w with h | ⟨-, h⟩ <;> rw [h]
      rfl
    have heq : ∀ v : World, v = afterReset w →
        Leaving w saved (if (v.eng.session_handler && v.eng.state ≠ saved) = true then
          v.callOut (.onStateChange v.eng.state) [] else (v, [])) := by
      rintro v rfl
      rw [hs, ht]
      split
      · rename_i hn
        simp only [ne_eq, decide_not, Bool.and_eq_true, Bool.not_eq_true',
          decide_eq_false_iff_not] at hn
        exact .notify (by simpa using he) hn.1 hn.2
      · rename_i hn
        refine .silent (by simpa using he) ?_
        cases hse : w.eng.session_handler with
        | false => exact .inl rfl
        | true => exact .inr (by simpa [hse] using hn)
    exact heq _ rfl

/-! ## Sending -/

/-- The events of `SendStanza`. -/
def Event.bySend : Event → Bool
  | .accepted _ | .printed _ | .wrote _ _ => true
  | _ => false

/-- What sending a stanza leaves alone. -/
structure SendFrame (w w' : World) : Prop where
  state : w'.eng.state = w.eng.state
  error_code : w'.eng.error_code = w.eng.error_code
  output_handler : w'.eng.output_handler = w.eng.output_handler
  session_handler : w'.eng.session_handler = w.eng.session_handler
  stanza_parser_ : w'.eng.stanza_parser_ = w.eng.stanza_parser_
  raised_reset : w'.eng.raised_reset = w.eng.raised_reset
  tls_option : w'.eng.tls_option = w.eng.tls_option
  encrypted : w'.eng.encrypted = w.eng.encrypted
  stanza_handlers : w'.eng.stanza_handlers = w.eng.stanza_handlers
  iq_entries : w'.eng.iq_entries = w.eng.iq_entries
  nextCookie : w'.nextCookie = w.nextCookie
  sasl_handler : w'.eng.sasl_handler = w.eng.sasl_handler
  grows : Grows (fun ev => ev.bySend = true) w w'

/-- What `SendStanza` does to an engine that is not closed. -/
inductive Sent (w : World) (e : XmlElement) : World → Prop where
  /-- still handshaking: the stanza is queued -/
  | queued (lt : XmppLoginTask) (hl : w.eng.login_task = some lt) :
      Sent w e ((w.emit (.accepted e)).enterExit.setLogin (lt.outgoingStanza e))
  /-- the stanza is sent straight through -/
  | through (hl : w.eng.login_task = none) :
      Sent w e (((w.emit (.accepted e)).enterExit.emit (.printed e)).internalSendStanza e)

/-- `SendStanza` is refused by a closed engine, and opens a scope otherwise. -/
theorem sendStanza_cases (w : World) (e : XmlElement) :
    (w.eng.state = .closed ∧ w.sendStanza e = (w, [], .badState)) ∨
    (w.eng.state ≠ .closed ∧ ∃ v, Sent w e v ∧
      w.sendStanza e = (v, [.exitScope w.eng.state], .ok)) := by
  by_cases hc : w.eng.state = .closed
  · exact .inl ⟨hc, by rw [sendStanza, if_pos hc]⟩
  · refine .inr ⟨hc, ?_⟩
    rw [sendStanza, if_neg hc]
    cases hl : w.eng.login_task with
    | some lt =>
      refine ⟨_, .queued lt hl, ?_⟩
      simp only [enterExit, set_eng, emit_eng, hl]
    | none =>
      refine ⟨_, .through hl, ?_⟩
      simp only [enterExit, set_eng, emit_eng, hl]

theorem Sent.frame {w v : World} {e : XmlElement} (h : Sent w e v) :
    SendFrame w v ∧ v.eng.engine_entered = w.eng.engine_entered + 1 := by
  have hg : Grows (fun ev => ev.bySend = true) w (w.emit (.accepted e)).enterExit :=
    ⟨[.accepted e], rfl, by simp [Event.bySend]⟩
  cases h with
  | queued lt hl =>
    exact ⟨⟨rfl, rfl, rfl, rfl, rfl, rfl, rfl, rfl, rfl, rfl, rfl, rfl, hg⟩, rfl⟩
  | through hl =>
    refine ⟨⟨rfl, rfl, rfl, rfl, rfl, rfl, rfl, rfl, rfl, rfl, rfl, rfl, ?_⟩, rfl⟩
    exact (hg.trans (.emit _ rfl)).trans (.write _ _ rfl)

/-! ## What the parser reports -/

/-- The ways through `StanzaParseHandler`. -/
inductive Incoming (w : World) (ev : StanzaEvent) : World × List Stmt → Prop where
  /-- the guard holds it back -/
  | blocked (hb : w.blocked = true) : Incoming w ev (w, [])
  /-- the login task gets it -/
  | login (lt : XmppLoginTask) (e : XmlElement) (isStart : Bool)
      (hb : w.blocked = false) (hl : w.eng.login_task = some lt) :
      Incoming w ev (XmppLoginTask.incomingStanza (w.emit (.parsed ev)) lt (some e) isStart)
  /-- a stream error -/
  | streamError (stanza : XmlElement) (hb : w.blocked = false) :
      Incoming w ev ((w.emit (.parsed ev)).signalStreamError stanza, [])
  /-- the end of the stream, or an error of its XML -/
  | error (code : EngineError) (hc : code ≠ .none) (hb : w.blocked = false) :
      Incoming w ev ((w.emit (.parsed ev)).signalError code 0, [])
  /-- the answer to an iq -/
  | response (stanza : XmlElement) (entry : XmppIqEntry) (hb : w.blocked = false)
      (hl : w.eng.login_task = none) (hev : ev = .stanza stanza) (hn : stanza.name = QN_IQ)
      (ht : stanza.attr QN_TYPE = str "result" ∨ stanza.attr QN_TYPE = str "error")
      (hi : stanza.hasAttr QN_ID = true)
      (hf : w.eng.iq_entries.find? (fun x => answers x stanza) = some entry) :
      Incoming w ev (((w.emit (.parsed ev)).set { w.eng with
          iq_entries := w.eng.iq_entries.eraseP fun x => answers x stanza }).callOut
        (.iqResponse entry stanza) [.deleteEntry entry])
  /-- a stanza for the handlers -/
  | dispatch (stanza : XmlElement) (hb : w.blocked = false) (hl : w.eng.login_task = none)
      (hev : ev = .stanza stanza) :
      Incoming w ev (w.emit (.parsed ev), [.peek stanza 0])

theorem handleIqResponse_cases {w : World} {stanza : XmlElement} {r : World × List Stmt}
    (h : w.handleIqResponse stanza = some r) :
    stanza.name = QN_IQ ∧
    (stanza.attr QN_TYPE = str "result" ∨ stanza.attr QN_TYPE = str "error") ∧
    stanza.hasAttr QN_ID = true ∧
    ∃ entry, w.eng.iq_entries.find? (fun x => answers x stanza) = some entry ∧
      r = (w.set { w.eng with
          iq_entries := w.eng.iq_entries.eraseP fun x => answers x stanza }).callOut
        (.iqResponse entry stanza) [.deleteEntry entry] := by
  rw [handleIqResponse] at h
  split at h
  · cases h
  · split at h
    · cases h
    · rename_i hn
      split at h
      · cases h
      · rename_i ht
        split at h
        · cases h
        · rename_i hi
          split at h
          · cases h
          · rename_i entry hf
            cases h
            refine ⟨by simpa using hn, ?_, by simpa using hi, entry, hf, rfl⟩
            by_cases hr : stanza.attr QN_TYPE = str "result"
            · exact .inl hr
            · exact .inr (by simpa [hr] using ht)

/-- `Incoming` is complete. -/
theorem incoming_incoming (w : World) (ev : StanzaEvent) : Incoming w ev (w.incoming ev) := by
  rw [incoming]
  cases hb : w.blocked with
  | true => exact .blocked hb
  | false =>
    simp only [Bool.false_eq_true, if_false]
    cases ev with
    | startStream start =>
      simp only [incomingStart, emit_eng]
      split
      · exact .login _ _ _ hb (by assumption)
      · exact .error _ (by decide) hb
    | stanza stanza =>
      simp only [World.incomingStanza]
      split
      · exact .streamError stanza hb
      · split
        · exact .login _ _ _ hb (by assumption)
        · rename_i hl
          split
          · rename_i r hr
            obtain ⟨hn, ht, hi, entry, hf, rfl⟩ := handleIqResponse_cases hr
            exact .response stanza entry hb hl rfl hn ht hi hf
          · exact .dispatch stanza hb hl rfl
    | endStream | xmlError => exact .error _ (by decide) hb

/-! ## The entry of the public functions -/

/-- What the setters and the registration of stanza handlers leave alone. -/
structure Untouched (e e' : XmppEngineImpl) : Prop where
  stanza_parser_ : e'.stanza_parser_ = e.stanza_parser_
  engine_entered : e'.engine_entered = e.engine_entered
  login_task : e'.login_task = e.login_task
  state : e'.state = e.state
  encrypted : e'.encrypted = e.encrypted
  error_code : e'.error_code = e.error_code
  raised_reset : e'.raised_reset = e.raised_reset
  iq_entries : e'.iq_entries = e.iq_entries
  output : e'.output = e.output

/-- The functions that only store something in the engine. -/
def Call.stores : Call → Bool
  | .setOutputHandler _ | .setSessionHandler _ | .setTls _ | .setTlsServer _ _ | .setUser _
  | .setSaslHandler _ | .setRequestedResource _ | .setLanguage _ | .addStanzaHandler _ _
  | .removeStanzaHandler _ | .nextId => true
  | _ => false

/-- The entry `SendIq` makes for a request. -/
def iqEntry (w : World) (e : XmlElement) (h : Handler) : XmppIqEntry :=
  { cookie := w.nextCookie, id := e.attr QN_ID, to_ := e.attr QN_TO, iq_handler := h }

/-- The world in which `SendIq` sends the stanza. -/
def registerIq (w : World) (entry : XmppIqEntry) : World :=
  ({ w with nextCookie := w.nextCookie + 1 }.set
    { w.eng with iq_entries := w.eng.iq_entries ++ [entry] }).emit (.iqCreated entry)

/-- The ways through the entry of a function, in the world in which the call is
recorded. -/
inductive Entry (w : World) : Call → World × List Stmt → Prop where
  /-- nothing is done -/
  | refused (m : Call) (status : XmppReturnStatus)
      (hst : status = .ok ∨ m = .disconnect → w.eng.state = .closed ∧
        (m = .disconnect ∨ ∃ subcode, m = .connectionClosed subcode)) :
      Entry w m (w, [.returned m status])
  /-- a setter, before the connection is started -/
  | configured (m : Call) (eng : XmppEngineImpl) (hm : m.stores = true)
      (hs : w.eng.state = .start) (hu : Untouched w.eng eng)
      (hh : eng.stanza_handlers = w.eng.stanza_handlers)
      (hsa : (∀ h, m ≠ .setSaslHandler h) → eng.sasl_handler = w.eng.sasl_handler) :
      Entry w m (w.set eng, [.returned m .ok])
  /-- the language, the stanza handlers, the next id -/
  | stored (m : Call) (eng : XmppEngineImpl) (status : XmppReturnStatus) (hm : m.stores = true)
      (hu : Untouched w.eng eng) (ho : eng.output_handler = w.eng.output_handler)
      (hse : eng.session_handler = w.eng.session_handler)
      (ht : eng.tls_option = w.eng.tls_option)
      (hh : w.eng.state = .closed →
        ∀ l, (eng.stanza_handlers l).Sublist (w.eng.stanza_handlers l))
      (hsa : eng.sasl_handler = w.eng.sasl_handler) :
      Entry w m (w.set eng, [.returned m status])
  /-- the login task is started -/
  | connect (lt : XmppLoginTask) (hs : w.eng.state = .start) (hl : w.eng.login_task = some lt) :
      Entry w .connect
        ((w.enterExit.set { w.enterExit.eng with state := .opening }).setLogin
            { lt with pelStanza := none, isStart := false },
          [.advance, .advanced, .resetLogin, .exitScope .start, .returned .connect .ok])
  /-- there is no login task to start -/
  | connectDone (hs : w.eng.state = .start) (hl : w.eng.login_task = none) :
      Entry w .connect
        (w.enterExit.set { w.enterExit.eng with state := .opening },
          [.exitScope .start, .returned .connect .ok])
  /-- the bytes go to the parser -/
  | handleInput (events : List ExpatEvent) (status : XmlErrorCode)
      (hs : w.eng.state = .opening ∨ w.eng.state = .open) :
      Entry w (.handleInput events status)
        (w.enterExit.set { w.enterExit.eng with
            stanza_parser_ := { w.eng.stanza_parser_ with expatUsed := true } },
          [.parse events status, .exitScope w.eng.state,
            .returned (.handleInput events status) .ok])
  /-- the parser has stopped at an error -/
  | inputStopped (events : List ExpatEvent) (status : XmlErrorCode)
      (hs : w.eng.state = .opening ∨ w.eng.state = .open)
      (he : w.eng.stanza_parser_.sentError = true) :
      Entry w (.handleInput events status)
        (w.enterExit, [.exitScope w.eng.state, .returned (.handleInput events status) .ok])
  /-- the connection is lost -/
  | connectionClosed (subcode : Int) (code : EngineError) (sub : Int) (hc : code ≠ .none)
      (hs : w.eng.state ≠ .closed) :
      Entry w (.connectionClosed subcode)
        (w.enterExit.signalError code sub,
          [.exitScope w.eng.state, .returned (.connectionClosed subcode) .ok])
  /-- a stanza is sent -/
  | sent (m : Call) (e : XmlElement) (v : World) (hs : w.eng.state ≠ .closed)
      (hm : m = .sendStanza e ∨ ∃ original code text, m = .sendStanzaError original code text ∧
        e = errorReply original code text)
      (hv : Sent w e v) : Entry w m (v, [.exitScope w.eng.state, .returned m .ok])
  /-- an iq is sent, with its entry -/
  | sentIq (e : XmlElement) (h : Handler) (v : World) (hs : w.eng.state ≠ .closed)
      (hb : badIq (some e) (some h) = false)
      (hv : Sent (registerIq w (iqEntry w e h)) e v) :
      Entry w (.sendIq (some e) (some h))
        (v, [.exitScope w.eng.state, .returned (.sendIq (some e) (some h)) .ok])
  /-- raw text is sent -/
  | sendRaw (text : Str) (hs : w.eng.state ≠ .closed) (hl : w.eng.login_task = none) :
      Entry w (.sendRaw text)
        (w.enterExit.write text, [.exitScope w.eng.state, .returned (.sendRaw text) .ok])
  /-- an iq entry is removed -/
  | removed (cookie : Nat) (entry : XmppIqEntry)
      (hf : w.eng.iq_entries.find? (fun x => x.cookie = cookie) = some entry) :
      Entry w (.removeIqHandler cookie)
        ((w.set { w.eng with
            iq_entries := w.eng.iq_entries.eraseP fun x => x.cookie = cookie }).emit
          (.iqFreed entry), [.returned (.removeIqHandler cookie) .ok])
  /-- the stream is closed -/
  | disconnect (hs : w.eng.state ≠ .closed) :
      Entry w .disconnect
        ((if w.eng.state = .open then w.enterExit.write (str "</stream:stream>")
            else w.enterExit).set
          { (if w.eng.state = .open then w.enterExit.write (str "</stream:stream>")
              else w.enterExit).eng with state := .closed },
          [.exitScope w.eng.state, .returned .disconnect .ok])

theorem setter_entry {w : World} {m : Call} {eng : XmppEngineImpl} (hm : m.stores = true)
    (hu : Untouched w.eng eng) (hh : eng.stanza_handlers = w.eng.stanza_handlers)
    (hsa : (∀ h, m ≠ .setSaslHandler h) → eng.sasl_handler = w.eng.sasl_handler) :
    Entry w m (w.setter m eng) := by
  rw [setter]
  split
  · refine .refused m _ fun h => ?_
    rcases h with h | rfl
    · cases h
    · cases hm
  · rename_i hs
    exact .configured m eng hm (by simpa using hs) hu hh hsa

theorem handleInput_entry (w : World) (events : List ExpatEvent) (status : XmlErrorCode) :
    Entry w (.handleInput events status) (w.handleInput events status) := by
  rw [handleInput]
  dsimp only
  split
  · exact .refused _ _ (by simp)
  · rename_i hn
    have hs : w.eng.state = .opening ∨ w.eng.state = .open := by
      cases hw : w.eng.state <;> simp [hw, EngineState.rank] at hn ⊢
    split
    · exact .inputStopped events status hs (by assumption)
    · exact .handleInput events status hs

/-- A function that sends a stanza and returns `status`. -/
theorem sent_entry {w : World} {m : Call} {e : XmlElement}
    (hm : m = .sendStanza e ∨ ∃ original code text, m = .sendStanzaError original code text ∧
      e = errorReply original code text) (hs : w.eng.state ≠ .closed) :
    Entry w m ((w.sendStanza e).1, (w.sendStanza e).2.1 ++ [.returned m .ok]) := by
  rcases sendStanza_cases w e with ⟨hc, -⟩ | ⟨-, v, hv, h⟩
  · exact absurd hc hs
  · rw [h]
    exact .sent m e v hs hm hv

theorem sendIq_entry (w : World) (element : Option XmlElement) (iq_handler : Option Handler) :
    Entry w (.sendIq element iq_handler)
      ((w.sendIq element iq_handler).1, (w.sendIq element iq_handler).2.1
        ++ [.returned (.sendIq element iq_handler) (w.sendIq element iq_handler).2.2]) := by
  by_cases hc : w.eng.state = .closed
  · have hi : w.sendIq element iq_handler = (w, [], .badState) := by
      unfold sendIq
      rw [if_pos hc]
    rw [hi]
    exact .refused _ _ (by simp)
  · cases hb : badIq element iq_handler with
    | true =>
      have hi : w.sendIq element iq_handler = (w, [], .badArgument) := by
        unfold sendIq
        rw [if_neg hc, if_pos hb]
      rw [hi]
      exact .refused _ _ (by simp)
    | false =>
      cases element with
      | none => cases iq_handler <;> simp [badIq] at hb
      | some e =>
        cases iq_handler with
        | none => simp [badIq] at hb
        | some h =>
          -- the entry is there before the stanza is sent
          have hi : w.sendIq (some e) (some h) =
              (((registerIq w (iqEntry w e h)).sendStanza e).1,
                ((registerIq w (iqEntry w e h)).sendStanza e).2.1, .ok) := by
            unfold sendIq
            rw [if_neg hc, hb]
            rfl
          rcases sendStanza_cases (registerIq w (iqEntry w e h)) e with
            ⟨hc', -⟩ | ⟨-, v, hv, hsend⟩
          · exact absurd hc' hc
          · rw [hi, hsend]
            exact .sentIq e h v hc hb hv

/-- `Entry` is complete. -/
theorem enter_entry (w : World) (m : Call) : Entry (w.emit (.called m)) m (w.enter m) := by
  -- the setters with a check of the state, then those without, then the rest
  cases m with
  | setOutputHandler | setSessionHandler | setTls | setTlsServer | setUser | setRequestedResource =>
    exact setter_entry rfl ⟨rfl, rfl, rfl, rfl, rfl, rfl, rfl, rfl, rfl⟩ rfl fun _ => rfl
  | setSaslHandler h =>
    exact setter_entry rfl ⟨rfl, rfl, rfl, rfl, rfl, rfl, rfl, rfl, rfl⟩ rfl
      fun hn => absurd rfl (hn h)
  | setLanguage | nextId =>
    exact .stored _ _ _ rfl ⟨rfl, rfl, rfl, rfl, rfl, rfl, rfl, rfl, rfl⟩ rfl rfl rfl
      (fun _ _ => List.Sublist.refl _) rfl
  | connect =>
    simp only [enter, connect]
    split
    · exact .refused _ _ (by simp)
    · rename_i hs
      have hs : w.eng.state = .start := by simpa using hs
      split
      · rename_i lt hl
        have := Entry.connect (w := w.emit (.called .connect)) lt hs hl
        simp only [emit_eng, hs]
        exact this
      · rename_i hl
        have := Entry.connectDone (w := w.emit (.called .connect)) hs hl
        simp only [emit_eng, hs]
        exact this
  | handleInput events status => exact handleInput_entry _ events status
  | connectionClosed subcode =>
    simp only [enter, connectionClosed]
    split
    · rename_i hs
      split <;> exact .connectionClosed subcode _ _ (by decide) hs
    · rename_i hs
      exact .refused _ _ (fun _ => ⟨by simpa using hs, .inr ⟨subcode, rfl⟩⟩)
  | sendStanza element =>
    rcases sendStanza_cases (w.emit (.called (.sendStanza element))) element with
      ⟨-, h⟩ | ⟨hs, v, hv, h⟩
    · simp only [enter, h]
      exact .refused _ _ (by simp)
    · simp only [enter, h]
      exact .sent _ element v hs (.inl rfl) hv
  | sendRaw text =>
    simp only [enter, sendRaw]
    split
    · exact .refused _ _ (by simp)
    · rename_i hn
      simp only [Bool.or_eq_true, decide_eq_true_eq, not_or, Option.not_isSome_iff_eq_none] at hn
      exact .sendRaw text hn.1 hn.2
  | sendIq element iq_handler => exact sendIq_entry _ element iq_handler
  | removeIqHandler cookie =>
    simp only [enter, removeIqHandler]
    split
    · exact .refused _ _ (by simp)
    · rename_i entry hf
      exact .removed cookie entry hf
  | sendStanzaError original code text =>
    simp only [enter, sendStanzaError]
    split
    · exact .refused _ _ (by simp)
    · rename_i hs
      exact sent_entry (.inr ⟨original, code, text, rfl, rfl⟩) hs
  | addStanzaHandler h level =>
    simp only [enter, addStanzaHandler]
    split
    · exact .refused _ _ (by simp)
    · rename_i hs
      exact .stored _ _ _ rfl ⟨rfl, rfl, rfl, rfl, rfl, rfl, rfl, rfl, rfl⟩ rfl rfl rfl
        (fun hc => absurd hc hs) rfl
  | removeStanzaHandler h =>
    exact .stored _ _ _ rfl ⟨rfl, rfl, rfl, rfl, rfl, rfl, rfl, rfl, rfl⟩ rfl rfl rfl
      (fun _ _ => List.filter_sublist) rfl
  | disconnect =>
    simp only [enter, World.disconnect]
    split
    · rename_i hs
      exact .disconnect hs
    · rename_i hs
      exact .refused _ _ (fun _ => ⟨by simpa using hs, .inl rfl⟩)

/-! ## The statements with a list of their own -/

section

variable {w : World} {r : World × List Stmt}

theorem exec_exitScope {saved : EngineState} (h : w.exec (.exitScope saved) = some r) :
    Exiting w saved r :=
  Option.some.inj h ▸ exitScope_exiting w saved

theorem exec_leaveScope {saved : EngineState} (h : w.exec (.leaveScope saved) = some r) :
    Leaving w saved r :=
  Option.some.inj h ▸ leaveScope_leaving w saved

theorem exec_incoming {ev : StanzaEvent} (h : w.exec (.incoming ev) = some r) :
    Incoming w ev r :=
  Option.some.inj h ▸ incoming_incoming w ev

theorem exec_advance (h : w.exec .advance = some r) :
    ∃ lt, w.eng.login_task = some lt ∧ Round w lt r := by
  obtain ⟨lt, hl, ha⟩ := Option.bind_eq_some_iff.1 h
  exact ⟨lt, hl, advance_round ha⟩

end

end Gxmpp
