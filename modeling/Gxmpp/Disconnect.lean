/-
`XmppEngine::Disconnect` and the callbacks after it.

The interface promises that no callback is made after `Disconnect` completes. The
code sets the state and leaves the rest to the `EnterExit` scopes, so the promise
depends on where `Disconnect` is called: what the calls of the engine in progress
have still to do is done after it returns, and may call a handler.

`Stmt.spent` says of one pending statement that it calls none of the three kinds of
handlers any more. A run in which `Disconnect` is only called where every pending
statement is spent keeps the promise (`disconnect_silent`); a stanza handler that
calls `Disconnect` breaks it.
-/
import Gxmpp.LoginSafety

set_option autoImplicit false

namespace Gxmpp

open World Reentrant

/-! ## The promise -/

/-- A call of a stanza, iq or session handler. -/
def Event.isHandlerCall : Event → Bool
  | .callback (.handleStanza _ _ _ _) | .callback (.iqResponse _ _)
  | .callback (.onStateChange _) => true
  | _ => false

/-- `Disconnect` returns. -/
def Event.isDisconnected : Event → Bool
  | .returned .disconnect _ => true
  | _ => false

/-- After `Disconnect` returned, no stanza, iq or session handler is called. -/
def SilentAfterDisconnect (log : List Event) : Prop :=
  log.Pairwise fun a b => a.isDisconnected = true → b.isHandlerCall = false

instance (log : List Event) : Decidable (SilentAfterDisconnect log) :=
  inferInstanceAs (Decidable (List.Pairwise _ log))

/-- `Disconnect` has returned. -/
def Disconnected (log : List Event) : Prop := ∃ ev ∈ log, ev.isDisconnected = true

/-! ## Where `Disconnect` may be called -/

/-- The levels a stanza goes to after `level`. -/
def HandlerLevel.later : HandlerLevel → List HandlerLevel
  | .none => [.peek, .single, .sender, .type, .all]
  | .peek => [.single, .sender, .type, .all]
  | .single => [.sender, .type, .all]
  | .sender => [.type, .all]
  | .type => [.all]
  | .all => []

/-- No handler is left for a stanza that is at index `i` of `level`. -/
def unheardFrom (e : XmppEngineImpl) (level : HandlerLevel) (i : Nat) : Bool :=
  (e.stanza_handlers level).length ≤ i
    && level.later.all fun l => (e.stanza_handlers l).isEmpty

/-- There is no handler that a stanza could be given to. -/
def unheard (e : XmppEngineImpl) : Bool :=
  (HandlerLevel.none.later.all fun l => (e.stanza_handlers l).isEmpty) && e.iq_entries.isEmpty

/-- The end of an element, which may complete a stanza. -/
def ExpatEvent.isEnd : ExpatEvent → Bool
  | .endElement _ => true
  | _ => false

/-- A stanza. -/
def StanzaEvent.isStanza : StanzaEvent → Bool
  | .stanza _ => true
  | _ => false

/-- The statement calls no handler any more, whatever the application does: a scope
has nobody to notify; input completes no stanza, has nobody to go to or is held back by
an error. -/
def Stmt.spent (e : XmppEngineImpl) : Stmt → Bool
  | .exitScope _ | .afterWrite _ _ | .afterClose _ | .leaveScope _ => !e.session_handler
  | .parse events _ => unheard e || e.error_code ≠ .none || !events.any ExpatEvent.isEnd
  | .incoming ev => unheard e || e.error_code ≠ .none || !ev.isStanza
  | .peek _ i => unheardFrom e .peek i
  | .dispatch _ level i => unheardFrom e level i
  | .callback (.handleStanza _ level i _) => unheardFrom e level (i + 1)
  | _ => true

/-- A call of `Disconnect`. -/
def Call.isDisconnect : Call → Bool
  | .disconnect => true
  | _ => false

/-- The rule: `Disconnect` is called only where every pending statement is spent. -/
def SpentDisconnect (c : Conf) (m : Call) : Prop :=
  m.isDisconnect = true → (c.control.all fun s => s.spent c.state.eng) = true

instance (c : Conf) (m : Call) : Decidable (SpentDisconnect c m) :=
  inferInstanceAs (Decidable (_ → _))

variable {level : HandlerLevel} {e : XmppEngineImpl} {i : Nat} {r : World × List Stmt} {w : World}
  {s : Stmt} {m : Call} {c : Conf}

theorem later_next {l : HandlerLevel} (h : level.next = some l) : level.later = l :: l.later := by
  cases level <;> cases h <;> rfl

/-- The next handler of the level, or the next level. -/
theorem unheardFrom_next {l : HandlerLevel} (h : unheardFrom e level i = true)
    (hl : level.next = some l) : unheardFrom e l 0 = true := by
  rw [unheardFrom, later_next hl, List.all_cons, Bool.and_eq_true, Bool.and_eq_true] at h
  rw [unheardFrom, h.2.2, Bool.and_true, List.isEmpty_iff.1 h.2.1]
  rfl

/-- Nobody hears a stanza at its beginning. -/
theorem unheardFrom_peek (h : unheard e = true) : unheardFrom e .peek 0 = true := by
  rw [unheard, later_next (l := .peek) rfl, List.all_cons, Bool.and_eq_true, Bool.and_eq_true] at h
  rw [unheardFrom, h.1.2, Bool.and_true, List.isEmpty_iff.1 h.1.1]
  rfl

theorem unheardFrom_none (h : unheardFrom e level i = true) :
    (e.stanza_handlers level)[i]? = none := by
  rw [unheardFrom, Bool.and_eq_true, decide_eq_true_eq] at h
  exact List.getElem?_eq_none h.1

/-- A change of the engine that adds no handler and keeps an error. -/
structure Hushed (e e' : XmppEngineImpl) : Prop where
  session_handler : e'.session_handler = e.session_handler
  stanza_handlers : ∀ level, (e'.stanza_handlers level).Sublist (e.stanza_handlers level)
  iq_entries : e.iq_entries = [] → e'.iq_entries = []
  error_code : e.error_code ≠ .none → e'.error_code ≠ .none

namespace Hushed

variable {e e' : XmppEngineImpl}

theorem refl (e : XmppEngineImpl) : Hushed e e := ⟨rfl, fun _ => List.Sublist.refl _, id, id⟩

theorem later (h : Hushed e e') {levels : List HandlerLevel}
    (hl : (levels.all fun l => (e.stanza_handlers l).isEmpty) = true) :
    (levels.all fun l => (e'.stanza_handlers l).isEmpty) = true := by
  rw [List.all_eq_true] at hl ⊢
  intro l hmem
  have hs := h.stanza_handlers l
  rw [List.isEmpty_iff.1 (hl l hmem)] at hs
  rw [List.sublist_nil.1 hs]
  rfl

theorem unheard (h : Hushed e e') (hu : unheard e = true) : Gxmpp.unheard e' = true := by
  rw [Gxmpp.unheard, Bool.and_eq_true] at hu ⊢
  exact ⟨h.later hu.1, List.isEmpty_iff.2 (h.iq_entries (List.isEmpty_iff.1 hu.2))⟩

theorem unheardFrom (h : Hushed e e') {level : HandlerLevel} {i : Nat}
    (hu : unheardFrom e level i = true) : Gxmpp.unheardFrom e' level i = true := by
  rw [Gxmpp.unheardFrom, Bool.and_eq_true, decide_eq_true_eq] at hu ⊢
  exact ⟨Nat.le_trans (h.stanza_handlers level).length_le hu.1, h.later hu.2⟩

/-- A spent statement stays spent. -/
theorem spent (h : Hushed e e') {s : Stmt} (hs : s.spent e = true) : s.spent e' = true := by
  cases s with
  | parse | incoming =>
    simp only [Stmt.spent, ne_eq, decide_not, Bool.or_eq_true, Bool.not_eq_true',
      decide_eq_false_iff_not] at hs ⊢
    exact hs.imp_left fun hs => hs.imp h.unheard h.error_code
  | peek | dispatch => exact h.unheardFrom hs
  | callback cb =>
    cases cb with
    | handleStanza hd level i stanza => exact h.unheardFrom hs
    | _ => rfl
  | exitScope | afterWrite | afterClose | leaveScope =>
    simpa [Stmt.spent, h.session_handler] using hs
  | _ => rfl

end Hushed

/-- A stanza is completed by the end of an element. -/
theorem expatEvent_stanza {p : XmppStanzaParser} {ev : ExpatEvent} {e : StanzaEvent}
    (h : (p.expatEvent ev).2 = some e) (he : e.isStanza = true) : ev.isEnd = true := by
  cases ev with
  | endElement name => rfl
  | startElement name atts =>
    rw [XmppStanzaParser.expatEvent] at h
    split at h
    · cases h
    · dsimp only at h
      split at h
      · cases h
      · rw [XmppStanzaParser.incomingStartElement] at h
        dsimp only at h
        split at h
        · cases h
        · split at h <;> cases h
          cases he
  | characterData | xmlDecl =>
    rw [XmppStanzaParser.expatEvent] at h
    split at h <;> cases h

/-! ## What a closed engine still does -/

theorem incoming_iq_nil {ev : StanzaEvent} (h : Incoming w ev r) (hn : w.eng.iq_entries = []) :
    r.1.eng.iq_entries = [] := by
  cases h with
  | blocked | login | dispatch => exact hn
  | streamError stanza hb =>
    rw [← hn]
    simp only [signalStreamError]
    split
    · exact (LoginFrame.signalError _ _ _).iq_entries
    · rfl
  | error code hc hb => exact (LoginFrame.signalError _ _ _).iq_entries.trans hn
  | response stanza entry hb hl hev hn' ht hi hf =>
    rw [hn] at hf
    cases hf

theorem exec_hushed (hc : w.eng.state = .closed) (h : w.exec s = some r) :
    Hushed w.eng r.1.eng := by
  have hf := exec_frame h
  refine ⟨hf.session_handler, fun level => ?_, fun hn => ?_, fun he => ?_⟩
  · rw [hf.stanza_handlers]
  · cases s with
    | incoming ev => exact incoming_iq_nil (exec_incoming h) hn
    | _ => exact (hf.iq_entries (by simp)).trans hn
  · rcases hf.forward.error with heq | ⟨hn, -⟩
    · rw [heq]
      exact he
    · exact absurd hc hn

/-- The statements that call the three kinds of handlers. -/
def Stmt.notifies : Stmt → Bool
  | .leaveScope _ | .incoming _ | .peek _ _ | .dispatch _ _ _ => true
  | _ => false

theorem mayEmit_notifies {ev : Event} (h : s.mayEmit ev = true) (hev : ev.isHandlerCall = true) :
    s.notifies = true := by
  cases ev with
  | callback cb =>
    cases cb with
    | onStateChange | handleStanza | iqResponse => cases s <;> first | rfl | cases h
    | _ => cases hev
  | _ => cases hev

theorem closed_of_spent_leave {saved : EngineState} (hs : w.eng.session_handler = false)
    (h : Leaving w saved r) : Grows (fun ev => ev.isHandlerCall = false) w r.1 ∧ r.2 = [] := by
  have hlog : (afterReset w).log = w.log := by
    rcases afterReset_eq w with h | ⟨-, h⟩ <;> rw [h]
    rfl
  cases h with
  | inner he => exact ⟨.refl w, rfl⟩
  | notify he hh hn =>
    rw [hs] at hh
    cases hh
  | silent he hn => exact ⟨.of_eq hlog, rfl⟩

theorem incoming_spent {ev : StanzaEvent} (hs : (Stmt.incoming ev).spent w.eng = true)
    (h : Incoming w ev r) :
    Grows (fun e => e.isHandlerCall = false) w r.1 ∧ ∀ p ∈ r.2, p.spent r.1.eng = true := by
  have hp : Grows (fun e => e.isHandlerCall = false) w (w.emit (.parsed ev)) := .emit w rfl
  simp only [Stmt.spent, ne_eq, decide_not, Bool.or_eq_true, Bool.not_eq_true',
    decide_eq_false_iff_not] at hs
  -- a stanza that comes through has nobody to go to
  have hun : w.blocked = false → ev.isStanza = true → unheard w.eng = true := by
    intro hb hev
    rcases hs with (hu | he) | hn
    · exact hu
    · rw [blocked, hasError, decide_eq_true he] at hb
      cases hb
    · rw [hev] at hn
      cases hn
  cases h with
  | blocked hb => exact ⟨.refl w, by simp⟩
  | login lt e isStart hb hl =>
    refine ⟨hp, ?_⟩
    simp [XmppLoginTask.incomingStanza, Stmt.spent]
  | streamError stanza hb =>
    refine ⟨hp.trans (.of_eq ?_), by simp⟩
    exact signalStreamError_log _ _
  | error code hc hb => exact ⟨hp.trans (.of_eq (signalError_log _ _ _)), by simp⟩
  | response stanza entry hb hl hev hn ht hi hf =>
    have hu := hun hb (hev ▸ rfl)
    rw [unheard, Bool.and_eq_true] at hu
    rw [List.isEmpty_iff.1 hu.2] at hf
    cases hf
  | dispatch stanza hb hl hev =>
    refine ⟨hp, fun p hpush => ?_⟩
    rw [List.mem_singleton.1 hpush]
    exact unheardFrom_peek (hun hb (hev ▸ rfl))

/-- What a scope without a session handler, a round of the login task or a return leaves is
spent whatever the engine holds. -/
theorem mayPush_spent {p : Stmt} (h : s.mayPush p = true) (hn : s.notifies = false)
    (hparse : ∀ events status, s ≠ .parse events status) (hu : ∀ stanza, s ≠ .unhandled stanza)
    (hse : s.isScope = true → e.session_handler = false) : p.spent e = true := by
  have hscope : s.isScope = true → (!e.session_handler) = true := fun hs => by rw [hse hs]; rfl
  cases p with
  | callback cb =>
    cases cb <;>
      first
        | rfl
        | cases s <;>
            first
              | exact absurd h Bool.false_ne_true
              | exact absurd hn.symm Bool.false_ne_true
  | exitScope saved =>
    cases s with
    | unhandled stanza => exact absurd rfl (hu stanza)
    | _ => exact absurd h Bool.false_ne_true
  | afterWrite | afterClose | leaveScope =>
    cases s <;> first | exact hscope rfl | exact absurd h Bool.false_ne_true
  | parse | incoming =>
    cases s with
    | parse events' status' => exact absurd rfl (hparse events' status')
    | _ => exact absurd h Bool.false_ne_true
  | peek | dispatch =>
    cases s <;>
      first | exact absurd h Bool.false_ne_true | exact absurd hn.symm Bool.false_ne_true
  | _ => rfl

/-- The parser completes a stanza only at the end of an element. -/
theorem parse_spent {events : List ExpatEvent} {status : XmlErrorCode}
    (hs : (Stmt.parse events status).spent (w.parse events status).1.eng = true) :
    ∀ p ∈ (w.parse events status).2, p.spent (w.parse events status).1.eng = true := by
  intro p hp
  simp only [Stmt.spent, Bool.or_eq_true, Bool.not_eq_true'] at hs
  cases events with
  | nil =>
    -- the end of the input, or an error of the document
    simp only [parse] at hp
    split at hp <;> simp only [List.mem_cons, List.not_mem_nil, or_false] at hp
    subst hp
    simp [Stmt.spent, StanzaEvent.isStanza]
  | cons ev rest =>
    rw [List.any_cons, Bool.or_eq_false_iff] at hs
    simp only [parse, List.mem_append, Option.mem_toList, Option.map_eq_some_iff,
      List.mem_cons, List.not_mem_nil, or_false] at hp
    rcases hp with ⟨e, he, rfl⟩ | rfl
    · simp only [Stmt.spent, Bool.or_eq_true, Bool.not_eq_true']
      refine hs.imp_right fun hend => ?_
      by_contra hn
      rw [expatEvent_stanza he (by simpa using hn)] at hend
      cases hend.1
    · simp only [Stmt.spent, Bool.or_eq_true, Bool.not_eq_true']
      exact hs.imp_right And.right

/-- The loops find no handler where none is left. -/
theorem peek_spent (stanza : XmlElement) (hs : unheardFrom w.eng .peek i = true) :
    w.peek stanza i = (w, [.dispatch stanza .single 0]) ∧
      unheardFrom w.eng .single 0 = true := by
  refine ⟨?_, unheardFrom_next hs rfl⟩
  unfold World.peek
  rw [unheardFrom_none hs]

theorem dispatch_spent (stanza : XmlElement) (hs : unheardFrom w.eng level i = true) :
    w.dispatch stanza level i = (w, [.unhandled stanza]) ∨
      ∃ l, w.dispatch stanza level i = (w, [.dispatch stanza l 0]) ∧
        unheardFrom w.eng l 0 = true := by
  unfold World.dispatch
  rw [unheardFrom_none hs]
  dsimp only
  rcases hl : level.next with _ | l
  · exact .inl rfl
  · exact .inr ⟨l, rfl, unheardFrom_next hs hl⟩

/-- What a spent statement of a closed engine does: no handler is called, and what it
leaves is spent. -/
theorem exec_spent (hc : w.eng.state = .closed) (hs : s.spent w.eng = true)
    (h : w.exec s = some r) :
    Grows (fun ev => ev.isHandlerCall = false) w r.1 ∧ ∀ p ∈ r.2, p.spent r.1.eng = true := by
  have hhush := exec_hushed hc h
  have hgrow : s.notifies = false → Grows (fun ev => ev.isHandlerCall = false) w r.1 := by
    intro hn
    refine (exec_frame h).grows.mono fun ev hev => ?_
    by_contra hcall
    rw [mayEmit_notifies hev (by simpa using hcall)] at hn
    cases hn
  -- the scopes have nobody to notify, and what follows them has not either
  have hpush : s.notifies = false → (∀ events status, s ≠ .parse events status) →
      (∀ stanza, s ≠ .unhandled stanza) → ∀ p ∈ r.2, p.spent r.1.eng = true := by
    intro hn hparse hu p hp
    refine mayPush_spent (exec_mayPush h p hp) hn hparse hu fun hscope => ?_
    rw [hhush.session_handler]
    cases s with
    | exitScope | afterWrite | afterClose => simpa [Stmt.spent] using hs
    | leaveScope saved => cases hn
    | _ => cases hscope
  cases s with
  | leaveScope saved =>
    have hl := closed_of_spent_leave (by simpa [Stmt.spent] using hs) (exec_leaveScope h)
    exact ⟨hl.1, by simp [hl.2]⟩
  | parse events status =>
    refine ⟨hgrow rfl, ?_⟩
    have hs' := hhush.spent hs
    obtain rfl := Option.some.inj h
    exact parse_spent hs'
  | incoming ev => exact incoming_spent hs (exec_incoming h)
  | peek stanza i =>
    obtain ⟨heq, hnext⟩ := peek_spent stanza hs
    obtain rfl := Option.some.inj h
    rw [heq]
    refine ⟨.refl w, fun p hp => ?_⟩
    rw [List.mem_singleton.1 hp]
    exact hnext
  | dispatch stanza level i =>
    obtain rfl := Option.some.inj h
    rcases dispatch_spent stanza hs with heq | ⟨l, heq, hnext⟩
    · rw [heq]
      exact ⟨.refl w, by simp [Stmt.spent]⟩
    · rw [heq]
      refine ⟨.refl w, fun p hp => ?_⟩
      rw [List.mem_singleton.1 hp]
      exact hnext
  | unhandled stanza =>
    -- the reply of a closed engine is refused
    refine ⟨hgrow rfl, fun p hp => ?_⟩
    obtain rfl := Option.some.inj h
    rcases unhandled_cases w stanza with h | ⟨hn, -⟩
    · rw [h] at hp
      cases hp
    · exact absurd hc hn
  | _ => exact ⟨hgrow rfl, hpush rfl (by simp) (by simp)⟩

/-- A closed engine opens no scope: a call of it returns at once, or after storing
something. -/
theorem entry_closed (hc : w.eng.state = .closed) (h : Entry w m r) :
    Hushed w.eng r.1.eng ∧ ∃ status, r.2 = [.returned m status] := by
  have hsame : Hushed w.eng w.eng := .refl w.eng
  cases h with
  | refused m status hst => exact ⟨hsame, status, rfl⟩
  | stored m eng status hm hu ho hse ht hh =>
    refine ⟨⟨hse, hh hc, fun hn => ?_, fun he => ?_⟩, status, rfl⟩
    · exact hu.iq_entries.trans hn
    · rw [show (w.set eng).eng.error_code = w.eng.error_code from hu.error_code]
      exact he
  | removed cookie entry hf =>
    refine ⟨⟨rfl, fun _ => List.Sublist.refl _, fun hn => ?_, id⟩, _, rfl⟩
    rw [hn] at hf
    cases hf
  | configured m eng hm hs | connect lt hs | connectDone hs =>
    exact absurd (hs.symm.trans hc) (by simp)
  | handleInput events status hs | inputStopped events status hs =>
    rcases hs with hs | hs <;> exact absurd (hs.symm.trans hc) (by simp)
  | connectionClosed subcode code sub hcode hs | sent m e v hs | sentIq e h v hs | sendRaw text hs
  | disconnect hs => exact absurd hc hs

/-! ## The invariant -/

/-- A pending return of `Disconnect`. -/
def Stmt.isDisconnectReturn : Stmt → Bool
  | .returned .disconnect _ => true
  | _ => false

/-- While `Disconnect` is being executed, what lies under it is spent; after it
returned, everything is. -/
structure Silent (c : Conf) : Prop where
  closed : ∀ s ∈ c.control, s.isDisconnectReturn = true → c.state.eng.state = .closed
  pending : c.control.Pairwise fun x l => x.isDisconnectReturn = true →
    l.spent c.state.eng = true
  after : Disconnected c.state.log →
    c.state.eng.state = .closed ∧ ∀ s ∈ c.control, s.spent c.state.eng = true
  silent : SilentAfterDisconnect c.state.log

/-- Only the return of `Disconnect` records that it returned. -/
theorem exec_disconnected (h : w.exec s = some r) (hs : s.isDisconnectReturn = false) :
    Grows (fun ev => ev.isDisconnected = false) w r.1 := by
  by_cases hret : ∃ m status, s = .returned m status
  · obtain ⟨m, status, rfl⟩ := hret
    obtain rfl := Option.some.inj h
    refine .emit w ?_
    cases m <;> first | rfl | cases hs
  · refine (exec_frame h).grows.mono fun ev hev => ?_
    cases ev with
    | returned m status =>
      cases s <;> first | exact absurd ⟨_, _, rfl⟩ hret | cases hev
    | _ => rfl

/-- While `Disconnect` has not returned, nothing is asked of the history. -/
theorem SilentAfterDisconnect.grow {w' : World} (h : SilentAfterDisconnect w.log)
    (hd : ¬ Disconnected w.log) (hg : Grows (fun ev => ev.isDisconnected = false) w w') :
    SilentAfterDisconnect w'.log ∧ ¬ Disconnected w'.log := by
  obtain ⟨evs, hl, hp⟩ := hg
  rw [hl]
  constructor
  · refine List.pairwise_append.2 ⟨h, ?_, ?_⟩
    · refine List.pairwise_of_forall_mem_list fun a ha b _ hdis => ?_
      rw [hp a ha] at hdis
      cases hdis
    · exact fun a ha b _ hdis => absurd ⟨a, ha, hdis⟩ hd
  · rintro ⟨ev, hev, hdis⟩
    rcases List.mem_append.1 hev with hev | hev
    · exact hd ⟨ev, hev, hdis⟩
    · rw [hp ev hev] at hdis
      cases hdis

/-- A step of an engine whose `Disconnect` has returned. -/
theorem Silent.quiet {w' : World} {control : List Stmt} (h : Silent c)
    (hd : Disconnected c.state.log) (hf : Forward c.state w')
    (hg : Grows (fun ev => ev.isHandlerCall = false) c.state w')
    (hs : ∀ s ∈ control, s.spent w'.eng = true) : Silent ⟨w', control⟩ := by
  have hclosed := hf.closed (h.after hd).1
  refine ⟨fun _ _ _ => hclosed, ?_, fun _ => ⟨hclosed, hs⟩, ?_⟩
  · exact List.pairwise_of_forall_mem_list fun _ _ l hl _ => hs l hl
  · obtain ⟨evs, hl, hp⟩ := hg
    rw [hl]
    refine List.pairwise_append.2 ⟨h.silent, ?_, fun _ _ b hb _ => hp b hb⟩
    exact List.pairwise_of_forall_mem_list fun _ _ b hb _ => hp b hb

/-- A statement is executed. -/
theorem exec_silent {rest : List Stmt} (h : Silent ⟨w, s :: rest⟩) (hr : w.exec s = some r) :
    Silent ⟨r.1, r.2 ++ rest⟩ := by
  have hf := (exec_frame hr).forward
  by_cases hd : Disconnected w.log
  · obtain ⟨hclosed, hspent⟩ := h.after hd
    have hhush := exec_hushed hclosed hr
    obtain ⟨hg, hpush⟩ := exec_spent hclosed (hspent s List.mem_cons_self) hr
    refine h.quiet hd hf hg fun p hp => ?_
    rcases List.mem_append.1 hp with hp | hp
    · exact hpush p hp
    · exact hhush.spent (hspent p (List.mem_cons_of_mem _ hp))
  · cases hs : s.isDisconnectReturn with
    | true =>
      -- `Disconnect` returns: what lies under it was spent, and is all that is left
      have hclosed := h.closed s List.mem_cons_self hs
      have hrest := fun l hl => (List.pairwise_cons.1 h.pending).1 l hl hs
      cases s with
      | returned m status =>
        obtain rfl := Option.some.inj hr
        refine ⟨fun _ _ _ => hclosed, ?_, fun _ => ⟨hclosed, hrest⟩, ?_⟩
        · exact List.pairwise_of_forall_mem_list fun _ _ l hl _ => hrest l hl
        · refine List.pairwise_append.2 ⟨h.silent, List.pairwise_singleton _ _, ?_⟩
          exact fun a ha b _ hdis => absurd ⟨a, ha, hdis⟩ hd
      | _ => cases hs
    | false =>
      obtain ⟨hsil, hd'⟩ := h.silent.grow hd (exec_disconnected hr hs)
      have hnot : ∀ p ∈ r.2, p.isDisconnectReturn = false := by
        intro p hp
        have := (exec_push hr p hp).unreturned
        cases p <;> first | rfl | exact absurd rfl (this _ _)
      refine ⟨?_, ?_, fun hdis => absurd hdis hd', hsil⟩
      · intro p hp hdis
        rcases List.mem_append.1 hp with hp | hp
        · rw [hnot p hp] at hdis
          cases hdis
        · exact hf.closed (h.closed p (List.mem_cons_of_mem _ hp) hdis)
      · refine List.pairwise_append.2 ⟨?_, ?_, ?_⟩
        · refine List.pairwise_of_forall_mem_list fun x hx l _ hdis => ?_
          rw [hnot x hx] at hdis
          cases hdis
        · refine (List.pairwise_cons.1 h.pending).2.imp_of_mem fun {x l} hx _ hl hdis => ?_
          exact (exec_hushed (h.closed x (List.mem_cons_of_mem _ hx) hdis) hr).spent (hl hdis)
        · intro x hx l _ hdis
          rw [hnot x hx] at hdis
          cases hdis

theorem entry_unheard {ev : Event} (h : m.mayEmit ev = true) :
    ev.isHandlerCall = false ∧ ev.isDisconnected = false := by
  cases ev with
  | callback | returned => cases m <;> cases h
  | _ => exact ⟨rfl, rfl⟩

/-- `Disconnect` is called where everything is spent. -/
theorem disconnect_entry (h : Entry w .disconnect r) :
    r.1.eng.state = .closed ∧ Hushed w.eng r.1.eng ∧
      r.2.Pairwise fun x l => x.isDisconnectReturn = true → l.spent r.1.eng = true := by
  cases h with
  | refused _ status hst =>
    exact ⟨(hst (.inr rfl)).1, .refl _, List.pairwise_singleton _ _⟩
  | configured _ eng hm | stored _ eng status hm => cases hm
  | sent _ e v hs hm hv =>
    rcases hm with hm | ⟨o, c, t, hm, -⟩ <;> cases hm
  | disconnect hs =>
    refine ⟨rfl, ?_, ?_⟩
    · dsimp only [set_eng]
      split <;> exact ⟨rfl, fun _ => List.Sublist.refl _, id, id⟩
    · simp [Stmt.isDisconnectReturn]

/-- The engine is called. -/
theorem enter_silent (h : Silent c) (hrule : SpentDisconnect c m) :
    Silent ⟨(c.state.enter m).1, (c.state.enter m).2 ++ c.control⟩ := by
  have hentry := enter_entry c.state m
  have hframe := entry_frame hentry
  have hf : Forward c.state (c.state.enter m).1 :=
    (Forward.of_eq rfl rfl : Forward c.state (c.state.emit (.called m))).trans hframe.forward
  have hg : Grows (fun ev => ev.isHandlerCall = false ∧ ev.isDisconnected = false) c.state
      (c.state.enter m).1 :=
    (Grows.emit c.state ⟨rfl, rfl⟩).trans (hframe.grows.mono fun ev hev => entry_unheard hev)
  by_cases hd : Disconnected c.state.log
  · obtain ⟨hclosed, hspent⟩ := h.after hd
    obtain ⟨hhush, status, hpush⟩ := entry_closed (w := c.state.emit (.called m)) hclosed hentry
    refine h.quiet hd hf (hg.mono fun _ hev => hev.1) fun p hp => ?_
    rw [hpush] at hp
    rcases List.mem_append.1 hp with hp | hp
    · rw [List.mem_singleton.1 hp]
      rfl
    · exact hhush.spent (hspent p hp)
  · obtain ⟨hsil, hd'⟩ := h.silent.grow hd (hg.mono fun _ hev => hev.2)
    -- a return of `Disconnect` is pushed by `Disconnect` alone
    have hdis : ∀ p ∈ (c.state.enter m).2, p.isDisconnectReturn = true → m = .disconnect := by
      intro p hp hret
      cases p with
      | returned m' status =>
        have := hframe.returned _ hp m' status rfl
        subst this
        cases m' <;> first | rfl | cases hret
      | _ => cases hret
    have hstay : ∀ x ∈ c.control, x.isDisconnectReturn = true → ∀ l : Stmt,
        l.spent c.state.eng = true → l.spent (c.state.enter m).1.eng = true := by
      intro x hx hret l hl
      exact (entry_closed (w := c.state.emit (.called m)) (h.closed x hx hret) hentry).1.spent hl
    refine ⟨?_, ?_, fun hdis' => absurd hdis' hd', hsil⟩
    · intro p hp hret
      rcases List.mem_append.1 hp with hp | hp
      · obtain rfl := hdis p hp hret
        exact (disconnect_entry hentry).1
      · exact hf.closed (h.closed p hp hret)
    · refine List.pairwise_append.2 ⟨?_, ?_, ?_⟩
      · by_cases hm : m = .disconnect
        · subst hm
          exact (disconnect_entry hentry).2.2
        · refine List.pairwise_of_forall_mem_list fun x hx l _ hret => ?_
          exact absurd (hdis x hx hret) hm
      · exact h.pending.imp_of_mem fun {x l} hx _ hl hret => hstay x hx hret l (hl hret)
      · intro x hx l hl hret
        obtain rfl := hdis x hx hret
        have := List.all_eq_true.1 (hrule rfl) l hl
        exact (disconnect_entry hentry).2.1.spent this

/-- A handler returns. -/
theorem resume_silent {rest : List Stmt} (v : Bool) (h : Silent ⟨w, s :: rest⟩) :
    Silent ⟨w, World.resume s v ++ rest⟩ := by
  have hnot : ∀ p ∈ World.resume s v, p.isDisconnectReturn = false := by
    intro p hp
    have := resume_input hp
    cases p <;> first | rfl | cases this
  have hspent : s.spent w.eng = true → ∀ p ∈ World.resume s v, p.spent w.eng = true := by
    intro hs p hp
    unfold World.resume at hp
    split at hp
    · rw [List.mem_singleton.1 hp]
      exact hs
    · split at hp
      · cases hp
      · rw [List.mem_singleton.1 hp]
        exact hs
    · cases hp
  refine ⟨?_, ?_, fun hd => ⟨(h.after hd).1, ?_⟩, h.silent⟩
  · intro p hp hret
    rcases List.mem_append.1 hp with hp | hp
    · rw [hnot p hp] at hret
      cases hret
    · exact h.closed p (List.mem_cons_of_mem _ hp) hret
  · refine List.pairwise_append.2 ⟨?_, (List.pairwise_cons.1 h.pending).2, ?_⟩
    · refine List.pairwise_of_forall_mem_list fun x hx l _ hret => ?_
      rw [hnot x hx] at hret
      cases hret
    · intro x hx l _ hret
      rw [hnot x hx] at hret
      cases hret
  · intro p hp
    rcases List.mem_append.1 hp with hp | hp
    · exact hspent ((h.after hd).2 s List.mem_cons_self) p hp
    · exact (h.after hd).2 p (List.mem_cons_of_mem _ hp)

theorem silent_init : Silent Conf.init := by
  refine ⟨by simp [Conf.init], List.Pairwise.nil, ?_, List.Pairwise.nil⟩
  rintro ⟨ev, hev, -⟩
  cases hev

theorem silent_reachable (h : engine.Reaches SpentDisconnect Conf.init c) : Silent c := by
  refine Reaches.invariant h silent_init ?_
  intro c a c' _ hc ha hs
  rcases step_cases hs with ⟨s, rest, r, -, hcontrol, -, hr, rfl⟩ | ⟨m, rfl, -, rfl⟩ |
    ⟨v, s, rest, -, hcontrol, -, rfl⟩
  · obtain ⟨w, control⟩ := c
    subst hcontrol
    exact exec_silent hc hr
  · exact enter_silent hc (ha m rfl)
  · obtain ⟨w, control⟩ := c
    subst hcontrol
    exact resume_silent v hc

/-- An application with a session handler and a stanza handler logs in. -/
def loginWithHandlers : List Step :=
  [.call (.setSessionHandler true), .call (.setTls .disabled), plainUser true,
    .call (.addStanzaHandler 7 .all), .call .connect, .ret false] ++ plainLogin ++ [.ret false]

/-- Two stanzas come in one buffer, and the stanza handler disconnects at the first. -/
def disconnectInHandler : List Step :=
  loginWithHandlers ++
    [received [.startElement (str "message") [], .endElement (str "message"),
        .startElement (str "message") [], .endElement (str "message")],
      .call .disconnect, .ret true, .ret true, .ret false]

end Gxmpp
