/-
What a step of the engine does to the login task.

`Round` says what the rounds of `XmppLoginTask::Advance` do. Everything else that
touches the task is listed here: a stanza is given to it or taken back, it is sent
back to the start of a stream after `StartTls`, it is deleted once it is done, and
`SendStanza` puts a stanza on its queue. `step_task` says that a step of a run is a
round or one of these, so that what the login task guarantees is proved by going
through two lists.
-/
import Gxmpp.EngineFrames

set_option autoImplicit false

namespace Gxmpp

open World Reentrant

/-- The events of the login task and of `SendStanza`, the bytes apart. -/
def Event.isTask : Event → Bool
  | .took .. | .chose .. | .gotMechanism _ | .sentByLogin .. | .printed _ | .signalBound _
  | .accepted _ | .callback (.startTls _) => true
  | _ => false

/-- What happens to the login task other than by its rounds and by `SendStanza`. -/
inductive TaskChange (w w' : World) : Prop where
  /-- nothing -/
  | kept (h : w'.eng.login_task = w.eng.login_task)
  /-- it is given a stanza, or the stanza is taken back -/
  | given (lt : XmppLoginTask) (element : Option XmlElement) (isStart : Bool)
      (hl : w.eng.login_task = some lt)
      (h : w'.eng.login_task = some { lt with pelStanza := element, isStart := isStart })
  /-- `StartTls` has been called: the stream starts again -/
  | restarted (lt : XmppLoginTask) (hl : w.eng.login_task = some lt)
      (h : w'.eng.login_task = some { lt with state := .init })
  /-- it is done, and deleted -/
  | dropped (lt : XmppLoginTask) (hl : w.eng.login_task = some lt) (hs : lt.state = .done)
      (h : w'.eng.login_task = none)

/-- A step other than a round of the login task. -/
inductive TaskStep (w w' : World) : Prop where
  | change (hc : TaskChange w w') (hs : w'.eng.state = .open → w.eng.state = .open)
      (hg : Grows (fun ev => ev.isTask = false) w w')
  /-- a stanza is sent, after some bookkeeping -/
  | sent (v : World) (e : XmlElement) (hl : v.eng.login_task = w.eng.login_task)
      (hs : v.eng.state = w.eng.state) (hg : Grows (fun ev => ev.isTask = false) w v)
      (hv : Sent v e w')

variable {w : World} {r : World × List Stmt} {s : Stmt}

/-- A step of other members. -/
theorem TaskStep.of_kept {w' : World} (hl : w'.eng.login_task = w.eng.login_task)
    (hs : w'.eng.state = w.eng.state) (hg : Grows (fun ev => ev.isTask = false) w w') :
    TaskStep w w' :=
  .change (.kept hl) (fun h => hs ▸ h) hg

/-- Bookkeeping before a step. -/
theorem TaskStep.after {u w' : World} (h : TaskStep w w')
    (hl : w.eng.login_task = u.eng.login_task) (hs : w.eng.state = u.eng.state)
    (hg : Grows (fun ev => ev.isTask = false) u w) : TaskStep u w' := by
  cases h with
  | change hc hst hg' =>
    refine .change ?_ (fun ho => hs ▸ hst ho) (hg.trans hg')
    cases hc with
    | kept h => exact .kept (h.trans hl)
    | given lt element isStart hlt h => exact .given lt element isStart (hl ▸ hlt) h
    | restarted lt hlt h => exact .restarted lt (hl ▸ hlt) h
    | dropped lt hlt hd h => exact .dropped lt (hl ▸ hlt) hd h
  | sent v e hlv hsv hgv hv => exact .sent v e (hlv.trans hl) (hsv.trans hs) (hg.trans hgv) hv

theorem signalError_login (w : World) (code : EngineError) (sub : Int) :
    (w.signalError code sub).eng.login_task = w.eng.login_task := by
  rw [signalError]
  split <;> rfl

/-- An error does not open the engine. -/
theorem signalError_open {code : EngineError} {sub : Int}
    (h : (w.signalError code sub).eng.state = .open) : w.eng.state = .open := by
  rw [signalError] at h
  split at h
  · cases h
  · exact h

theorem signalError_task (w : World) (code : EngineError) (sub : Int) :
    TaskStep w (w.signalError code sub) :=
  .change (.kept (signalError_login w code sub)) signalError_open
    (.of_eq (signalError_log w code sub))

theorem incoming_task {ev : StanzaEvent} (h : Incoming w ev r) : TaskStep w r.1 := by
  have hp : Grows (fun ev => ev.isTask = false) w (w.emit (.parsed ev)) := .emit w rfl
  cases h with
  | blocked hb => exact .of_kept rfl rfl (.refl w)
  | login lt e isStart hb hl => exact .change (.given lt _ _ hl rfl) id (.emit w rfl)
  | streamError stanza hb =>
    have hs : TaskStep (w.emit (.parsed ev))
        ((w.emit (.parsed ev)).signalStreamError stanza) := by
      rw [signalStreamError]
      split
      · exact (signalError_task _ _ _).after rfl rfl (.of_eq rfl)
      · exact .of_kept rfl rfl (.refl _)
    exact hs.after rfl rfl hp
  | error code hc hb => exact (signalError_task _ _ _).after rfl rfl hp
  | response stanza entry hb hl hev hn ht hi hf =>
    exact .of_kept rfl rfl ⟨[.parsed ev, .callback (.iqResponse entry stanza)],
      by simp [callOut], by simp [Event.isTask]⟩
  | dispatch stanza hb hl hev => exact .of_kept rfl rfl hp

/-- The events of a statement that is no round and sends nothing. -/
theorem mayEmit_task {ev : Event} (hs : s ≠ .advance) (hu : ∀ stanza, s ≠ .unhandled stanza)
    (h : s.mayEmit ev = true) : ev.isTask = false := by
  cases s with
  | advance => exact absurd rfl hs
  | unhandled stanza => exact absurd rfl (hu stanza)
  | _ => cases ev with
    | callback cb => cases cb <;> first | rfl | exact absurd h Bool.false_ne_true
    | _ => first | rfl | exact absurd h Bool.false_ne_true

/-- Every statement but a round of the login task. -/
theorem exec_task (hs : s ≠ .advance) (h : w.exec s = some r) : TaskStep w r.1 := by
  have hframe := exec_frame h
  have hgrow : (∀ stanza, s ≠ .unhandled stanza) → Grows (fun ev => ev.isTask = false) w r.1 :=
    fun hu => hframe.grows.mono fun ev hev => mayEmit_task hs hu hev
  -- outside of input the task stays as it is
  have hscope : s.isInput = false → r.1.eng.login_task = w.eng.login_task → TaskStep w r.1 := by
    intro hi hl
    refine .of_kept hl (hframe.state hi) (hgrow ?_)
    rintro stanza rfl
    cases hi
  -- the reset of the parser is none of the task's
  have hreset : (afterReset w).eng.login_task = w.eng.login_task := by
    rcases afterReset_eq w with h | ⟨-, h⟩ <;> rw [h]
    rfl
  cases s with
  | callback cb => cases h
  | advance => exact absurd rfl hs
  | exitScope saved =>
    refine hscope rfl ?_
    cases exec_exitScope h <;> rfl
  | afterWrite saved closing =>
    refine hscope rfl ?_
    obtain rfl := Option.some.inj h
    cases closing <;> rfl
  | afterClose | returned =>
    obtain rfl := Option.some.inj h
    exact hscope rfl rfl
  | leaveScope saved =>
    refine hscope rfl ?_
    cases exec_leaveScope h with
    | inner he => rfl
    | notify | silent => exact hreset
  | parse events status =>
    have hg := hgrow (by simp)
    obtain rfl := Option.some.inj h
    cases events <;> exact .of_kept rfl rfl hg
  | incoming ev => exact incoming_task (exec_incoming h)
  | startedTls =>
    obtain rfl := Option.some.inj h
    exact .of_kept rfl rfl (.of_eq rfl)
  | tlsStarted =>
    obtain ⟨lt, hl, rfl⟩ := Option.map_eq_some_iff.1 h
    exact .change (.restarted lt hl rfl) id (.of_eq rfl)
  | advanced =>
    obtain ⟨lt, hl, rfl⟩ := Option.map_eq_some_iff.1 h
    exact .change (.given lt _ _ hl rfl) id (.of_eq rfl)
  | resetLogin =>
    obtain ⟨lt, hl, rfl⟩ := Option.map_eq_some_iff.1 h
    dsimp only
    split
    · rename_i hd
      exact .change (.dropped lt hl hd rfl) id (.of_eq rfl)
    · exact .of_kept rfl rfl (.refl w)
  | peek stanza i =>
    have hg := hgrow (by simp)
    obtain rfl := Option.some.inj h
    rw [peek]
    split
    · exact .of_kept rfl rfl (.emit w rfl)
    · exact .of_kept rfl rfl (.refl w)
  | dispatch stanza level i =>
    obtain rfl := Option.some.inj h
    rw [dispatch]
    split
    · exact .of_kept rfl rfl (.emit w rfl)
    · split <;> exact .of_kept rfl rfl (.refl w)
  | unhandled stanza =>
    obtain rfl := Option.some.inj h
    rcases unhandled_cases w stanza with h | ⟨-, v, hv, h⟩ <;> rw [h]
    · exact .of_kept rfl rfl (.refl w)
    · exact .sent w _ rfl rfl (.refl w) hv
  | deleteEntry entry =>
    obtain rfl := Option.some.inj h
    exact .of_kept rfl rfl (.emit w rfl)

/-- The entry of a function. -/
theorem entry_task {m : Call} (h : Entry w m r) : TaskStep w r.1 := by
  cases h with
  | refused m status hst => exact .of_kept rfl rfl (.refl w)
  | configured m eng hm hs hu | stored m eng status hm hu =>
    exact .of_kept hu.login_task hu.state (.of_eq rfl)
  | connect lt hs hl => exact .change (.given lt _ _ hl rfl) (fun h => by cases h) (.of_eq rfl)
  | connectDone hs hl => exact .change (.kept rfl) (fun h => by cases h) (.of_eq rfl)
  | handleInput | inputStopped => exact .of_kept rfl rfl (.of_eq rfl)
  | connectionClosed subcode code sub hc hs =>
    exact (signalError_task w.enterExit code sub).after rfl rfl (.of_eq rfl)
  | sent m e v hs hm hv => exact .sent w e rfl rfl (.refl w) hv
  | sentIq e h v hs hb hv =>
    exact .sent (registerIq w (iqEntry w e h)) e rfl rfl ⟨[_], rfl, by simp [Event.isTask]⟩ hv
  | sendRaw text hs hl => exact .of_kept rfl rfl (.write w.enterExit text rfl)
  | removed cookie entry hf => exact .of_kept rfl rfl ⟨[_], rfl, by simp [Event.isTask]⟩
  | disconnect hs =>
    have hw : Grows (fun ev => ev.isTask = false) w
        (w.enterExit.write (str "</stream:stream>")) := .write w.enterExit _ rfl
    refine .change (.kept ?_) (fun h => by cases h) ?_
    · dsimp only [set_eng]
      split <;> rfl
    · dsimp only
      split
      · exact hw
      · exact .of_eq rfl

/-- A step of a run is a round of the login task, or one of the list. -/
theorem step_task {c c' : Conf} {a : Step} (h : engine.step c a = some c') :
    TaskStep c.state c'.state ∨
    ∃ lt rest r, c.control = .advance :: rest ∧ c.state.eng.login_task = some lt ∧
      Round c.state lt r ∧ c' = ⟨r.1, r.2 ++ rest⟩ := by
  rcases step_cases h with ⟨s, rest, r, -, hcontrol, -, hr, rfl⟩ | ⟨m, -, -, rfl⟩ |
    ⟨v, s, rest, -, -, -, rfl⟩
  · by_cases hs : s = .advance
    · subst hs
      obtain ⟨lt, hl, hround⟩ := exec_advance hr
      exact .inr ⟨lt, rest, r, hcontrol, hl, hround, rfl⟩
    · exact .inl (exec_task hs hr)
  · exact .inl ((entry_task (enter_entry c.state m)).after rfl rfl (.emit c.state rfl))
  · exact .inl (.of_kept rfl rfl (.refl c.state))

/-- A step only adds to the history. -/
theorem step_grows {c c' : Conf} {a : Step} (h : engine.step c a = some c') :
    ∃ evs, c'.state.log = c.state.log ++ evs := by
  rcases step_cases h with ⟨s, rest, r, -, -, -, hr, rfl⟩ | ⟨m, -, -, rfl⟩ |
    ⟨v, s, rest, -, -, -, rfl⟩
  · obtain ⟨evs, hl, -⟩ := (exec_frame hr).grows
    exact ⟨evs, hl⟩
  · obtain ⟨evs, hl, -⟩ := (entry_frame (enter_entry c.state m)).grows
    exact ⟨.called m :: evs, hl.trans (List.append_assoc _ _ _)⟩
  · exact ⟨[], (List.append_nil _).symm⟩

/-! ## Closing the engine -/

theorem signalBound_closed (w : World) (jid : Jid) :
    (w.signalBound jid).eng.state = .closed ↔ w.eng.state = .closed := by
  rw [signalBound]
  dsimp only
  split
  · rename_i ho
    rw [show w.eng.state = .opening from ho]
    simp
  · exact Iff.rfl

theorem flush_state (w : World) (lt : XmppLoginTask) :
    (XmppLoginTask.flushQueuedStanzas w lt).1.eng.state = w.eng.state := by
  have h : ∀ (l : List XmlElement) (w : World),
      (l.foldl (fun w e => (w.emit (.printed e)).internalSendStanza e) w).eng.state
        = w.eng.state := by
    intro l
    induction l with
    | nil => exact fun w => rfl
    | cons e l ih => exact fun w => ih _
  exact h _ w

theorem signalError_closed {code : EngineError} {sub : Int} (hn : w.eng.state ≠ .closed)
    (hc : code ≠ .none) : (w.signalError code sub).eng.error_code ≠ .none := by
  rw [signalError, if_pos hn]
  exact hc

/-- A round that closes the engine is a failure: it sets the error, and the loop ends. -/
theorem round_closes {lt : XmppLoginTask} (h : Round w lt r) (hn : w.eng.state ≠ .closed)
    (hc : r.1.eng.state = .closed) : r.2 = [] ∧ r.1.eng.error_code ≠ .none := by
  have hsame : r.1.eng.state = w.eng.state → r.2 = [] ∧ r.1.eng.error_code ≠ .none :=
    fun heq => absurd (heq.symm.trans hc) hn
  have hfail : ∀ {v lt' reason}, v.eng.state = w.eng.state → reason ≠ .none →
      (XmppLoginTask.failure v lt' reason).1.eng.error_code ≠ .none := by
    intro v lt' reason hv hr
    exact signalError_closed (w := v.setLogin { lt' with state := .done }) (hv ▸ hn) hr
  cases h with
  | lacking reason hs hr | refused e lt' reason he hs hr => exact ⟨rfl, hfail rfl hr⟩
  | unchosen | unstarted => exact ⟨rfl, hfail rfl (by decide)⟩
  | sessionStarted e hs =>
    refine absurd ((signalBound_closed (XmppLoginTask.nextStanza w lt e).1 lt.fullJid).1 ?_) hn
    rw [← flush_state _ (XmppLoginTask.nextStanza w lt e).2]
    exact hc
  | idle | restart | streamStarted | featuresTls | featuresAuth | featuresBind | proceed
  | proceedUnhandled | authenticated | ignored => exact hsame rfl
  | tlsAsked | authSent | challenged | bindAsked | bound =>
    exact hsame (XmppLoginTask.goto_send_state ..)

/-- A statement that closes the engine sets the error, and leaves nothing to do. -/
theorem exec_closes (hs : s.isInput = true) (h : w.exec s = some r) (hn : w.eng.state ≠ .closed)
    (hc : r.1.eng.state = .closed) : r.2 = [] ∧ r.1.eng.error_code ≠ .none := by
  have hsame : r.1.eng.state = w.eng.state → r.2 = [] ∧ r.1.eng.error_code ≠ .none :=
    fun heq => absurd (heq.symm.trans hc) hn
  cases s with
  | parse events status =>
    obtain rfl := Option.some.inj h
    cases events <;> exact hsame rfl
  | incoming ev =>
    cases exec_incoming h with
    | streamError stanza hb =>
      refine ⟨rfl, ?_⟩
      dsimp only
      rw [signalStreamError, if_pos (show (w.emit (.parsed ev)).eng.state ≠ .closed from hn)]
      exact signalError_closed (w := (w.emit (.parsed ev)).set
        { (w.emit (.parsed ev)).eng with stream_error := some stanza }) hn (by decide)
    | error code hcode hb =>
      exact ⟨rfl, signalError_closed (w := w.emit (.parsed ev)) hn hcode⟩
    | _ => exact hsame rfl
  | advance =>
    obtain ⟨lt, -, hr⟩ := exec_advance h
    exact round_closes hr hn hc
  | startedTls | deleteEntry =>
    obtain rfl := Option.some.inj h
    exact hsame rfl
  | tlsStarted | advanced =>
    obtain ⟨lt, -, rfl⟩ := Option.map_eq_some_iff.1 h
    exact hsame rfl
  | resetLogin =>
    obtain ⟨lt, -, rfl⟩ := Option.map_eq_some_iff.1 h
    refine hsame ?_
    dsimp only
    split <;> rfl
  | peek stanza i =>
    obtain rfl := Option.some.inj h
    refine hsame ?_
    rw [peek]
    split <;> rfl
  | dispatch stanza level i =>
    obtain rfl := Option.some.inj h
    refine hsame ?_
    rw [dispatch]
    split
    · rfl
    · split <;> rfl
  | unhandled stanza =>
    obtain rfl := Option.some.inj h
    refine hsame ?_
    rcases unhandled_cases w stanza with h | ⟨-, v, hv, h⟩ <;> rw [h]
    exact hv.frame.1.state
  | _ => cases hs

end Gxmpp
