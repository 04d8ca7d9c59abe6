/-
The handshake with TLS required.

Two things are guaranteed by the order of the states of the login task. Where TLS is
required and there is an output handler when `Connect` is called, nothing of the
authentication happens before `StartTls` has been called on that handler
(`TlsFirst`). And the engine is open only after the server has granted, in this
order, the authentication, a resource and a session (`Opened`).

The second needs an invariant of the login task alone, `Handshake`. The first also
needs to know where the application can interfere: until `StartTls` the engine calls
the application only from `EnterExit` scopes, when no input is being treated any
more, so an application that disconnects there leaves no stanza that could still
come to the login task. `beforeTls` says this about the stack.
-/
import Gxmpp.EngineShape
import Mathlib.Data.List.TakeWhile

set_option autoImplicit false

namespace Gxmpp

open World Reentrant XmppLoginTask

/-! ## What is guaranteed -/

/-- `StartTls` is called on the output handler. -/
def Event.isStartTls : Event → Bool
  | .callback (.startTls _) => true
  | _ => false

/-- A step of the authentication, or the end of the handshake. -/
def Event.isSasl : Event → Bool
  | .chose _ _ _ | .gotMechanism _ | .sentByLogin .authInit _ | .sentByLogin .saslRunning _
  | .signalBound _ => true
  | _ => false

/-- Nothing of the authentication happens before `StartTls`. -/
def TlsFirst (log : List Event) : Prop :=
  ∀ ev ∈ log.takeWhile (fun ev => !ev.isStartTls), ev.isSasl = false

/-- The server has granted the authentication. -/
def Authenticated (log : List Event) : Prop :=
  ∃ b success, granted .saslRunning success = true ∧
    [Event.took .saslRunning b success].Sublist log

/-- After that it has granted a resource, and a session was asked for, with this id. -/
def SessionAsked (id : Str) (log : List Event) : Prop :=
  ∃ b success b' bind, granted .saslRunning success = true ∧ granted .bindRequested bind = true ∧
    [Event.took .saslRunning b success, .took .bindRequested b' bind,
      .sentByLogin .bindRequested (sessionRequest id)].Sublist log

/-- And after that it has granted the session: the result has the id of the request. -/
def Opened (log : List Event) : Prop :=
  ∃ b success b' bind id b'' session, granted .saslRunning success = true ∧
    granted .bindRequested bind = true ∧ granted .sessionRequested session = true ∧
    session.attr QN_ID = id ∧
    [Event.took .saslRunning b success, .took .bindRequested b' bind,
      .sentByLogin .bindRequested (sessionRequest id),
      .took .sessionRequested b'' session].Sublist log

variable {log : List Event} {lt : XmppLoginTask} {w w' : World} {r : World × List Stmt} {c : Conf}
  {s : Stmt} {rest : List Stmt}

theorem Authenticated.append (h : Authenticated log) (evs : List Event) :
    Authenticated (log ++ evs) := by
  obtain ⟨b, success, hs, hl⟩ := h
  exact ⟨b, success, hs, hl.trans (List.sublist_append_left _ _)⟩

theorem SessionAsked.append {id : Str} (h : SessionAsked id log) (evs : List Event) :
    SessionAsked id (log ++ evs) := by
  obtain ⟨b, success, b', bind, hs, hb, hl⟩ := h
  exact ⟨b, success, b', bind, hs, hb, hl.trans (List.sublist_append_left _ _)⟩

theorem Opened.append (h : Opened log) (evs : List Event) : Opened (log ++ evs) := by
  obtain ⟨b, success, b', bind, id, b'', session, hs, hb, hse, hid, hl⟩ := h
  exact ⟨b, success, b', bind, id, b'', session, hs, hb, hse, hid,
    hl.trans (List.sublist_append_left _ _)⟩

/-! ## The handshake -/

/-- How far the handshake is, from the state of the login task. -/
structure HandshakeTask (log : List Event) (lt : XmppLoginTask) : Prop where
  authenticated : lt.authNeeded = false → Authenticated log
  binding : lt.state = .bindInit ∨ lt.state = .bindRequested → lt.authNeeded = false
  session : lt.state = .sessionRequested → SessionAsked lt.iqId log

/-- How far the handshake is. -/
structure Handshake (w : World) : Prop where
  login : ∀ lt, w.eng.login_task = some lt → HandshakeTask w.log lt
  opened : w.eng.state = .open → Opened w.log

/-- A task in a state that demands nothing. -/
theorem HandshakeTask.of_auth (h : lt.authNeeded = false → Authenticated log)
    (hb : lt.state ≠ .bindInit) (hr : lt.state ≠ .bindRequested)
    (hs : lt.state ≠ .sessionRequested) : HandshakeTask log lt :=
  ⟨h, fun hn => absurd hn (by simp [hb, hr]), fun hn => absurd hn hs⟩

/-- The history grows. -/
theorem HandshakeTask.append (h : HandshakeTask log lt) (evs : List Event) :
    HandshakeTask (log ++ evs) lt :=
  ⟨fun ha => (h.authenticated ha).append evs, h.binding, fun hs => (h.session hs).append evs⟩

/-- With the session result the server has granted everything. -/
theorem HandshakeTask.opened {e : XmlElement} (h : HandshakeTask log lt)
    (hs : lt.state = .sessionRequested) (hg : granted lt.state e = true)
    (ha : notTheAnswer lt e = false) : Opened (log ++ [.took lt.state lt.isStart e]) := by
  obtain ⟨b, success, b', bind, hsucc, hbind, hsub⟩ := h.session hs
  have hid : e.attr QN_ID = lt.iqId := by
    by_contra hne
    simp [notTheAnswer, hne] at ha
  refine ⟨b, success, b', bind, lt.iqId, lt.isStart, e, hsucc, hbind, hs ▸ hg, hid, ?_⟩
  rw [hs]
  exact hsub.append (List.Sublist.refl [Event.took .sessionRequested lt.isStart e])

/-- A step that is no round of the login task keeps the handshake where it is. -/
theorem TaskStep.handshake (h : Handshake w) (hstep : TaskStep w w') : Handshake w' := by
  cases hstep with
  | change hc hs hg =>
    obtain ⟨evs, hl, -⟩ := hg
    refine ⟨fun lt' hlt' => ?_, fun ho => ?_⟩
    · rw [hl]
      cases hc with
      | kept hk => exact (h.login lt' (hk ▸ hlt')).append evs
      | given lt element isStart hlt hk =>
        rw [hk] at hlt'
        obtain rfl := Option.some.inj hlt'
        have := (h.login lt hlt).append evs
        exact ⟨this.authenticated, this.binding, this.session⟩
      | restarted lt hlt hk =>
        rw [hk] at hlt'
        obtain rfl := Option.some.inj hlt'
        have := (h.login lt hlt).append evs
        exact .of_auth this.authenticated (by simp) (by simp) (by simp)
      | dropped lt hlt hd hk =>
        rw [hk] at hlt'
        cases hlt'
    · rw [hl]
      exact (h.opened (hs ho)).append evs
  | sent v e hlv hsv hg hv =>
    obtain ⟨evs, hl, -⟩ := hg
    obtain ⟨evs', hl', -⟩ := hv.frame.1.grows
    refine ⟨fun lt' hlt' => ?_, fun ho => ?_⟩
    · rw [hl', hl]
      cases hv with
      | queued lt hlt =>
        obtain rfl := Option.some.inj hlt'
        have := ((h.login lt (hlv ▸ hlt)).append evs).append evs'
        exact ⟨this.authenticated, this.binding, this.session⟩
      | through hlt =>
        have hn : v.eng.login_task = some lt' := hlt'
        rw [hlt] at hn
        cases hn
    · rw [hl', hl]
      rw [hv.frame.1.state, hsv] at ho
      exact ((h.opened ho).append evs).append evs'

/-- A round of the login task takes the handshake one step further, or lets it fail. -/
theorem round_handshake (h : Handshake w) (hl : w.eng.login_task = some lt)
    (hround : Round w lt r) : Handshake r.1 := by
  have htask := h.login lt hl
  obtain ⟨evs, hlog, -⟩ := (round_frame hround).1.grows
  -- a round that does not open the engine
  have hkeep : (r.1.eng.state = .open → w.eng.state = .open) →
      (∀ lt', r.1.eng.login_task = some lt' → HandshakeTask r.1.log lt') → Handshake r.1 := by
    intro hs hlogin
    refine ⟨hlogin, fun ho => ?_⟩
    rw [hlog]
    exact (h.opened (hs ho)).append evs
  have hauth : lt.authNeeded = false → Authenticated r.1.log := fun ha => by
    rw [hlog]
    exact (htask.authenticated ha).append evs
  -- a round that goes to a state that demands nothing
  have hplain : ∀ {l : XmppLoginTask}, (r.1.eng.state = .open → w.eng.state = .open) →
      r.1.eng.login_task = some l → (l.authNeeded = false → lt.authNeeded = false) →
      l.state ≠ .bindInit → l.state ≠ .bindRequested → l.state ≠ .sessionRequested →
      Handshake r.1 := by
    intro l hs hlt ha hb hbr hsr
    refine hkeep hs fun x hx => ?_
    rw [hlt] at hx
    obtain rfl := Option.some.inj hx
    exact .of_auth (fun hn => hauth (ha hn)) hb hbr hsr
  have hfail : ∀ {v : World} {lt' : XmppLoginTask} {reason : EngineError},
      r = failure v lt' reason → v.eng.state = w.eng.state →
      (lt'.authNeeded = false → lt.authNeeded = false) → Handshake r.1 := by
    rintro v lt' reason rfl hs ha
    refine hplain (l := { lt' with state := .done }) (fun ho => ?_) ?_ ha (by simp) (by simp)
      (by simp)
    · have hv : v.eng.state = .open :=
        signalError_open (w := v.setLogin { lt' with state := .done }) ho
      rw [← hs]
      exact hv
    · exact signalError_login _ _ _
  cases hround with
  | idle hs => exact h
  | restart | streamStarted | featuresTls | featuresAuth =>
    exact hplain id rfl id (by simp) (by simp) (by simp)
  | lacking | unchosen | unstarted => exact hfail rfl rfl id
  | refused e lt' reason he hs hr hg hq ha => exact hfail rfl rfl fun hn => ha ▸ hn
  | featuresBind e hs ha ht =>
    refine hkeep id fun x hx => ?_
    obtain rfl := Option.some.inj hx
    exact ⟨hauth, fun _ => ha, fun hn => by cases hn⟩
  | tlsAsked | authSent | challenged =>
    exact hplain (goto_send_state ..).symm.trans (goto_login ..) id (by simp) (by simp)
      (by simp)
  | proceed e domain hs | proceedUnhandled e hs =>
    exact hplain id rfl id (by simp [nextStanza, hs]) (by simp [nextStanza, hs])
      (by simp [nextStanza, hs])
  | authenticated e hs hg =>
    refine hkeep id fun x hx => ?_
    obtain rfl := Option.some.inj hx
    refine .of_auth (fun _ => ⟨lt.isStart, e, ?_, ?_⟩) (by simp) (by simp) (by simp)
    · rw [← hs]
      exact hg
    · rw [← hs]
      exact List.sublist_append_right _ _
  | bindAsked hs =>
    refine hkeep (goto_send_state ..).symm.trans fun x hx => ?_
    obtain rfl := Option.some.inj hx
    exact ⟨hauth, fun _ => htask.binding (.inl hs), fun hn => by cases hn⟩
  | ignored e hs ha =>
    refine hkeep id fun x hx => ?_
    obtain rfl := Option.some.inj hx
    refine ⟨hauth, htask.binding, fun hn => ?_⟩
    rw [hlog]
    exact (htask.session hn).append evs
  | bound e bind hs hg hb ha =>
    refine hkeep (goto_send_state ..).symm.trans fun x hx => ?_
    obtain rfl := Option.some.inj hx
    have hneeded := htask.binding (.inr hs)
    refine ⟨hauth, fun _ => hneeded, fun _ => ?_⟩
    obtain ⟨b, success, hsucc, hsub⟩ := htask.authenticated hneeded
    refine ⟨b, success, lt.isStart, e, hsucc, hs ▸ hg, ?_⟩
    obtain ⟨bytes, hsend⟩ := send_log (nextStanza w lt e).1.nextId.1
      { (nextStanza w lt e).2 with
        fullJid := Jid.ofString (bind.textNamed QN_BIND_JID)
        iqId := w.nextId.2 } (sessionRequest w.nextId.2)
    rw [goto_log, hsend]
    have htook : (nextStanza w lt e).1.nextId.1.log
        = w.log ++ [.took .bindRequested lt.isStart e] := by
      rw [← hs]
      rfl
    rw [htook, show (nextStanza w lt e).2.state = .bindRequested from hs]
    refine List.Sublist.trans ?_ (List.sublist_append_left _ _)
    have htwo := hsub.append (List.Sublist.refl [Event.took .bindRequested lt.isStart e])
    exact htwo.append (List.Sublist.refl
      [Event.sentByLogin .bindRequested (sessionRequest w.nextId.2)])
  | sessionStarted e hs hg ha =>
    refine ⟨fun x hx => ?_, fun _ => ?_⟩
    · obtain rfl := Option.some.inj hx
      exact .of_auth hauth (by simp) (by simp) (by simp)
    · -- the result is the first event of the round
      have hbound : Grows (fun _ => True) (nextStanza w lt e).1
          ((flushQueuedStanzas ((nextStanza w lt e).1.signalBound lt.fullJid)
            (nextStanza w lt e).2).1.setLogin
            { (nextStanza w lt e).2 with pvecQueuedStanzas := [], state := .done }) :=
        (((LoginFrame.signalBound _ _).trans (LoginFrame.flush _ _)).trans
          (LoginFrame.setLogin _ _)).grows.mono fun _ _ => trivial
      obtain ⟨evs', hl', -⟩ := hbound
      rw [hl']
      exact (htask.opened hs hg ha).append evs'

/-- The handshake in every run. -/
theorem handshake_reachable (h : Reachable c) : Handshake c.state := by
  refine Reaches.invariant (I := fun c : Conf => Handshake c.state) h ?_ ?_
  · refine ⟨fun lt hlt => ?_, fun ho => by cases ho⟩
    obtain rfl := Option.some.inj hlt
    exact .of_auth (fun hn => by cases hn) (by simp [XmppLoginTask.init])
      (by simp [XmppLoginTask.init]) (by simp [XmppLoginTask.init])
  · intro c a c' _ hc _ hs
    rcases step_task hs with htask | ⟨lt, rest, r, -, hl, hround, rfl⟩
    · exact htask.handshake hc
    · exact round_handshake hc hl hround

/-! ## Before `StartTls` -/

/-- The states of the login task before the authentication. -/
def LoginTaskState.isEarly : LoginTaskState → Bool
  | .init | .streamstartSent | .startedXmpp | .tlsInit | .tlsRequested => true
  | _ => false

/-- The statements that can be pending before the authentication. The application is
called from scopes only. -/
def Stmt.isEarly : Stmt → Bool
  | .callback (.startTls _) | .callback (.handleStanza _ _ _ _) | .callback (.iqResponse _ _)
  | .startedTls | .tlsStarted | .peek _ _ | .dispatch _ _ _ | .unhandled _ | .deleteEntry _ => false
  | _ => true

/-- An engine that has not called `StartTls`. -/
structure BeforeTls (w : World) : Prop where
  started : EngineState.start.rank < w.eng.state.rank
  required : w.eng.tls_option = .required
  output_handler : w.eng.state ≠ .closed → w.eng.output_handler = true
  login : w.eng.error_code ≠ .none ∨ ∃ lt, w.eng.login_task = some lt ∧
    lt.state.isEarly = true ∧ lt.authNeeded = true
  untouched : ∀ ev ∈ w.log, ev.isSasl = false

/-- Input is pending only on top of the stack, and behind an error if the engine is
closed; the loop of the login task only as its head. -/
def beforeTls : Invariant World Stmt where
  global := BeforeTls
  frame w s := s.isEarly = true ∧
    (s.isInput = true → w.eng.state = .closed → w.eng.error_code ≠ .none ∧ s ≠ .advance)
  below x l := (l.isInput = true → x.isInput = true) ∧ l ≠ .advance

theorem isSasl_of_isTask {ev : Event} (h : ev.isTask = false) : ev.isSasl = false := by
  cases ev with
  | sentByLogin s e => cases h
  | _ => first | rfl | cases h

theorem untouched_grow (h : ∀ ev ∈ w.log, ev.isSasl = false)
    (hg : Grows (fun ev => ev.isSasl = false) w w') : ∀ ev ∈ w'.log, ev.isSasl = false := by
  obtain ⟨evs, hl, hp⟩ := hg
  intro ev hev
  rw [hl] at hev
  rcases List.mem_append.1 hev with hev | hev
  · exact h ev hev
  · exact hp ev hev

/-- A step that leaves the option and the handler alone. -/
theorem BeforeTls.step (h : BeforeTls w) (hf : Forward w w')
    (ht : w'.eng.tls_option = w.eng.tls_option)
    (ho : w'.eng.state ≠ .closed → w'.eng.output_handler = w.eng.output_handler)
    (hl : w'.eng.error_code ≠ .none ∨ ∃ lt, w'.eng.login_task = some lt ∧
      lt.state.isEarly = true ∧ lt.authNeeded = true)
    (hg : Grows (fun ev => ev.isSasl = false) w w') : BeforeTls w' where
  started := Nat.lt_of_lt_of_le h.started hf.rank
  required := ht.trans h.required
  output_handler hc := (ho hc).trans (h.output_handler fun hn => hc (hf.closed hn))
  login := hl
  untouched := untouched_grow h.untouched hg

/-- An early round: nothing of the authentication happens, and unless `StartTls` is
called the task stays early. -/
theorem round_early (h : BeforeTls w) (hopen : w.eng.state ≠ .closed)
    (hearly : lt.state.isEarly = true) (hauth : lt.authNeeded = true)
    (hl : w.eng.login_task = some lt) (hround : Round w lt r) :
    (∀ ev ∈ r.1.log, ev.isSasl = false) ∧
    ((∃ ev ∈ r.1.log, ev.isStartTls = true) ∨
      (BeforeTls r.1 ∧ (r.2 = [] ∨ r.2 = [.advance] ∧ r.1.eng.state = w.eng.state))) := by
  have hframe := (round_frame hround).1
  have hcloses := round_closes hround hopen
  -- a round after which the task is early, or the engine closed
  have hdone : Grows (fun ev => ev.isSasl = false) w r.1 →
      (r.1.eng.error_code ≠ .none ∨ ∃ lt', r.1.eng.login_task = some lt' ∧
        lt'.state.isEarly = true ∧ lt'.authNeeded = true) →
      (r.2 = [] ∨ r.2 = [.advance] ∧ r.1.eng.state = w.eng.state) →
      (∀ ev ∈ r.1.log, ev.isSasl = false) ∧
      ((∃ ev ∈ r.1.log, ev.isStartTls = true) ∨
        (BeforeTls r.1 ∧ (r.2 = [] ∨ r.2 = [.advance] ∧ r.1.eng.state = w.eng.state))) :=
    fun hg hlt hp => ⟨untouched_grow h.untouched hg,
      .inr ⟨h.step hframe.forward hframe.tls_option (fun _ => hframe.output_handler) hlt hg, hp⟩⟩
  -- the later states are not reached yet
  have hnot : ∀ {s : LoginTaskState}, lt.state = s → s.isEarly = false → False := by
    intro s hs hn
    rw [hs, hn] at hearly
    cases hearly
  have htook : ∀ e, Grows (fun ev => ev.isSasl = false) w (nextStanza w lt e).1 :=
    fun e => .emit w rfl
  have hsig : ∀ {v : World} {lt' reason}, v.eng.state = w.eng.state → reason ≠ .none →
      (failure v lt' reason).1.eng.error_code ≠ .none := by
    intro v lt' reason hv hr
    exact signalError_closed (w := v.setLogin { lt' with state := .done }) (hv ▸ hopen) hr
  have hlog : ∀ {v : World} {lt' reason}, (failure v lt' reason).1.log = v.log :=
    signalError_log _ _ _
  cases hround with
  | idle hs => exact hdone (.refl w) (.inr ⟨lt, hl, hearly, hauth⟩) (.inl rfl)
  | restart hs =>
    exact hdone (.write w.raiseReset _ rfl) (.inr ⟨_, rfl, rfl, hauth⟩) (.inr ⟨rfl, rfl⟩)
  | lacking reason hs hr => exact hdone (.of_eq hlog) (.inl (hsig rfl hr)) (.inl rfl)
  | refused e lt' reason he hs hr hg hq ha =>
    exact hdone ((htook e).trans (.of_eq hlog)) (.inl (hsig rfl hr)) (.inl rfl)
  | streamStarted e hs => exact hdone (htook e) (.inr ⟨_, rfl, rfl, hauth⟩) (.inl rfl)
  | featuresTls e hs => exact hdone (htook e) (.inr ⟨_, rfl, rfl, hauth⟩) (.inr ⟨rfl, rfl⟩)
  -- TLS is required, so the features without it are no way on
  | featuresAuth e hs ha ht => exact absurd h.required ht
  | featuresBind e hs ha ht => exact absurd h.required ht
  | tlsAsked hs =>
    have hsend : Grows (fun ev => ev.isSasl = false) w
        (send w lt (XmlElement.new QN_TLS_STARTTLS true)) := by
      refine Grows.trans ?_ (.write _ _ rfl)
      refine ⟨[.sentByLogin lt.state (XmlElement.new QN_TLS_STARTTLS true)], rfl, ?_⟩
      simp [Event.isSasl, hs]
    exact hdone hsend (.inr ⟨_, goto_login .., rfl, hauth⟩)
      (.inr ⟨rfl, goto_send_state ..⟩)
  | proceed e domain hs hg ho =>
    refine ⟨untouched_grow h.untouched ((htook e).trans (.emit _ rfl)), .inl ?_⟩
    exact ⟨.callback (.startTls domain), by simp [callOut], rfl⟩
  -- an engine that is not closed still has its output handler
  | proceedUnhandled e hs hg ho =>
    rw [h.output_handler hopen] at ho
    cases ho
  | unchosen sh mechanisms hs | unstarted sh mechanisms choice mech hs
  | authSent sh mechanisms choice mech auth hs | challenged e response hs | authenticated e hs
  | bindAsked hs | bound e bind hs | sessionStarted e hs => exact (hnot hs rfl).elim
  | ignored e hs ha => exact (hs.elim (hnot · rfl) (hnot · rfl)).elim

/-- The login task stays early in a step that is none of its rounds. -/
theorem TaskStep.early (h : TaskStep w w') (hf : Forward w w') (hb : CloseGlobal w)
    (hl : w.eng.error_code ≠ .none ∨ ∃ lt, w.eng.login_task = some lt ∧
      lt.state.isEarly = true ∧ lt.authNeeded = true) :
    (w'.eng.error_code ≠ .none ∨ ∃ lt, w'.eng.login_task = some lt ∧
      lt.state.isEarly = true ∧ lt.authNeeded = true) ∧
    Grows (fun ev => ev.isSasl = false) w w' := by
  constructor
  · by_cases he : w.eng.error_code = .none
    · obtain ⟨lt, hlt, hearly, hauth⟩ := hl.resolve_left (fun hn => hn he)
      refine .inr ?_
      cases h with
      | change hc hs hg =>
        cases hc with
        | kept hk => exact ⟨lt, hk.trans hlt, hearly, hauth⟩
        | given lt' element isStart hlt' hk =>
          rw [hlt] at hlt'
          obtain rfl := Option.some.inj hlt'
          exact ⟨_, hk, hearly, hauth⟩
        | restarted lt' hlt' hk =>
          rw [hlt] at hlt'
          obtain rfl := Option.some.inj hlt'
          exact ⟨_, hk, rfl, hauth⟩
        | dropped lt' hlt' hd hk =>
          rw [hlt] at hlt'
          obtain rfl := Option.some.inj hlt'
          rw [hd] at hearly
          cases hearly
      | sent v e hlv hsv hg hv =>
        cases hv with
        | queued lt' hlt' =>
          rw [hlv, hlt] at hlt'
          obtain rfl := Option.some.inj hlt'
          exact ⟨_, rfl, hearly, hauth⟩
        | through hlt' =>
          rw [hlv, hlt] at hlt'
          cases hlt'
    · refine .inl fun hn => ?_
      rcases hf.error with heq | ⟨hopen, -⟩
      · exact he (heq ▸ hn)
      · exact hopen (hb.error he)
  · cases h with
    | change hc hs hg => exact hg.mono fun ev hev => isSasl_of_isTask hev
    | sent v e hlv hsv hg hv =>
      refine (hg.mono fun ev hev => isSasl_of_isTask hev).trans (hv.frame.1.grows.mono ?_)
      intro ev hev
      cases ev <;> first | rfl | cases hev

theorem mayPush_early {p : Stmt} (h : s.mayPush p = true) (hs : s.isEarly = true)
    (ha : s ≠ .advance) (hi : ∀ ev, s ≠ .incoming ev) :
    p.isEarly = true ∧ p ≠ .advance ∧ p.isInput = s.isInput := by
  cases s with
  | incoming ev => exact absurd rfl (hi ev)
  | advance => exact absurd rfl ha
  | callback cb => exact absurd h Bool.false_ne_true
  | _ =>
    cases p with
    | callback cb =>
      cases cb <;>
        first
          | exact absurd h Bool.false_ne_true
          | exact absurd hs Bool.false_ne_true
          | exact ⟨rfl, nofun, rfl⟩
    | _ =>
      first
        | exact absurd h Bool.false_ne_true
        | exact absurd hs Bool.false_ne_true
        | exact ⟨rfl, nofun, rfl⟩

/-- What an early statement pushes: the loop of the login task, where no error holds the
input back, or early statements of its own kind. -/
theorem exec_push_early (hs : s.isEarly = true) (ha : s ≠ .advance)
    (hl : w.eng.error_code ≠ .none ∨ ∃ lt, w.eng.login_task = some lt) (h : w.exec s = some r) :
    (s.isInput = true ∧ r.2 = [.advance, .advanced, .resetLogin] ∧
      r.1.eng.state = w.eng.state ∧ w.eng.error_code = .none) ∨
    ∀ p ∈ r.2, p.isEarly = true ∧ p ≠ .advance ∧ p.isInput = s.isInput := by
  by_cases hi : ∃ ev, s = .incoming ev
  · obtain ⟨ev, rfl⟩ := hi
    -- with an error, or with a login task, nothing is dispatched
    have hdispatch : w.blocked = false → w.eng.login_task = none → False := by
      intro hb hn
      rcases hl with he | ⟨lt, hlt⟩
      · rw [blocked, hasError, decide_eq_true he] at hb
        cases hb
      · rw [hlt] at hn
        cases hn
    cases exec_incoming h with
    | blocked | streamError | error => exact .inr fun p hp => absurd hp List.not_mem_nil
    | login lt e isStart hb hlt =>
      refine .inl ⟨rfl, rfl, rfl, ?_⟩
      by_contra he
      rw [blocked, hasError, decide_eq_true he] at hb
      cases hb
    | response stanza entry hb hn | dispatch stanza hb hn => exact (hdispatch hb hn).elim
  · exact .inr fun p hp =>
      mayPush_early (exec_mayPush h p hp) hs ha fun ev heq => hi ⟨ev, heq⟩

/-- What lies under a statement stays behind the error that closes the engine. -/
theorem beforeTls_under (hr : w.exec s = some r) {l : Stmt} (hl : beforeTls.frame w l)
    (hb : beforeTls.below s l) : beforeTls.frame r.1 l := by
  obtain ⟨hle, hli⟩ := hl
  obtain ⟨hbelow, hne⟩ := hb
  refine ⟨hle, fun hl hc => ⟨?_, hne⟩⟩
  by_cases hw : w.eng.state = .closed
  · have he := (hli hl hw).1
    rcases (exec_frame hr).forward.error with heq | ⟨hopen, -⟩
    · exact heq ▸ he
    · exact absurd hw hopen
  · exact (exec_closes (hbelow hl) hr hw hc).2

/-- A round that is run before `StartTls`. -/
theorem advance_beforeTls (h : beforeTls.Holds ⟨w, .advance :: rest⟩)
    (hclose : CloseProtocol ⟨w, .advance :: rest⟩) (hr : w.exec .advance = some r) :
    (∀ ev ∈ r.1.log, ev.isSasl = false) ∧
    ((∃ ev ∈ r.1.log, ev.isStartTls = true) ∨ beforeTls.Holds ⟨r.1, r.2 ++ rest⟩) := by
  have hg : BeforeTls w := h.global
  obtain ⟨-, hinput⟩ := h.frame _ List.mem_cons_self
  have hopen : w.eng.state ≠ .closed := fun hc => (hinput rfl hc).2 rfl
  obtain ⟨lt, hlt, hround⟩ := exec_advance hr
  have hlogin : lt.state.isEarly = true ∧ lt.authNeeded = true := by
    rcases hg.login with he | ⟨lt', hlt', hle, hla⟩
    · exact absurd (hclose.holds.global.error he) hopen
    · rw [hlt] at hlt'
      obtain rfl := Option.some.inj hlt'
      exact ⟨hle, hla⟩
  obtain ⟨hlog, hres⟩ := round_early hg hopen hlogin.1 hlogin.2 hlt hround
  refine ⟨hlog, hres.imp id fun ⟨hg', hpush⟩ => h.replace ⟨hg', ?_, ?_, ?_⟩⟩
  · intro p hp
    rcases hpush with hpush | ⟨hpush, hst⟩ <;> rw [hpush] at hp
    · cases hp
    · rw [List.mem_singleton.1 hp]
      exact ⟨rfl, fun _ hc => absurd (hst.symm.trans hc) hopen⟩
  · rcases hpush with hpush | ⟨hpush, -⟩ <;> rw [hpush]
    · exact List.Pairwise.nil
    · exact List.pairwise_singleton _ _
  · intro l hl hb
    refine ⟨beforeTls_under hr hl hb, fun p hp => ⟨fun _ => ?_, hb.2⟩⟩
    rcases hpush with hpush | ⟨hpush, -⟩ <;> rw [hpush] at hp
    · cases hp
    · rw [List.mem_singleton.1 hp]
      rfl

/-- Any other statement that is executed before `StartTls`: it runs no round, so the task
stays early, or the engine is closed by an error. -/
theorem task_beforeTls (h : beforeTls.Holds ⟨w, s :: rest⟩)
    (hclose : CloseProtocol ⟨w, s :: rest⟩) (ha : s ≠ .advance) (hr : w.exec s = some r) :
    beforeTls.Holds ⟨r.1, r.2 ++ rest⟩ := by
  have hg : BeforeTls w := h.global
  obtain ⟨hearly, hinput⟩ := h.frame s List.mem_cons_self
  have hf := exec_frame hr
  obtain ⟨hlt, hgrow⟩ := (exec_task ha hr).early hf.forward hclose.holds.global hg.login
  have hg' : BeforeTls r.1 := by
    refine hg.step hf.forward (hf.tls_option ?_) (fun hc => hf.output_handler ?_) hlt hgrow
    · rintro rfl
      cases hearly
    · -- the output handler goes in a closed engine only
      rintro saved rfl
      have hcl := (hclose.holds.frame _ List.mem_cons_self rfl).1
      exact hc (hf.forward.closed hcl)
  have hlogin : w.eng.error_code ≠ .none ∨ ∃ lt, w.eng.login_task = some lt :=
    hg.login.imp id fun ⟨lt, hlt, _⟩ => ⟨lt, hlt⟩
  -- input goes to the login task, or leaves statements that are early as well
  have hcases := exec_push_early hearly ha hlogin hr
  refine h.replace ⟨hg', ?_, ?_, ?_⟩
  · intro p hp
    rcases hcases with ⟨hi, hpush, hst, he⟩ | hpush
    · rw [hpush] at hp
      refine ⟨?_, fun _ hc => ?_⟩
      · simp only [List.mem_cons, List.not_mem_nil, or_false] at hp
        rcases hp with rfl | rfl | rfl <;> rfl
      · exact absurd he (hinput hi (hst ▸ hc)).1
    · obtain ⟨hpe, hpa, hpi⟩ := hpush p hp
      refine ⟨hpe, fun hi hc => ⟨?_, hpa⟩⟩
      rw [hpi] at hi
      by_cases hw : w.eng.state = .closed
      · have he := (hinput hi hw).1
        rcases hf.forward.error with heq | ⟨hopen, -⟩
        · exact heq ▸ he
        · exact absurd hw hopen
      · exact (exec_closes hi hr hw hc).2
  · rcases hcases with ⟨hi, hpush, hst, he⟩ | hpush
    · rw [hpush]
      simp [beforeTls, Stmt.isInput]
    · refine List.pairwise_of_forall_mem_list fun x hx l hl => ⟨fun hi => ?_, (hpush l hl).2.1⟩
      rw [(hpush x hx).2.2, ← (hpush l hl).2.2]
      exact hi
  · intro l hl hb
    refine ⟨beforeTls_under hr hl hb, fun p hp => ⟨fun hi => ?_, hb.2⟩⟩
    rcases hcases with ⟨-, hpush, -⟩ | hpush
    · rw [hpush] at hp
      simp only [List.mem_cons, List.not_mem_nil, or_false] at hp
      rcases hp with rfl | rfl | rfl <;> rfl
    · exact (hpush p hp).2.2.trans (hb.1 hi)

/-- A statement that is executed before `StartTls`. -/
theorem exec_beforeTls (h : beforeTls.Holds ⟨w, s :: rest⟩)
    (hclose : CloseProtocol ⟨w, s :: rest⟩) (hr : w.exec s = some r) :
    (∀ ev ∈ r.1.log, ev.isSasl = false) ∧
    ((∃ ev ∈ r.1.log, ev.isStartTls = true) ∨ beforeTls.Holds ⟨r.1, r.2 ++ rest⟩) := by
  by_cases ha : s = .advance
  · subst ha
    exact advance_beforeTls h hclose hr
  · have hbefore := task_beforeTls h hclose ha hr
    exact ⟨BeforeTls.untouched hbefore.global, .inr hbefore⟩

/-- The engine is called before `StartTls`. -/
theorem enter_beforeTls (h : beforeTls.Holds c) (hw : c.waiting engine = true)
    (hb : CloseGlobal c.state) (m : Call) :
    beforeTls.Holds ⟨(c.state.enter m).1, (c.state.enter m).2 ++ c.control⟩ := by
  have hg : BeforeTls c.state := h.global
  have hentry := enter_entry c.state m
  have hframe := entry_frame hentry
  have hf : Forward c.state (c.state.enter m).1 :=
    (Forward.of_eq rfl rfl : Forward c.state (c.state.emit (.called m))).trans hframe.forward
  have hne : c.state.eng.state ≠ .start := by
    intro hs
    have := hg.started
    rw [hs] at this
    exact Nat.lt_irrefl _ this
  have htask : TaskStep c.state (c.state.enter m).1 :=
    (entry_task hentry).after rfl rfl (.emit c.state rfl)
  obtain ⟨hlt, hgrow⟩ := htask.early hf hb hg.login
  -- a call that treats input is accepted by an engine that is not closed
  have hpush : (∀ p ∈ (c.state.enter m).2, p.isEarly = true ∧ p ≠ .advance ∧ p.isInput = false) ∨
      ((c.state.enter m).1.eng.state ≠ .closed ∧ ∃ events status saved,
        (c.state.enter m).2 = [.parse events status, .exitScope saved, .returned m .ok]) := by
    generalize c.state.enter m = r at hentry
    cases hentry with
    | connect lt hs | connectDone hs => exact absurd hs hne
    | handleInput events status hs =>
      have hs : c.state.eng.state = .opening ∨ c.state.eng.state = .open := hs
      refine .inr ⟨fun hc => ?_, events, status, _, rfl⟩
      have hc : c.state.eng.state = .closed := hc
      rcases hs with hs | hs <;> exact absurd (hs.symm.trans hc) (by simp)
    | _ =>
      refine .inl fun p hp => ?_
      simp only [List.mem_cons, List.not_mem_nil, or_false] at hp
      rcases hp with rfl | rfl <;> exact ⟨rfl, by simp, rfl⟩
  -- no input is pending while the application runs
  have hquiet : ∀ l : Stmt, (∃ f, engine.foreign f = true ∧ beforeTls.frame c.state f ∧
      (l = f ∨ beforeTls.below f l)) → l.isInput = false ∧ l ≠ .advance := by
    rintro l ⟨f, hff, -, hl⟩
    have hfi : f.isInput = false := by
      cases f <;> first | rfl | exact absurd hff Bool.false_ne_true
    have hfa : f ≠ .advance := by
      rintro rfl
      cases hff
    rcases hl with rfl | ⟨hli, hla⟩
    · exact ⟨hfi, hfa⟩
    · refine ⟨?_, hla⟩
      by_contra hn
      rw [hli (by simpa using hn)] at hfi
      cases hfi
  refine h.push hw ⟨?_, ?_, ?_, ?_⟩
  · exact hg.step hf (hframe.tls_option hne) (fun _ => hframe.output_handler hne) hlt hgrow
  · intro p hp
    rcases hpush with hpush | ⟨hopen, events, status, saved, hpush⟩
    · refine ⟨(hpush p hp).1, fun hi => ?_⟩
      rw [(hpush p hp).2.2] at hi
      cases hi
    · rw [hpush] at hp
      simp only [List.mem_cons, List.not_mem_nil, or_false] at hp
      rcases hp with rfl | rfl | rfl <;> exact ⟨rfl, fun _ hc => absurd hc hopen⟩
  · rcases hpush with hpush | ⟨-, events, status, saved, hpush⟩
    · refine List.pairwise_of_forall_mem_list fun x _ l hl => ⟨fun hi => ?_, (hpush l hl).2.1⟩
      rw [(hpush l hl).2.2] at hi
      cases hi
    · rw [hpush]
      simp [beforeTls, Stmt.isInput]
  · intro l hl hunder
    obtain ⟨hli, hla⟩ := hquiet l hunder
    refine ⟨⟨hl.1, fun hi => ?_⟩, fun p _ => ⟨fun hi => ?_, hla⟩⟩
    · rw [hli] at hi
      cases hi
    · rw [hli] at hi
      cases hi

/-- A handler returns before `StartTls`. -/
theorem resume_beforeTls (v : Bool) (h : beforeTls.Holds ⟨w, s :: rest⟩) (hf : s.foreign = true) :
    World.resume s v = [] ∧ beforeTls.Holds ⟨w, rest⟩ := by
  have hearly := (h.frame s List.mem_cons_self).1
  refine ⟨?_, h.global, fun l hl => h.frame l (List.mem_cons_of_mem _ hl),
    (List.pairwise_cons.1 h.below).2⟩
  cases s with
  | callback cb => cases cb <;> first | rfl | cases hearly
  | _ => cases hf

theorem enter_connect (hs : w.eng.state = .start) (hl : w.eng.login_task = some lt) :
    w.enter .connect =
      ((((w.emit (.called .connect)).enterExit.set
          { (w.emit (.called .connect)).enterExit.eng with state := .opening }).setLogin
          { lt with pelStanza := none, isStart := false }),
        [.advance, .advanced, .resetLogin, .exitScope .start, .returned .connect .ok]) := by
  simp [enter, connect, hs, hl, enterExit, XmppLoginTask.incomingStanza]

/-- `Connect`, with TLS required and an output handler. -/
theorem connect_beforeTls {c₁ c₂ : Conf} (h : Reachable c₁)
    (hstart : c₁.state.eng.state = .start) (htls : c₁.state.eng.tls_option = .required)
    (ho : c₁.state.eng.output_handler = true) (hs : engine.step c₁ (.call .connect) = some c₂) :
    beforeTls.Holds c₂ := by
  have hshape := shape_reachable h
  have hidle := hshape.global.2 hstart
  obtain ⟨lt, hl, hlstate, hlauth⟩ := hidle.login
  rcases step_cases hs with ⟨s, rest, r, ha, -⟩ | ⟨m, ha, hw, rfl⟩ | ⟨v, s, rest, ha, -⟩
  · cases ha
  · cases ha
    -- nothing is pending in an idle engine that waits
    have hnil : c₁.control = [] := by
      rcases waiting_cases hw with hnil | ⟨f, rest, hc, hf⟩
      · exact hnil
      · have := (hshape.frame f (by rw [hc]; exact List.mem_cons_self)).started hstart
        rw [show f.foreign = true from hf] at this
        cases this.2
    have hlog : ∀ ev ∈ (c₁.state.emit (.called .connect)).log, ev.isSasl = false := by
      intro ev hev
      rcases List.mem_append.1 hev with hev | hev
      · have := hidle.log ev hev
        cases ev <;> first | rfl | cases this
      · rw [List.mem_singleton.1 hev]
        rfl
    have heq : engine.enter c₁.state .connect = _ := enter_connect hstart hl
    rw [heq, hnil]
    refine ⟨⟨?_, htls, fun _ => ho, .inr ⟨_, rfl, ?_, hlauth⟩, hlog⟩, ?_, ?_⟩
    · exact Nat.lt_succ_self 1
    · rw [show lt.state = .init from hlstate]
      rfl
    · intro s hs
      simp only [List.append_nil, List.mem_cons, List.not_mem_nil, or_false] at hs
      rcases hs with rfl | rfl | rfl | rfl | rfl <;> exact ⟨rfl, fun _ hc => by cases hc⟩
    · simp [beforeTls, Stmt.isInput]
  · cases ha

/-! ## Every run -/

theorem TlsFirst.of_untouched (h : ∀ ev ∈ log, ev.isSasl = false) : TlsFirst log :=
  fun ev hev => h ev (List.takeWhile_subset _ hev)

/-- Once `StartTls` has been called, nothing is asked of what follows. -/
theorem TlsFirst.append (h : TlsFirst log) (hs : ∃ ev ∈ log, ev.isStartTls = true)
    (evs : List Event) : TlsFirst (log ++ evs) := by
  obtain ⟨ev, hev, hst⟩ := hs
  have hlen : ¬ (log.takeWhile fun ev => !ev.isStartTls).length = log.length := by
    intro hlen
    have hall := ( List.takeWhile_prefix (fun ev : Event => !ev.isStartTls)).eq_of_length hlen
    have := List.takeWhile_eq_self_iff.1 hall ev hev
    rw [hst] at this
    cases this
  intro x hx
  rw [List.takeWhile_append, if_neg hlen] at hx
  exact h x hx

/-- From `Connect` on, nothing of the authentication happens before `StartTls`. -/
theorem tlsFirst_reachable {c₁ c₂ : Conf} (h₁ : Reachable c₁)
    (hstart : c₁.state.eng.state = .start) (htls : c₁.state.eng.tls_option = .required)
    (ho : c₁.state.eng.output_handler = true) (hs : engine.step c₁ (.call .connect) = some c₂)
    (h : engine.Reaches anyCall c₂ c) : TlsFirst c.state.log := by
  have h₂ : Reachable c₂ := Relation.ReflTransGen.tail h₁ ⟨_, fun _ _ => trivial, hs⟩
  have hinv : TlsFirst c.state.log ∧
      ((∃ ev ∈ c.state.log, ev.isStartTls = true) ∨ beforeTls.Holds c) := by
    refine Reaches.invariant (I := fun c : Conf => TlsFirst c.state.log ∧
      ((∃ ev ∈ c.state.log, ev.isStartTls = true) ∨ beforeTls.Holds c)) h ?_ ?_
    · have hb := connect_beforeTls h₁ hstart htls ho hs
      exact ⟨.of_untouched hb.global.untouched, .inr hb⟩
    · rintro c a c' hreach ⟨hfirst, hc⟩ - hstep
      have hclose := closeProtocol_reachable (h₂.trans hreach)
      rcases hc with hstarted | hbefore
      · obtain ⟨evs, hl⟩ := step_grows hstep
        obtain ⟨ev, hev, hst⟩ := hstarted
        rw [hl]
        exact ⟨hfirst.append ⟨ev, hev, hst⟩ evs, .inl ⟨ev, List.mem_append_left _ hev, hst⟩⟩
      · rcases step_cases hstep with ⟨s, rest, r, -, hcontrol, -, hr, rfl⟩ | ⟨m, -, hw, rfl⟩ |
          ⟨v, s, rest, -, hcontrol, hf, rfl⟩
        · obtain ⟨w, control⟩ := c
          subst hcontrol
          obtain ⟨hlog, hres⟩ := exec_beforeTls hbefore hclose hr
          exact ⟨.of_untouched hlog, hres⟩
        · have hb := enter_beforeTls hbefore hw hclose.holds.global m
          exact ⟨.of_untouched hb.global.untouched, .inr hb⟩
        · obtain ⟨w, control⟩ := c
          subst hcontrol
          obtain ⟨hnil, hb⟩ := resume_beforeTls v hbefore hf
          refine ⟨hfirst, .inr ?_⟩
          have hres : engine.resume w s v = (w, []) := by
            rw [← hnil]
            rfl
          rw [hres]
          exact hb
  exact hinv.1

/-- With TLS required and an output handler set when `Connect` is called, whatever the
server sends and the application does: nothing of the authentication, and no
`SignalBound`, happens before `StartTls` was called on the output handler; and the
engine is open only after the authentication, the binding of a full JID and the
session were granted, in this order. -/
theorem login_safety {c₁ c₂ c : Conf} (h₁ : Reachable c₁)
    (hstart : c₁.state.eng.state = .start) (htls : c₁.state.eng.tls_option = .required)
    (ho : c₁.state.eng.output_handler = true) (hs : engine.step c₁ (.call .connect) = some c₂)
    (h : engine.Reaches anyCall c₂ c) :
    TlsFirst c.state.log ∧ (c.state.eng.state = .open → Opened c.state.log) := by
  have h₂ : Reachable c₂ := Relation.ReflTransGen.tail h₁ ⟨_, fun _ _ => trivial, hs⟩
  exact ⟨tlsFirst_reachable h₁ hstart htls ho hs h, (handshake_reachable (h₂.trans h)).opened⟩

/-! ## A complete login -/

/-- The bytes of one `HandleInput`, as expat reports them. -/
def received (events : List ExpatEvent) : Step := .call (.handleInput events .none)

/-- An element with a namespace of its own. -/
def tagged (name : Str) (ns : Str) (inner : List ExpatEvent) : List ExpatEvent :=
  [.startElement name [(str "xmlns", ns)]] ++ inner ++ [.endElement name]

/-- The start of the server's stream. -/
def serverStream : List ExpatEvent :=
  [.startElement (str "stream:stream") [(str "xmlns", NS_CLIENT),
    (str "xmlns:stream", NS_STREAM), (str "id", str "s"), (str "version", str "1.0")]]

/-- A stream with these features. -/
def offering (features : List ExpatEvent) : Step :=
  received (serverStream ++ [.startElement (str "stream:features") []] ++ features
    ++ [.endElement (str "stream:features")])

/-- An iq of type "result". -/
def iqResult (id : Str) (inner : List ExpatEvent) : Step :=
  received ([.startElement (str "iq") [(str "type", str "result"), (str "id", id)]] ++ inner
    ++ [.endElement (str "iq")])

/-- What the server sends from the authentication on, in a stream that offers PLAIN. The
first number is the id of the bind request. -/
def plainLogin : List Step :=
  [offering (tagged (str "mechanisms") NS_SASL
      [.startElement (str "mechanism") [], .characterData (str "PLAIN"),
        .endElement (str "mechanism")]),
    received (tagged (str "success") NS_SASL []),
    offering (tagged (str "bind") NS_BIND [] ++ tagged (str "session") NS_SESSION []),
    iqResult (str "0") (tagged (str "bind") NS_BIND
      [.startElement (str "jid") [], .characterData (str "a@b/c"), .endElement (str "jid")]),
    iqResult (str "1") []]

/-- The application's handler for PLAIN. -/
def plainUser (allow_plain : Bool) : Step :=
  .call (.setSaslHandler (some (plainSaslHandler (Jid.ofString (str "a@b")) (str "p") allow_plain)))

/-- The login after `Connect`, with STARTTLS. `WriteOutput` returns after each input that
made the engine write. -/
def tlsLogin : List Step :=
  [.tick, .ret false, offering (tagged (str "starttls") NS_TLS []), .ret false,
    received (tagged (str "proceed") NS_TLS []), .ret false, .ret false]
    ++ plainLogin.intersperse (.ret false)

theorem login_safety_tls : ∃ c : Conf, c.state.eng.state = .open ∧ TlsFirst c.state.log ∧
    Opened c.state.log := by
  obtain ⟨c₁, h₁, hp⟩ := exists_of_drive (G := anyCall) (P := engine) (n := 40) (c := Conf.init)
    (l := [.call (.setOutputHandler true), plainUser false])
    (p := fun c₁ => c₁.state.eng.state = .start && c₁.state.eng.tls_option = .required
      && c₁.state.eng.output_handler && (engine.step c₁ (.call .connect)).any fun c₂ =>
        (engine.drive anyCall 40 c₂ tlsLogin).any fun c => c.state.eng.state = .open)
    (by decide +kernel)
  simp only [Bool.and_eq_true, decide_eq_true_eq, Option.any_eq_true] at hp
  obtain ⟨⟨⟨hstart, htls⟩, ho⟩, c₂, hs, c, hdrive, hopen⟩ := hp
  obtain ⟨hfirst, hopened⟩ := login_safety h₁ hstart htls ho hs (reaches_drive hdrive)
  exact ⟨c, hopen, hfirst, hopened hopen⟩

end Gxmpp
