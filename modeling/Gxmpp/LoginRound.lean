/-
What one round of `XmppLoginTask::Advance` can do.

`Round` is the list of it: one constructor for each way through the switch, with
the conditions under which it is taken and the world it leaves. `advance_round`
says that the list is complete. Every property of the handshake is proved over
this list, and none of the proofs opens the switch again.

`LoginFrame` is the first of them: the members of the engine that the login task
never writes, how the state of the engine moves, and what the history gains.
-/
import Gxmpp.EngineMachine

set_option autoImplicit false

namespace Gxmpp

open World XmppLoginTask

/-! ## The rounds -/

/-- The stanza that lets the login task go on, in the states in which it waits for
the server to grant something. -/
def granted : LoginTaskState → XmlElement → Bool
  | .tlsRequested, e => e.name = QN_TLS_PROCEED
  | .saslRunning, e => e.name = QN_SASL_SUCCESS
  | .bindRequested, e =>
    e.name = QN_IQ && e.attr QN_TYPE = str "result"
      && match e.firstElement with
        | none => false
        | some bind =>
          bind.name = QN_BIND_BIND && (Jid.ofString (bind.textNamed QN_BIND_JID)).isFull
  | .sessionRequested, e => e.name = QN_IQ && e.attr QN_TYPE = str "result"
  | _, _ => false

/-- The ways through the loop, from the login task `lt`. -/
inductive Round (w : World) (lt : XmppLoginTask) : World × List Stmt → Prop where
  /-- the task is done, or waits for a stanza -/
  | idle (hs : lt.state ≠ .init) : Round w lt (w, [])
  /-- a stream is started -/
  | restart (hs : lt.state = .init) : Round w lt (advanceInit w lt)
  /-- the features lack what is needed -/
  | lacking (reason : EngineError)
      (hs : lt.state = .tlsInit ∨ lt.state = .authInit ∨ lt.state = .bindInit)
      (hr : reason ≠ .none) :
      Round w lt (failure w lt reason)
  /-- the stanza is not the one waited for -/
  | refused (e : XmlElement) (lt' : XmppLoginTask) (reason : EngineError)
      (he : lt.pelStanza = some e) (hs : lt.state ≠ .init) (hr : reason ≠ .none)
      (hg : granted lt.state e = false)
      (hq : lt'.pvecQueuedStanzas = lt.pvecQueuedStanzas)
      (ha : lt'.authNeeded = lt.authNeeded) :
      Round w lt (failure (nextStanza w lt e).1 lt' reason)
  /-- the stream of the server has started -/
  | streamStarted (e : XmlElement) (hs : lt.state = .streamstartSent)
      (he : lt.pelStanza = some e) :
      Round w lt ((nextStanza w lt e).1.setLogin
        { (nextStanza w lt e).2 with streamId := e.attr QN_ID, state := .startedXmpp }, [])
  /-- the features are here, and TLS is used -/
  | featuresTls (e : XmlElement) (hs : lt.state = .startedXmpp) (he : lt.pelStanza = some e) :
      Round w lt (goto (nextStanza w lt e).1
        { (nextStanza w lt e).2 with pelFeatures := some e } .tlsInit)
  /-- the features are here, and TLS is not required -/
  | featuresAuth (e : XmlElement) (hs : lt.state = .startedXmpp) (ha : lt.authNeeded = true)
      (ht : w.eng.tls_option ≠ .required) (he : lt.pelStanza = some e) :
      Round w lt (goto (nextStanza w lt e).1
        { (nextStanza w lt e).2 with pelFeatures := some e } .authInit)
  /-- the features are here, after the authentication -/
  | featuresBind (e : XmlElement) (hs : lt.state = .startedXmpp) (ha : lt.authNeeded = false)
      (ht : w.eng.tls_option ≠ .required) (he : lt.pelStanza = some e) :
      Round w lt (goto (nextStanza w lt e).1
        { (nextStanza w lt e).2 with pelFeatures := some e } .bindInit)
  /-- TLS is asked for -/
  | tlsAsked (hs : lt.state = .tlsInit) :
      Round w lt (goto (send w lt (XmlElement.new QN_TLS_STARTTLS true)) lt .tlsRequested)
  /-- TLS is granted, and the output handler is called -/
  | proceed (e : XmlElement) (domain : Str) (hs : lt.state = .tlsRequested)
      (hg : granted lt.state e = true) (ho : w.eng.output_handler = true)
      (he : lt.pelStanza = some e) :
      Round w lt (((nextStanza w lt e).1.setLogin (nextStanza w lt e).2).callOut
        (.startTls domain) [.startedTls, .tlsStarted])
  /-- TLS is granted, and there is no output handler -/
  | proceedUnhandled (e : XmlElement) (hs : lt.state = .tlsRequested)
      (hg : granted lt.state e = true) (ho : w.eng.output_handler = false)
      (he : lt.pelStanza = some e) :
      Round w lt ((nextStanza w lt e).1.setLogin (nextStanza w lt e).2, [.tlsStarted])
  /-- no mechanism is chosen -/
  | unchosen (sh : SaslHandler) (mechanisms : List Str) (hs : lt.state = .authInit) :
      Round w lt (failure (w.emit (.chose mechanisms w.eng.encrypted
        (sh.chooseBestSaslMechanism mechanisms w.eng.encrypted))) lt .auth)
  /-- the mechanism chosen cannot be created, or has nothing to send -/
  | unstarted (sh : SaslHandler) (mechanisms : List Str) (choice : Str)
      (mech : Option SaslMechanism) (hs : lt.state = .authInit) :
      Round w lt (failure ((w.emit (.chose mechanisms w.eng.encrypted choice)).emit
        (.gotMechanism choice)) { lt with sasl_mech := mech } .auth)
  /-- the mechanism chosen is started -/
  | authSent (sh : SaslHandler) (mechanisms : List Str) (choice : Str)
      (mech : Option SaslMechanism) (auth : XmlElement) (hs : lt.state = .authInit) :
      Round w lt (goto (send ((w.emit (.chose mechanisms w.eng.encrypted choice)).emit
        (.gotMechanism choice)) { lt with sasl_mech := mech }
          (withGoogleAttrs auth lt.allowNonGoogleLogin)) { lt with sasl_mech := mech }
        .saslRunning)
  /-- a challenge is answered -/
  | challenged (e response : XmlElement) (hs : lt.state = .saslRunning)
      (hg : granted lt.state e = false) (he : lt.pelStanza = some e) :
      Round w lt (goto (send (nextStanza w lt e).1 (nextStanza w lt e).2 response)
        (nextStanza w lt e).2 .saslRunning)
  /-- the authentication has succeeded -/
  | authenticated (e : XmlElement) (hs : lt.state = .saslRunning)
      (hg : granted lt.state e = true) (he : lt.pelStanza = some e) :
      Round w lt (goto (nextStanza w lt e).1
        { (nextStanza w lt e).2 with authNeeded := false } .init)
  /-- a resource is asked for -/
  | bindAsked (hs : lt.state = .bindInit) :
      Round w lt (goto (send w.nextId.1 { lt with iqId := w.nextId.2 }
        (bindRequest w.nextId.2 w.eng.requested_resource)) { lt with iqId := w.nextId.2 }
        .bindRequested)
  /-- an iq that is not the answer is passed over -/
  | ignored (e : XmlElement) (hs : lt.state = .bindRequested ∨ lt.state = .sessionRequested)
      (ha : notTheAnswer lt e = true) (he : lt.pelStanza = some e) :
      Round w lt ((nextStanza w lt e).1.setLogin (nextStanza w lt e).2, [])
  /-- the resource is bound, and a session is asked for -/
  | bound (e bind : XmlElement) (hs : lt.state = .bindRequested)
      (hg : granted lt.state e = true) (hb : e.firstElement = some bind)
      (ha : notTheAnswer lt e = false) (he : lt.pelStanza = some e) :
      Round w lt (goto
        (send (nextStanza w lt e).1.nextId.1
          { (nextStanza w lt e).2 with
            fullJid := Jid.ofString (bind.textNamed QN_BIND_JID)
            iqId := w.nextId.2 }
          (sessionRequest w.nextId.2))
        { (nextStanza w lt e).2 with
          fullJid := Jid.ofString (bind.textNamed QN_BIND_JID)
          iqId := w.nextId.2 } .sessionRequested)
  /-- the session is there: the stream is bound and the queue is sent -/
  | sessionStarted (e : XmlElement) (hs : lt.state = .sessionRequested)
      (hg : granted lt.state e = true) (ha : notTheAnswer lt e = false)
      (he : lt.pelStanza = some e) :
      Round w lt ((flushQueuedStanzas ((nextStanza w lt e).1.signalBound lt.fullJid)
          (nextStanza w lt e).2).1.setLogin
        { (nextStanza w lt e).2 with pvecQueuedStanzas := [], state := .done }, [])

/-! One lemma for each branch of the switch: what it does is in the list. -/

variable {lt : XmppLoginTask} {r : World × List Stmt} {w : World} {e : XmlElement}

theorem advanceAuthInit_round {features : XmlElement} (hs : lt.state = .authInit)
    (h : advanceAuthInit w lt features = some r) : Round w lt r := by
  rw [advanceAuthInit] at h
  split at h
  · cases h
    exact .lacking _ (by simp [hs]) (by decide)
  · obtain ⟨sh, -, h⟩ := Option.bind_eq_some_iff.1 h
    dsimp only at h
    split at h
    · cases h
      exact .unchosen sh _ hs
    · split at h
      · cases h
        exact .unstarted sh _ _ _ hs
      · split at h
        · cases h
          exact .unstarted sh _ _ _ hs
        · cases h
          exact .authSent sh _ _ _ _ hs

theorem advanceStartedXmpp_round (hs : lt.state = .startedXmpp) (he : lt.pelStanza = some e) :
    Round w lt (advanceStartedXmpp w lt e) := by
  have hr : ∀ lt' reason, reason ≠ .none → lt'.pvecQueuedStanzas = lt.pvecQueuedStanzas →
      lt'.authNeeded = lt.authNeeded →
      Round w lt (failure (nextStanza w lt e).1 lt' reason) := fun lt' reason hr hq ha =>
    .refused e lt' reason he (by simp [hs]) hr (by simp [hs, granted]) hq ha
  rw [advanceStartedXmpp]
  dsimp only
  split
  · exact hr _ _ (by decide) rfl rfl
  · split
    · exact hr _ _ (by decide) rfl rfl
    · split
      · exact .featuresTls e hs he
      · -- TLS is not required here: with it required and offered, the branch above is taken
        rename_i h1 h2
        have ht : w.eng.tls_option ≠ .required := by
          intro ht
          simp only [nextStanza, emit_eng, ht] at h1 h2
          simp_all
        split
        · exact .featuresAuth e hs (by assumption) ht he
        · refine .featuresBind e hs ?_ ht he
          rename_i ha
          simpa [nextStanza] using ha

theorem advanceTlsRequested_round (hs : lt.state = .tlsRequested) (he : lt.pelStanza = some e) :
    Round w lt (advanceTlsRequested w lt e) := by
  rw [advanceTlsRequested]
  dsimp only
  split
  · rename_i hn
    exact .refused e _ _ he (by simp [hs]) (by decide) (by simpa [hs, granted] using hn) rfl rfl
  · rename_i hn
    have hg : granted lt.state e = true := by simpa [hs, granted] using hn
    split
    · exact .proceed e _ hs hg (by assumption) he
    · rename_i ho
      exact .proceedUnhandled e hs hg (Bool.not_eq_true _ ▸ ho) he

theorem advanceSaslRunning_round (hs : lt.state = .saslRunning) (he : lt.pelStanza = some e)
    (h : advanceSaslRunning w lt e = some r) : Round w lt r := by
  rw [advanceSaslRunning] at h
  dsimp only at h
  split at h
  · rename_i hn
    cases h
    refine .refused e _ _ he (by simp [hs]) (by decide) ?_ rfl rfl
    -- `<success/>` is in the SASL namespace
    have : e.name ≠ QN_SASL_SUCCESS := fun hq => hn (by rw [hq]; rfl)
    simpa [hs, granted] using this
  · split at h
    · rename_i hc
      have hg : granted lt.state e = false := by
        simp only [hs, granted, hc]
        decide
      obtain ⟨m, -, h⟩ := Option.bind_eq_some_iff.1 h
      split at h
      · cases h
        exact .refused e _ _ he (by simp [hs]) (by decide) hg rfl rfl
      · cases h
        exact .challenged e _ hs hg he
    · split at h
      · rename_i hn
        cases h
        exact .refused e _ _ he (by simp [hs]) (by decide) (by simpa [hs, granted] using hn)
          rfl rfl
      · rename_i hn
        cases h
        exact .authenticated e hs (by simpa [hs, granted] using hn) he

/-- A stanza that is not passed over is an iq. -/
theorem name_of_answer (ha : notTheAnswer lt e = false) : e.name = QN_IQ := by
  by_contra hn
  simp [notTheAnswer, hn] at ha

theorem advanceBindRequested_round (hs : lt.state = .bindRequested) (he : lt.pelStanza = some e) :
    Round w lt (advanceBindRequested w lt e) := by
  have hna : notTheAnswer (nextStanza w lt e).2 e = notTheAnswer lt e := rfl
  rw [advanceBindRequested]
  dsimp only
  split
  · exact .ignored e (.inl hs) (by assumption) he
  · rename_i ha
    rw [hna, Bool.not_eq_true] at ha
    have hn := name_of_answer ha
    split
    · -- there is no child
      rename_i hb
      exact .refused e _ _ he (by simp [hs]) (by decide) (by simp [hs, granted, hb]) rfl rfl
    · rename_i bind hb
      split
      · -- the type is not `result`, or the child is not a `bind`
        rename_i ht
        refine .refused e _ _ he (by simp [hs]) (by decide) ?_ rfl rfl
        simp only [hs, granted, hb]
        simp only [ne_eq, Bool.or_eq_true, decide_not, Bool.not_eq_true',
          decide_eq_false_iff_not] at ht
        rcases ht with ht | ht <;> simp [ht]
      · rename_i ht
        simp only [ne_eq, Bool.or_eq_true, decide_not, Bool.not_eq_true',
          decide_eq_false_iff_not, not_or, not_not] at ht
        split
        · -- the jid has no resource
          rename_i hj
          refine .refused e _ _ he (by simp [hs]) (by decide) ?_ rfl rfl
          simp only [hs, granted, hb]
          simp only [Bool.not_eq_true'] at hj
          simp [hj]
        · rename_i hj
          have hg : granted lt.state e = true := by
            simp only [hs, granted, hb]
            simp only [Bool.not_eq_true', Bool.not_eq_false] at hj
            simp [hn, ht.1, ht.2, hj]
          exact .bound e bind hs hg hb ha he

theorem advanceSessionRequested_round (hs : lt.state = .sessionRequested)
    (he : lt.pelStanza = some e) : Round w lt (advanceSessionRequested w lt e) := by
  have hna : notTheAnswer (nextStanza w lt e).2 e = notTheAnswer lt e := rfl
  rw [advanceSessionRequested]
  dsimp only
  split
  · exact .ignored e (.inr hs) (by assumption) he
  · rename_i ha
    rw [hna, Bool.not_eq_true] at ha
    have hn := name_of_answer ha
    split
    · rename_i ht
      exact .refused e _ _ he (by simp [hs]) (by decide) (by simpa [hs, granted, hn] using ht)
        rfl rfl
    · rename_i ht
      exact .sessionStarted e hs (by simpa [hs, granted, hn] using ht) ha he

/-- `Round` is complete. -/
theorem advance_round (h : advance w lt = some r) : Round w lt r := by
  unfold advance at h
  split at h
  case h_1 hs =>
    cases h
    exact .restart hs
  case h_2 hs =>
    obtain ⟨f, -, rfl⟩ := Option.map_eq_some_iff.1 h
    rw [advanceTlsInit]
    split
    · exact .lacking _ (by simp [hs]) (by decide)
    · exact .tlsAsked hs
  case h_3 hs =>
    obtain ⟨f, -, hf⟩ := Option.bind_eq_some_iff.1 h
    exact advanceAuthInit_round hs hf
  case h_4 hs =>
    obtain ⟨f, -, rfl⟩ := Option.map_eq_some_iff.1 h
    rw [advanceBindInit]
    split
    · exact .lacking _ (by simp [hs]) (by decide)
    · exact .bindAsked hs
  case h_12 e hs he =>
    cases h
    rw [advanceStreamstartSent]
    dsimp only
    split
    · exact .refused e _ _ he (by simp [hs]) (by decide) (by simp [hs, granted]) rfl rfl
    · exact .streamStarted e hs he
  case h_13 e hs he =>
    cases h
    exact advanceStartedXmpp_round hs he
  case h_14 e hs he =>
    cases h
    exact advanceTlsRequested_round hs he
  case h_15 e hs he => exact advanceSaslRunning_round hs he h
  case h_16 e hs he =>
    cases h
    exact advanceBindRequested_round hs he
  case h_17 e hs he =>
    cases h
    exact advanceSessionRequested_round hs he
  -- done, or nothing has come
  all_goals
    cases h
    exact .idle (by simp [*])

/-! ## What every round keeps -/

/-- The engine's state moves forward, and its error is set only by closing it. -/
structure Forward (w w' : World) : Prop where
  rank : w.eng.state.rank ≤ w'.eng.state.rank
  error : w'.eng.error_code = w.eng.error_code ∨
    (w.eng.state ≠ .closed ∧ w'.eng.state = .closed)

theorem rank_le_closed (s : EngineState) : s.rank ≤ EngineState.closed.rank := by
  cases s <;> decide

theorem rank_closed {s : EngineState} : EngineState.closed.rank ≤ s.rank ↔ s = .closed := by
  cases s <;> decide

namespace Forward

theorem refl (w : World) : Forward w w := ⟨Nat.le_refl _, .inl rfl⟩

/-- A change of other members. -/
theorem of_eq {w w' : World} (hs : w'.eng.state = w.eng.state)
    (he : w'.eng.error_code = w.eng.error_code) : Forward w w' :=
  ⟨Nat.le_of_eq (by rw [hs]), .inl he⟩

theorem closed {w w' : World} (h : Forward w w') (hw : w.eng.state = .closed) :
    w'.eng.state = .closed :=
  rank_closed.1 (hw ▸ h.rank)

theorem trans {a b c : World} (h : Forward a b) (k : Forward b c) : Forward a c := by
  refine ⟨Nat.le_trans h.rank k.rank, ?_⟩
  rcases k.error with hk | ⟨hb, hc⟩
  · rcases h.error with ha | ⟨ha, hb⟩
    · exact .inl (hk.trans ha)
    · exact .inr ⟨ha, k.closed hb⟩
  · exact .inr ⟨fun ha => hb (h.closed ha), hc⟩

theorem signalError (w : World) (code : EngineError) (sub : Int) :
    Forward w (w.signalError code sub) := by
  rw [World.signalError]
  split
  · rename_i hn
    exact ⟨rank_le_closed _, .inr ⟨hn, rfl⟩⟩
  · exact refl w

theorem signalBound (w : World) (jid : Jid) : Forward w (w.signalBound jid) := by
  rw [World.signalBound]
  dsimp only
  split
  · rename_i ho
    refine ⟨?_, .inl rfl⟩
    rw [show w.eng.state = .opening from ho]
    exact Nat.le_succ 2
  · exact of_eq rfl rfl

end Forward

/-- The history gains events that satisfy `p`, and loses none. -/
def Grows (p : Event → Prop) (w w' : World) : Prop :=
  ∃ evs, w'.log = w.log ++ evs ∧ ∀ ev ∈ evs, p ev

namespace Grows

variable {p q : Event → Prop}

theorem refl (w : World) : Grows p w w := ⟨[], by simp, by simp⟩

/-- A change of the engine alone. -/
theorem of_eq {w w' : World} (h : w'.log = w.log) : Grows p w w' := ⟨[], by simp [h], by simp⟩

theorem emit (w : World) {ev : Event} (h : p ev) : Grows p w (w.emit ev) :=
  ⟨[ev], rfl, by simpa using h⟩

theorem write (w : World) (bytes : Str) (h : p (.wrote w.eng.state bytes)) :
    Grows p w (w.write bytes) :=
  ⟨[_], rfl, by simpa using h⟩

theorem trans {a b c : World} (h : Grows p a b) (k : Grows p b c) : Grows p a c := by
  obtain ⟨e₁, h₁, p₁⟩ := h
  obtain ⟨e₂, h₂, p₂⟩ := k
  refine ⟨e₁ ++ e₂, by rw [h₂, h₁, List.append_assoc], ?_⟩
  intro ev hev
  rcases List.mem_append.1 hev with hev | hev
  · exact p₁ ev hev
  · exact p₂ ev hev

theorem mono {w w' : World} (h : Grows p w w') (hpq : ∀ ev, p ev → q ev) : Grows q w w' := by
  obtain ⟨evs, hl, hp⟩ := h
  exact ⟨evs, hl, fun ev hev => hpq ev (hp ev hev)⟩

theorem mem {w w' : World} (h : Grows p w w') {ev : Event} (hev : ev ∈ w.log) : ev ∈ w'.log := by
  obtain ⟨evs, hl, -⟩ := h
  rw [hl]
  exact List.mem_append_left _ hev

end Grows

/-- What the login task leaves alone. -/
structure LoginFrame (w w' : World) : Prop where
  output_handler : w'.eng.output_handler = w.eng.output_handler
  session_handler : w'.eng.session_handler = w.eng.session_handler
  engine_entered : w'.eng.engine_entered = w.eng.engine_entered
  stanza_parser_ : w'.eng.stanza_parser_ = w.eng.stanza_parser_
  stanza_handlers : w'.eng.stanza_handlers = w.eng.stanza_handlers
  iq_entries : w'.eng.iq_entries = w.eng.iq_entries
  encrypted : w'.eng.encrypted = w.eng.encrypted
  tls_option : w'.eng.tls_option = w.eng.tls_option
  nextCookie : w'.nextCookie = w.nextCookie
  sasl_handler : w'.eng.sasl_handler = w.eng.sasl_handler
  forward : Forward w w'
  grows : Grows (fun ev => ev.byLogin = true) w w'

namespace LoginFrame

theorem refl (w : World) : LoginFrame w w :=
  ⟨rfl, rfl, rfl, rfl, rfl, rfl, rfl, rfl, rfl, rfl, .refl w, .refl w⟩

theorem trans {a b c : World} (h : LoginFrame a b) (k : LoginFrame b c) : LoginFrame a c :=
  ⟨k.1.trans h.1, k.2.trans h.2, k.3.trans h.3, k.4.trans h.4, k.5.trans h.5, k.6.trans h.6,
    k.7.trans h.7, k.8.trans h.8, k.9.trans h.9, k.10.trans h.10, h.forward.trans k.forward,
    h.grows.trans k.grows⟩

theorem emit (w : World) {ev : Event} (h : ev.byLogin = true) : LoginFrame w (w.emit ev) :=
  ⟨rfl, rfl, rfl, rfl, rfl, rfl, rfl, rfl, rfl, rfl, .of_eq rfl rfl, .emit w h⟩

theorem setLogin (w : World) (lt : XmppLoginTask) : LoginFrame w (w.setLogin lt) :=
  ⟨rfl, rfl, rfl, rfl, rfl, rfl, rfl, rfl, rfl, rfl, .of_eq rfl rfl, .of_eq rfl⟩

theorem write (w : World) (bytes : Str) : LoginFrame w (w.write bytes) :=
  ⟨rfl, rfl, rfl, rfl, rfl, rfl, rfl, rfl, rfl, rfl, .of_eq rfl rfl, .write w bytes rfl⟩

theorem raiseReset (w : World) : LoginFrame w w.raiseReset :=
  ⟨rfl, rfl, rfl, rfl, rfl, rfl, rfl, rfl, rfl, rfl, .of_eq rfl rfl, .of_eq rfl⟩

theorem nextId (w : World) : LoginFrame w w.nextId.1 :=
  ⟨rfl, rfl, rfl, rfl, rfl, rfl, rfl, rfl, rfl, rfl, .of_eq rfl rfl, .of_eq rfl⟩

theorem internalSendStanza (w : World) (e : XmlElement) :
    LoginFrame w (w.internalSendStanza e) := by
  refine trans ?_ (write _ _)
  exact ⟨rfl, rfl, rfl, rfl, rfl, rfl, rfl, rfl, rfl, rfl, .of_eq rfl rfl, .of_eq rfl⟩

theorem send (w : World) (lt : XmppLoginTask) (e : XmlElement) :
    LoginFrame w (XmppLoginTask.send w lt e) :=
  (emit w rfl).trans (internalSendStanza _ e)

theorem signalError (w : World) (code : EngineError) (sub : Int) :
    LoginFrame w (w.signalError code sub) := by
  have hf := Forward.signalError w code sub
  rw [World.signalError] at hf ⊢
  split
  · rename_i hn
    rw [if_pos hn] at hf
    exact ⟨rfl, rfl, rfl, rfl, rfl, rfl, rfl, rfl, rfl, rfl, hf, .of_eq rfl⟩
  · exact refl w

theorem signalBound (w : World) (jid : Jid) : LoginFrame w (w.signalBound jid) := by
  have hf := Forward.signalBound w jid
  rw [World.signalBound] at hf ⊢
  dsimp only at hf ⊢
  split
  · rename_i ho
    rw [if_pos ho] at hf
    exact ⟨rfl, rfl, rfl, rfl, rfl, rfl, rfl, rfl, rfl, rfl, hf,
      ⟨[_], rfl, by simp [Event.byLogin]⟩⟩
  · exact emit w rfl

theorem nextStanza (w : World) (lt : XmppLoginTask) (e : XmlElement) :
    LoginFrame w (XmppLoginTask.nextStanza w lt e).1 :=
  emit w rfl

theorem failure (w : World) (lt : XmppLoginTask) (reason : EngineError) :
    LoginFrame w (XmppLoginTask.failure w lt reason).1 :=
  (setLogin w _).trans (signalError _ _ _)

theorem flush (w : World) (lt : XmppLoginTask) : LoginFrame w (flushQueuedStanzas w lt).1 := by
  have h : ∀ (l : List XmlElement) (w : World), LoginFrame w
      (l.foldl (fun w e => (w.emit (.printed e)).internalSendStanza e) w) := by
    intro l
    induction l with
    | nil => exact refl
    | cons e l ih =>
      intro w
      exact ((emit w rfl).trans (internalSendStanza _ e)).trans (ih _)
  exact h _ w

end LoginFrame

/-- What a round can push. -/
def AdvancePush (push : List Stmt) : Prop :=
  push = [] ∨ push = [.advance] ∨ push = [.tlsStarted] ∨
    ∃ d, push = [.callback (.startTls d), .startedTls, .tlsStarted]

/-- Every round keeps to the frame, and pushes nothing else. -/
theorem round_frame (h : Round w lt r) : LoginFrame w r.1 ∧ AdvancePush r.2 := by
  have hn : ∀ e, LoginFrame w (nextStanza w lt e).1 := LoginFrame.nextStanza w lt
  have hgoto : ∀ {v lt' s}, LoginFrame w v →
      LoginFrame w (goto v lt' s).1 ∧ AdvancePush (goto v lt' s).2 :=
    fun hv => ⟨hv.trans (LoginFrame.setLogin _ _), .inr (.inl rfl)⟩
  have hfail : ∀ {v lt' e}, LoginFrame w v →
      LoginFrame w (failure v lt' e).1 ∧ AdvancePush (failure v lt' e).2 :=
    fun hv => ⟨hv.trans (LoginFrame.failure _ _ _), .inl rfl⟩
  cases h with
  | idle hs => exact ⟨LoginFrame.refl w, .inl rfl⟩
  | restart hs => exact hgoto ((LoginFrame.raiseReset w).trans (LoginFrame.write _ _))
  | lacking reason hs => exact hfail (LoginFrame.refl w)
  | refused e lt' reason => exact hfail (hn e)
  | streamStarted e | ignored e => exact ⟨(hn e).trans (LoginFrame.setLogin _ _), .inl rfl⟩
  | featuresTls e | featuresAuth e | featuresBind e | authenticated e => exact hgoto (hn e)
  | tlsAsked hs => exact hgoto (LoginFrame.send w lt _)
  | proceed e domain hs =>
    refine ⟨((hn e).trans (LoginFrame.setLogin _ _)).trans (LoginFrame.emit _ rfl), ?_⟩
    exact .inr (.inr (.inr ⟨domain, rfl⟩))
  | proceedUnhandled e hs =>
    exact ⟨(hn e).trans (LoginFrame.setLogin _ _), .inr (.inr (.inl rfl))⟩
  | unchosen sh mechanisms hs => exact hfail (LoginFrame.emit w rfl)
  | unstarted sh mechanisms choice mech hs =>
    exact hfail ((LoginFrame.emit w rfl).trans (LoginFrame.emit _ rfl))
  | authSent sh mechanisms choice mech auth hs =>
    exact hgoto (((LoginFrame.emit w rfl).trans (LoginFrame.emit _ rfl)).trans
      (LoginFrame.send _ _ _))
  | challenged e response hs => exact hgoto ((hn e).trans (LoginFrame.send _ _ _))
  | bindAsked hs => exact hgoto ((LoginFrame.nextId w).trans (LoginFrame.send _ _ _))
  | bound e bind hs =>
    exact hgoto (((hn e).trans (LoginFrame.nextId _)).trans (LoginFrame.send _ _ _))
  | sessionStarted e hs =>
    refine ⟨?_, .inl rfl⟩
    exact (((hn e).trans (LoginFrame.signalBound _ _)).trans (LoginFrame.flush _ _)).trans
      (LoginFrame.setLogin _ _)

/-! ## What a round adds to the history -/

theorem send_log (w : World) (lt : XmppLoginTask) (e : XmlElement) : ∃ bytes,
    (send w lt e).log = w.log ++ [.sentByLogin lt.state e] ++ [.wrote w.eng.state bytes] :=
  ⟨_, rfl⟩

theorem goto_log (w : World) (lt : XmppLoginTask) (s : LoginTaskState) :
    (goto w lt s).1.log = w.log := rfl

section

variable {p : Event → Prop}

theorem grows_failure (w : World) (lt : XmppLoginTask) (reason : EngineError) :
    Grows p w (failure w lt reason).1 := by
  refine .of_eq ?_
  unfold XmppLoginTask.failure World.signalError
  dsimp only
  split <;> rfl

theorem grows_send {w : World} {lt : XmppLoginTask} {e : XmlElement}
    (hs : p (.sentByLogin lt.state e)) (hw : ∀ s bytes, p (.wrote s bytes)) :
    Grows p w (send w lt e) := by
  have hemit : Grows p w (w.emit (.sentByLogin lt.state e)) := .emit w hs
  exact hemit.trans (.write _ _ (hw _ _))

theorem grows_goto_send {w : World} {lt lt' : XmppLoginTask} {e : XmlElement} {s : LoginTaskState}
    (hs : p (.sentByLogin lt.state e)) (hw : ∀ s bytes, p (.wrote s bytes)) :
    Grows p w (goto (send w lt e) lt' s).1 :=
  (grows_send hs hw).trans (.of_eq (goto_log (send w lt e) lt' s))

theorem grows_signalBound {w : World} {jid : Jid} (h : p (.signalBound jid)) :
    Grows p w (w.signalBound jid) := by
  rw [World.signalBound]
  dsimp only
  split
  · exact (Grows.emit w h).trans (.of_eq rfl)
  · exact .emit w h

theorem grows_flush {w : World} {lt : XmppLoginTask} (hp : ∀ e, p (.printed e))
    (hw : ∀ s bytes, p (.wrote s bytes)) : Grows p w (flushQueuedStanzas w lt).1 := by
  have h : ∀ (l : List XmlElement) (w : World),
      Grows p w (l.foldl (fun w e => (w.emit (.printed e)).internalSendStanza e) w) := by
    intro l
    induction l with
    | nil => exact Grows.refl
    | cons e l ih =>
      intro w
      have hemit : Grows p w (w.emit (.printed e)) := .emit w (hp e)
      have hprint : Grows p (w.emit (.printed e)) ((w.emit (.printed e)).internalSendStanza e) :=
        .write _ _ (hw _ _)
      exact (hemit.trans hprint).trans (ih _)
  exact h _ w

end

/-- A raised reset stays raised, and `LOGINSTATE_INIT` raises it. -/
theorem round_raised (h : Round w lt r) (hr : w.eng.raised_reset = true ∨ lt.state = .init) :
    r.1.eng.raised_reset = true := by
  have hinit : ∀ {s : LoginTaskState}, lt.state = s → s ≠ .init → w.eng.raised_reset = true := by
    intro s hs hn
    exact hr.resolve_right fun hi => hn (hs.symm.trans hi)
  have hsig : ∀ (v : World) code sub,
      (v.signalError code sub).eng.raised_reset = v.eng.raised_reset := by
    intro v code sub
    rw [World.signalError]
    split <;> rfl
  have hflush : ∀ (l : List XmlElement) (v : World), v.eng.raised_reset = true →
      (l.foldl (fun w e => (w.emit (.printed e)).internalSendStanza e) v).eng.raised_reset
        = true := by
    intro l
    induction l with
    | nil => exact fun v hv => hv
    | cons e l ih => exact fun v hv => ih _ hv
  cases h with
  | idle hs => exact hr.resolve_right hs
  | restart hs => rfl
  | lacking reason hs =>
    have hw : w.eng.raised_reset = true := by
      rcases hs with hs | hs | hs <;> exact hinit hs (by simp)
    exact (hsig _ _ _).trans hw
  | refused e lt' reason he hs => exact (hsig _ _ _).trans (hr.resolve_right hs)
  | streamStarted e hs | featuresTls e hs | featuresAuth e hs | featuresBind e hs
  | proceed e domain hs | proceedUnhandled e hs | authenticated e hs => exact hinit hs (by simp)
  | tlsAsked hs | challenged e response hs | bindAsked hs | bound e bind hs
  | authSent sh mechanisms choice mech auth hs =>
    exact (goto_send_raised ..).trans (hinit hs (by simp))
  | unchosen sh mechanisms hs | unstarted sh mechanisms choice mech hs =>
    exact (hsig _ _ _).trans (hinit hs (by simp))
  | ignored e hs =>
    rcases hs with hs | hs <;> exact hinit hs (by simp)
  | sessionStarted e hs =>
    refine hflush _ _ ?_
    have hb : (signalBound (nextStanza w lt e).1 lt.fullJid).eng.raised_reset
        = w.eng.raised_reset := by
      rw [World.signalBound]
      dsimp only
      split <;> rfl
    exact hb.trans (hinit hs (by simp))

end Gxmpp
