/-
PLAIN in the clear: which mechanism is started when the stream is not encrypted.

`XmppClient` installs one of two SASL handlers. `PlainSaslHandler` reads the flag
`encrypted` and `allow_plain`. `XmppAuth::ChooseBestSaslMechanism` reads neither: PLAIN is
its last resort, whatever the settings say. So with an `XmppAuth` the password goes out in
the clear whenever PLAIN is offered and the mechanism of the settings is not.

The choice is an event of the history. What is proved is that every choice was made by one
of the two handlers, from the settings, and what follows a choice.
-/
import Gxmpp.Encrypted

set_option autoImplicit false

namespace Gxmpp

open World Reentrant XmppLoginTask

/-! ## 1. The two handlers -/

/-- The mechanisms with a token. -/
def tokenMechanisms : List Str :=
  [AUTH_MECHANISM_OAUTH2, AUTH_MECHANISM_GOOGLE_TOKEN, AUTH_MECHANISM_GOOGLE_COOKIE]

/-- The handlers that `XmppClient` installs for the settings and the `pre_auth` of `Connect`. -/
inductive Installs (settings : XmppClientSettings) (pre_auth : Option XmppAuth) :
    SaslHandler → Prop where
  | plain (user : Jid) (password : Str) (hnone : pre_auth = none) :
      Installs settings pre_auth (plainSaslHandler user password settings.allow_plain)
  | auth (a : XmppAuth) (hsome : pre_auth ≠ none)
      (hmechanism : a.auth_mechanism = settings.auth_mechanism) :
      Installs settings pre_auth a.handler

/-- The mechanisms that may be offered in the clear. -/
def SafeOffer (settings : XmppClientSettings) (pre_auth : Option XmppAuth)
    (mechanisms : List Str) : Prop :=
  pre_auth = none ∨ AUTH_MECHANISM_PLAIN ∉ mechanisms ∨
    (settings.auth_mechanism ∈ tokenMechanisms ∧ settings.auth_mechanism ∈ mechanisms)

/-- `PlainSaslHandler` chooses PLAIN only over TLS or if that is allowed. -/
theorem plainSaslHandler_clear (user : Jid) (password : Str) (mechanisms : List Str) :
    (plainSaslHandler user password false).chooseBestSaslMechanism mechanisms false
      ≠ AUTH_MECHANISM_PLAIN := by
  have hempty : (plainSaslHandler user password false).chooseBestSaslMechanism mechanisms false
      = STR_EMPTY := rfl
  rw [hempty]
  decide

/-- `XmppAuth` chooses PLAIN when it is offered and the mechanism with the token is not. -/
theorem xmppAuth_chooses_plain (a : XmppAuth) (mechanisms : List Str) (encrypted : Bool) :
    a.handler.chooseBestSaslMechanism mechanisms encrypted = AUTH_MECHANISM_PLAIN ↔
      AUTH_MECHANISM_PLAIN ∈ mechanisms ∧
        ¬(a.auth_mechanism ∈ tokenMechanisms ∧ a.auth_mechanism ∈ mechanisms) := by
  show a.chooseBestSaslMechanism mechanisms encrypted = AUTH_MECHANISM_PLAIN ↔ _
  unfold XmppAuth.chooseBestSaslMechanism tokenMechanisms
  simp only [Bool.and_eq_true, decide_eq_true_eq, List.mem_cons, List.not_mem_nil, or_false]
  by_cases hoauth : a.auth_mechanism = AUTH_MECHANISM_OAUTH2 ∧ AUTH_MECHANISM_OAUTH2 ∈ mechanisms
  · rw [if_pos hoauth]
    refine iff_of_false (by decide) fun h => h.2 ?_
    rw [hoauth.1]
    exact ⟨Or.inl rfl, hoauth.2⟩
  rw [if_neg hoauth]
  by_cases htoken : a.auth_mechanism = AUTH_MECHANISM_GOOGLE_TOKEN
      ∧ AUTH_MECHANISM_GOOGLE_TOKEN ∈ mechanisms
  · rw [if_pos htoken]
    refine iff_of_false (by decide) fun h => h.2 ?_
    rw [htoken.1]
    exact ⟨Or.inr (Or.inl rfl), htoken.2⟩
  rw [if_neg htoken]
  by_cases hcookie : a.auth_mechanism = AUTH_MECHANISM_GOOGLE_COOKIE
      ∧ AUTH_MECHANISM_GOOGLE_COOKIE ∈ mechanisms
  · rw [if_pos hcookie]
    refine iff_of_false (by decide) fun h => h.2 ?_
    rw [hcookie.1]
    exact ⟨Or.inr (Or.inr rfl), hcookie.2⟩
  rw [if_neg hcookie]
  -- no mechanism with a token is left
  have hno : ¬((a.auth_mechanism = AUTH_MECHANISM_OAUTH2
      ∨ a.auth_mechanism = AUTH_MECHANISM_GOOGLE_TOKEN
      ∨ a.auth_mechanism = AUTH_MECHANISM_GOOGLE_COOKIE) ∧ a.auth_mechanism ∈ mechanisms) := by
    rintro ⟨h | h | h, hmem⟩
    · exact hoauth ⟨h, h ▸ hmem⟩
    · exact htoken ⟨h, h ▸ hmem⟩
    · exact hcookie ⟨h, h ▸ hmem⟩
  by_cases hplain : AUTH_MECHANISM_PLAIN ∈ mechanisms
  · rw [if_pos hplain]
    exact iff_of_true rfl ⟨hplain, hno⟩
  · rw [if_neg hplain]
    exact iff_of_false (by decide) fun h => hplain h.1

/-! ## 2. What follows a choice -/

/-- A choice in the history. -/
def Event.isChoice : Event → Bool
  | .chose .. => true
  | _ => false

/-- A mechanism that is chosen, and can be created and has something to send, is started. -/
def Started (sh : SaslHandler) (choice : Str) (after : List Event) : Prop :=
  ∀ mech auth, choice ≠ STR_EMPTY → sh.createSaslMechanism choice = some mech →
    mech.startSaslAuth = some auth → ∃ allowNonGoogle rest,
      after = .gotMechanism choice ::
        .sentByLogin .authInit (withGoogleAttrs auth allowNonGoogle) :: rest

variable {after : List Event} {w : World} {r : World × List Stmt}

theorem Started.append {sh : SaslHandler} {choice : Str} (h : Started sh choice after)
    (new : List Event) : Started sh choice (after ++ new) := by
  intro mech auth hchoice hcreate hstart
  obtain ⟨allowNonGoogle, rest, rfl⟩ := h mech auth hchoice hcreate hstart
  exact ⟨allowNonGoogle, rest ++ new, rfl⟩

/-- Every choice of the history was made by a handler of a kind, and followed up. -/
def ChosenBy (p : SaslHandler → Prop) (log : List Event) : Prop :=
  ∀ before mechanisms encrypted choice after,
    log = before ++ .chose mechanisms encrypted choice :: after →
      ∃ sh, p sh ∧ choice = sh.chooseBestSaslMechanism mechanisms encrypted
        ∧ Started sh choice after

/-- What a step adds to the history: no choice, or one that the installed handler makes. -/
inductive ChoiceStep (w w' : World) : Prop where
  | none (h : Grows (fun ev => ev.isChoice = false) w w')
  | chosen (sh : SaslHandler) (mechanisms : List Str) (choice : Str) (rest : List Event)
      (hhandler : w.eng.sasl_handler = some sh)
      (hchoice : sh.chooseBestSaslMechanism mechanisms w.eng.encrypted = choice)
      (hlog : w'.log = w.log ++ .chose mechanisms w.eng.encrypted choice :: rest)
      (hrest : ∀ ev ∈ rest, ev.isChoice = false) (hstarted : Started sh choice rest)

/-- An event of a history that has grown: an old one or a new one. -/
theorem split_append {l new before : List Event} {x : Event} (h : l ++ new = before ++ x :: after) :
    (∃ after', l = before ++ x :: after' ∧ after = after' ++ new) ∨
      ∃ before', before = l ++ before' ∧ new = before' ++ x :: after := by
  rcases List.append_eq_append_iff.1 h with ⟨t, hbefore, hnew⟩ | ⟨t, hl, ht⟩
  · exact Or.inr ⟨t, hbefore, hnew⟩
  · rcases t with _ | ⟨y, t⟩
    · refine Or.inr ⟨[], ?_, ht.symm⟩
      rw [List.append_nil] at hl ⊢
      exact hl.symm
    · obtain ⟨rfl, rfl⟩ := List.cons.inj ht
      exact Or.inl ⟨t, hl, rfl⟩

theorem ChosenBy.step {p : SaslHandler → Prop} {w' : World} (h : ChosenBy p w.log)
    (hp : ∀ sh, w.eng.sasl_handler = some sh → p sh) (hstep : ChoiceStep w w') :
    ChosenBy p w'.log := by
  intro before mechanisms encrypted choice after hsplit
  cases hstep with
  | none hgrows =>
    obtain ⟨new, hlog, hnew⟩ := hgrows
    rw [hlog] at hsplit
    rcases split_append hsplit with ⟨after', hold, rfl⟩ | ⟨before', -, hpart⟩
    · obtain ⟨sh, hsh, hchoice, hstarted⟩ := h _ _ _ _ _ hold
      exact ⟨sh, hsh, hchoice, hstarted.append new⟩
    · have hno := hnew (.chose mechanisms encrypted choice)
        (hpart ▸ List.mem_append_right _ List.mem_cons_self)
      exact absurd hno.symm Bool.false_ne_true
  | chosen sh offered chosen rest hhandler hchosen hlog hrest hstarted =>
    rw [hlog] at hsplit
    rcases split_append hsplit with ⟨after', hold, rfl⟩ | ⟨before', -, hpart⟩
    · obtain ⟨sh', hsh, hchoice, hstarted'⟩ := h _ _ _ _ _ hold
      exact ⟨sh', hsh, hchoice, hstarted'.append _⟩
    · rcases before' with _ | ⟨y, before'⟩
      · obtain ⟨hev, rfl⟩ := List.cons.inj hpart
        injection hev with hmechanisms hencrypted hchoice
        subst hmechanisms hencrypted hchoice
        exact ⟨sh, hp sh hhandler, hchosen.symm, hstarted⟩
      · have hno := hrest (.chose mechanisms encrypted choice)
          ((List.cons.inj hpart).2 ▸ List.mem_append_right _ List.mem_cons_self)
        exact absurd hno.symm Bool.false_ne_true

/-! ## 3. The steps of the engine -/

/-- A round that is not in `LOGINSTATE_AUTH_INIT` makes no choice. -/
theorem round_silent {lt : XmppLoginTask} (h : Round w lt r) (hs : lt.state ≠ .authInit) :
    Grows (fun ev => ev.isChoice = false) w r.1 := by
  have htook : ∀ e, Grows (fun ev => ev.isChoice = false) w (nextStanza w lt e).1 :=
    fun e => .emit w rfl
  have hid : ∀ v : World, Grows (fun ev => ev.isChoice = false) v v.nextId.1 :=
    fun v => .of_eq rfl
  have hsend : ∀ (v : World) (t t' : XmppLoginTask) (e : XmlElement) (s : LoginTaskState),
      Grows (fun ev => ev.isChoice = false) v (goto (send v t e) t' s).1 :=
    fun v t t' e s => grows_goto_send rfl fun _ _ => rfl
  cases h with
  | idle _ => exact .refl w
  | restart _ => exact (Grows.of_eq rfl).trans (.write _ _ rfl)
  | lacking reason _ _ => exact grows_failure _ _ _
  | refused e lt' reason _ _ _ _ _ _ => exact (htook e).trans (grows_failure _ _ _)
  | streamStarted e | featuresTls e | featuresAuth e | featuresBind e | proceedUnhandled e
  | authenticated e | ignored e => exact htook e
  | tlsAsked _ => exact hsend ..
  | proceed e domain _ _ _ _ =>
    exact (htook e).trans ((Grows.of_eq rfl).trans (.emit _ rfl))
  | unchosen _ _ h | unstarted _ _ _ _ h | authSent _ _ _ _ _ h => exact absurd h hs
  | challenged e response _ _ _ => exact (htook e).trans (hsend ..)
  | bindAsked _ => exact (hid w).trans (hsend ..)
  | bound e bind _ _ _ _ _ =>
    exact (htook e).trans ((hid _).trans (hsend ..))
  | sessionStarted e _ _ _ _ =>
    exact ((htook e).trans (grows_signalBound rfl)).trans
      (grows_flush (fun _ => rfl) fun _ _ => rfl)

theorem failure_log (w : World) (lt : XmppLoginTask) (reason : EngineError) :
    (failure w lt reason).1.log = w.log := signalError_log _ _ _

/-- `LOGINSTATE_AUTH_INIT` asks the installed handler, and starts what it chooses. -/
theorem authInit_chooses {lt : XmppLoginTask} {features : XmlElement} (hs : lt.state = .authInit)
    (h : advanceAuthInit w lt features = some r) : ChoiceStep w r.1 := by
  unfold advanceAuthInit at h
  split at h
  · obtain rfl := Option.some.inj h
    exact .none (grows_failure _ _ _)
  · rename_i pelSaslAuth _
    obtain ⟨sh, hhandler, h⟩ := Option.bind_eq_some_iff.1 h
    dsimp only at h
    generalize (pelSaslAuth.named QN_SASL_MECHANISM).map XmlElement.bodyText = mechanisms at h
    generalize hchosen : sh.chooseBestSaslMechanism mechanisms w.eng.encrypted = choice at h
    -- the choice is asked for once; what follows it is the mechanism, or a failure
    have hgot : ∀ ev ∈ [Event.gotMechanism choice], ev.isChoice = false := by
      intro ev hev
      rw [List.mem_singleton.1 hev]
      rfl
    by_cases hchoice : choice.isEmpty = true
    · rw [if_pos hchoice] at h
      obtain rfl := Option.some.inj h
      -- nothing was chosen
      refine .chosen sh mechanisms choice [] hhandler hchosen (failure_log _ _ _)
        (fun ev hev => absurd hev List.not_mem_nil) ?_
      exact fun mech auth hne => absurd (List.isEmpty_iff.1 hchoice) hne
    · rw [if_neg hchoice] at h
      split at h
      · rename_i hnone
        obtain rfl := Option.some.inj h
        refine .chosen sh mechanisms choice _ hhandler hchosen ?_ hgot ?_
        · rw [failure_log]
          exact List.append_assoc _ _ _
        · intro mech auth _ hcreate
          exact absurd (hnone.symm.trans hcreate) (Option.some_ne_none _).symm
      · rename_i mech hmech
        split at h
        · rename_i hnone
          obtain rfl := Option.some.inj h
          refine .chosen sh mechanisms choice _ hhandler hchosen ?_ hgot ?_
          · rw [failure_log]
            exact List.append_assoc _ _ _
          · intro mech' auth _ hcreate hstart
            obtain rfl := Option.some.inj (hmech.symm.trans hcreate)
            exact absurd (hnone.symm.trans hstart) (Option.some_ne_none _).symm
        · rename_i auth hauth
          obtain rfl := Option.some.inj h
          obtain ⟨bytes, hsent⟩ := send_log
            ((w.emit (.chose mechanisms w.eng.encrypted choice)).emit (.gotMechanism choice))
            { lt with sasl_mech := sh.createSaslMechanism choice }
            (withGoogleAttrs auth lt.allowNonGoogleLogin)
          refine .chosen sh mechanisms choice [.gotMechanism choice, .sentByLogin lt.state
            (withGoogleAttrs auth lt.allowNonGoogleLogin), .wrote w.eng.state bytes] hhandler
            hchosen ?_ ?_ ?_
          · rw [goto_log, hsent]
            simp only [emit_log, List.append_assoc]
            rfl
          · intro ev hev
            simp only [List.mem_cons, List.not_mem_nil, or_false] at hev
            rcases hev with rfl | rfl | rfl <;> rfl
          · intro mech' auth' _ hcreate hstart
            obtain rfl := Option.some.inj (hmech.symm.trans hcreate)
            obtain rfl := Option.some.inj (hauth.symm.trans hstart)
            rw [hs]
            exact ⟨lt.allowNonGoogleLogin, _, rfl⟩

/-- A statement of the engine makes a choice only through the installed handler. -/
theorem exec_chooses {s : Stmt} (h : w.exec s = some r) : ChoiceStep w r.1 := by
  by_cases hs : s = .advance
  · subst hs
    obtain ⟨lt, hl, h⟩ := Option.bind_eq_some_iff.1 h
    by_cases hauth : lt.state = .authInit
    · unfold advance at h
      rw [hauth] at h
      obtain ⟨features, -, h⟩ := Option.bind_eq_some_iff.1 h
      exact authInit_chooses hauth h
    · exact .none (round_silent (advance_round h) hauth)
  · refine .none ((exec_frame h).grows.mono fun ev hev => ?_)
    cases ev with
    | chose mechanisms encrypted choice =>
      cases s with
      | advance => exact absurd rfl hs
      | _ => exact absurd hev Bool.false_ne_true
    | _ => rfl

/-- The functions of the engine make none. -/
theorem enter_silent_choice (w : World) (m : Call) :
    Grows (fun ev => ev.isChoice = false) w (w.enter m).1 := by
  have hcalled : Grows (fun ev => ev.isChoice = false) w (w.emit (.called m)) := .emit w rfl
  refine hcalled.trans ((entry_frame (enter_entry w m)).grows.mono fun ev hev => ?_)
  cases ev with
  | chose mechanisms encrypted choice =>
    cases m with
    | _ => exact absurd hev Bool.false_ne_true
  | _ => rfl

/-! ## 4. The client -/

/-- The application installs no SASL handler of its own. -/
def ClientEvent.installs : ClientEvent → Bool
  | .engine (.setSaslHandler _) => true
  | _ => false

/-- The rule that the client alone sets the SASL handler. -/
def clientHandlers (_ : ClientConf) (e : ClientEvent) : Prop := e.installs = false

/-- The client holds what the settings say, and an `XmppAuth` that it has started too. -/
structure ClientReady (settings : XmppClientSettings) (pre_auth : Option XmppAuth)
    (p : ClientPrivate) : Prop where
  allow_plain : p.allow_plain_ = settings.allow_plain
  auth_mechanism : p.auth_mechanism_ = settings.auth_mechanism
  start : p.state_ = .start → p.pre_auth_ = pre_auth
  waiting : ∀ a, p.pre_auth_ = some a → pre_auth ≠ none ∧
    (p.state_ ≠ .start → a.auth_mechanism = settings.auth_mechanism)

/-- The client acts on its settings, and every choice was made by a handler it installed. -/
structure ClientChoice (settings : XmppClientSettings) (pre_auth : Option XmppAuth)
    (c : ClientConf) : Prop where
  ready : ClientReady settings pre_auth c.state.2
  handler : ∀ sh, c.state.1.eng.sasl_handler = some sh → Installs settings pre_auth sh
  chosen : ChosenBy (Installs settings pre_auth) c.state.1.log

/-- `SetSaslHandler` sets the handler, or is refused. -/
theorem setSaslHandler_cases (w : World) (sh : Option SaslHandler) :
    (w.enter (.setSaslHandler sh)).1.eng.sasl_handler = sh
      ∨ (w.enter (.setSaslHandler sh)).1.eng.sasl_handler = w.eng.sasl_handler := by
  show (setter _ _ _).1.eng.sasl_handler = sh ∨ (setter _ _ _).1.eng.sasl_handler = _
  unfold setter
  split
  · exact Or.inr rfl
  · exact Or.inl rfl

section

variable {settings : XmppClientSettings} {pre_auth : Option XmppAuth} {c : ClientConf}

variable {p : ClientPrivate} {ssl : Bool} {startSSL : Nat → Int}

theorem processStart_ready (h : ClientReady settings pre_auth p) (user : Jid)
    (hstate : p.state_ = .start) :
    ClientReady settings pre_auth (XmppClient.processStart user p).1
      ∧ ∀ m, (XmppClient.processStart user p).2 = some m →
        ∃ sh, m = .setSaslHandler (some sh) ∧ Installs settings pre_auth sh := by
  have hpre := h.start hstate
  unfold XmppClient.processStart
  cases hp : p.pre_auth_ with
  | some a =>
    -- the `XmppAuth` gets the mechanism of the settings
    refine ⟨⟨h.allow_plain, h.auth_mechanism, nofun, ?_⟩,
      fun m hm => absurd hm (Option.some_ne_none m).symm⟩
    intro a' ha'
    obtain rfl := Option.some.inj ha'
    exact ⟨(h.waiting a hp).1, fun _ => h.auth_mechanism⟩
  | none =>
    refine ⟨⟨h.allow_plain, h.auth_mechanism, nofun, ?_⟩, ?_⟩
    · exact fun a' ha' => absurd ha' (Option.some_ne_none a').symm
    · intro m hm
      refine ⟨_, (Option.some.inj hm).symm, ?_⟩
      rw [h.allow_plain]
      exact .plain user p.pass_ (hpre ▸ hp)

theorem processTokenLogin_ready (h : ClientReady settings pre_auth p)
    (hstate : p.state_ = .preXmppLogin) :
    ClientReady settings pre_auth (XmppClient.processTokenLogin p).1
      ∧ ∀ m, (XmppClient.processTokenLogin p).2 = some m →
        ∃ sh, m = .setSaslHandler (some sh) ∧ Installs settings pre_auth sh := by
  unfold XmppClient.processTokenLogin
  cases hp : p.pre_auth_ with
  | none =>
    refine ⟨⟨h.allow_plain, h.auth_mechanism, nofun, ?_⟩,
      fun m hm => absurd hm (Option.some_ne_none m).symm⟩
    exact fun a' ha' => absurd ha' (Option.some_ne_none a').symm
  | some a =>
    obtain ⟨hsome, hmechanism⟩ := h.waiting a hp
    have hmech : a.auth_mechanism = settings.auth_mechanism := by
      refine hmechanism ?_
      rw [hstate]
      decide
    dsimp only
    by_cases hdone : (!a.done) = true
    · rw [if_pos hdone]
      exact ⟨h, fun m hm => absurd hm (Option.some_ne_none m).symm⟩
    · rw [if_neg hdone]
      refine ⟨⟨h.allow_plain, hmech, nofun, ?_⟩, ?_⟩
      · exact fun a' ha' => absurd ha' (Option.some_ne_none a').symm
      · intro m hm
        exact ⟨_, (Option.some.inj hm).symm, .auth a hsome hmech⟩

/-- The task of the client installs one of its handlers, or calls nothing. -/
theorem process_ready (h : ClientReady settings pre_auth p) (user : Jid)
    (engineState : EngineState) (connected : Bool) :
    ClientReady settings pre_auth (XmppClient.process user engineState connected p).1
      ∧ ∀ m, (XmppClient.process user engineState connected p).2 = some m →
        ∃ sh, m = .setSaslHandler (some sh) ∧ Installs settings pre_auth sh := by
  have hkept : ∀ s : ClientTaskState, s ≠ .start → p.state_ ≠ .start →
      ClientReady settings pre_auth { p with state_ := s } := fun s hs hp =>
    ⟨h.allow_plain, h.auth_mechanism, fun heq => absurd heq hs, fun a ha =>
      ⟨(h.waiting a ha).1, fun _ => (h.waiting a ha).2 hp⟩⟩
  unfold XmppClient.process
  cases hstate : p.state_ with
  | start => exact processStart_ready h user hstate
  | preXmppLogin => exact processTokenLogin_ready h hstate
  | startXmppLogin | response =>
    refine ⟨hkept _ ?_ (by rw [hstate]; decide),
      fun m hm => absurd hm (Option.some_ne_none m).symm⟩
    split <;> decide
  | done | error => exact ⟨h, fun m hm => absurd hm (Option.some_ne_none m).symm⟩

/-- What happens outside makes the client install one of its handlers, or none. -/
theorem clientEnter_ready (h : ClientReady settings pre_auth p) (w : World) (e : ClientEvent)
    (he : e.installs = false) :
    ClientReady settings pre_auth ((clientDevice ssl startSSL).enter w p e).1
      ∧ ∀ m, ((clientDevice ssl startSSL).enter w p e).2 = some m →
        (∃ sh, m = .setSaslHandler (some sh) ∧ Installs settings pre_auth sh)
          ∨ ∀ sh, m ≠ .setSaslHandler sh := by
  cases e with
  | engine m =>
    refine ⟨h, fun m' hm => Or.inr ?_⟩
    obtain rfl := Option.some.inj hm
    rintro sh rfl
    exact Bool.false_ne_true he.symm
  | onConnectEvent =>
    refine ⟨{ h with }, fun m hm => Or.inr ?_⟩
    rintro sh rfl
    have hconnect : (if p.socket_.onConnectEvent.2 then some Call.connect else none)
        = some (.setSaslHandler sh) := hm
    split at hconnect
    · exact nomatch hconnect
    · exact nomatch hconnect
  | process connected =>
    obtain ⟨hready, hcall⟩ := process_ready h w.eng.user_jid w.eng.state connected
    exact ⟨hready, fun m hm => Or.inl (hcall m hm)⟩

theorem clientResume_ready (h : ClientReady settings pre_auth p) (s : Stmt) (v : Answer) :
    ClientReady settings pre_auth ((clientDevice ssl startSSL).resume p s v).1 := by
  have hsame : ∀ (socket : XmppSocket) (answers : List Bool), ClientReady settings pre_auth
      { p with socket_ := socket, startTlsReturned := answers } := fun _ _ =>
    { h with }
  cases s with
  | callback cb =>
    cases cb with
    | startTls domain =>
      show ClientReady settings pre_auth (XmppClient.startTls ssl startSSL p)
      unfold XmppClient.startTls
      split
      · exact hsame _ _
      · exact h
    | closeConnection => exact hsame _ _
    | _ => exact h
  | _ => exact h

/-- A step of the client keeps to the handlers of the settings. -/
theorem step_clientChoice {c' : ClientConf} {a : Act ClientEvent Answer}
    (h : ClientChoice settings pre_auth c) (hallowed : a.Allowed clientHandlers c)
    (hstep : (client ssl startSSL).step c a = some c') : ClientChoice settings pre_auth c' := by
  rcases attach_cases hstep with ⟨s, rest, r, hc, hf, hr, rfl⟩ | ⟨e, m, rfl, hw, he, rfl⟩ |
    ⟨e, rfl, he, rfl⟩ | ⟨v, s, rest, hc, hf, rfl⟩
  · -- the engine goes on
    refine ⟨h.ready, fun sh hsh => h.handler sh ?_, h.chosen.step h.handler (exec_chooses hr)⟩
    rw [← hsh]
    exact ((exec_frame hr).sasl_handler).symm
  · -- a function of the engine is called
    have hsilent := ChoiceStep.none (enter_silent_choice c.state.1 m)
    refine ⟨?_, ?_, h.chosen.step h.handler hsilent⟩
    · exact (clientEnter_ready h.ready c.state.1 e (hallowed e rfl)).1
    · intro sh hsh
      rcases (clientEnter_ready h.ready c.state.1 e (hallowed e rfl)).2 m he with
        ⟨sh', rfl, hinstalls⟩ | hother
      · rcases setSaslHandler_cases c.state.1 (some sh') with hset | hset
        · obtain rfl := Option.some.inj (hset.symm.trans hsh)
          exact hinstalls
        · exact h.handler sh (hset.symm.trans hsh)
      · have hkept := entry_sasl_handler (enter_entry c.state.1 m) hother
        exact h.handler sh (hkept.symm.trans hsh)
  · -- only the client acts
    exact ⟨(clientEnter_ready h.ready c.state.1 e (hallowed e rfl)).1, h.handler, h.chosen⟩
  · -- a handler returns
    exact ⟨clientResume_ready h.ready s v, h.handler, h.chosen⟩

/-- The choices of a run of the client. -/
theorem choices_of_run (settings : XmppClientSettings) (socket : XmppSocket)
    (pre_auth : Option XmppAuth) {c : ClientConf} (h : (client ssl startSSL).Reaches clientHandlers
      (ClientConf.init (XmppClient.connect settings socket pre_auth)) c) :
    ChosenBy (Installs settings pre_auth) c.state.1.log := by
  have hrun : ClientChoice settings pre_auth c := by
    refine Reaches.invariant h ?_ fun c a c' _ hinv hallowed hs =>
      step_clientChoice hinv hallowed hs
    refine ⟨⟨rfl, rfl, fun _ => rfl, ?_⟩, fun sh hsh => ?_, ?_⟩
    · exact fun a ha => ⟨fun hnone => absurd (hnone.symm.trans ha) (Option.some_ne_none a).symm,
        fun hs => absurd rfl hs⟩
    · exact absurd hsh (Option.some_ne_none sh).symm
    · intro before mechanisms encrypted choice after hsplit
      exact absurd hsplit.symm (List.append_ne_nil_of_right_ne_nil _ (List.cons_ne_nil _ _))
  exact hrun.chosen

end

/-! ## 5. PLAIN in the clear -/

/-- PLAIN is chosen and its `<auth>` is sent. -/
def StartsPlain (choice : Str) (after : List Event) : Prop :=
  choice = AUTH_MECHANISM_PLAIN ∧ ∃ auth rest,
    after = .gotMechanism choice :: .sentByLogin .authInit auth :: rest
      ∧ auth.attr QN_MECHANISM = AUTH_MECHANISM_PLAIN

/-- No choice without encryption starts PLAIN. -/
def NotInTheClear (log : List Event) : Prop :=
  ∀ before mechanisms choice after,
    log = before ++ .chose mechanisms false choice :: after → ¬StartsPlain choice after

/-- The attributes for Google leave the mechanism. -/
theorem withGoogleAttrs_mechanism (auth : XmlElement) (allowNonGoogle : Bool) :
    (withGoogleAttrs auth allowNonGoogle).attr QN_MECHANISM = auth.attr QN_MECHANISM := by
  unfold withGoogleAttrs
  cases allowNonGoogle with
  | false => rfl
  | true =>
    rw [if_pos rfl, XmlElement.attr_setAttr _ _ (by decide),
      XmlElement.attr_setAttr _ _ (by decide)]

theorem attr_addText (e : XmlElement) (text : Str) (name : QName) :
    (e.addText text).attr name = e.attr name := by
  unfold XmlElement.addText
  split
  · rfl
  · split <;> rfl

theorem saslPlainMechanism_auth (user : Jid) (password : Str) :
    ∃ auth, (saslPlainMechanism user password).startSaslAuth = some auth
      ∧ auth.attr QN_MECHANISM = AUTH_MECHANISM_PLAIN := by
  refine ⟨_, rfl, ?_⟩
  rw [attr_addText]
  decide

/-- A choice without encryption starts PLAIN exactly when the offer is not safe. -/
theorem startsPlain_iff {settings : XmppClientSettings} {pre_auth : Option XmppAuth}
    (hallow : settings.allow_plain = false) {sh : SaslHandler}
    (hinstalls : Installs settings pre_auth sh) {mechanisms : List Str}
    (hstarted : Started sh (sh.chooseBestSaslMechanism mechanisms false) after) :
    StartsPlain (sh.chooseBestSaslMechanism mechanisms false) after ↔
      ¬SafeOffer settings pre_auth mechanisms := by
  cases hinstalls with
  | plain user password hnone =>
    rw [hallow]
    exact iff_of_false (fun h => plainSaslHandler_clear _ _ _ h.1) fun h => h (Or.inl hnone)
  | auth a hsome hmechanism =>
    have hsafe : ¬SafeOffer settings pre_auth mechanisms ↔
        a.handler.chooseBestSaslMechanism mechanisms false = AUTH_MECHANISM_PLAIN := by
      rw [xmppAuth_chooses_plain, hmechanism]
      unfold SafeOffer
      rw [or_iff_right hsome, not_or, not_not]
    rw [hsafe]
    refine ⟨fun h => h.1, fun hplain => ⟨hplain, ?_⟩⟩
    obtain ⟨auth, hauth, hname⟩ := saslPlainMechanism_auth a.jid a.passwd
    obtain ⟨allowNonGoogle, rest, hafter⟩ := hstarted (saslPlainMechanism a.jid a.passwd) auth
      (by rw [hplain]; decide) (by rw [hplain]; rfl) hauth
    refine ⟨_, rest, hafter, ?_⟩
    rw [withGoogleAttrs_mechanism, hname]

/-- If PLAIN does not go out in the clear, the offers in the clear are safe. -/
theorem offers_safe {settings : XmppClientSettings} {pre_auth : Option XmppAuth}
    (hallow : settings.allow_plain = false) {log : List Event}
    (hchosen : ChosenBy (Installs settings pre_auth) log) (hclear : NotInTheClear log)
    {mechanisms : List Str} {choice : Str} (hmem : .chose mechanisms false choice ∈ log) :
    SafeOffer settings pre_auth mechanisms := by
  obtain ⟨before, after, hsplit⟩ := List.append_of_mem hmem
  obtain ⟨sh, hinstalls, rfl, hstarted⟩ := hchosen _ _ _ _ _ hsplit
  by_contra hunsafe
  exact hclear _ _ _ _ hsplit ((startsPlain_iff hallow hinstalls hstarted).2 hunsafe)

/-- In a run of the client that may not use PLAIN in the clear, it does not exactly when every
offer in the clear is safe: no `XmppAuth` is used, or PLAIN is not offered, or the mechanism of
the settings is one with a token and is offered. -/
theorem plain_in_the_clear (ssl : Bool) (startSSL : Nat → Int) (settings : XmppClientSettings)
    (socket : XmppSocket) (pre_auth : Option XmppAuth) (hallow : settings.allow_plain = false)
    (c : ClientConf)
    (h : (client ssl startSSL).Reaches clientHandlers
      (ClientConf.init (XmppClient.connect settings socket pre_auth)) c) :
    NotInTheClear c.state.1.log ↔ ∀ mechanisms choice,
      .chose mechanisms false choice ∈ c.state.1.log → SafeOffer settings pre_auth mechanisms := by
  have hrun := choices_of_run settings socket pre_auth h
  constructor
  · exact fun hclear mechanisms choice hmem => offers_safe hallow hrun hclear hmem
  · intro hsafe before mechanisms choice after hsplit
    obtain ⟨sh, hinstalls, rfl, hstarted⟩ := hrun _ _ _ _ _ hsplit
    have hmem := hsafe mechanisms _ (hsplit ▸ List.mem_append_right _ List.mem_cons_self)
    exact fun hplain => (startsPlain_iff hallow hinstalls hstarted).1 hplain hmem

/-! ## 6. Two logins without TLS -/

instance : ∀ (c : ClientConf) (e : ClientEvent), Decidable (clientHandlers c e) :=
  fun _ e => inferInstanceAs (Decidable (e.installs = false))

/-- A user who does not use TLS and does not allow PLAIN without it. -/
def plaintextUser : XmppClientSettings := { carefulUser with use_tls := .disabled }

/-- The client connects, and the server offers PLAIN. -/
def plainOffered : List (Act ClientEvent Answer) :=
  (XmppClient.connectCalls plaintextUser (str "en")).map (fun m => .call (.engine m)) ++
    [.call (.process false), .call (.process false), .call (.process true),
      .call .onConnectEvent] ++
    [.ret false, .ret false,
      offering (tagged (str "mechanisms") NS_SASL
        [.startElement (str "mechanism") [], .characterData (str "PLAIN"),
          .endElement (str "mechanism")]), .ret false].map asClient

/-- The choice from an offer of PLAIN alone, without encryption. -/
def plainChoice : Event → Bool
  | .chose mechanisms encrypted _ => !encrypted && mechanisms = [AUTH_MECHANISM_PLAIN]
  | _ => false

theorem offered_of_plainChoice {log : List Event} (h : log.any plainChoice = true) :
    ∃ choice, .chose [AUTH_MECHANISM_PLAIN] false choice ∈ log := by
  obtain ⟨ev, hmem, hev⟩ := List.any_eq_true.1 h
  cases ev with
  | chose mechanisms encrypted choice =>
    obtain ⟨henc, hmechanisms⟩ := Bool.and_eq_true_iff.1 hev
    rw [Bool.not_eq_true'] at henc
    rw [henc, of_decide_eq_true hmechanisms] at hmem
    exact ⟨choice, hmem⟩
  | _ => exact absurd hev.symm Bool.false_ne_true.symm

/-- With an `XmppAuth` the password goes out in the clear. -/
theorem plain_in_the_clear_sent : ¬∀ (settings : XmppClientSettings) (pre_auth : Option XmppAuth)
    (c : ClientConf), settings.allow_plain = false →
      (client true fun _ => 0).Reaches clientHandlers
        (ClientConf.init (XmppClient.connect settings (XmppSocket.init settings.use_tls) pre_auth))
        c → NotInTheClear c.state.1.log := by
  intro h
  obtain ⟨c, hc, hp⟩ := exists_of_drive (G := clientHandlers) (P := client true fun _ => 0)
    (n := 40) (c := ClientConf.init (XmppClient.connect plaintextUser (XmppSocket.init .disabled)
      (some XmppAuth.init)))
    (l := plainOffered) (p := fun c => c.state.1.log.any plainChoice) (by decide +kernel)
  obtain ⟨choice, hmem⟩ := offered_of_plainChoice hp
  have hsafe := offers_safe rfl (choices_of_run plaintextUser _ _ hc) (h _ _ c rfl hc) hmem
  revert hsafe
  unfold SafeOffer tokenMechanisms
  decide

/-- Without one it does not: no mechanism is chosen. -/
theorem plain_in_the_clear_refused : ∃ c, (client true fun _ => 0).Reaches clientHandlers
    (ClientConf.init (XmppClient.connect plaintextUser (XmppSocket.init .disabled) none)) c ∧
    (∃ choice, .chose [AUTH_MECHANISM_PLAIN] false choice ∈ c.state.1.log)
      ∧ NotInTheClear c.state.1.log := by
  obtain ⟨c, hc, hp⟩ := exists_of_drive (G := clientHandlers) (P := client true fun _ => 0)
    (n := 40) (c := ClientConf.init (XmppClient.connect plaintextUser (XmppSocket.init .disabled)
      none))
    (l := plainOffered) (p := fun c => c.state.1.log.any plainChoice) (by decide +kernel)
  exact ⟨c, hc, offered_of_plainChoice hp,
    (plain_in_the_clear true _ plaintextUser _ none rfl c hc).2
    fun _ _ _ => Or.inl rfl⟩

end Gxmpp
