/-
The loop of `XmppLoginTask::Advance` as it stands, without a count of its rounds.

The states in which it goes on by itself need the features, and the one in which it answers
challenges needs a mechanism. They are there in every run (`held_reachable`). The one pointer that
may be null is that of the SASL handler, which is asked without a check.
-/
import Gxmpp.LoginSafety
import Gxmpp.Walking

set_option autoImplicit false

namespace Gxmpp

open World XmppLoginTask Reentrant Walking

/-- The states that do not wait for a stanza. -/
def LoginTaskState.goesOn : LoginTaskState → Bool
  | .init | .tlsInit | .authInit | .bindInit => true
  | _ => false

/-- What the state uses is there. -/
def XmppLoginTask.held (lt : XmppLoginTask) : Bool :=
  match lt.state with
  | .tlsInit | .authInit | .bindInit => lt.pelFeatures.isSome
  | .saslRunning => lt.sasl_mech.isSome
  | _ => true

/-- The stanzas in the hands of the task. -/
def XmppLoginTask.hand (lt : XmppLoginTask) : ℕ := lt.pelStanza.toList.length

/-- The rounds that are left, but for the last one. -/
def XmppLoginTask.work (lt : XmppLoginTask) : ℕ := 2 * lt.hand + lt.state.goesOn.toNat

/-- The task takes a stanza. -/
def Event.isTook : Event → Bool
  | .took .. => true
  | _ => false

/-- The stanzas that were taken. -/
def World.taken (w : World) : ℕ := w.log.countP Event.isTook

/-- The SASL handler is asked: mechanisms are offered, and TLS does not come before them. -/
def asksSasl (w : World) (lt : XmppLoginTask) : Bool :=
  match lt.state, lt.pelStanza with
  | .authInit, _ => lt.pelFeatures.any fun f => (f.firstNamed QN_SASL_MECHANISMS).isSome
  | .startedXmpp, some e =>
    let tls_present := (e.firstNamed QN_TLS_STARTTLS).isSome
    e.name = QN_STREAM_FEATURES && !(w.eng.tls_option = .required && !tls_present)
      && !((w.eng.tls_option = .required || w.eng.tls_option = .enabled) && tls_present)
      && lt.authNeeded && (e.firstNamed QN_SASL_MECHANISMS).isSome
  | _, _ => false

/-- One round of the loop. It is left with what is to be done after it, or with a null pointer. -/
def advanceRound : Walking.Round World (Option (World × List Stmt)) := fun w =>
  match w.exec .advance with
  | some (w', [.advance]) => .inl w'
  | r => .inr r

/-- The loop is left with a call of `StartTls`. -/
def StartsTls (push : List Stmt) : Prop :=
  push = [.tlsStarted] ∨ ∃ domain, push = [.callback (.startTls domain), .startedTls, .tlsStarted]

/-- The loop from `w` comes to its end, with one stanza taken at most. It has called `StartTls`,
after which it goes on, or has returned, and the task waits for a stanza or is done. -/
def Advances (w : World) : Prop :=
  ∃ w' push lt', rounds advanceRound 4 w = some (some (w', push)) ∧
    w'.eng.login_task = some lt' ∧ w'.taken ≤ w.taken + 1 ∧
    (push = [] ∧ lt'.state.goesOn = false ∨ StartsTls push)

/-- No round of the loop from `w` uses features or a mechanism that are not there. -/
def NeverLacks (w : World) : Prop :=
  ∀ v, Relation.ReflTransGen (fun a b => advanceRound a = .inl b) w v →
    ∃ lt, v.eng.login_task = some lt ∧ lt.held = true

/-! ## 1. A round -/

variable {w v : World} {lt lt' : XmppLoginTask} {c : Conf} {push : List Stmt} {e : XmlElement}

/-- What a round does: it goes on with less to do, or leaves the loop. Where there is no SASL
handler, it does not come nearer to the end of a loop that asks it. -/
inductive Turn (w : World) (lt : XmppLoginTask) : World × List Stmt → Prop where
  | again (v : World) (lt' : XmppLoginTask) (hl : v.eng.login_task = some lt')
      (hh : lt'.held = true) (ht : v.taken + lt'.hand ≤ w.taken + lt.hand) (hw : lt'.work < lt.work)
      (ha : w.eng.sasl_handler = none → asksSasl v lt' = asksSasl w lt) :
      Turn w lt (v, [.advance])
  | left (v : World) (push : List Stmt) (lt' : XmppLoginTask) (hl : v.eng.login_task = some lt')
      (hh : lt'.held = true) (ht : v.taken ≤ w.taken + lt.hand)
      (ha : w.eng.sasl_handler = none → asksSasl w lt = false)
      (hp : push = [] ∧ lt'.state.goesOn = false ∨ StartsTls push) : Turn w lt (v, push)

theorem taken_grows (h : Grows (fun ev => ev.isTook = false) w v) : v.taken = w.taken := by
  obtain ⟨evs, hl, hp⟩ := h
  have hnone : evs.countP Event.isTook = 0 :=
    List.countP_eq_zero.2 fun ev hev => by rw [hp ev hev]; exact Bool.false_ne_true
  rw [World.taken, hl, List.countP_append, hnone]
  rfl

theorem taken_send (w : World) (lt : XmppLoginTask) (e : XmlElement) :
    (send w lt e).taken = w.taken :=
  taken_grows (grows_send rfl fun _ _ => rfl)

theorem taken_next (w : World) (lt : XmppLoginTask) (e : XmlElement) :
    (nextStanza w lt e).1.taken = w.taken + 1 :=
  List.countP_append

/-- A failure ends the loop, and the task. -/
theorem Turn.failed (ht : v.taken ≤ w.taken + lt.hand)
    (ha : w.eng.sasl_handler = none → asksSasl w lt = false) (reason : EngineError) :
    Turn w lt (failure v lt' reason) := by
  refine .left _ _ _ (signalError_login _ _ _) rfl ?_ ha (.inl ⟨rfl, rfl⟩)
  exact Nat.le_trans (Nat.le_of_eq (taken_grows (grows_failure v lt' reason))) ht

/-- The states that go on by themselves: a SASL handler that is not there is asked, or the round
is done. -/
theorem advance_onward (hh : lt.held = true) (hs : lt.state.goesOn = true) :
    (advance w lt = none ∧ w.eng.sasl_handler = none ∧ asksSasl w lt = true) ∨
    ∃ r, advance w lt = some r ∧ Turn w lt r := by
  have hfail : ∀ {v : World} {lt' : XmppLoginTask} {reason : EngineError}, v.taken = w.taken →
      (w.eng.sasl_handler = none → asksSasl w lt = false) → Turn w lt (failure v lt' reason) :=
    fun hv ha => .failed (Nat.le_add_right_of_le (Nat.le_of_eq hv)) ha _
  -- what is in hand stays there, for a state that waits
  have hagain : ∀ {v : World} {lt' : XmppLoginTask} {s : LoginTaskState}, v.taken = w.taken →
      lt'.hand = lt.hand → s.goesOn = false → XmppLoginTask.held { lt' with state := s } = true →
      (w.eng.sasl_handler = none → asksSasl v { lt' with state := s } = asksSasl w lt) →
      Turn w lt (goto v lt' s) := by
    intro v lt' s hv hhand hwaits hh' ha
    refine .again _ _ rfl hh' (Nat.le_of_eq (congr (congrArg _ hv) hhand)) ?_ ha
    show 2 * lt'.hand + s.goesOn.toNat < 2 * lt.hand + lt.state.goesOn.toNat
    rw [hhand, hwaits, hs]
    exact Nat.lt_succ_self _
  have hasks : lt.state ≠ .authInit → asksSasl w lt = false := by
    intro hne
    cases hstate : lt.state <;> simp_all [asksSasl, LoginTaskState.goesOn]
  have hfeatures : lt.state ≠ .init → ∃ f, lt.pelFeatures = some f := by
    intro hne
    cases hstate : lt.state <;>
      simp_all [XmppLoginTask.held, LoginTaskState.goesOn, Option.isSome_iff_exists]
  cases hstate : lt.state with
  | init =>
    have hno := hasks (by rw [hstate]; decide)
    exact .inr ⟨advanceInit w lt, by simp [advance, hstate],
      hagain (taken_grows (.write _ _ rfl)) rfl rfl rfl fun _ => hno.symm⟩
  | tlsInit =>
    have hno := hasks (by rw [hstate]; decide)
    obtain ⟨f, hf⟩ := hfeatures (by rw [hstate]; decide)
    refine .inr ⟨advanceTlsInit w lt f, by simp [advance, hstate, hf], ?_⟩
    rw [advanceTlsInit]
    split
    · exact hfail rfl fun _ => hno
    · exact hagain (taken_send w lt _) rfl rfl rfl fun _ => hno.symm
  | bindInit =>
    have hno := hasks (by rw [hstate]; decide)
    obtain ⟨f, hf⟩ := hfeatures (by rw [hstate]; decide)
    refine .inr ⟨advanceBindInit w lt f, by simp [advance, hstate, hf], ?_⟩
    rw [advanceBindInit]
    split
    · exact hfail rfl fun _ => hno
    · exact hagain (taken_send w.nextId.1 _ _) rfl rfl rfl fun _ => hno.symm
  | authInit =>
    obtain ⟨f, hf⟩ := hfeatures (by rw [hstate]; decide)
    rw [show advance w lt = advanceAuthInit w lt f by simp [advance, hstate, hf], advanceAuthInit]
    cases hm : f.firstNamed QN_SASL_MECHANISMS with
    | none => exact .inr ⟨_, rfl, hfail rfl fun _ => by simp [asksSasl, hstate, hf, hm]⟩
    | some mechanisms =>
      cases hsasl : w.eng.sasl_handler with
      | none => exact .inl ⟨rfl, rfl, by simp [asksSasl, hstate, hf, hm]⟩
      | some sh =>
        have hno {p : Prop} (h : w.eng.sasl_handler = none) : p := by
          rw [hsasl] at h
          cases h
        have hchosen : ∀ mechanisms encrypted choice,
            ((w.emit (.chose mechanisms encrypted choice)).emit (.gotMechanism choice)).taken
              = w.taken :=
          fun _ _ _ => (taken_grows (.emit _ rfl)).trans (taken_grows (.emit w rfl))
        simp only [Option.bind_eq_bind, Option.bind_some]
        split
        · exact .inr ⟨_, rfl, hfail (taken_grows (.emit w rfl)) hno⟩
        · split
          · exact .inr ⟨_, rfl, hfail (hchosen ..) hno⟩
          · rename_i mech hmech
            split
            · exact .inr ⟨_, rfl, hfail (hchosen ..) hno⟩
            · exact .inr ⟨_, rfl, hagain ((taken_send _ _ _).trans (hchosen ..)) rfl rfl
                (Option.isSome_iff_exists.2 ⟨mech, hmech⟩) hno⟩
  | _ => rw [hstate] at hs; cases hs

/-- A challenge is answered by the mechanism. -/
theorem advanceSaslRunning_isSome (h : lt.sasl_mech.isSome = true) :
    (advanceSaslRunning w lt e).isSome = true := by
  obtain ⟨mech, hmech⟩ := Option.isSome_iff_exists.1 h
  rw [advanceSaslRunning]
  simp only [nextStanza, hmech, Option.bind_eq_bind, Option.bind_some]
  split_ifs
  · rfl
  · split <;> rfl
  · rfl
  · rfl

section Taken

variable (he : lt.pelStanza = some e) (hv : v.taken = (nextStanza w lt e).1.taken)
include he hv

theorem taken_hand : v.taken = w.taken + lt.hand := by
  rw [hv, taken_next, XmppLoginTask.hand, he]
  rfl

/-- A stanza is taken, and nothing is in hand. -/
theorem Turn.passed {s : LoginTaskState} (hnone : lt'.pelStanza = none)
    (hh : XmppLoginTask.held { lt' with state := s } = true)
    (ha : asksSasl v { lt' with state := s } = asksSasl w lt) : Turn w lt (goto v lt' s) := by
  have hhand : lt'.hand = 0 := by
    rw [XmppLoginTask.hand, hnone]
    rfl
  refine .again _ _ rfl hh ?_ ?_ fun _ => ha
  · show v.taken + lt'.hand ≤ w.taken + lt.hand
    rw [hhand, taken_hand he hv]
    exact Nat.le_refl _
  · show 2 * lt'.hand + s.goesOn.toNat < 2 * lt.hand + lt.state.goesOn.toNat
    have hle := Bool.toNat_le s.goesOn
    rw [hhand, XmppLoginTask.hand, he, Option.toList_some, List.length_singleton]
    omega

end Taken

theorem advanceStartedXmpp_turn (hs : lt.state = .startedXmpp) (he : lt.pelStanza = some e) :
    Turn w lt (advanceStartedXmpp w lt e) := by
  have hasks : ∀ {named missing secure needed : Bool},
      decide (e.name = QN_STREAM_FEATURES) = named →
      (decide (w.eng.tls_option = .required) && !(e.firstNamed QN_TLS_STARTTLS).isSome) = missing →
      ((decide (w.eng.tls_option = .required) || decide (w.eng.tls_option = .enabled))
        && (e.firstNamed QN_TLS_STARTTLS).isSome) = secure →
      lt.authNeeded = needed → asksSasl w lt =
        (named && !missing && !secure && needed && (e.firstNamed QN_SASL_MECHANISMS).isSome) := by
    rintro _ _ _ _ rfl rfl rfl rfl
    rw [asksSasl, hs, he]
  have hle := Nat.le_of_eq (taken_hand (w := w) he rfl)
  rw [advanceStartedXmpp]
  dsimp only
  split
  · rename_i hname
    exact .failed hle (fun _ => hasks (decide_eq_false hname) rfl rfl rfl) _
  · rename_i hname
    have hnamed := decide_eq_true (not_not.1 hname)
    split
    · rename_i hmissing
      exact .failed hle (fun _ => hasks hnamed hmissing rfl rfl) _
    · rename_i hmissing
      have hthere := Bool.eq_false_iff.2 hmissing
      split
      · rename_i hsecure
        exact .passed he rfl rfl rfl (hasks hnamed hthere hsecure rfl).symm
      · rename_i hsecure
        have hplain := Bool.eq_false_iff.2 hsecure
        split
        · rename_i hneeded
          exact .passed he rfl rfl rfl (hasks hnamed hthere hplain hneeded).symm
        · rename_i hneeded
          exact .passed he rfl rfl rfl
            (hasks hnamed hthere hplain (Bool.eq_false_iff.2 hneeded)).symm

/-- In the states that wait, a stanza is passed on or the loop is left. -/
theorem advance_waiting (hl : w.eng.login_task = some lt) (hh : lt.held = true)
    (hs : lt.state.goesOn = false) : ∃ r, advance w lt = some r ∧ Turn w lt r := by
  by_cases hstart : ∃ e, lt.state = .startedXmpp ∧ lt.pelStanza = some e
  · obtain ⟨e, hstart, he⟩ := hstart
    exact ⟨advanceStartedXmpp w lt e, by simp [advance, hstart, he],
      advanceStartedXmpp_turn hstart he⟩
  have hasks : asksSasl w lt = false := by
    cases hstate : lt.state <;> cases he : lt.pelStanza <;>
      simp_all [asksSasl, LoginTaskState.goesOn]
  have hsome : (advance w lt).isSome = true := by
    cases hstate : lt.state <;> cases he : lt.pelStanza <;>
      simp_all only [advance, Option.isSome_some, LoginTaskState.goesOn, Bool.true_eq_false]
    exact advanceSaslRunning_isSome (by simpa [XmppLoginTask.held, hstate] using hh)
  obtain ⟨r, hr⟩ := Option.isSome_iff_exists.1 hsome
  have hpending {p : Prop} {s : LoginTaskState} (h : lt.state = s) (hg : s.goesOn = true) : p := by
    rw [h, hg] at hs
    cases hs
  have hleft : ∀ {v : World} {lt' : XmppLoginTask} {e : XmlElement} {push : List Stmt},
      lt.pelStanza = some e → v.taken = (nextStanza w lt e).1.taken →
      v.eng.login_task = some lt' → lt'.held = true →
      (push = [] ∧ lt'.state.goesOn = false ∨ StartsTls push) → Turn w lt (v, push) :=
    fun he hv hl' hh' hp =>
      .left _ _ _ hl' hh' (Nat.le_of_eq (taken_hand he hv)) (fun _ => hasks) hp
  refine ⟨r, hr, ?_⟩
  cases advance_round hr with
  | idle => exact .left _ _ _ hl hh (Nat.le_add_right _ _) (fun _ => hasks) (.inl ⟨rfl, hs⟩)
  | restart hs' | tlsAsked hs' | unchosen sh mechanisms hs'
  | unstarted sh mechanisms choice mech hs' | authSent sh mechanisms choice mech auth hs'
  | bindAsked hs' => exact hpending hs' rfl
  | lacking reason hs' => rcases hs' with h | h | h <;> exact hpending h rfl
  | refused e lt' reason he =>
    exact .failed (Nat.le_of_eq (taken_hand he rfl)) (fun _ => hasks) reason
  | streamStarted e hs' he => exact hleft he rfl rfl rfl (.inl ⟨rfl, rfl⟩)
  | featuresTls e hs' he | featuresAuth e hs' ha ht he | featuresBind e hs' ha ht he =>
    exact absurd ⟨e, hs', he⟩ hstart
  | proceed e domain hs' hg ho he =>
    exact hleft he (taken_grows (.emit _ rfl)) rfl hh (.inr (.inr ⟨domain, rfl⟩))
  | proceedUnhandled e hs' hg ho he => exact hleft he rfl rfl hh (.inr (.inl rfl))
  | challenged e response hs' hg he =>
    refine .passed he (taken_send _ _ _) rfl ?_ hasks.symm
    exact (by simpa [XmppLoginTask.held, hs'] using hh : lt.sasl_mech.isSome = true)
  | authenticated e hs' hg he => exact .passed he rfl rfl rfl hasks.symm
  | ignored e hs' ha he => exact hleft he rfl rfl hh (.inl ⟨rfl, hs⟩)
  | bound e bind hs' hg hb ha he =>
    refine .passed he ?_ rfl rfl hasks.symm
    exact taken_send (nextStanza w lt e).1.nextId.1 _ _
  | sessionStarted e hs' hg ha he =>
    refine hleft he ?_ rfl rfl (.inl ⟨rfl, rfl⟩)
    exact (taken_grows (grows_flush (fun _ => rfl) fun _ _ => rfl)).trans
      (taken_grows (grows_signalBound rfl))

theorem advance_turn (hl : w.eng.login_task = some lt) (hh : lt.held = true) :
    (advance w lt = none ∧ w.eng.sasl_handler = none ∧ asksSasl w lt = true) ∨
    ∃ r, advance w lt = some r ∧ Turn w lt r := by
  cases hs : lt.state.goesOn with
  | true => exact advance_onward hh hs
  | false => exact .inr (advance_waiting hl hh hs)

/-! ## 2. The runs -/

/-- In every run, what the state of the login task uses is there. -/
theorem held_reachable (h : Reachable c) :
    ∀ lt, c.state.eng.login_task = some lt → lt.held = true := by
  refine Reaches.invariant (I := fun c => ∀ lt, c.state.eng.login_task = some lt → lt.held = true)
    h ?_ ?_
  · rintro lt ⟨⟩
    rfl
  intro c a c' _ hc _ hs lt' hl'
  have hstep : TaskStep c.state c'.state → lt'.held = true := by
    intro h
    cases h with
    | change hchange =>
      cases hchange with
      | kept h => exact hc lt' (h ▸ hl')
      | given lt element isStart hl h =>
        obtain rfl := Option.some.inj (h.symm.trans hl')
        exact hc lt hl
      | restarted lt hl h =>
        obtain rfl := Option.some.inj (h.symm.trans hl')
        rfl
      | dropped lt hl hd h =>
        rw [h] at hl'
        cases hl'
    | sent v e hl _ _ hv =>
      generalize c'.state = w' at hv hl'
      cases hv with
      | queued lt hlt =>
        obtain rfl := Option.some.inj hl'
        exact hc lt (hl ▸ hlt)
      | through hn => exact hc lt' (hl ▸ hl')
  rcases step_cases hs with ⟨s, rest, r, -, -, -, hr, rfl⟩ | ⟨m, -, -, rfl⟩ |
    ⟨x, s, rest, -, -, -, rfl⟩
  · by_cases hadvance : s = .advance
    · subst hadvance
      obtain ⟨lt, hl, ha⟩ := Option.bind_eq_some_iff.1 hr
      rcases advance_turn hl (hc lt hl) with ⟨hn, -⟩ | ⟨r', hr', hturn⟩
      · rw [hn] at ha
        cases ha
      · obtain rfl := Option.some.inj (hr'.symm.trans ha)
        cases hturn with
        | again v lt hl hh | left v push lt hl hh => exact Option.some.inj (hl.symm.trans hl') ▸ hh
    · exact hstep (exec_task hadvance hr)
  · exact hstep ((entry_task (enter_entry c.state m)).after rfl rfl (.emit c.state rfl))
  · exact hc lt' hl'

/-! ## 3. The loop -/

/-- Looping the rounds of the loop from `w`, where the task was `lt`. -/
def Looping (w : World) (lt : XmppLoginTask) (v : World) : Prop :=
  ∃ lt', v.eng.login_task = some lt' ∧ lt'.held = true ∧ v.taken + lt'.hand ≤ w.taken + lt.hand ∧
    v.eng.sasl_handler = w.eng.sasl_handler ∧
    (w.eng.sasl_handler = none → asksSasl v lt' = asksSasl w lt)

/-- After the loop. -/
def Looped (w : World) (lt : XmppLoginTask) : Option (World × List Stmt) → Prop
  | none => w.eng.sasl_handler = none ∧ asksSasl w lt = true
  | some (v, push) => (w.eng.sasl_handler = none → asksSasl w lt = false) ∧
    ∃ lt', v.eng.login_task = some lt' ∧ v.taken ≤ w.taken + lt.hand ∧
      (push = [] ∧ lt'.state.goesOn = false ∨ StartsTls push)

/-- The rounds that are left. -/
def World.work (w : World) : ℕ := w.eng.login_task.elim 0 XmppLoginTask.work

theorem advanceRound_spec (h : Looping w lt v) :
    (∃ v', advanceRound v = .inl v' ∧ Looping w lt v' ∧ v'.work < v.work) ∨
    ∃ o, advanceRound v = .inr o ∧ Looped w lt o := by
  obtain ⟨lt₁, hl, hh, htaken, hsasl, hasks⟩ := h
  have hexec : v.exec .advance = advance v lt₁ := by
    show v.eng.login_task.bind _ = _
    rw [hl, Option.bind_some]
  rcases advance_turn hl hh with ⟨hn, hnone, hask⟩ | ⟨r, hr, hturn⟩
  · refine .inr ⟨none, by rw [advanceRound, hexec, hn], hsasl ▸ hnone, ?_⟩
    rw [← hasks (hsasl ▸ hnone), hask]
  · have hframe := (round_frame (advance_round hr)).1
    cases hturn with
    | again v' lt' hl' hh' ht' hw' ha' =>
      refine .inl ⟨v', by rw [advanceRound, hexec, hr], ?_, ?_⟩
      · exact ⟨lt', hl', hh', Nat.le_trans ht' htaken, hframe.sasl_handler.trans hsasl,
          fun h => (ha' (hsasl ▸ h)).trans (hasks h)⟩
      · rw [World.work, World.work, hl, hl']
        exact hw'
    | left v' push lt' hl' hh' ht' ha' hp' =>
      refine .inr ⟨some (v', push), ?_, fun h => (hasks h).symm.trans (ha' (hsasl ▸ h)), lt', hl',
        Nat.le_trans ht' htaken, hp'⟩
      rw [advanceRound, hexec, hr]
      rcases hp' with ⟨rfl, -⟩ | rfl | ⟨domain, rfl⟩ <;> rfl

/-- The loop never lacks anything but the SASL handler, and comes to its end where it need not ask
for one, or has one to ask. -/
theorem advance_loop (hl : w.eng.login_task = some lt) (hh : lt.held = true) :
    NeverLacks w ∧
    (Advances w ↔ (asksSasl w lt = true → w.eng.sasl_handler.isSome = true)) := by
  have hstart : Looping w lt w := ⟨lt, hl, hh, Nat.le_refl _, rfl, fun _ => rfl⟩
  have hnext : ∀ v v', Looping w lt v → advanceRound v = .inl v' →
      Looping w lt v' ∧ v'.work < v.work := by
    intro v v' hv hround
    rcases advanceRound_spec hv with ⟨v₁, h₁, hspec⟩ | ⟨o, h₁, -⟩ <;> rw [h₁] at hround
    · exact Sum.inl.inj hround ▸ hspec
    · cases hround
  constructor
  · intro v hv
    have hlooping : Looping w lt v := by
      induction hv with
      | refl => exact hstart
      | tail _ hround ih => exact (hnext _ _ ih hround).1
    obtain ⟨lt', hl', hh', -⟩ := hlooping
    exact ⟨lt', hl', hh'⟩
  have hhand : lt.hand ≤ 1 := by
    rw [XmppLoginTask.hand]
    cases lt.pelStanza <;> simp
  have hwork : w.work < 4 := by
    have := Bool.toNat_le lt.state.goesOn
    rw [World.work, hl]
    show 2 * lt.hand + lt.state.goesOn.toNat < 4
    omega
  obtain ⟨o, ho⟩ := rounds_of_measure World.work hnext hstart hwork
  have hafter : Looped w lt o := by
    refine Keeps.rounds (I := Looping w lt) (fun v hv => ?_) hstart ho
    exact (advanceRound_spec hv).imp_left fun ⟨v', h, hv', _⟩ => ⟨v', h, hv'⟩
  constructor
  · rintro ⟨v, push, lt', hr, -⟩ hask
    obtain rfl := Option.some.inj (ho.symm.trans hr)
    by_contra hnone
    exact absurd (hask.symm.trans (hafter.1 (Option.not_isSome_iff_eq_none.1 hnone))) (by decide)
  · intro hserved
    cases o with
    | none => exact absurd (hserved hafter.2) (by rw [hafter.1]; decide)
    | some r =>
      obtain ⟨-, lt', hl', ht', hp⟩ := hafter
      exact ⟨r.1, r.2, lt', ho, hl', Nat.le_trans ht' (Nat.add_le_add_left hhand _), hp⟩

/-- `IncomingStanza`, of any stanza or of none in any run, never lacks the features or a mechanism,
and comes to its end if and only if a SASL handler is set where one is asked. Where it has called
`StartTls`, it goes on, and comes to its end, if and only if the handler of `StartTls` has not had
the login task deleted. -/
theorem incomingStanza_advances_iff (h : Reachable c) :
    (∀ lt element isStart, c.state.eng.login_task = some lt →
      NeverLacks (incomingStanza c.state lt element isStart).1 ∧
      (Advances (incomingStanza c.state lt element isStart).1 ↔
        (asksSasl c.state { lt with pelStanza := element, isStart := isStart } = true →
          c.state.eng.sasl_handler.isSome = true))) ∧
    ((∃ w, c.state.exec .tlsStarted = some (w, [.advance]) ∧ NeverLacks w ∧ Advances w) ↔
      c.state.eng.login_task.isSome = true) := by
  constructor
  · intro lt element isStart hl
    exact @advance_loop _ { lt with pelStanza := element, isStart := isStart } rfl
      (held_reachable h lt hl)
  constructor
  · rintro ⟨w, hw, -⟩
    obtain ⟨lt, hl, -⟩ := Option.map_eq_some_iff.1 hw
    exact Option.isSome_iff_exists.2 ⟨lt, hl⟩
  · intro hsome
    obtain ⟨lt, hl⟩ := Option.isSome_iff_exists.1 hsome
    -- a stream that starts asks for no mechanism
    obtain ⟨hlacks, hiff⟩ :=
      @advance_loop (afterStartTls c.state lt).1 { lt with state := .init } rfl rfl
    exact ⟨_, Option.map_eq_some_iff.2 ⟨lt, hl, rfl⟩, hlacks, hiff.2 fun hask => (nomatch hask)⟩

/-- `Connect`, on a new engine. -/
theorem incomingStanza_advances_connect :
    Advances (incomingStanza World.init .init none false).1 :=
  ((incomingStanza_advances_iff Relation.ReflTransGen.refl).1 .init none false rfl).2.2
    fun hask => (nomatch hask)

/-- Without a SASL handler, the features of a server that offers PLAIN. -/
theorem incomingStanza_stops : ∃ c lt element, Reachable c ∧ c.state.eng.login_task = some lt ∧
    ¬Advances (incomingStanza c.state lt (some element) false).1 := by
  let features := (XmlElement.new QN_STREAM_FEATURES false).addElement
    (XmlElement.new QN_SASL_MECHANISMS true)
  obtain ⟨c, hc, hp⟩ := exists_of_drive (G := anyCall) (P := engine) (n := 40) (c := Conf.init)
    (l := [.call (.setTls .disabled), .call .connect, received serverStream])
    (p := fun c => c.state.eng.login_task.any fun lt =>
      (rounds advanceRound 4 (incomingStanza c.state lt (some features) false).1).any
        Option.isNone)
    (by decide +kernel)
  obtain ⟨lt, hl, hp⟩ := (Option.any_eq_true _ _).1 hp
  refine ⟨c, lt, features, hc, hl, ?_⟩
  rintro ⟨w, push, lt', hr, -⟩
  rw [hr] at hp
  cases hp

end Gxmpp
