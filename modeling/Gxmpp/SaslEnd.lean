/-
The end of the authentication.

`<success/>` takes `authNeeded_` down, and nothing puts it up again. Without it the login task goes
from the features to the binding of a resource. So nothing of SASL happens any more, however often
the server starts the stream again, and whatever the application does from its handlers.
-/
import Gxmpp.LoginSafety

set_option autoImplicit false

namespace Gxmpp

open World Reentrant XmppLoginTask

/-- A step of SASL. -/
def Event.isSaslStep : Event → Bool
  | .chose .. | .gotMechanism _ | .sentByLogin .authInit _ | .sentByLogin .saslRunning _ => true
  | _ => false

/-- The login task is at SASL. -/
def LoginTaskState.isSasl : LoginTaskState → Bool
  | .authInit | .saslRunning => true
  | _ => false

/-- The login task needs no authentication, and is not in the middle of one. -/
def XmppLoginTask.PastSasl (lt : XmppLoginTask) : Prop :=
  lt.authNeeded = false ∧ lt.state.isSasl = false

/-- There is no login task that is not past SASL. -/
def SaslOver (w : World) : Prop := ∀ lt, w.eng.login_task = some lt → lt.PastSasl

/-- What happens between two worlds is no step of SASL. -/
abbrev NoSasl (w w' : World) : Prop := Grows (fun ev => ev.isSaslStep = false) w w'

variable {w w' : World} {r : World × List Stmt} {lt : XmppLoginTask}

theorem TaskStep.past_sasl (h : SaslOver w) (hstep : TaskStep w w') :
    SaslOver w' ∧ NoSasl w w' := by
  have htask : ∀ ev : Event, ev.isTask = false → ev.isSaslStep = false := by
    intro ev hev
    cases ev <;> first | rfl | cases hev
  cases hstep with
  | change hc hs hg =>
    refine ⟨fun lt' hl' => ?_, hg.mono htask⟩
    cases hc with
    | kept hk => exact h lt' (hk ▸ hl')
    | given lt element isStart hl hk =>
      obtain rfl := Option.some.inj (hk.symm.trans hl')
      exact h lt hl
    | restarted lt hl hk =>
      obtain rfl := Option.some.inj (hk.symm.trans hl')
      exact ⟨(h lt hl).1, rfl⟩
    | dropped lt hl hd hk =>
      rw [hk] at hl'
      cases hl'
  | sent v e hl hsv hg hv =>
    refine ⟨fun lt' hl' => ?_, (hg.mono htask).trans (hv.frame.1.grows.mono fun ev hev => ?_)⟩
    · cases hv with
      | queued lt hlt =>
        obtain rfl := Option.some.inj hl'
        exact h lt (hl ▸ hlt)
      | through => exact h lt' (hl ▸ hl')
    · cases ev <;> first | rfl | cases hev

/-- A round of the login task. -/
theorem round_past_sasl (h : Round w lt r) (hl : w.eng.login_task = some lt)
    (hpast : lt.PastSasl) : SaslOver r.1 ∧ NoSasl w r.1 := by
  obtain ⟨hn, hstate⟩ := hpast
  -- the task that a round leaves
  have hleft : ∀ {v : World} {x : XmppLoginTask}, v.eng.login_task = some x →
      x.PastSasl → SaslOver v := fun hv hx lt' hl' =>
    Option.some.inj (hv.symm.trans hl') ▸ hx
  have hfail : ∀ {v : World} {x : XmppLoginTask} {reason : EngineError},
      x.authNeeded = lt.authNeeded → NoSasl w v →
      SaslOver (XmppLoginTask.failure v x reason).1
        ∧ NoSasl w (XmppLoginTask.failure v x reason).1 := by
    intro v x reason hx hv
    refine ⟨hleft (x := { x with state := .done }) ?_ ⟨hx.trans hn, rfl⟩,
      hv.trans (grows_failure _ _ _)⟩
    rw [XmppLoginTask.failure, signalError_login]
    rfl
  have htook : ∀ e, NoSasl w (nextStanza w lt e).1 := fun e => .emit w rfl
  have hsend : ∀ {v : World} {x : XmppLoginTask} {e : XmlElement}, x.state = lt.state →
      NoSasl v (send v x e) := by
    intro v x e hx
    refine grows_send ?_ fun _ _ => rfl
    rw [hx]
    cases hst : lt.state <;> first | rfl | (rw [hst] at hstate; cases hstate)
  cases h with
  | idle => exact ⟨hleft hl ⟨hn, hstate⟩, .refl w⟩
  | restart hs => exact ⟨hleft rfl ⟨hn, rfl⟩, .write w.raiseReset _ rfl⟩
  | lacking => exact hfail rfl (.refl w)
  | refused e lt' reason he hs hr hg hq ha => exact hfail ha (htook e)
  | featuresAuth e hs ha => exact absurd (ha.symm.trans hn) (by decide)
  | proceedUnhandled e | ignored e => exact ⟨hleft rfl ⟨hn, hstate⟩, htook e⟩
  | streamStarted e | featuresTls e | featuresBind e =>
    exact ⟨hleft rfl ⟨hn, rfl⟩, htook e⟩
  | tlsAsked => exact ⟨hleft rfl ⟨hn, rfl⟩, hsend rfl⟩
  | proceed e domain =>
    exact ⟨hleft rfl ⟨hn, hstate⟩, (htook e).trans ((Grows.of_eq rfl).trans (.emit _ rfl))⟩
  | unchosen _ _ hs | unstarted _ _ _ _ hs | authSent _ _ _ _ _ hs | challenged _ _ hs
  | authenticated _ hs =>
    rw [hs] at hstate
    cases hstate
  | bindAsked =>
    exact ⟨hleft rfl ⟨hn, rfl⟩, (Grows.of_eq rfl).trans (hsend (v := w.nextId.1) rfl)⟩
  | bound e =>
    exact ⟨hleft rfl ⟨hn, rfl⟩, (htook e).trans ((Grows.of_eq rfl).trans (hsend rfl))⟩
  | sessionStarted e =>
    exact ⟨hleft rfl ⟨hn, rfl⟩, ((htook e).trans (grows_signalBound rfl)).trans
      (grows_flush (fun _ => rfl) fun _ _ => rfl)⟩

/-- Once the login task is past SASL, or gone, nothing of SASL happens any more. -/
theorem sasl_over {c c' : Conf} (hover : SaslOver c.state) (h : engine.Reaches anyCall c c') :
    SaslOver c'.state ∧ NoSasl c.state c'.state := by
  refine Reaches.invariant (I := fun d : Conf => SaslOver d.state ∧ NoSasl c.state d.state) h
    ⟨hover, .refl _⟩ ?_
  intro d a d' _ ⟨hd, hg⟩ _ hs
  obtain ⟨hd', hg'⟩ : SaslOver d'.state ∧ NoSasl d.state d'.state := by
    rcases step_task hs with htask | ⟨lt, rest, r, -, hl, hround, rfl⟩
    · exact htask.past_sasl hd
    · exact round_past_sasl hround hl (hd lt hl)
  exact ⟨hd', hg.trans hg'⟩

/-- After the `<success/>` of a login with PLAIN. -/
theorem sasl_over_plain : ∃ c c' : Conf, SaslOver c.state ∧ c'.state.eng.state = .open ∧
    NoSasl c.state c'.state := by
  obtain ⟨c, -, hp⟩ := exists_of_drive (G := anyCall) (P := engine) (n := 40) (c := Conf.init)
    (l := [.call (.setOutputHandler true), plainUser false, .call .connect] ++ tlsLogin.tail.take 9)
    (p := fun c => (c.state.eng.login_task.any fun lt => !lt.authNeeded && !lt.state.isSasl)
      && (engine.drive anyCall 40 c (tlsLogin.drop 10)).any fun c' => c'.state.eng.state = .open)
    (by decide +kernel)
  simp only [Bool.and_eq_true, decide_eq_true_eq, Option.any_eq_true, Bool.not_eq_true'] at hp
  obtain ⟨⟨lt, hl, hpast⟩, c', hdrive, hopen⟩ := hp
  have hover : SaslOver c.state := fun lt' hl' => Option.some.inj (hl.symm.trans hl') ▸ hpast
  exact ⟨c, c', hover, hopen, (sasl_over hover (reaches_drive hdrive)).2⟩

end Gxmpp
