/-
A closed engine does not log in.

An error closes the engine and holds the input back. `Disconnect` closes it without an
error, and the login task is still there: what matters then is that no input is left to
treat. The application calls `Disconnect` from a handler, and while the login lasts a
handler is called between two inputs, or it is `StartTls`, after which the stream starts
again and the raised reset drops the rest of the input. `Restarting` says so of the
control stack, and `stopped_reachable` is the conclusion: the login task of a closed
engine gets no stanza any more.
-/
import Gxmpp.OpenState

set_option autoImplicit false

namespace Gxmpp

open World Reentrant

/-! ## 1. Rounds that do not finish -/

/-- What a round does that leaves the login task unfinished. -/
structure Unfinished (w : World) (lt : XmppLoginTask) (w' : World) (lt' : XmppLoginTask) :
    Prop where
  undone : lt'.state ≠ .done
  state : w'.eng.state = w.eng.state
  raised : w'.eng.raised_reset = w.eng.raised_reset ∨ w'.eng.raised_reset = true
  started : lt.state = .init → w'.eng.raised_reset = true
  empty : lt.pelStanza = none → lt'.pelStanza = none

variable {lt' : XmppLoginTask} {r : World × List Stmt} {w : World} {c : Conf} {rest : List Stmt}
  {s : Stmt}

/-- A round leaves the login task unfinished, or it is done and the loop ends. -/
theorem round_unfinished {lt : XmppLoginTask} (h : Round w lt r) (hl : w.eng.login_task = some lt)
    (hl' : r.1.eng.login_task = some lt') :
    (lt'.state = .done ∧ r.2 = []) ∨ Unfinished w lt r.1 lt' := by
  have hfail : ∀ {v : World} {l : XmppLoginTask} {reason : EngineError},
      r = XmppLoginTask.failure v l reason → lt'.state = .done ∧ r.2 = [] := by
    rintro v l reason rfl
    have heq : (XmppLoginTask.failure v l reason).1.eng.login_task
        = some { l with state := .done } := signalError_login _ _ _
    rw [heq] at hl'
    obtain rfl := Option.some.inj hl'
    exact ⟨rfl, rfl⟩
  -- a round in any state but the first, which leaves the engine alone
  have hrun : ∀ {l : XmppLoginTask}, r.1.eng.login_task = some l → l.state ≠ .done →
      (lt.pelStanza = none → l.pelStanza = none) → lt.state ≠ .init →
      r.1.eng.state = w.eng.state → r.1.eng.raised_reset = w.eng.raised_reset →
      (lt'.state = .done ∧ r.2 = []) ∨ Unfinished w lt r.1 lt' := by
    intro l hll hd hp hi hs hr
    rw [hll] at hl'
    obtain rfl := Option.some.inj hl'
    exact .inr ⟨hd, hs, .inl hr, fun hn => absurd hn hi, hp⟩
  have hne : ∀ {s t : LoginTaskState}, lt.state = s → s ≠ t → lt.state ≠ t :=
    fun hs hn => hs ▸ hn
  cases h with
  | idle hs =>
    by_cases hd : lt.state = .done
    · rw [hl] at hl'
      obtain rfl := Option.some.inj hl'
      exact .inl ⟨hd, rfl⟩
    · exact hrun hl hd id hs rfl rfl
  | restart hs =>
    obtain rfl := Option.some.inj hl'
    exact .inr ⟨(nomatch ·), rfl, .inr rfl, fun _ => rfl, id⟩
  | lacking | refused | unchosen | unstarted => exact .inl (hfail rfl)
  | streamStarted e hs | featuresTls e hs | featuresAuth e hs | featuresBind e hs
  | authenticated e hs => exact hrun rfl (nomatch ·) (fun _ => rfl) (hne hs (by decide)) rfl rfl
  | tlsAsked hs | authSent sh mechanisms choice mech auth hs | bindAsked hs =>
    exact hrun (XmppLoginTask.goto_login ..) (nomatch ·) id (hne hs (by decide))
      (XmppLoginTask.goto_send_state ..) (XmppLoginTask.goto_send_raised ..)
  | proceed e domain hs | proceedUnhandled e hs =>
    exact hrun rfl (hne hs (by decide)) (fun _ => rfl) (hne hs (by decide)) rfl rfl
  | challenged e response hs | bound e bind hs =>
    exact hrun (XmppLoginTask.goto_login ..) (nomatch ·) (fun _ => rfl) (hne hs (by decide))
      (XmppLoginTask.goto_send_state ..) (XmppLoginTask.goto_send_raised ..)
  | ignored e hs =>
    rcases hs with hs | hs <;>
      exact hrun rfl (hne hs (by decide)) (fun _ => rfl) (hne hs (by decide)) rfl rfl
  | sessionStarted e hs =>
    obtain rfl := Option.some.inj hl'
    exact .inl ⟨rfl, rfl⟩

/-! ## 2. The login task is deleted as soon as it is done -/

/-- What finds the login task done. -/
def AboutToReset (control : List Stmt) : Prop :=
  ∃ below, control = .advanced :: .resetLogin :: below ∨ control = .resetLogin :: below

/-- A step that is no round does not finish the login task. -/
theorem TaskStep.done {w' : World} (h : TaskStep w w') (hl' : w'.eng.login_task = some lt')
    (hd : lt'.state = .done) : ∃ lt, w.eng.login_task = some lt ∧ lt.state = .done := by
  cases h with
  | change hc hs hg =>
    cases hc with
    | kept hk => exact ⟨lt', hk ▸ hl', hd⟩
    | given lt element isStart hl hk =>
      rw [hk] at hl'
      obtain rfl := Option.some.inj hl'
      exact ⟨lt, hl, hd⟩
    | restarted lt hl hk =>
      rw [hk] at hl'
      obtain rfl := Option.some.inj hl'
      cases hd
    | dropped lt hl hs hk =>
      rw [hk] at hl'
      cases hl'
  | sent v e hl hs hg hv =>
    cases hv with
    | queued lt hlt =>
      obtain rfl := Option.some.inj hl'
      exact ⟨lt, hl ▸ hlt, hd⟩
    | through hlt =>
      have hn : v.eng.login_task = some lt' := hl'
      rw [hlt] at hn
      cases hn

/-- A login task that is done is about to be deleted. -/
theorem done_reachable (h : Reachable c) :
    ∀ lt, c.state.eng.login_task = some lt → lt.state = .done → AboutToReset c.control := by
  refine Reaches.invariant (I := fun c : Conf => ∀ lt, c.state.eng.login_task = some lt →
    lt.state = .done → AboutToReset c.control) h ?_ ?_
  · intro lt hl hd
    obtain rfl := Option.some.inj hl
    cases hd
  · intro c a c' hreach hc _ hs lt' hl' hd'
    have hchained := (settled_reachable hreach).1
    -- the application has no control where the task is done
    have hidle : c.waiting engine = true → ∀ lt, c.state.eng.login_task = some lt →
        lt.state ≠ .done := by
      intro hw lt hl hd
      have hhead := waiting_atWork hw
      obtain ⟨below, heq | heq⟩ := hc lt hl hd
      · exact absurd (hhead .advanced (by rw [heq]; rfl)) (by decide)
      · exact absurd (hhead .resetLogin (by rw [heq]; rfl)) (by decide)
    rcases step_cases hs with ⟨s, rest, r, -, hcontrol, -, hr, rfl⟩ | ⟨m, -, hw, rfl⟩ |
      ⟨v, s, rest, -, hcontrol, hf, rfl⟩
    · rw [hcontrol] at hchained hc
      by_cases hadv : s = .advance
      · subst hadv
        obtain ⟨lt, hl, hround⟩ := exec_advance hr
        obtain ⟨below, hrest⟩ := hchained.1 rfl
        rcases round_unfinished hround hl hl' with ⟨-, hnil⟩ | hun
        · exact ⟨below, .inl (by dsimp only; rw [hnil, hrest]; rfl)⟩
        · exact absurd hd' hun.undone
      · obtain ⟨lt, hl, hd⟩ := (exec_task hadv hr).done hl' hd'
        obtain ⟨below, heq | heq⟩ := hc lt hl hd
        · obtain ⟨rfl, rfl⟩ := List.cons.inj heq
          obtain ⟨lt, -, rfl⟩ := Option.map_eq_some_iff.1 hr
          exact ⟨below, .inr rfl⟩
        · obtain ⟨rfl, rfl⟩ := List.cons.inj heq
          obtain ⟨x, hx, rfl⟩ := Option.map_eq_some_iff.1 hr
          rw [hl] at hx
          obtain rfl := Option.some.inj hx
          dsimp only at hl'
          rw [if_pos hd] at hl'
          cases hl'
    · have htask : TaskStep c.state (c.state.enter m).1 :=
        (entry_task (enter_entry c.state m)).after rfl rfl (.emit c.state rfl)
      obtain ⟨lt, hl, hd⟩ := htask.done hl' hd'
      exact absurd hd (hidle hw lt hl)
    · have hw : c.waiting engine = true := by
        unfold Config.waiting
        rw [hcontrol]
        exact hf
      exact absurd hd' (hidle hw lt' hl')

/-! ## 3. What is left to treat -/

/-- The statements that bring the login task a stanza. -/
def Stmt.feeds : Stmt → Bool
  | .parse _ _ | .incoming _ | .advance => true
  | _ => false

/-- The stream starts again before anything is left to treat. -/
def Restarting : List Stmt → Prop
  | [] => True
  | s :: rest => s = .tlsStarted ∨ (s.feeds = false ∧ Restarting rest)

theorem Restarting.append {push : List Stmt} (h : Restarting rest)
    (hp : ∀ p ∈ push, p.feeds = false) : Restarting (push ++ rest) := by
  induction push with
  | nil => exact h
  | cons p push ih =>
    exact .inr ⟨hp p List.mem_cons_self, ih fun x hx => hp x (List.mem_cons_of_mem _ hx)⟩

/-- Under everything that is no input, the stream starts again before anything is left
to treat. -/
def Nested : List Stmt → Prop
  | [] => True
  | s :: rest => (s.isInput = false → Restarting rest) ∧ Nested rest

theorem Stmt.feeds_of_isInput (h : s.isInput = false) : s.feeds = false := by
  cases s <;> first | rfl | exact absurd h.symm Bool.false_ne_true

/-- Input over anything. -/
theorem Nested.input (h : Nested rest) (push : List Stmt) (hp : ∀ p ∈ push, p.isInput = true) :
    Nested (push ++ rest) := by
  induction push with
  | nil => exact h
  | cons p push ih =>
    refine ⟨fun hn => ?_, ih fun x hx => hp x (List.mem_cons_of_mem _ hx)⟩
    rw [hp p List.mem_cons_self] at hn
    cases hn

/-- Anything that brings no stanza over a stream that starts again. -/
theorem Nested.quiet (h : Nested rest) (hr : Restarting rest) (push : List Stmt)
    (hp : ∀ p ∈ push, p.feeds = false) : Nested (push ++ rest) := by
  induction push with
  | nil => exact h
  | cons p push ih =>
    have hq : ∀ x ∈ push, x.feeds = false := fun x hx => hp x (List.mem_cons_of_mem _ hx)
    exact ⟨fun _ => hr.append hq, ih hq⟩

/-- One statement, while the login lasts. The application is called by `StartTls`, or where
no input is being treated. -/
theorem exec_nested (h : Nested (s :: rest)) (hs : s.isDispatch = false)
    (hd : ∀ p ∈ r.2, p.isDispatch = false) (hr : w.exec s = some r) : Nested (r.2 ++ rest) := by
  by_cases hin : s.isInput = true
  · by_cases hadv : s = .advance
    · subst hadv
      obtain ⟨lt, -, hround⟩ := exec_advance hr
      have hinput : ∀ push : List Stmt, (∀ p ∈ push, p.isInput = true) → Nested (push ++ rest) :=
        fun push hp => h.2.input push hp
      rcases (round_frame hround).2 with hpush | hpush | hpush | ⟨d, hpush⟩
      · rw [hpush]
        exact h.2
      · rw [hpush]
        exact hinput [.advance] (by simp [Stmt.isInput])
      · rw [hpush]
        exact hinput [.tlsStarted] (by simp [Stmt.isInput])
      · rw [hpush]
        -- the application runs in `StartTls`, before the stream starts again
        exact ⟨fun _ => .inr ⟨rfl, .inl rfl⟩,
          hinput [.startedTls, .tlsStarted] (by simp [Stmt.isInput])⟩
    · refine h.2.input _ fun p hp => ?_
      have hpush := exec_mayPush hr p hp
      have hpd := hd p hp
      -- the other calls belong to the dispatch
      cases p with
      | callback cb =>
        cases s <;> cases cb <;>
          first
            | exact absurd hpush Bool.false_ne_true
            | exact absurd rfl hadv
            | exact absurd hpd.symm Bool.false_ne_true
            | exact absurd hin Bool.false_ne_true
      | _ => cases s <;>
          first
            | rfl
            | exact absurd hpush Bool.false_ne_true
            | exact absurd hin Bool.false_ne_true
            | exact absurd hs.symm Bool.false_ne_true
  · have hn : s.isInput = false := by simpa using hin
    refine h.2.quiet (h.1 hn) _ fun p hp => Stmt.feeds_of_isInput ?_
    by_contra hpi
    rw [(exec_push hr p hp).input (by simpa using hpi)] at hn
    cases hn

/-- The entry of a function, where the application has control. -/
theorem entry_nested {m : Call} {control : List Stmt} (h : Nested control)
    (hc : Restarting control) (he : Entry w m r) : Nested (r.2 ++ control) := by
  have hscope : ∀ saved status, Nested (.exitScope saved :: .returned m status :: control) :=
    fun saved status => h.quiet hc [.exitScope saved, .returned m status] (by simp [Stmt.feeds])
  cases he with
  | connect lt hs hl =>
    exact (hscope _ _).input [.advance, .advanced, .resetLogin] (by simp [Stmt.isInput])
  | handleInput events status hs =>
    exact (hscope _ _).input [.parse events status] (by simp [Stmt.isInput])
  | _ => exact h.quiet hc _ (by simp [Stmt.feeds])

/-- The application has control where nothing is left, or in a handler. -/
theorem waiting_restarting (h : Nested c.control) (hw : c.waiting engine = true) :
    Restarting c.control := by
  rcases waiting_cases hw with hnil | ⟨s, rest, hc, hf⟩
  · rw [hnil]
    trivial
  · rw [hc] at h ⊢
    have hn : s.isInput = false := by
      cases s <;> first | rfl | exact absurd hf Bool.false_ne_true
    exact .inr ⟨Stmt.feeds_of_isInput hn, h.1 hn⟩

/-- A login task that is there was there before the step. -/
theorem step_login {c' : Conf} {a : Step} (h : engine.step c a = some c')
    (hl' : c'.state.eng.login_task ≠ none) : c.state.eng.login_task ≠ none := by
  intro hn
  rcases step_task h with htask | ⟨lt, rest, r, -, hl, -⟩
  · exact hl' (htask.none hn)
  · rw [hn] at hl
    cases hl

/-- While the login lasts, the application has control between two inputs, or before
the stream starts again. -/
theorem nested_reachable (h : Reachable c) (hl : c.state.eng.login_task ≠ none) :
    Nested c.control := by
  refine Reaches.invariant (I := fun c : Conf => c.state.eng.login_task ≠ none →
    Nested c.control) h (fun _ => trivial) ?_ hl
  intro c a c' hreach hc ha hs hl'
  have hl := step_login hs hl'
  have hnested := hc hl
  have hreach' : Reachable c' := hreach.tail ⟨a, ha, hs⟩
  -- nothing on either stack is a dispatch
  have hno : ∀ s ∈ c.control, s.isDispatch = false := fun s hs =>
    eq_false_of_ne_true fun hd => hl (dispatch_reachable hreach s hs hd)
  have hno' : ∀ s ∈ c'.control, s.isDispatch = false := fun s hs =>
    eq_false_of_ne_true fun hd => hl' (dispatch_reachable hreach' s hs hd)
  rcases step_cases hs with ⟨s, rest, r, -, hcontrol, -, hr, rfl⟩ | ⟨m, -, hw, rfl⟩ |
    ⟨v, s, rest, -, hcontrol, hf, rfl⟩
  · rw [hcontrol] at hnested hno
    exact exec_nested hnested (hno s List.mem_cons_self)
      (fun p hp => hno' p (List.mem_append_left _ hp)) hr
  · exact entry_nested hnested (waiting_restarting hnested hw) (enter_entry c.state m)
  · rw [hcontrol] at hnested
    exact hnested.2.input _ fun p hp => resume_input hp

/-! ## 4. A closed engine -/

/-- No stanza will reach the login task: the guard holds the input back, or it will
before any input is left. -/
def Barred (w : World) (lt : XmppLoginTask) (control : List Stmt) : Prop :=
  w.blocked = true ∨ Restarting control ∨
    (lt.state = .init ∧ ∃ below, control = .advance :: below)

/-- The login task of a closed engine has no stanza, and will have none. -/
def Stopped (w : World) (control : List Stmt) : Prop :=
  w.eng.state = .closed → ∀ lt, w.eng.login_task = some lt → lt.state ≠ .done →
    lt.pelStanza = none ∧ Barred w lt control

theorem blocked_of_error (h : w.eng.error_code ≠ .none) : w.blocked = true := by
  unfold World.blocked World.hasError
  simp [h]

/-- Two worlds with the same error and the same flag. -/
theorem blocked_congr {w' : World} (he : w'.eng.error_code = w.eng.error_code)
    (hr : w'.eng.raised_reset = w.eng.raised_reset) : w'.blocked = w.blocked := by
  unfold World.blocked World.hasError
  rw [he, hr]

theorem signalStreamError_login (w : World) (stanza : XmlElement) :
    (w.signalStreamError stanza).eng.login_task = w.eng.login_task := by
  unfold World.signalStreamError
  split
  · exact signalError_login _ _ _
  · rfl

/-- A statement that closes the engine bars the input with an error. -/
theorem exec_stops (h : Settled w (s :: rest)) (hn : w.eng.state ≠ .closed)
    (hr : w.exec s = some r) : Stopped r.1 (r.2 ++ rest) := by
  intro hc lt' hl' hd
  have hsame : r.1.eng.state ≠ w.eng.state := fun heq => hn (heq.symm.trans hc)
  have hin : s.isInput = true := by
    by_contra hi
    exact hsame ((exec_frame hr).state (by simpa using hi))
  have hblocked := blocked_of_error (exec_closes hin hr hn hc).2
  refine ⟨?_, .inl hblocked⟩
  have hquiet : s.atWork = false → ∀ lt, w.eng.login_task = some lt → lt.pelStanza = none := by
    intro hs lt hl
    refine ((h.quiet fun x hx => ?_).2 lt hl hn).1
    obtain rfl := Option.some.inj hx
    exact hs
  by_cases hplain : s.atWork = false ∧ s ≠ .tlsStarted ∧ ∀ ev, s ≠ .incoming ev
  · obtain ⟨lt, hl, -, hp⟩ := (exec_aside hplain.1 hplain.2.1 hplain.2.2 hr).task hl'
    exact hp.trans (hquiet hplain.1 lt hl)
  · cases s with
    | advance =>
      -- a round that closes the engine is done
      obtain ⟨lt, hl, hround⟩ := exec_advance hr
      rcases round_unfinished hround hl hl' with ⟨hdone, -⟩ | hun
      · exact absurd hdone hd
      · exact absurd hun.state hsame
    | tlsStarted | advanced =>
      obtain ⟨lt, -, rfl⟩ := Option.map_eq_some_iff.1 hr
      exact absurd rfl hsame
    | resetLogin =>
      obtain ⟨lt, -, rfl⟩ := Option.map_eq_some_iff.1 hr
      dsimp only at hsame
      split at hsame <;> exact absurd rfl hsame
    | incoming ev =>
      cases exec_incoming hr with
      | login | blocked | response | dispatch => exact absurd rfl hsame
      | streamError stanza hb =>
        exact hquiet rfl lt' (signalStreamError_login (w.emit (.parsed ev)) stanza ▸ hl')
      | error code hcode hb =>
        exact hquiet rfl lt' (signalError_login (w.emit (.parsed ev)) code 0 ▸ hl')
    | _ => exact absurd ⟨rfl, by simp, by simp⟩ hplain

/-- What is no input leaves nothing but the way to a new stream. -/
theorem exec_stopped_aside (h : Stopped w (s :: rest)) (hc : w.eng.state = .closed)
    (hnested : Nested (s :: rest)) (hn : s.isInput = false) (hr : w.exec s = some r) :
    Stopped r.1 (r.2 ++ rest) := by
  rintro - lt' hl' hd'
  have hrest : Restarting (r.2 ++ rest) := (hnested.1 hn).append fun p hp => by
    refine Stmt.feeds_of_isInput ?_
    by_contra hpi
    rw [(exec_push hr p hp).input (by simpa using hpi)] at hn
    cases hn
  have haside : Aside w r.1 := by
    refine exec_aside ?_ ?_ ?_ hr
    · cases s <;> first | rfl | exact absurd hn.symm Bool.false_ne_true
    · rintro rfl
      cases hn
    · rintro ev rfl
      cases hn
  obtain ⟨lt, hl, hst, hp⟩ := haside.task hl'
  exact ⟨hp.trans (h hc lt hl (hst ▸ hd')).1, .inr (.inl hrest)⟩

/-- A round of the login task of a closed engine: the guard is up after it. -/
theorem advance_stopped {lt : XmppLoginTask} (h : Stopped w (.advance :: rest))
    (hc : w.eng.state = .closed) (herror : r.1.eng.error_code = w.eng.error_code)
    (hl : w.eng.login_task = some lt) (hd : lt.state ≠ .done) (hround : Round w lt r)
    (hl' : r.1.eng.login_task = some lt') (hd' : lt'.state ≠ .done) :
    lt'.pelStanza = none ∧ r.1.blocked = true := by
  rcases round_unfinished hround hl hl' with ⟨hdone', -⟩ | hun
  · exact absurd hdone' hd'
  · obtain ⟨hp, hbarred⟩ := h hc lt hl hd
    refine ⟨hun.empty hp, ?_⟩
    rcases hbarred with hb | (heq | ⟨hf, -⟩) | ⟨hi, -⟩
    · rcases hun.raised with hraised | hraised
      · exact (blocked_congr herror hraised).trans hb
      · unfold World.blocked
        rw [hraised, Bool.or_true]
    · cases heq
    · cases hf
    · unfold World.blocked
      rw [hun.started hi, Bool.or_true]

/-- A closed engine goes on: whatever is no input leaves nothing but the way to a new
stream, and input finds the guard up. -/
theorem exec_stopped (h : Stopped w (s :: rest)) (hc : w.eng.state = .closed)
    (hnested : Nested (s :: rest))
    (hdone : ∀ lt, w.eng.login_task = some lt → lt.state = .done → AboutToReset (s :: rest))
    (hdispatch : s.isDispatch = false) (hr : w.exec s = some r) : Stopped r.1 (r.2 ++ rest) := by
  intro hc' lt' hl' hd'
  have hframe := exec_frame hr
  -- the error of a closed engine stays
  have herror : r.1.eng.error_code = w.eng.error_code := by
    rcases hframe.forward.error with heq | ⟨hn, -⟩
    · exact heq
    · exact absurd hc hn
  by_cases hin : s.isInput = true
  · have hbar : ∀ lt, w.eng.login_task = some lt → lt.state ≠ .done → s.feeds = true →
        s ≠ .advance → w.blocked = true := by
      intro lt hl hd hf hadv
      rcases (h hc lt hl hd).2 with hb | (rfl | ⟨hf', -⟩) | ⟨-, below, hcontrol⟩
      · exact hb
      · cases hf
      · rw [hf] at hf'
        cases hf'
      · exact absurd (List.cons.inj hcontrol).1 hadv
    -- a statement that brings nothing: what barred the input still does
    have hpass : ∀ lt, w.eng.login_task = some lt → lt.state ≠ .done → s.feeds = false →
        s ≠ .tlsStarted → r.2 = [] → Barred r.1 lt' (r.2 ++ rest) := by
      intro lt hl hd hf ht hnil
      rcases (h hc lt hl hd).2 with hb | (rfl | ⟨-, hrest⟩) | ⟨-, below, hcontrol⟩
      · refine .inl ((blocked_congr herror (hframe.raised_reset ?_ ?_)).trans hb)
        · rintro rfl
          cases hf
        · rintro saved rfl
          cases hin
      · exact absurd rfl ht
      · rw [hnil]
        exact .inr (.inl hrest)
      · rw [(List.cons.inj hcontrol).1] at hf
        cases hf
    cases s with
    | advance =>
      obtain ⟨lt, hl, hround⟩ := exec_advance hr
      have hd : lt.state ≠ .done := by
        intro hd
        obtain ⟨below, hcontrol | hcontrol⟩ := hdone lt hl hd <;> cases hcontrol
      have hstop := advance_stopped h hc herror hl hd hround hl' hd'
      exact ⟨hstop.1, .inl hstop.2⟩
    | tlsStarted =>
      obtain ⟨lt, hl, rfl⟩ := Option.map_eq_some_iff.1 hr
      have hd : lt.state ≠ .done := by
        intro hd
        obtain ⟨below, hcontrol | hcontrol⟩ := hdone lt hl hd <;> cases hcontrol
      obtain rfl := Option.some.inj hl'
      exact ⟨(h hc lt hl hd).1, .inr (.inr ⟨rfl, rest, rfl⟩)⟩
    | advanced =>
      obtain ⟨lt, hl, rfl⟩ := Option.map_eq_some_iff.1 hr
      obtain rfl := Option.some.inj hl'
      exact ⟨rfl, hpass lt hl hd' rfl (by simp) rfl⟩
    | resetLogin =>
      obtain ⟨lt, hl, rfl⟩ := Option.map_eq_some_iff.1 hr
      dsimp only at hl'
      by_cases hd : lt.state = .done
      · rw [if_pos hd] at hl'
        cases hl'
      · rw [if_neg hd, hl] at hl'
        obtain rfl := Option.some.inj hl'
        exact ⟨(h hc _ hl hd).1, hpass _ hl hd rfl (by simp) rfl⟩
    | startedTls =>
      obtain rfl := Option.some.inj hr
      exact ⟨(h hc lt' hl' hd').1, hpass lt' hl' hd' rfl (by simp) rfl⟩
    | parse events status =>
      have hlogin : r.1.eng.login_task = w.eng.login_task := by
        obtain rfl := Option.some.inj hr
        cases events <;> rfl
      rw [hlogin] at hl'
      refine ⟨(h hc lt' hl' hd').1, .inl ?_⟩
      exact (blocked_congr herror (hframe.raised_reset (by simp) (by simp))).trans
        (hbar lt' hl' hd' rfl (by simp))
    | incoming ev =>
      -- no way but the one that is blocked
      have hno : ∀ lt, w.eng.login_task = some lt → w.blocked = false → False := by
        intro lt hl hb
        have hd : lt.state ≠ .done := by
          intro hd
          obtain ⟨below, hcontrol | hcontrol⟩ := hdone lt hl hd <;> cases hcontrol
        exact absurd (hb.symm.trans (hbar lt hl hd rfl (by simp))) Bool.false_ne_true
      cases exec_incoming hr with
      | blocked hb => exact ⟨(h hc lt' hl' hd').1, .inl hb⟩
      | login lt e isStart hb hl => exact (hno lt hl hb).elim
      | streamError stanza hb =>
        exact (hno lt' (signalStreamError_login (w.emit (.parsed ev)) stanza ▸ hl') hb).elim
      | error code hcode hb =>
        exact (hno lt' (signalError_login (w.emit (.parsed ev)) code 0 ▸ hl') hb).elim
      | response stanza entry hb hl | dispatch stanza hb hl =>
        have hn : w.eng.login_task = some lt' := hl'
        rw [hl] at hn
        cases hn
    | _ => first | exact absurd hin Bool.false_ne_true | cases hdispatch
  · exact exec_stopped_aside h hc hnested (by simpa using hin) hr hc' lt' hl' hd'

/-- A function is called where the application has control. -/
theorem entry_stopped {m : Call} {control : List Stmt} (h : Stopped w control)
    (hsettled : Settled w control) (hhead : ∀ s, control.head? = some s → s.atWork = false)
    (hrestart : w.eng.login_task ≠ none → Restarting control) (he : Entry w m r) :
    Stopped r.1 (r.2 ++ control) := by
  intro hc lt' hl' hd'
  -- a function that gives input to treat does not close the engine
  have hpush : ∀ p ∈ r.2, p.feeds = false := by
    cases he with
    | connect lt hs hl => cases hc
    | handleInput events status hs =>
      have hcl : w.eng.state = .closed := hc
      rcases hs with hs | hs <;> exact absurd (hs.symm.trans hcl) (by decide)
    | _ => simp [Stmt.feeds]
  have hm : m ≠ .connect ∨ r.1 = w := by
    by_cases hm : m = .connect
    · subst hm
      cases he with
      | refused m status hst => exact .inr rfl
      | connect | connectDone => cases hc
      | sent m e v hs hcall =>
        rcases hcall with hcall | ⟨_, _, _, hcall, -⟩ <;> cases hcall
      | configured m eng hst | stored m eng status hst => cases hst
    · exact .inl hm
  have haside : Aside w r.1 := by
    rcases hm with hm | heq
    · exact entry_aside he hm
    · rw [heq]
      exact .of_eq rfl rfl rfl rfl
  obtain ⟨lt, hl, hst, hp⟩ := haside.task hl'
  refine ⟨hp.trans ?_, .inr (.inl ((hrestart ?_).append hpush))⟩
  · by_cases hcl : w.eng.state = .closed
    · exact (h hcl lt hl (hst ▸ hd')).1
    · exact ((hsettled.quiet hhead).2 lt hl hcl).1
  · rw [hl]
    exact Option.some_ne_none lt

/-- The login task of a closed engine gets no stanza any more. -/
theorem stopped_reachable (h : Reachable c) : Stopped c.state c.control := by
  refine Reaches.invariant (I := fun c : Conf => Stopped c.state c.control) h ?_ ?_
  · intro hc
    cases hc
  · intro c a c' hreach hc ha hs hcl' lt' hl' hd'
    have hl : c.state.eng.login_task ≠ none := by
      refine step_login hs ?_
      rw [hl']
      exact Option.some_ne_none lt'
    have hnested := nested_reachable hreach hl
    have hsettled := (settled_reachable hreach).2
    have hdone := done_reachable hreach
    rcases step_cases hs with ⟨s, rest, r, -, hcontrol, -, hr, rfl⟩ | ⟨m, -, hw, rfl⟩ |
      ⟨v, s, rest, -, hcontrol, hf, rfl⟩
    · have hdispatch : s.isDispatch = false := eq_false_of_ne_true fun hd =>
        hl (dispatch_reachable hreach s (hcontrol ▸ List.mem_cons_self) hd)
      rw [hcontrol] at hc hnested hsettled hdone
      by_cases hcl : c.state.eng.state = .closed
      · exact exec_stopped hc hcl hnested hdone hdispatch hr hcl' lt' hl' hd'
      · exact exec_stops hsettled hcl hr hcl' lt' hl' hd'
    · have hcalled : Settled (c.state.emit (.called m)) c.control :=
        hsettled.aside (waiting_atWork hw) (.of_eq rfl rfl rfl rfl)
      have hstop : Stopped (c.state.emit (.called m)) c.control := hc
      exact entry_stopped hstop hcalled (waiting_atWork hw)
        (fun _ => waiting_restarting hnested hw) (enter_entry c.state m) hcl' lt' hl' hd'
    · have hdispatch : s.isDispatch = false := eq_false_of_ne_true fun hd =>
        hl (dispatch_reachable hreach s (hcontrol ▸ List.mem_cons_self) hd)
      have hresume : World.resume s v = [] := by
        cases s with
        | callback cb => cases cb <;> first | rfl | cases hdispatch
        | _ => exact absurd hf Bool.false_ne_true
      rw [hcontrol] at hc hnested
      obtain ⟨hp, -⟩ := hc hcl' lt' hl' hd'
      refine ⟨hp, .inr (.inl ?_)⟩
      have hrest : Restarting (World.resume s v ++ rest) := by
        rw [hresume]
        refine hnested.1 ?_
        cases s <;> first | rfl | exact absurd hf Bool.false_ne_true
      exact hrest

end Gxmpp
