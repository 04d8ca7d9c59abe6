/-
The end of the handshake.

`IncomingStanza` has two guards before it comes to the application's stanzas: an error
or a raised reset drops the stanza, and a login task takes it. An engine that is open
has neither. The reason is the order of things in `XmppLoginTask::Advance`: the reset is
raised at the start of a stream, and the login task, which then waits for the start of
the server's stream, gets nothing until the reset is carried out; the engine opens in
the last round, after which the task is deleted before anybody else runs.

`Settled` is that argument as an invariant of every run.
-/
import Gxmpp.EngineShape

set_option autoImplicit false

namespace Gxmpp

open World Reentrant

/-! ## 1. What follows a round of the login task -/

/-- Under a round of the login task lie the two statements that end it, and under the
first of them the second. -/
def Chained : List Stmt → Prop
  | [] => True
  | s :: rest =>
    (s.isLogin = true → ∃ below, rest = .advanced :: .resetLogin :: below) ∧
    (s = .advanced → ∃ below, rest = .resetLogin :: below) ∧ Chained rest

/-- The statements that `Chained` speaks about. -/
def Stmt.chains : Stmt → Bool
  | .advance | .tlsStarted | .advanced => true
  | _ => false

variable {rest : List Stmt} {s : Stmt} {r : World × List Stmt} {w : World} {m : Call} {c : Conf}

theorem Chained.cons (h : Chained rest) (hs : s.chains = false) : Chained (s :: rest) := by
  refine ⟨fun hl => ?_, fun ha => ?_, h⟩
  · cases s <;> first | exact absurd hl Bool.false_ne_true | exact absurd hs.symm Bool.false_ne_true
  · subst ha
    cases hs

theorem Chained.append {push : List Stmt} (h : Chained rest) (hp : ∀ p ∈ push, p.chains = false) :
    Chained (push ++ rest) := by
  induction push with
  | nil => exact h
  | cons p push ih =>
    exact (ih fun x hx => hp x (List.mem_cons_of_mem _ hx)).cons (hp p List.mem_cons_self)

/-- The round and what ends it. -/
theorem Chained.login (h : Chained rest) : Chained (.advance :: .advanced :: .resetLogin :: rest) :=
  ⟨fun _ => ⟨rest, rfl⟩, fun ha => (nomatch ha), fun hl => (nomatch hl), fun _ => ⟨rest, rfl⟩,
    h.cons rfl⟩

theorem exec_chained (h : Chained (s :: rest)) (hr : w.exec s = some r) :
    Chained (r.2 ++ rest) := by
  obtain ⟨hlogin, -, hrest⟩ := h
  -- another round, over what lies under this one
  have hagain : s.isLogin = true → Chained (.advance :: rest) := fun hs =>
    ⟨fun _ => hlogin hs, fun ha => (nomatch ha), hrest⟩
  by_cases hs : s.isLogin = true
  · cases s with
    | advance =>
      obtain ⟨lt, -, hround⟩ := exec_advance hr
      have hstarted : Chained (.tlsStarted :: rest) :=
        ⟨fun _ => hlogin hs, fun ha => (nomatch ha), hrest⟩
      rcases (round_frame hround).2 with h' | h' | h' | ⟨d, h'⟩
      · rw [h']
        exact hrest
      · rw [h']
        exact hagain hs
      · rw [h']
        exact hstarted
      · rw [h']
        exact (hstarted.cons rfl).cons rfl
    | tlsStarted =>
      obtain ⟨lt, -, rfl⟩ := Option.map_eq_some_iff.1 hr
      exact hagain hs
    | _ => cases hs
  · by_cases hin : ∃ ev, s = .incoming ev
    · obtain ⟨ev, rfl⟩ := hin
      cases exec_incoming hr with
      | login lt e isStart hb hl => exact hrest.login
      | _ => exact hrest.append (by simp [callOut, Stmt.chains])
    · refine hrest.append fun p hp => ?_
      have hpush := exec_mayPush hr p hp
      cases p with
      | advance => cases s <;>
          first
            | exact absurd rfl hs
            | exact absurd ⟨_, rfl⟩ hin
            | exact absurd hpush Bool.false_ne_true
      | tlsStarted => cases s <;>
          first | exact absurd rfl hs | exact absurd hpush Bool.false_ne_true
      | advanced => cases s <;>
          first | exact absurd ⟨_, rfl⟩ hin | exact absurd hpush Bool.false_ne_true
      | _ => rfl

theorem entry_chained {control : List Stmt} (h : Chained control) (he : Entry w m r) :
    Chained (r.2 ++ control) := by
  cases he with
  | connect lt hs hl => exact ((h.cons rfl).cons rfl).login
  | _ => exact h.append (by simp [Stmt.chains])

/-! ## 2. The invariant -/

/-- How far the handshake is, as far as the end of it needs to know. -/
structure Settled (w : World) (control : List Stmt) : Prop where
  /-- an error closes the engine -/
  error : w.eng.error_code ≠ .none → w.eng.state = .closed
  /-- the login task of an open engine is about to be deleted -/
  opened : w.eng.state = .open → w.eng.login_task = none ∨
    ∃ lt below, w.eng.login_task = some lt ∧ lt.state = .done ∧
      (control = .advanced :: .resetLogin :: below ∨ control = .resetLogin :: below)
  /-- a stream starts with nothing in the hands of the login task, and at once -/
  fresh : ∀ lt, w.eng.login_task = some lt → w.eng.state ≠ .closed → lt.state = .init →
    lt.pelStanza = none ∧ (w.eng.state = .start ∨ ∃ below, control = .advance :: below)
  /-- the login task has a stanza during its rounds only -/
  taken : ∀ lt, w.eng.login_task = some lt → w.eng.state ≠ .closed → lt.pelStanza ≠ none →
    ∃ below, control = .advance :: below ∨ control = .advanced :: below
  /-- a raised reset finds the login task at the start of a stream -/
  raised : w.eng.state ≠ .closed → w.eng.raised_reset = true → w.eng.state ≠ .open ∧
    ∃ lt, w.eng.login_task = some lt ∧
      (lt.state = .init ∨ (lt.state = .streamstartSent ∧ lt.pelStanza = none))

/-- The statements that may find the login task at work. -/
def Stmt.atWork : Stmt → Bool
  | .advance | .advanced | .resetLogin => true
  | _ => false

/-- A step that has nothing to do with the handshake: a stanza may be queued, and the
engine may be closed. -/
structure Aside (w w' : World) : Prop where
  state : w'.eng.state = w.eng.state ∨ w'.eng.state = .closed
  error : w'.eng.error_code = w.eng.error_code ∨ w'.eng.state = .closed
  raised : w'.eng.raised_reset = true → w.eng.raised_reset = true
  login : w'.eng.login_task = w.eng.login_task ∨
    ∃ lt e, w.eng.login_task = some lt ∧ w'.eng.login_task = some (lt.outgoingStanza e)

namespace Aside

theorem of_eq {w w' : World} (hs : w'.eng.state = w.eng.state)
    (he : w'.eng.error_code = w.eng.error_code) (hr : w'.eng.raised_reset = w.eng.raised_reset)
    (hl : w'.eng.login_task = w.eng.login_task) : Aside w w' :=
  ⟨Or.inl hs, Or.inl he, fun h => hr ▸ h, Or.inl hl⟩

theorem of_closed {w w' : World} (hs : w'.eng.state = .closed)
    (hr : w'.eng.raised_reset = w.eng.raised_reset)
    (hl : w'.eng.login_task = w.eng.login_task) : Aside w w' :=
  ⟨Or.inr hs, Or.inr hs, fun h => hr ▸ h, Or.inl hl⟩

/-- After a step that leaves these members alone. -/
theorem after {u v w : World} (h : Aside v w) (hs : v.eng.state = u.eng.state)
    (he : v.eng.error_code = u.eng.error_code) (hr : v.eng.raised_reset = u.eng.raised_reset)
    (hl : v.eng.login_task = u.eng.login_task) : Aside u w := by
  obtain ⟨h₁, h₂, h₃, h₄⟩ := h
  rw [hs] at h₁
  rw [he] at h₂
  rw [hr] at h₃
  rw [hl] at h₄
  exact ⟨h₁, h₂, h₃, h₄⟩

/-- The login task is what it was, but for the queue. -/
theorem task {w w' : World} (h : Aside w w') {lt' : XmppLoginTask}
    (hl' : w'.eng.login_task = some lt') : ∃ lt, w.eng.login_task = some lt ∧
      lt'.state = lt.state ∧ lt'.pelStanza = lt.pelStanza := by
  rcases h.login with heq | ⟨lt, e, hl, heq⟩
  · exact ⟨lt', heq ▸ hl', rfl, rfl⟩
  · rw [heq] at hl'
    obtain rfl := Option.some.inj hl'
    exact ⟨lt, hl, rfl, rfl⟩

theorem signalError (w : World) (code : EngineError) (sub : Int) :
    Aside w (w.signalError code sub) := by
  unfold World.signalError
  by_cases hc : w.eng.state ≠ .closed
  · rw [if_pos hc]
    exact of_closed rfl rfl rfl
  · rw [if_neg hc]
    exact of_eq rfl rfl rfl rfl

theorem sent {w v : World} {e : XmlElement} (h : Sent w e v) : Aside w v := by
  have hf := h.frame.1
  refine ⟨Or.inl hf.state, Or.inl hf.error_code, fun hr => hf.raised_reset ▸ hr, ?_⟩
  cases h with
  | queued lt hl => exact Or.inr ⟨lt, e, hl, rfl⟩
  | through hl => exact Or.inl rfl

theorem afterReset (w : World) : Aside w (afterReset w) := by
  rcases afterReset_eq w with h | ⟨hr, h⟩
  · rw [h]
    exact of_eq rfl rfl rfl rfl
  · rw [h]
    exact ⟨Or.inl rfl, Or.inl rfl, fun hn => absurd hn Bool.false_ne_true, Or.inl rfl⟩

end Aside

/-- The statements that have nothing to do with the handshake. -/
theorem exec_aside (hs : s.atWork = false) (ht : s ≠ .tlsStarted) (hi : ∀ ev, s ≠ .incoming ev)
    (h : w.exec s = some r) : Aside w r.1 := by
  cases s with
  | callback cb => cases h
  | incoming ev => exact absurd rfl (hi ev)
  | tlsStarted => exact absurd rfl ht
  | exitScope saved => cases exec_exitScope h <;> exact .of_eq rfl rfl rfl rfl
  | afterWrite saved closing | parse closing =>
    obtain rfl := Option.some.inj h
    cases closing <;> exact .of_eq rfl rfl rfl rfl
  | leaveScope saved =>
    have hreset := Aside.afterReset w
    cases exec_leaveScope h with
    | inner he => exact .of_eq rfl rfl rfl rfl
    | notify he hh hne => exact { hreset with }
    | silent he hn => exact hreset
  | peek stanza i =>
    obtain rfl := Option.some.inj h
    unfold World.peek
    split <;> exact .of_eq rfl rfl rfl rfl
  | dispatch stanza level i =>
    obtain rfl := Option.some.inj h
    unfold World.dispatch
    split
    · exact .of_eq rfl rfl rfl rfl
    · split <;> exact .of_eq rfl rfl rfl rfl
  | unhandled stanza =>
    obtain rfl := Option.some.inj h
    rcases unhandled_cases w stanza with h | ⟨-, v, hv, h⟩
    · rw [h]
      exact .of_eq rfl rfl rfl rfl
    · rw [h]
      exact .sent hv
  | afterClose | returned | startedTls | deleteEntry =>
    obtain rfl := Option.some.inj h
    exact .of_eq rfl rfl rfl rfl
  | _ => exact absurd hs (by decide)

/-- So have the functions other than `Connect`. -/
theorem entry_aside (h : Entry w m r) (hm : m ≠ .connect) : Aside w r.1 := by
  cases h with
  | refused m status hst => exact .of_eq rfl rfl rfl rfl
  | configured m eng hst hs hu | stored m eng status hst hu =>
    exact .of_eq hu.state hu.error_code hu.raised_reset hu.login_task
  | connect | connectDone => exact absurd rfl hm
  | connectionClosed subcode code sub hc hs =>
    exact (Aside.signalError w.enterExit code sub).after rfl rfl rfl rfl
  | sent m e v hs hcall hv => exact .sent hv
  | sentIq e h v hs hb hv => exact (Aside.sent hv).after rfl rfl rfl rfl
  | disconnect hs =>
    refine .of_closed rfl ?_ ?_
    · dsimp only [set_eng]
      split <;> rfl
    · dsimp only [set_eng]
      split <;> rfl
  | _ => exact .of_eq rfl rfl rfl rfl

namespace Settled

variable {w w' : World} {control control' : List Stmt}

/-- What holds where no round of the login task is being treated. -/
theorem quiet (h : Settled w control) (hhead : ∀ s, control.head? = some s → s.atWork = false) :
    (w.eng.state = .open → w.eng.login_task = none) ∧
    ∀ lt, w.eng.login_task = some lt → w.eng.state ≠ .closed →
      lt.pelStanza = none ∧ (lt.state = .init → w.eng.state = .start) := by
  refine ⟨fun ho => ?_, fun lt hl hc => ⟨?_, fun hi => ?_⟩⟩
  · rcases h.opened ho with hn | ⟨lt, below, -, -, hcontrol | hcontrol⟩
    · exact hn
    · have := hhead .advanced (by rw [hcontrol]; rfl)
      cases this
    · have := hhead .resetLogin (by rw [hcontrol]; rfl)
      cases this
  · by_contra hn
    obtain ⟨below, hcontrol | hcontrol⟩ := h.taken lt hl hc hn
    · have := hhead .advance (by rw [hcontrol]; rfl)
      cases this
    · have := hhead .advanced (by rw [hcontrol]; rfl)
      cases this
  · rcases (h.fresh lt hl hc hi).2 with hs | ⟨below, hcontrol⟩
    · exact hs
    · have := hhead .advance (by rw [hcontrol]; rfl)
      cases this

/-- A step aside. -/
theorem aside (h : Settled w control) (hhead : ∀ s, control.head? = some s → s.atWork = false)
    (ha : Aside w w') : Settled w' control' := by
  obtain ⟨hopen, hlogin⟩ := h.quiet hhead
  -- where the engine is not closed after the step, its state is what it was
  have hstate : w'.eng.state ≠ .closed → w'.eng.state = w.eng.state := fun hc =>
    ha.state.resolve_right hc
  refine ⟨fun he => ?_, fun ho => ?_, fun lt' hl' hc hi => ?_, fun lt' hl' hc hp => ?_,
    fun hc hr => ?_⟩
  · rcases ha.error with heq | hc
    · rw [heq] at he
      rcases ha.state with hs | hs
      · rw [hs]
        exact h.error he
      · exact hs
    · exact hc
  · have hs := hstate (by rw [ho]; decide)
    have hn := hopen (hs.symm.trans ho)
    refine Or.inl ?_
    rcases ha.login with heq | ⟨lt, e, hl, -⟩
    · exact heq.trans hn
    · rw [hn] at hl
      cases hl
  · obtain ⟨lt, hl, hst, hpel⟩ := ha.task hl'
    have hs := hstate hc
    have hc' : w.eng.state ≠ .closed := hs ▸ hc
    exact ⟨hpel.trans (hlogin lt hl hc').1, Or.inl (hs.trans ((hlogin lt hl hc').2 (hst ▸ hi)))⟩
  · obtain ⟨lt, hl, -, hpel⟩ := ha.task hl'
    have hc' : w.eng.state ≠ .closed := hstate hc ▸ hc
    exact absurd (hpel.trans (hlogin lt hl hc').1) hp
  · have hs := hstate hc
    have hc' : w.eng.state ≠ .closed := hs ▸ hc
    obtain ⟨hno, lt, hl, hst⟩ := h.raised hc' (ha.raised hr)
    refine ⟨hs ▸ hno, ?_⟩
    rcases ha.login with heq | ⟨lt', e, hl', heq⟩
    · exact ⟨lt, heq.trans hl, hst⟩
    · rw [hl] at hl'
      obtain rfl := Option.some.inj hl'
      exact ⟨_, heq, hst⟩

/-- Nothing is asked of a closed engine. -/
theorem of_closed (hc : w.eng.state = .closed) : Settled w control := by
  refine ⟨fun _ => hc, fun ho => ?_, fun _ _ hn => absurd hc hn, fun _ _ hn => absurd hc hn,
    fun hn => absurd hc hn⟩
  rw [hc] at ho
  cases ho

/-- The login task works on, and the engine stays where it is. -/
theorem working {lt : XmppLoginTask} (h : Settled w control) (hno : w.eng.state ≠ .open)
    (hs : w'.eng.state = w.eng.state) (he : w'.eng.error_code = w.eng.error_code)
    (hl : w'.eng.login_task = some lt)
    (hfresh : w.eng.state ≠ .closed → lt.state = .init →
      lt.pelStanza = none ∧ ∃ below, control' = .advance :: below)
    (htaken : w.eng.state ≠ .closed → lt.pelStanza ≠ none →
      ∃ below, control' = .advance :: below ∨ control' = .advanced :: below)
    (hraised : w.eng.state ≠ .closed → w'.eng.raised_reset = true →
      lt.state = .init ∨ (lt.state = .streamstartSent ∧ lt.pelStanza = none)) :
    Settled w' control' := by
  have htask : ∀ lt', w'.eng.login_task = some lt' → lt' = lt := fun lt' hl' =>
    Option.some.inj (hl'.symm.trans hl)
  refine ⟨fun hn => ?_, fun ho => absurd (hs.symm.trans ho) hno, fun lt' hl' hc hi => ?_,
    fun lt' hl' hc hp => ?_, fun hc hr => ⟨hs ▸ hno, lt, hl, hraised (hs ▸ hc) hr⟩⟩
  · rw [hs]
    exact h.error (he ▸ hn)
  · rw [htask lt' hl'] at hi ⊢
    obtain ⟨hp, hb⟩ := hfresh (hs ▸ hc) hi
    exact ⟨hp, Or.inr hb⟩
  · rw [htask lt' hl'] at hp
    exact htaken (hs ▸ hc) hp

end Settled

/-- A failure of the login task closes the engine. -/
theorem failure_closed (w : World) (lt : XmppLoginTask) (reason : EngineError) :
    (XmppLoginTask.failure w lt reason).1.eng.state = .closed := by
  unfold XmppLoginTask.failure World.signalError
  dsimp only
  by_cases hc : (w.setLogin { lt with state := .done }).eng.state ≠ .closed
  · rw [if_pos hc]
    rfl
  · rw [if_neg hc]
    exact not_not.1 hc

/-- The queue is flushed by printing. -/
theorem flush_members (w : World) (lt : XmppLoginTask) :
    (XmppLoginTask.flushQueuedStanzas w lt).1.eng.raised_reset = w.eng.raised_reset ∧
    (XmppLoginTask.flushQueuedStanzas w lt).1.eng.error_code = w.eng.error_code := by
  have h : ∀ (l : List XmlElement) (w : World),
      (l.foldl (fun w e => (w.emit (.printed e)).internalSendStanza e) w).eng.raised_reset
        = w.eng.raised_reset ∧
      (l.foldl (fun w e => (w.emit (.printed e)).internalSendStanza e) w).eng.error_code
        = w.eng.error_code := by
    intro l
    induction l with
    | nil => exact fun w => ⟨rfl, rfl⟩
    | cons e l ih => exact fun w => ih _
  exact h _ w

theorem signalBound_members (w : World) (jid : Jid) :
    (w.signalBound jid).eng.raised_reset = w.eng.raised_reset ∧
    (w.signalBound jid).eng.error_code = w.eng.error_code := by
  unfold World.signalBound
  dsimp only
  split <;> exact ⟨rfl, rfl⟩

/-! ## 3. The steps -/

/-- A round of the login task. -/
theorem round_settled {lt : XmppLoginTask} {below : List Stmt}
    (h : Settled w (.advance :: .advanced :: .resetLogin :: below))
    (hl : w.eng.login_task = some lt) (hr : Round w lt r) :
    Settled r.1 (r.2 ++ .advanced :: .resetLogin :: below) := by
  -- an open engine has no login task at this point
  have hno : w.eng.state ≠ .open := by
    intro ho
    rcases h.opened ho with hn | ⟨_, _, -, -, hcontrol | hcontrol⟩
    · rw [hl] at hn
      cases hn
    · cases hcontrol
    · cases hcontrol
  -- a round that takes a stanza, or is not at the start of a stream, finds no raised reset
  have hcalm : lt.state ≠ .init → (lt.state = .streamstartSent → lt.pelStanza ≠ none) →
      w.eng.state ≠ .closed → w.eng.raised_reset = true → False := by
    intro hni hns hc hraised
    obtain ⟨-, lt', hl', hst⟩ := h.raised hc hraised
    rw [hl] at hl'
    obtain rfl := Option.some.inj hl'
    rcases hst with hst | ⟨hst, hp⟩
    · exact hni hst
    · exact hns hst hp
  -- the rounds that go round again in another state
  have hgoto : ∀ {v : World} {lt' : XmppLoginTask} {s : LoginTaskState},
      v.eng.state = w.eng.state → v.eng.error_code = w.eng.error_code →
      v.eng.raised_reset = w.eng.raised_reset → lt.state ≠ .init →
      (lt.state = .streamstartSent → lt.pelStanza ≠ none) →
      (s = .init → lt'.pelStanza = none) →
      Settled (XmppLoginTask.goto v lt' s).1
        ((XmppLoginTask.goto v lt' s).2 ++ .advanced :: .resetLogin :: below) := by
    intro v lt' s hs he hraised hni hns hinit
    refine h.working hno hs he rfl (fun _ hi => ⟨hinit hi, _, rfl⟩) (fun _ _ => ⟨_, Or.inl rfl⟩)
      fun hc hrs => absurd (hraised ▸ hrs) ?_
    exact fun hrs => hcalm hni hns hc hrs
  -- the rounds that end the loop, or wait, with nothing in the hands of the task
  have hwait : ∀ {v : World} {lt' : XmppLoginTask} {push : List Stmt},
      v.eng.state = w.eng.state → v.eng.error_code = w.eng.error_code →
      v.eng.raised_reset = w.eng.raised_reset → v.eng.login_task = some lt' → lt.state ≠ .init →
      (lt.state = .streamstartSent → lt.pelStanza ≠ none) →
      lt'.pelStanza = none → lt'.state ≠ .init →
      Settled v (push ++ .advanced :: .resetLogin :: below) := by
    intro v lt' push hs he hraised hl' hni hns hp hst
    refine h.working hno hs he hl' (fun _ hi => absurd hi hst) (fun _ hn => absurd hp hn)
      fun hc hrs => absurd (hraised ▸ hrs) ?_
    exact fun hrs => hcalm hni hns hc hrs
  cases hr with
  -- the task waits: what it holds is what it held
  | idle hs =>
    refine h.working hno rfl rfl hl (fun _ hi => absurd hi hs) (fun _ _ => ⟨_, Or.inr rfl⟩) ?_
    intro hc hraised
    obtain ⟨-, lt', hl', hst⟩ := h.raised hc hraised
    rw [hl] at hl'
    obtain rfl := Option.some.inj hl'
    exact hst
  -- the round raises the reset itself, and has nothing in hand
  | restart hs =>
    refine h.working hno rfl rfl rfl (fun _ hi => by cases hi) (fun _ _ => ⟨_, Or.inl rfl⟩) ?_
    exact fun hc _ => Or.inr ⟨rfl, (h.fresh lt hl hc hs).1⟩
  | lacking reason hs => exact .of_closed (failure_closed _ _ _)
  | refused e lt' reason => exact .of_closed (failure_closed _ _ _)
  | unchosen sh mechanisms hs => exact .of_closed (failure_closed _ _ _)
  | unstarted sh mechanisms choice mech hs => exact .of_closed (failure_closed _ _ _)
  | streamStarted e hs he =>
    exact hwait rfl rfl rfl rfl (by rw [hs]; decide) (fun _ => by rw [he]; simp) rfl (by simp)
  | featuresTls e hs => exact hgoto rfl rfl rfl (by rw [hs]; decide) (by rw [hs]; simp) (by simp)
  | featuresAuth e hs => exact hgoto rfl rfl rfl (by rw [hs]; decide) (by rw [hs]; simp) (by simp)
  | featuresBind e hs => exact hgoto rfl rfl rfl (by rw [hs]; decide) (by rw [hs]; simp) (by simp)
  | tlsAsked hs => exact hgoto rfl rfl rfl (by rw [hs]; decide) (by rw [hs]; simp) (by simp)
  | proceed e domain hs =>
    exact hwait rfl rfl rfl rfl (by rw [hs]; decide) (by rw [hs]; simp) rfl
      (by simp [XmppLoginTask.nextStanza, hs])
  | proceedUnhandled e hs =>
    exact hwait rfl rfl rfl rfl (by rw [hs]; decide) (by rw [hs]; simp) rfl
      (by simp [XmppLoginTask.nextStanza, hs])
  | authSent sh mechanisms choice mech auth hs =>
    exact hgoto rfl rfl rfl (by rw [hs]; decide) (by rw [hs]; simp) (by simp)
  | challenged e response hs =>
    exact hgoto rfl rfl rfl (by rw [hs]; decide) (by rw [hs]; simp) (by simp)
  | authenticated e hs =>
    exact hgoto rfl rfl rfl (by rw [hs]; decide) (by rw [hs]; simp) (fun _ => rfl)
  | bindAsked hs => exact hgoto rfl rfl rfl (by rw [hs]; decide) (by rw [hs]; simp) (by simp)
  | ignored e hs =>
    have hne : lt.state ≠ .init ∧ lt.state ≠ .streamstartSent := by
      rcases hs with hs | hs <;> rw [hs] <;> decide
    exact hwait rfl rfl rfl rfl hne.1 (fun hss => absurd hss hne.2) rfl hne.1
  | bound e bind hs => exact hgoto rfl rfl rfl (by rw [hs]; decide) (by rw [hs]; simp) (by simp)
  | sessionStarted e hs =>
    have hni : lt.state ≠ .init := by
      rw [hs]
      decide
    have hns : lt.state = .streamstartSent → lt.pelStanza ≠ none := by
      rw [hs]
      intro hss
      cases hss
    -- what the queue and the signal leave alone
    have hflush := flush_members (w.emit (.took lt.state lt.isStart e) |>.signalBound lt.fullJid)
      (XmppLoginTask.nextStanza w lt e).2
    have hbound := signalBound_members (w.emit (.took lt.state lt.isStart e)) lt.fullJid
    have hraised := hflush.1.trans hbound.1
    have herror := hflush.2.trans hbound.2
    have hclosed :=
      (signalBound_closed (w.emit (.took lt.state lt.isStart e)) lt.fullJid).symm.trans
      (Eq.congr_left (flush_state ((w.emit (.took lt.state lt.isStart e)).signalBound lt.fullJid)
        (XmppLoginTask.nextStanza w lt e).2)).symm
    -- the engine may be open now: the task is done, and is dropped by `resetLogin` below
    refine ⟨fun he => ?_, fun _ => Or.inr ⟨_, below, rfl, rfl, Or.inl rfl⟩,
      fun lt' hl' _ hi => ?_,
      fun lt' hl' _ hp => ?_, fun hc hrs => ?_⟩
    · exact hclosed.1 (h.error (herror ▸ he))
    · obtain rfl := Option.some.inj hl'
      cases hi
    · obtain rfl := Option.some.inj hl'
      exact absurd rfl hp
    · exact (hcalm hni hns (fun hcl => hc (hclosed.1 hcl)) (hraised ▸ hrs)).elim

/-- A statement is executed. -/
theorem exec_settled (h : Settled w (s :: rest)) (hchained : Chained (s :: rest))
    (hshape : w.eng.state = .start → s.isInput = false) (hr : w.exec s = some r) :
    Settled r.1 (r.2 ++ rest) := by
  have hhead : s.atWork = false → ∀ x, (s :: rest).head? = some x → x.atWork = false := by
    intro hs x hx
    obtain rfl := Option.some.inj hx
    exact hs
  -- most statements leave the task, the state and the flag alone
  by_cases hplain : s.atWork = false ∧ s ≠ .tlsStarted ∧ ∀ ev, s ≠ .incoming ev
  · exact h.aside (hhead hplain.1) (exec_aside hplain.1 hplain.2.1 hplain.2.2 hr)
  · cases s with
    | advance =>
      obtain ⟨lt, hl, hround⟩ := exec_advance hr
      obtain ⟨below, rfl⟩ := hchained.1 rfl
      exact round_settled h hl hround
    | advanced =>
      obtain ⟨lt, hl, rfl⟩ := Option.map_eq_some_iff.1 hr
      obtain ⟨below, rfl⟩ := hchained.2.1 rfl
      refine ⟨h.error, fun ho => ?_, fun lt' hl' hc hi => ?_, fun lt' hl' hc hp => ?_,
        fun hc hraised => ?_⟩
      · rcases h.opened ho with hn | ⟨lt', _, hl', hd, -⟩
        · rw [hl] at hn
          cases hn
        · rw [hl] at hl'
          obtain rfl := Option.some.inj hl'
          exact Or.inr ⟨_, below, rfl, hd, Or.inr rfl⟩
      · obtain rfl := Option.some.inj hl'
        refine ⟨rfl, Or.inl ?_⟩
        rcases (h.fresh lt hl hc hi).2 with hs | ⟨_, hcontrol⟩
        · exact hs
        · cases hcontrol
      · obtain rfl := Option.some.inj hl'
        exact absurd rfl hp
      · obtain ⟨hno, lt', hl', hst⟩ := h.raised hc hraised
        rw [hl] at hl'
        obtain rfl := Option.some.inj hl'
        exact ⟨hno, _, rfl, hst.imp_right fun hst => ⟨hst.1, rfl⟩⟩
    | resetLogin =>
      obtain ⟨lt, hl, rfl⟩ := Option.map_eq_some_iff.1 hr
      dsimp only
      by_cases hd : lt.state = .done
      -- the task is dropped, so a raised reset would have lost its task: there is none
      · rw [if_pos hd]
        refine ⟨h.error, fun _ => Or.inl rfl, fun lt' hl' => (nomatch hl'),
          fun lt' hl' => (nomatch hl'),
          fun hc hraised => ?_⟩
        obtain ⟨-, lt', hl', hst⟩ := h.raised hc hraised
        rw [hl] at hl'
        obtain rfl := Option.some.inj hl'
        rw [hd] at hst
        rcases hst with hst | ⟨hst, -⟩ <;> cases hst
      · rw [if_neg hd]
        refine ⟨h.error, fun ho => ?_, fun lt' hl' hc hi => ?_, fun lt' hl' hc hp => ?_, h.raised⟩
        · rcases h.opened ho with hn | ⟨lt', _, hl', hd', -⟩
          · exact Or.inl hn
          · rw [hl] at hl'
            obtain rfl := Option.some.inj hl'
            exact absurd hd' hd
        · obtain ⟨hp, hs | ⟨_, hcontrol⟩⟩ := h.fresh lt' hl' hc hi
          · exact ⟨hp, Or.inl hs⟩
          · cases hcontrol
        · obtain ⟨_, hcontrol | hcontrol⟩ := h.taken lt' hl' hc hp <;> cases hcontrol
    | tlsStarted =>
      obtain ⟨hopen, hlogin⟩ := h.quiet (hhead rfl)
      obtain ⟨lt, hl, rfl⟩ := Option.map_eq_some_iff.1 hr
      have hno : w.eng.state ≠ .open := by
        intro ho
        rw [hopen ho] at hl
        cases hl
      refine h.working hno rfl rfl rfl (fun hc _ => ⟨(hlogin lt hl hc).1, _, rfl⟩)
        (fun _ _ => ⟨_, Or.inl rfl⟩) fun _ _ => Or.inl rfl
    | incoming ev =>
      cases exec_incoming hr with
      | login lt e isStart hb hl =>
        obtain ⟨hopen, hlogin⟩ := h.quiet (hhead rfl)
        have hno : w.eng.state ≠ .open := by
          intro ho
          rw [hopen ho] at hl
          cases hl
        -- the guard was passed, and input comes after `Connect` only
        have hraised : w.eng.raised_reset = false := by
          unfold World.blocked at hb
          exact (Bool.or_eq_false_iff.1 hb).2
        refine h.working hno rfl rfl rfl (fun hc hi => ?_) (fun _ _ => ⟨_, Or.inl rfl⟩)
          fun _ hrs => absurd (hraised.symm.trans hrs) Bool.false_ne_true
        exact absurd (hshape ((hlogin lt hl hc).2 hi)) (by simp [Stmt.isInput])
      -- the other ways of the input do not touch the task
      | blocked hb => exact h.aside (hhead rfl) (.of_eq rfl rfl rfl rfl)
      | streamError stanza hb =>
        refine h.aside (hhead rfl) ?_
        dsimp only
        unfold World.signalStreamError
        split
        · exact (Aside.signalError _ _ _).after rfl rfl rfl rfl
        · exact .of_eq rfl rfl rfl rfl
      | error code hc hb =>
        exact h.aside (hhead rfl) ((Aside.signalError _ _ _).after rfl rfl rfl rfl)
      | response | dispatch => exact h.aside (hhead rfl) (.of_eq rfl rfl rfl rfl)
    | _ => exact absurd ⟨rfl, by simp, by simp⟩ hplain

/-- A function is called where the application has control. -/
theorem entry_settled {control : List Stmt} (h : Settled w control)
    (hhead : ∀ s, control.head? = some s → s.atWork = false) (he : Entry w m r) :
    Settled r.1 (r.2 ++ control) := by
  by_cases hm : m = .connect
  · subst hm
    obtain ⟨hopen, hlogin⟩ := h.quiet hhead
    cases he with
    | refused m status hst => exact h.aside hhead (.of_eq rfl rfl rfl rfl)
    | configured m eng hst | stored m eng status hst => cases hst
    | sent m e v hs hcall => rcases hcall with hcall | ⟨_, _, _, hcall, -⟩ <;> cases hcall
    | connect lt hs hl =>
      have hc : w.eng.state ≠ .closed := by
        rw [hs]
        decide
      refine ⟨fun he => absurd (h.error he) hc, fun ho => (by cases ho), fun lt' hl' _ _ => ?_,
        fun lt' hl' _ _ => ⟨_, Or.inl rfl⟩, fun _ hraised => ⟨by simp [setLogin], ?_⟩⟩
      · obtain rfl := Option.some.inj hl'
        exact ⟨rfl, Or.inr ⟨_, rfl⟩⟩
      · obtain ⟨-, lt', hl', hst⟩ := h.raised hc hraised
        rw [hl] at hl'
        obtain rfl := Option.some.inj hl'
        exact ⟨_, rfl, hst.imp_right fun hst => ⟨hst.1, rfl⟩⟩
    | connectDone hs hl =>
      have hc : w.eng.state ≠ .closed := by
        rw [hs]
        decide
      have hnone : ∀ lt', w.eng.login_task = some lt' → False := by
        intro lt' hl'
        rw [hl] at hl'
        cases hl'
      refine ⟨fun he => absurd (h.error he) hc, fun ho => (by cases ho),
        fun lt' hl' => (hnone lt' hl').elim,
        fun lt' hl' => (hnone lt' hl').elim, fun _ hraised => ?_⟩
      obtain ⟨-, lt', hl', -⟩ := h.raised hc hraised
      rw [hl] at hl'
      cases hl'
  · exact h.aside hhead (entry_aside he hm)

/-- Where the application has control, no round is being treated. -/
theorem waiting_atWork (hw : c.waiting engine = true) :
    ∀ s, c.control.head? = some s → s.atWork = false := by
  intro s hs
  rcases waiting_cases hw with hnil | ⟨x, rest, hc, hf⟩
  · rw [hnil] at hs
    cases hs
  · rw [hc] at hs
    obtain rfl := Option.some.inj hs
    cases x <;> first | rfl | exact absurd hf Bool.false_ne_true

theorem settled_reachable (h : Reachable c) : Chained c.control ∧ Settled c.state c.control := by
  refine Reaches.invariant (I := fun c : Conf => Chained c.control ∧ Settled c.state c.control) h
    ?_ ?_
  · refine ⟨trivial, fun he => absurd rfl he, fun ho => (nomatch ho), fun lt hl _ _ => ?_,
      fun lt hl _ hp => ?_, fun _ hraised => nomatch hraised⟩
    · obtain rfl := Option.some.inj hl
      exact ⟨rfl, Or.inl rfl⟩
    · obtain rfl := Option.some.inj hl
      exact absurd rfl hp
  · intro c a c' hreach hc _ hs
    obtain ⟨hchained, hsettled⟩ := hc
    rcases step_cases hs with ⟨s, rest, r, -, hcontrol, -, hr, rfl⟩ | ⟨m, -, hw, rfl⟩ |
      ⟨v, s, rest, -, hcontrol, hf, rfl⟩
    · have hshape := (shape_reachable hreach).frame s (by rw [hcontrol]; exact List.mem_cons_self)
      rw [hcontrol] at hchained hsettled
      exact ⟨exec_chained hchained hr,
        exec_settled hsettled hchained (fun hst => (hshape.started hst).1) hr⟩
    · refine ⟨entry_chained hchained (enter_entry c.state m), ?_⟩
      have hcalled : Settled (c.state.emit (.called m)) c.control :=
        hsettled.aside (waiting_atWork hw) (.of_eq rfl rfl rfl rfl)
      exact entry_settled hcalled (waiting_atWork hw) (enter_entry c.state m)
    · have hhead : ∀ x, c.control.head? = some x → x.atWork = false := by
        intro x hx
        rw [hcontrol] at hx
        obtain rfl := Option.some.inj hx
        cases s <;> first | rfl | exact absurd hf Bool.false_ne_true
      refine ⟨?_, hsettled.aside hhead (.of_eq rfl rfl rfl rfl)⟩
      rw [hcontrol] at hchained
      refine hchained.2.2.append fun p hp => ?_
      have hp' : p ∈ World.resume s v := hp
      unfold World.resume at hp'
      split at hp'
      · rw [List.mem_singleton.1 hp']
        rfl
      · split at hp'
        · cases hp'
        · rw [List.mem_singleton.1 hp']
          rfl
      · cases hp'

/-- The guards of `IncomingStanza` let every stanza of an open engine through to the
application: there is no error, no raised reset and no login task. -/
theorem open_unguarded (h : Reachable c)
    (hhead : ∀ s, c.control.head? = some s → s.atWork = false) (hopen : c.state.eng.state = .open) :
    c.state.eng.error_code = .none ∧ c.state.eng.raised_reset = false ∧
      c.state.eng.login_task = none := by
  have hsettled := (settled_reachable h).2
  have hc : c.state.eng.state ≠ .closed := by
    rw [hopen]
    decide
  have herror : c.state.eng.error_code = .none := by
    by_contra he
    exact hc (hsettled.error he)
  have hraised : c.state.eng.raised_reset = false := by
    by_contra hr
    exact (hsettled.raised hc (by simpa using hr)).1 hopen
  exact ⟨herror, hraised, (hsettled.quiet hhead).1 hopen⟩

/-! ## 4. What is printed -/

/-- The stanza an event prints. -/
def Event.printedStanza : Event → Option XmlElement
  | .printed element => some element
  | _ => none

/-- The stanzas of the application that were printed, in order. -/
def printed (log : List Event) : List XmlElement := log.filterMap Event.printedStanza

@[simp] theorem printed_append (l m : List Event) : printed (l ++ m) = printed l ++ printed m :=
  List.filterMap_append

@[simp] theorem printed_single (ev : Event) : printed [ev] = ev.printedStanza.toList := by
  unfold printed
  cases h : ev.printedStanza with
  | none => rw [List.filterMap_cons_none h]; rfl
  | some e => rw [List.filterMap_cons_some h]; rfl

end Gxmpp
