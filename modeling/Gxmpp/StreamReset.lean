/-
The reset of the stream after `<proceed/>` and after `<success/>`.

Both make everything the server sent before them worthless: what follows in the same
buffer was sent under the old security layer. The code does not stop the parser. It
raises a reset, which makes the engine deaf to what the parser still reports, and
resets the parser when the outermost `EnterExit` scope is left. `armed` says when this
protection is wanted, from the history alone; `stream_reset` says that it is there.

The rule of the runs is that `HandleInput` is called at top level, as a socket does.
Every other function may be called from any handler.
-/
import Gxmpp.LoginSafety
import Mathlib.Data.List.Induction

set_option autoImplicit false

namespace Gxmpp

open World Reentrant XmppLoginTask

/-! ## What is guaranteed -/

/-- `<proceed/>` or `<success/>` is processed. -/
def Event.arms : Event → Bool
  | .took .tlsRequested _ e => granted .tlsRequested e
  | .took .saslRunning _ e => granted .saslRunning e
  | _ => false

/-- `HandleInput` is called. -/
def Event.isInputCall : Event → Bool
  | .called (.handleInput _ _) => true
  | _ => false

/-- The protection is wanted from the event on that grants a new security layer, until
`HandleInput` is called again. -/
def armed (log : List Event) : Bool :=
  log.foldl (fun b ev => if ev.isInputCall then false else b || ev.arms) false

/-- A report of the parser is let through, or reaches somebody. -/
def Event.isDelivery : Event → Bool
  | .parsed _ | .took _ _ _ | .callback (.handleStanza _ _ _ _)
  | .callback (.iqResponse _ _) => true
  | _ => false

/-- While the protection is wanted, nothing is delivered. -/
def Deaf (log : List Event) : Prop :=
  ∀ pre ev post, log = pre ++ ev :: post → armed pre = true → ev.isDelivery = false

/-- The rule: `HandleInput` is called at top level. -/
def TopLevelInput (c : Conf) : Call → Prop
  | .handleInput _ _ => c.control = []
  | _ => True

instance (c : Conf) : ∀ m : Call, Decidable (TopLevelInput c m)
  | .handleInput _ _ => decidable_of_iff (c.control.isEmpty = true) List.isEmpty_iff
  | .setOutputHandler _ | .setSessionHandler _ | .setTls _ | .setTlsServer _ _ | .setUser _
  | .setSaslHandler _ | .setRequestedResource _ | .setLanguage _ | .connect | .connectionClosed _
  | .sendStanza _ | .sendRaw _ | .sendIq _ _ | .removeIqHandler _ | .sendStanzaError _ _ _
  | .addStanzaHandler _ _ | .removeStanzaHandler _ | .nextId | .disconnect => .isTrue trivial

/-! ## Histories -/

theorem armed_snoc (log : List Event) (ev : Event) :
    armed (log ++ [ev]) = if ev.isInputCall then false else armed log || ev.arms := by
  rw [armed, List.foldl_append]
  rfl

variable {evs log : List Event} {w w' : World} {r : World × List Stmt} {s : Stmt} {m : Call}
  {lt : XmppLoginTask} {ev : Event} {c : Conf} {rest : List Stmt}

/-- Events that neither grant a security layer nor call `HandleInput`. -/
theorem armed_append (h : ∀ ev ∈ evs, ev.arms = false ∧ ev.isInputCall = false) :
    armed (log ++ evs) = armed log := by
  induction evs generalizing log with
  | nil => rw [List.append_nil]
  | cons ev evs ih =>
    obtain ⟨ha, hi⟩ := h ev List.mem_cons_self
    rw [← List.singleton_append, ← List.append_assoc,
      ih fun x hx => h x (List.mem_cons_of_mem _ hx), armed_snoc, hi, ha]
    simp

/-- Without a grant the protection is not wanted. -/
theorem unarmed_append (hn : armed log = false) (h : ∀ ev ∈ evs, ev.arms = false) :
    armed (log ++ evs) = false := by
  induction evs generalizing log with
  | nil => rwa [List.append_nil]
  | cons ev evs ih =>
    rw [← List.singleton_append, ← List.append_assoc]
    refine ih ?_ fun x hx => h x (List.mem_cons_of_mem _ hx)
    rw [armed_snoc, hn, h ev List.mem_cons_self]
    simp

theorem Deaf.snoc {e : Event} (h : Deaf log) (he : armed log = true → e.isDelivery = false) :
    Deaf (log ++ [e]) := by
  intro pre x post heq ha
  rcases List.eq_nil_or_concat post with rfl | ⟨post', y, rfl⟩
  · obtain ⟨rfl, hx⟩ := List.append_inj' heq rfl
    obtain rfl : e = x := by simpa using hx
    exact he ha
  · have heq' : log ++ [e] = (pre ++ x :: post') ++ [y] := by
      rw [heq]
      simp
    obtain ⟨hlog, -⟩ := List.append_inj' heq' rfl
    exact h pre x post' hlog ha

/-- Events that are no deliveries keep the history deaf; so do all events before the
protection is wanted. -/
theorem Deaf.append (h : Deaf log) (he : (∀ ev ∈ evs, ev.isDelivery = false) ∨
      (armed log = false ∧ ∀ ev ∈ evs, ev.arms = false)) : Deaf (log ++ evs) := by
  induction evs generalizing log with
  | nil => rwa [List.append_nil]
  | cons ev evs ih =>
    rw [← List.singleton_append, ← List.append_assoc]
    refine ih (h.snoc fun ha => ?_) ?_
    · rcases he with he | ⟨hn, -⟩
      · exact he ev List.mem_cons_self
      · rw [hn] at ha
        cases ha
    · refine he.imp (fun he x hx => he x (List.mem_cons_of_mem _ hx)) ?_
      rintro ⟨hn, ha⟩
      refine ⟨unarmed_append hn ?_, fun x hx => ha x (List.mem_cons_of_mem _ hx)⟩
      exact fun x hx => List.mem_singleton.1 hx ▸ ha ev List.mem_cons_self

/-! ## The invariant -/

/-- How far the reset is. -/
inductive Phase (c : Conf) : Prop where
  /-- TLS is being started: no input is treated above the login task -/
  | starting (above below : List Stmt) (hc : c.control = above ++ .tlsStarted :: below)
      (ha : ∀ s ∈ above, s.inScope = false)
  /-- the login task is about to raise the reset -/
  | restarting (lt : XmppLoginTask) (below : List Stmt) (hc : c.control = .advance :: below)
      (hl : c.state.eng.login_task = some lt) (hs : lt.state = .init)
  /-- the reset is raised, and a scope is still to be left -/
  | raised (hr : c.state.eng.raised_reset = true) (hs : ∃ s ∈ c.control, s.isScope = true)
  /-- the parser has been reset, and nothing of the input is left -/
  | reset (hp : c.state.eng.stanza_parser_ = .init) (hn : ∀ s ∈ c.control, s.inScope = false)

/-- The states of the login task between the grant and the next stream of the server. -/
def LoginTaskState.isBetween : LoginTaskState → Bool
  | .tlsRequested | .init | .streamstartSent => true
  | _ => false

/-- The login task waits with nothing in its hands. -/
def Between (w : World) : Prop :=
  ∃ lt, w.eng.login_task = some lt ∧ lt.pelStanza = none ∧ lt.state.isBetween = true

/-- A step that sends or does nothing to the login task. -/
theorem Between.sent {v : World} {e : XmlElement} (h : Between v) (hs : Sent v e w) :
    Between w := by
  obtain ⟨lt, hl, hp, hst⟩ := h
  cases hs with
  | queued lt' hl' =>
    rw [hl] at hl'
    obtain rfl := Option.some.inj hl'
    exact ⟨_, rfl, hp, hst⟩
  | through hl' =>
    rw [hl] at hl'
    cases hl'

theorem Between.of_eq (h : Between w) (hl : w'.eng.login_task = w.eng.login_task) : Between w' := by
  obtain ⟨lt, hlt, hp, hst⟩ := h
  exact ⟨lt, hl.trans hlt, hp, hst⟩

/-- A statement that treats no input leaves the login task alone, pushes none of the
others, and changes the parser only by resetting it. -/
structure Unscoped (w : World) (r : World × List Stmt) : Prop where
  login : r.1.eng.login_task = w.eng.login_task
  push : ∀ p ∈ r.2, p.inScope = false
  parser : r.1.eng.stanza_parser_ = w.eng.stanza_parser_ ∨ r.1.eng.stanza_parser_ = .init

theorem exec_unscoped (hs : s.inScope = false) (h : w.exec s = some r) : Unscoped w r := by
  have hreset : Unscoped w (afterReset w, []) := by
    rcases afterReset_eq w with h | ⟨-, h⟩ <;> rw [h]
    · exact ⟨rfl, by simp, .inl rfl⟩
    · exact ⟨rfl, by simp, .inr rfl⟩
  cases s with
  | callback cb => cases h
  | exitScope saved =>
    cases exec_exitScope h with
    | write ho hf hb => exact ⟨rfl, by simp [callOut, Stmt.inScope, Stmt.isInput], .inl rfl⟩
    | empty | unflushed => exact ⟨rfl, by simp [Stmt.inScope, Stmt.isInput], .inl rfl⟩
  | afterWrite saved closing =>
    obtain rfl := Option.some.inj h
    cases closing <;>
      exact ⟨rfl, by simp [afterWrite, callOut, Stmt.inScope, Stmt.isInput], .inl rfl⟩
  | afterClose saved =>
    obtain rfl := Option.some.inj h
    exact ⟨rfl, by simp [afterClose, Stmt.inScope, Stmt.isInput], .inl rfl⟩
  | leaveScope saved =>
    cases exec_leaveScope h with
    | inner he => exact ⟨rfl, by simp, .inl rfl⟩
    | notify he hh hne =>
      exact ⟨hreset.login, by simp [callOut, Stmt.inScope, Stmt.isInput], hreset.parser⟩
    | silent he hn => exact hreset
  | returned | startedTls =>
    obtain rfl := Option.some.inj h
    exact ⟨rfl, by simp, .inl rfl⟩
  | _ => cases hs

/-- The entry of a function other than `HandleInput` and `Connect`. -/
structure EntryApart (w : World) (r : World × List Stmt) : Prop where
  push : ∀ p ∈ r.2, p.inScope = false
  parser : r.1.eng.stanza_parser_ = w.eng.stanza_parser_
  login : Between w → Between r.1

theorem entry_apart (h : Entry w m r) (hm : ∀ events status, m ≠ .handleInput events status)
    (hs : w.eng.state ≠ .start) : EntryApart w r := by
  have hpush : ∀ {p q : Stmt}, p.inScope = false → q.inScope = false →
      ∀ x ∈ [p, q], x.inScope = false := by
    intro p q hp hq x hx
    simp only [List.mem_cons, List.not_mem_nil, or_false] at hx
    rcases hx with rfl | rfl <;> assumption
  cases h with
  | refused m status hst => exact ⟨by simp [Stmt.inScope, Stmt.isInput], rfl, id⟩
  | configured m eng hmm hst | connect lt hst | connectDone hst => exact absurd hst hs
  | stored m eng status hmm hu =>
    exact ⟨by simp [Stmt.inScope, Stmt.isInput], hu.stanza_parser_,
      fun hb => hb.of_eq hu.login_task⟩
  | handleInput | inputStopped => exact absurd rfl (hm _ _)
  | connectionClosed subcode code sub hc hst =>
    refine ⟨hpush rfl rfl, (LoginFrame.signalError w.enterExit code sub).stanza_parser_, ?_⟩
    exact fun hb => hb.of_eq (signalError_login w.enterExit code sub)
  | sent m e v hst hmm hv =>
    exact ⟨hpush rfl rfl, hv.frame.1.stanza_parser_, fun hb => hb.sent hv⟩
  | sentIq e h v hst hb hv =>
    refine ⟨hpush rfl rfl, hv.frame.1.stanza_parser_, fun hb => ?_⟩
    have hreg : Between (registerIq w (iqEntry w e h)) := hb.of_eq rfl
    exact hreg.sent hv
  | sendRaw text hst hl => exact ⟨hpush rfl rfl, rfl, fun hb => hb.of_eq rfl⟩
  | removed cookie entry hf => exact ⟨by simp [Stmt.inScope, Stmt.isInput], rfl,
      fun hb => hb.of_eq rfl⟩
  | disconnect hst =>
    refine ⟨hpush rfl rfl, ?_, fun hb => hb.of_eq ?_⟩
    · dsimp only [set_eng]
      split <;> rfl
    · dsimp only [set_eng]
      split <;> rfl

/-- The round after a grant raises the reset; the next ones do nothing. -/
theorem round_between (h : Round w lt r) (hl : w.eng.login_task = some lt)
    (hp : lt.pelStanza = none) (hst : lt.state.isBetween = true) :
    Between r.1 ∧ Grows (fun ev => ev.isDelivery = false ∧ ev.arms = false ∧
      ev.isInputCall = false) w r.1 := by
  have hno : ∀ {e : XmlElement}, lt.pelStanza = some e → False := by
    intro e he
    rw [hp] at he
    cases he
  have hnot : ∀ {s : LoginTaskState}, lt.state = s → s.isBetween = false → False := by
    intro s hs hn
    rw [hs, hn] at hst
    cases hst
  cases h with
  | idle hs => exact ⟨⟨lt, hl, hp, hst⟩, .refl w⟩
  | restart hs => exact ⟨⟨_, rfl, hp, rfl⟩, .write w.raiseReset _ ⟨rfl, rfl, rfl⟩⟩
  | lacking reason hs =>
    exact (hs.elim (hnot · rfl) fun hs => hs.elim (hnot · rfl) (hnot · rfl)).elim
  | refused e lt' reason he | streamStarted e hs he | featuresTls e hs he
  | featuresAuth e hs ha ht he | featuresBind e hs ha ht he | proceed e domain hs hg ho he
  | proceedUnhandled e hs hg ho he | challenged e response hs hg he | authenticated e hs hg he
  | ignored e hs ha he | bound e bind hs hg hb ha he | sessionStarted e hs hg ha he =>
    exact (hno he).elim
  | tlsAsked hs | unchosen sh mechanisms hs | unstarted sh mechanisms choice mech hs
  | authSent sh mechanisms choice mech auth hs | bindAsked hs => exact (hnot hs rfl).elim

/-! ## The history in one step -/

/-- Events that deliver nothing and change nothing about the protection. -/
def Event.isInert (ev : Event) : Prop :=
  ev.isDelivery = false ∧ ev.arms = false ∧ ev.isInputCall = false

theorem Deaf.inert (h : Deaf w.log) (hg : Grows Event.isInert w w') :
    Deaf w'.log ∧ armed w'.log = armed w.log := by
  obtain ⟨evs, hlog, hev⟩ := hg
  rw [hlog]
  exact ⟨h.append (.inl fun ev he => (hev ev he).1), armed_append fun ev he => (hev ev he).2⟩

/-- While the protection is not wanted, anything may be delivered. -/
theorem Deaf.unarmed (h : Deaf w.log) (hn : armed w.log = false)
    (hg : Grows (fun ev => ev.arms = false) w w') : Deaf w'.log ∧ armed w'.log = false := by
  obtain ⟨evs, hlog, hev⟩ := hg
  rw [hlog]
  exact ⟨h.append (.inr ⟨hn, hev⟩), unarmed_append hn hev⟩

/-- Something granted a security layer. -/
theorem exists_arms (h : armed log = true) : ∃ ev ∈ log, ev.arms = true := by
  induction log using List.reverseRecOn with
  | nil => cases h
  | append_singleton log ev ih =>
    rw [armed_snoc] at h
    by_cases hi : ev.isInputCall = true
    · rw [if_pos hi] at h
      cases h
    · rw [if_neg hi, Bool.or_eq_true] at h
      rcases h with h | h
      · obtain ⟨x, hx, ha⟩ := ih h
        exact ⟨x, List.mem_append_left _ hx, ha⟩
      · exact ⟨ev, List.mem_append_right _ List.mem_cons_self, h⟩

theorem isTraffic_of_arms (h : ev.arms = true) : ev.isTraffic = true := by
  cases ev <;> first | rfl | cases h

/-- The protection is wanted only after `Connect`. -/
theorem armed_started (h : Reachable c) (ha : armed c.state.log = true) :
    c.state.eng.state ≠ .start := by
  intro hs
  obtain ⟨ev, hev, hta⟩ := exists_arms ha
  have hno := ((shape_reachable h).global.2 hs).log ev hev
  rw [isTraffic_of_arms hta] at hno
  cases hno

/-- Only the login task is granted a security layer. -/
theorem mayEmit_arms (hs : s ≠ .advance) (h : s.mayEmit ev = true) : ev.arms = false := by
  cases s with
  | advance => exact absurd rfl hs
  | unhandled stanza => cases ev <;> first | rfl | cases h
  | _ => cases ev <;> first | rfl | cases h

theorem entry_arms (h : m.mayEmit ev = true) :
    ev.isDelivery = false ∧ ev.arms = false ∧ ev.isInputCall = false := by
  cases m <;> cases ev <;> first | exact ⟨rfl, rfl, rfl⟩ | cases h

/-- What treats no input delivers nothing. -/
theorem mayEmit_unscoped (hs : s.inScope = false) (h : s.mayEmit ev = true) : ev.isInert := by
  cases s with
  | callback | afterClose | startedTls => cases h
  | exitScope | afterWrite | leaveScope =>
    cases ev with
    | callback cb => cases cb <;> first | exact ⟨rfl, rfl, rfl⟩ | cases h
    | _ => cases h
  | returned m status => cases ev <;> first | exact ⟨rfl, rfl, rfl⟩ | cases h
  | _ => cases hs

/-! ## The grant -/

/-- A round that grants a security layer starts the reset; the others leave the
protection unwanted. -/
theorem round_armed {k : List Stmt} (h : Round w lt r) (hd : Deaf w.log)
    (hn : armed w.log = false) :
    Deaf r.1.log ∧ (armed r.1.log = true → Between r.1 ∧ Phase ⟨r.1, r.2 ++ k⟩) := by
  -- a round that grants no security layer
  have hun : Grows (fun ev => ev.arms = false) w r.1 →
      Deaf r.1.log ∧ (armed r.1.log = true → Between r.1 ∧ Phase ⟨r.1, r.2 ++ k⟩) := by
    intro hg
    obtain ⟨hd', hn'⟩ := hd.unarmed hn hg
    refine ⟨hd', fun ha => ?_⟩
    rw [hn'] at ha
    cases ha
  have htook : ∀ e, (Event.took lt.state lt.isStart e).arms = false →
      Grows (fun ev => ev.arms = false) w (nextStanza w lt e).1 := fun e he => .emit w he
  have hdtook : ∀ e, Deaf (nextStanza w lt e).1.log := by
    intro e
    refine hd.snoc fun ha => ?_
    rw [hn] at ha
    cases ha
  have hsend : ∀ (v : World) (lt' : XmppLoginTask) (e : XmlElement),
      Grows (fun ev => ev.arms = false) v (send v lt' e) :=
    fun v lt' e => grows_send rfl fun _ _ => rfl
  have hchose : ∀ mechanisms choice, Grows (fun ev => ev.arms = false) w
      (w.emit (.chose mechanisms w.eng.encrypted choice)) := fun mechanisms choice => .emit w rfl
  have hgot : ∀ (v : World) choice, Grows (fun ev => ev.arms = false) v
      (v.emit (.gotMechanism choice)) := fun v choice => .emit v rfl
  cases h with
  | idle hs => exact hun (.refl w)
  | restart hs => exact hun (.write w.raiseReset _ rfl)
  | lacking reason hs => exact hun (grows_failure w lt reason)
  | refused e lt' reason he hs hr hg =>
    refine hun ((htook e ?_).trans (grows_failure _ lt' reason))
    cases hst : lt.state <;> rw [hst] at hg <;> first | rfl | exact hg
  | streamStarted e hs | featuresTls e hs | featuresAuth e hs | featuresBind e hs =>
    exact hun (htook e (by rw [hs]; rfl))
  | tlsAsked hs => exact hun (hsend w lt _)
  -- the proceed was taken, and `StartTls` is called: the reset follows its return
  | proceed e domain hs hg ho he =>
    have hfinal := (hdtook e).snoc (e := .callback (.startTls domain)) fun _ => rfl
    refine ⟨hfinal, fun _ => ⟨⟨_, rfl, rfl, ?_⟩, ?_⟩⟩
    · rw [show (nextStanza w lt e).2.state = .tlsRequested from hs]
      rfl
    · refine .starting [.callback (.startTls domain), .startedTls] k rfl fun s hs => ?_
      simp only [List.mem_cons, List.not_mem_nil, or_false] at hs
      rcases hs with rfl | rfl <;> rfl
  | proceedUnhandled e hs hg ho he =>
    refine ⟨hdtook e, fun _ => ⟨⟨_, rfl, rfl, ?_⟩, ?_⟩⟩
    · rw [show (nextStanza w lt e).2.state = .tlsRequested from hs]
      rfl
    · exact .starting [] k rfl (List.forall_mem_nil _)
  | unchosen sh mechanisms hs =>
    exact hun ((hchose mechanisms _).trans (grows_failure _ lt .auth))
  | unstarted sh mechanisms choice mech hs =>
    exact hun (((hchose mechanisms choice).trans (hgot _ choice)).trans (grows_failure _ _ .auth))
  | authSent sh mechanisms choice mech auth hs =>
    exact hun (((hchose mechanisms choice).trans (hgot _ choice)).trans (hsend _ _ _))
  | challenged e response hs hg =>
    refine hun ((htook e ?_).trans (hsend _ _ _))
    rw [hs] at hg ⊢
    exact hg
  -- the success was taken, and the next round starts the stream again
  | authenticated e hs hg he =>
    exact ⟨hdtook e, fun _ => ⟨⟨_, rfl, rfl, rfl⟩, .restarting _ k rfl rfl rfl⟩⟩
  | bindAsked hs =>
    have hnext : Grows (fun ev => ev.arms = false) w w.nextId.1 := .of_eq rfl
    exact hun (hnext.trans (hsend _ _ _))
  | ignored e hs =>
    refine hun (htook e ?_)
    rcases hs with hs | hs <;> rw [hs] <;> rfl
  | bound e bind hs =>
    have hnext : Grows (fun ev => ev.arms = false) (nextStanza w lt e).1
        (nextStanza w lt e).1.nextId.1 := .of_eq rfl
    exact hun (((htook e (by rw [hs]; rfl)).trans hnext).trans (hsend _ _ _))
  | sessionStarted e hs =>
    have hbound : Grows (fun ev => ev.arms = false) (nextStanza w lt e).1
        ((nextStanza w lt e).1.signalBound lt.fullJid) := grows_signalBound rfl
    have hflush : Grows (fun ev => ev.arms = false)
        ((nextStanza w lt e).1.signalBound lt.fullJid)
        (flushQueuedStanzas ((nextStanza w lt e).1.signalBound lt.fullJid)
          (nextStanza w lt e).2).1 := grows_flush (fun _ => rfl) fun _ _ => rfl
    exact hun (((htook e (by rw [hs]; rfl)).trans hbound).trans hflush)

/-! ## The steps under protection -/

/-- What a step must show while the protection is wanted. -/
structure Protected (c : Conf) (w : World) (control : List Stmt) : Prop where
  inert : Grows Event.isInert c.state w
  between : Between w
  phase : Phase ⟨w, control⟩

theorem exec_starting {above below : List Stmt} (hb : Between w)
    (hc : s :: rest = above ++ .tlsStarted :: below) (ha : ∀ x ∈ above, x.inScope = false)
    (hr : w.exec s = some r) : Protected ⟨w, s :: rest⟩ r.1 (r.2 ++ rest) := by
  have hframe := exec_frame hr
  rcases above with - | ⟨x, above⟩
  · -- `StartTls` has been called: the login task starts again
    obtain ⟨rfl, rfl⟩ : s = .tlsStarted ∧ rest = below := by simpa using hc
    obtain ⟨lt, hl, rfl⟩ := Option.map_eq_some_iff.1 hr
    obtain ⟨lt', hl', hp, -⟩ := hb
    obtain rfl : lt = lt' := Option.some.inj (hl.symm.trans hl')
    exact ⟨.of_eq rfl, ⟨_, rfl, hp, rfl⟩, .restarting _ rest rfl rfl rfl⟩
  · obtain ⟨rfl, rfl⟩ : s = x ∧ rest = above ++ .tlsStarted :: below := by simpa using hc
    have hs : s.inScope = false := ha s List.mem_cons_self
    have hun := exec_unscoped hs hr
    refine ⟨hframe.grows.mono fun ev hev => mayEmit_unscoped hs hev, hb.of_eq hun.login, ?_⟩
    refine .starting (r.2 ++ above) below (List.append_assoc _ _ _).symm fun p hp => ?_
    rcases List.mem_append.1 hp with hp | hp
    · exact hun.push p hp
    · exact ha p (List.mem_cons_of_mem _ hp)

theorem exec_restarting (hb : Between w) (hl : w.eng.login_task = some lt) (hs : lt.state = .init)
    (hseg : Segmented (.advance :: rest)) (hr : w.exec .advance = some r) :
    Protected ⟨w, .advance :: rest⟩ r.1 (r.2 ++ rest) := by
  obtain ⟨lt₁, hl₁, hround⟩ := exec_advance hr
  obtain rfl : lt₁ = lt := Option.some.inj (hl₁.symm.trans hl)
  obtain ⟨lt₂, hl₂, hp, hst⟩ := hb
  obtain rfl : lt₁ = lt₂ := Option.some.inj (hl.symm.trans hl₂)
  obtain ⟨hb', hg⟩ := round_between hround hl hp hst
  -- the scope of the call that brought the stanza is still open
  obtain ⟨x, hx, hopen⟩ := calm_open (hseg.1 rfl)
  refine ⟨hg, hb', .raised (round_raised hround (.inr hs)) ⟨x, ?_, isScope_of_isOpen hopen⟩⟩
  exact List.mem_append_right _ hx

/-- Leaving a scope while the reset is raised: an outer one is open, or the reset is
carried out. -/
theorem leave_raised {saved : EngineState} (hb : Between w) (hraised : w.eng.raised_reset = true)
    (hseg : Segmented (.leaveScope saved :: rest))
    (htotal : total Stmt.scopes (.leaveScope saved :: rest) = w.eng.engine_entered)
    (hr : w.exec (.leaveScope saved) = some r) :
    Protected ⟨w, .leaveScope saved :: rest⟩ r.1 (r.2 ++ rest) := by
  have hg : Grows Event.isInert w r.1 :=
    (exec_frame hr).grows.mono fun ev hev => mayEmit_unscoped rfl hev
  have hun := exec_unscoped rfl hr
  refine ⟨hg, hb.of_eq hun.login, ?_⟩
  rw [total_cons, show (Stmt.leaveScope saved).scopes = 0 from rfl, Nat.zero_add] at htotal
  have hreset : (afterReset w).eng.stanza_parser_ = .init := by
    rw [afterReset, if_pos hraised]
    rfl
  have hnone : w.eng.engine_entered = 0 → ∀ s ∈ r.2 ++ rest, s.inScope = false := by
    intro he s hs
    rcases List.mem_append.1 hs with hs | hs
    · exact hun.push s hs
    · exact unscoped_of_total hseg.2 (htotal.trans he) s hs
  cases exec_leaveScope hr with
  | inner he =>
    refine .raised hraised ?_
    by_contra hno
    refine he (htotal.symm.trans (total_eq_zero fun s hs => ?_))
    cases s with
    | exitScope saved' => exact absurd ⟨_, hs, rfl⟩ hno
    | _ => rfl
  | notify he | silent he => exact .reset hreset (hnone he)

/-- A scope that is being left goes on to be left. -/
theorem exec_leaving (hs : s.isScope = true) (hn : ∀ saved, s ≠ .leaveScope saved)
    (h : w.exec s = some r) : ∃ p ∈ r.2, p.isScope = true := by
  cases s with
  | exitScope saved =>
    cases exec_exitScope h with
    | write ho hf hb => exact ⟨_, List.mem_cons_of_mem _ List.mem_cons_self, rfl⟩
    | empty | unflushed => exact ⟨_, List.mem_cons_self, rfl⟩
  | afterWrite saved closing =>
    obtain rfl := Option.some.inj h
    cases closing with
    | true => exact ⟨_, List.mem_cons_of_mem _ List.mem_cons_self, rfl⟩
    | false => exact ⟨_, List.mem_cons_self, rfl⟩
  | afterClose saved =>
    obtain rfl := Option.some.inj h
    exact ⟨_, List.mem_cons_self, rfl⟩
  | leaveScope saved => exact absurd rfl (hn saved)
  | _ => cases hs

/-- While the reset is raised the engine is deaf, and the login task stays where it is. -/
theorem exec_raised (hb : Between w) (hraised : w.eng.raised_reset = true)
    (hscope : ∃ x ∈ s :: rest, x.isScope = true)
    (hd : s.isDispatch = true → w.eng.login_task = none) (hn : ∀ saved, s ≠ .leaveScope saved)
    (hr : w.exec s = some r) : Protected ⟨w, s :: rest⟩ r.1 (r.2 ++ rest) := by
  have hframe := exec_frame hr
  have hscope' : ∃ x ∈ r.2 ++ rest, x.isScope = true := by
    obtain ⟨x, hx, hxs⟩ := hscope
    rcases List.mem_cons.1 hx with rfl | hx
    · obtain ⟨p, hp, hps⟩ := exec_leaving hxs hn hr
      exact ⟨p, List.mem_append_left _ hp, hps⟩
    · exact ⟨x, List.mem_append_right _ hx, hxs⟩
  have hkeep : s ≠ .advance → Grows Event.isInert w r.1 → Between r.1 →
      Protected ⟨w, s :: rest⟩ r.1 (r.2 ++ rest) := by
    intro hs hg hb'
    exact ⟨hg, hb', .raised ((hframe.raised_reset hs hn).trans hraised) hscope'⟩
  obtain ⟨lt, hl, hp, hst⟩ := hb
  have hdispatch : s.isDispatch = true → Protected ⟨w, s :: rest⟩ r.1 (r.2 ++ rest) := by
    intro hds
    rw [hd hds] at hl
    cases hl
  -- outside of input nothing is taken; inside, the guard stops what comes in
  by_cases hs : s.inScope = false
  · refine hkeep ?_ (hframe.grows.mono fun ev hev => mayEmit_unscoped hs hev) ?_
    · rintro rfl
      cases hs
    · exact ⟨lt, (exec_unscoped hs hr).login.trans hl, hp, hst⟩
  · cases s with
    | callback cb => cases hr
    | parse events status =>
      obtain rfl := Option.some.inj hr
      cases events <;> exact hkeep (by simp) (.of_eq rfl) ⟨lt, hl, hp, hst⟩
    | incoming ev =>
      have hblocked : w.blocked = true := by
        rw [blocked, hraised, Bool.or_true]
      obtain rfl : r = (w, []) := by
        obtain rfl := Option.some.inj hr
        rw [World.incoming, if_pos hblocked]
      exact hkeep (by simp) (.refl w) ⟨lt, hl, hp, hst⟩
    | advance =>
      obtain ⟨lt', hl', hround⟩ := exec_advance hr
      obtain rfl : lt' = lt := Option.some.inj (hl'.symm.trans hl)
      obtain ⟨hb', hg⟩ := round_between hround hl hp hst
      exact ⟨hg, hb', .raised (round_raised hround (.inl hraised)) hscope'⟩
    | tlsStarted =>
      obtain ⟨lt', hl', rfl⟩ := Option.map_eq_some_iff.1 hr
      obtain rfl : lt' = lt := Option.some.inj (hl'.symm.trans hl)
      exact hkeep (by simp) (.of_eq rfl) ⟨_, rfl, hp, rfl⟩
    | advanced =>
      obtain ⟨lt', hl', rfl⟩ := Option.map_eq_some_iff.1 hr
      obtain rfl : lt' = lt := Option.some.inj (hl'.symm.trans hl)
      exact hkeep (by simp) (.of_eq rfl) ⟨_, rfl, rfl, hst⟩
    | resetLogin =>
      obtain ⟨lt', hl', rfl⟩ := Option.map_eq_some_iff.1 hr
      obtain rfl : lt' = lt := Option.some.inj (hl'.symm.trans hl)
      -- the task waits for the new stream, so it is not dropped
      have hnot : lt'.state ≠ .done := by
        intro hdone
        rw [hdone] at hst
        cases hst
      dsimp only at hkeep ⊢
      rw [if_neg hnot] at hkeep ⊢
      exact hkeep (by simp) (.refl w) ⟨lt', hl, hp, hst⟩
    | peek | dispatch | unhandled | deleteEntry => exact hdispatch rfl
    | _ => exact absurd rfl hs

/-- Once the parser has been reset, only scopes are left. -/
theorem exec_reset (hb : Between w) (hparser : w.eng.stanza_parser_ = .init)
    (hn : ∀ x ∈ s :: rest, x.inScope = false) (hr : w.exec s = some r) :
    Protected ⟨w, s :: rest⟩ r.1 (r.2 ++ rest) := by
  have hs : s.inScope = false := hn s List.mem_cons_self
  have hun := exec_unscoped hs hr
  refine ⟨(exec_frame hr).grows.mono fun ev hev => mayEmit_unscoped hs hev,
    hb.of_eq hun.login, .reset ?_ fun p hp => ?_⟩
  · rcases hun.parser with h | h
    · exact h.trans hparser
    · exact h
  · rcases List.mem_append.1 hp with hp | hp
    · exact hun.push p hp
    · exact hn p (List.mem_cons_of_mem _ hp)

/-- A function other than `HandleInput` is called. -/
theorem entry_protected (hm : ∀ events status, m ≠ .handleInput events status)
    (hw : c.waiting engine = true) (hstart : c.state.eng.state ≠ .start) (hb : Between c.state)
    (hphase : Phase c) (h : Entry (c.state.emit (.called m)) m r) :
    Protected c r.1 (r.2 ++ c.control) := by
  have hapart := entry_apart h hm hstart
  have hframe := entry_frame h
  have hcalled : Grows Event.isInert c.state (c.state.emit (.called m)) := by
    refine .emit _ ⟨rfl, rfl, ?_⟩
    cases m <;> first | rfl | exact absurd rfl (hm _ _)
  refine ⟨hcalled.trans (hframe.grows.mono fun ev hev => entry_arms hev),
    hapart.login (hb.of_eq rfl), ?_⟩
  cases hphase with
  | starting above below hc ha =>
    refine .starting (r.2 ++ above) below ?_ fun p hp => ?_
    · exact (congrArg (r.2 ++ ·) hc).trans (List.append_assoc _ _ _).symm
    · rcases List.mem_append.1 hp with hp | hp
      · exact hapart.push p hp
      · exact ha p hp
  | restarting lt below hc hl hs =>
    rcases waiting_cases hw with hnil | ⟨f, rest, hcontrol, hf⟩
    · rw [hnil] at hc
      cases hc
    · obtain ⟨rfl, -⟩ := List.cons.inj (hcontrol.symm.trans hc)
      cases hf
  | raised hr hs =>
    obtain ⟨x, hx, hxs⟩ := hs
    exact .raised (hframe.raised_reset.trans hr) ⟨x, List.mem_append_right _ hx, hxs⟩
  | reset hp hn =>
    refine .reset (hapart.parser.trans hp) fun s hs => ?_
    rcases List.mem_append.1 hs with hs | hs
    · exact hapart.push s hs
    · exact hn s hs

/-- A handler that is no stanza handler returns: nothing is left to do. -/
theorem resume_unscoped (v : Bool) (hf : s.foreign = true) (hs : s.inScope = false) :
    World.resume s v = [] := by
  cases s with
  | callback cb => cases cb <;> first | rfl | cases hs
  | _ => cases hf

/-- A handler returns. -/
theorem resume_protected (v : Bool) (hf : s.foreign = true) (hb : Between w)
    (hphase : Phase ⟨w, s :: rest⟩) : Protected ⟨w, s :: rest⟩ w (World.resume s v ++ rest) := by
  refine ⟨.refl w, hb, ?_⟩
  cases hphase with
  | starting above below hc ha =>
    rcases above with - | ⟨x, above⟩
    · obtain ⟨rfl, -⟩ := List.cons.inj hc
      cases hf
    · obtain ⟨rfl, rfl⟩ : s = x ∧ rest = above ++ .tlsStarted :: below := by simpa using hc
      rw [resume_unscoped v hf (ha s List.mem_cons_self)]
      exact .starting above below rfl fun p hp => ha p (List.mem_cons_of_mem _ hp)
  | restarting lt below hc hl hs =>
    obtain ⟨rfl, -⟩ := List.cons.inj hc
    cases hf
  | raised hr hs =>
    obtain ⟨x, hx, hxs⟩ := hs
    rcases List.mem_cons.1 hx with rfl | hx
    · cases x with
      | callback cb => cases hxs
      | _ => cases hf
    · exact .raised hr ⟨x, List.mem_append_right _ hx, hxs⟩
  | reset hp hn =>
    rw [resume_unscoped v hf (hn s List.mem_cons_self)]
    exact .reset hp fun p hp => hn p (List.mem_cons_of_mem _ hp)

/-! ## Every run -/

/-- The history is deaf, and while the protection is wanted the reset is under way. -/
structure Guarded (c : Conf) : Prop where
  deaf : Deaf c.state.log
  between : armed c.state.log = true → Between c.state
  phase : armed c.state.log = true → Phase c

theorem Protected.guarded {control : List Stmt} (h : Protected c w control)
    (hd : Deaf c.state.log) : Guarded ⟨w, control⟩ :=
  ⟨(hd.inert h.inert).1, fun _ => h.between, fun _ => h.phase⟩

/-- A step that grants nothing, while the protection is not wanted. -/
theorem Guarded.unarmed {control : List Stmt} (hd : Deaf c.state.log)
    (hn : armed c.state.log = false) (hg : Grows (fun ev => ev.arms = false) c.state w) :
    Guarded ⟨w, control⟩ := by
  obtain ⟨hd', hn'⟩ := hd.unarmed hn hg
  have hno : armed w.log ≠ true := by simp [hn']
  exact ⟨hd', fun ha => absurd ha hno, fun ha => absurd ha hno⟩

theorem exec_guarded (h : Reachable ⟨w, s :: rest⟩) (hg : Guarded ⟨w, s :: rest⟩)
    (hr : w.exec s = some r) : Guarded ⟨r.1, r.2 ++ rest⟩ := by
  by_cases ha : armed w.log = true
  · have hb := hg.between ha
    cases hg.phase ha with
    | starting above below hc habove => exact (exec_starting hb hc habove hr).guarded hg.deaf
    | restarting lt below hc hl hs =>
      obtain ⟨rfl, -⟩ := List.cons.inj hc
      exact (exec_restarting hb hl hs (segmented_reachable h) hr).guarded hg.deaf
    | raised hraised hscope =>
      by_cases hleave : ∃ saved, s = .leaveScope saved
      · obtain ⟨saved, rfl⟩ := hleave
        exact (leave_raised hb hraised (segmented_reachable h) (entered_reachable h) hr).guarded
          hg.deaf
      · refine (exec_raised hb hraised hscope ?_ (fun saved hs => hleave ⟨saved, hs⟩) hr).guarded
          hg.deaf
        exact dispatch_reachable h s List.mem_cons_self
    | reset hparser hn => exact (exec_reset hb hparser hn hr).guarded hg.deaf
  · have hn : armed w.log = false := by simpa using ha
    by_cases hs : s = .advance
    · subst hs
      obtain ⟨lt, -, hround⟩ := exec_advance hr
      obtain ⟨hd, harmed⟩ := round_armed (k := rest) hround hg.deaf hn
      exact ⟨hd, fun ha => (harmed ha).1, fun ha => (harmed ha).2⟩
    · exact .unarmed (c := ⟨w, s :: rest⟩) hg.deaf hn
        ((exec_frame hr).grows.mono fun ev hev => mayEmit_arms hs hev)

theorem enter_guarded (h : Reachable c) (hg : Guarded c) (hw : c.waiting engine = true)
    (hrule : TopLevelInput c m) :
    Guarded ⟨(c.state.enter m).1, (c.state.enter m).2 ++ c.control⟩ := by
  have hentry := enter_entry c.state m
  by_cases hm : ∃ events status, m = .handleInput events status
  · -- the protection ends here
    obtain ⟨events, status, rfl⟩ := hm
    have hcalled : Deaf (c.state.emit (.called (.handleInput events status))).log ∧
        armed (c.state.emit (.called (.handleInput events status))).log = false := by
      refine ⟨hg.deaf.snoc fun _ => rfl, ?_⟩
      rw [emit_log, armed_snoc]
      rfl
    have hgrows : Grows (fun ev => ev.arms = false)
        (c.state.emit (.called (.handleInput events status)))
        (c.state.enter (.handleInput events status)).1 :=
      (entry_frame hentry).grows.mono fun ev hev => (entry_arms hev).2.1
    exact .unarmed (c := ⟨c.state.emit (.called (.handleInput events status)), c.control⟩)
      hcalled.1 hcalled.2 hgrows
  · have hm' : ∀ events status, m ≠ .handleInput events status :=
      fun events status heq => hm ⟨events, status, heq⟩
    by_cases ha : armed c.state.log = true
    · exact (entry_protected hm' hw (armed_started h ha) (hg.between ha) (hg.phase ha)
        hentry).guarded hg.deaf
    · have hcalled : Grows (fun ev => ev.arms = false) c.state (c.state.emit (.called m)) :=
        .emit _ rfl
      exact .unarmed hg.deaf (by simpa using ha)
        (hcalled.trans ((entry_frame hentry).grows.mono fun ev hev => (entry_arms hev).2.1))

theorem guarded_reachable (h : engine.Reaches TopLevelInput Conf.init c) : Guarded c := by
  refine Reaches.invariant (I := Guarded) h ?_ ?_
  · exact ⟨fun pre ev post heq => by simp [Conf.init, World.init] at heq,
      fun ha => absurd ha Bool.false_ne_true, fun ha => absurd ha Bool.false_ne_true⟩
  · intro c a c' hreach hg ha hs
    have hany : Reachable c := Reaches.any hreach
    rcases step_cases hs with ⟨s, rest, r, -, hcontrol, -, hr, rfl⟩ | ⟨m, rfl, hw, rfl⟩ |
      ⟨v, s, rest, -, hcontrol, hf, rfl⟩
    · obtain ⟨w, control⟩ := c
      obtain rfl : control = s :: rest := hcontrol
      exact exec_guarded hany hg hr
    · exact enter_guarded hany hg hw (ha m rfl)
    · obtain ⟨w, control⟩ := c
      obtain rfl : control = s :: rest := hcontrol
      by_cases harmed : armed w.log = true
      · exact (resume_protected v hf (hg.between harmed) (hg.phase harmed)).guarded hg.deaf
      · exact ⟨hg.deaf, fun ha => absurd ha harmed, fun ha => absurd ha harmed⟩

/-- What the parser reports while the protection is wanted is held back. -/
theorem Guarded.blocked {ev : StanzaEvent} (h : Guarded c) (ha : armed c.state.log = true)
    (hc : c.control = .incoming ev :: rest) : c.state.exec (.incoming ev) = some (c.state, []) := by
  cases h.phase ha with
  | starting above below hcontrol habove =>
    rw [hc] at hcontrol
    rcases above with - | ⟨x, above⟩
    · cases hcontrol
    · obtain ⟨rfl, -⟩ := List.cons.inj hcontrol
      cases habove _ List.mem_cons_self
  | restarting lt below hcontrol hl hs =>
    rw [hc] at hcontrol
    cases hcontrol
  | raised hr hs =>
    have hblocked : c.state.blocked = true := by
      rw [World.blocked, hr, Bool.or_true]
    show some (c.state.incoming ev) = some (c.state, [])
    rw [World.incoming, if_pos hblocked]
  | reset hp hn =>
    have hin := hn (.incoming ev) (by rw [hc]; exact List.mem_cons_self)
    cases hin

/-- When the call is over, the parser is as new. -/
theorem Guarded.parser (h : Guarded c) (ha : armed c.state.log = true) (hc : c.control = []) :
    c.state.eng.stanza_parser_ = .init := by
  cases h.phase ha with
  | starting above below hcontrol habove =>
    rw [hc] at hcontrol
    exact absurd hcontrol.symm (by simp)
  | restarting lt below hcontrol hl hs =>
    rw [hc] at hcontrol
    cases hcontrol
  | raised hr hs =>
    obtain ⟨x, hx, -⟩ := hs
    rw [hc] at hx
    cases hx
  | reset hp hn => exact hp

/-- Once the login task has processed `<proceed/>` or `<success/>`, and until
`HandleInput` is called again: nothing that the parser finds in the rest of the bytes is
delivered to the login task, to a stanza handler or to an iq entry; the engine lets
none of it through and is left by it exactly as it was; and at the end of the call the
parser has been reset. -/
theorem stream_reset {c : Conf} (h : engine.Reaches TopLevelInput Conf.init c) :
    Deaf c.state.log ∧
    (armed c.state.log = true →
      (∀ ev rest, c.control = .incoming ev :: rest →
        c.state.exec (.incoming ev) = some (c.state, [])) ∧
      (c.control = [] → c.state.eng.stanza_parser_ = .init)) :=
  have hg := guarded_reachable h
  ⟨hg.deaf, fun ha => ⟨fun _ _ hc => hg.blocked ha hc, hg.parser ha⟩⟩

/-! ## An injected answer -/

/-- The server's `<proceed/>` comes with an iq, a stream error and the end of the stream
behind it, in one buffer. -/
def injected : List Step :=
  [.call (.setOutputHandler true), .call .connect, .ret false,
    offering (tagged (str "starttls") NS_TLS []), .ret false,
    received (tagged (str "proceed") NS_TLS [] ++
      [.startElement (str "iq") [(str "type", str "result"), (str "id", str "0")],
        .endElement (str "iq"), .startElement (str "stream:error") [],
        .endElement (str "stream:error"), .endElement (str "stream:stream")]),
    .ret false, .ret false]

/-- Nothing of it arrives: the engine waits for the new stream, with a new parser. -/
theorem stream_reset_injected : ∃ c : Conf, armed c.state.log = true ∧ Deaf c.state.log ∧
    c.state.eng.state = .opening ∧ c.state.eng.stanza_parser_ = .init := by
  obtain ⟨c, hc, hp⟩ := exists_of_drive (G := TopLevelInput) (P := engine) (n := 60)
    (c := Conf.init) (l := injected)
    (p := fun c => armed c.state.log && c.control.isEmpty && c.state.eng.state = .opening)
    (by decide +kernel)
  simp only [Bool.and_eq_true, List.isEmpty_iff, decide_eq_true_eq] at hp
  obtain ⟨hdeaf, hreset⟩ := stream_reset hc
  exact ⟨c, hp.1.1, hdeaf, hp.2, (hreset hp.1.1).2 hp.1.2⟩

end Gxmpp
