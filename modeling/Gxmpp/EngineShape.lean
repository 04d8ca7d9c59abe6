/-
The shape of the control stack, in every run.

* Every open scope counts: `engine_entered` is the number of `exitScope` statements
  that are pending (`entered_reachable`).
* What treats input runs inside a scope, and between the login task and that scope
  there is no other step of the login task (`segmented_reachable`).
* Stanzas go to the application only when there is no login task any more
  (`dispatch_reachable`).
* Before `Connect` the engine is idle: it has its login task, has written nothing and
  has called nobody; and the state a scope saved is not `CLOSED`, and is not later than
  the state (`shape_reachable`).
-/
import Gxmpp.Lifecycle
import Gxmpp.LoginSteps

set_option autoImplicit false

namespace Gxmpp

open World Reentrant

/-! ## The depth counter -/

variable {r : World × List Stmt} {s : Stmt} {w w' : World} {c : Conf} {rest : List Stmt} {m : Call}
  {under : Stmt → Prop}

/-- One statement keeps the count: `exitScope` is the only one that goes down, and the
reply to an unhandled iq the only one that opens a scope. -/
theorem exec_scopes (hw : w.eng.engine_entered ≥ s.scopes) (h : w.exec s = some r) :
    total Stmt.scopes r.2 + w.eng.engine_entered = s.scopes + r.1.eng.engine_entered := by
  have hf := exec_frame h
  have hpush : (∀ stanza, s ≠ .unhandled stanza) → total Stmt.scopes r.2 = 0 :=
    fun hn => total_eq_zero fun p hp => (exec_push h p hp).scopes hn
  cases s with
  | unhandled stanza =>
    obtain rfl := Option.some.inj h
    rcases unhandled_cases w stanza with h | ⟨-, v, hv, h⟩ <;> rw [h]
    · rfl
    · simp only [hv.frame.2, total_cons, total_nil, Stmt.scopes]
      omega
  | exitScope saved =>
    rw [hpush (by simp)]
    simp only [Stmt.scopes] at hw ⊢
    have : r.1.eng.engine_entered = w.eng.engine_entered - 1 := by
      cases exec_exitScope h <;> rfl
    omega
  | _ =>
    rw [hpush (by simp), hf.engine_entered (by simp) (by simp)]
    rfl

theorem enter_scopes (w : World) (m : Call) :
    total Stmt.scopes (w.enter m).2 + w.eng.engine_entered = (w.enter m).1.eng.engine_entered := by
  have hsig : ∀ (v : World) code sub,
      (v.signalError code sub).eng.engine_entered = v.eng.engine_entered :=
    fun v code sub => (LoginFrame.signalError v code sub).engine_entered
  have key : ∀ (v : World) (r : World × List Stmt), Entry v m r →
      total Stmt.scopes r.2 + v.eng.engine_entered = r.1.eng.engine_entered := by
    intro v r h
    cases h with
    | refused | removed => simp [Stmt.scopes]
    | configured m eng hm hs hu | stored m eng status hm hu => simp [Stmt.scopes, hu.engine_entered]
    | connect lt hs hl => simp [Stmt.scopes, enterExit, setLogin, Nat.add_comm]
    | connectDone | handleInput | inputStopped => simp [Stmt.scopes, enterExit, Nat.add_comm]
    | connectionClosed subcode code sub hc hs =>
      simp [Stmt.scopes, hsig, enterExit, Nat.add_comm]
    | sent m e v' hs hm hv => simp [Stmt.scopes, hv.frame.2, Nat.add_comm]
    | sentIq e h v' hs hb hv =>
      simp [Stmt.scopes, hv.frame.2, Nat.add_comm, registerIq]
    | sendRaw text hs hl => simp [Stmt.scopes, enterExit, write, Nat.add_comm]
    | disconnect hs =>
      simp only [total_cons, total_nil, Stmt.scopes, set_eng]
      split <;> simp [enterExit, write, Nat.add_comm]
  exact key (w.emit (.called m)) _ (enter_entry w m)

/-- `engine_entered` is the number of scopes that are open. -/
theorem entered_reachable (h : Reachable c) :
    total Stmt.scopes c.control = c.state.eng.engine_entered := by
  refine Reaches.invariant (I := fun c => total Stmt.scopes c.control = c.state.eng.engine_entered)
    h rfl ?_
  intro c a c' _ hc _ hs
  refine gauge_step (q := fun w => w.eng.engine_entered) hc hs ?_ enter_scopes ?_
  · exact fun w s t push hw hr => exec_scopes hw hr
  · intro w s v hf
    have hz : total Stmt.scopes (World.resume s v) = 0 :=
      total_eq_zero fun p hp => Stmt.scopes_of_isInput (resume_input hp)
    cases s with
    | callback cb => exact congrArg (· + w.eng.engine_entered) hz
    | _ => cases hf

/-! ## Input runs inside a scope -/

/-- The steps of the login task that can write. -/
def Stmt.isLogin : Stmt → Bool
  | .advance | .tlsStarted => true
  | _ => false

/-- An open scope. -/
def Stmt.isOpen : Stmt → Bool
  | .exitScope _ => true
  | _ => false

/-- Going down the stack, an open scope comes before the next step of the login task. -/
def Calm : List Stmt → Prop
  | [] => False
  | s :: rest => s.isOpen = true ∨ (s.isLogin = false ∧ Calm rest)

/-- The statements that treat input, and the handler that is in the middle of it.
`startedTls` is the one that does not count: the login task goes on under it. -/
def Stmt.inScope : Stmt → Bool
  | .callback (.handleStanza _ _ _ _) => true
  | .startedTls => false
  | s => s.isInput

/-- Every statement that treats input has a scope under it. -/
def Segmented : List Stmt → Prop
  | [] => True
  | s :: rest => (s.inScope = true → Calm rest) ∧ Segmented rest

theorem Segmented.cons (h : Segmented rest) (hs : s.inScope = false) : Segmented (s :: rest) :=
  ⟨fun ht => absurd ht (by simp [hs]), h⟩

theorem Segmented.append {push : List Stmt} (h : Segmented rest)
    (hp : ∀ p ∈ push, p.inScope = false) : Segmented (push ++ rest) := by
  induction push with
  | nil => exact h
  | cons p push ih =>
    exact (ih fun x hx => hp x (List.mem_cons_of_mem _ hx)).cons (hp p List.mem_cons_self)

/-- A statement keeps the segments. -/
theorem exec_segmented (h : Segmented (s :: rest)) (hr : w.exec s = some r) :
    Segmented (r.2 ++ rest) := by
  have hpush := exec_push hr
  have hout : (∀ p ∈ r.2, p.inScope = false) → Segmented (r.2 ++ rest) := h.2.append
  cases s with
  | callback cb => cases hr
  | exitScope saved =>
    refine hout fun p hp => ?_
    cases exec_exitScope hr <;>
      simp only [callOut, List.mem_cons, List.not_mem_nil, or_false] at hp
    · rcases hp with rfl | rfl <;> rfl
    · exact hp ▸ rfl
    · exact hp ▸ rfl
  | afterWrite saved closing =>
    refine hout fun p hp => ?_
    obtain rfl := Option.some.inj hr
    cases closing <;>
      simp only [afterWrite, callOut, if_true, Bool.false_eq_true, if_false, List.mem_cons,
        List.not_mem_nil, or_false] at hp
    · exact hp ▸ rfl
    · rcases hp with rfl | rfl <;> rfl
  | afterClose saved =>
    refine hout fun p hp => ?_
    obtain rfl := Option.some.inj hr
    exact List.mem_singleton.1 hp ▸ rfl
  | leaveScope saved =>
    refine hout fun p hp => ?_
    cases exec_leaveScope hr <;>
      simp only [callOut, List.mem_cons, List.not_mem_nil, or_false] at hp
    exact hp ▸ rfl
  | returned | startedTls | deleteEntry =>
    obtain rfl := Option.some.inj hr
    exact h.2
  | parse events status =>
    have hc : Calm rest := h.1 rfl
    obtain rfl := Option.some.inj hr
    cases events with
    | nil =>
      simp only [parse]
      split
      · exact ⟨fun _ => hc, h.2⟩
      · exact h.2
    | cons ev events =>
      have hlast : Segmented (.parse events status :: rest) := ⟨fun _ => hc, h.2⟩
      simp only [parse]
      cases (w.eng.stanza_parser_.expatEvent ev).2 with
      | none => exact hlast
      | some e => exact ⟨fun _ => .inr ⟨rfl, hc⟩, hlast⟩
  | incoming ev =>
    have hc : Calm rest := h.1 rfl
    cases exec_incoming hr with
    | blocked | streamError | error => exact h.2
    -- `advance`, `advanced` and `resetLogin` run one after another, and nothing between them
    | login lt e isStart hb hl =>
      refine ⟨fun _ => .inr ⟨rfl, .inr ⟨rfl, hc⟩⟩, fun _ => .inr ⟨rfl, hc⟩, fun _ => hc, h.2⟩
    | response stanza entry hb hl hev hn ht hi hf =>
      exact Segmented.cons ⟨fun _ => hc, h.2⟩ rfl
    | dispatch stanza hb hl hev => exact ⟨fun _ => hc, h.2⟩
  | advance =>
    have hc : Calm rest := h.1 rfl
    obtain ⟨lt, -, hround⟩ := exec_advance hr
    -- a round ends, goes on, or calls `StartTls` and goes on after it
    rcases (round_frame hround).2 with h' | h' | h' | ⟨d, h'⟩ <;> rw [h']
    · exact h.2
    · exact ⟨fun _ => hc, h.2⟩
    · exact ⟨fun _ => hc, h.2⟩
    · exact Segmented.cons (Segmented.cons ⟨fun _ => hc, h.2⟩ rfl) rfl
  | tlsStarted =>
    have hc : Calm rest := h.1 rfl
    obtain ⟨lt, -, rfl⟩ := Option.map_eq_some_iff.1 hr
    exact ⟨fun _ => hc, h.2⟩
  | advanced | resetLogin =>
    obtain ⟨lt, -, rfl⟩ := Option.map_eq_some_iff.1 hr
    exact h.2
  | peek stanza i =>
    have hc : Calm rest := h.1 rfl
    obtain rfl := Option.some.inj hr
    rw [peek]
    split <;> exact ⟨fun _ => hc, h.2⟩
  | dispatch stanza level i =>
    have hc : Calm rest := h.1 rfl
    obtain rfl := Option.some.inj hr
    rw [dispatch]
    split
    · exact ⟨fun _ => hc, h.2⟩
    · split <;> exact ⟨fun _ => hc, h.2⟩
  | unhandled stanza =>
    obtain rfl := Option.some.inj hr
    rcases unhandled_cases w stanza with h' | ⟨-, v, hv, h'⟩ <;> rw [h']
    · exact h.2
    · exact ⟨fun hs => (Bool.false_ne_true hs).elim, h.2⟩

/-- The entry of a function keeps the segments: what treats input is pushed with its
scope under it. -/
theorem entry_segmented {control : List Stmt} (h : Segmented control) (he : Entry w m r) :
    Segmented (r.2 ++ control) := by
  cases he with
  | connect lt hs hl =>
    exact ⟨fun _ => .inr ⟨rfl, .inr ⟨rfl, .inl rfl⟩⟩, fun _ => .inr ⟨rfl, .inl rfl⟩,
      fun _ => .inl rfl, (h.cons rfl).cons rfl⟩
  | handleInput events status hs =>
    exact ⟨fun _ => .inl rfl, (h.cons rfl).cons rfl⟩
  | _ => exact h.append (by simp [Stmt.inScope, Stmt.isInput])

theorem resume_segmented (v : Bool) (h : Segmented (s :: rest)) :
    Segmented (World.resume s v ++ rest) := by
  unfold World.resume
  split
  · exact ⟨fun _ => h.1 rfl, h.2⟩
  · split
    · exact h.2
    · exact ⟨fun _ => h.1 rfl, h.2⟩
  · exact h.2

theorem segmented_reachable (h : Reachable c) : Segmented c.control := by
  refine Reaches.invariant (I := fun c : Conf => Segmented c.control) h trivial ?_
  intro c a c' _ hc _ hs
  rcases step_cases hs with ⟨s, rest, r, -, hcontrol, -, hr, rfl⟩ | ⟨m, -, -, rfl⟩ |
    ⟨v, s, rest, -, hcontrol, -, rfl⟩
  · rw [hcontrol] at hc
    exact exec_segmented hc hr
  · exact entry_segmented hc (enter_entry c.state m)
  · rw [hcontrol] at hc
    exact resume_segmented v hc

theorem isScope_of_isOpen (h : s.isOpen = true) : s.isScope = true := by
  cases s <;> first | rfl | cases h

theorem calm_open {l : List Stmt} (h : Calm l) : ∃ s ∈ l, s.isOpen = true := by
  induction l with
  | nil => cases h
  | cons s l ih =>
    rcases h with hs | ⟨-, h⟩
    · exact ⟨s, List.mem_cons_self, hs⟩
    · obtain ⟨x, hx, hsc⟩ := ih h
      exact ⟨x, List.mem_cons_of_mem _ hx, hsc⟩

/-- Where no scope is open, no input is pending. -/
theorem unscoped_of_total {l : List Stmt} (h : Segmented l) (hz : total Stmt.scopes l = 0) :
    ∀ s ∈ l, s.inScope = false := by
  induction l with
  | nil => exact List.forall_mem_nil _
  | cons x l ih =>
    rw [total_cons] at hz
    have hl := ih h.2 (by omega)
    intro s hs
    rcases List.mem_cons.1 hs with rfl | hs
    · by_contra hn
      obtain ⟨y, hy, hyo⟩ := calm_open (h.1 (by simpa using hn))
      have hle := total_le_of_mem (w := Stmt.scopes) hy
      cases y with
      | exitScope saved =>
        rw [show (Stmt.exitScope saved).scopes = 1 from rfl] at hle
        omega
      | _ => cases hyo
    · exact hl s hs

/-! ## Dispatch comes after the login -/

/-- The statements that have to do with a stanza for the application. -/
def Stmt.isDispatch : Stmt → Bool
  | .peek _ _ | .dispatch _ _ _ | .unhandled _ | .deleteEntry _
  | .callback (.handleStanza _ _ _ _) | .callback (.iqResponse _ _) => true
  | _ => false

theorem mayPush_dispatch {p : Stmt} (h : s.mayPush p = true) (hd : s.isDispatch = false)
    (hi : ∀ ev, s ≠ .incoming ev) : p.isDispatch = false := by
  cases s with
  | incoming ev => exact absurd rfl (hi ev)
  | callback cb => exact absurd h Bool.false_ne_true
  | _ =>
    cases p with
    | callback cb => cases cb <;> first | rfl | exact absurd h Bool.false_ne_true | cases hd
    | _ => first | rfl | exact absurd h Bool.false_ne_true | cases hd

/-- What pushes such a statement is one, or found no login task. -/
theorem exec_dispatch (h : w.exec s = some r) :
    (∀ p ∈ r.2, p.isDispatch = false) ∨ s.isDispatch = true ∨ w.eng.login_task = none := by
  by_cases hi : ∃ ev, s = .incoming ev
  · obtain ⟨ev, rfl⟩ := hi
    cases exec_incoming h with
    | blocked | streamError | error => exact .inl fun p hp => absurd hp List.not_mem_nil
    | login lt e isStart hb hl =>
      exact .inl (by simp [XmppLoginTask.incomingStanza, Stmt.isDispatch])
    | response stanza entry hb hl | dispatch stanza hb hl => exact .inr (.inr hl)
  · by_cases hd : s.isDispatch = true
    · exact .inr (.inl hd)
    · refine .inl fun p hp => mayPush_dispatch (exec_mayPush h p hp) (by simpa using hd) ?_
      exact fun ev hs => hi ⟨ev, hs⟩

theorem entry_undispatched (h : Entry w m r) : ∀ p ∈ r.2, p.isDispatch = false := by
  cases h <;> simp [Stmt.isDispatch]

/-- A login task that is gone does not come back. -/
theorem TaskStep.none (h : TaskStep w w') (hn : w.eng.login_task = none) :
    w'.eng.login_task = none := by
  cases h with
  | change hc hs hg =>
    cases hc with
    | kept h => exact h.trans hn
    | given lt element isStart hl | restarted lt hl =>
      rw [hn] at hl
      cases hl
    | dropped lt hl hs h => exact h
  | sent v e hl hs hg hv =>
    cases hv with
    | queued lt hlt =>
      rw [hl, hn] at hlt
      cases hlt
    | through hlt => exact hlt

/-- Stanzas go to the application only when there is no login task any more. -/
theorem dispatch_reachable (h : Reachable c) :
    ∀ s ∈ c.control, s.isDispatch = true → c.state.eng.login_task = none := by
  refine Reaches.invariant (I := fun c : Conf => ∀ s ∈ c.control, s.isDispatch = true →
    c.state.eng.login_task = none) h (List.forall_mem_nil _) ?_
  intro c a c' _ hc _ hs
  have hstay : c.state.eng.login_task = none → c'.state.eng.login_task = none := by
    intro hn
    rcases step_task hs with htask | ⟨lt, rest, r, -, hl, -⟩
    · exact htask.none hn
    · rw [hn] at hl
      cases hl
  rcases step_cases hs with ⟨s, rest, r, -, hcontrol, -, hr, rfl⟩ | ⟨m, -, -, rfl⟩ |
    ⟨v, s, rest, -, hcontrol, hf, rfl⟩
  · rw [hcontrol] at hc
    intro p hp hd
    rcases List.mem_append.1 hp with hp | hp
    · rcases exec_dispatch hr with hno | hyes | hn
      · rw [hno p hp] at hd
        cases hd
      · exact hstay (hc s List.mem_cons_self hyes)
      · exact hstay hn
    · exact hstay (hc p (List.mem_cons_of_mem _ hp) hd)
  · intro p hp hd
    rcases List.mem_append.1 hp with hp | hp
    · have hinput := entry_undispatched (enter_entry c.state m) p hp
      rw [hinput] at hd
      cases hd
    · exact hstay (hc p hp hd)
  · rw [hcontrol] at hc
    intro p hp hd
    rcases List.mem_append.1 hp with hp | hp
    · refine hstay (hc s List.mem_cons_self ?_)
      cases s with
      | callback cb => cases cb <;> first | rfl | cases hp
      | _ => cases hf
    · exact hstay (hc p (List.mem_cons_of_mem _ hp) hd)

/-! ## Before `Connect`, and what a scope saved -/

/-- The login task did something, something was written, or a handler was called. -/
def Event.isTraffic : Event → Bool
  | .callback _ => true
  | ev => ev.byLogin

/-- An engine that has not been started. -/
structure Idle (w : World) : Prop where
  login : ∃ lt, w.eng.login_task = some lt ∧ lt.state = .init ∧ lt.authNeeded = true
  output : w.eng.output = []
  log : ∀ ev ∈ w.log, ev.isTraffic = false

/-- The state that a pending scope statement carries. -/
def Stmt.saved : Stmt → Option EngineState
  | .exitScope saved | .afterWrite saved _ | .afterClose saved | .leaveScope saved => some saved
  | _ => none

/-- What a pending statement says about the state. -/
structure FrameShape (w : World) (s : Stmt) : Prop where
  saved : ∀ st, s.saved = some st →
    st ≠ .closed ∧ EngineState.start.rank ≤ st.rank ∧ st.rank ≤ w.eng.state.rank
  started : w.eng.state = .start → s.isInput = false ∧ s.foreign = false

/-- The engine is idle before `Connect`; scopes save earlier states than the present
one. -/
def shapeInv : Invariant World Stmt where
  global w := EngineState.start.rank ≤ w.eng.state.rank ∧ (w.eng.state = .start → Idle w)
  frame := FrameShape
  below _ _ := True

theorem state_start (hg : EngineState.start.rank ≤ w.eng.state.rank) (hf : Forward w w')
    (h : w'.eng.state = .start) : w.eng.state = .start := by
  have hr := hf.rank
  rw [h] at hr
  cases hs : w.eng.state <;> simp_all [EngineState.rank]

/-- A step that moves the state forward keeps what pending statements say. -/
theorem FrameShape.mono (hg : EngineState.start.rank ≤ w.eng.state.rank) (hf : Forward w w')
    (h : FrameShape w s) : FrameShape w' s where
  saved st hst := by
    obtain ⟨hc, hl, hu⟩ := h.saved st hst
    exact ⟨hc, hl, Nat.le_trans hu hf.rank⟩
  started hs := h.started (state_start hg hf hs)

/-- The rule for `shapeInv`: the engine, and the statements pushed. -/
theorem shapeInv_preserved {push : List Stmt} (h : shapeInv.global w) (hf : Forward w w')
    (hi : w'.eng.state = .start → Idle w') (hp : ∀ p ∈ push, FrameShape w' p) :
    shapeInv.Preserved w w' push under where
  global := ⟨Nat.le_trans h.1 hf.rank, hi⟩
  frame := hp
  below := List.pairwise_of_forall_mem_list fun _ _ _ _ => trivial
  rest _ hl _ := ⟨hl.mono h.1 hf, fun _ _ => trivial⟩

/-- The state of a scope opened where the engine is not closed. -/
theorem frameShape_exitScope (hg : EngineState.start.rank ≤ w.eng.state.rank) (hf : Forward w w')
    (hc : w.eng.state ≠ .closed) : FrameShape w' (.exitScope w.eng.state) where
  saved st hst := by
    obtain rfl := Option.some.inj hst
    exact ⟨hc, hg, hf.rank⟩
  started _ := ⟨rfl, rfl⟩

theorem Idle.emit {e : Event} (h : Idle w) (he : e.isTraffic = false) : Idle (w.emit e) where
  login := h.login
  output := h.output
  log x hx := by
    rcases List.mem_append.1 hx with hx | hx
    · exact h.log x hx
    · rw [List.mem_singleton.1 hx]
      exact he

/-- What a scope statement pushes carries the state that it carries. -/
theorem exec_saved {p : Stmt} (h : w.exec s = some r) (hs : s.isScope = true) (hp : p ∈ r.2) :
    p.saved = none ∨ p.saved = s.saved := by
  cases s with
  | exitScope saved =>
    cases exec_exitScope h <;>
      simp only [callOut, List.mem_cons, List.not_mem_nil, or_false] at hp
    · rcases hp with rfl | rfl
      · exact .inl rfl
      · exact .inr rfl
    · exact .inr (hp ▸ rfl)
    · exact .inr (hp ▸ rfl)
  | afterWrite saved closing =>
    obtain rfl := Option.some.inj h
    cases closing <;>
      simp only [World.afterWrite, callOut, if_true, Bool.false_eq_true, if_false, List.mem_cons,
        List.not_mem_nil, or_false] at hp
    · exact .inr (hp ▸ rfl)
    · rcases hp with rfl | rfl
      · exact .inl rfl
      · exact .inr rfl
  | afterClose saved =>
    obtain rfl := Option.some.inj h
    exact .inr (List.mem_singleton.1 hp ▸ rfl)
  | leaveScope saved =>
    cases exec_leaveScope h <;>
      simp only [callOut, List.mem_cons, List.not_mem_nil, or_false] at hp
    exact .inl (hp ▸ rfl)
  | _ => cases hs

/-- An idle engine can only leave scopes and return. -/
theorem exec_idle (hstart : w.eng.state = .start) (hidle : Idle w) (hs : FrameShape w s)
    (hclosing : s.isClosing = true → w.eng.state = .closed) (hr : w.exec s = some r) :
    Idle r.1 ∧ ∀ p ∈ r.2, p.isInput = false ∧ p.foreign = false := by
  obtain ⟨hinput, hforeign⟩ := hs.started hstart
  have hnotclosed : w.eng.state ≠ .closed := by simp [hstart]
  cases s with
  | callback cb => cases hforeign
  | exitScope saved =>
    cases exec_exitScope hr with
    | write ho hf hb => exact absurd hidle.output hb
    | empty | unflushed =>
      exact ⟨{ hidle with }, by simp [Stmt.isInput, Stmt.foreign]⟩
  | afterWrite saved closing =>
    obtain rfl := Option.some.inj hr
    cases closing with
    | true => exact absurd (hclosing rfl) hnotclosed
    | false =>
      exact ⟨⟨hidle.login, rfl, hidle.log⟩, by simp [afterWrite, Stmt.isInput, Stmt.foreign]⟩
  | afterClose saved => exact absurd (hclosing rfl) hnotclosed
  | leaveScope saved =>
    have hreset : Idle (afterReset w) := by
      rcases afterReset_eq w with h | ⟨-, h⟩ <;> rw [h]
      · exact hidle
      · exact { hidle with }
    cases exec_leaveScope hr with
    | inner he => exact ⟨hidle, by simp⟩
    | notify he hh hne =>
      obtain ⟨-, hl, hu⟩ := hs.saved saved rfl
      rw [hstart] at hu hne
      cases saved <;> simp_all [EngineState.rank]
    | silent he hn => exact ⟨hreset, by simp⟩
  | returned m status =>
    obtain rfl := Option.some.inj hr
    exact ⟨hidle.emit rfl, by simp⟩
  | _ => cases hinput

theorem exec_shape (h : shapeInv.global w) (hs : FrameShape w s)
    (hclosing : s.isClosing = true → w.eng.state = .closed) (hr : w.exec s = some r) :
    shapeInv.Preserved w r.1 r.2 under := by
  have hf := (exec_frame hr).forward
  refine shapeInv_preserved h hf (fun hst => ?_) fun p hp => ⟨fun st hst => ?_, fun hst => ?_⟩
  · have hstart := state_start h.1 hf hst
    exact (exec_idle hstart (h.2 hstart) hs hclosing hr).1
  · cases hscope : s.isScope with
    | true =>
      rcases exec_saved hr hscope hp with hn | heq
      · rw [hn] at hst
        cases hst
      · obtain ⟨hc, hl, hu⟩ := hs.saved st (heq ▸ hst)
        exact ⟨hc, hl, Nat.le_trans hu hf.rank⟩
    | false =>
      have hps : p.isScope = true := by cases p <;> first | rfl | cases hst
      rcases (exec_push hr p hp).scope hps with hsc | ⟨hc, rfl, -⟩
      · rw [hscope] at hsc
        cases hsc
      · exact (frameShape_exitScope h.1 hf hc).saved st hst
  · have hstart := state_start h.1 hf hst
    exact (exec_idle hstart (h.2 hstart) hs hclosing hr).2 p hp

/-- A setter, a send or a removal does not start the engine. -/
theorem entry_idle (hidle : Idle w) (h : Entry w m r) (hst : r.1.eng.state = .start) :
    Idle r.1 := by
  have hsent : ∀ {v u : World} {e : XmlElement}, Idle v → Sent v e u → Idle u := by
    intro v u e hv hu
    obtain ⟨lt, hl, hls, hla⟩ := hv.login
    cases hu with
    | queued lt' hl' =>
      rw [hl'] at hl
      obtain rfl := Option.some.inj hl
      exact ⟨⟨_, rfl, hls, hla⟩, hv.output, (hv.emit (e := .accepted e) rfl).log⟩
    | through hn =>
      rw [hn] at hl
      cases hl
  cases h with
  | refused m status h => exact hidle
  | configured m eng hm hs hu | stored m eng status hm hu =>
    exact ⟨by rw [set_eng, hu.login_task]; exact hidle.login, hu.output.trans hidle.output,
      hidle.log⟩
  | connect | connectDone | disconnect => cases hst
  | handleInput events status hs | inputStopped events status hs =>
    rcases hs with hs | hs <;> exact absurd (hs.symm.trans hst) (by simp)
  | connectionClosed subcode code sub hc hs =>
    dsimp only at hst
    rw [signalError, if_pos (show w.enterExit.eng.state ≠ .closed from hs)] at hst
    cases hst
  | sent m e v hs hm hv => exact hsent hidle hv
  | sentIq e h v hs hb hv =>
    exact hsent (v := registerIq w (iqEntry w e h))
      ⟨hidle.login, hidle.output, (hidle.emit (e := .iqCreated (iqEntry w e h)) rfl).log⟩ hv
  | sendRaw text hs hl =>
    obtain ⟨lt, hlt, -⟩ := hidle.login
    rw [hlt] at hl
    cases hl
  | removed cookie entry hf =>
    exact ⟨hidle.login, hidle.output, (hidle.emit (e := .iqFreed entry) rfl).log⟩

theorem enter_shape (h : shapeInv.global w) (m : Call) :
    shapeInv.Preserved w (w.enter m).1 (w.enter m).2 under := by
  have hentry := enter_entry w m
  have hframe := entry_frame hentry
  have hf : Forward w (w.enter m).1 :=
    (Forward.of_eq rfl rfl : Forward w (w.emit (.called m))).trans hframe.forward
  refine shapeInv_preserved h hf (fun hst => ?_) fun p hp => ⟨fun st hst => ?_, fun hst => ?_⟩
  · have hstart := state_start h.1 hf hst
    exact entry_idle ((h.2 hstart).emit rfl) hentry hst
  · have hps : p.isScope = true := by cases p <;> first | rfl | cases hst
    obtain ⟨hc, rfl⟩ := hframe.scope p hp hps
    exact (frameShape_exitScope h.1 hf hc).saved st hst
  · have hstart := state_start h.1 hf hst
    constructor
    · by_contra hi
      exact (hframe.input p hp (by simpa using hi)).1 hst
    · have := hframe.called p hp
      cases p <;> first | rfl | exact absurd rfl (this _)

/-- The engine is idle before `Connect`, and every pending scope saved a state that is
not `CLOSED` and not later than the present one. -/
theorem shape_reachable (h : Reachable c) : shapeInv.Holds c := by
  refine Reaches.invariant (I := shapeInv.Holds) h ?_ ?_
  · refine ⟨⟨Nat.le_refl _, fun _ => ⟨⟨_, rfl, rfl, rfl⟩, rfl, ?_⟩⟩, ?_, List.Pairwise.nil⟩
    · exact List.forall_mem_nil _
    · exact List.forall_mem_nil _
  · intro c a c' hreach hc ha hs
    refine hc.step hs ?_ ?_ ?_
    · intro s w' push _ hhead hg hframe hr
      have hmem : s ∈ c.control := List.mem_of_mem_head? hhead
      have hclose := (closeProtocol_reachable hreach).holds.frame s hmem
      exact exec_shape hg hframe (fun hcl => (hclose hcl).1) hr
    · exact fun m _ hg => enter_shape hg m
    · intro s v _ _ hg hframe hf
      refine shapeInv_preserved hg (.refl _) hg.2 fun p hp => ⟨fun st hst => ?_, fun hst => ?_⟩
      · have hi := resume_input hp
        have hn : p.saved = none := by cases p <;> first | rfl | cases hi
        rw [hn] at hst
        cases hst
      · have := (hframe.started hst).2
        rw [show s.foreign = true from hf] at this
        cases this

end Gxmpp
