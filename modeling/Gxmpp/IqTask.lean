/-
`talk/xmpp/iqtask.cc`: a request and its answer, as a task of the runner.

The runner is that of `TaskRunner`, with any tasks in it. One of them is the `IqTask`: its
`Process` is the code here (`process`), its `HandleStanza` may be called whenever the client is
running, and what it calls may call anything: the sending of the stanza, the handler of the
result, and what is connected to its signals. While one of these runs, the `Process` of the task
is in progress for the runner, so a run of the whole is a run of the runner (`IqConf.project`),
and what is known of the lives of tasks is known of this one.

The constructor sets a timeout; here any may be set at any time.
-/
import Gxmpp.IqMatch
import Gxmpp.TaskLifecycle

set_option autoImplicit false

namespace Gxmpp

open Reentrant TalkBase

def XMPP_RETURN_OK : Int := 0

/-! ## 1. The task -/

/-- What an `IqTask` has, but the queue: its number as a task, where the request goes, and its
id. -/
structure IqTask where
  task : TaskId
  to_ : Jid
  task_id : Str

/-- How an answer comes: a response is processed, or the timeout fires. -/
inductive IqAnswer where
  | response (stanza : XmlElement)
  | timeout

/-- What is told of it. -/
inductive IqReport where
  | handleResult (stanza : XmlElement)
  | signalError (error : Option XmlElement)

/-- The runner, the queue of the task, and what happened: the stanzas that came, when the client
had which JID, the answers, and the calls of `HandleResult` and `SignalError`. -/
structure IqState where
  runner : TaskRunner
  stanza_queue_ : List XmlElement
  arrived : List (Jid × XmlElement)
  answers : List IqAnswer
  reports : List IqReport

/-- A pending statement: of the runner, or in the `Process` of the task. -/
inductive IqStmt where
  | runner (x : RunnerStmt)
  /-- the timeout is cleared -/
  | onTimeout
  /-- `SendStanza` runs -/
  | sendStanza
  /-- `HandleResult` runs -/
  | handleResult
  /-- what is connected to the task's `SignalError` runs, in `OnTimeout` or in
  `ProcessResponse` -/
  | signalError (timeout : Bool)
  /-- what is connected to `SignalTimeout` runs -/
  | signalTimeout
deriving DecidableEq

/-- A function of the runner or its tasks is called, or a stanza comes. -/
inductive IqCall where
  | runner (m : RunnerCall)
  | stanza (me : Jid) (stanza : XmlElement)

namespace IqTask

variable (q : IqTask)

/-- Whether `IqTask::HandleStanza` takes the stanza. -/
def takes (me : Jid) (stanza : XmlElement) : Bool :=
  XmppTask.takesResponse me stanza q.to_ q.task_id

/-- `Process` returns. -/
def returns (s : IqState) (newstate : Int) : IqState × List IqStmt :=
  let r := s.runner.processed q.task newstate
  ({ s with runner := r.1 }, r.2.map .runner)

/-- `IqTask::ProcessResponse`, up to its first call. -/
def processResponse (s : IqState) : IqState × List IqStmt :=
  match s.stanza_queue_ with
  | [] => q.returns s STATE_BLOCKED
  | stanza :: rest =>
    let s :=
      { s with
        stanza_queue_ := rest
        answers := s.answers ++ [IqAnswer.response stanza] }
    if stanza.attr QN_TYPE = STR_RESULT then
      ({ s with reports := s.reports ++ [IqReport.handleResult stanza] }, [.handleResult])
    else
      ({ s with reports := s.reports ++ [IqReport.signalError (stanza.firstNamed QN_ERROR)] },
        [.signalError false])

/-- `Task::Process` of the task, up to its first call. -/
def process (s : IqState) : IqState × List IqStmt :=
  if s.runner.timedOut q.task then
    let r := s.runner.clearTimeout q.task
    ({ s with runner := r.1 }, r.2.map .runner ++ [.onTimeout])
  else
    let state := (s.runner.heap q.task).state_
    if state = STATE_INIT then q.returns s STATE_START
    else if state = STATE_START then (s, [.sendStanza])
    else if state = STATE_RESPONSE then q.processResponse s
    else if state = STATE_DONE ∨ state = STATE_ERROR then q.returns s STATE_BLOCKED
    else q.returns s STATE_ERROR

/-- Executes a statement. -/
def exec (s : IqState) : IqStmt → Option (IqState × List IqStmt)
  | .runner (.process _) => some (q.process s)
  | .runner x => (s.runner.exec x).map fun r => ({ s with runner := r.1 }, r.2.map .runner)
  | .onTimeout =>
    some ({ s with
      answers := s.answers ++ [IqAnswer.timeout]
      reports := s.reports ++ [IqReport.signalError none] }, [.signalError true])
  | .sendStanza | .handleResult | .signalError _ | .signalTimeout => none

/-- Whether the client is running. The `Process` of another task is the client's. -/
def foreign : IqStmt → Bool
  | .runner (.process u) => u ≠ q.task
  | .runner x => TaskRunner.foreign x
  | .onTimeout => false
  | .sendStanza | .handleResult | .signalError _ | .signalTimeout => true

/-- What becomes of an answer. -/
def resume (s : IqState) : IqStmt → Int → IqState × List IqStmt
  | .runner x, v =>
    let r := s.runner.resume x v
    -- `XmppTask::StopImpl` empties the queue
    let queue := if x = .stopping q.task then [] else s.stanza_queue_
    ({ s with
      runner := r.1
      stanza_queue_ := queue }, r.2.map .runner)
  | .sendStanza, v => q.returns s (if v = XMPP_RETURN_OK then STATE_RESPONSE else STATE_ERROR)
  -- `XmppTask::OnTimeout` is that of `Task`, and returns `STATE_DONE`
  | .signalError true, _ => (s, [.signalTimeout])
  | .signalError false, _ | .handleResult, _ | .signalTimeout, _ => q.returns s STATE_DONE
  | .onTimeout, _ => (s, [])

/-- `IqTask::HandleStanza`, with `XmppTask::QueueStanza`. -/
def handleStanza (s : IqState) (me : Jid) (stanza : XmlElement) : IqState × List IqStmt :=
  let s := { s with arrived := s.arrived ++ [(me, stanza)] }
  if q.takes me stanza then
    let r := s.runner.wake q.task
    ({ s with
      runner := r.1
      stanza_queue_ := s.stanza_queue_ ++ [stanza] }, r.2.map .runner)
  else (s, [])

/-- The entry of a function. -/
def enter (s : IqState) : IqCall → IqState × List IqStmt
  | .runner m =>
    let r := s.runner.enter m
    ({ s with runner := r.1 }, r.2.map .runner)
  | .stanza me stanza => q.handleStanza s me stanza

/-- The runner with the task in it, as a component. The answers are those of the `Process` of
other tasks and of `SendStanza`. -/
def component : Component IqState IqStmt IqCall Int where
  exec := q.exec
  foreign := q.foreign
  resume := q.resume
  enter := q.enter

end IqTask

/-- A configuration of the whole. -/
abbrev IqConf := Config IqState IqStmt

/-- A new runner, at rest. -/
def IqConf.init : IqConf := ⟨⟨TaskRunner.init, [], [], [], []⟩, []⟩

/-- A statement, for the runner. -/
def IqTask.inRunner (q : IqTask) : IqStmt → RunnerStmt
  | .runner x => x
  | _ => .process q.task

/-- What the runner has of a configuration. -/
def IqTask.project (q : IqTask) (c : IqConf) : RunnerConf :=
  ⟨c.state.runner, c.control.map q.inRunner⟩

/-- The rules of a run: those of the runner, and a stanza comes to a task that exists. -/
def IqTask.Rules (q : IqTask) : Reentrant.Rules IqState IqStmt IqCall := fun c m =>
  match m with
  | .runner m => TaskRules (q.project c) m
  | .stanza _ _ => TaskRules (q.project c) (.wake q.task)

instance (q : IqTask) (c : IqConf) : ∀ m : IqCall, Decidable (q.Rules c m)
  | .runner m => inferInstanceAs (Decidable (TaskRules (q.project c) m))
  | .stanza _ _ => inferInstanceAs (Decidable (TaskRules (q.project c) (.wake q.task)))

/-- Something that is told of the answer runs. -/
def IqStmt.isReporting : IqStmt → Bool
  | .handleResult | .signalError _ | .signalTimeout => true
  | .runner _ | .onTimeout | .sendStanza => false

/-! ## 2. What the runner sees -/

/-- From the first configuration to the second, the lives of the tasks go on. -/
def LivesOn (r r' : RunnerConf) : Prop := Tended r → Tended r' ∧ r.state.log <+: r'.state.log

theorem LivesOn.refl (r : RunnerConf) : LivesOn r r := fun h => ⟨h, List.prefix_refl _⟩

theorem livesOn_of_step {r r' : RunnerConf} {a : Act RunnerCall Int} (ha : a.Allowed TaskRules r)
    (hs : taskRunner.step r a = some r') : LivesOn r r' := by
  intro h
  exact ⟨h.step ha hs, reaches_log (Relation.ReflTransGen.single ⟨a, ha, hs⟩)⟩

/-- A task whose `Process` is in progress may clear its timeout. -/
theorem livesOn_clearTimeout {r : RunnerConf} {t : TaskId} {rest : List RunnerStmt}
    (hc : r.control = .process t :: rest) :
    LivesOn r ⟨(r.state.clearTimeout t).1, (r.state.clearTimeout t).2 ++ r.control⟩ := by
  intro h
  have hw : r.waiting taskRunner = true := waiting_of_head (by
    intro x hx
    rw [hc] at hx
    obtain rfl := Option.some.inj hx
    rfl)
  have hs : taskRunner.step r (.call (.clearTimeout t))
      = some ⟨(r.state.clearTimeout t).1, (r.state.clearTimeout t).2 ++ r.control⟩ := by
    unfold Component.step
    dsimp only
    rw [hw, if_pos rfl]
    rfl
  have ht : t < r.state.unique_id_seed_ :=
    (h.holds.frame (.process t) (by rw [hc]; exact List.mem_cons_self)).1
  refine ⟨⟨?_, ?_⟩, TaskRunner.enter_log r.state (.clearTimeout t)⟩
  · exact h.holds.push hw (TaskRunner.timers_preserved h.holds.global
      (TaskRunner.clearTimeout_timers r.state t) (TaskRunner.updateTaskTimeout_push _ _ _))
  · intro d
    refine (h.debts d).step hs nofun ?_ nofun
    rintro m hm hd
    obtain rfl := Act.call.inj hm
    refine TaskRunner.enter_owed h.holds.global ?_ hd
    rintro u hu
    obtain rfl := Option.some.inj hu
    exact ht

/-- What is done stays done. -/
theorem LivesOn.done {r r' : RunnerConf} (h : LivesOn r r') (hr : Tended r) {t : TaskId}
    (hdone : (r.state.heap t).done_ = true) : (r'.state.heap t).done_ = true :=
  hr.stays_done (h hr).1 (h hr).2 hdone

namespace IqTask

variable {q : IqTask} {c c' : IqConf}

@[simp] theorem map_inRunner (push : List RunnerStmt) :
    (push.map IqStmt.runner).map q.inRunner = push := by
  rw [List.map_map]
  exact List.map_id push

variable {x : IqStmt} {rest : List IqStmt}

/-- Where the client is running, the client of the runner is. -/
theorem foreign_inRunner (h : q.foreign x = true) : TaskRunner.foreign (q.inRunner x) = true := by
  cases x with
  | runner x =>
    cases x with
    | process u => rfl
    | _ => exact h
  | onTimeout => cases h
  | _ => rfl

theorem waiting_project (h : c.waiting q.component = true) :
    (q.project c).waiting taskRunner = true := by
  rcases waiting_cases h with hnil | ⟨x, rest, hc, hx⟩
  · refine waiting_of_head ?_
    intro y hy
    unfold project at hy
    rw [hnil] at hy
    cases hy
  · refine waiting_of_head ?_
    intro y hy
    unfold project at hy
    rw [hc] at hy
    obtain rfl := Option.some.inj hy
    exact foreign_inRunner hx

/-- A function of the runner is called. -/
theorem livesOn_call {m : RunnerCall} (hw : c.waiting q.component = true)
    (hm : TaskRules (q.project c) m) :
    LivesOn (q.project c) ⟨(c.state.runner.enter m).1,
      (c.state.runner.enter m).2 ++ (q.project c).control⟩ := by
  refine livesOn_of_step (a := .call m) ?_ ?_
  · rintro m' hm'
    obtain rfl := Act.call.inj hm'
    exact hm
  · unfold Component.step
    dsimp only
    rw [waiting_project hw, if_pos rfl]
    rfl

/-- A statement of the runner is executed. -/
theorem livesOn_exec {x : RunnerStmt} {r : TaskRunner × List RunnerStmt}
    (hc : c.control = .runner x :: rest) (hx : TaskRunner.foreign x = false)
    (hr : c.state.runner.exec x = some r) :
    LivesOn (q.project c) ⟨r.1, r.2 ++ rest.map q.inRunner⟩ := by
  refine livesOn_of_step (a := .tick) nofun ?_
  unfold Component.step project
  rw [hc]
  dsimp only
  show (if TaskRunner.foreign x = true then none else
    (c.state.runner.exec x).map fun r => (⟨r.1, r.2 ++ rest.map q.inRunner⟩ : RunnerConf)) = _
  rw [hx, if_neg Bool.false_ne_true, hr]
  rfl

/-- The client of the runner returns. -/
theorem livesOn_resume (hc : c.control = x :: rest)
    (hx : TaskRunner.foreign (q.inRunner x) = true) (v : Int) :
    LivesOn (q.project c) ⟨(c.state.runner.resume (q.inRunner x) v).1,
      (c.state.runner.resume (q.inRunner x) v).2 ++ rest.map q.inRunner⟩ := by
  refine livesOn_of_step (a := .ret v) nofun ?_
  unfold Component.step project
  rw [hc]
  dsimp only
  rw [List.map_cons]
  dsimp only
  show (if TaskRunner.foreign (q.inRunner x) = true then some (_ : RunnerConf) else none) = _
  rw [hx, if_pos rfl]
  rfl

/-! ## 3. What a step does -/

/-- What is told of the answer is not yet told. -/
def Reporting (c : IqConf) : Prop := ∃ x ∈ c.control, x.isReporting = true

theorem reporting_rest {push : List IqStmt} {s : IqState} (h : Reporting c)
    (hc : c.control = x :: rest) (hx : x.isReporting = false) : Reporting ⟨s, push ++ rest⟩ := by
  obtain ⟨y, hy, hreporting⟩ := h
  rw [hc] at hy
  rcases List.mem_cons.1 hy with rfl | hy
  · rw [hx] at hreporting
    cases hreporting
  · exact ⟨y, List.mem_append_right _ hy, hreporting⟩

/-- The shapes of a step. -/
inductive IqStep (q : IqTask) (c c' : IqConf) : Prop where
  /-- nothing is told; what was being told is still, or the task is done -/
  | quiet (hruns : LivesOn (q.project c) (q.project c'))
      (harrived : ∀ a ∈ c.state.arrived, a ∈ c'.state.arrived)
      (hqueue : ∀ e ∈ c'.state.stanza_queue_, e ∈ c.state.stanza_queue_ ∨
        ∃ me, (me, e) ∈ c'.state.arrived ∧ q.takes me e = true)
      (hanswers : c'.state.answers = c.state.answers)
      (hreports : c'.state.reports = c.state.reports)
      (hends : Tended (q.project c) → Reporting c →
        Reporting c' ∨ (c'.state.runner.heap q.task).done_ = true)
  /-- in the `Process` of the task, an answer is told -/
  | reported (answer : IqAnswer) (report : IqReport) (hruns : q.project c' = q.project c)
      (hhead : ∃ x rest, c.control = x :: rest ∧ q.inRunner x = .process q.task ∧
        x.isReporting = false)
      (harrived : c'.state.arrived = c.state.arrived)
      (hqueue : ∀ e ∈ c'.state.stanza_queue_, e ∈ c.state.stanza_queue_)
      (hanswers : c'.state.answers = c.state.answers ++ [answer])
      (hreports : c'.state.reports = c.state.reports ++ [report])
      (hresult : ∀ stanza, report = .handleResult stanza →
        stanza ∈ c.state.stanza_queue_ ∧ stanza.attr QN_TYPE = STR_RESULT)
      (hreporting : Reporting c')

/-- `Process` comes back with the answer that the task is done. -/
theorem returns_done (hc : c.control = x :: rest) (hx : q.inRunner x = .process q.task)
    (h : Tended (q.project c)) :
    ((q.returns c.state STATE_DONE).1.runner.heap q.task).done_ = true := by
  have hmem : .process q.task ∈ (q.project c).control := by
    unfold project
    rw [hc]
    exact List.mem_cons.2 (.inl hx.symm)
  have hframe := h.holds.frame _ hmem
  have hprocessed := TaskRunner.processed_processed (r := c.state.runner) (t := q.task) STATE_DONE
    (h.holds.global.undone q.task hframe.2.1)
  show ((c.state.runner.processed q.task STATE_DONE).1.heap q.task).done_ = true
  generalize c.state.runner.processed q.task STATE_DONE = s at hprocessed
  cases hprocessed with
  | aborted _ _ _ hdone | ended _ _ _ hdone => exact hdone
  | goesOn _ _ hend _ _ => exact absurd rfl hend.1

/-- `Process` comes back. -/
theorem returns_step (hc : c.control = x :: rest) (hx : q.inRunner x = .process q.task) (v : Int)
    (hv : x.isReporting = true → v = STATE_DONE) :
    IqStep q c ⟨(q.returns c.state v).1, (q.returns c.state v).2 ++ rest⟩ := by
  refine .quiet ?_ (fun _ ha => ha) (fun _ he => .inl he) rfl rfl ?_
  · have hlives := livesOn_resume (q := q) hc (by rw [hx]; rfl) v
    rw [hx] at hlives
    unfold project returns
    dsimp only
    rw [List.map_append, map_inRunner]
    exact hlives
  · intro htended hreporting
    cases hxr : x.isReporting with
    | true =>
      right
      rw [hv hxr]
      exact returns_done hc hx htended
    | false => exact .inl (reporting_rest hreporting hc hxr)

/-- `ProcessResponse`, up to its first call. -/
theorem processResponse_step (hc : c.control = .runner (.process q.task) :: rest) :
    IqStep q c ⟨(q.processResponse c.state).1, (q.processResponse c.state).2 ++ rest⟩ := by
  have hproject : ∀ (s : IqState) (x : IqStmt), s.runner = c.state.runner →
      q.inRunner x = .process q.task → q.project ⟨s, [x] ++ rest⟩ = q.project c := by
    intro s x hs hx
    unfold project
    rw [hc, hs, List.singleton_append, List.map_cons, List.map_cons, hx]
    rfl
  unfold processResponse
  cases hqueue : c.state.stanza_queue_ with
  | nil =>
    exact returns_step hc rfl STATE_BLOCKED nofun
  | cons stanza queue =>
    dsimp only
    have hlater : ∀ e ∈ queue, e ∈ c.state.stanza_queue_ := by
      intro e he
      rw [hqueue]
      exact List.mem_cons_of_mem _ he
    by_cases htype : stanza.attr QN_TYPE = STR_RESULT
    · rw [if_pos htype]
      refine .reported (.response stanza) (.handleResult stanza) (hproject _ _ rfl rfl)
        ⟨_, rest, hc, rfl, rfl⟩ rfl hlater rfl rfl ?_ ⟨.handleResult, List.mem_cons_self, rfl⟩
      intro e he
      obtain rfl := IqReport.handleResult.inj he
      refine ⟨?_, htype⟩
      rw [hqueue]
      exact List.mem_cons_self
    · rw [if_neg htype]
      exact .reported (.response stanza) (.signalError _) (hproject _ _ rfl rfl)
        ⟨_, rest, hc, rfl, rfl⟩ rfl hlater rfl rfl nofun
        ⟨.signalError false, List.mem_cons_self, rfl⟩

/-- `Process` of the task, up to its first call. -/
theorem process_step (hc : c.control = .runner (.process q.task) :: rest) :
    IqStep q c ⟨(q.process c.state).1, (q.process c.state).2 ++ rest⟩ := by
  unfold process
  by_cases htimeout : c.state.runner.timedOut q.task = true
  · rw [if_pos htimeout]
    refine .quiet ?_ (fun _ ha => ha) (fun _ he => .inl he) rfl rfl ?_
    · -- the `Process` goes on in `OnTimeout`
      have hcontrol : (q.project c).control = .process q.task :: rest.map q.inRunner := by
        unfold project
        rw [hc]
        rfl
      have hlives := livesOn_clearTimeout hcontrol
      rw [hcontrol] at hlives
      unfold project at hlives ⊢
      dsimp only
      rw [List.map_append, List.map_append, map_inRunner, List.append_assoc]
      exact hlives
    · intro _ hreporting
      exact .inl (reporting_rest hreporting hc rfl)
  rw [if_neg htimeout]
  dsimp only
  by_cases hinit : (c.state.runner.heap q.task).state_ = STATE_INIT
  · rw [if_pos hinit]
    exact returns_step hc rfl STATE_START nofun
  rw [if_neg hinit]
  by_cases hstart : (c.state.runner.heap q.task).state_ = STATE_START
  · rw [if_pos hstart]
    refine .quiet ?_ (fun _ ha => ha) (fun _ he => .inl he) rfl rfl ?_
    · have hsame : q.project ⟨c.state, [.sendStanza] ++ rest⟩ = q.project c := by
        unfold project
        rw [hc]
        rfl
      rw [hsame]
      exact .refl _
    · intro _ hreporting
      exact .inl (reporting_rest hreporting hc rfl)
  rw [if_neg hstart]
  by_cases hresponse : (c.state.runner.heap q.task).state_ = STATE_RESPONSE
  · rw [if_pos hresponse]
    exact processResponse_step hc
  rw [if_neg hresponse]
  by_cases hend : (c.state.runner.heap q.task).state_ = STATE_DONE ∨
      (c.state.runner.heap q.task).state_ = STATE_ERROR
  · rw [if_pos hend]
    exact returns_step hc rfl STATE_BLOCKED nofun
  · rw [if_neg hend]
    exact returns_step hc rfl STATE_ERROR nofun

/-- A statement is executed. -/
theorem exec_step {r : IqState × List IqStmt} (hc : c.control = x :: rest)
    (hx : q.foreign x = false) (hr : q.exec c.state x = some r) :
    IqStep q c ⟨r.1, r.2 ++ rest⟩ := by
  cases x with
  | runner x =>
    cases hprocess : x.isProcess with
    | true =>
      cases x with
      | process u =>
        have hu : u = q.task := by simpa [foreign] using hx
        obtain rfl := Option.some.inj hr
        exact process_step (by rw [hc, hu])
      | _ => cases hprocess
    | false =>
      -- a statement of the runner
      have hexec : (c.state.runner.exec x).map (fun r =>
          (({ c.state with runner := r.1 } : IqState), r.2.map IqStmt.runner)) = some r := by
        cases x with
        | process u => cases hprocess
        | _ => exact hr
      have hforeign : TaskRunner.foreign x = false := by
        cases x with
        | process u => cases hprocess
        | _ => exact hx
      obtain ⟨r', hr', rfl⟩ := Option.map_eq_some_iff.1 hexec
      refine .quiet ?_ (fun _ ha => ha) (fun _ he => .inl he) rfl rfl ?_
      · have hlives := livesOn_exec (q := q) hc hforeign hr'
        unfold project at hlives ⊢
        dsimp only
        rw [List.map_append, map_inRunner]
        exact hlives
      · intro _ hreporting
        exact .inl (reporting_rest hreporting hc rfl)
  | onTimeout =>
    obtain rfl := Option.some.inj hr
    refine .reported .timeout (.signalError none) ?_ ⟨_, rest, hc, rfl, rfl⟩ rfl
      (fun _ he => he) rfl rfl nofun ⟨.signalError true, List.mem_cons_self, rfl⟩
    unfold project
    rw [hc]
    rfl
  | sendStanza | handleResult | signalError | signalTimeout => cases hx

/-- The client returns. -/
theorem resume_step (hc : c.control = x :: rest) (hx : q.foreign x = true) (v : Int) :
    IqStep q c ⟨(q.resume c.state x v).1, (q.resume c.state x v).2 ++ rest⟩ := by
  cases x with
  | runner x =>
    refine .quiet ?_ (fun _ ha => ha) ?_ rfl rfl ?_
    · have hlives := livesOn_resume (q := q) hc (foreign_inRunner hx) v
      unfold project at hlives ⊢
      unfold resume
      dsimp only
      rw [List.map_append, map_inRunner]
      exact hlives
    · intro e he
      left
      unfold resume at he
      dsimp only at he
      by_cases hstop : x = .stopping q.task
      · rw [if_pos hstop] at he
        cases he
      · rw [if_neg hstop] at he
        exact he
    · intro _ hreporting
      exact .inl (reporting_rest hreporting hc rfl)
  | onTimeout => cases hx
  | sendStanza => exact returns_step hc rfl _ nofun
  | handleResult | signalTimeout => exact returns_step hc rfl STATE_DONE fun _ => rfl
  | signalError timeout =>
    cases timeout with
    | false => exact returns_step hc rfl STATE_DONE fun _ => rfl
    | true =>
      -- the task goes on to signal the timeout
      refine .quiet ?_ (fun _ ha => ha) (fun _ he => .inl he) rfl rfl ?_
      · have hsame : q.project ⟨c.state, [.signalTimeout] ++ rest⟩ = q.project c := by
          unfold project
          rw [hc]
          rfl
        show LivesOn (q.project c) (q.project ⟨c.state, [.signalTimeout] ++ rest⟩)
        rw [hsame]
        exact .refl _
      · intro _ _
        exact .inl ⟨.signalTimeout, List.mem_cons_self, rfl⟩

/-- A function is called, or a stanza comes. -/
theorem enter_step {m : IqCall} (hw : c.waiting q.component = true) (hm : q.Rules c m) :
    IqStep q c ⟨(q.enter c.state m).1, (q.enter c.state m).2 ++ c.control⟩ := by
  have hstays : ∀ (s : IqState) (push : List IqStmt), Reporting c →
      Reporting ⟨s, push ++ c.control⟩ := by
    rintro s push ⟨x, hx, hreporting⟩
    exact ⟨x, List.mem_append_right _ hx, hreporting⟩
  cases m with
  | runner m =>
    refine .quiet ?_ (fun _ ha => ha) (fun _ he => .inl he) rfl rfl
      fun _ hreporting => .inl (hstays _ _ hreporting)
    have hlives := livesOn_call hw hm
    unfold project at hlives ⊢
    unfold enter
    dsimp only
    rw [List.map_append, map_inRunner]
    exact hlives
  | stanza me stanza =>
    have hlives := livesOn_call hw hm
    unfold enter handleStanza
    dsimp only
    have harrives : ∀ a ∈ c.state.arrived, a ∈ c.state.arrived ++ [(me, stanza)] :=
      fun a ha => List.mem_append_left _ ha
    by_cases htakes : q.takes me stanza = true
    · rw [if_pos htakes]
      refine .quiet ?_ harrives ?_ rfl rfl fun _ hreporting => .inl (hstays _ _ hreporting)
      · unfold project at hlives ⊢
        dsimp only
        rw [List.map_append, map_inRunner]
        exact hlives
      · intro e he
        rcases List.mem_append.1 he with he | he
        · exact .inl he
        · obtain rfl := List.mem_singleton.1 he
          exact .inr ⟨me, List.mem_append_right _ (List.mem_singleton_self _), htakes⟩
    · rw [if_neg htakes]
      exact .quiet (.refl _) harrives (fun _ he => .inl he) rfl rfl
        fun _ hreporting => .inl (hstays _ _ hreporting)

/-- Every step has one of the shapes. -/
theorem iq_step {a : Act IqCall Int} (ha : a.Allowed q.Rules c)
    (hs : q.component.step c a = some c') : IqStep q c c' := by
  rcases Reentrant.step_cases hs with ⟨x, rest, r, -, hc, hx, hr, rfl⟩ | ⟨m, hm, hw, rfl⟩ |
    ⟨v, x, rest, -, hc, hx, rfl⟩
  · exact exec_step hc hx hr
  · exact enter_step hw (ha m hm)
  · exact resume_step hc hx v

/-! ## 4. Every run -/

/-- A stanza that the task takes answers its request. -/
theorem takes_answers {me : Jid} {stanza : XmlElement} (h : q.takes me stanza = true) :
    stanza.attr QN_ID = q.task_id ∧ XmppTask.matchStanzaFrom me stanza q.to_ = true := by
  have hmatch := (Bool.and_eq_true_iff.1 h).1
  unfold XmppTask.matchResponseIq at hmatch
  by_cases hname : stanza.name ≠ QN_IQ
  · rw [if_pos hname] at hmatch
    cases hmatch
  rw [if_neg hname] at hmatch
  by_cases hid : stanza.attr QN_ID ≠ q.task_id
  · rw [if_pos hid] at hmatch
    cases hmatch
  rw [if_neg hid] at hmatch
  exact ⟨not_not.1 hid, hmatch⟩

/-- What is true of the task between any two statements. -/
structure Told (q : IqTask) (c : IqConf) : Prop where
  tended : Tended (q.project c)
  queue : ∀ e ∈ c.state.stanza_queue_, ∃ me, (me, e) ∈ c.state.arrived ∧ q.takes me e = true
  each : c.state.reports.length = c.state.answers.length
  once : c.state.reports.length ≤ 1
  ends : c.state.reports ≠ [] →
    Reporting c ∨ (c.state.runner.heap q.task).done_ = true
  result : ∀ stanza, .handleResult stanza ∈ c.state.reports →
    stanza.attr QN_TYPE = STR_RESULT ∧
      ∃ me, (me, stanza) ∈ c.state.arrived ∧ q.takes me stanza = true

theorem inRunner_reporting (h : x.isReporting = true) : q.inRunner x = .process q.task := by
  cases x with
  | handleResult | signalError | signalTimeout => rfl
  | runner | onTimeout | sendStanza => cases h

/-- In the `Process` of the task, before anything is told, nothing was told: there is one
`Process` at most, and none of a task that is done. -/
theorem Told.untold (h : Told q c) (hc : c.control = x :: rest)
    (hx : q.inRunner x = .process q.task) (hquiet : x.isReporting = false) :
    c.state.reports = [] := by
  have hcontrol : (q.project c).control = .process q.task :: rest.map q.inRunner := by
    unfold project
    rw [hc, List.map_cons, hx]
  by_contra hne
  rcases h.ends hne with ⟨y, hy, hreporting⟩ | hdone
  · rw [hc] at hy
    rcases List.mem_cons.1 hy with rfl | hy
    · rw [hquiet] at hreporting
      cases hreporting
    · have hbelow := h.tended.holds.below
      rw [hcontrol] at hbelow
      have hmem : .process q.task ∈ rest.map q.inRunner :=
        List.mem_map.2 ⟨y, hy, inRunner_reporting hreporting⟩
      have htwo := ((List.pairwise_cons.1 hbelow).1 _ hmem).2 rfl
      cases htwo
  · have hmem : .process q.task ∈ (q.project c).control := by
      rw [hcontrol]
      exact List.mem_cons_self
    have hframe := h.tended.holds.frame _ hmem
    have hundone := h.tended.holds.global.undone q.task hframe.2.1
    have hdone' : ((q.project c).state.heap q.task).done_ = true := hdone
    rw [hundone] at hdone'
    cases hdone'

theorem told_init (q : IqTask) : Told q IqConf.init where
  tended := tended_init
  queue := nofun
  each := rfl
  once := Nat.zero_le 1
  ends h := absurd rfl h
  result := nofun

theorem Told.step (h : Told q c) (hs : IqStep q c c') : Told q c' := by
  cases hs with
  | quiet hruns harrived hqueue hanswers hreports hends =>
    refine ⟨(hruns h.tended).1, ?_, ?_, ?_, ?_, ?_⟩
    · intro e he
      rcases hqueue e he with hold | hnew
      · obtain ⟨me, hme, htakes⟩ := h.queue e hold
        exact ⟨me, harrived _ hme, htakes⟩
      · exact hnew
    · rw [hreports, hanswers]
      exact h.each
    · rw [hreports]
      exact h.once
    · intro hne
      rw [hreports] at hne
      rcases h.ends hne with hreporting | hdone
      · exact hends h.tended hreporting
      · exact .inr (hruns.done h.tended hdone)
    · intro stanza hmem
      rw [hreports] at hmem
      obtain ⟨htype, me, hme, htakes⟩ := h.result stanza hmem
      exact ⟨htype, me, harrived _ hme, htakes⟩
  | reported answer report hruns hhead harrived hqueue hanswers hreports hresult hreporting =>
    obtain ⟨x, rest, hc, hx, hquiet⟩ := hhead
    have hnone := h.untold hc hx hquiet
    have hone : c'.state.reports = [report] := by rw [hreports, hnone, List.nil_append]
    refine ⟨?_, ?_, ?_, ?_, ?_, ?_⟩
    · rw [hruns]
      exact h.tended
    · intro e he
      rw [harrived]
      exact h.queue e (hqueue e he)
    · rw [hreports, hanswers, List.length_append, List.length_append, h.each]
      rfl
    · rw [hone]
      exact Nat.le_refl 1
    · intro _
      exact .inl hreporting
    · intro stanza hmem
      rw [hone, List.mem_singleton] at hmem
      obtain ⟨hwaiting, htype⟩ := hresult stanza hmem.symm
      rw [harrived]
      exact ⟨htype, h.queue stanza hwaiting⟩

theorem told_of_reaches (h : q.component.Reaches q.Rules IqConf.init c) : Told q c :=
  Reaches.invariant h (told_init q) fun _ _ _ _ hI ha hs => hI.step (iq_step ha hs)

/-- What is told of the answer to the request, in every run. -/
structure ReportsOnce (q : IqTask) (c : IqConf) : Prop where
  once : c.state.reports.length ≤ 1
  /-- a result is a stanza that came, is one, and answers the request -/
  result : ∀ stanza, .handleResult stanza ∈ c.state.reports →
    stanza.attr QN_TYPE = STR_RESULT ∧ stanza.attr QN_ID = q.task_id ∧
      ∃ me, (me, stanza) ∈ c.state.arrived ∧ XmppTask.matchStanzaFrom me stanza q.to_ = true
  /-- nothing is told but of an answer -/
  unanswered : c.state.answers = [] → c.state.reports = []
  /-- an answer is told, and then the task is done -/
  answered : c.state.answers ≠ [] → c.state.reports.length = 1 ∧
    (Reporting c ∨ (c.state.runner.heap q.task).done_ = true)

/-- An `IqTask` reports at most once, and exactly once if its request was answered. -/
theorem iq_task_reports_once (h : q.component.Reaches q.Rules IqConf.init c) :
    ReportsOnce q c := by
  have htold := told_of_reaches h
  refine ⟨htold.once, ?_, ?_, ?_⟩
  · intro stanza hmem
    obtain ⟨htype, me, hme, htakes⟩ := htold.result stanza hmem
    obtain ⟨hid, hfrom⟩ := takes_answers htakes
    exact ⟨htype, hid, me, hme, hfrom⟩
  · intro hnone
    have heach := htold.each
    rw [hnone] at heach
    exact List.length_eq_zero_iff.1 heach
  · intro hne
    have hpos : 0 < c.state.reports.length := by
      rw [htold.each]
      exact List.length_pos_iff.2 hne
    have honce := htold.once
    exact ⟨by omega, htold.ends (List.length_pos_iff.1 hpos)⟩

/-- The request "7", the first task of a runner. -/
def request : IqTask := ⟨0, Jid.empty, str "7"⟩

/-- Its result. -/
def requestResult : XmlElement :=
  ((XmlElement.new QN_IQ false).addAttr QN_TYPE STR_RESULT).addAttr QN_ID (str "7")

/-- The task is made and started, and runs until it has sent the request; the result comes
twice, and it runs again. -/
def resultTwice : List (Act IqCall Int) :=
  [.call (.runner (.construct none 0)), .call (.runner (.setTimeoutSeconds 0 15)),
    .call (.runner (.start 0)), .ret 0, .call (.runner .runTasks), .ret XMPP_RETURN_OK, .ret 0,
    .call (.stanza Jid.empty requestResult), .ret 0,
    .call (.stanza Jid.empty requestResult), .call (.runner .runTasks), .ret 0, .ret 0, .ret 0,
    .ret 0]

theorem iq_task_reports_once_twice : ∃ c : IqConf, c.control = [] ∧ c.state.arrived.length = 2 ∧
    c.state.reports.length = 1 ∧ ReportsOnce request c := by
  obtain ⟨c, hc, hp⟩ := exists_of_drive (P := request.component) (G := request.Rules) (n := 60)
    (l := resultTwice) (c := IqConf.init)
    (p := fun c => c.control.isEmpty && c.state.arrived.length = 2 && c.state.reports.length = 1)
    (by decide +kernel)
  simp only [Bool.and_eq_true, List.isEmpty_iff, decide_eq_true_eq] at hp
  exact ⟨c, hp.1.1, hp.1.2, hp.2, iq_task_reports_once hc⟩

end IqTask

end Gxmpp
