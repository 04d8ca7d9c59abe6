/-
`talk/base/task.cc`, `taskparent.cc` and `taskrunner.cc`: a runner and its tree of tasks.

What a task does is left open. `Process` and `Stop` are virtual, and so are the runner's
`WakeTasks` and `OnTimeoutChange`; while one of them runs, any function of the tasks and of
the runner may be called. So the model is a component (`taskRunner`) whose pending work is a
stack of statements (`RunnerStmt`), and its client answers `Process` and makes the calls.
An override of `Stop` calls `Task::Stop` once, and may run code before and after it.

A `Task*` is a number; a task that was deleted keeps its record, with `deleted` set, and a
statement that uses it is a fault. A child set is listed in the order of its addresses. Ids do
not wrap around. The destructor of a derived class is taken to call nothing, so a sweep of the
runner is one step.
-/
import Gxmpp.Reentrant

set_option autoImplicit false

namespace Gxmpp.TalkBase

open Reentrant

/-! ## 1. The state -/

def STATE_BLOCKED : Int := -1
def STATE_INIT : Int := 0
def STATE_START : Int := 1
def STATE_DONE : Int := 2
def STATE_ERROR : Int := 3
def STATE_RESPONSE : Int := 4
def STATE_NEXT : Int := 5

def kSecToMsec : Int := 1000
def kMsecTo100ns : Int := 10000

/-- A `Task*`. -/
abbrev TaskId := Nat

/-- What a `Task` has for its timeout. -/
structure Timer where
  timeout_time_ : Int
  timeout_seconds_ : Int
  timeout_suspended_ : Bool
  /-- what the clock said at the last `ResetTimeout`, for stating properties -/
  reset_time : Int

/-- `Task`, with its `TaskParent`. -/
structure Task where
  /-- no parent: the runner is -/
  parent_ : Option TaskId
  children_ : List TaskId
  child_error_ : Bool
  state_ : Int
  blocked_ : Bool
  done_ : Bool
  aborted_ : Bool
  busy_ : Bool
  error_ : Bool
  start_time_ : Int
  timer : Timer
  /-- `delete` was called for it -/
  deleted : Bool
  /-- `Wake` or `Error` was called, when it was not done, since its last step, for stating
  properties -/
  woken : Bool
  /-- `Error` was called when it was not done, for stating properties -/
  failed : Bool

/-- What happens to a task, for stating properties. -/
inductive TaskEvent where
  /-- `Process` is called -/
  | process (t : TaskId)
  /-- `Stop` is called -/
  | stop (t : TaskId)
  /-- `Abort` is called, and the task is not done -/
  | abort (t : TaskId)
deriving DecidableEq

/-- `TaskRunner`, with the tasks and the clock. -/
structure TaskRunner where
  /-- the tasks -/
  heap : TaskId → Task
  /-- the number of tasks that were made -/
  unique_id_seed_ : TaskId
  children_ : List TaskId
  child_error_ : Bool
  tasks_ : List TaskId
  next_timeout_task_ : Option TaskId
  tasks_running_ : Bool
  /-- what `CurrentTime` says -/
  now : Int
  log : List TaskEvent

/-- The points at which a function goes on. -/
inductive RunnerStmt where
  /-- `Process` runs -/
  | process (t : TaskId)
  /-- an override of `Stop` runs, before `Task::Stop` -/
  | stopping (t : TaskId)
  /-- `Task::Stop` -/
  | taskStop (t : TaskId)
  /-- `TaskParent::OnStopped`, with the children that are still to be aborted -/
  | onStopped (t : TaskId) (copy : List TaskId)
  /-- an override of `Stop` runs, after `Task::Stop` -/
  | stopped (t : TaskId)
  /-- `TaskParent::AbortAllChildren`, with the children that are still to be aborted -/
  | abortChildren (copy : List TaskId)
  /-- in `Step`, after `Stop` -/
  | blockAfterStop (t : TaskId)
  /-- `WakeTasks` runs -/
  | wakeTasks
  /-- `OnTimeoutChange` runs -/
  | onTimeoutChange
  /-- the loops of `InternalRunTasks`, at index `i` -/
  | runLoop (i : Nat) (did_run : Bool) (previous_timeout_time : Int)
  /-- the end of `InternalRunTasks` -/
  | runEnd
  /-- the loop of `PollTasks` -/
  | poll (old_timeout_task : Option TaskId)
deriving DecidableEq

/-- What can be called, and the passing of time. -/
inductive RunnerCall where
  /-- a task is made; `position` is where its address puts it among the children -/
  | construct (parent : Option TaskId) (position : Nat)
  | start (t : TaskId)
  | abort (t : TaskId) (nowake : Bool)
  | wake (t : TaskId)
  | error (t : TaskId)
  | abortAllChildren (t : TaskId)
  | setTimeoutSeconds (t : TaskId) (timeout_seconds : Int)
  | resetTimeout (t : TaskId)
  | clearTimeout (t : TaskId)
  | suspendTimeout (t : TaskId)
  | resumeTimeout (t : TaskId)
  | runTasks
  | pollTasks
  | clock (now : Int)

/-- A new task. -/
def Task.new (parent : Option TaskId) : Task where
  parent_ := parent
  children_ := []
  child_error_ := false
  state_ := STATE_INIT
  blocked_ := false
  done_ := false
  aborted_ := false
  busy_ := false
  error_ := false
  start_time_ := 0
  timer := ⟨0, 0, false, 0⟩
  deleted := false
  woken := false
  failed := false

namespace TaskRunner

/-- A runner without tasks. -/
def init : TaskRunner where
  heap _ := Task.new none
  unique_id_seed_ := 0
  children_ := []
  child_error_ := false
  tasks_ := []
  next_timeout_task_ := none
  tasks_running_ := false
  now := 0
  log := []

/-- A task is changed in place. -/
def set (r : TaskRunner) (t : TaskId) (task : Task) : TaskRunner :=
  { r with heap := fun u => if u = t then task else r.heap u }

/-- Records an event. -/
def emit (r : TaskRunner) (ev : TaskEvent) : TaskRunner := { r with log := r.log ++ [ev] }

/-- The child set of a task, or of the runner. -/
def childrenOf (r : TaskRunner) : Option TaskId → List TaskId
  | none => r.children_
  | some p => (r.heap p).children_

/-- A child set is changed. -/
def setChildren (r : TaskRunner) (parent : Option TaskId) (children : List TaskId) : TaskRunner :=
  match parent with
  | none => { r with children_ := children }
  | some p => r.set p { r.heap p with children_ := children }

/-! ## 2. Timeouts -/

/-- `Task::TimedOut`. -/
def timedOut (r : TaskRunner) (t : TaskId) : Bool :=
  let timer := (r.heap t).timer
  timer.timeout_seconds_ ≠ 0 && timer.timeout_time_ ≠ 0 && r.now ≥ timer.timeout_time_

/-- `TaskRunner::next_task_timeout`. -/
def next_task_timeout (r : TaskRunner) : Int :=
  match r.next_timeout_task_ with
  | some t => (r.heap t).timer.timeout_time_
  | none => 0

/-- One round of the loop of `RecalcNextTimeout`. -/
def recalcStep (r : TaskRunner) (exclude_task : Option TaskId) (next : Int × Option TaskId)
    (t : TaskId) : Int × Option TaskId :=
  let time := (r.heap t).timer.timeout_time_
  if !(r.heap t).done_ && time > 0 && exclude_task ≠ some t && (next.1 = 0 || time ≤ next.1)
  then (time, some t)
  else next

/-- `TaskRunner::RecalcNextTimeout`. -/
def recalcNextTimeout (r : TaskRunner) (exclude_task : Option TaskId) : TaskRunner :=
  { r with next_timeout_task_ := (r.tasks_.foldl (r.recalcStep exclude_task) (0, none)).2 }

/-- `TaskRunner::CheckForTimeoutChange`. -/
def checkForTimeoutChange (r : TaskRunner) (previous_timeout_time : Int) : List RunnerStmt :=
  let next_timeout := r.next_task_timeout
  if (previous_timeout_time = 0 && next_timeout ≠ 0) || next_timeout < previous_timeout_time ||
      (previous_timeout_time ≤ r.now && previous_timeout_time ≠ next_timeout)
  then [.onTimeoutChange] else []

/-- `TaskRunner::UpdateTaskTimeout`: the next task to time out. -/
def updateNext (r : TaskRunner) (t : TaskId) : TaskRunner :=
  if (r.heap t).timer.timeout_time_ ≠ 0 then
    match r.next_timeout_task_ with
    | none => { r with next_timeout_task_ := some t }
    | some next =>
      if (r.heap t).timer.timeout_time_ ≤ (r.heap next).timer.timeout_time_
      then { r with next_timeout_task_ := some t } else r
  else if r.next_timeout_task_ = some t then r.recalcNextTimeout (some t)
  else r

/-- `TaskRunner::UpdateTaskTimeout`. -/
def updateTaskTimeout (r : TaskRunner) (t : TaskId) (previous_task_timeout_time : Int) :
    TaskRunner × List RunnerStmt :=
  let previous_timeout_time :=
    if r.next_timeout_task_ = some t then previous_task_timeout_time else r.next_task_timeout
  let r := r.updateNext t
  (r, if r.tasks_running_ then [] else r.checkForTimeoutChange previous_timeout_time)

/-- The timeout time that `ResetTimeout` sets. -/
def newTimeout (r : TaskRunner) (t : TaskId) : Int :=
  let task := r.heap t
  let timeout_allowed :=
    task.state_ ≠ STATE_INIT && task.state_ ≠ STATE_DONE && task.state_ ≠ STATE_ERROR
  if task.timer.timeout_seconds_ ≠ 0 && timeout_allowed && !task.timer.timeout_suspended_
  then r.now + task.timer.timeout_seconds_ * kSecToMsec * kMsecTo100ns
  else 0

/-- The timeout time of a task is changed. -/
def setTimeoutTime (r : TaskRunner) (t : TaskId) (time : Int) : TaskRunner :=
  r.set t { r.heap t with timer := { (r.heap t).timer with timeout_time_ := time } }

/-- `Task::ResetTimeout`. -/
def resetTimeout (r : TaskRunner) (t : TaskId) : TaskRunner × List RunnerStmt :=
  let previous_timeout_time := (r.heap t).timer.timeout_time_
  let timer := { (r.heap t).timer with timeout_time_ := r.newTimeout t, reset_time := r.now }
  (r.set t { r.heap t with timer }).updateTaskTimeout t previous_timeout_time

/-- `Task::ClearTimeout`. -/
def clearTimeout (r : TaskRunner) (t : TaskId) : TaskRunner × List RunnerStmt :=
  (r.setTimeoutTime t 0).updateTaskTimeout t (r.heap t).timer.timeout_time_

/-- `Task::set_timeout_seconds`. -/
def setTimeoutSeconds (r : TaskRunner) (t : TaskId) (timeout_seconds : Int) :
    TaskRunner × List RunnerStmt :=
  let timer := { (r.heap t).timer with timeout_seconds_ := timeout_seconds }
  (r.set t { r.heap t with timer }).resetTimeout t

/-- `Task::SuspendTimeout` and `ResumeTimeout`. -/
def setSuspended (r : TaskRunner) (t : TaskId) (suspended : Bool) :
    TaskRunner × List RunnerStmt :=
  if (r.heap t).timer.timeout_suspended_ = suspended then (r, [])
  else
    let timer := { (r.heap t).timer with timeout_suspended_ := suspended }
    (r.set t { r.heap t with timer }).resetTimeout t

/-! ## 3. Tasks -/

/-- A call of `Stop`. -/
def stopCode (t : TaskId) : List RunnerStmt := [.stopping t, .taskStop t, .stopped t]

/-- `Task::Abort`. -/
def abort (r : TaskRunner) (t : TaskId) (nowake : Bool) : TaskRunner × List RunnerStmt :=
  let task := r.heap t
  if task.done_ then (r, [])
  else
    let r := r.emit (.abort t)
    if task.busy_ then (r.set t { task with aborted_ := true }, [])
    else
      let r := r.set t
        { task with aborted_ := true, done_ := true, blocked_ := true, error_ := true }
      (r.emit (.stop t), stopCode t ++ if nowake then [] else [.wakeTasks])

/-- `Task::Wake`. -/
def wake (r : TaskRunner) (t : TaskId) : TaskRunner × List RunnerStmt :=
  let task := r.heap t
  if task.done_ then (r, [])
  else (r.set t { task with blocked_ := false, woken := true },
    if task.blocked_ then [.wakeTasks] else [])

/-- `Task::Error`. -/
def error (r : TaskRunner) (t : TaskId) : TaskRunner × List RunnerStmt :=
  let task := r.heap t
  if task.error_ || task.done_ then (r, [])
  else (r.set t { task with error_ := true, failed := true }).wake t

/-- `Task::Start` and `TaskRunner::StartTask`. -/
def start (r : TaskRunner) (t : TaskId) : TaskRunner × List RunnerStmt :=
  if (r.heap t).state_ ≠ STATE_INIT then (r, [])
  else
    let r := r.set t { r.heap t with start_time_ := r.now }
    let r := { r with tasks_ := r.tasks_ ++ [t] }
    let update := r.updateTaskTimeout t 0
    (update.1, update.2 ++ [.wakeTasks])

/-- `Task::Step`, up to the call of `Process`. -/
def step (r : TaskRunner) (t : TaskId) : TaskRunner × List RunnerStmt :=
  let task := { r.heap t with woken := false }
  if task.done_ then (r.set t { task with blocked_ := true }, [])
  else if task.error_ then
    let r := r.set t { task with done_ := true, state_ := STATE_ERROR, blocked_ := true }
    (r.emit (.stop t), stopCode t)
  else ((r.set t { task with busy_ := true }).emit (.process t), [.process t])

/-- `Task::Step`, after a `Process` during which the task was not aborted: its state. The
runner is running, so `ResetTimeout` leaves `OnTimeoutChange` to it. -/
def advance (r : TaskRunner) (t : TaskId) (new_state : Int) : TaskRunner :=
  let task := { r.heap t with busy_ := false }
  if new_state = STATE_BLOCKED then r.set t { task with blocked_ := true }
  else ((r.set t { task with state_ := new_state, blocked_ := false }).resetTimeout t).1

/-- In it, the end of the task. -/
def finish (r : TaskRunner) (t : TaskId) (new_state : Int) : TaskRunner :=
  let task := r.heap t
  if new_state = STATE_DONE then r.set t { task with done_ := true }
  else if new_state = STATE_ERROR then r.set t { task with done_ := true, error_ := true }
  else r

/-- `Task::Step`, after `Process`. -/
def processed (r : TaskRunner) (t : TaskId) (new_state : Int) : TaskRunner × List RunnerStmt :=
  if (r.heap t).aborted_ then (r.set t { r.heap t with busy_ := false }).abort t true
  else
    let r := (r.advance t new_state).finish t new_state
    if (r.heap t).done_ then (r.emit (.stop t), stopCode t ++ [.blockAfterStop t]) else (r, [])

/-- `TaskParent::OnChildStopped`, of the parent of `t`. -/
def onChildStopped (r : TaskRunner) (t : TaskId) : TaskRunner :=
  let parent := (r.heap t).parent_
  let r := r.setChildren parent ((r.childrenOf parent).filter fun c => c ≠ t)
  if (r.heap t).state_ = STATE_ERROR then
    match parent with
    | none => { r with child_error_ := true }
    | some p => r.set p { r.heap p with child_error_ := true }
  else r

/-- A task is made, and becomes a child of its parent. -/
def construct (r : TaskRunner) (parent : Option TaskId) (position : Nat) : TaskRunner :=
  let t := r.unique_id_seed_
  let r := { r.set t (Task.new parent) with unique_id_seed_ := t + 1 }
  let children := r.childrenOf parent
  r.setChildren parent (children.take position ++ t :: children.drop position)

/-! ## 4. The runner -/

/-- The loop of `InternalRunTasks` that deletes the tasks that are done; the flag is
`need_timeout_recalc`. A task that is listed twice is used after it was deleted. -/
def deleteDone (r : TaskRunner) (need_timeout_recalc : Bool) :
    List TaskId → Option (TaskRunner × Bool)
  | [] => some (r, need_timeout_recalc)
  | t :: rest =>
    if (r.heap t).deleted then none
    else if (r.heap t).done_ then
      let is_next := r.next_timeout_task_ = some t
      let r := r.set t { r.heap t with deleted := true }
      deleteDone (if is_next then { r with next_timeout_task_ := none } else r)
        (need_timeout_recalc || is_next) rest
    else deleteDone r need_timeout_recalc rest

/-- `InternalRunTasks`, after its loops. -/
def sweep (r : TaskRunner) (previous_timeout_time : Int) :
    Option (TaskRunner × List RunnerStmt) :=
  (r.deleteDone false r.tasks_).map fun s =>
    let r := { s.1 with tasks_ := s.1.tasks_.filter fun t => !(s.1.heap t).deleted }
    let r := if s.2 then r.recalcNextTimeout none else r
    (r, r.checkForTimeoutChange previous_timeout_time ++ [.runEnd])

/-- The loops of `InternalRunTasks`. -/
def runLoop (r : TaskRunner) (i : Nat) (did_run : Bool) (previous_timeout_time : Int) :
    Option (TaskRunner × List RunnerStmt) :=
  match r.tasks_[i]? with
  | some t =>
    if (r.heap t).deleted then none
    else if !(r.heap t).blocked_ then
      let step := r.step t
      some (step.1, step.2 ++ [.runLoop i true previous_timeout_time])
    else some (r, [.runLoop (i + 1) did_run previous_timeout_time])
  | none =>
    if did_run then some (r, [.runLoop 0 false previous_timeout_time])
    else r.sweep previous_timeout_time

/-- The loop of `PollTasks`. -/
def poll (r : TaskRunner) (old_timeout_task : Option TaskId) : TaskRunner × List RunnerStmt :=
  match r.next_timeout_task_ with
  | some t =>
    if old_timeout_task ≠ some t && r.timedOut t then
      let wake := r.wake t
      (wake.1, wake.2 ++ [.wakeTasks, .poll (some t)])
    else (r, [])
  | none => (r, [])

/-- Executes a statement. -/
def exec (r : TaskRunner) : RunnerStmt → Option (TaskRunner × List RunnerStmt)
  | .taskStop t =>
    if (r.heap t).deleted then none else some (r, [.onStopped t (r.heap t).children_])
  | .onStopped t (c :: copy) =>
    if (r.heap c).deleted then none
    else some ((r.abort c true).1, (r.abort c true).2 ++ [.onStopped t copy])
  | .onStopped t [] =>
    if (r.heap t).deleted || (r.heap t).parent_.any fun p => (r.heap p).deleted then none
    else some (r.onChildStopped t, [])
  | .abortChildren (c :: copy) =>
    if (r.heap c).deleted then none
    else some ((r.abort c true).1, (r.abort c true).2 ++ [.abortChildren copy])
  | .abortChildren [] => some (r, [])
  | .blockAfterStop t =>
    if (r.heap t).deleted then none else some (r.set t { r.heap t with blocked_ := true }, [])
  | .runLoop i did_run previous => r.runLoop i did_run previous
  | .runEnd => some ({ r with tasks_running_ := false }, [])
  | .poll old => some (r.poll old)
  | .process _ | .stopping _ | .stopped _ | .wakeTasks | .onTimeoutChange => none

/-- Whether the client is running. -/
def foreign : RunnerStmt → Bool
  | .process _ | .stopping _ | .stopped _ | .wakeTasks | .onTimeoutChange => true
  | _ => false

/-- What becomes of the answer of `Process`. -/
def resume (r : TaskRunner) : RunnerStmt → Int → TaskRunner × List RunnerStmt
  | .process t, new_state => r.processed t new_state
  | _, _ => (r, [])

/-- The entry of a function. -/
def enter (r : TaskRunner) : RunnerCall → TaskRunner × List RunnerStmt
  | .construct parent position => (r.construct parent position, [])
  | .start t => r.start t
  | .abort t nowake => r.abort t nowake
  | .wake t => r.wake t
  | .error t => r.error t
  | .abortAllChildren t => (r, [.abortChildren (r.heap t).children_])
  | .setTimeoutSeconds t n => r.setTimeoutSeconds t n
  | .resetTimeout t => r.resetTimeout t
  | .clearTimeout t => r.clearTimeout t
  | .suspendTimeout t => r.setSuspended t true
  | .resumeTimeout t => r.setSuspended t false
  | .runTasks =>
    if r.tasks_running_ then (r, [])
    else ({ r with tasks_running_ := true }, [.runLoop 0 false r.next_task_timeout])
  | .pollTasks => (r, [.poll none])
  | .clock now => ({ r with now }, [])

end TaskRunner

/-- The runner and its tasks, as a component. The answers are those of `Process`. -/
def taskRunner : Component TaskRunner RunnerStmt RunnerCall Int where
  exec := TaskRunner.exec
  foreign := TaskRunner.foreign
  resume := TaskRunner.resume
  enter := TaskRunner.enter

/-- A configuration of the runner. -/
abbrev RunnerConf := Config TaskRunner RunnerStmt

/-- A new runner, at rest. -/
def RunnerConf.init : RunnerConf := ⟨TaskRunner.init, []⟩

/-- The task a call is made of, or made for. -/
def RunnerCall.target : RunnerCall → Option TaskId
  | .construct parent _ => parent
  | .start t | .abort t _ | .wake t | .error t | .abortAllChildren t | .setTimeoutSeconds t _
  | .resetTimeout t | .clearTimeout t | .suspendTimeout t | .resumeTimeout t => some t
  | .runTasks | .pollTasks | .clock _ => none

/-- A call that makes a task. -/
def RunnerCall.constructs : RunnerCall → Bool
  | .construct _ _ => true
  | _ => false

/-- The rules of a run: a call is made of a task that exists, and no task is made under one
that is done. -/
def TaskRules : Rules TaskRunner RunnerStmt RunnerCall := fun c m =>
  ∀ t ∈ m.target, t < c.state.unique_id_seed_ ∧ (c.state.heap t).deleted = false ∧
    (m.constructs = true → (c.state.heap t).done_ = false)

instance (c : RunnerConf) (m : RunnerCall) : Decidable (TaskRules c m) :=
  inferInstanceAs (Decidable (∀ t ∈ m.target, _))

/-- What a run arrives at. -/
def Attainable (c : RunnerConf) : Prop := taskRunner.Reaches TaskRules RunnerConf.init c

end Gxmpp.TalkBase
