/-
What the functions of the tasks and of the runner change.

There are three kinds of them. Some change only timeouts (`TimersOnly`). `Abort`, `Step` and
its end change the flags of one task, and what they can make of it is one relation (`Move`). The
others leave the lives of the tasks alone (`Kept`), but for a task that is made and one that
leaves its parent, which the modules above treat themselves.
-/
import Gxmpp.TaskRunner

set_option autoImplicit false

namespace Gxmpp.TalkBase

open Reentrant

/-- What the client is called for when timeouts change and tasks wake. -/
def RunnerStmt.notifies : RunnerStmt → Bool
  | .wakeTasks | .onTimeoutChange => true
  | _ => false

namespace TaskRunner

variable {r r' r'' : TaskRunner} {t u : TaskId}

@[simp] theorem set_heap_self (r : TaskRunner) (t : TaskId) (task : Task) :
    (r.set t task).heap t = task := if_pos rfl

@[simp] theorem set_heap_ne (task : Task) (h : u ≠ t) : (r.set t task).heap u = r.heap u :=
  if_neg h

@[simp] theorem set_set (a b : Task) : (r.set t a).set t b = r.set t b := by
  unfold TaskRunner.set
  congr 1
  funext u
  by_cases h : u = t
  · rw [if_pos h, if_pos h]
  · rw [if_neg h, if_neg h]
    exact if_neg h

/-! ## 1. Timeouts -/

/-- Only timeouts have changed. -/
structure TimersOnly (r r' : TaskRunner) : Prop where
  heap : ∀ t, r'.heap t = { r.heap t with timer := (r'.heap t).timer }
  rest : r' = { r with heap := r'.heap, next_timeout_task_ := r'.next_timeout_task_ }

theorem TimersOnly.refl (r : TaskRunner) : TimersOnly r r := ⟨fun _ => rfl, rfl⟩

theorem TimersOnly.trans (h : TimersOnly r r') (k : TimersOnly r' r'') : TimersOnly r r'' where
  heap t := by
    rw [k.heap t, h.heap t]
  rest := by
    rw [k.rest, h.rest]

/-- Another task is the next to time out. -/
theorem TimersOnly.next (r : TaskRunner) (next : Option TaskId) :
    TimersOnly r { r with next_timeout_task_ := next } := ⟨fun _ => rfl, rfl⟩

/-- A timer is changed. -/
theorem TimersOnly.timer (r : TaskRunner) (t : TaskId) (timer : Timer) :
    TimersOnly r (r.set t { r.heap t with timer }) where
  heap u := by
    by_cases h : u = t
    · rw [h, set_heap_self]
    · rw [set_heap_ne _ h]
  rest := rfl

theorem updateNext_eq (r : TaskRunner) (t : TaskId) :
    r.updateNext t = { r with next_timeout_task_ := (r.updateNext t).next_timeout_task_ } := by
  unfold updateNext
  split_ifs
  · split
    · rfl
    · split_ifs <;> rfl
  · rfl
  · rfl

theorem updateNext_timers (r : TaskRunner) (t : TaskId) : TimersOnly r (r.updateNext t) := by
  rw [updateNext_eq]
  exact .next r _

theorem updateTaskTimeout_timers (r : TaskRunner) (t : TaskId) (previous : Int) :
    TimersOnly r (r.updateTaskTimeout t previous).1 := updateNext_timers r t

theorem resetTimeout_timers (r : TaskRunner) (t : TaskId) :
    TimersOnly r (r.resetTimeout t).1 :=
  (TimersOnly.timer r t _).trans (updateNext_timers _ t)

/-- `ResetTimeout` changes the timer of its task. -/
theorem resetTimeout_heap (r : TaskRunner) (t : TaskId) :
    (r.resetTimeout t).1.heap = (r.set t { r.heap t with
      timer := { (r.heap t).timer with
        timeout_time_ := r.newTimeout t
        reset_time := r.now } }).heap := by
  unfold resetTimeout updateTaskTimeout
  dsimp only
  rw [updateNext_eq]

theorem clearTimeout_timers (r : TaskRunner) (t : TaskId) :
    TimersOnly r (r.clearTimeout t).1 :=
  (TimersOnly.timer r t _).trans (updateNext_timers _ t)

theorem setTimeoutSeconds_timers (r : TaskRunner) (t : TaskId) (n : Int) :
    TimersOnly r (r.setTimeoutSeconds t n).1 :=
  (TimersOnly.timer r t _).trans (resetTimeout_timers _ t)

theorem setSuspended_timers (r : TaskRunner) (t : TaskId) (suspended : Bool) :
    TimersOnly r (r.setSuspended t suspended).1 := by
  unfold setSuspended
  split_ifs
  · exact .refl r
  · exact (TimersOnly.timer r t _).trans (resetTimeout_timers _ t)

/-- What is told of a change of the next timeout. -/
theorem checkForTimeoutChange_push (r : TaskRunner) (previous : Int) :
    ∀ x ∈ r.checkForTimeoutChange previous, x = .onTimeoutChange := by
  intro x hx
  unfold checkForTimeoutChange at hx
  dsimp only at hx
  split_ifs at hx
  · exact List.mem_singleton.1 hx
  · cases hx

theorem updateTaskTimeout_push (r : TaskRunner) (t : TaskId) (previous : Int) :
    ∀ x ∈ (r.updateTaskTimeout t previous).2, x = .onTimeoutChange := by
  intro x hx
  have hx' : x ∈ if (r.updateNext t).tasks_running_ then [] else
    (r.updateNext t).checkForTimeoutChange
      (if r.next_timeout_task_ = some t then previous else r.next_task_timeout) := hx
  cases hrun : (r.updateNext t).tasks_running_ with
  | true =>
    rw [hrun, if_pos rfl] at hx'
    cases hx'
  | false =>
    rw [hrun, if_neg Bool.false_ne_true] at hx'
    exact checkForTimeoutChange_push _ _ x hx'

theorem setSuspended_push (r : TaskRunner) (t : TaskId) (suspended : Bool) :
    ∀ x ∈ (r.setSuspended t suspended).2, x = .onTimeoutChange := by
  intro x hx
  unfold setSuspended at hx
  split_ifs at hx
  · cases hx
  · exact updateTaskTimeout_push _ _ _ x hx

/-! ## 2. The flags of one task -/

/-- What a function can make of the flags of the task `t`, and what it records. -/
inductive Move (t : TaskId) (a b : Task) : List TaskEvent → Prop where
  /-- nothing that counts; `Process` may have come back to a task that is not aborted -/
  | quiet (done_ : b.done_ = a.done_) (aborted_ : b.aborted_ = a.aborted_)
      (busy_ : b.busy_ = a.busy_ ∨ (b.busy_ = false ∧ a.aborted_ = false)) : Move t a b []
  /-- `Process` is called -/
  | begun (undone : a.done_ = false) (done_ : b.done_ = false) (aborted_ : b.aborted_ = a.aborted_)
      (idle : a.busy_ = false) (busy_ : b.busy_ = true) : Move t a b [.process t]
  /-- the task is at its end by itself -/
  | ended (undone : a.done_ = false) (done_ : b.done_ = true) (aborted_ : b.aborted_ = a.aborted_)
      (busy_ : b.busy_ = false) : Move t a b [.stop t]
  /-- the task is aborted when `Process` has come back -/
  | aborting (undone : a.done_ = false) (done_ : b.done_ = false) (aborted_ : b.aborted_ = true)
      (running : a.busy_ = true) (busy_ : b.busy_ = true) : Move t a b [.abort t]
  /-- the task is aborted -/
  | aborted (undone : a.done_ = false) (done_ : b.done_ = true) (aborted_ : b.aborted_ = true)
      (busy_ : b.busy_ = false) : Move t a b [.abort t, .stop t]

/-- One task has made a move. -/
structure Moved (r r' : TaskRunner) (t : TaskId) (evs : List TaskEvent) : Prop where
  others : ∀ u, u ≠ t → r'.heap u = r.heap u
  parent_ : (r'.heap t).parent_ = (r.heap t).parent_
  children_ : (r'.heap t).children_ = (r.heap t).children_
  deleted : (r'.heap t).deleted = (r.heap t).deleted
  seed : r'.unique_id_seed_ = r.unique_id_seed_
  root : r'.children_ = r.children_
  tasks_ : r'.tasks_ = r.tasks_
  running : r'.tasks_running_ = r.tasks_running_
  log : r'.log = r.log ++ evs
  move : Move t (r.heap t) (r'.heap t) evs

/-- The flags of a task are changed and nothing else. -/
theorem Moved.flags (task : Task) {evs : List TaskEvent}
    (hr : r' = { r.set t task with log := r.log ++ evs })
    (hp : task.parent_ = (r.heap t).parent_) (hc : task.children_ = (r.heap t).children_)
    (hd : task.deleted = (r.heap t).deleted) (h : Move t (r.heap t) task evs) :
    Moved r r' t evs := by
  subst hr
  have hself : (r.set t task).heap t = task := set_heap_self r t task
  exact
    { others := fun u hu => set_heap_ne _ hu
      parent_ := (congrArg Task.parent_ hself).trans hp
      children_ := (congrArg Task.children_ hself).trans hc
      deleted := (congrArg Task.deleted hself).trans hd
      seed := rfl
      root := rfl
      tasks_ := rfl
      running := rfl
      log := rfl
      move := by
        show Move t (r.heap t) ((r.set t task).heap t) evs
        rw [hself]
        exact h }

/-- The shapes of `Abort`. -/
inductive Aborting (r : TaskRunner) (t : TaskId) (nowake : Bool) :
    TaskRunner × List RunnerStmt → Prop where
  | done (h : (r.heap t).done_ = true) : Aborting r t nowake (r, [])
  | busy {s : TaskRunner} (h : Moved r s t [.abort t]) (hbusy : (r.heap t).busy_ = true) :
      Aborting r t nowake (s, [])
  | stopped {s : TaskRunner} (h : Moved r s t [.abort t, .stop t])
      (hidle : (r.heap t).busy_ = false) (hblocked : (s.heap t).blocked_ = true)
      (hdone : (s.heap t).done_ = true) :
      Aborting r t nowake (s, stopCode t ++ if nowake then [] else [.wakeTasks])

theorem abort_aborting (r : TaskRunner) (t : TaskId) (nowake : Bool) :
    Aborting r t nowake (r.abort t nowake) := by
  unfold abort
  dsimp only
  by_cases hdone : (r.heap t).done_ = true
  · rw [if_pos hdone]
    exact .done hdone
  have hundone := Bool.eq_false_iff.2 hdone
  rw [if_neg hdone]
  by_cases hbusy : (r.heap t).busy_ = true
  · rw [if_pos hbusy]
    exact .busy (.flags _ rfl rfl rfl rfl (.aborting hundone hundone rfl hbusy hbusy)) hbusy
  · rw [if_neg hbusy]
    have hidle := Bool.eq_false_iff.2 hbusy
    refine .stopped (.flags
      { r.heap t with
        aborted_ := true
        done_ := true
        blocked_ := true
        error_ := true } ?_ rfl rfl rfl (.aborted hundone rfl rfl hidle)) hidle ?_ ?_
    · unfold emit TaskRunner.set
      dsimp only
      rw [List.append_assoc]
      rfl
    · exact congrArg Task.blocked_ (set_heap_self _ t _)
    · exact congrArg Task.done_ (set_heap_self _ t _)

/-- The shapes of `Step`. -/
inductive Stepping (r : TaskRunner) (t : TaskId) : TaskRunner × List RunnerStmt → Prop where
  | done {s : TaskRunner} (h : Moved r s t []) (hdone : (r.heap t).done_ = true)
      (hblocked : (s.heap t).blocked_ = true) : Stepping r t (s, [])
  | failed {s : TaskRunner} (h : Moved r s t [.stop t]) (hblocked : (s.heap t).blocked_ = true)
      (hdone : (s.heap t).done_ = true) : Stepping r t (s, stopCode t)
  | begun {s : TaskRunner} (h : Moved r s t [.process t]) (hundone : (r.heap t).done_ = false) :
      Stepping r t (s, [.process t])

theorem step_stepping (hbusy : (r.heap t).busy_ = false) : Stepping r t (r.step t) := by
  unfold step
  dsimp only
  by_cases hdone : (r.heap t).done_ = true
  · rw [if_pos hdone]
    refine .done (.flags { r.heap t with blocked_ := true, woken := false } ?_ rfl rfl rfl
      (.quiet rfl rfl (Or.inl rfl))) hdone ?_
    · rw [List.append_nil]
      rfl
    · exact congrArg Task.blocked_ (set_heap_self _ t _)
  have hundone := Bool.eq_false_iff.2 hdone
  rw [if_neg hdone]
  by_cases herror : (r.heap t).error_ = true
  · rw [if_pos herror]
    refine .failed (.flags _ rfl rfl rfl rfl (.ended hundone rfl rfl hbusy)) ?_ ?_
    · exact congrArg Task.blocked_ (set_heap_self _ t _)
    · exact congrArg Task.done_ (set_heap_self _ t _)
  · rw [if_neg herror]
    exact .begun (.flags _ rfl rfl rfl rfl (.begun hundone hundone rfl hbusy rfl)) hundone

variable {task : Task} {previous : Int} {s : TaskRunner × List RunnerStmt}

/-- A second change of the same task. -/
theorem Moved.andThen {s : TaskRunner} (evs : List TaskEvent) (h : Moved r r' t [])
    (hs : s = { r'.set t task with log := r'.log ++ evs })
    (hp : task.parent_ = (r'.heap t).parent_) (hc : task.children_ = (r'.heap t).children_)
    (hd : task.deleted = (r'.heap t).deleted) (hm : Move t (r.heap t) task evs) :
    Moved r s t evs := by
  subst hs
  have hself : (r'.set t task).heap t = task := set_heap_self r' t task
  exact
    { others := fun u hu => (set_heap_ne _ hu).trans (h.others u hu)
      parent_ := (congrArg Task.parent_ hself).trans (hp.trans h.parent_)
      children_ := (congrArg Task.children_ hself).trans (hc.trans h.children_)
      deleted := (congrArg Task.deleted hself).trans (hd.trans h.deleted)
      seed := h.seed
      root := h.root
      tasks_ := h.tasks_
      running := h.running
      log := by
        show r'.log ++ evs = r.log ++ evs
        rw [h.log, List.append_nil]
      move := by
        show Move t (r.heap t) ((r'.set t task).heap t) evs
        rw [hself]
        exact hm }

/-- After a change of the same task. -/
theorem Moved.after {s : TaskRunner} {evs : List TaskEvent} (h : Moved (r.set t task) s t evs)
    (hp : task.parent_ = (r.heap t).parent_) (hc : task.children_ = (r.heap t).children_)
    (hd : task.deleted = (r.heap t).deleted) (hm : Move t (r.heap t) (s.heap t) evs) :
    Moved r s t evs where
  others u hu := (h.others u hu).trans (set_heap_ne _ hu)
  parent_ := by rw [h.parent_, set_heap_self, hp]
  children_ := by rw [h.children_, set_heap_self, hc]
  deleted := by rw [h.deleted, set_heap_self, hd]
  seed := h.seed
  root := h.root
  tasks_ := h.tasks_
  running := h.running
  log := h.log
  move := hm

/-- `ResetTimeout` does not move its task. -/
theorem resetTimeout_moved (r : TaskRunner) (t : TaskId) : Moved r (r.resetTimeout t).1 t [] := by
  have hrest := (resetTimeout_timers r t).rest
  have hself := (resetTimeout_timers r t).heap t
  exact
    { others := fun u hu => by rw [resetTimeout_heap, set_heap_ne _ hu]
      parent_ := by rw [hself]
      children_ := by rw [hself]
      deleted := by rw [hself]
      seed := by rw [hrest]
      root := by rw [hrest]
      tasks_ := by rw [hrest]
      running := by rw [hrest]
      log := by rw [hrest, List.append_nil]
      move := .quiet (by rw [hself]) (by rw [hself]) (Or.inl (by rw [hself])) }

/-- The shapes of `Step`, after `Process`. -/
inductive Processed (r : TaskRunner) (t : TaskId) (new_state : Int) :
    TaskRunner × List RunnerStmt → Prop where
  /-- the abort that had to wait -/
  | aborted {s : TaskRunner} (h : Moved r s t [.abort t, .stop t])
      (haborted : (r.heap t).aborted_ = true) (hblocked : (s.heap t).blocked_ = true)
      (hdone : (s.heap t).done_ = true) : Processed r t new_state (s, stopCode t)
  | goesOn {s : TaskRunner} (h : Moved r s t []) (haborted : (r.heap t).aborted_ = false)
      (hend : new_state ≠ STATE_DONE ∧ new_state ≠ STATE_ERROR)
      (hundone : (s.heap t).done_ = false) (hidle : (s.heap t).busy_ = false) :
      Processed r t new_state (s, [])
  | ended {s : TaskRunner} (h : Moved r s t [.stop t]) (haborted : (r.heap t).aborted_ = false)
      (hend : new_state = STATE_DONE ∨ new_state = STATE_ERROR)
      (hdone : (s.heap t).done_ = true) :
      Processed r t new_state (s, stopCode t ++ [.blockAfterStop t])

theorem advance_moved (new_state : Int) (haborted : (r.heap t).aborted_ = false) :
    Moved r (r.advance t new_state) t [] ∧ ((r.advance t new_state).heap t).busy_ = false := by
  unfold advance
  dsimp only
  split_ifs
  · refine ⟨.flags { r.heap t with
      busy_ := false
      blocked_ := true } ?_ rfl rfl rfl (.quiet rfl rfl (Or.inr ⟨rfl, haborted⟩)), ?_⟩
    · rw [List.append_nil]
      rfl
    · rw [set_heap_self]
  · have hreset := resetTimeout_moved (r.set t { r.heap t with
      busy_ := false
      state_ := new_state
      blocked_ := false }) t
    cases hreset.move with
    | quiet done_ aborted_ busy_ =>
      have hbusy : (((r.set t { r.heap t with
          busy_ := false
          state_ := new_state
          blocked_ := false }).resetTimeout t).1.heap t).busy_ = false := by
        rcases busy_ with h | h
        · rw [h, set_heap_self]
        · exact h.1
      rw [set_heap_self] at done_ aborted_
      exact ⟨hreset.after rfl rfl rfl (.quiet done_ aborted_ (Or.inr ⟨hbusy, haborted⟩)), hbusy⟩

theorem processed_processed (new_state : Int) (hundone : (r.heap t).done_ = false) :
    Processed r t new_state (r.processed t new_state) := by
  unfold processed
  by_cases haborted : (r.heap t).aborted_ = true
  · rw [if_pos haborted]
    have habort := abort_aborting (r.set t { r.heap t with busy_ := false }) t true
    generalize (r.set t { r.heap t with busy_ := false }).abort t true = s at habort
    cases habort with
    | done h =>
      rw [set_heap_self] at h
      rw [hundone] at h
      cases h
    | busy h hbusy =>
      rw [set_heap_self] at hbusy
      cases hbusy
    | stopped h _ hblocked hdone =>
      refine .aborted (h.after rfl rfl rfl ?_) haborted hblocked hdone
      cases h.move with
      | aborted undone done_ aborted_ busy_ => exact .aborted hundone done_ aborted_ busy_
  rw [if_neg haborted]
  have haborted' := Bool.eq_false_iff.2 haborted
  obtain ⟨hmoved, hidle⟩ := advance_moved new_state haborted'
  generalize r.advance t new_state = s at hmoved hidle ⊢
  obtain ⟨hdone, haborts⟩ : (s.heap t).done_ = false ∧
      (s.heap t).aborted_ = (r.heap t).aborted_ := by
    cases hmoved.move with
    | quiet done_ aborted_ busy_ => exact ⟨done_.trans hundone, aborted_⟩
  unfold finish
  dsimp only
  by_cases hend : new_state = STATE_DONE
  · rw [if_pos hend, if_pos (by rw [set_heap_self])]
    refine .ended (hmoved.andThen [.stop t] rfl rfl rfl rfl (.ended hundone rfl haborts hidle))
      haborted' (Or.inl hend) ?_
    exact congrArg Task.done_ (set_heap_self s t _)
  rw [if_neg hend]
  by_cases herror : new_state = STATE_ERROR
  · rw [if_pos herror, if_pos (by rw [set_heap_self])]
    refine .ended (hmoved.andThen [.stop t] rfl rfl rfl rfl (.ended hundone rfl haborts hidle))
      haborted' (Or.inr herror) ?_
    exact congrArg Task.done_ (set_heap_self s t _)
  rw [if_neg herror, if_neg (by rw [hdone]; exact Bool.false_ne_true)]
  exact .goesOn hmoved haborted' ⟨hend, herror⟩ hdone hidle

/-- `Step`, after `Stop`. -/
theorem blockAfterStop_moved (r : TaskRunner) (t : TaskId) :
    Moved r (r.set t { r.heap t with blocked_ := true }) t [] ∧
      ((r.set t { r.heap t with blocked_ := true }).heap t).busy_ = (r.heap t).busy_ ∧
      ((r.set t { r.heap t with blocked_ := true }).heap t).blocked_ = true := by
  refine ⟨.flags { r.heap t with blocked_ := true } ?_ rfl rfl rfl (.quiet rfl rfl (Or.inl rfl)),
    ?_, ?_⟩
  · rw [List.append_nil]
    rfl
  · rw [set_heap_self]
  · rw [set_heap_self]

/-! ## 3. What leaves the lives of the tasks alone -/

/-- No task lives otherwise than before. -/
structure Kept (r r' : TaskRunner) : Prop where
  parent_ : ∀ t, (r'.heap t).parent_ = (r.heap t).parent_
  children_ : ∀ t, (r'.heap t).children_ = (r.heap t).children_
  done_ : ∀ t, (r'.heap t).done_ = (r.heap t).done_
  aborted_ : ∀ t, (r'.heap t).aborted_ = (r.heap t).aborted_
  busy_ : ∀ t, (r'.heap t).busy_ = (r.heap t).busy_
  blocked_ : ∀ t, (r.heap t).done_ = true → (r'.heap t).blocked_ = (r.heap t).blocked_
  seed : r'.unique_id_seed_ = r.unique_id_seed_
  root : r'.children_ = r.children_
  tasks_ : ∀ t ∈ r'.tasks_, t ∈ r.tasks_ ∨ t < r.unique_id_seed_
  running : r'.tasks_running_ = r.tasks_running_
  log : r'.log = r.log

theorem Kept.refl (r : TaskRunner) : Kept r r where
  parent_ _ := rfl
  children_ _ := rfl
  done_ _ := rfl
  aborted_ _ := rfl
  busy_ _ := rfl
  blocked_ _ _ := rfl
  seed := rfl
  root := rfl
  tasks_ _ := Or.inl
  running := rfl
  log := rfl

theorem Kept.trans (h : Kept r r') (k : Kept r' r'') : Kept r r'' where
  parent_ t := (k.parent_ t).trans (h.parent_ t)
  children_ t := (k.children_ t).trans (h.children_ t)
  done_ t := (k.done_ t).trans (h.done_ t)
  aborted_ t := (k.aborted_ t).trans (h.aborted_ t)
  busy_ t := (k.busy_ t).trans (h.busy_ t)
  blocked_ t ht := (k.blocked_ t ((h.done_ t).trans ht)).trans (h.blocked_ t ht)
  seed := k.seed.trans h.seed
  root := k.root.trans h.root
  tasks_ t ht := (k.tasks_ t ht).elim (h.tasks_ t) fun hlt => Or.inr (h.seed ▸ hlt)
  running := k.running.trans h.running
  log := k.log.trans h.log

theorem TimersOnly.kept (h : TimersOnly r r') : Kept r r' where
  parent_ t := by rw [h.heap t]
  children_ t := by rw [h.heap t]
  done_ t := by rw [h.heap t]
  aborted_ t := by rw [h.heap t]
  busy_ t := by rw [h.heap t]
  blocked_ t _ := by rw [h.heap t]
  seed := by rw [h.rest]
  root := by rw [h.rest]
  tasks_ t ht := by
    rw [h.rest] at ht
    exact Or.inl ht
  running := by rw [h.rest]
  log := by rw [h.rest]

/-- The record of one task is changed, but for its life. -/
theorem Kept.set (hp : task.parent_ = (r.heap t).parent_)
    (hc : task.children_ = (r.heap t).children_) (hd : task.done_ = (r.heap t).done_)
    (ha : task.aborted_ = (r.heap t).aborted_) (hb : task.busy_ = (r.heap t).busy_)
    (hbl : (r.heap t).done_ = true → task.blocked_ = (r.heap t).blocked_) :
    Kept r (r.set t task) := by
  have hfield : ∀ {α : Type} (f : Task → α), f task = f (r.heap t) →
      ∀ u, f ((r.set t task).heap u) = f (r.heap u) := by
    intro α f hf u
    by_cases hu : u = t
    · rw [hu, set_heap_self, hf]
    · rw [set_heap_ne _ hu]
  refine ⟨hfield _ hp, hfield _ hc, hfield _ hd, hfield _ ha, hfield _ hb, fun u hu => ?_, rfl, rfl,
    fun _ => Or.inl, rfl, rfl⟩
  by_cases hut : u = t
  · rw [hut] at hu ⊢
    rw [set_heap_self, hbl hu]
  · rw [set_heap_ne _ hut]

theorem wake_kept (r : TaskRunner) (t : TaskId) : Kept r (r.wake t).1 := by
  unfold wake
  dsimp only
  split_ifs with hdone
  · exact .refl r
  all_goals exact .set rfl rfl rfl rfl rfl fun hd => absurd hd hdone

theorem wake_push (r : TaskRunner) (t : TaskId) : ∀ x ∈ (r.wake t).2, x = .wakeTasks := by
  intro x hx
  unfold wake at hx
  dsimp only at hx
  split_ifs at hx
  · cases hx
  · exact List.mem_singleton.1 hx
  · cases hx

theorem error_kept (r : TaskRunner) (t : TaskId) : Kept r (r.error t).1 := by
  unfold error
  dsimp only
  split_ifs
  · exact .refl r
  · refine Kept.trans ?_ (wake_kept _ t)
    exact .set rfl rfl rfl rfl rfl fun _ => rfl

theorem error_push (r : TaskRunner) (t : TaskId) : ∀ x ∈ (r.error t).2, x = .wakeTasks := by
  intro x hx
  unfold error at hx
  dsimp only at hx
  split_ifs at hx
  · cases hx
  · exact wake_push _ t x hx

theorem start_kept (ht : t < r.unique_id_seed_) : Kept r (r.start t).1 := by
  unfold start
  dsimp only
  split_ifs
  · exact .refl r
  · refine Kept.trans ?_ (updateTaskTimeout_timers _ t 0).kept
    have hset : Kept r (r.set t { r.heap t with start_time_ := r.now }) :=
      .set rfl rfl rfl rfl rfl fun _ => rfl
    refine { hset with tasks_ := fun u hu => ?_ }
    rcases List.mem_append.1 hu with hu | hu
    · exact Or.inl hu
    · rw [List.mem_singleton.1 hu]
      exact Or.inr ht

theorem start_push (r : TaskRunner) (t : TaskId) : ∀ x ∈ (r.start t).2, x.notifies = true := by
  intro x hx
  unfold start at hx
  dsimp only at hx
  split_ifs at hx
  · cases hx
  · rcases List.mem_append.1 hx with hx | hx
    · rw [updateTaskTimeout_push _ _ _ x hx]
      rfl
    · rw [List.mem_singleton.1 hx]
      rfl

/-- What the loop that deletes leaves: the tasks of the list that are done are deleted, and a
next task to time out that is among them is forgotten. -/
structure Deleted (r : TaskRunner) (list : List TaskId) (flag : Bool) (s : TaskRunner × Bool) :
    Prop where
  heap : ∀ u, s.1.heap u = { r.heap u with deleted := (s.1.heap u).deleted }
  deleted : ∀ u, (s.1.heap u).deleted = true ↔
    (r.heap u).deleted = true ∨ (u ∈ list ∧ (r.heap u).done_ = true)
  rest : s.1 = { r with heap := s.1.heap, next_timeout_task_ := s.1.next_timeout_task_ }
  next : (s.1.next_timeout_task_ = r.next_timeout_task_ ∧ s.2 = flag ∧
      ∀ n, r.next_timeout_task_ = some n → n ∈ list → (r.heap n).done_ = false) ∨
    (s.1.next_timeout_task_ = none ∧ s.2 = true)

theorem deleteDone_deleted {list : List TaskId} {flag : Bool} {s : TaskRunner × Bool}
    (h : r.deleteDone flag list = some s) : Deleted r list flag s := by
  induction list generalizing r flag with
  | nil =>
    obtain rfl := Option.some.inj h
    exact ⟨fun _ => rfl, fun u => ⟨Or.inl, fun hu => hu.resolve_right nofun⟩, rfl,
      Or.inl ⟨rfl, rfl, nofun⟩⟩
  | cons t list ih =>
    unfold deleteDone at h
    by_cases hdeleted : (r.heap t).deleted = true
    · rw [if_pos hdeleted] at h
      cases h
    rw [if_neg hdeleted] at h
    by_cases hdone : (r.heap t).done_ = true
    · rw [if_pos hdone] at h
      dsimp only at h
      generalize hr₁ : (if r.next_timeout_task_ = some t
        then { r.set t { r.heap t with deleted := true } with next_timeout_task_ := none }
        else r.set t { r.heap t with deleted := true } : TaskRunner) = r₁ at h
      have hheap : ∀ u, r₁.heap u = { r.heap u with deleted := (r₁.heap u).deleted } ∧
          ((r₁.heap u).deleted = true ↔ (r.heap u).deleted = true ∨ u = t) := by
        intro u
        have hset : r₁.heap u = (r.set t { r.heap t with deleted := true }).heap u := by
          rw [← hr₁]
          split_ifs <;> rfl
        rw [hset]
        by_cases hu : u = t
        · rw [hu, set_heap_self]
          exact ⟨rfl, fun _ => Or.inr rfl, fun _ => rfl⟩
        · rw [set_heap_ne _ hu]
          exact ⟨rfl, Or.inl, fun h => h.resolve_right hu⟩
      have hdone₁ : ∀ u, (r₁.heap u).done_ = (r.heap u).done_ := fun u => by rw [(hheap u).1]
      have hrec := ih h
      refine ⟨fun u => ?_, fun u => ?_, ?_, ?_⟩
      · rw [hrec.heap u, (hheap u).1]
      · rw [hrec.deleted u, (hheap u).2, hdone₁ u, List.mem_cons]
        constructor
        · rintro ((hd | rfl) | ⟨hmem, hd⟩)
          · exact Or.inl hd
          · exact Or.inr ⟨Or.inl rfl, hdone⟩
          · exact Or.inr ⟨Or.inr hmem, hd⟩
        · rintro (hd | ⟨rfl | hmem, hd⟩)
          · exact Or.inl (Or.inl hd)
          · exact Or.inl (Or.inr rfl)
          · exact Or.inr ⟨hmem, hd⟩
      · have hrest : r₁ = { r with
            heap := r₁.heap
            next_timeout_task_ := r₁.next_timeout_task_ } := by
          rw [← hr₁]
          split_ifs <;> rfl
        rw [hrec.rest, hrest]
      · by_cases hnext : r.next_timeout_task_ = some t
        · rw [if_pos hnext] at hr₁
          have hnone : r₁.next_timeout_task_ = none := by rw [← hr₁]
          rw [decide_eq_true hnext, Bool.or_true] at hrec
          rcases hrec.next with hn | hn
          · exact Or.inr ⟨hn.1.trans hnone, hn.2.1⟩
          · exact Or.inr hn
        · rw [if_neg hnext] at hr₁
          have hsame : r₁.next_timeout_task_ = r.next_timeout_task_ := by
            rw [← hr₁]
            rfl
          rw [decide_eq_false hnext, Bool.or_false] at hrec
          refine hrec.next.imp_left fun hn => ⟨hn.1.trans hsame, hn.2.1, fun n hn' hmem => ?_⟩
          rcases List.mem_cons.1 hmem with rfl | hmem
          · exact absurd hn' hnext
          · rw [← hdone₁]
            exact hn.2.2 n (hsame.trans hn') hmem
    · rw [if_neg hdone] at h
      have hrec := ih h
      refine ⟨hrec.heap, fun u => (hrec.deleted u).trans (or_congr_right ?_), hrec.rest,
        hrec.next.imp_left fun hn => ⟨hn.1, hn.2.1, fun n hnext hmem => ?_⟩⟩
      · refine ⟨fun hu => ⟨List.mem_cons_of_mem t hu.1, hu.2⟩, fun hu => ⟨?_, hu.2⟩⟩
        rcases List.mem_cons.1 hu.1 with rfl | hmem
        · exact absurd hu.2 hdone
        · exact hmem
      · rcases List.mem_cons.1 hmem with rfl | hmem
        · exact Bool.eq_false_iff.2 hdone
        · exact hn.2.2 n hnext hmem

theorem Deleted.kept {list : List TaskId} {flag : Bool} {s : TaskRunner × Bool}
    (h : Deleted r list flag s) : Kept r s.1 where
  parent_ u := by rw [h.heap u]
  children_ u := by rw [h.heap u]
  done_ u := by rw [h.heap u]
  aborted_ u := by rw [h.heap u]
  busy_ u := by rw [h.heap u]
  blocked_ u _ := by rw [h.heap u]
  seed := by rw [h.rest]
  root := by rw [h.rest]
  tasks_ u hu := by
    rw [h.rest] at hu
    exact Or.inl hu
  running := by rw [h.rest]
  log := by rw [h.rest]

theorem sweep_kept (h : r.sweep previous = some s) : Kept r s.1 := by
  obtain ⟨d, hd, rfl⟩ := Option.map_eq_some_iff.1 h
  have hkept := (deleteDone_deleted hd).kept
  have hfilter : Kept r { d.1 with tasks_ := d.1.tasks_.filter fun t => !(d.1.heap t).deleted } :=
    { hkept with tasks_ := fun u hu => hkept.tasks_ u (List.mem_of_mem_filter hu) }
  dsimp only
  split_ifs
  · exact hfilter.trans (TimersOnly.next _ _).kept
  · exact hfilter

theorem sweep_push (h : r.sweep previous = some s) :
    ∃ told, s.2 = told ++ [.runEnd] ∧ ∀ x ∈ told, x = .onTimeoutChange := by
  obtain ⟨d, hd, rfl⟩ := Option.map_eq_some_iff.1 h
  exact ⟨_, rfl, checkForTimeoutChange_push _ previous⟩

/-- The shapes of a round of the loop of `PollTasks`. -/
theorem poll_cases (r : TaskRunner) (old : Option TaskId) :
    r.poll old = (r, []) ∨ ∃ t, r.next_timeout_task_ = some t ∧ old ≠ some t ∧
      r.timedOut t = true ∧
      r.poll old = ((r.wake t).1, (r.wake t).2 ++ [.wakeTasks, .poll (some t)]) := by
  unfold poll
  cases hnext : r.next_timeout_task_ with
  | none => exact Or.inl rfl
  | some t =>
    dsimp only
    split_ifs with hout
    · obtain ⟨hold, htimed⟩ := Bool.and_eq_true_iff.1 hout
      exact Or.inr ⟨t, rfl, of_decide_eq_true hold, htimed, rfl⟩
    · exact Or.inl rfl

/-- The shapes of a round of the loops of `InternalRunTasks`. -/
inductive Running (r : TaskRunner) (i : Nat) (did_run : Bool) (previous : Int) :
    TaskRunner × List RunnerStmt → Prop where
  /-- a task is stepped -/
  | stepped (t : TaskId) (ht : t ∈ r.tasks_) (hlive : (r.heap t).deleted = false)
      (hunblocked : (r.heap t).blocked_ = false) :
      Running r i did_run previous
        ((r.step t).1, (r.step t).2 ++ [.runLoop i true previous])
  /-- the next task is looked at, or all of them again -/
  | looped (j : Nat) (did_run' : Bool) :
      Running r i did_run previous (r, [.runLoop j did_run' previous])
  /-- the loops end -/
  | swept {s : TaskRunner × List RunnerStmt} (h : r.sweep previous = some s) :
      Running r i did_run previous s

theorem runLoop_running {i : Nat} {did_run : Bool} (h : r.runLoop i did_run previous = some s) :
    Running r i did_run previous s := by
  unfold runLoop at h
  cases hi : r.tasks_[i]? with
  | some t =>
    rw [hi] at h
    dsimp only at h
    split_ifs at h with hdeleted hblocked
    · obtain rfl := Option.some.inj h
      refine .stepped t (List.mem_of_getElem? hi) (Bool.eq_false_iff.2 hdeleted) ?_
      rw [Bool.not_eq_true'] at hblocked
      exact hblocked
    · obtain rfl := Option.some.inj h
      exact .looped _ _
  | none =>
    rw [hi] at h
    dsimp only at h
    split_ifs at h
    · obtain rfl := Option.some.inj h
      exact .looped _ _
    · exact .swept h

/-- The shapes of the execution of a statement. -/
inductive Executed (r : TaskRunner) : RunnerStmt → TaskRunner × List RunnerStmt → Prop where
  | taskStop (t : TaskId) (hlive : (r.heap t).deleted = false) :
      Executed r (.taskStop t) (r, [.onStopped t (r.heap t).children_])
  | abortsChild (t c : TaskId) (copy : List TaskId) (hlive : (r.heap c).deleted = false) :
      Executed r (.onStopped t (c :: copy))
        ((r.abort c true).1, (r.abort c true).2 ++ [.onStopped t copy])
  | childStopped (t : TaskId) (hlive : (r.heap t).deleted = false) :
      Executed r (.onStopped t []) (r.onChildStopped t, [])
  | abortChildren (c : TaskId) (copy : List TaskId) (hlive : (r.heap c).deleted = false) :
      Executed r (.abortChildren (c :: copy))
        ((r.abort c true).1, (r.abort c true).2 ++ [.abortChildren copy])
  | childrenAborted : Executed r (.abortChildren []) (r, [])
  | blockAfterStop (t : TaskId) (hlive : (r.heap t).deleted = false) :
      Executed r (.blockAfterStop t) (r.set t { r.heap t with blocked_ := true }, [])
  | runLoop (i : Nat) (did_run : Bool) (previous : Int) {s : TaskRunner × List RunnerStmt}
      (h : Running r i did_run previous s) : Executed r (.runLoop i did_run previous) s
  | runEnd : Executed r .runEnd ({ r with tasks_running_ := false }, [])
  | poll (old : Option TaskId) : Executed r (.poll old) (r.poll old)

theorem exec_executed {x : RunnerStmt} (h : r.exec x = some s) : Executed r x s := by
  have hlive : ∀ {b : Bool} {a : TaskRunner × List RunnerStmt},
      (if b = true then none else some a) = some s → b = false ∧ a = s := by
    intro b a h
    obtain ⟨hb, ha⟩ := Option.ite_none_left_eq_some.1 h
    exact ⟨Bool.eq_false_iff.2 hb, Option.some.inj ha⟩
  cases x with
  | taskStop t =>
    obtain ⟨hd, rfl⟩ := hlive h
    exact .taskStop t hd
  | onStopped t copy =>
    cases copy with
    | nil =>
      obtain ⟨hd, rfl⟩ := hlive h
      exact .childStopped t (Bool.or_eq_false_iff.1 hd).1
    | cons c copy =>
      obtain ⟨hd, rfl⟩ := hlive h
      exact .abortsChild t c copy hd
  | abortChildren copy =>
    cases copy with
    | nil =>
      obtain rfl := Option.some.inj h
      exact .childrenAborted
    | cons c copy =>
      obtain ⟨hd, rfl⟩ := hlive h
      exact .abortChildren c copy hd
  | blockAfterStop t =>
    obtain ⟨hd, rfl⟩ := hlive h
    exact .blockAfterStop t hd
  | runLoop i did_run previous => exact .runLoop i did_run previous (runLoop_running h)
  | runEnd =>
    obtain rfl := Option.some.inj h
    exact .runEnd
  | poll old =>
    obtain rfl := Option.some.inj h
    exact .poll old
  | _ => cases h

end TaskRunner

end Gxmpp.TalkBase
