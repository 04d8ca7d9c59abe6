/-
Whether what `Wake` and `Error` ask for is done.

`Wake` clears `blocked_` when it is called, from outside or from inside, and `Step` sets it when
`Process` comes back with `STATE_BLOCKED`. The later write wins: a task that is woken, or told of
an error, in its own `Process` blocks all the same, and nobody steps it. An answer `STATE_DONE`
and an abort end a task that has an error in another state than `STATE_ERROR`. Where no step does
this, the runner comes to rest with nothing left to do.
-/
import Gxmpp.TaskLifecycle

set_option autoImplicit false

namespace Gxmpp.TalkBase

open Reentrant TaskRunner

/-! ## 1. The flags -/

/-- What `Wake` and `Error` have told a task is not forgotten. -/
structure Task.Heard (k : Task) : Prop where
  awake : k.done_ = false → k.woken = true ∨ k.error_ = true → k.blocked_ = false
  failing : k.failed = true → k.done_ = false → k.error_ = true
  failed : k.failed = true → k.done_ = true → k.state_ = STATE_ERROR

/-- With `error_`, a task must neither block nor end otherwise, and an abort must not have come
first; a task that was woken must not block. -/
def Task.MayAnswer (k : Task) (new_state : Int) : Prop :=
  (k.error_ = true → k.aborted_ = false ∧ new_state ≠ STATE_BLOCKED ∧ new_state ≠ STATE_DONE) ∧
  (k.woken = true → k.aborted_ = false → new_state ≠ STATE_BLOCKED)

instance (k : Task) (new_state : Int) : Decidable (k.MayAnswer new_state) :=
  inferInstanceAs (Decidable (_ ∧ _))

theorem Task.new_heard (parent : Option TaskId) : (Task.new parent).Heard := ⟨nofun, nofun, nofun⟩

namespace TaskRunner

variable {r s : TaskRunner} {t : TaskId}

/-- No task forgets. -/
def Heard (r : TaskRunner) : Prop := ∀ t, (r.heap t).Heard

theorem Heard.set {task : Task} (hr : r.Heard) (h : task.Heard) : (r.set t task).Heard := by
  intro u
  by_cases hu : u = t
  · rw [hu, set_heap_self]
    exact h
  · rw [set_heap_ne _ hu]
    exact hr u

theorem TimersOnly.heard (h : TimersOnly r s) (hr : r.Heard) : s.Heard := by
  intro u
  rw [h.heap u]
  exact ⟨(hr u).awake, (hr u).failing, (hr u).failed⟩

theorem ChildrenOnly.heard (h : ChildrenOnly r s) (hr : r.Heard) : s.Heard := by
  intro u
  rw [h.heap u]
  exact ⟨(hr u).awake, (hr u).failing, (hr u).failed⟩

theorem Deleted.heard {list : List TaskId} {flag : Bool} {d : TaskRunner × Bool}
    (h : Deleted r list flag d) (hr : r.Heard) : d.1.Heard := by
  intro u
  rw [h.heap u]
  exact ⟨(hr u).awake, (hr u).failing, (hr u).failed⟩

theorem wake_heard (hr : r.Heard) (t : TaskId) : (r.wake t).1.Heard := by
  unfold wake
  dsimp only
  split_ifs with hdone
  · exact hr
  all_goals
    exact hr.set ⟨fun _ _ => rfl, (hr t).failing, (hr t).failed⟩

theorem error_heard (hr : r.Heard) (t : TaskId) : (r.error t).1.Heard := by
  unfold error
  dsimp only
  split_ifs with hover
  · exact hr
  · -- `Wake` is what makes it true again
    have hundone : (r.heap t).done_ = false := by
      rw [Bool.or_eq_true, not_or] at hover
      exact Bool.eq_false_iff.2 hover.2
    unfold wake
    dsimp only
    rw [set_heap_self, if_neg (by rw [hundone]; exact Bool.false_ne_true), set_set]
    refine hr.set ⟨fun _ _ => rfl, fun _ _ => rfl, fun _ hdone => ?_⟩
    rw [hundone] at hdone
    cases hdone

/-- An abort, unless it is of a task with an error. -/
theorem abort_heard (hr : r.Heard) {nowake : Bool}
    (herror : (r.heap t).done_ = false → (r.heap t).error_ = false) :
    (r.abort t nowake).1.Heard := by
  unfold abort
  dsimp only
  split_ifs with hdone hbusy
  · exact hr
  · exact hr.set ⟨(hr t).awake, (hr t).failing, (hr t).failed⟩
  all_goals
    have hundone := Bool.eq_false_iff.2 hdone
    refine hr.set ⟨nofun, nofun, fun hfailed _ => ?_⟩
    have herror' := (hr t).failing hfailed hundone
    rw [herror hundone] at herror'
    cases herror'

theorem step_heard (hr : r.Heard) (t : TaskId) : (r.step t).1.Heard := by
  unfold step
  dsimp only
  split_ifs with hdone herror
  · refine hr.set ⟨fun hundone => ?_, (hr t).failing, (hr t).failed⟩
    rw [hdone] at hundone
    cases hundone
  · exact hr.set ⟨nofun, nofun, fun _ _ => rfl⟩
  · refine hr.set ⟨fun _ hpending => ?_, (hr t).failing, (hr t).failed⟩
    exact absurd (hpending.resolve_left Bool.false_ne_true) herror

/-- `Step`, after a `Process` with a fit answer. -/
theorem processed_heard (hr : r.Heard) {new_state : Int} (hundone : (r.heap t).done_ = false)
    (hanswer : (r.heap t).MayAnswer new_state) : (r.processed t new_state).1.Heard := by
  obtain ⟨herror, hwoken⟩ := hanswer
  have hidle : (r.set t { r.heap t with busy_ := false }).Heard :=
    hr.set ⟨(hr t).awake, (hr t).failing, (hr t).failed⟩
  unfold processed
  by_cases haborted : (r.heap t).aborted_ = true
  · rw [if_pos haborted]
    refine abort_heard hidle fun _ => ?_
    rw [set_heap_self]
    refine Bool.eq_false_iff.2 fun h => ?_
    rw [(herror h).1] at haborted
    cases haborted
  rw [if_neg haborted]
  have haborted' := Bool.eq_false_iff.2 haborted
  have hadvance : (r.advance t new_state).Heard ∧
      ((r.advance t new_state).heap t).failed = (r.heap t).failed ∧
      ((r.advance t new_state).heap t).done_ = false ∧
      (new_state = STATE_ERROR → ((r.advance t new_state).heap t).state_ = STATE_ERROR) := by
    unfold advance
    dsimp only
    by_cases hblocked : new_state = STATE_BLOCKED
    · rw [if_pos hblocked, set_heap_self]
      refine ⟨hr.set ⟨fun _ hpending => ?_, (hr t).failing, (hr t).failed⟩, rfl, hundone, ?_⟩
      · rcases hpending with h | h
        · exact absurd hblocked (hwoken h haborted')
        · exact absurd hblocked (herror h).2.1
      · intro h
        rw [hblocked] at h
        cases h
    · rw [if_neg hblocked]
      have htimers := resetTimeout_timers (r.set t { r.heap t with
        busy_ := false
        state_ := new_state
        blocked_ := false }) t
      have hset : (r.set t { r.heap t with
          busy_ := false
          state_ := new_state
          blocked_ := false }).Heard := by
        refine hr.set ⟨fun _ _ => rfl, (hr t).failing, fun _ hdone => ?_⟩
        rw [hundone] at hdone
        cases hdone
      refine ⟨htimers.heard hset, ?_⟩
      rw [htimers.heap t, set_heap_self]
      exact ⟨rfl, hundone, id⟩
  have hfinish : ((r.advance t new_state).finish t new_state).Heard := by
    obtain ⟨hheard, hfailed, hundone', hstate⟩ := hadvance
    unfold finish
    dsimp only
    split_ifs with hdone hfail
    · refine hheard.set ⟨nofun, nofun, fun h _ => ?_⟩
      rw [hfailed] at h
      exact absurd hdone (herror ((hr t).failing h hundone)).2.2
    · exact hheard.set ⟨nofun, nofun, fun _ _ => hstate hfail⟩
    · exact hheard
  dsimp only
  split_ifs <;> exact hfinish

theorem start_heard (hr : r.Heard) (t : TaskId) : (r.start t).1.Heard := by
  unfold start
  dsimp only
  split_ifs
  · exact hr
  · refine (updateTaskTimeout_timers _ t 0).heard ?_
    exact Heard.set (r := r) hr ⟨(hr t).awake, (hr t).failing, (hr t).failed⟩

theorem construct_heard (hr : r.Heard) (parent : Option TaskId) (position : Nat) :
    (r.construct parent position).Heard := by
  unfold construct
  dsimp only
  refine (setChildren_only _ parent _).heard ?_
  exact Heard.set (r := r) hr (Task.new_heard parent)

theorem enter_heard (hr : r.Heard) {m : RunnerCall}
    (habort : ∀ u nowake, m = .abort u nowake →
      (r.heap u).done_ = false → (r.heap u).error_ = false) : (r.enter m).1.Heard := by
  cases m with
  | construct parent position => exact construct_heard hr parent position
  | start u => exact start_heard hr u
  | abort u nowake => exact abort_heard hr (habort u nowake rfl)
  | wake u => exact wake_heard hr u
  | error u => exact error_heard hr u
  | setTimeoutSeconds u n => exact (setTimeoutSeconds_timers r u n).heard hr
  | resetTimeout u => exact (resetTimeout_timers r u).heard hr
  | clearTimeout u => exact (clearTimeout_timers r u).heard hr
  | suspendTimeout u => exact (setSuspended_timers r u true).heard hr
  | resumeTimeout u => exact (setSuspended_timers r u false).heard hr
  | runTasks =>
    unfold enter
    dsimp only
    split_ifs <;> exact hr
  | _ => exact hr

theorem sweep_heard {previous : Int} {d : TaskRunner × List RunnerStmt} (hr : r.Heard)
    (h : r.sweep previous = some d) : d.1.Heard := by
  obtain ⟨d, hd, rfl⟩ := Option.map_eq_some_iff.1 h
  have hdeleted := (deleteDone_deleted hd).heard hr
  dsimp only
  split_ifs <;> exact hdeleted

end TaskRunner

/-! ## 2. Rounds -/

/-- The loops of `InternalRunTasks`, in a round in which no task was stepped. -/
def RunnerStmt.Idle (x : RunnerStmt) : Prop := ∃ i previous, x = .runLoop i false previous

/-- The tasks that such a round has come past are blocked. It calls nobody. -/
def roundInv : Invariant TaskRunner RunnerStmt where
  global := TaskRunner.Heard
  frame r x := ∀ i previous, x = .runLoop i false previous →
    ∀ j < i, ∀ t, r.tasks_[j]? = some t → (r.heap t).blocked_ = true
  below _ l := ¬l.Idle

section Rounds

variable {r s : TaskRunner} {push : List RunnerStmt} {under : RunnerStmt → Prop}

/-- What is pushed is no idle round. -/
theorem roundInv_preserved (hs : s.Heard) (hpush : ∀ x ∈ push, ¬x.Idle)
    (hunder : ∀ l, under l → ¬l.Idle) : roundInv.Preserved r s push under where
  global := hs
  frame x hx i previous h := absurd ⟨i, previous, h⟩ (hpush x hx)
  below := List.pairwise_of_forall_mem_list fun _ _ l hl => hpush l hl
  rest l _ hl := ⟨fun i previous h => absurd ⟨i, previous, h⟩ (hunder l hl), fun _ _ => hunder l hl⟩

/-- An idle round is at the top. -/
theorem roundInv_preserved_round {x : RunnerStmt} (hs : s.Heard) (hx : roundInv.frame s x)
    (hunder : ∀ l, under l → ¬l.Idle) : roundInv.Preserved r s [x] under where
  global := hs
  frame y hy := by
    rw [List.mem_singleton.1 hy]
    exact hx
  below := List.pairwise_singleton _ _
  rest l _ hl := ⟨fun i previous h => absurd ⟨i, previous, h⟩ (hunder l hl), fun _ _ => hunder l hl⟩

theorem not_idle_of_notifies {x : RunnerStmt} (h : x.notifies = true) : ¬x.Idle := by
  rintro ⟨i, previous, rfl⟩
  cases h

theorem stopCode_not_idle (t : TaskId) : ∀ x ∈ stopCode t, ¬x.Idle := by
  intro x hx
  rintro ⟨i, previous, rfl⟩
  simp [stopCode] at hx

theorem not_idle_append {l m : List RunnerStmt} (hl : ∀ x ∈ l, ¬x.Idle) (hm : ∀ x ∈ m, ¬x.Idle) :
    ∀ x ∈ l ++ m, ¬x.Idle := fun x hx => (List.mem_append.1 hx).elim (hl x) (hm x)

theorem not_idle_singleton {x : RunnerStmt} (h : ¬x.Idle) : ∀ y ∈ [x], ¬y.Idle := fun y hy => by
  rw [List.mem_singleton.1 hy]
  exact h

theorem abort_not_idle (r : TaskRunner) (t : TaskId) (nowake : Bool) :
    ∀ x ∈ (r.abort t nowake).2, ¬x.Idle := by
  have h := abort_aborting r t nowake
  generalize r.abort t nowake = s at h
  cases h with
  | done | busy => exact List.forall_mem_nil _
  | stopped h hidle hblocked hdone =>
    refine not_idle_append (stopCode_not_idle t) ?_
    cases nowake with
    | true => exact List.forall_mem_nil _
    | false => exact not_idle_singleton (not_idle_of_notifies rfl)

/-- A round of the loops. -/
theorem runLoop_round {i : Nat} {did_run : Bool} {previous : Int}
    {d : TaskRunner × List RunnerStmt} (hr : r.Heard)
    (hx : roundInv.frame r (.runLoop i did_run previous))
    (h : r.runLoop i did_run previous = some d) :
    roundInv.Preserved r d.1 d.2 fun l => ¬l.Idle := by
  unfold runLoop at h
  cases hi : r.tasks_[i]? with
  | some t =>
    rw [hi] at h
    dsimp only at h
    split_ifs at h with hdeleted hblocked
    · obtain rfl := Option.some.inj h
      refine roundInv_preserved (step_heard hr t) (not_idle_append ?_ (not_idle_singleton ?_))
        fun _ => id
      · unfold step
        dsimp only
        split_ifs
        · exact List.forall_mem_nil _
        · exact stopCode_not_idle t
        · exact not_idle_singleton nofun
      · rintro ⟨j, previous', h'⟩
        cases h'
    · obtain rfl := Option.some.inj h
      refine roundInv_preserved_round hr ?_ fun _ => id
      rintro j previous' h' k hk u hu
      -- the task at `i` is the one that the round has just come past
      obtain ⟨rfl, rfl, -⟩ := RunnerStmt.runLoop.inj h'
      rcases Nat.lt_succ_iff_lt_or_eq.1 hk with hk | rfl
      · exact hx i previous rfl k hk u hu
      · obtain rfl := Option.some.inj (hi.symm.trans hu)
        rw [Bool.not_eq_true', Bool.not_eq_false] at hblocked
        exact hblocked
  | none =>
    rw [hi] at h
    dsimp only at h
    split_ifs at h
    · obtain rfl := Option.some.inj h
      refine roundInv_preserved_round hr ?_ fun _ => id
      rintro j previous' h' k hk
      obtain ⟨rfl, -, -⟩ := RunnerStmt.runLoop.inj h'
      exact absurd hk (Nat.not_lt_zero k)
    · obtain ⟨told, hpush, htold⟩ := sweep_push h
      rw [hpush]
      refine roundInv_preserved (sweep_heard hr h) (not_idle_append (fun x hx' => ?_)
        (not_idle_singleton nofun)) fun _ => id
      rw [htold x hx']
      exact not_idle_of_notifies rfl

/-- The task that a statement aborts. -/
def RunnerStmt.aborts : RunnerStmt → Option TaskId
  | .onStopped _ (c :: _) | .abortChildren (c :: _) => some c
  | _ => none

/-- The execution of a statement. -/
theorem exec_round {x : RunnerStmt} {d : TaskRunner × List RunnerStmt} (hr : r.Heard)
    (hx : roundInv.frame r x) (h : r.exec x = some d)
    (habort : ∀ u ∈ x.aborts, (r.heap u).done_ = false → (r.heap u).error_ = false)
    (hdone : ∀ t, x = .blockAfterStop t → (r.heap t).done_ = true) :
    roundInv.Preserved r d.1 d.2 fun l => ¬l.Idle := by
  cases exec_executed h with
  | taskStop t hlive => exact roundInv_preserved hr (not_idle_singleton nofun) fun _ => id
  | abortsChild t c | abortChildren c =>
    exact roundInv_preserved (abort_heard hr (habort c rfl))
      (not_idle_append (abort_not_idle r c true) (not_idle_singleton nofun)) fun _ => id
  | childStopped t hlive =>
    exact roundInv_preserved ((onChildStopped_children r t).1.heard hr) (List.forall_mem_nil _)
      fun _ => id
  | childrenAborted => exact roundInv_preserved hr (List.forall_mem_nil _) fun _ => id
  | blockAfterStop t hlive =>
    refine roundInv_preserved (hr.set ⟨fun hundone => ?_, (hr t).failing, (hr t).failed⟩)
      (List.forall_mem_nil _) fun _ => id
    rw [hdone t rfl] at hundone
    cases hundone
  | runLoop i did_run previous _ => exact runLoop_round hr hx h
  | runEnd =>
    exact roundInv_preserved (s := { r with tasks_running_ := false }) hr (List.forall_mem_nil _)
      fun _ => id
  | poll old =>
    rcases poll_cases r old with hpoll | ⟨t, -, -, -, hpoll⟩
    · rw [hpoll]
      exact roundInv_preserved hr (List.forall_mem_nil _) fun _ => id
    · rw [hpoll]
      refine roundInv_preserved (wake_heard hr t)
        (not_idle_append (fun x hx' => ?_) fun x hx' => ?_) fun _ => id
      · rw [wake_push r t x hx']
        exact not_idle_of_notifies rfl
      · rcases List.mem_cons.1 hx' with rfl | hx'
        · exact not_idle_of_notifies rfl
        · rw [List.mem_singleton.1 hx']
          exact nofun

/-- The entry of a function. -/
theorem enter_round {m : RunnerCall} (hr : r.Heard)
    (habort : ∀ u nowake, m = .abort u nowake →
      (r.heap u).done_ = false → (r.heap u).error_ = false)
    (hunder : ∀ l, under l → ¬l.Idle) :
    roundInv.Preserved r (r.enter m).1 (r.enter m).2 under := by
  by_cases hrun : m = .runTasks ∧ r.tasks_running_ = false
  · obtain ⟨rfl, hrun⟩ := hrun
    unfold enter
    dsimp only
    rw [hrun, if_neg Bool.false_ne_true]
    refine roundInv_preserved_round (s := { r with tasks_running_ := true }) hr ?_ hunder
    rintro i previous h j hj
    obtain ⟨rfl, -, -⟩ := RunnerStmt.runLoop.inj h
    exact absurd hj (Nat.not_lt_zero j)
  refine roundInv_preserved (enter_heard hr habort) ?_ hunder
  have hchange : ∀ {l : List RunnerStmt}, (∀ x ∈ l, x = .onTimeoutChange) → ∀ x ∈ l, ¬x.Idle :=
    fun h x hx => by
      rw [h x hx]
      exact not_idle_of_notifies rfl
  have hwake : ∀ {l : List RunnerStmt}, (∀ x ∈ l, x = .wakeTasks) → ∀ x ∈ l, ¬x.Idle :=
    fun h x hx => by
      rw [h x hx]
      exact not_idle_of_notifies rfl
  cases m with
  | start u => exact fun x hx => not_idle_of_notifies (start_push r u x hx)
  | abort u nowake => exact abort_not_idle r u nowake
  | wake u => exact hwake (wake_push r u)
  | error u => exact hwake (error_push r u)
  | abortAllChildren | pollTasks => exact not_idle_singleton nofun
  | setTimeoutSeconds | resetTimeout | clearTimeout => exact hchange (updateTaskTimeout_push _ _ _)
  | suspendTimeout u => exact hchange (setSuspended_push r u true)
  | resumeTimeout u => exact hchange (setSuspended_push r u false)
  | runTasks =>
    have hrunning : r.tasks_running_ = true := by
      rw [not_and, Bool.not_eq_false] at hrun
      exact hrun rfl
    unfold enter
    dsimp only
    rw [if_pos hrunning]
    exact List.forall_mem_nil _
  | _ => exact List.forall_mem_nil _

/-- The return of `Process`. -/
theorem processed_round {t : TaskId} {new_state : Int} (hr : r.Heard)
    (hundone : (r.heap t).done_ = false) (hanswer : (r.heap t).MayAnswer new_state)
    (hunder : ∀ l, under l → ¬l.Idle) :
    roundInv.Preserved r (r.processed t new_state).1 (r.processed t new_state).2 under := by
  refine roundInv_preserved (processed_heard hr hundone hanswer) ?_ hunder
  have h := processed_processed new_state hundone
  generalize r.processed t new_state = s at h
  cases h with
  | aborted h haborted hblocked hdone => exact stopCode_not_idle t
  | goesOn h haborted hend hundone hidle => exact List.forall_mem_nil _
  | ended h haborted hend hdone =>
    exact not_idle_append (stopCode_not_idle t) (not_idle_singleton nofun)

end Rounds

/-! ## 3. The runs -/

/-- The task that is aborted. -/
def RunnerConf.aborts (c : RunnerConf) : Act RunnerCall Int → Option TaskId
  | .tick => c.control.head?.bind RunnerStmt.aborts
  | .call (.abort t _) => some t
  | _ => none

/-- The task whose `Process` comes back, and with what. -/
def RunnerConf.answers (c : RunnerConf) : Act RunnerCall Int → Option (TaskId × Int)
  | .ret new_state => match c.control.head? with
      | some (.process t) => some (t, new_state)
      | _ => none
  | _ => none

/-- A step keeps to the rules, aborts no task with an error, and lets no `Process` come back with
an answer that makes the task forget. -/
def Heeds (c : RunnerConf) (a : Act RunnerCall Int) : Prop :=
  a.Allowed TaskRules c ∧
  (∀ t ∈ c.aborts a, (c.state.heap t).done_ = false → (c.state.heap t).error_ = false) ∧
  ∀ p ∈ c.answers a, (c.state.heap p.1).MayAnswer p.2

instance (c : RunnerConf) (a : Act RunnerCall Int) : Decidable (Heeds c a) :=
  inferInstanceAs (Decidable (_ ∧ (∀ t ∈ c.aborts a, _) ∧ ∀ p ∈ c.answers a, _))

theorem round_step {c c' : RunnerConf} {a : Act RunnerCall Int} (h : roundInv.Holds c)
    (hc : Tended c) (hK : Heeds c a) (hs : taskRunner.step c a = some c') : roundInv.Holds c' := by
  obtain ⟨-, haborts, hanswers⟩ := hK
  have hframe : ∀ {x}, c.control.head? = some x → LifeFrame c.state x := fun hx =>
    hc.holds.frame _ (List.mem_of_mem_head? hx)
  refine h.step hs ?_ ?_ ?_
  · rintro x s push rfl hhead hr hx hexec
    refine exec_round (d := (s, push)) hr hx hexec (fun u hu => ?_) fun t ht => ?_
    · refine haborts u ?_
      rw [RunnerConf.aborts, hhead]
      exact hu
    · have ht' := hframe hhead
      rw [ht] at ht'
      exact ht'.2
  · rintro m rfl hr
    refine enter_round hr (fun u nowake hm => ?_) ?_
    · rw [hm] at haborts
      exact haborts u rfl
    · rintro l ⟨f, hf, -, rfl | hl⟩
      · rintro ⟨i, previous, rfl⟩
        cases hf
      · exact hl
  · rintro x new_state rfl hhead hr - hf
    have hunder : ∀ l, roundInv.below x l → ¬l.Idle := fun _ => id
    cases x with
    | process t =>
      have hundone := hc.holds.global.undone t (hframe hhead).2.1
      refine processed_round hr hundone (hanswers (t, new_state) ?_) hunder
      rw [RunnerConf.answers, hhead]
      rfl
    | _ => exact roundInv_preserved hr (List.forall_mem_nil _) hunder

theorem round_init : roundInv.Holds RunnerConf.init where
  global _ := Task.new_heard none
  frame := List.forall_mem_nil _
  below := List.Pairwise.nil

theorem round_run {c : RunnerConf} (h : taskRunner.ReachesWhen Heeds RunnerConf.init c) :
    roundInv.Holds c :=
  ReachesWhen.invariant (I := roundInv.Holds) h round_init fun _ _ _ hreach hI hK hs =>
    round_step hI (Attainable.tended (ReachesWhen.reaches (fun _ _ hK => hK.1) hreach)) hK hs

/-- The loops of `InternalRunTasks` are at their end: no task was stepped in the last round. -/
def ComesToRest (c : RunnerConf) : Prop :=
  ∃ i previous, c.control.head? = some (.runLoop i false previous) ∧ c.state.tasks_.length ≤ i

/-- No wake-up and no error is lost. -/
structure NoneLost (c : RunnerConf) : Prop where
  /-- no task rests blocked with a wake or an error that is still to be seen to -/
  blocked : ∀ t, (c.state.heap t).done_ = false → (c.state.heap t).blocked_ = true →
    (c.state.heap t).woken = false ∧ (c.state.heap t).error_ = false
  /-- before the runner comes to rest, a task that is not at its end was stepped again -/
  stepped : ComesToRest c → ∀ t ∈ c.state.tasks_, (c.state.heap t).done_ = false →
    (c.state.heap t).woken = false
  /-- and a task of which `Error` was called is done, with `STATE_ERROR` -/
  failed : ComesToRest c → ∀ t ∈ c.state.tasks_, (c.state.heap t).failed = true →
    (c.state.heap t).done_ = true ∧ (c.state.heap t).state_ = STATE_ERROR

theorem Task.Heard.blocked {k : Task} (h : k.Heard) (hundone : k.done_ = false)
    (hblocked : k.blocked_ = true) : k.woken = false ∧ k.error_ = false := by
  have hnot : ¬(k.woken = true ∨ k.error_ = true) := fun hpending => by
    rw [h.awake hundone hpending] at hblocked
    cases hblocked
  rw [not_or, Bool.not_eq_true, Bool.not_eq_true] at hnot
  exact hnot

/-- When the runner comes to rest, its tasks are blocked. -/
theorem blocked_of_rest {c : RunnerConf} (h : roundInv.Holds c) (hrest : ComesToRest c) :
    ∀ t ∈ c.state.tasks_, (c.state.heap t).blocked_ = true := by
  obtain ⟨i, previous, hhead, hlength⟩ := hrest
  intro t ht
  obtain ⟨j, hj, rfl⟩ := List.getElem_of_mem ht
  exact h.frame _ (List.mem_of_mem_head? hhead) i previous rfl j (Nat.lt_of_lt_of_le hj hlength) _
    (List.getElem?_eq_getElem hj)

/-- No wake-up and no error is lost, in every run without such an abort or such an answer. -/
theorem none_lost {c : RunnerConf} (h : taskRunner.ReachesWhen Heeds RunnerConf.init c) :
    NoneLost c := by
  have hround := round_run h
  have hheard : c.state.Heard := hround.global
  refine ⟨fun t => (hheard t).blocked, fun hrest t ht hundone => ?_, fun hrest t ht hfailed => ?_⟩
  · exact ((hheard t).blocked hundone (blocked_of_rest hround hrest t ht)).1
  · have hdone : (c.state.heap t).done_ = true := by
      by_contra hundone
      rw [Bool.not_eq_true] at hundone
      have herror := ((hheard t).blocked hundone (blocked_of_rest hround hrest t ht)).2
      rw [(hheard t).failing hfailed hundone] at herror
      cases herror
    exact ⟨hdone, (hheard t).failed hfailed hdone⟩

/-- Two tasks are made and started. The first one wakes itself in its `Process`, and goes on; the
second one is told of an error there. -/
def wakesItself : List (Act RunnerCall Int) :=
  [.call (.construct none 0), .call (.construct none 0), .call (.start 0), .ret 0,
    .call (.start 1), .ret 0, .call .runTasks, .tick, .call (.wake 0), .ret STATE_START, .tick,
    .call (.error 1), .ret STATE_BLOCKED, .tick, .tick]

/-- The first one is stepped again, and the second one ends with `STATE_ERROR`. -/
theorem none_lost_woken : ∃ c, taskRunner.ReachesWhen Heeds RunnerConf.init c ∧ ComesToRest c ∧
    c.state.tasks_ = [0, 1] ∧ (c.state.heap 0).woken = false ∧
    (c.state.heap 1).done_ = true ∧ (c.state.heap 1).state_ = STATE_ERROR := by
  obtain ⟨c, hc, hp⟩ := exists_of_follow (P := taskRunner) (K := Heeds) (c := RunnerConf.init)
    (l := wakesItself ++ [.ret 0, .tick, .tick, .ret 0, .tick, .tick, .tick, .tick])
    (p := fun c => decide (c.control.head? = some (.runLoop 2 false 0)) &&
      (decide (c.state.tasks_ = [0, 1]) && (!(c.state.heap 0).done_ && (c.state.heap 1).failed)))
    (by decide +kernel)
  simp only [Bool.and_eq_true, decide_eq_true_eq, Bool.not_eq_true'] at hp
  obtain ⟨hhead, htasks, hundone, hfailed⟩ := hp
  have hrest : ComesToRest c := ⟨2, 0, hhead, by rw [htasks]; exact Nat.le_refl 2⟩
  have hlost := none_lost hc
  exact ⟨c, hc, hrest, htasks, hlost.stepped hrest 0 (by rw [htasks]; decide) hundone,
    hlost.failed hrest 1 (by rw [htasks]; decide) hfailed⟩

/-- A task is made and started, it is told of an error in its `Process`, and answers that it is
blocked. It rests so when the runner does. -/
theorem error_lost : ¬∀ c, Attainable c → NoneLost c := by
  intro hall
  obtain ⟨c, hc, hp⟩ := exists_of_drive (G := TaskRules) (P := taskRunner) (n := 40)
    (c := RunnerConf.init)
    (l := [.call (.construct none 0), .call (.start 0), .ret 0, .call .runTasks, .ret STATE_START,
      .call (.error 0), .ret STATE_BLOCKED])
    (p := fun c => c.control.isEmpty && (!(c.state.heap 0).done_ && ((c.state.heap 0).blocked_ &&
      ((c.state.heap 0).woken && (c.state.heap 0).error_)))) (by decide +kernel)
  simp only [Bool.and_eq_true, Bool.not_eq_true'] at hp
  obtain ⟨-, hundone, hblocked, hwoken, -⟩ := hp
  have hlost := ((hall c hc).blocked 0 hundone hblocked).1
  rw [hwoken] at hlost
  cases hlost

end Gxmpp.TalkBase
