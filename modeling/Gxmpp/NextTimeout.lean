/-
Which task is the next to time out.

`next_timeout_task_` is the minimum of the deadlines, kept up to date one change at a time.
`UpdateTaskTimeout` compares a new deadline with that of the task it has, also when the two are
the same task: a task that is the next one and postpones its own deadline stays the next one,
whatever the others are waiting for.
-/
import Mathlib.Data.List.Induction
import Gxmpp.TaskLifecycle

set_option autoImplicit false

namespace Gxmpp.TalkBase

open Reentrant TaskRunner

namespace TaskRunner

/-- When a task times out; 0 is never. -/
def deadline (r : TaskRunner) (t : TaskId) : Int := (r.heap t).timer.timeout_time_

/-- A task that was started and is not done. -/
def Live (r : TaskRunner) (t : TaskId) : Prop := t ∈ r.tasks_ ∧ (r.heap t).done_ = false

/-! ## 1. The minimum -/

section Minimum

variable {r : TaskRunner} {exclude : Option TaskId} {list : List TaskId}
  {next : Int × Option TaskId}

/-- What `RecalcNextTimeout` looks for. -/
def Candidate (r : TaskRunner) (exclude : Option TaskId) (t : TaskId) : Prop :=
  (r.heap t).done_ = false ∧ 0 < r.deadline t ∧ exclude ≠ some t

/-- The candidate of a list with the smallest deadline. -/
inductive Nearest (r : TaskRunner) (exclude : Option TaskId) (list : List TaskId) :
    Int × Option TaskId → Prop where
  | none (h : ∀ u ∈ list, ¬Candidate r exclude u) : Nearest r exclude list (0, .none)
  | some (t : TaskId) (ht : t ∈ list) (hc : Candidate r exclude t)
      (h : ∀ u ∈ list, Candidate r exclude u → r.deadline t ≤ r.deadline u) :
      Nearest r exclude list (r.deadline t, .some t)

theorem recalcStep_taken {t : TaskId} (hc : Candidate r exclude t)
    (h : next.1 = 0 ∨ r.deadline t ≤ next.1) :
    r.recalcStep exclude next t = (r.deadline t, some t) := by
  obtain ⟨hdone, hpos, hne⟩ := hc
  have hpos' : (r.heap t).timer.timeout_time_ > 0 := hpos
  have h' : next.1 = 0 ∨ (r.heap t).timer.timeout_time_ ≤ next.1 := h
  unfold recalcStep
  dsimp only
  rw [if_pos (by simp [hdone, hpos', hne, h'])]
  rfl

theorem recalcStep_left {t : TaskId}
    (h : ¬(Candidate r exclude t ∧ (next.1 = 0 ∨ r.deadline t ≤ next.1))) :
    r.recalcStep exclude next t = next := by
  unfold recalcStep
  dsimp only
  refine if_neg fun hif => h ?_
  simp only [Bool.and_eq_true, Bool.or_eq_true, Bool.not_eq_true', decide_eq_true_eq] at hif
  obtain ⟨⟨⟨hdone, hpos⟩, hne⟩, hless⟩ := hif
  exact ⟨⟨hdone, hpos, hne⟩, hless⟩

/-- One round of the loop. -/
theorem recalcStep_nearest (h : Nearest r exclude list next) (t : TaskId) :
    Nearest r exclude (list ++ [t]) (r.recalcStep exclude next t) := by
  have hlast : ∀ {p : TaskId → Prop}, (∀ u ∈ list, p u) → p t → ∀ u ∈ list ++ [t], p u :=
    fun hlist ht u hu => (List.mem_append.1 hu).elim (hlist u) fun hu =>
      (List.mem_singleton.1 hu).symm ▸ ht
  by_cases hc : Candidate r exclude t
  · cases h with
    | none h =>
      rw [recalcStep_taken hc (Or.inl rfl)]
      refine .some t (List.mem_append_right _ (List.mem_singleton_self t)) hc ?_
      exact hlast (fun u hu hcu => absurd hcu (h u hu)) fun _ => Int.le_refl _
    | some n hn hcn h =>
      by_cases hless : r.deadline t ≤ r.deadline n
      · rw [recalcStep_taken hc (Or.inr hless)]
        refine .some t (List.mem_append_right _ (List.mem_singleton_self t)) hc ?_
        exact hlast (fun u hu hcu => Int.le_trans hless (h u hu hcu)) fun _ => Int.le_refl _
      · have hpos := hcn.2.1
        rw [recalcStep_left (by rintro ⟨-, hz | hle⟩ <;> simp only at * <;> omega)]
        refine .some n (List.mem_append_left _ hn) hcn (hlast h fun _ => ?_)
        omega
  · rw [recalcStep_left fun hand => hc hand.1]
    cases h with
    | none h => exact .none (hlast h hc)
    | some n hn hcn h =>
      exact .some n (List.mem_append_left _ hn) hcn (hlast h fun hcu => absurd hcu hc)

theorem recalc_nearest (r : TaskRunner) (exclude : Option TaskId) (list : List TaskId) :
    Nearest r exclude list (list.foldl (r.recalcStep exclude) (0, none)) := by
  induction list using List.reverseRecOn with
  | nil => exact .none nofun
  | append_singleton list t ih =>
    rw [List.foldl_append, List.foldl_cons, List.foldl_nil]
    exact recalcStep_nearest ih t

/-- What `RecalcNextTimeout` finds. -/
theorem recalcNextTimeout_next (r : TaskRunner) (exclude : Option TaskId) :
    (∀ t, (r.recalcNextTimeout exclude).next_timeout_task_ = some t →
      t ∈ r.tasks_ ∧ Candidate r exclude t) ∧
    ∀ u ∈ r.tasks_, Candidate r exclude u →
      ∃ t, (r.recalcNextTimeout exclude).next_timeout_task_ = some t ∧
        r.deadline t ≤ r.deadline u := by
  have h := recalc_nearest r exclude r.tasks_
  unfold recalcNextTimeout
  dsimp only
  generalize r.tasks_.foldl (r.recalcStep exclude) (0, none) = next at h
  cases h with
  | none h => exact ⟨nofun, fun u hu hc => absurd hc (h u hu)⟩
  | some n hn hc h =>
    refine ⟨fun t ht => ?_, fun u hu hcu => ⟨n, rfl, h u hu hcu⟩⟩
    obtain rfl := Option.some.inj ht
    exact ⟨hn, hc⟩

/-- The shapes of what `UpdateTaskTimeout` makes of the next task to time out. -/
inductive Updated (r : TaskRunner) (t : TaskId) : Option TaskId → Prop where
  /-- `t` is the next one: there was none, or `t` is no later -/
  | nearer (ht : r.deadline t ≠ 0)
      (h : ∀ n, r.next_timeout_task_ = some n → r.deadline t ≤ r.deadline n) :
      Updated r t (some t)
  | later (n : TaskId) (ht : r.deadline t ≠ 0) (hn : r.next_timeout_task_ = some n)
      (h : r.deadline n < r.deadline t) : Updated r t (some n)
  /-- `t` was the next one, and times out no more -/
  | recalc (ht : r.deadline t = 0) (hn : r.next_timeout_task_ = some t) :
      Updated r t (r.recalcNextTimeout (some t)).next_timeout_task_
  | other (ht : r.deadline t = 0) (hn : r.next_timeout_task_ ≠ some t) :
      Updated r t r.next_timeout_task_

theorem updateNext_updated (r : TaskRunner) (t : TaskId) :
    Updated r t (r.updateNext t).next_timeout_task_ := by
  unfold updateNext
  by_cases ht : (r.heap t).timer.timeout_time_ ≠ 0
  · rw [if_pos ht]
    cases hn : r.next_timeout_task_ with
    | none => exact .nearer ht fun n hn' => by rw [hn] at hn'; cases hn'
    | some n =>
      dsimp only
      split_ifs with hle
      · refine .nearer ht fun m hm => ?_
        rw [hn] at hm
        rw [← Option.some.inj hm]
        exact hle
      · rw [hn]
        exact .later n ht hn (Int.lt_of_not_ge hle)
  · rw [if_neg ht]
    split_ifs with hn
    · exact .recalc (not_not.1 ht) hn
    · exact .other (not_not.1 ht) hn

end Minimum

/-! ## 2. What the functions do to the timeouts -/

section Shapes

variable {r s s' : TaskRunner} {t : TaskId}

/-- No timeout changes; a task of the list may be stepped or come to its end. -/
structure Calm (r s : TaskRunner) : Prop where
  timer : ∀ t, (s.heap t).timer = (r.heap t).timer
  state_ : ∀ t, (s.heap t).state_ = (r.heap t).state_ ∨
    (t ∈ r.tasks_ ∧ (s.heap t).state_ ≠ STATE_INIT)
  deleted : ∀ t, (s.heap t).deleted = (r.heap t).deleted
  done_ : ∀ t, (s.heap t).done_ = false → (r.heap t).done_ = false
  busy_ : ∀ t, (s.heap t).busy_ = true → (r.heap t).busy_ = true ∨ t ∈ r.tasks_
  tasks_ : s.tasks_ = r.tasks_
  next : s.next_timeout_task_ = r.next_timeout_task_

theorem Calm.refl (r : TaskRunner) : Calm r r :=
  ⟨fun _ => rfl, fun _ => Or.inl rfl, fun _ => rfl, fun _ => id, fun _ => Or.inl, rfl, rfl⟩

/-- The rest of the runner does not matter. -/
theorem Calm.congr (h : Calm r s) (hheap : s'.heap = s.heap) (htasks : s'.tasks_ = s.tasks_)
    (hnext : s'.next_timeout_task_ = s.next_timeout_task_) : Calm r s' where
  timer u := by rw [hheap, h.timer]
  state_ u := by rw [hheap]; exact h.state_ u
  deleted u := by rw [hheap, h.deleted]
  done_ u := by rw [hheap]; exact h.done_ u
  busy_ u := by rw [hheap]; exact h.busy_ u
  tasks_ := htasks.trans h.tasks_
  next := hnext.trans h.next

theorem Calm.trans (h : Calm r s) (k : Calm s s') : Calm r s' where
  timer u := (k.timer u).trans (h.timer u)
  state_ u := by
    rcases k.state_ u with hk | ⟨hmem, hk⟩
    · rw [hk]
      exact h.state_ u
    · rw [h.tasks_] at hmem
      exact Or.inr ⟨hmem, hk⟩
  deleted u := (k.deleted u).trans (h.deleted u)
  done_ u hu := h.done_ u (k.done_ u hu)
  busy_ u hu := by
    rcases k.busy_ u hu with hb | hmem
    · exact h.busy_ u hb
    · rw [h.tasks_] at hmem
      exact Or.inr hmem
  tasks_ := k.tasks_.trans h.tasks_
  next := k.next.trans h.next

/-- One record is changed, but not its timer. -/
theorem Calm.set {k : Task} (htimer : k.timer = (r.heap t).timer)
    (hstate : k.state_ = (r.heap t).state_ ∨ (t ∈ r.tasks_ ∧ k.state_ ≠ STATE_INIT))
    (hdeleted : k.deleted = (r.heap t).deleted)
    (hdone : k.done_ = false → (r.heap t).done_ = false)
    (hbusy : k.busy_ = true → (r.heap t).busy_ = true ∨ t ∈ r.tasks_) :
    Calm r (r.set t k) := by
  have hall : ∀ {p : TaskId → Task → Prop}, p t k → (∀ u, p u (r.heap u)) →
      ∀ u, p u ((r.set t k).heap u) := by
    intro p ht hp u
    by_cases hu : u = t
    · rw [hu, set_heap_self]
      exact ht
    · rw [set_heap_ne _ hu]
      exact hp u
  exact
    { timer := hall (p := fun u a => a.timer = (r.heap u).timer) htimer fun _ => rfl
      state_ := hall (p := fun u a => a.state_ = (r.heap u).state_ ∨
        (u ∈ r.tasks_ ∧ a.state_ ≠ STATE_INIT)) hstate fun _ => Or.inl rfl
      deleted := hall (p := fun u a => a.deleted = (r.heap u).deleted) hdeleted fun _ => rfl
      done_ := hall (p := fun u a => a.done_ = false → (r.heap u).done_ = false) hdone fun _ => id
      busy_ := hall (p := fun u a => a.busy_ = true → (r.heap u).busy_ = true ∨ u ∈ r.tasks_) hbusy
        fun _ => Or.inl
      tasks_ := rfl
      next := rfl }

theorem wake_calm (r : TaskRunner) (t : TaskId) : Calm r (r.wake t).1 := by
  unfold wake
  dsimp only
  split_ifs
  · exact .refl r
  all_goals exact .set rfl (Or.inl rfl) rfl id Or.inl

theorem error_calm (r : TaskRunner) (t : TaskId) : Calm r (r.error t).1 := by
  unfold error
  dsimp only
  split_ifs
  · exact .refl r
  · refine Calm.trans ?_ (wake_calm _ t)
    exact .set rfl (Or.inl rfl) rfl id Or.inl

theorem abort_calm (r : TaskRunner) (t : TaskId) (nowake : Bool) :
    Calm r (r.abort t nowake).1 := by
  unfold abort
  dsimp only
  split_ifs with hdone
  · exact .refl r
  · exact (Calm.set (k := { r.heap t with aborted_ := true }) rfl (Or.inl rfl) rfl id
      Or.inl).congr rfl rfl rfl
  all_goals
    refine (Calm.set (k := { r.heap t with
      aborted_ := true
      done_ := true
      blocked_ := true
      error_ := true }) rfl (Or.inl rfl) rfl ?_ Or.inl).congr rfl rfl rfl
    exact nofun

theorem step_calm (ht : t ∈ r.tasks_) : Calm r (r.step t).1 := by
  unfold step
  dsimp only
  split_ifs with hdone
  · exact .set rfl (Or.inl rfl) rfl id Or.inl
  · refine (Calm.set (k := { r.heap t with
      woken := false
      done_ := true
      state_ := STATE_ERROR
      blocked_ := true }) rfl (Or.inr ⟨ht, ?_⟩) rfl ?_ Or.inl).congr rfl rfl rfl
    · show STATE_ERROR ≠ STATE_INIT
      decide
    · exact nofun
  · exact (Calm.set (k := { r.heap t with
      woken := false
      busy_ := true }) rfl (Or.inl rfl) rfl id fun _ => Or.inr ht).congr rfl rfl rfl

theorem finish_calm (r : TaskRunner) (t : TaskId) (new_state : Int) :
    Calm r (r.finish t new_state) := by
  unfold finish
  dsimp only
  split_ifs
  · refine .set rfl (Or.inl rfl) rfl ?_ Or.inl
    exact nofun
  · refine .set rfl (Or.inl rfl) rfl ?_ Or.inl
    exact nofun
  · exact .refl r

theorem onChildStopped_calm (r : TaskRunner) (t : TaskId) : Calm r (r.onChildStopped t) := by
  obtain ⟨honly, -⟩ := onChildStopped_children r t
  exact
    { timer := fun u => by rw [honly.heap u]
      state_ := fun u => Or.inl (by rw [honly.heap u])
      deleted := fun u => by rw [honly.heap u]
      done_ := fun u => by rw [honly.heap u]; exact id
      busy_ := fun u => by rw [honly.heap u]; exact Or.inl
      tasks_ := by rw [honly.rest]
      next := by rw [honly.rest] }

/-- What the end of `InternalRunTasks` makes of what is left. -/
def swept (d : TaskRunner × Bool) : TaskRunner :=
  let r := { d.1 with tasks_ := d.1.tasks_.filter fun t => !(d.1.heap t).deleted }
  if d.2 then r.recalcNextTimeout none else r

/-- What a function does to the timeouts, and the deadline it gives to a task. -/
inductive Clocked (r s : TaskRunner) : Option (TaskId × Int) → Prop where
  | calm (h : Calm r s) : Clocked r s none
  | made (parent : Option TaskId) (h : Made r s parent) : Clocked r s none
  | started (t : TaskId) (hlive : (r.heap t).deleted = false)
      (hinit : (r.heap t).state_ = STATE_INIT)
      (h : Calm { r with tasks_ := r.tasks_ ++ [t] } s) : Clocked r s none
  | swept (d : TaskRunner × Bool) (hd : Deleted r r.tasks_ false d)
      (h : Calm (swept d) s) : Clocked r s none
  | reset (t : TaskId) (task : Task) (hdeleted : task.deleted = (r.heap t).deleted)
      (hlive : (r.heap t).deleted = false)
      (hbusy : task.busy_ = true → (r.heap t).busy_ = true)
      (hlisted : task.state_ ≠ STATE_INIT → (r.heap t).state_ ≠ STATE_INIT ∨ t ∈ r.tasks_)
      (hoff : task.timer.timeout_time_ ≠ 0 →
        task.state_ ≠ STATE_INIT ∧ task.timer.timeout_seconds_ ≠ 0)
      (h : Calm ((r.set t task).updateNext t) s) :
      Clocked r s (some (t, task.timer.timeout_time_))

/-! ## 3. What holds of them in every run -/

/-- The tasks that time out are among those that were started. -/
structure Scheduled (r : TaskRunner) : Prop where
  alive : ∀ t ∈ r.tasks_, (r.heap t).deleted = false
  listed : ∀ t, (r.heap t).state_ ≠ STATE_INIT → t ∈ r.tasks_ ∨ (r.heap t).deleted = true
  off : ∀ t, r.deadline t ≠ 0 →
    (r.heap t).state_ ≠ STATE_INIT ∧ (r.heap t).timer.timeout_seconds_ ≠ 0
  running : ∀ t, (r.heap t).busy_ = true → t ∈ r.tasks_
  next : ∀ t, r.next_timeout_task_ = some t → t ∈ r.tasks_ ∧ r.deadline t ≠ 0

/-- No task that is live times out before the next one does. -/
structure Tracked (r : TaskRunner) : Prop where
  positive : ∀ t, 0 ≤ r.deadline t
  least : ∀ u, Live r u → r.deadline u ≠ 0 →
    ∃ t, r.next_timeout_task_ = some t ∧ r.deadline t ≤ r.deadline u

/-- A new deadline is in order: it is not negative, and the task that is the next one to time out
does not let another one's deadline go by. -/
def InOrder (r : TaskRunner) (t : TaskId) (time : Int) : Prop :=
  0 ≤ time ∧ (r.next_timeout_task_ = some t → time ≠ 0 →
    ∀ u ∈ r.tasks_, (r.heap u).done_ = false → r.deadline u ≠ 0 → u ≠ t → time ≤ r.deadline u)

theorem Calm.deadline (h : Calm r s) (t : TaskId) : s.deadline t = r.deadline t :=
  congrArg Timer.timeout_time_ (h.timer t)

theorem Calm.scheduled (h : Calm r s) (hg : Scheduled r) : Scheduled s where
  alive t ht := by
    rw [h.tasks_] at ht
    rw [h.deleted]
    exact hg.alive t ht
  listed t ht := by
    rw [h.tasks_, h.deleted]
    rcases h.state_ t with hs | ⟨hmem, -⟩
    · rw [hs] at ht
      exact hg.listed t ht
    · exact Or.inl hmem
  off t ht := by
    rw [h.deadline] at ht
    rw [h.timer]
    refine ⟨?_, (hg.off t ht).2⟩
    rcases h.state_ t with hs | ⟨-, hs⟩
    · rw [hs]
      exact (hg.off t ht).1
    · exact hs
  running t ht := by
    rw [h.tasks_]
    exact (h.busy_ t ht).elim (hg.running t) id
  next t := by
    rw [h.next, h.tasks_, h.deadline]
    exact hg.next t

theorem Calm.tracked (h : Calm r s) (hg : Tracked r) : Tracked s where
  positive t := by
    rw [h.deadline]
    exact hg.positive t
  least u hu := by
    rw [Live, h.tasks_] at hu
    rw [h.deadline, h.next]
    intro hd
    obtain ⟨t, ht, hle⟩ := hg.least u ⟨hu.1, h.done_ u hu.2⟩ hd
    exact ⟨t, ht, by rw [h.deadline]; exact hle⟩

theorem Scheduled.update {task : Task} (hg : Scheduled r)
    (hdeleted : task.deleted = (r.heap t).deleted) (hlive : (r.heap t).deleted = false)
    (hbusy : task.busy_ = true → (r.heap t).busy_ = true)
    (hlisted : task.state_ ≠ STATE_INIT → (r.heap t).state_ ≠ STATE_INIT ∨ t ∈ r.tasks_)
    (hoff : task.timer.timeout_time_ ≠ 0 →
      task.state_ ≠ STATE_INIT ∧ task.timer.timeout_seconds_ ≠ 0) :
    Scheduled ((r.set t task).updateNext t) := by
  have hself : (r.set t task).heap t = task := set_heap_self r t task
  have hmem : task.state_ ≠ STATE_INIT → t ∈ r.tasks_ := by
    intro hs
    rcases hlisted hs with hold | hold
    · refine (hg.listed t hold).resolve_right fun hd => ?_
      rw [hlive] at hd
      cases hd
    · exact hold
  have hset : Scheduled { r.set t task with
      next_timeout_task_ := ((r.set t task).updateNext t).next_timeout_task_ } :=
    { alive := fun u hu => by
        show ((r.set t task).heap u).deleted = false
        by_cases hut : u = t
        · rw [hut, hself, hdeleted]
          exact hlive
        · rw [set_heap_ne _ hut]
          exact hg.alive u hu
      listed := fun u => by
        show ((r.set t task).heap u).state_ ≠ STATE_INIT → u ∈ r.tasks_ ∨
          ((r.set t task).heap u).deleted = true
        by_cases hut : u = t
        · rw [hut, hself]
          exact fun hs => Or.inl (hmem hs)
        · rw [set_heap_ne _ hut]
          exact hg.listed u
      off := fun u => by
        show ((r.set t task).heap u).timer.timeout_time_ ≠ 0 →
          ((r.set t task).heap u).state_ ≠ STATE_INIT ∧
            ((r.set t task).heap u).timer.timeout_seconds_ ≠ 0
        by_cases hut : u = t
        · rw [hut, hself]
          exact hoff
        · rw [set_heap_ne _ hut]
          exact hg.off u
      running := fun u => by
        show ((r.set t task).heap u).busy_ = true → u ∈ r.tasks_
        by_cases hut : u = t
        · rw [hut, hself]
          exact fun hb => hg.running t (hbusy hb)
        · rw [set_heap_ne _ hut]
          exact hg.running u
      next := fun u hu => by
        show u ∈ r.tasks_ ∧ (r.set t task).deadline u ≠ 0
        have hcases := updateNext_updated (r.set t task) t
        have hold : ∀ n, r.next_timeout_task_ = some n → n ≠ t →
            n ∈ r.tasks_ ∧ (r.set t task).deadline n ≠ 0 := by
          intro n hn hnt
          obtain ⟨hm, hd⟩ := hg.next n hn
          refine ⟨hm, ?_⟩
          unfold TaskRunner.deadline
          rw [set_heap_ne _ hnt]
          exact hd
        have hu' : ((r.set t task).updateNext t).next_timeout_task_ = some u := hu
        rw [hu'] at hcases
        generalize hnext : some u = next at hcases
        cases hcases with
        | nearer ht h =>
          obtain rfl := Option.some.inj hnext
          refine ⟨hmem (hoff ?_).1, ht⟩
          unfold TaskRunner.deadline at ht
          rw [hself] at ht
          exact ht
        | later n ht hn h =>
          obtain rfl := Option.some.inj hnext
          refine hold u hn ?_
          rintro rfl
          exact absurd h (Int.lt_irrefl _)
        | recalc ht hn =>
          obtain ⟨hm, hc⟩ := (recalcNextTimeout_next (r.set t task) (some t)).1 u hnext.symm
          exact ⟨hm, Int.ne_of_gt hc.2.1⟩
        | other ht hn =>
          refine hold u hnext.symm ?_
          rintro rfl
          exact hn hnext.symm }
  rw [updateNext_eq]
  exact hset

theorem Tracked.update {task : Task} (hg : Tracked r)
    (horder : InOrder r t task.timer.timeout_time_) :
    Tracked ((r.set t task).updateNext t) := by
  have hself : (r.set t task).deadline t = task.timer.timeout_time_ :=
    congrArg (fun a : Task => a.timer.timeout_time_) (set_heap_self r t task)
  have hold : ∀ {u}, u ≠ t → (r.set t task).deadline u = r.deadline u := fun hu =>
    congrArg (fun a : Task => a.timer.timeout_time_) (set_heap_ne task hu)
  have hpos : ∀ u, 0 ≤ (r.set t task).deadline u := by
    intro u
    by_cases hu : u = t
    · rw [hu, hself]
      exact horder.1
    · rw [hold hu]
      exact hg.positive u
  have hleast : ∀ u ∈ r.tasks_, ((r.set t task).heap u).done_ = false →
      (r.set t task).deadline u ≠ 0 →
      ∃ n, ((r.set t task).updateNext t).next_timeout_task_ = some n ∧
        (r.set t task).deadline n ≤ (r.set t task).deadline u := by
    intro u hmem hlive hd
    -- who was the next one, when `u` is not `t`
    have hbefore : u ≠ t → ∃ n, r.next_timeout_task_ = some n ∧ r.deadline n ≤ r.deadline u := by
      intro hu
      rw [set_heap_ne _ hu] at hlive
      rw [hold hu] at hd
      exact hg.least u ⟨hmem, hlive⟩ hd
    have hcases := updateNext_updated (r.set t task) t
    generalize ((r.set t task).updateNext t).next_timeout_task_ = next at hcases
    cases hcases with
    | nearer ht h =>
      refine ⟨t, rfl, ?_⟩
      by_cases hu : u = t
      · exact hu ▸ Int.le_refl _
      · obtain ⟨n, hn, hle⟩ := hbefore hu
        by_cases hnt : n = t
        · -- `t` was the next one already: its deadline is in order
          rw [hself] at ht ⊢
          rw [hold hu] at hd ⊢
          rw [set_heap_ne _ hu] at hlive
          rw [hnt] at hn
          exact horder.2 hn ht u hmem hlive hd hu
        · refine Int.le_trans (h n hn) ?_
          rw [hold hnt, hold hu]
          exact hle
    | later n ht hn h =>
      refine ⟨n, rfl, ?_⟩
      by_cases hu : u = t
      · rw [hu]
        exact Int.le_of_lt h
      · obtain ⟨m, hm, hle⟩ := hbefore hu
        obtain rfl := Option.some.inj (hm.symm.trans hn)
        have hnt : m ≠ t := by
          rintro rfl
          exact absurd h (Int.lt_irrefl _)
        rw [hold hnt, hold hu]
        exact hle
    | recalc ht hn =>
      refine (recalcNextTimeout_next (r.set t task) (some t)).2 u hmem ⟨hlive, ?_, ?_⟩
      · exact Int.lt_iff_le_and_ne.2 ⟨hpos u, hd.symm⟩
      · intro hu
        rw [← Option.some.inj hu] at hd
        exact hd ht
    | other ht hn =>
      have hu : u ≠ t := by
        rintro rfl
        exact hd ht
      obtain ⟨n, hn', hle⟩ := hbefore hu
      refine ⟨n, hn', ?_⟩
      have hnt : n ≠ t := by
        rintro rfl
        exact hn hn'
      rw [hold hnt, hold hu]
      exact hle
  rw [updateNext_eq]
  exact ⟨hpos, fun u hu => hleast u hu.1 hu.2⟩

/-! A task is made, one is started, and those that are done are deleted. -/

theorem Made.scheduled {parent : Option TaskId} (h : Made r s parent) (hlife : LifeGlobal r)
    (hg : Scheduled r) : Scheduled s ∧ (Tracked r → Tracked s) := by
  have htasks : s.tasks_ = r.tasks_ := by rw [h.rest]
  have hnext : s.next_timeout_task_ = r.next_timeout_task_ := by rw [h.rest]
  have hmem : ∀ {u}, u ∈ r.tasks_ → u ≠ r.unique_id_seed_ := fun hu =>
    Nat.ne_of_lt (hlife.listed _ hu)
  have hdeadline : ∀ {u}, u ≠ r.unique_id_seed_ → s.deadline u = r.deadline u := by
    intro u hu
    unfold TaskRunner.deadline
    rw [h.others u hu]
  have hnew : s.deadline r.unique_id_seed_ = 0 := by
    unfold TaskRunner.deadline
    rw [h.new]
    rfl
  constructor
  · exact
      { alive := fun u hu => by
          rw [htasks] at hu
          rw [h.others u (hmem hu)]
          exact hg.alive u hu
        listed := fun u => by
          rw [htasks]
          by_cases hu : u = r.unique_id_seed_
          · rw [hu, h.new]
            exact fun hs => absurd rfl hs
          · rw [h.others u hu]
            exact hg.listed u
        off := fun u hd => by
          by_cases hu : u = r.unique_id_seed_
          · rw [hu] at hd
            exact absurd hnew hd
          · rw [hdeadline hu] at hd
            rw [h.others u hu]
            exact hg.off u hd
        running := fun u hb => by
          rw [htasks]
          by_cases hu : u = r.unique_id_seed_
          · rw [hu, h.new] at hb
            cases hb
          · rw [h.others u hu] at hb
            exact hg.running u hb
        next := fun u hu => by
          rw [hnext] at hu
          rw [htasks, hdeadline (hmem (hg.next u hu).1)]
          exact hg.next u hu }
  · intro ht
    refine ⟨fun u => ?_, fun u hu hd => ?_⟩
    · by_cases hus : u = r.unique_id_seed_
      · exact Int.le_of_eq (by rw [hus, hnew])
      · rw [hdeadline hus]
        exact ht.positive u
    · rw [Live, htasks] at hu
      have hus := hmem hu.1
      rw [h.others u hus] at hu
      rw [hdeadline hus] at hd ⊢
      obtain ⟨n, hn, hle⟩ := ht.least u hu hd
      rw [hnext]
      refine ⟨n, hn, ?_⟩
      rw [hdeadline (hmem (hg.next n hn).1)]
      exact hle

/-- A task that is started has no deadline yet. -/
theorem Scheduled.started (hlive : (r.heap t).deleted = false)
    (hinit : (r.heap t).state_ = STATE_INIT) (hg : Scheduled r) :
    Scheduled { r with tasks_ := r.tasks_ ++ [t] } ∧
      (Tracked r → Tracked { r with tasks_ := r.tasks_ ++ [t] }) := by
  have hzero : r.deadline t = 0 := by
    by_contra hne
    exact (hg.off t hne).1 hinit
  constructor
  · exact
      { alive := fun u hu => by
          rcases List.mem_append.1 hu with hu | hu
          · exact hg.alive u hu
          · rw [List.mem_singleton.1 hu]
            exact hlive
        listed := fun u hu => (hg.listed u hu).imp_left (List.mem_append_left _)
        off := hg.off
        running := fun u hu => List.mem_append_left _ (hg.running u hu)
        next := fun u hu => ⟨List.mem_append_left _ (hg.next u hu).1, (hg.next u hu).2⟩ }
  · intro ht
    refine ⟨ht.positive, fun u hu hd => ?_⟩
    rcases List.mem_append.1 hu.1 with hmem | hmem
    · exact ht.least u ⟨hmem, hu.2⟩ hd
    · rw [List.mem_singleton.1 hmem] at hd
      exact absurd hzero hd

theorem Deleted.scheduled {d : TaskRunner × Bool} (h : Deleted r r.tasks_ false d)
    (hlife : LifeGlobal r) (hg : Scheduled r) :
    Scheduled (swept d) ∧ (Tracked r → Tracked (swept d)) := by
  obtain ⟨n, hn⟩ : ∃ n, swept d = { d.1 with
      tasks_ := d.1.tasks_.filter fun t => !(d.1.heap t).deleted
      next_timeout_task_ := n } := by
    unfold swept
    dsimp only
    split_ifs <;> exact ⟨_, rfl⟩
  have htasks : d.1.tasks_ = r.tasks_ := by rw [h.rest]
  have hdeadline : ∀ u, d.1.deadline u = r.deadline u := fun u => by
    unfold TaskRunner.deadline
    rw [h.heap u]
  -- what is left are the tasks that are not done
  have hleft : ∀ u, u ∈ (d.1.tasks_.filter fun t => !(d.1.heap t).deleted) ↔
      u ∈ r.tasks_ ∧ (r.heap u).done_ = false := by
    intro u
    rw [htasks, List.mem_filter, Bool.not_eq_true']
    refine and_congr_right fun hu => ?_
    rw [← Bool.not_eq_true, ← Bool.not_eq_true, not_iff_not, h.deleted u, hg.alive u hu]
    exact ⟨fun h' => (h'.resolve_left nofun).2, fun hd => Or.inr ⟨hu, hd⟩⟩
  have hnext : (∀ u, (swept d).next_timeout_task_ = some u →
      (u ∈ r.tasks_ ∧ (r.heap u).done_ = false) ∧ r.deadline u ≠ 0) ∧
      (Tracked r → ∀ u ∈ r.tasks_, (r.heap u).done_ = false → r.deadline u ≠ 0 →
        ∃ t, (swept d).next_timeout_task_ = some t ∧ r.deadline t ≤ r.deadline u) := by
    unfold swept
    dsimp only
    rcases h.next with ⟨hsame, hflag, hlive⟩ | ⟨-, hflag⟩
    · rw [hflag, if_neg Bool.false_ne_true]
      dsimp only
      rw [hsame]
      refine ⟨fun u hu => ?_, fun ht u hu hd hne => ht.least u ⟨hu, hd⟩ hne⟩
      obtain ⟨hmem, hne⟩ := hg.next u hu
      exact ⟨⟨hmem, hlive u hu hmem⟩, hne⟩
    · rw [hflag, if_pos rfl]
      obtain ⟨hfound, hall⟩ := recalcNextTimeout_next { d.1 with
        tasks_ := d.1.tasks_.filter fun t => !(d.1.heap t).deleted } none
      refine ⟨fun u hu => ?_, fun ht u hu hd hne => ?_⟩
      · obtain ⟨hmem, -, hpos, -⟩ := hfound u hu
        have hpos' : 0 < d.1.deadline u := hpos
        rw [hdeadline] at hpos'
        exact ⟨(hleft u).1 hmem, Int.ne_of_gt hpos'⟩
      · have hpos : 0 < d.1.deadline u := by
          rw [hdeadline]
          exact Int.lt_iff_le_and_ne.2 ⟨ht.positive u, hne.symm⟩
        have hdone : (d.1.heap u).done_ = false := by
          rw [h.heap u]
          exact hd
        obtain ⟨t, htn, hle⟩ := hall u ((hleft u).2 ⟨hu, hd⟩) ⟨hdone, hpos, nofun⟩
        refine ⟨t, htn, ?_⟩
        have hle' : d.1.deadline t ≤ d.1.deadline u := hle
        rw [hdeadline, hdeadline] at hle'
        exact hle'
  have hnew : (swept d).next_timeout_task_ = n := by rw [hn]
  rw [hnew] at hnext
  rw [hn]
  constructor
  · exact
      { alive := fun u hu => by
          have hu' := (List.mem_filter.1 hu).2
          rw [Bool.not_eq_true'] at hu'
          exact hu'
        listed := fun u hu => by
          have hu' : (d.1.heap u).state_ ≠ STATE_INIT := hu
          rw [h.heap u] at hu'
          rcases hg.listed u hu' with hmem | hd
          · by_cases hdone : (r.heap u).done_ = true
            · exact Or.inr ((h.deleted u).2 (Or.inr ⟨hmem, hdone⟩))
            · exact Or.inl ((hleft u).2 ⟨hmem, Bool.eq_false_iff.2 hdone⟩)
          · exact Or.inr ((h.deleted u).2 (Or.inl hd))
        off := fun u hu => by
          have hu' : d.1.deadline u ≠ 0 := hu
          rw [hdeadline] at hu'
          show (d.1.heap u).state_ ≠ STATE_INIT ∧ (d.1.heap u).timer.timeout_seconds_ ≠ 0
          rw [h.heap u]
          exact hg.off u hu'
        running := fun u hu => by
          have hu' : (d.1.heap u).busy_ = true := hu
          rw [h.heap u] at hu'
          exact (hleft u).2 ⟨hg.running u hu', hlife.undone u hu'⟩
        next := fun u hu => by
          obtain ⟨hmem, hne⟩ := hnext.1 u hu
          refine ⟨(hleft u).2 hmem, ?_⟩
          show d.1.deadline u ≠ 0
          rw [hdeadline]
          exact hne }
  · intro ht
    refine ⟨fun u => ?_, fun u hu hd => ?_⟩
    · show 0 ≤ d.1.deadline u
      rw [hdeadline]
      exact ht.positive u
    · obtain ⟨hmem, hdone⟩ := (hleft u).1 hu.1
      have hd' : d.1.deadline u ≠ 0 := hd
      rw [hdeadline] at hd'
      obtain ⟨t, htn, hle⟩ := hnext.2 ht u hmem hdone hd'
      refine ⟨t, htn, ?_⟩
      show d.1.deadline t ≤ d.1.deadline u
      rw [hdeadline, hdeadline]
      exact hle

theorem Clocked.scheduled {given : Option (TaskId × Int)} (h : Clocked r s given)
    (hlife : LifeGlobal r) (hg : Scheduled r) : Scheduled s := by
  cases h with
  | calm h => exact h.scheduled hg
  | made parent h => exact (h.scheduled hlife hg).1
  | started t hlive hinit h => exact h.scheduled (hg.started hlive hinit).1
  | swept d hd h => exact h.scheduled (hd.scheduled hlife hg).1
  | reset t task hdeleted hlive hbusy hlisted hoff h =>
    exact h.scheduled (hg.update hdeleted hlive hbusy hlisted hoff)

theorem Clocked.tracked {given : Option (TaskId × Int)} (h : Clocked r s given)
    (hlife : LifeGlobal r) (hg : Scheduled r) (ht : Tracked r)
    (horder : ∀ g ∈ given, InOrder r g.1 g.2) : Tracked s := by
  cases h with
  | calm h => exact h.tracked ht
  | made parent h => exact (h.scheduled hlife hg).2 ht
  | started t hlive hinit h => exact h.tracked ((hg.started hlive hinit).2 ht)
  | swept d hd h => exact h.tracked ((hd.scheduled hlife hg).2 ht)
  | reset t task hdeleted hlive hbusy hlisted hoff h =>
    exact h.tracked (ht.update (horder _ rfl))

end Shapes

/-! ## 4. The deadline that a step gives -/

/-- The deadline that a call gives to its task. -/
def calledDeadline (r : TaskRunner) : RunnerCall → Option (TaskId × Int)
  | .setTimeoutSeconds t timeout_seconds =>
    let timer := { (r.heap t).timer with timeout_seconds_ := timeout_seconds }
    some (t, (r.set t { r.heap t with timer }).newTimeout t)
  | .resetTimeout t => some (t, r.newTimeout t)
  | .clearTimeout t => some (t, 0)
  | .suspendTimeout t => suspended t true
  | .resumeTimeout t => suspended t false
  | _ => none
where
  suspended (t : TaskId) (suspended : Bool) : Option (TaskId × Int) :=
    if (r.heap t).timer.timeout_suspended_ = suspended then none
    else
      let timer := { (r.heap t).timer with timeout_suspended_ := suspended }
      some (t, (r.set t { r.heap t with timer }).newTimeout t)

/-- The deadline that a task has when its `Process` has come back. -/
def returnedDeadline (r : TaskRunner) : RunnerStmt → Int → Option (TaskId × Int)
  | .process t, new_state =>
    if (r.heap t).aborted_ || new_state = STATE_BLOCKED then none
    else some (t, (r.set t { r.heap t with state_ := new_state }).newTimeout t)
  | _, _ => none

section Steps

variable {r : TaskRunner} {t : TaskId}

theorem newTimeout_off (h : r.newTimeout t ≠ 0) :
    (r.heap t).state_ ≠ STATE_INIT ∧ (r.heap t).timer.timeout_seconds_ ≠ 0 := by
  unfold newTimeout at h
  dsimp only at h
  by_cases hif : ((r.heap t).timer.timeout_seconds_ ≠ 0 &&
      ((r.heap t).state_ ≠ STATE_INIT && (r.heap t).state_ ≠ STATE_DONE &&
        (r.heap t).state_ ≠ STATE_ERROR) && !(r.heap t).timer.timeout_suspended_) = true
  · simp only [Bool.and_eq_true, decide_eq_true_eq] at hif
    exact ⟨hif.1.2.1.1, hif.1.1⟩
  · exact absurd (if_neg hif) h

theorem set_self (r : TaskRunner) (t : TaskId) : r.set t (r.heap t) = r := by
  unfold TaskRunner.set
  congr 1
  funext u
  by_cases hu : u = t
  · rw [if_pos hu, hu]
  · rw [if_neg hu]

theorem reset_clocked {a : Task} {s : TaskRunner} (hdeleted : a.deleted = (r.heap t).deleted)
    (hlive : (r.heap t).deleted = false) (hbusy : a.busy_ = true → (r.heap t).busy_ = true)
    (hlisted : a.state_ ≠ STATE_INIT → (r.heap t).state_ ≠ STATE_INIT ∨ t ∈ r.tasks_)
    (h : Calm ((r.set t a).resetTimeout t).1 s) :
    Clocked r s (some (t, (r.set t a).newTimeout t)) := by
  have hself : (r.set t a).heap t = a := set_heap_self r t a
  have hreset : ((r.set t a).resetTimeout t).1 = ((r.set t { a with
      timer := { a.timer with
        timeout_time_ := (r.set t a).newTimeout t
        reset_time := r.now } }).updateNext t) := by
    unfold resetTimeout updateTaskTimeout
    dsimp only
    rw [hself, set_set]
    rfl
  rw [hreset] at h
  refine .reset t { a with
    timer := { a.timer with
      timeout_time_ := (r.set t a).newTimeout t
      reset_time := r.now } } hdeleted hlive hbusy hlisted (fun hne => ?_) h
  have hoff := newTimeout_off (r := r.set t a) hne
  rw [hself] at hoff
  exact hoff

theorem sweep_clocked {previous : Int} {s : TaskRunner × List RunnerStmt}
    (h : r.sweep previous = some s) : Clocked r s.1 none := by
  obtain ⟨d, hd, rfl⟩ := Option.map_eq_some_iff.1 h
  exact .swept d (deleteDone_deleted hd) (.refl _)

theorem exec_clocked {x : RunnerStmt} {s : TaskRunner × List RunnerStmt}
    (h : r.exec x = some s) : Clocked r s.1 none := by
  cases exec_executed h with
  | taskStop | childrenAborted => exact .calm (.refl r)
  | childStopped t hlive => exact .calm (onChildStopped_calm r t)
  | abortsChild t c | abortChildren c => exact .calm (abort_calm r c true)
  | blockAfterStop t hlive => exact .calm (.set rfl (Or.inl rfl) rfl id Or.inl)
  | runLoop i did_run previous h =>
    cases h with
    | stepped t ht hlive hunblocked => exact .calm (step_calm ht)
    | looped j did_run' => exact .calm (.refl r)
    | swept h => exact sweep_clocked h
  | runEnd => exact .calm ((Calm.refl r).congr rfl rfl rfl)
  | poll old =>
    rcases poll_cases r old with hpoll | ⟨t, -, -, -, hpoll⟩
    · rw [hpoll]
      exact .calm (.refl r)
    · rw [hpoll]
      exact .calm (wake_calm r t)

theorem setSuspended_clocked {suspended : Bool} (hlive : (r.heap t).deleted = false) :
    Clocked r (r.setSuspended t suspended).1 (calledDeadline.suspended r t suspended) := by
  unfold setSuspended calledDeadline.suspended
  split_ifs
  · exact .calm (.refl r)
  · exact reset_clocked rfl hlive id Or.inl (.refl _)

theorem start_clocked (hlive : (r.heap t).deleted = false) (hg : Scheduled r) :
    Clocked r (r.start t).1 none := by
  unfold start
  dsimp only
  split_ifs with hinit
  · exact .calm (.refl r)
  · -- it has no deadline, and it is not the next one
    have hinit' := not_not.1 hinit
    have hzero : r.deadline t = 0 := by
      by_contra hne
      exact (hg.off t hne).1 hinit'
    have hnext : r.next_timeout_task_ ≠ some t := fun hn => (hg.next t hn).2 hzero
    refine .started t hlive hinit' ?_
    have hset : Calm { r with tasks_ := r.tasks_ ++ [t] } { r.set t { r.heap t with
        start_time_ := r.now } with tasks_ := r.tasks_ ++ [t] } := by
      refine (Calm.set (r := { r with tasks_ := r.tasks_ ++ [t] }) (t := t) (k := { r.heap t with
        start_time_ := r.now }) rfl (Or.inl rfl) rfl id Or.inl).congr rfl rfl rfl
    unfold updateTaskTimeout updateNext
    dsimp only
    rw [if_neg, if_neg]
    · exact hset
    · exact hnext
    · intro hne
      rw [set_heap_self] at hne
      exact hne hzero

theorem enter_clocked {m : RunnerCall} (hg : Scheduled r)
    (hm : ∀ t ∈ m.target, t < r.unique_id_seed_ ∧ (r.heap t).deleted = false) :
    Clocked r (r.enter m).1 (r.calledDeadline m) := by
  cases m with
  | construct parent position =>
    exact .made parent (construct_made parent position fun p hp => (hm p hp).1)
  | start t => exact start_clocked (hm t rfl).2 hg
  | abort t nowake => exact .calm (abort_calm r t nowake)
  | wake t => exact .calm (wake_calm r t)
  | error t => exact .calm (error_calm r t)
  | abortAllChildren | pollTasks => exact .calm (.refl r)
  | setTimeoutSeconds t n => exact reset_clocked rfl (hm t rfl).2 id Or.inl (.refl _)
  | resetTimeout t =>
    have h := reset_clocked (a := r.heap t) rfl (hm t rfl).2 id Or.inl (.refl _)
    rw [set_self] at h
    exact h
  | clearTimeout t =>
    refine .reset t { r.heap t with timer := { (r.heap t).timer with timeout_time_ := 0 } } rfl
      (hm t rfl).2 id Or.inl ?_ (.refl _)
    exact fun h => absurd rfl h
  | suspendTimeout t | resumeTimeout t => exact setSuspended_clocked (hm t rfl).2
  | runTasks =>
    refine .calm ?_
    unfold enter
    dsimp only
    split_ifs
    · exact .refl r
    · exact (Calm.refl r).congr rfl rfl rfl
  | clock now => exact .calm ((Calm.refl r).congr rfl rfl rfl)

theorem processed_clocked (new_state : Int) (ht : t ∈ r.tasks_)
    (hlive : (r.heap t).deleted = false) :
    Clocked r (r.processed t new_state).1 (r.returnedDeadline (.process t) new_state) := by
  unfold processed
  by_cases haborted : (r.heap t).aborted_ = true
  · have hgiven : r.returnedDeadline (.process t) new_state = none :=
      if_pos (by rw [haborted]; rfl)
    rw [if_pos haborted, hgiven]
    refine .calm (Calm.trans ?_ (abort_calm _ t true))
    refine .set rfl (Or.inl rfl) rfl id ?_
    exact nofun
  rw [if_neg haborted]
  -- what becomes of the end of the task
  have hend : ∀ {s : TaskRunner} {g : Option (TaskId × Int)},
      (∀ s', Calm s s' → Clocked r s' g) →
      Clocked r (if ((s.finish t new_state).heap t).done_ = true
        then ((s.finish t new_state).emit (.stop t), stopCode t ++ [.blockAfterStop t])
        else (s.finish t new_state, [])).1 g := by
    intro s g hs
    split_ifs
    · exact hs _ ((finish_calm s t new_state).congr rfl rfl rfl)
    · exact hs _ (finish_calm s t new_state)
  by_cases hblocked : new_state = STATE_BLOCKED
  · have hgiven : r.returnedDeadline (.process t) new_state = none :=
      if_pos (by rw [decide_eq_true hblocked, Bool.or_true])
    rw [hgiven]
    refine hend fun s' hs' => .calm (Calm.trans ?_ hs')
    unfold advance
    rw [if_pos hblocked]
    refine .set rfl (Or.inl rfl) rfl id ?_
    exact nofun
  · have hgiven : r.returnedDeadline (.process t) new_state =
        some (t, (r.set t { r.heap t with state_ := new_state }).newTimeout t) :=
      if_neg (by rw [Bool.eq_false_iff.2 haborted, decide_eq_false hblocked]; decide)
    rw [hgiven]
    refine hend fun s' hs' => ?_
    unfold advance at hs'
    rw [if_neg hblocked] at hs'
    have h := reset_clocked (r := r) (t := t) (a := { r.heap t with
      busy_ := false
      state_ := new_state
      blocked_ := false }) rfl hlive (by exact nofun) (fun _ => Or.inr ht) hs'
    have htime : (r.set t { r.heap t with
        busy_ := false
        state_ := new_state
        blocked_ := false }).newTimeout t =
        (r.set t { r.heap t with state_ := new_state }).newTimeout t := by
      unfold newTimeout
      rw [set_heap_self, set_heap_self]
      rfl
    rw [htime] at h
    exact h

end Steps

end TaskRunner

/-! ## 5. The runs -/

/-- The deadline that a step gives to a task. -/
def RunnerConf.newDeadline (c : RunnerConf) : Act RunnerCall Int → Option (TaskId × Int)
  | .tick => none
  | .call m => c.state.calledDeadline m
  | .ret new_state => c.control.head?.bind fun x => c.state.returnedDeadline x new_state

/-- A step keeps to the rules, and the deadline it gives to a task is in order. -/
def KeepsOrder (c : RunnerConf) (a : Act RunnerCall Int) : Prop :=
  a.Allowed TaskRules c ∧ ∀ g ∈ c.newDeadline a, InOrder c.state g.1 g.2

instance (r : TaskRunner) (t : TaskId) (time : Int) : Decidable (InOrder r t time) :=
  inferInstanceAs (Decidable (_ ∧ _))

instance (c : RunnerConf) (a : Act RunnerCall Int) : Decidable (KeepsOrder c a) :=
  inferInstanceAs (Decidable (_ ∧ ∀ g ∈ c.newDeadline a, _))

theorem step_clocked {c c' : RunnerConf} {a : Act RunnerCall Int} (h : Tended c)
    (hg : Scheduled c.state) (hG : a.Allowed TaskRules c) (hs : taskRunner.step c a = some c') :
    Clocked c.state c'.state (c.newDeadline a) := by
  rcases step_cases hs with ⟨x, rest, r, rfl, hc, -, hr, rfl⟩ | ⟨m, rfl, -, rfl⟩ |
    ⟨v, x, rest, rfl, hc, hf, rfl⟩
  · exact exec_clocked hr
  · exact enter_clocked hg fun t ht => ⟨(hG m rfl t ht).1, (hG m rfl t ht).2.1⟩
  · have hx : LifeFrame c.state x := h.holds.frame x (by rw [hc]; exact List.mem_cons_self)
    have hgiven : c.newDeadline (.ret v) = c.state.returnedDeadline x v := by
      rw [RunnerConf.newDeadline, hc]
      rfl
    rw [hgiven]
    cases x with
    | process t =>
      have ht := hg.running t hx.2.1
      exact processed_clocked v ht (hg.alive t ht)
    | _ => exact .calm (.refl _)

theorem scheduled_init : Scheduled RunnerConf.init.state where
  alive := nofun
  listed _ ht := absurd rfl ht
  off _ ht := absurd rfl ht
  running := nofun
  next := nofun

theorem Attainable.scheduled {c : RunnerConf} (h : Attainable c) : Scheduled c.state :=
  Reaches.invariant h scheduled_init fun _ _ _ hreach hI hG hs =>
    (step_clocked (Attainable.tended hreach) hI hG hs).scheduled
      (Attainable.tended hreach).holds.global hI

theorem tracked_run {c : RunnerConf}
    (h : taskRunner.ReachesWhen KeepsOrder RunnerConf.init c) : Tracked c.state := by
  refine ReachesWhen.invariant (I := fun c => Tracked c.state) h ⟨fun _ => Int.le_refl 0, nofun⟩
    fun c a c' hreach hI hK hs => ?_
  have hc : Attainable c := ReachesWhen.reaches (fun _ _ hK => hK.1) hreach
  exact (step_clocked hc.tended hc.scheduled hK.1 hs).tracked hc.tended.holds.global hc.scheduled hI
    hK.2

/-- No call is in progress, and no task is left to be deleted. -/
def AtRest (c : RunnerConf) : Prop :=
  c.control = [] ∧ ∀ t ∈ c.state.tasks_, (c.state.heap t).done_ = false

/-- `next_timeout_task_` is the live task with the smallest deadline, `next_task_timeout` is no
later than any deadline, and `PollTasks` wakes a task when one has timed out. -/
structure NextTracked (r : TaskRunner) : Prop where
  next : ∀ t, r.next_timeout_task_ = some t → Live r t ∧ r.deadline t ≠ 0 ∧
    ∀ u, Live r u → r.deadline u ≠ 0 → r.deadline t ≤ r.deadline u
  none : r.next_timeout_task_ = Option.none ↔ ∀ u, Live r u → r.deadline u = 0
  timeout : ∀ u, Live r u → r.deadline u ≠ 0 → r.next_task_timeout ≤ r.deadline u
  poll : ∀ u, Live r u → r.timedOut u = true →
    ∃ t, Live r t ∧ r.timedOut t = true ∧ ((r.poll Option.none).1.heap t).blocked_ = false

/-- A task that has timed out has a deadline. -/
theorem timedOut_iff {r : TaskRunner} {t : TaskId} : r.timedOut t = true ↔
    (r.heap t).timer.timeout_seconds_ ≠ 0 ∧ r.deadline t ≠ 0 ∧ r.deadline t ≤ r.now := by
  unfold timedOut TaskRunner.deadline
  simp only [Bool.and_eq_true, decide_eq_true_eq, ge_iff_le, and_assoc]

theorem Tracked.next {c : RunnerConf} (hg : Scheduled c.state) (ht : Tracked c.state)
    (hrest : AtRest c) : NextTracked c.state where
  next t hn := by
    obtain ⟨hmem, hd⟩ := hg.next t hn
    refine ⟨⟨hmem, hrest.2 t hmem⟩, hd, fun u hu hne => ?_⟩
    obtain ⟨n, hn', hle⟩ := ht.least u hu hne
    rw [Option.some.inj (hn.symm.trans hn')]
    exact hle
  none := by
    constructor
    · intro hn u hu
      by_contra hne
      obtain ⟨n, hn', -⟩ := ht.least u hu hne
      rw [hn] at hn'
      cases hn'
    · intro hall
      cases hn : c.state.next_timeout_task_ with
      | none => rfl
      | some t =>
        obtain ⟨hmem, hd⟩ := hg.next t hn
        exact absurd (hall t ⟨hmem, hrest.2 t hmem⟩) hd
  timeout u hu hne := by
    obtain ⟨n, hn, hle⟩ := ht.least u hu hne
    unfold next_task_timeout
    rw [hn]
    exact hle
  poll u hu hout := by
    obtain ⟨-, hne, hnow⟩ := timedOut_iff.1 hout
    obtain ⟨n, hn, hle⟩ := ht.least u hu hne
    obtain ⟨hmem, hd⟩ := hg.next n hn
    have hlive := hrest.2 n hmem
    have hout' : c.state.timedOut n = true :=
      timedOut_iff.2 ⟨(hg.off n hd).2, hd, Int.le_trans hle hnow⟩
    refine ⟨n, ⟨hmem, hlive⟩, hout', ?_⟩
    unfold TaskRunner.poll
    rw [hn]
    dsimp only
    rw [if_pos (by rw [hout']; rfl)]
    unfold wake
    dsimp only
    rw [if_neg (by rw [hlive]; exact Bool.false_ne_true)]
    exact congrArg Task.blocked_ (set_heap_self c.state n _)

/-- The next timeout is tracked, in every run in which no deadline is set against the order. -/
theorem next_timeout {c : RunnerConf}
    (h : taskRunner.ReachesWhen KeepsOrder RunnerConf.init c) (hrest : AtRest c) :
    NextTracked c.state :=
  Tracked.next (Attainable.scheduled (ReachesWhen.reaches (fun _ _ hK => hK.1) h)) (tracked_run h) hrest

/-- Two tasks are made, started and stepped. -/
def twoTasks : List (Act RunnerCall Int) :=
  [.call (.construct none 0), .call (.construct none 0), .call (.start 0), .ret 0,
    .call (.start 1), .ret 0, .call .runTasks, .tick, .ret STATE_START, .tick, .ret STATE_BLOCKED,
    .tick, .tick, .ret STATE_START, .tick, .ret STATE_BLOCKED, .tick, .tick, .tick, .tick, .tick,
    .tick]

/-- The first one is to time out after a second, and the second one after two. -/
theorem next_timeout_two : ∃ c, taskRunner.ReachesWhen KeepsOrder RunnerConf.init c ∧
    c.state.next_timeout_task_ = some 0 ∧ NextTracked c.state := by
  obtain ⟨c, hc, hp⟩ := exists_of_follow (P := taskRunner) (K := KeepsOrder) (c := RunnerConf.init)
    (l := twoTasks ++ [.call (.setTimeoutSeconds 0 1), .ret 0, .call (.setTimeoutSeconds 1 2)])
    (p := fun c => c.control.isEmpty && (decide (c.state.next_timeout_task_ = some 0) &&
      c.state.tasks_.all fun t => !(c.state.heap t).done_)) (by decide +kernel)
  simp only [Bool.and_eq_true, List.isEmpty_iff, decide_eq_true_eq, List.all_eq_true,
    Bool.not_eq_true'] at hp
  exact ⟨c, hc, hp.2.1, next_timeout hc ⟨hp.1, hp.2.2⟩⟩

/-- Then the first one postpones its timeout to three seconds. It stays the next one. -/
theorem next_timeout_postponed : ¬∀ c, Attainable c → AtRest c → NextTracked c.state := by
  intro hall
  obtain ⟨c, hc, hp⟩ := exists_of_drive (G := TaskRules) (P := taskRunner) (n := 40)
    (c := RunnerConf.init)
    (l := [.call (.construct none 0), .call (.construct none 0), .call (.start 0), .ret 0,
      .call (.start 1), .ret 0, .call .runTasks, .ret STATE_START, .ret STATE_BLOCKED,
      .ret STATE_START, .ret STATE_BLOCKED, .call (.setTimeoutSeconds 0 1), .ret 0,
      .call (.setTimeoutSeconds 1 2), .call (.setTimeoutSeconds 0 3)])
    (p := fun c => c.control.isEmpty && (decide (c.state.next_timeout_task_ = some 0 ∧
      1 ∈ c.state.tasks_ ∧ c.state.deadline 1 ≠ 0 ∧ c.state.deadline 1 < c.state.deadline 0) &&
      c.state.tasks_.all fun t => !(c.state.heap t).done_)) (by decide +kernel)
  simp only [Bool.and_eq_true, List.isEmpty_iff, decide_eq_true_eq, List.all_eq_true,
    Bool.not_eq_true'] at hp
  obtain ⟨hnil, ⟨hn, hmem, hne, hlt⟩, hlive⟩ := hp
  have hle := ((hall c hc ⟨hnil, hlive⟩).next 0 hn).2.2 1 ⟨hmem, hlive 1 hmem⟩ hne
  exact absurd hlt (Int.not_lt.2 hle)

end Gxmpp.TalkBase
