/-
What holds between any two statements of the runner and its tasks.

The invariant (`lifeInv`) ties the flags of the tasks to the child sets and to the pending
statements. What the flags leave to be done is a debt (`Debt`): a `Process` that is to come
back, a task that is to be blocked, or one that is to leave its parent; each is paid by a
pending statement.
-/
import Gxmpp.TaskSteps

set_option autoImplicit false

namespace Gxmpp.TalkBase

open Reentrant TaskRunner

/-! ## 1. The invariant -/

/-- A loop of the runner. -/
def RunnerStmt.isRunner : RunnerStmt → Bool
  | .runLoop _ _ _ | .runEnd => true
  | _ => false

/-- A `Process` in progress. -/
def RunnerStmt.isProcess : RunnerStmt → Bool
  | .process _ => true
  | _ => false

/-- The `Stop` of `t` is in progress. -/
def RunnerStmt.Stops (t : TaskId) (x : RunnerStmt) : Prop :=
  x = .taskStop t ∨ ∃ copy, x = .onStopped t copy

/-- What is true of the tasks between any two statements. -/
structure LifeGlobal (r : TaskRunner) : Prop where
  fresh : ∀ t, r.unique_id_seed_ ≤ t →
    (r.heap t).done_ = false ∧ (r.heap t).aborted_ = false ∧ (r.heap t).busy_ = false
  listed : ∀ t ∈ r.tasks_, t < r.unique_id_seed_
  parents : ∀ t p, t < r.unique_id_seed_ → (r.heap t).parent_ = some p → p < r.unique_id_seed_
  member : ∀ p, ∀ c ∈ r.childrenOf p, c < r.unique_id_seed_ ∧ (r.heap c).parent_ = p
  child : ∀ c < r.unique_id_seed_, c ∈ r.childrenOf (r.heap c).parent_ ∨ (r.heap c).done_ = true
  /-- a task leaves its parent only when its children are at their end -/
  removed : ∀ p < r.unique_id_seed_, p ∉ r.childrenOf (r.heap p).parent_ →
    ∀ c < r.unique_id_seed_, (r.heap c).parent_ = some p →
      (r.heap c).done_ = true ∨ (r.heap c).aborted_ = true
  /-- an abort waits only for `Process` -/
  doomed : ∀ t, (r.heap t).aborted_ = true → (r.heap t).done_ = true ∨ (r.heap t).busy_ = true
  undone : ∀ t, (r.heap t).busy_ = true → (r.heap t).done_ = false
  stops : ∀ t, r.log.count (.stop t) = if (r.heap t).done_ = true then 1 else 0
  aborts : ∀ t, .abort t ∈ r.log → (r.heap t).aborted_ = true
  order : r.log.Pairwise fun a b => ∀ t, b = .process t → a ≠ .stop t ∧ a ≠ .abort t

/-- What a pending statement says. -/
def LifeFrame (r : TaskRunner) : RunnerStmt → Prop
  | .process t =>
    t < r.unique_id_seed_ ∧ (r.heap t).busy_ = true ∧ r.tasks_running_ = true
  | .stopping t | .taskStop t | .stopped t | .blockAfterStop t =>
    t < r.unique_id_seed_ ∧ (r.heap t).done_ = true
  | .onStopped t copy =>
    (t < r.unique_id_seed_ ∧ (r.heap t).done_ = true) ∧ (∀ c ∈ copy, c < r.unique_id_seed_) ∧
      ∀ c < r.unique_id_seed_, (r.heap c).parent_ = some t →
        c ∈ copy ∨ (r.heap c).done_ = true ∨ (r.heap c).aborted_ = true
  | .abortChildren copy => ∀ c ∈ copy, c < r.unique_id_seed_
  | .runLoop _ _ _ | .runEnd => r.tasks_running_ = true
  | .wakeTasks | .onTimeoutChange | .poll _ => True

/-- The invariant. The runner does not run inside itself, so there is one `Process` at most,
and the runner's loop is under it. -/
def lifeInv : Invariant TaskRunner RunnerStmt where
  global := LifeGlobal
  frame := LifeFrame
  below x l := (x.isRunner = true → l.isRunner = false ∧ l.isProcess = false) ∧
    (x.isProcess = true → l.isProcess = false)

/-! ## 2. What keeps it -/

namespace TaskRunner

section Keeps

variable {r r' : TaskRunner} {t : TaskId}

theorem childrenOf_setChildren (r : TaskRunner) (q p : Option TaskId) (l : List TaskId) :
    (r.setChildren q l).childrenOf p = if p = q then l else r.childrenOf p := by
  cases q with
  | none =>
    cases p with
    | none | some => rfl
  | some q =>
    cases p with
    | none => rfl
    | some p =>
      show ((r.set q { r.heap q with children_ := l }).heap p).children_ = _
      by_cases hpq : p = q
      · rw [hpq, set_heap_self, if_pos rfl]
      · rw [set_heap_ne _ hpq, if_neg fun h => hpq (Option.some.inj h)]
        rfl

theorem Kept.childrenOf (h : Kept r r') (p : Option TaskId) : r'.childrenOf p = r.childrenOf p := by
  cases p with
  | none => exact h.root
  | some p => exact h.children_ p

/-- Where the flags and the log stay, the part of the invariant about them does. -/
theorem flags_global (hg : LifeGlobal r) (hseed : r.unique_id_seed_ ≤ r'.unique_id_seed_)
    (hdone : ∀ u, (r'.heap u).done_ = (r.heap u).done_)
    (haborted : ∀ u, (r'.heap u).aborted_ = (r.heap u).aborted_)
    (hbusy : ∀ u, (r'.heap u).busy_ = (r.heap u).busy_) (hlog : r'.log = r.log)
    (listed : ∀ t ∈ r'.tasks_, t < r'.unique_id_seed_)
    (parents : ∀ t p, t < r'.unique_id_seed_ → (r'.heap t).parent_ = some p →
      p < r'.unique_id_seed_)
    (member : ∀ p, ∀ c ∈ r'.childrenOf p, c < r'.unique_id_seed_ ∧ (r'.heap c).parent_ = p)
    (child : ∀ c < r'.unique_id_seed_,
      c ∈ r'.childrenOf (r'.heap c).parent_ ∨ (r'.heap c).done_ = true)
    (removed : ∀ p < r'.unique_id_seed_, p ∉ r'.childrenOf (r'.heap p).parent_ →
      ∀ c < r'.unique_id_seed_, (r'.heap c).parent_ = some p →
        (r'.heap c).done_ = true ∨ (r'.heap c).aborted_ = true) : LifeGlobal r' where
  fresh u hu := by
    rw [hdone, haborted, hbusy]
    exact hg.fresh u (Nat.le_trans hseed hu)
  listed := listed
  parents := parents
  member := member
  child := child
  removed := removed
  doomed u := by
    rw [haborted, hdone, hbusy]
    exact hg.doomed u
  undone u := by
    rw [hbusy, hdone]
    exact hg.undone u
  stops u := by
    rw [hlog, hdone]
    exact hg.stops u
  aborts u := by
    rw [hlog, haborted]
    exact hg.aborts u
  order := by
    rw [hlog]
    exact hg.order

theorem Kept.global (h : Kept r r') (hg : LifeGlobal r) : LifeGlobal r' := by
  refine flags_global hg (Nat.le_of_eq h.seed.symm) h.done_ h.aborted_ h.busy_ h.log
    (fun t ht => ?_) (fun t p => ?_) (fun p c => ?_) (fun c => ?_) fun p => ?_
  · rw [h.seed]
    exact (h.tasks_ t ht).elim (hg.listed t) id
  · rw [h.seed, h.parent_]
    exact hg.parents t p
  · rw [h.childrenOf, h.seed, h.parent_]
    exact hg.member p c
  · rw [h.seed, h.parent_, h.childrenOf, h.done_]
    exact hg.child c
  · rw [h.seed, h.parent_, h.childrenOf]
    intro hp hmem c
    rw [h.parent_, h.done_, h.aborted_]
    exact hg.removed p hp hmem c

variable {x : RunnerStmt} {evs : List TaskEvent} {u : TaskId} {parent : Option TaskId}

/-- A pending statement stays right where the tasks stay, what is done stays done, and a
`Process` that has not come back is still in progress. -/
theorem frame_mono (hx : LifeFrame r x) (hseed : r.unique_id_seed_ ≤ r'.unique_id_seed_)
    (hrun : r'.tasks_running_ = r.tasks_running_)
    (hdone : ∀ u < r.unique_id_seed_, (r.heap u).done_ = true → (r'.heap u).done_ = true)
    (hprocess : ∀ u < r.unique_id_seed_, x = .process u → (r.heap u).busy_ = true →
      (r'.heap u).busy_ = true)
    (hchildren : ∀ (u : TaskId) (copy : List TaskId), (r.heap u).done_ = true →
      (∀ c < r.unique_id_seed_, (r.heap c).parent_ = some u →
        c ∈ copy ∨ (r.heap c).done_ = true ∨ (r.heap c).aborted_ = true) →
      ∀ c < r'.unique_id_seed_, (r'.heap c).parent_ = some u →
        c ∈ copy ∨ (r'.heap c).done_ = true ∨ (r'.heap c).aborted_ = true) :
    LifeFrame r' x := by
  have hstays : ∀ u, u < r.unique_id_seed_ ∧ (r.heap u).done_ = true →
      u < r'.unique_id_seed_ ∧ (r'.heap u).done_ = true := fun u hu =>
    ⟨Nat.lt_of_lt_of_le hu.1 hseed, hdone u hu.1 hu.2⟩
  cases x with
  | process u =>
    exact ⟨Nat.lt_of_lt_of_le hx.1 hseed, hprocess u hx.1 rfl hx.2.1, hrun.trans hx.2.2⟩
  | onStopped u copy =>
    exact ⟨hstays u hx.1, fun c hc => Nat.lt_of_lt_of_le (hx.2.1 c hc) hseed,
      hchildren u copy hx.1.2 hx.2.2⟩
  | abortChildren copy => exact fun c hc => Nat.lt_of_lt_of_le (hx c hc) hseed
  | runLoop | runEnd => exact hrun.trans hx
  | wakeTasks | onTimeoutChange | poll => exact trivial
  | _ => exact hstays _ hx

theorem Kept.frame (h : Kept r r') (hx : LifeFrame r x) : LifeFrame r' x := by
  refine frame_mono hx (Nat.le_of_eq h.seed.symm) h.running
    (fun u _ hd => (h.done_ u).trans hd) (fun u _ _ hb => (h.busy_ u).trans hb)
    fun u copy _ hc c => ?_
  rw [h.seed, h.parent_, h.done_, h.aborted_]
  exact hc c

/-! The moves -/

theorem Moved.flag {α : Type*} (h : Moved r r' t evs) (f : Task → α)
    (hf : f (r'.heap t) = f (r.heap t)) (u : TaskId) : f (r'.heap u) = f (r.heap u) := by
  by_cases hu : u = t
  · rw [hu, hf]
  · rw [h.others u hu]

theorem Moved.childrenOf (h : Moved r r' t evs) (p : Option TaskId) :
    r'.childrenOf p = r.childrenOf p := by
  cases p with
  | none => exact h.root
  | some p => exact h.flag Task.children_ h.children_ p

/-- What is done stays done. -/
theorem Moved.done (h : Moved r r' t evs) (hu : (r.heap u).done_ = true) :
    (r'.heap u).done_ = true := by
  by_cases hut : u = t
  · rw [hut] at hu ⊢
    cases h.move with
    | quiet done_ aborted_ busy_ => rw [done_, hu]
    | begun undone | aborting undone =>
      rw [hu] at undone
      cases undone
    | ended undone done_ | aborted undone done_ => exact done_
  · rw [h.others u hut, hu]

/-- An abort is not taken back. -/
theorem Moved.aborted (h : Moved r r' t evs) (hu : (r.heap u).aborted_ = true) :
    (r'.heap u).aborted_ = true := by
  by_cases hut : u = t
  · rw [hut] at hu ⊢
    cases h.move with
    | quiet done_ aborted_ | begun undone done_ aborted_ | ended undone done_ aborted_ =>
      rw [aborted_, hu]
    | aborting undone done_ aborted_ | aborted undone done_ aborted_ => exact aborted_
  · rw [h.others u hut, hu]

theorem Moved.global (h : Moved r r' t evs) (ht : t < r.unique_id_seed_) (hg : LifeGlobal r) :
    LifeGlobal r' where
  fresh u hu := by
    rw [h.seed] at hu
    rw [h.others u (Nat.ne_of_gt (Nat.lt_of_lt_of_le ht hu))]
    exact hg.fresh u hu
  listed u hu := by
    rw [h.tasks_] at hu
    rw [h.seed]
    exact hg.listed u hu
  parents u p := by
    rw [h.seed, h.flag Task.parent_ h.parent_]
    exact hg.parents u p
  member p c := by
    rw [h.childrenOf, h.seed, h.flag Task.parent_ h.parent_]
    exact hg.member p c
  child c := by
    rw [h.seed, h.flag Task.parent_ h.parent_, h.childrenOf]
    exact fun hc => (hg.child c hc).imp_right h.done
  removed p := by
    rw [h.seed, h.flag Task.parent_ h.parent_, h.childrenOf]
    intro hp hmem c hc
    rw [h.flag Task.parent_ h.parent_]
    exact fun hparent => (hg.removed p hp hmem c hc hparent).imp h.done h.aborted
  doomed u := by
    by_cases hut : u = t
    · rw [hut]
      cases h.move with
      | quiet done_ aborted_ busy_ =>
        rw [done_, aborted_]
        intro ha
        refine (hg.doomed t ha).imp_right fun hb => ?_
        rcases busy_ with h' | ⟨-, hn⟩
        · rw [h', hb]
        · rw [ha] at hn
          cases hn
      | begun undone done_ aborted_ idle busy_ | aborting undone done_ aborted_ running busy_ =>
        exact fun _ => Or.inr busy_
      | ended undone done_ | aborted undone done_ => exact fun _ => Or.inl done_
    · rw [h.others u hut]
      exact hg.doomed u
  undone u := by
    by_cases hut : u = t
    · rw [hut]
      cases h.move with
      | quiet done_ aborted_ busy_ =>
        rw [done_]
        intro hb
        rcases busy_ with h' | ⟨hn, -⟩
        · exact hg.undone t (h'.symm.trans hb)
        · rw [hb] at hn
          cases hn
      | begun undone done_ | aborting undone done_ => exact fun _ => done_
      | ended undone done_ aborted_ busy_ | aborted undone done_ aborted_ busy_ =>
        intro hb
        rw [hb] at busy_
        cases busy_
    · rw [h.others u hut]
      exact hg.undone u
  stops u := by
    rw [h.log, List.count_append, hg.stops u]
    by_cases hut : u = t
    · rw [hut]
      cases h.move with
      | quiet done_ aborted_ busy_ => rw [List.count_nil, Nat.add_zero, done_]
      | begun undone done_ | ended undone done_ | aborting undone done_ | aborted undone done_ =>
        simp [undone, done_]
    · have hnone : evs.count (.stop u) = 0 := by
        refine List.count_eq_zero.2 fun hmem => hut ?_
        cases h.move <;> simp at hmem <;> exact hmem
      rw [h.others u hut, hnone, Nat.add_zero]
  aborts u := by
    rw [h.log, List.mem_append]
    rintro (hmem | hmem)
    · exact h.aborted (hg.aborts u hmem)
    · cases hmove : h.move with
      | aborting undone done_ aborted_ running busy_ =>
        simp only [List.mem_singleton, TaskEvent.abort.injEq] at hmem
        rw [hmem, aborted_]
      | aborted undone done_ aborted_ busy_ =>
        simp only [List.mem_cons, TaskEvent.abort.injEq, List.not_mem_nil, reduceCtorEq,
          or_false] at hmem
        rw [hmem, aborted_]
      | _ => simp at hmem
  order := by
    rw [h.log]
    refine List.pairwise_append.2 ⟨hg.order, ?_, fun a ha b hb u hbu => ?_⟩
    · cases h.move with
      | quiet done_ aborted_ busy_ => exact List.Pairwise.nil
      | aborted undone done_ aborted_ busy_ =>
        refine List.pairwise_pair.2 fun u hu => ?_
        cases hu
      | _ => exact List.pairwise_singleton _ _
    · -- `Process` is called on a task that is neither done nor aborted
      cases hmove : h.move with
      | begun undone done_ aborted_ idle busy_ =>
        obtain rfl : u = t := by
          rw [List.mem_singleton.1 hb] at hbu
          exact (TaskEvent.process.inj hbu).symm
        constructor
        · rintro rfl
          have hcount := List.count_pos_iff.2 ha
          rw [hg.stops, undone] at hcount
          cases hcount
        · rintro rfl
          rcases hg.doomed u (hg.aborts u ha) with hd | hbusy
          · rw [undone] at hd
            cases hd
          · rw [idle] at hbusy
            cases hbusy
      | _ =>
        rw [hbu] at hb
        simp at hb

/-- A pending statement stays right, unless it is the `Process` that came back. -/
theorem Moved.frame (h : Moved r r' t evs) (hx : LifeFrame r x)
    (hbusy : x = .process t → (r'.heap t).busy_ = true) : LifeFrame r' x := by
  refine frame_mono hx (Nat.le_of_eq h.seed.symm) h.running (fun u _ => h.done)
    (fun u _ hu hb => ?_) fun u copy _ hc c => ?_
  · by_cases hut : u = t
    · rw [hut] at hu ⊢
      exact hbusy hu
    · rw [h.others u hut]
      exact hb
  · rw [h.seed, h.flag Task.parent_ h.parent_]
    exact fun hlt hp => (hc c hlt hp).imp_right (Or.imp h.done h.aborted)

/-! The child sets -/

/-- Only child sets and child errors are changed. -/
structure ChildrenOnly (r r' : TaskRunner) : Prop where
  heap : ∀ u, r'.heap u = { r.heap u with
    children_ := (r'.heap u).children_
    child_error_ := (r'.heap u).child_error_ }
  rest : r' = { r with
    heap := r'.heap
    children_ := r'.children_
    child_error_ := r'.child_error_ }

theorem ChildrenOnly.trans {r'' : TaskRunner} (h : ChildrenOnly r r') (k : ChildrenOnly r' r'') :
    ChildrenOnly r r'' where
  heap u := by rw [k.heap u, h.heap u]
  rest := by rw [k.rest, h.rest]

theorem ChildrenOnly.set (r : TaskRunner) (p : TaskId) (l : List TaskId) (e : Bool) :
    ChildrenOnly r (r.set p { r.heap p with
      children_ := l
      child_error_ := e }) where
  heap u := by
    by_cases hu : u = p
    · rw [hu, set_heap_self]
    · rw [set_heap_ne _ hu]
  rest := rfl

theorem setChildren_only (r : TaskRunner) (q : Option TaskId) (l : List TaskId) :
    ChildrenOnly r (r.setChildren q l) := by
  cases q with
  | none => exact ⟨fun _ => rfl, rfl⟩
  | some q => exact .set r q l _

/-- `OnChildStopped` takes the task out of the child set of its parent. -/
theorem onChildStopped_children (r : TaskRunner) (t : TaskId) :
    ChildrenOnly r (r.onChildStopped t) ∧ ∀ p, (r.onChildStopped t).childrenOf p =
      if p = (r.heap t).parent_ then (r.childrenOf p).filter fun c => c ≠ t
      else r.childrenOf p := by
  have hset := setChildren_only r (r.heap t).parent_
    ((r.childrenOf (r.heap t).parent_).filter fun c => c ≠ t)
  have hchildren : ∀ p, (r.setChildren (r.heap t).parent_
      ((r.childrenOf (r.heap t).parent_).filter fun c => c ≠ t)).childrenOf p =
      if p = (r.heap t).parent_ then (r.childrenOf p).filter fun c => c ≠ t
      else r.childrenOf p := by
    intro p
    rw [childrenOf_setChildren]
    by_cases hp : p = (r.heap t).parent_
    · rw [if_pos hp, if_pos hp, hp]
    · rw [if_neg hp, if_neg hp]
  unfold onChildStopped
  dsimp only
  generalize r.setChildren (r.heap t).parent_
    ((r.childrenOf (r.heap t).parent_).filter fun c => c ≠ t) = s at hset hchildren
  split_ifs
  · cases hq : (r.heap t).parent_ with
    | none =>
      rw [hq] at hchildren
      refine ⟨hset.trans ⟨fun _ => rfl, rfl⟩, fun p => ?_⟩
      rw [← hchildren p]
      cases p <;> rfl
    | some q =>
      rw [hq] at hchildren
      refine ⟨hset.trans (.set s q _ true), fun p => ?_⟩
      rw [← hchildren p]
      cases p with
      | none => rfl
      | some p =>
        show ((s.set q { s.heap q with child_error_ := true }).heap p).children_ = _
        by_cases hpq : p = q
        · rw [hpq, set_heap_self]
          rfl
        · rw [set_heap_ne _ hpq]
          rfl
  · exact ⟨hset, hchildren⟩

theorem ChildrenOnly.frame (h : ChildrenOnly r r') (hx : LifeFrame r x) : LifeFrame r' x := by
  have hseed : r'.unique_id_seed_ = r.unique_id_seed_ := by rw [h.rest]
  refine frame_mono hx (Nat.le_of_eq hseed.symm) (by rw [h.rest]) (fun u _ hd => ?_)
    (fun u _ _ hb => ?_) fun u copy _ hc c => ?_
  · rw [h.heap u]
    exact hd
  · rw [h.heap u]
    exact hb
  · rw [hseed, h.heap c]
    exact hc c

/-- A task leaves its parent: it is done, and its children are at their end. -/
theorem onChildStopped_global (hg : LifeGlobal r) (hdone : (r.heap t).done_ = true)
    (hchildren : ∀ c < r.unique_id_seed_, (r.heap c).parent_ = some t →
      (r.heap c).done_ = true ∨ (r.heap c).aborted_ = true) :
    LifeGlobal (r.onChildStopped t) := by
  obtain ⟨honly, hsets⟩ := onChildStopped_children r t
  generalize r.onChildStopped t = r' at honly hsets
  have hseed : r'.unique_id_seed_ = r.unique_id_seed_ := by rw [honly.rest]
  have hparent : ∀ u, (r'.heap u).parent_ = (r.heap u).parent_ := fun u => by rw [honly.heap u]
  have hdone' : ∀ u, (r'.heap u).done_ = (r.heap u).done_ := fun u => by rw [honly.heap u]
  have haborted : ∀ u, (r'.heap u).aborted_ = (r.heap u).aborted_ := fun u => by
    rw [honly.heap u]
  -- who is still a child, and who was one
  have hstays : ∀ p c, c ∈ r.childrenOf p → c ≠ t → c ∈ r'.childrenOf p := by
    intro p c hc hct
    rw [hsets]
    split_ifs
    · exact List.mem_filter.2 ⟨hc, decide_eq_true hct⟩
    · exact hc
  have hwas : ∀ p c, c ∈ r'.childrenOf p → c ∈ r.childrenOf p := by
    intro p c hc
    rw [hsets] at hc
    split_ifs at hc
    · exact List.mem_of_mem_filter hc
    · exact hc
  refine flags_global hg (Nat.le_of_eq hseed.symm) hdone' haborted
    (fun u => by rw [honly.heap u]) (by rw [honly.rest]) (fun u hu => ?_) (fun u p => ?_)
    (fun p c hc => ?_) (fun c hc => ?_) fun p hp hmem c hc => ?_
  · rw [honly.rest] at hu
    rw [hseed]
    exact hg.listed u hu
  · rw [hseed, hparent]
    exact hg.parents u p
  · rw [hseed, hparent]
    exact hg.member p c (hwas p c hc)
  · rw [hseed] at hc
    rw [hparent, hdone']
    by_cases hct : c = t
    · rw [hct]
      exact Or.inr hdone
    · exact (hg.child c hc).imp_left fun hmem => hstays _ c hmem hct
  · rw [hseed] at hp hc
    rw [hparent] at hmem
    rw [hparent, hdone', haborted]
    by_cases hpt : p = t
    · rw [hpt]
      exact hchildren c hc
    · exact hg.removed p hp (fun h => hmem (hstays _ p h hpt)) c hc

/-- A task is made: everything else is as it was. -/
structure Made (r r' : TaskRunner) (parent : Option TaskId) : Prop where
  seed : r'.unique_id_seed_ = r.unique_id_seed_ + 1
  new : r'.heap r.unique_id_seed_ = Task.new parent
  others : ∀ u, u ≠ r.unique_id_seed_ →
    r'.heap u = { r.heap u with children_ := (r'.heap u).children_ }
  rest : r' = { r with
    heap := r'.heap
    children_ := r'.children_
    unique_id_seed_ := r.unique_id_seed_ + 1 }
  sets : ∀ p, p ≠ some r.unique_id_seed_ → ∀ c, c ∈ r'.childrenOf p ↔
    c ∈ r.childrenOf p ∨ (p = parent ∧ c = r.unique_id_seed_)
  childless : r'.childrenOf (some r.unique_id_seed_) = []

theorem Made.parent_ (h : Made r r' parent) : (r'.heap r.unique_id_seed_).parent_ = parent := by
  rw [h.new]
  rfl

theorem Made.unstarted (h : Made r r' parent) :
    (r'.heap r.unique_id_seed_).done_ = false ∧
      (r'.heap r.unique_id_seed_).aborted_ = false ∧
      (r'.heap r.unique_id_seed_).busy_ = false := by
  rw [h.new]
  exact ⟨rfl, rfl, rfl⟩

theorem setChildren_heap (r : TaskRunner) (q : Option TaskId) (l : List TaskId) (u : TaskId) :
    (r.setChildren q l).heap u =
      { r.heap u with children_ := ((r.setChildren q l).heap u).children_ } := by
  cases q with
  | none => rfl
  | some q =>
    show (r.set q { r.heap q with children_ := l }).heap u =
      { r.heap u with children_ := ((r.set q { r.heap q with children_ := l }).heap u).children_ }
    by_cases hu : u = q
    · rw [hu, set_heap_self]
    · rw [set_heap_ne _ hu]

theorem construct_made (parent : Option TaskId) (position : Nat)
    (hparent : ∀ p, parent = some p → p < r.unique_id_seed_) :
    Made r (r.construct parent position) parent := by
  have hne : parent ≠ some r.unique_id_seed_ := fun h =>
    Nat.lt_irrefl _ (hparent r.unique_id_seed_ h)
  unfold construct
  dsimp only
  generalize hmade : ({ r.set r.unique_id_seed_ (Task.new parent) with
    unique_id_seed_ := r.unique_id_seed_ + 1 } : TaskRunner) = s
  have hnew : s.heap r.unique_id_seed_ = Task.new parent := by
    rw [← hmade]
    exact set_heap_self r _ _
  have hold : ∀ u, u ≠ r.unique_id_seed_ → s.heap u = r.heap u := by
    intro u hu
    rw [← hmade]
    exact set_heap_ne _ hu
  have hsets : ∀ p, p ≠ some r.unique_id_seed_ → s.childrenOf p = r.childrenOf p := by
    intro p hp
    cases p with
    | none => rw [← hmade]; rfl
    | some p => exact congrArg Task.children_ (hold p fun h => hp (by rw [h]))
  have hrest : s = { r with
      heap := s.heap
      children_ := s.children_
      unique_id_seed_ := r.unique_id_seed_ + 1 } := by
    rw [← hmade]
    rfl
  generalize hl : (s.childrenOf parent).take position ++
    r.unique_id_seed_ :: (s.childrenOf parent).drop position = l
  have hmem : ∀ c, c ∈ l ↔ c ∈ s.childrenOf parent ∨ c = r.unique_id_seed_ := by
    intro c
    have htd := List.mem_append (a := c) (s := (s.childrenOf parent).take position)
      (t := (s.childrenOf parent).drop position)
    rw [List.take_append_drop] at htd
    rw [htd, ← hl, List.mem_append, List.mem_cons]
    tauto
  have hset := setChildren_only s parent l
  exact
    { seed := by rw [hset.rest, hrest]
      new := by
        rw [← hnew]
        cases parent with
        | none => rfl
        | some q => exact set_heap_ne _ fun he => hne (by rw [he])
      others := fun u hu => by rw [setChildren_heap, hold u hu]
      rest := by
        cases parent with
        | none | some =>
          rw [hrest]
          rfl
      sets := fun p hp c => by
        rw [childrenOf_setChildren]
        split_ifs with hpp
        · rw [hmem, hpp, hsets parent hne]
          exact or_congr_right (by rw [eq_self_iff_true, true_and])
        · rw [hsets p hp]
          exact ⟨Or.inl, fun h => h.resolve_right fun hc => hpp hc.1⟩
      childless := by
        rw [childrenOf_setChildren, if_neg hne.symm]
        exact congrArg Task.children_ hnew }

theorem Made.parents (h : Made r r' parent) (hu : u ≠ r.unique_id_seed_) :
    (r'.heap u).parent_ = (r.heap u).parent_ := by
  rw [h.others u hu]

theorem Made.global (h : Made r r' parent)
    (hparent : ∀ p, parent = some p → p < r.unique_id_seed_ ∧ (r.heap p).done_ = false)
    (hg : LifeGlobal r) : LifeGlobal r' := by
  have htasks : r'.tasks_ = r.tasks_ := by rw [h.rest]
  -- the new task is as if it had been there
  have hflags : ∀ u, (r'.heap u).done_ = (r.heap u).done_ ∧
      (r'.heap u).aborted_ = (r.heap u).aborted_ ∧ (r'.heap u).busy_ = (r.heap u).busy_ := by
    intro u
    by_cases hu : u = r.unique_id_seed_
    · obtain ⟨hd, ha, hb⟩ := h.unstarted
      obtain ⟨hd', ha', hb'⟩ := hg.fresh r.unique_id_seed_ (Nat.le_refl _)
      rw [hu, hd, ha, hb, hd', ha', hb']
      exact ⟨rfl, rfl, rfl⟩
    · rw [h.others u hu]
      exact ⟨rfl, rfl, rfl⟩
  have hlt : ∀ u, u < r'.unique_id_seed_ → u ≠ r.unique_id_seed_ → u < r.unique_id_seed_ := by
    intro u hu hne
    rw [h.seed] at hu
    exact Nat.lt_of_le_of_ne (Nat.le_of_lt_succ hu) hne
  have hpne : ∀ u < r.unique_id_seed_, (r.heap u).parent_ ≠ some r.unique_id_seed_ :=
    fun u hu hp => Nat.lt_irrefl _ (hg.parents u _ hu hp)
  have hstays : ∀ u < r.unique_id_seed_, ∀ c, c ∈ r.childrenOf (r.heap u).parent_ →
      c ∈ r'.childrenOf (r'.heap u).parent_ := by
    intro u hu c hc
    rw [h.parents (Nat.ne_of_lt hu)]
    exact (h.sets _ (hpne u hu) c).2 (Or.inl hc)
  have hnew : r.unique_id_seed_ ∈ r'.childrenOf parent :=
    (h.sets parent (fun he => Nat.lt_irrefl _ (hparent _ he).1) _).2 (Or.inr ⟨rfl, rfl⟩)
  refine flags_global hg (by rw [h.seed]; exact Nat.le_succ _) (fun u => (hflags u).1)
    (fun u => (hflags u).2.1) (fun u => (hflags u).2.2) (by rw [h.rest]) (fun u hu => ?_)
    (fun u p hu hp => ?_) (fun p c hc => ?_) (fun u hu => ?_) fun p hp hmem c hc hcp => ?_
  · rw [htasks] at hu
    rw [h.seed]
    exact Nat.lt_succ_of_lt (hg.listed u hu)
  · rw [h.seed]
    by_cases hus : u = r.unique_id_seed_
    · rw [hus, h.parent_] at hp
      exact Nat.lt_succ_of_lt (hparent p hp).1
    · rw [h.parents hus] at hp
      exact Nat.lt_succ_of_lt (hg.parents u p (hlt u hu hus) hp)
  · rw [h.seed]
    by_cases hps : p = some r.unique_id_seed_
    · rw [hps, h.childless] at hc
      cases hc
    · rcases (h.sets p hps c).1 hc with hold | ⟨hpp, rfl⟩
      · obtain ⟨hcs, hcp⟩ := hg.member p c hold
        rw [h.parents (Nat.ne_of_lt hcs)]
        exact ⟨Nat.lt_succ_of_lt hcs, hcp⟩
      · rw [h.parent_, hpp]
        exact ⟨Nat.lt_succ_self _, rfl⟩
  · by_cases hus : u = r.unique_id_seed_
    · rw [hus, h.parent_]
      exact Or.inl hnew
    · rw [(hflags u).1]
      exact (hg.child u (hlt u hu hus)).imp_left (hstays u (hlt u hu hus) u)
  · by_cases hps : p = r.unique_id_seed_
    · rw [hps, h.parent_] at hmem
      exact absurd hnew hmem
    · have hpr := hlt p hp hps
      have hmem' : p ∉ r.childrenOf (r.heap p).parent_ := fun hm => hmem (hstays p hpr p hm)
      by_cases hcs : c = r.unique_id_seed_
      · -- its parent is not done, so it is still a child
        rw [hcs, h.parent_] at hcp
        rcases hg.child p hpr with hm | hd
        · exact absurd hm hmem'
        · rw [(hparent p hcp).2] at hd
          cases hd
      · rw [h.parents hcs] at hcp
        rw [(hflags c).1, (hflags c).2.1]
        exact hg.removed p hpr hmem' c (hlt c hc hcs) hcp

theorem Made.frame (h : Made r r' parent)
    (hparent : ∀ p, parent = some p → p < r.unique_id_seed_ ∧ (r.heap p).done_ = false)
    (hx : LifeFrame r x) : LifeFrame r' x := by
  have hold : ∀ u < r.unique_id_seed_, r'.heap u =
      { r.heap u with children_ := (r'.heap u).children_ } := fun u hu =>
    h.others u (Nat.ne_of_lt hu)
  refine frame_mono hx (by rw [h.seed]; exact Nat.le_succ _) (by rw [h.rest]) (fun u hu hd => ?_)
    (fun u hu _ hb => ?_) fun u copy hd hchildren c hc hp => ?_
  · rw [hold u hu]
    exact hd
  · rw [hold u hu]
    exact hb
  · by_cases hcs : c = r.unique_id_seed_
    · -- no task is made under one that is done
      rw [hcs, h.parent_] at hp
      rw [(hparent u hp).2] at hd
      cases hd
    · rw [h.seed] at hc
      rw [h.others c hcs] at hp ⊢
      exact hchildren c (Nat.lt_of_le_of_ne (Nat.le_of_lt_succ hc) hcs) hp

end Keeps

/-! ## 3. Every step keeps it -/

section Preserves

variable {r s : TaskRunner} {t : TaskId} {U : RunnerStmt → Prop}

/-- Neither a loop of the runner nor a `Process`: such a statement may lie over any other. -/
def Plain (x : RunnerStmt) : Prop := x.isRunner = false ∧ x.isProcess = false

theorem Plain.below {x : RunnerStmt} (h : Plain x) (l : RunnerStmt) : lifeInv.below x l := by
  refine ⟨fun hx => ?_, fun hx => ?_⟩
  · rw [h.1] at hx
    cases hx
  · rw [h.2] at hx
    cases hx

theorem notifies_plain {x : RunnerStmt} (h : x.notifies = true) : Plain x := by
  cases x <;> first | exact ⟨rfl, rfl⟩ | cases h

theorem notifies_frame {x : RunnerStmt} (h : x.notifies = true) : LifeFrame r x := by
  cases x <;> first | exact trivial | cases h

theorem stopCode_plain : ∀ x ∈ stopCode t, Plain x := by
  intro x hx
  simp only [stopCode, List.mem_cons, List.not_mem_nil, or_false] at hx
  rcases hx with rfl | rfl | rfl <;> exact ⟨rfl, rfl⟩

theorem stopCode_frame (ht : t < r.unique_id_seed_) (hdone : (r.heap t).done_ = true) :
    ∀ x ∈ stopCode t, LifeFrame r x := by
  intro x hx
  simp only [stopCode, List.mem_cons, List.not_mem_nil, or_false] at hx
  rcases hx with rfl | rfl | rfl <;> exact ⟨ht, hdone⟩

/-- The rule for statements that may lie over any other. -/
theorem preserved_plain {push : List RunnerStmt} (hg : LifeGlobal s)
    (hpush : ∀ x ∈ push, Plain x ∧ LifeFrame s x)
    (hrest : ∀ l, LifeFrame r l → U l → LifeFrame s l) :
    lifeInv.Preserved r s push U where
  global := hg
  frame x hx := (hpush x hx).2
  below := by
    refine List.Pairwise.imp_of_mem (R := fun _ _ => True) ?_ (List.pairwise_of_forall fun _ _ =>
      trivial)
    exact fun hx _ _ => (hpush _ hx).1.below _
  rest l hl hu := ⟨hrest l hl hu, fun x hx => (hpush x hx).1.below l⟩

theorem Kept.preserved {push : List RunnerStmt} (h : Kept r s) (hg : LifeGlobal r)
    (hpush : ∀ x ∈ push, x.notifies = true) : lifeInv.Preserved r s push U :=
  preserved_plain (h.global hg)
    (fun x hx => ⟨notifies_plain (hpush x hx), notifies_frame (hpush x hx)⟩)
    fun _ hl _ => h.frame hl

theorem Aborting.preserved {nowake : Bool} {s : TaskRunner × List RunnerStmt}
    (h : Aborting r t nowake s) (ht : t < r.unique_id_seed_) (hg : LifeGlobal r)
    {M : List RunnerStmt} (hmore : ∀ x ∈ M, Plain x ∧ LifeFrame s.1 x) :
    lifeInv.Preserved r s.1 (s.2 ++ M) U := by
  cases h with
  | done h => exact preserved_plain hg hmore fun _ hl _ => hl
  | busy h hbusy =>
    refine preserved_plain (h.global ht hg) hmore fun l hl _ => h.frame hl fun _ => ?_
    cases h.move with
    | aborting undone done_ aborted_ running busy_ => exact busy_
  | stopped h hidle hblocked hdone =>
    refine preserved_plain (h.global ht hg) (fun x hx => ?_) fun l hl _ => h.frame hl fun hp => ?_
    · rcases List.mem_append.1 hx with hx | hx
      · rcases List.mem_append.1 hx with hx | hx
        · exact ⟨stopCode_plain x hx, stopCode_frame (h.seed.symm ▸ ht) hdone x hx⟩
        · have hx' : x = .wakeTasks := by
            cases nowake with
            | true => cases hx
            | false => exact List.mem_singleton.1 hx
          rw [hx']
          exact ⟨⟨rfl, rfl⟩, trivial⟩
      · exact hmore x hx
    · -- an abort does not get here while `Process` runs
      rw [hp] at hl
      have hb : (r.heap t).busy_ = true := hl.2.1
      rw [hidle] at hb
      cases hb

/-- After `Abort`, the task is at its end. -/
theorem Aborting.ends {nowake : Bool} {s : TaskRunner × List RunnerStmt}
    (h : Aborting r t nowake s) : (s.1.heap t).done_ = true ∨ (s.1.heap t).aborted_ = true := by
  cases h with
  | done h | stopped _ hidle hblocked h => exact Or.inl h
  | busy h hbusy =>
    cases h.move with
    | aborting undone done_ aborted_ running busy_ => exact Or.inr aborted_

/-- An abort keeps the frames. -/
theorem Aborting.frame {nowake : Bool} {s : TaskRunner × List RunnerStmt}
    (h : Aborting r t nowake s) {x : RunnerStmt} (hx : LifeFrame r x) (hplain : Plain x) :
    LifeFrame s.1 x := by
  have hbusy : ∀ b : Bool, x = .process t → b = true := by
    rintro b rfl
    cases hplain.2
  cases h with
  | done h => exact hx
  | busy h _ | stopped h _ _ _ => exact h.frame hx (hbusy _)

theorem Aborting.seed {nowake : Bool} {s : TaskRunner × List RunnerStmt}
    (h : Aborting r t nowake s) : s.1.unique_id_seed_ = r.unique_id_seed_ := by
  cases h with
  | done h => rfl
  | busy h | stopped h => exact h.seed

/-- The loops of the runner. `Process` is not running when they are. -/
theorem Running.preserved {i : Nat} {did_run : Bool} {previous : Int}
    {s : TaskRunner × List RunnerStmt} (h : Running r i did_run previous s) (hg : LifeGlobal r)
    (hrun : r.tasks_running_ = true) (hidle : ∀ u, (r.heap u).busy_ = false) :
    lifeInv.Preserved r s.1 s.2 fun l => lifeInv.below (.runLoop i did_run previous) l := by
  -- a loop goes on over what it was over
  have hbelow : ∀ {x l : RunnerStmt}, lifeInv.below (.runLoop i did_run previous) l →
      lifeInv.below x l := fun hl => ⟨fun _ => hl.1 rfl, fun _ => (hl.1 rfl).2⟩
  cases h with
  | stepped t ht hlive hunblocked =>
    have htl := hg.listed t ht
    have hnot : ∀ {l}, lifeInv.below (.runLoop i did_run previous) l → l = .process t →
        ∀ b : Bool, b = true := by
      rintro l hl rfl
      cases (hl.1 rfl).2
    have hstep := step_stepping (hidle t)
    generalize r.step t = s at hstep
    cases hstep with
    | done h hdone hblocked =>
      refine ⟨h.global htl hg, ?_, List.pairwise_singleton _ _, fun l hl hu => ⟨?_, ?_⟩⟩
      · exact List.forall_mem_singleton.2 (h.running.trans hrun)
      · exact h.frame hl fun hp => hnot hu hp _
      · exact fun _ _ => hbelow hu
    | failed h hblocked hdone =>
      refine ⟨h.global htl hg, fun x hx => ?_, ?_, fun l hl hu => ⟨?_, ?_⟩⟩
      · rcases List.mem_append.1 hx with hx | hx
        · exact stopCode_frame (h.seed.symm ▸ htl) hdone x hx
        · rw [List.mem_singleton.1 hx]
          exact h.running.trans hrun
      · refine List.pairwise_append.2 ⟨?_, List.pairwise_singleton _ _, fun x hx l _ =>
          (stopCode_plain x hx).below l⟩
        exact (preserved_plain (U := fun _ => True) (h.global htl hg)
          (fun x hx => ⟨stopCode_plain x hx, stopCode_frame (h.seed.symm ▸ htl) hdone x hx⟩)
          fun _ hl _ => hl).below
      · exact h.frame hl fun hp => hnot hu hp _
      · exact fun _ _ => hbelow hu
    | @begun s h hundone =>
      have hbusy : (s.heap t).busy_ = true := by
        cases h.move with
        | begun undone done_ aborted_ idle busy_ => exact busy_
      refine ⟨h.global htl hg, fun x hx => ?_, ?_, fun l hl hu => ⟨?_, ?_⟩⟩
      · rcases List.mem_cons.1 hx with rfl | hx
        · exact ⟨h.seed.symm ▸ htl, hbusy, h.running.trans hrun⟩
        · rw [List.mem_singleton.1 hx]
          exact h.running.trans hrun
      · exact List.pairwise_pair.2 ⟨nofun, fun _ => rfl⟩
      · exact h.frame hl fun _ => hbusy
      · exact fun _ _ => hbelow hu
  | looped j did_run' =>
    exact ⟨hg, List.forall_mem_singleton.2 hrun, List.pairwise_singleton _ _,
      fun l hl hu => ⟨hl, fun _ _ => hbelow hu⟩⟩
  | swept h =>
    have hkept := sweep_kept h
    obtain ⟨told, hs, htold⟩ := sweep_push h
    have hplain : ∀ x ∈ told, Plain x := fun x hx => by
      rw [htold x hx]
      exact ⟨rfl, rfl⟩
    rw [hs]
    refine ⟨hkept.global hg, fun x hx => ?_, ?_, fun l hl hu => ⟨hkept.frame hl, fun _ _ =>
      hbelow hu⟩⟩
    · rcases List.mem_append.1 hx with hx | hx
      · rw [htold x hx]
        exact trivial
      · rw [List.mem_singleton.1 hx]
        exact hkept.running.trans hrun
    · refine List.pairwise_append.2 ⟨?_, List.pairwise_singleton _ _, fun x hx l _ =>
        (hplain x hx).below l⟩
      exact (preserved_plain (U := fun _ => True) hg
        (fun x hx => ⟨hplain x hx, by rw [htold x hx]; exact trivial⟩) fun _ hl _ => hl).below

end Preserves

end TaskRunner

/-! ## 4. What is still to be done -/

/-- What is still to be done about a task. -/
inductive Debt where
  /-- its `Process` is to come back -/
  | comesBack (t : TaskId)
  /-- it is to be blocked -/
  | blocks (t : TaskId)
  /-- it is to leave its parent -/
  | leaves (t : TaskId)

def Debt.owed : Debt → TaskRunner → Prop
  | .comesBack t, r => (r.heap t).busy_ = true
  | .blocks t, r => (r.heap t).done_ = true ∧ (r.heap t).blocked_ = false
  | .leaves t, r => (r.heap t).done_ = true ∧ t ∈ r.childrenOf (r.heap t).parent_

/-- The statement that will do it. -/
def Debt.paidBy : Debt → RunnerStmt → Prop
  | .comesBack t, x => x = .process t
  | .blocks t, x => x = .blockAfterStop t
  | .leaves t, x => x.Stops t

namespace TaskRunner

section Debts

variable {r r' : TaskRunner} {t : TaskId} {d : Debt}

theorem Kept.owed (h : Kept r r') (hd : d.owed r') : d.owed r := by
  cases d with
  | comesBack u => exact (h.busy_ u).symm.trans hd
  | blocks u =>
    have hdone := (h.done_ u).symm.trans hd.1
    exact ⟨hdone, (h.blocked_ u hdone).symm.trans hd.2⟩
  | leaves u =>
    obtain ⟨hdone, hmem⟩ := hd
    rw [h.childrenOf, h.parent_] at hmem
    exact ⟨(h.done_ u).symm.trans hdone, hmem⟩

theorem ChildrenOnly.owed (h : ChildrenOnly r r')
    (hsets : ∀ p c, c ∈ r'.childrenOf p → c ∈ r.childrenOf p) (hd : d.owed r') : d.owed r := by
  cases d with
  | comesBack u | blocks u =>
    rw [Debt.owed, h.heap u] at hd
    exact hd
  | leaves u =>
    obtain ⟨hdone, hmem⟩ := hd
    rw [h.heap u] at hdone hmem
    exact ⟨hdone, hsets _ u hmem⟩

theorem Made.owed {parent : Option TaskId} (h : Made r r' parent) (hg : LifeGlobal r)
    (hd : d.owed r') : d.owed r := by
  obtain ⟨hdone, -, hbusy⟩ := h.unstarted
  cases d with
  | comesBack u =>
    by_cases hu : u = r.unique_id_seed_
    · rw [Debt.owed, hu, hbusy] at hd
      cases hd
    · rw [Debt.owed, h.others u hu] at hd
      exact hd
  | blocks u =>
    by_cases hu : u = r.unique_id_seed_
    · rw [Debt.owed, hu, hdone] at hd
      cases hd.1
    · rw [Debt.owed, h.others u hu] at hd
      exact hd
  | leaves u =>
    by_cases hu : u = r.unique_id_seed_
    · rw [Debt.owed, hu, hdone] at hd
      cases hd.1
    · rw [Debt.owed, h.others u hu] at hd
      obtain ⟨hd, hmem⟩ := hd
      have hlt : u < r.unique_id_seed_ := by
        refine Nat.lt_of_not_le fun hle => ?_
        have hnot := (hg.fresh u hle).1
        rw [hd] at hnot
        cases hnot
      refine ⟨hd, ((h.sets _ (fun hp => ?_) u).1 hmem).resolve_right fun hc => hu hc.2⟩
      exact Nat.lt_irrefl _ (hg.parents u _ hlt hp)

/-- What a move leaves to be done. -/
theorem Moved.owed {evs : List TaskEvent} {P : List RunnerStmt} (h : Moved r r' t evs)
    (hbegun : .process t ∈ evs → .process t ∈ P) (hstop : .stop t ∈ evs → .taskStop t ∈ P)
    (hblocks : (r'.heap t).done_ = true → (r'.heap t).blocked_ = false →
      .blockAfterStop t ∈ P ∨ ((r.heap t).done_ = true ∧ (r.heap t).blocked_ = false))
    (hd : d.owed r') : (∃ x ∈ P, d.paidBy x) ∨ d.owed r := by
  have hold : ∀ {u}, u ≠ t → r'.heap u = r.heap u := fun hu => h.others _ hu
  cases d with
  | comesBack u =>
    by_cases hu : u = t
    · have hb : (r'.heap t).busy_ = true := hu ▸ hd
      rw [hu]
      cases hmove : h.move with
      | begun undone done_ aborted_ idle busy_ =>
        exact Or.inl ⟨_, hbegun (List.mem_singleton_self _), rfl⟩
      | quiet done_ aborted_ busy_ =>
        rcases busy_ with h' | ⟨h', -⟩
        · exact Or.inr (h'.symm.trans hb)
        · rw [hb] at h'
          cases h'
      | aborting undone done_ aborted_ running busy_ => exact Or.inr running
      | _ undone done_ aborted_ busy_ =>
        rw [hb] at busy_
        cases busy_
    · rw [Debt.owed, hold hu] at hd
      exact Or.inr hd
  | blocks u =>
    by_cases hu : u = t
    · rw [hu] at hd ⊢
      exact (hblocks hd.1 hd.2).imp_left fun hm => ⟨_, hm, rfl⟩
    · rw [Debt.owed, hold hu] at hd
      exact Or.inr hd
  | leaves u =>
    obtain ⟨hdone, hmem⟩ := hd
    rw [h.childrenOf, h.flag Task.parent_ h.parent_] at hmem
    by_cases hu : u = t
    · rw [hu] at hdone hmem ⊢
      cases hmove : h.move with
      | quiet done_ aborted_ busy_ => exact Or.inr ⟨done_.symm.trans hdone, hmem⟩
      | begun undone done_ | aborting undone done_ =>
        rw [hdone] at done_
        cases done_
      | ended undone done_ aborted_ busy_ =>
        exact Or.inl ⟨_, hstop (List.mem_singleton_self _), Or.inl rfl⟩
      | aborted undone done_ aborted_ busy_ =>
        exact Or.inl ⟨_, hstop (List.mem_cons_of_mem _ (List.mem_singleton_self _)), Or.inl rfl⟩
    · rw [hold hu] at hdone
      exact Or.inr ⟨hdone, hmem⟩

theorem taskStop_mem_stopCode (t : TaskId) : .taskStop t ∈ stopCode t :=
  List.mem_cons_of_mem _ List.mem_cons_self

theorem Aborting.owed {nowake : Bool} {s : TaskRunner × List RunnerStmt}
    (h : Aborting r t nowake s) (hd : d.owed s.1) : (∃ x ∈ s.2, d.paidBy x) ∨ d.owed r := by
  cases h with
  | done h => exact Or.inr hd
  | busy h hbusy =>
    refine h.owed nofun nofun (fun hdone => ?_) hd
    cases h.move with
    | aborting undone done_ aborted_ running busy_ =>
      rw [hdone] at done_
      cases done_
  | stopped h hidle hblocked hdone =>
    refine h.owed (by simp) (fun _ => ?_) (fun _ hb => ?_) hd
    · exact List.mem_append_left _ (taskStop_mem_stopCode t)
    · rw [hblocked] at hb
      cases hb

theorem Stepping.owed {s : TaskRunner × List RunnerStmt} (h : Stepping r t s)
    (hd : d.owed s.1) : (∃ x ∈ s.2, d.paidBy x) ∨ d.owed r := by
  cases h with
  | done h hdone hblocked =>
    refine h.owed nofun nofun (fun _ hb => ?_) hd
    rw [hblocked] at hb
    cases hb
  | failed h hblocked hdone =>
    refine h.owed (by simp) (fun _ => taskStop_mem_stopCode t) (fun _ hb => ?_) hd
    rw [hblocked] at hb
    cases hb
  | begun h hundone =>
    refine h.owed (fun _ => List.mem_singleton_self _) (by simp) (fun hdone => ?_) hd
    cases h.move with
    | begun undone done_ aborted_ idle busy_ =>
      rw [hdone] at done_
      cases done_

/-- When `Process` has come back, the task is not running. -/
theorem Processed.owed {new_state : Int} {s : TaskRunner × List RunnerStmt}
    (h : Processed r t new_state s) (hd : d.owed s.1) :
    (∃ x ∈ s.2, d.paidBy x) ∨ (d.owed r ∧ ¬d.paidBy (.process t)) := by
  have hidle : (s.1.heap t).busy_ = false := by
    cases h with
    | goesOn h haborted hend hundone hidle => exact hidle
    | aborted h haborted hblocked hdone =>
      cases h.move with
      | aborted undone done_ aborted_ busy_ => exact busy_
    | ended h haborted hend hdone =>
      cases h.move with
      | ended undone done_ aborted_ busy_ => exact busy_
  have hnot : ¬d.paidBy (.process t) := by
    cases d with
    | comesBack u =>
      intro hp
      have hb : (s.1.heap u).busy_ = true := hd
      rw [← RunnerStmt.process.inj hp, hidle] at hb
      cases hb
    | blocks | leaves => exact nofun
  suffices hown : (∃ x ∈ s.2, d.paidBy x) ∨ d.owed r from hown.imp_right fun hr => ⟨hr, hnot⟩
  cases h with
  | aborted h haborted hblocked hdone =>
    refine h.owed (by simp) (fun _ => taskStop_mem_stopCode t) (fun _ hb => ?_) hd
    rw [hblocked] at hb
    cases hb
  | goesOn h haborted hend hundone hidle =>
    refine h.owed nofun nofun (fun hdone => ?_) hd
    rw [hundone] at hdone
    cases hdone
  | ended h haborted hend hdone =>
    refine h.owed (by simp) (fun _ => ?_) (fun _ _ => Or.inl ?_) hd
    · exact List.mem_append_left _ (taskStop_mem_stopCode t)
    · exact List.mem_append_right _ (List.mem_singleton_self _)

end Debts

/-! ## 5. The steps -/

section Steps

variable {r : TaskRunner} {d : Debt}

variable {s : TaskRunner × List RunnerStmt} {x : RunnerStmt}

theorem exec_preserved (hg : LifeGlobal r) (hx : LifeFrame r x)
    (hidle : x.isRunner = true → ∀ u, (r.heap u).busy_ = false) (h : r.exec x = some s) :
    lifeInv.Preserved r s.1 s.2 fun l => lifeInv.below x l := by
  cases exec_executed h with
  | taskStop t hlive =>
    refine preserved_plain hg (List.forall_mem_singleton.2 ⟨⟨rfl, rfl⟩, hx, fun c hc => ?_,
      fun c hc hp => ?_⟩) fun _ hl _ => hl
    · exact (hg.member (some t) c hc).1
    · have hchild := hg.child c hc
      rw [hp] at hchild
      exact hchild.imp_right Or.inl
  | childStopped t hlive =>
    refine preserved_plain (onChildStopped_global hg hx.1.2 fun c hc hp => ?_)
      (List.forall_mem_nil _) fun _ hl _ => (onChildStopped_children r t).1.frame hl
    exact (hx.2.2 c hc hp).resolve_left nofun
  | abortsChild t c copy hlive =>
    have habort := abort_aborting r c true
    refine habort.preserved (hx.2.1 c List.mem_cons_self) hg
      (List.forall_mem_singleton.2 ⟨⟨rfl, rfl⟩, ?_⟩)
    obtain ⟨hdone, hcopy, hchildren⟩ := habort.frame hx ⟨rfl, rfl⟩
    refine ⟨hdone, fun e he => hcopy e (List.mem_cons_of_mem c he), fun e he hp => ?_⟩
    rcases hchildren e he hp with hmem | hend
    · rcases List.mem_cons.1 hmem with rfl | hmem
      · exact Or.inr habort.ends
      · exact Or.inl hmem
    · exact Or.inr hend
  | childrenAborted => exact preserved_plain hg (List.forall_mem_nil _) fun _ hl _ => hl
  | abortChildren c copy hlive =>
    have habort := abort_aborting r c true
    refine habort.preserved (hx c List.mem_cons_self) hg
      (List.forall_mem_singleton.2 ⟨⟨rfl, rfl⟩, fun e he => ?_⟩)
    rw [habort.seed]
    exact hx e (List.mem_cons_of_mem c he)
  | blockAfterStop t hlive =>
    have hblock := blockAfterStop_moved r t
    refine preserved_plain (hblock.1.global hx.1 hg) (List.forall_mem_nil _) fun l hl _ =>
      hblock.1.frame hl fun hp => hblock.2.1.trans ?_
    rw [hp] at hl
    exact hl.2.1
  | runLoop i did_run previous h => exact h.preserved hg hx (hidle rfl)
  | runEnd =>
    refine ⟨{ hg with }, List.forall_mem_nil _, List.Pairwise.nil,
      fun l hl hu => ⟨?_, List.forall_mem_nil _⟩⟩
    -- no statement that needs the runner to be running is under it
    obtain ⟨hloop, hprocess⟩ := hu.1 rfl
    cases l with
    | process t => cases hprocess
    | runLoop | runEnd => cases hloop
    | _ => exact hl
  | poll old =>
    rcases poll_cases r old with hpoll | ⟨t, -, -, -, hpoll⟩
    · rw [hpoll]
      exact preserved_plain hg (List.forall_mem_nil _) fun _ hl _ => hl
    · rw [hpoll]
      have hkept := wake_kept r t
      refine preserved_plain (hkept.global hg) (fun x hx => ?_) fun _ hl _ => hkept.frame hl
      rcases List.mem_append.1 hx with hx | hx
      · rw [wake_push r t x hx]
        exact ⟨⟨rfl, rfl⟩, trivial⟩
      · simp only [List.mem_cons, List.not_mem_nil, or_false] at hx
        rcases hx with rfl | rfl <;> exact ⟨⟨rfl, rfl⟩, trivial⟩

theorem timers_preserved {U : RunnerStmt → Prop} (hg : LifeGlobal r) (h : TimersOnly r s.1)
    (hpush : ∀ x ∈ s.2, x = .onTimeoutChange) : lifeInv.Preserved r s.1 s.2 U :=
  h.kept.preserved hg fun x hx => by
    rw [hpush x hx]
    rfl

theorem enter_preserved {m : RunnerCall} {U : RunnerStmt → Prop} (hg : LifeGlobal r)
    (hm : ∀ t ∈ m.target, t < r.unique_id_seed_ ∧ (r.heap t).deleted = false ∧
      (m.constructs = true → (r.heap t).done_ = false)) :
    lifeInv.Preserved r (r.enter m).1 (r.enter m).2 U := by
  cases m with
  | construct parent position =>
    have hparent : ∀ p, parent = some p → p < r.unique_id_seed_ ∧ (r.heap p).done_ = false :=
      fun p hp => ⟨(hm p hp).1, (hm p hp).2.2 rfl⟩
    have hmade := construct_made (r := r) parent position fun p hp => (hparent p hp).1
    exact preserved_plain (hmade.global hparent hg) (List.forall_mem_nil _) fun _ hl _ =>
      hmade.frame hparent hl
  | start t => exact (start_kept (hm t rfl).1).preserved hg (start_push r t)
  | abort t nowake =>
    have habort := (abort_aborting r t nowake).preserved (U := U) (M := []) (hm t rfl).1
      hg (List.forall_mem_nil _)
    rw [List.append_nil] at habort
    exact habort
  | wake t =>
    refine (wake_kept r t).preserved hg fun x hx => ?_
    rw [wake_push r t x hx]
    rfl
  | error t =>
    refine (error_kept r t).preserved hg fun x hx => ?_
    rw [error_push r t x hx]
    rfl
  | abortAllChildren t =>
    refine preserved_plain hg (List.forall_mem_singleton.2 ⟨⟨rfl, rfl⟩, fun c hc => ?_⟩)
      fun _ hl _ => hl
    exact (hg.member (some t) c hc).1
  | setTimeoutSeconds t n =>
    exact timers_preserved hg (setTimeoutSeconds_timers r t n) (updateTaskTimeout_push _ _ _)
  | resetTimeout t =>
    exact timers_preserved hg (resetTimeout_timers r t) (updateTaskTimeout_push _ _ _)
  | clearTimeout t =>
    exact timers_preserved hg (clearTimeout_timers r t) (updateTaskTimeout_push _ _ _)
  | suspendTimeout t =>
    exact timers_preserved hg (setSuspended_timers r t true) (setSuspended_push r t true)
  | resumeTimeout t =>
    exact timers_preserved hg (setSuspended_timers r t false) (setSuspended_push r t false)
  | runTasks =>
    show lifeInv.Preserved r (if r.tasks_running_ then (r, []) else _ : _ × _).1
      (if r.tasks_running_ then (r, []) else _ : _ × List RunnerStmt).2 U
    split_ifs with hrun
    · exact preserved_plain hg (List.forall_mem_nil _) fun _ hl _ => hl
    · refine ⟨{ hg with }, List.forall_mem_singleton.2 rfl,
        List.pairwise_singleton _ _, fun l hl _ => ⟨?_, List.forall_mem_singleton.2 ⟨fun _ => ?_,
        nofun⟩⟩⟩
      · cases l <;> first | exact hl | exact rfl | exact ⟨hl.1, hl.2.1, rfl⟩
      · -- the runner is not running, so nothing of it is pending
        cases l <;> first | exact ⟨rfl, rfl⟩ | exact absurd hl hrun | exact absurd hl.2.2 hrun
  | pollTasks =>
    exact preserved_plain hg (List.forall_mem_singleton.2 ⟨⟨rfl, rfl⟩, trivial⟩) fun _ hl _ => hl
  | clock now =>
    have hkept : Kept r { r with now } := { Kept.refl r with parent_ := fun _ => rfl }
    exact hkept.preserved hg (List.forall_mem_nil _)

theorem resume_preserved (v : Int) (hg : LifeGlobal r) (hx : LifeFrame r x) :
    lifeInv.Preserved r (r.resume x v).1 (r.resume x v).2 fun l => lifeInv.below x l := by
  cases x with
  | process t =>
    obtain ⟨ht, hbusy, -⟩ := hx
    have hprocessed := processed_processed v (hg.undone t hbusy)
    show lifeInv.Preserved r (r.processed t v).1 (r.processed t v).2 _
    generalize r.processed t v = s at hprocessed
    -- no other `Process` is in progress
    have hnot : ∀ {l}, lifeInv.below (.process t) l → l = .process t → ∀ b : Bool, b = true := by
      rintro l hl rfl
      cases hl.2 rfl
    cases hprocessed with
    | aborted h haborted hblocked hdone =>
      exact preserved_plain (h.global ht hg) (fun x hx => ⟨stopCode_plain x hx,
        stopCode_frame (h.seed.symm ▸ ht) hdone x hx⟩) fun l hl hu => h.frame hl fun hp =>
        hnot hu hp _
    | goesOn h haborted hend hundone hidle =>
      exact preserved_plain (h.global ht hg) (List.forall_mem_nil _) fun l hl hu =>
        h.frame hl fun hp => hnot hu hp _
    | ended h haborted hend hdone =>
      refine preserved_plain (h.global ht hg) (fun x hx => ?_) fun l hl hu => h.frame hl fun hp =>
        hnot hu hp _
      rcases List.mem_append.1 hx with hx | hx
      · exact ⟨stopCode_plain x hx, stopCode_frame (h.seed.symm ▸ ht) hdone x hx⟩
      · rw [List.mem_singleton.1 hx]
        exact ⟨⟨rfl, rfl⟩, h.seed.symm ▸ ht, hdone⟩
  | _ => exact preserved_plain hg (List.forall_mem_nil _) fun _ hl _ => hl

theorem exec_owed (hidle : x.isRunner = true → ∀ u, (r.heap u).busy_ = false)
    (h : r.exec x = some s) (hd : d.owed s.1) :
    (∃ p ∈ s.2, d.paidBy p) ∨ (d.owed r ∧ ¬d.paidBy x) := by
  -- the stop goes on
  have hgoesOn : ∀ (t : TaskId) (y : RunnerStmt) (copy : List TaskId), y.Stops t →
      (∀ u, y.Stops u → u = t) → (∀ u, y ≠ .process u ∧ y ≠ .blockAfterStop u) → d.owed r →
      d.paidBy (.onStopped t copy) ∨ (d.owed r ∧ ¬d.paidBy y) := by
    intro t y copy hy hone hnot hr
    cases d with
    | comesBack u => exact Or.inr ⟨hr, (hnot u).1⟩
    | blocks u => exact Or.inr ⟨hr, (hnot u).2⟩
    | leaves u =>
      by_cases hut : u = t
      · rw [hut]
        exact Or.inl (Or.inr ⟨copy, rfl⟩)
      · exact Or.inr ⟨hr, fun hu => hut (hone u hu)⟩
  have hstopped : ∀ t copy, (RunnerStmt.onStopped t copy).Stops t ∧
      (∀ u, (RunnerStmt.onStopped t copy).Stops u → u = t) ∧
      ∀ u, RunnerStmt.onStopped t copy ≠ .process u ∧
        RunnerStmt.onStopped t copy ≠ .blockAfterStop u := by
    refine fun t copy => ⟨Or.inr ⟨copy, rfl⟩, ?_, fun u => ⟨nofun, nofun⟩⟩
    rintro u (hu | ⟨copy', hu⟩)
    · cases hu
    · exact (RunnerStmt.onStopped.inj hu).1.symm
  cases exec_executed h with
  | taskStop t hlive =>
    refine (hgoesOn t _ _ (Or.inl rfl) ?_ (fun u => ⟨nofun, nofun⟩) hd).imp_left fun hp =>
      ⟨_, List.mem_singleton_self _, hp⟩
    rintro u (hu | ⟨copy, hu⟩)
    · exact (RunnerStmt.taskStop.inj hu).symm
    · cases hu
  | childStopped t hlive =>
    obtain ⟨honly, hsets⟩ := onChildStopped_children r t
    have hr : d.owed r := by
      refine honly.owed (fun p c hc => ?_) hd
      rw [hsets] at hc
      split_ifs at hc
      · exact List.mem_of_mem_filter hc
      · exact hc
    refine Or.inr ⟨hr, fun hp => ?_⟩
    cases d with
    | comesBack u => exact (hstopped t []).2.2 u |>.1 hp
    | blocks u => exact (hstopped t []).2.2 u |>.2 hp
    | leaves u =>
      -- it has left
      obtain rfl := (hstopped t []).2.1 u hp
      have hmem := hd.2
      rw [honly.heap u, hsets, if_pos rfl] at hmem
      exact of_decide_eq_true (List.mem_filter.1 hmem).2 rfl
  | abortsChild t c copy hlive =>
    rcases (abort_aborting r c true).owed hd with ⟨p, hp, hpays⟩ | hr
    · exact Or.inl ⟨p, List.mem_append_left _ hp, hpays⟩
    · obtain ⟨hone, hall, hnot⟩ := hstopped t (c :: copy)
      refine (hgoesOn t _ copy hone hall hnot hr).imp_left fun hp =>
        ⟨_, List.mem_append_right _ (List.mem_singleton_self _), hp⟩
  | childrenAborted =>
    exact Or.inr ⟨hd, by cases d <;> exact nofun⟩
  | abortChildren c copy hlive =>
    rcases (abort_aborting r c true).owed hd with ⟨p, hp, hpays⟩ | hr
    · exact Or.inl ⟨p, List.mem_append_left _ hp, hpays⟩
    · exact Or.inr ⟨hr, by cases d <;> exact nofun⟩
  | blockAfterStop t hlive =>
    obtain ⟨hmoved, -, hblocked⟩ := blockAfterStop_moved r t
    have hr : d.owed r := by
      refine (hmoved.owed (P := []) nofun nofun (fun _ hb => ?_) hd).resolve_left nofun
      rw [hblocked] at hb
      cases hb
    refine Or.inr ⟨hr, fun hp => ?_⟩
    cases d with
    | comesBack u => cases hp
    | blocks u =>
      have hb := hd.2
      rw [← RunnerStmt.blockAfterStop.inj hp, hblocked] at hb
      cases hb
    | leaves u => exact absurd hp nofun
  | runLoop i did_run previous h =>
    have hnot : ¬d.paidBy (.runLoop i did_run previous) := by cases d <;> exact nofun
    cases h with
    | stepped t ht hlive hunblocked =>
      rcases (step_stepping (hidle rfl t)).owed hd with ⟨p, hp, hpays⟩ | hr
      · exact Or.inl ⟨p, List.mem_append_left _ hp, hpays⟩
      · exact Or.inr ⟨hr, hnot⟩
    | looped j did_run' => exact Or.inr ⟨hd, hnot⟩
    | swept h => exact Or.inr ⟨(sweep_kept h).owed hd, hnot⟩
  | runEnd =>
    have hr : d.owed r := by
      cases d <;> exact hd
    exact Or.inr ⟨hr, by cases d <;> exact nofun⟩
  | poll old =>
    refine Or.inr ⟨?_, by cases d <;> exact nofun⟩
    rcases poll_cases r old with hpoll | ⟨t, -, -, -, hpoll⟩
    · rw [hpoll] at hd
      exact hd
    · rw [hpoll] at hd
      exact (wake_kept r t).owed hd

theorem enter_owed {m : RunnerCall} (hg : LifeGlobal r)
    (hm : ∀ t ∈ m.target, t < r.unique_id_seed_) (hd : d.owed (r.enter m).1) :
    (∃ p ∈ (r.enter m).2, d.paidBy p) ∨ d.owed r := by
  cases m with
  | construct parent position => exact Or.inr ((construct_made parent position hm).owed hg hd)
  | start t => exact Or.inr ((start_kept (hm t rfl)).owed hd)
  | abort t nowake => exact (abort_aborting r t nowake).owed hd
  | wake t => exact Or.inr ((wake_kept r t).owed hd)
  | error t => exact Or.inr ((error_kept r t).owed hd)
  | abortAllChildren | pollTasks => exact Or.inr hd
  | setTimeoutSeconds t n => exact Or.inr ((setTimeoutSeconds_timers r t n).kept.owed hd)
  | resetTimeout t => exact Or.inr ((resetTimeout_timers r t).kept.owed hd)
  | clearTimeout t => exact Or.inr ((clearTimeout_timers r t).kept.owed hd)
  | suspendTimeout t => exact Or.inr ((setSuspended_timers r t true).kept.owed hd)
  | resumeTimeout t => exact Or.inr ((setSuspended_timers r t false).kept.owed hd)
  | runTasks =>
    have hheap : ((r.enter .runTasks).1.heap = r.heap) ∧
        (r.enter .runTasks).1.children_ = r.children_ := by
      unfold enter
      dsimp only
      split_ifs <;> exact ⟨rfl, rfl⟩
    have hsets : ∀ p, (r.enter .runTasks).1.childrenOf p = r.childrenOf p := by
      intro p
      cases p with
      | none => exact hheap.2
      | some p => exact congrArg (fun heap : TaskId → Task => (heap p).children_) hheap.1
    refine Or.inr ?_
    cases d with
    | leaves t =>
      obtain ⟨hdone, hmem⟩ := hd
      rw [hsets] at hmem
      rw [hheap.1] at hdone hmem
      exact ⟨hdone, hmem⟩
    | _ t =>
      unfold Debt.owed at hd
      dsimp only at hd
      rw [hheap.1] at hd
      exact hd
  | clock now =>
    refine Or.inr ?_
    cases d <;> exact hd

theorem resume_owed (v : Int) (hg : LifeGlobal r) (hx : LifeFrame r x)
    (hforeign : foreign x = true) (hd : d.owed (r.resume x v).1) :
    (∃ p ∈ (r.resume x v).2, d.paidBy p) ∨ (d.owed r ∧ ¬d.paidBy x) := by
  cases x with
  | process t => exact (processed_processed v (hg.undone t hx.2.1)).owed hd
  | stopping | stopped | wakeTasks | onTimeoutChange =>
    exact Or.inr ⟨hd, by cases d <;> exact nofun⟩
  | _ => cases hforeign

end Steps

end TaskRunner

/-! ## 6. The runs -/

/-- What is true of the tasks and of what is pending, in every run. -/
structure Tended (c : RunnerConf) : Prop where
  holds : lifeInv.Holds c
  debts : ∀ d : Debt, Owed d.owed d.paidBy c

theorem tended_init : Tended RunnerConf.init where
  holds :=
    { global :=
        { fresh := fun _ _ => ⟨rfl, rfl, rfl⟩
          listed := List.forall_mem_nil _
          parents := nofun
          member := by
            intro p c hc
            cases p <;> cases hc
          child := nofun
          removed := nofun
          doomed := nofun
          undone := nofun
          stops := fun _ => rfl
          aborts := nofun
          order := List.Pairwise.nil }
      frame := List.forall_mem_nil _
      below := List.Pairwise.nil }
  debts d hd := by
    cases d with
    | comesBack t => cases hd
    | blocks | leaves => cases hd.1

/-- When a loop of the runner goes on, no `Process` is running. -/
theorem Tended.idle {c : RunnerConf} (h : Tended c) {x : RunnerStmt}
    (hx : c.control.head? = some x) (hloop : x.isRunner = true) (u : TaskId) :
    (c.state.heap u).busy_ = false := by
  refine Bool.eq_false_iff.2 fun hbusy => ?_
  obtain ⟨rest, hc⟩ : ∃ rest, c.control = x :: rest := by
    cases hcontrol : c.control with
    | nil =>
      rw [hcontrol] at hx
      cases hx
    | cons y rest =>
      rw [hcontrol] at hx
      exact ⟨rest, by rw [Option.some.inj hx]⟩
  obtain ⟨y, hy, hpays⟩ := h.debts (.comesBack u) hbusy
  have hprocess : y = .process u := hpays
  have hbelow := h.holds.below
  rw [hc] at hy hbelow
  rcases List.mem_cons.1 hy with hyx | hy
  · rw [← hyx, hprocess] at hloop
    cases hloop
  · have hnot := (((List.pairwise_cons.1 hbelow).1 y hy).1 hloop).2
    rw [hprocess] at hnot
    cases hnot

theorem Tended.step {c c' : RunnerConf} {a : Act RunnerCall Int} (h : Tended c)
    (hG : a.Allowed TaskRules c) (hs : taskRunner.step c a = some c') : Tended c' where
  holds := by
    refine h.holds.step hs (fun x t push _ hhead hg hx hr => ?_) (fun m ha hg => ?_)
      fun x v _ _ hg hx _ => ?_
    · exact exec_preserved (s := (t, push)) hg hx (h.idle hhead) hr
    · exact enter_preserved hg (hG m ha)
    · exact resume_preserved v hg hx
  debts d := by
    refine (h.debts d).step hs (fun x t push _ hhead _ hr hd => ?_) (fun m ha hd => ?_)
      fun x v _ hhead hf hd => ?_
    · exact exec_owed (s := (t, push)) (h.idle hhead) hr hd
    · exact enter_owed h.holds.global (fun t ht => (hG m ha t ht).1) hd
    · exact resume_owed v h.holds.global (h.holds.frame x (List.mem_of_mem_head? hhead)) hf hd

theorem Tended.run {c c' : RunnerConf} (h : Tended c) (hr : taskRunner.Reaches TaskRules c c') :
    Tended c' :=
  Reaches.invariant hr h fun _ _ _ _ hI hG hs => hI.step hG hs

theorem Attainable.tended {c : RunnerConf} (h : Attainable c) : Tended c := tended_init.run h

end Gxmpp.TalkBase
