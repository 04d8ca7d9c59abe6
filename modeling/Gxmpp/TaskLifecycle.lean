/-
The life of a task: `Process`, `Abort` and `Stop`, over a tree of tasks.

A task that is done stays done, and its `Stop` was called once. An abort of a task whose
`Process` is running has to wait until that comes back, and the children of a task that stops
are aborted by a copy of the child set; so a task can leave its parent while a descendant is
still there. That happens only at or below a descendant whose `Process` or `Stop` is in
progress, and it is made good when that comes back.
-/
import Gxmpp.TaskTree

set_option autoImplicit false

namespace Gxmpp.TalkBase

open Reentrant TaskRunner

/-! ## 1. What is done stays done -/

namespace TaskRunner

theorem log_of_eq {α : Type} {l l' : List α} (h : l' = l) : l <+: l' :=
  h ▸ List.prefix_refl _

theorem abort_log (r : TaskRunner) (t : TaskId) (nowake : Bool) :
    r.log <+: (r.abort t nowake).1.log := by
  have h := abort_aborting r t nowake
  generalize r.abort t nowake = s at h
  cases h with
  | done h => exact List.prefix_refl _
  | busy h | stopped h => exact ⟨_, h.log.symm⟩

theorem step_log (r : TaskRunner) (t : TaskId) : r.log <+: (r.step t).1.log := by
  unfold step
  dsimp only
  split_ifs
  · exact List.prefix_refl _
  · exact List.prefix_append _ _
  · exact List.prefix_append _ _

theorem processed_log (r : TaskRunner) (t : TaskId) (new_state : Int) :
    r.log <+: (r.processed t new_state).1.log := by
  unfold processed
  split_ifs with haborted
  · exact abort_log (r.set t { r.heap t with busy_ := false }) t true
  · have hadvance := (advance_moved new_state (Bool.eq_false_iff.2 haborted)).1.log
    rw [List.append_nil] at hadvance
    have hfinish : ((r.advance t new_state).finish t new_state).log = r.log := by
      unfold finish
      dsimp only
      split_ifs <;> exact hadvance
    dsimp only
    split_ifs
    · rw [← hfinish]
      exact List.prefix_append _ _
    · exact log_of_eq (by rw [hfinish])

/-- Nothing is taken out of the log. -/
theorem exec_log {r : TaskRunner} {x : RunnerStmt} {s : TaskRunner × List RunnerStmt}
    (h : r.exec x = some s) : r.log <+: s.1.log := by
  cases exec_executed h with
  | abortsChild t c | abortChildren c => exact abort_log r c true
  | childStopped t hlive =>
    exact log_of_eq (by rw [(onChildStopped_children r t).1.rest])
  | runLoop i did_run previous h =>
    cases h with
    | stepped t ht hlive hunblocked => exact step_log r t
    | looped j did_run' => exact List.prefix_refl _
    | swept h => exact (sweep_kept h).log ▸ List.prefix_refl _
  | poll old =>
    rcases poll_cases r old with hpoll | ⟨t, -, -, -, hpoll⟩
    · exact log_of_eq (by rw [hpoll])
    · exact log_of_eq (by rw [hpoll, (wake_kept r t).log])
  | _ => exact List.prefix_refl _

theorem enter_log (r : TaskRunner) (m : RunnerCall) : r.log <+: (r.enter m).1.log := by
  have htimers : ∀ {s : TaskRunner}, TimersOnly r s → r.log <+: s.log := fun h =>
    h.kept.log ▸ List.prefix_refl _
  cases m with
  | construct parent position =>
    show r.log <+: (r.construct parent position).log
    unfold construct
    dsimp only
    rw [(setChildren_only _ parent _).rest]
    exact List.prefix_refl _
  | start t =>
    show r.log <+: (r.start t).1.log
    unfold start
    dsimp only
    split_ifs
    · exact List.prefix_refl _
    · rw [(updateTaskTimeout_timers _ t 0).rest]
      exact List.prefix_refl _
  | abort t nowake => exact abort_log r t nowake
  | wake t => exact (wake_kept r t).log ▸ List.prefix_refl _
  | error t => exact (error_kept r t).log ▸ List.prefix_refl _
  | setTimeoutSeconds t n => exact htimers (setTimeoutSeconds_timers r t n)
  | resetTimeout t => exact htimers (resetTimeout_timers r t)
  | clearTimeout t => exact htimers (clearTimeout_timers r t)
  | suspendTimeout t => exact htimers (setSuspended_timers r t true)
  | resumeTimeout t => exact htimers (setSuspended_timers r t false)
  | runTasks =>
    unfold enter
    dsimp only
    split_ifs <;> exact List.prefix_refl _
  | _ => exact List.prefix_refl _

theorem resume_log (r : TaskRunner) (x : RunnerStmt) (v : Int) :
    r.log <+: (r.resume x v).1.log := by
  cases x with
  | process t => exact processed_log r t v
  | _ => exact List.prefix_refl _

end TaskRunner

variable {c c' : RunnerConf} {t : TaskId}

theorem reaches_log (h : taskRunner.Reaches TaskRules c c') : c.state.log <+: c'.state.log := by
  refine Reaches.relation (R := fun r s : TaskRunner => r.log <+: s.log) h
    (fun _ => List.prefix_refl _) (fun _ _ _ => List.IsPrefix.trans) fun c a c' hs => ?_
  rcases step_cases hs with ⟨x, rest, r, -, -, -, hr, rfl⟩ | ⟨m, -, -, rfl⟩ |
    ⟨v, x, rest, -, -, -, rfl⟩
  · exact exec_log hr
  · exact enter_log c.state m
  · exact resume_log c.state x v

/-- `Stop` was called for what is done, and the log says so ever after. -/
theorem Tended.stays_done (h : Tended c) (h' : Tended c') (hlog : c.state.log <+: c'.state.log)
    (hdone : (c.state.heap t).done_ = true) : (c'.state.heap t).done_ = true := by
  have hcount := h.holds.global.stops t
  rw [if_pos hdone] at hcount
  have hle : c.state.log.count (.stop t) ≤ c'.state.log.count (.stop t) :=
    hlog.sublist.count_le _
  rw [hcount, h'.holds.global.stops t] at hle
  by_contra hnot
  rw [if_neg hnot] at hle
  exact absurd hle (by decide)

theorem reaches_done (h : Attainable c) (h' : taskRunner.Reaches TaskRules c c')
    (hdone : (c.state.heap t).done_ = true) : (c'.state.heap t).done_ = true :=
  h.tended.stays_done (h.tended.run h') (reaches_log h') hdone

/-! ## 2. The tree -/

/-- `c` was made under `p`. -/
def IsChild (r : TaskRunner) (p c : TaskId) : Prop :=
  c < r.unique_id_seed_ ∧ (r.heap c).parent_ = some p

/-- `u` is somewhere under `p`. -/
def Descends (r : TaskRunner) : TaskId → TaskId → Prop := Relation.TransGen (IsChild r)

/-- A task has been taken out of the child set of its parent. -/
def HasLeft (r : TaskRunner) (t : TaskId) : Prop := t ∉ r.childrenOf (r.heap t).parent_

/-- The `Process` or the `Stop` of a task is in progress. -/
def InProgress (c : RunnerConf) (t : TaskId) : Prop :=
  ∃ x ∈ c.control, x = .process t ∨ x.Stops t

/-- A task at its end is done and has left, or that is in progress. -/
theorem Tended.settled (h : Tended c)
    (ht : (c.state.heap t).done_ = true ∨ (c.state.heap t).aborted_ = true) :
    ((c.state.heap t).done_ = true ∧ HasLeft c.state t) ∨ InProgress c t := by
  by_cases hdone : (c.state.heap t).done_ = true
  · by_cases hleft : HasLeft c.state t
    · exact Or.inl ⟨hdone, hleft⟩
    · obtain ⟨x, hx, hstops⟩ := h.debts (.leaves t) ⟨hdone, not_not.1 hleft⟩
      exact Or.inr ⟨x, hx, Or.inr hstops⟩
  · have hbusy := (h.holds.global.doomed t (ht.resolve_left hdone)).resolve_left hdone
    obtain ⟨x, hx, hprocess⟩ := h.debts (.comesBack t) hbusy
    exact Or.inr ⟨x, hx, Or.inl hprocess⟩

/-- What is under a task that has left. The induction goes down the tree: below a task that is
done and has left, the children are at their end. -/
theorem Tended.descendants (h : Tended c) {p u : TaskId} (hp : p < c.state.unique_id_seed_)
    (hleft : HasLeft c.state p) (hu : Descends c.state p u) :
    ((c.state.heap u).done_ = true ∧ HasLeft c.state u) ∨
      ∃ e, Descends c.state p e ∧ InProgress c e ∧ (e = u ∨ Descends c.state e u) := by
  induction hu with
  | @single u hchild =>
    refine (h.settled (h.holds.global.removed p hp hleft u hchild.1 hchild.2)).imp_right fun hin =>
      ⟨u, .single hchild, hin, Or.inl rfl⟩
  | @tail v u hdescends hchild ih =>
    rcases ih with ⟨-, hvleft⟩ | ⟨e, he, hin, hev⟩
    · have hv : v < c.state.unique_id_seed_ := by
        cases hdescends with
        | single hv | tail _ hv => exact hv.1
      refine (h.settled (h.holds.global.removed v hv hvleft u hchild.1 hchild.2)).imp_right
        fun hin => ⟨u, hdescends.tail hchild, hin, Or.inl rfl⟩
    · refine Or.inr ⟨e, he, hin, Or.inr ?_⟩
      rcases hev with rfl | hev
      · exact .single hchild
      · exact hev.tail hchild

/-! ## 3. The life of a task -/

/-- What is true of the lives of the tasks. -/
structure Lifecycle (c : RunnerConf) : Prop where
  /-- a task that is done is blocked, unless its `Step` is still to block it -/
  blocked : ∀ t, (c.state.heap t).done_ = true →
    (c.state.heap t).blocked_ = true ∨ .blockAfterStop t ∈ c.control
  stops : ∀ t, c.state.log.count (.stop t) = if (c.state.heap t).done_ = true then 1 else 0
  /-- an abort has its effect, at the latest when `Process` comes back -/
  aborted : ∀ t, .abort t ∈ c.state.log →
    (c.state.heap t).done_ = true ∨ .process t ∈ c.control
  /-- no `Process` after `Stop`, and none after `Abort` -/
  order : c.state.log.Pairwise fun a b => ∀ t, b = .process t → a ≠ .stop t ∧ a ≠ .abort t
  /-- a task that has left is done, and so is what is under it, unless that is at or below a
  task whose `Process` or `Stop` is in progress -/
  leaves : ∀ p < c.state.unique_id_seed_, HasLeft c.state p → (c.state.heap p).done_ = true ∧
    ∀ u, Descends c.state p u → ((c.state.heap u).done_ = true ∧ HasLeft c.state u) ∨
      ∃ e, Descends c.state p e ∧ InProgress c e ∧ (e = u ∨ Descends c.state e u)

theorem Tended.lives (h : Tended c) : Lifecycle c where
  blocked t hdone := by
    by_cases hblocked : (c.state.heap t).blocked_ = true
    · exact Or.inl hblocked
    · obtain ⟨x, hx, rfl⟩ := h.debts (.blocks t) ⟨hdone, Bool.eq_false_iff.2 hblocked⟩
      exact Or.inr hx
  stops := h.holds.global.stops
  aborted t ht := by
    refine (h.holds.global.doomed t (h.holds.global.aborts t ht)).imp_right fun hbusy => ?_
    obtain ⟨x, hx, rfl⟩ := h.debts (.comesBack t) hbusy
    exact hx
  order := h.holds.global.order
  leaves p hp hleft :=
    ⟨(h.holds.global.child p hp).resolve_left hleft, fun _ hu => h.descendants hp hleft hu⟩

/-- A task is made under another one and started, and its `Process` aborts that one. -/
def abortsParent : List (Act RunnerCall Int) :=
  [.call (.construct none 0), .call (.construct (some 0) 0), .call (.start 1), .ret 0,
    .call .runTasks, .call (.abort 0 true), .ret 0]

/-- Then `Process` comes back, and the runner comes to rest. -/
def abortsParentEnds : List (Act RunnerCall Int) :=
  abortsParent ++ [.ret 0, .ret STATE_BLOCKED, .ret 0, .ret 0]

/-- A task is made and started, and its `Process` says that it is done. -/
def endsItself : List (Act RunnerCall Int) :=
  [.call (.construct none 0), .call (.start 0), .ret 0, .call .runTasks, .ret STATE_DONE]

end Gxmpp.TalkBase
