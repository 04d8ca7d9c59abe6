/-
Timeouts of the tasks that `PumpThread` runs, in `gxmpp/pumpthread.cc`.

`ResetTimeout` counts in units of 100ns, as the comment at `TaskRunner::CurrentTime` says, and
`PrivateTaskRunner` answers `CurrentTime` with the milliseconds of a clock of 32 bits. A deadline is
ten thousand times too far away, and out of reach from 430 seconds on. It also never calls
`PollTasks`, so that a blocked task would not hear of it.
-/
import Gxmpp.NextTimeout
import Mathlib.Algebra.Group.Int.Defs

set_option autoImplicit false

namespace Gxmpp.TalkBase

open Reentrant TaskRunner

/-- `PrivateTaskRunner::CurrentTime`, when `ms` milliseconds have passed. -/
def PumpThread.CurrentTime (ms : Nat) : Int := (ms % 2 ^ 32 : Nat)

/-- The units of 100ns in a second. -/
def kSecTo100ns : Int := kSecToMsec * kMsecTo100ns

/-- A timeout that is set is that many seconds after the last reset, in units of 100ns. -/
def Timer.Timed (k : Timer) : Prop :=
  k.timeout_time_ = 0 ∨ k.timeout_time_ = k.reset_time + k.timeout_seconds_ * kSecTo100ns

namespace TaskRunner

variable {r s : TaskRunner} {t : TaskId}

/-- The timers of all tasks. -/
def Timed (r : TaskRunner) : Prop := ∀ t, (r.heap t).timer.Timed

theorem Calm.timed (h : Calm r s) (hr : Timed r) : Timed s := fun t => by
  rw [h.timer t]
  exact hr t

theorem newTimeout_timed (r : TaskRunner) (t : TaskId) : r.newTimeout t = 0 ∨
    r.newTimeout t = r.now + (r.heap t).timer.timeout_seconds_ * kSecTo100ns := by
  unfold newTimeout
  dsimp only
  split_ifs
  · right
    rw [Int.mul_assoc]
    rfl
  · exact .inl rfl

/-- `ResetTimeout`, of a task whatever it was before. -/
theorem resetTimeout_timed (hr : ∀ u, u ≠ t → (r.heap u).timer.Timed) :
    Timed (r.resetTimeout t).1 := fun u => by
  rw [resetTimeout_heap]
  by_cases hu : u = t
  · rw [hu, set_heap_self]
    exact newTimeout_timed r t
  · rw [set_heap_ne _ hu]
    exact hr u hu

theorem set_timed {task : Task} (hr : Timed r) :
    ∀ u, u ≠ t → ((r.set t task).heap u).timer.Timed := fun u hu => by
  rw [set_heap_ne _ hu]
  exact hr u

theorem setSuspended_timed (hr : Timed r) (suspended : Bool) :
    Timed (r.setSuspended t suspended).1 := by
  unfold setSuspended
  split_ifs
  · exact hr
  · exact resetTimeout_timed (set_timed hr)

theorem clearTimeout_timed (hr : Timed r) : Timed (r.clearTimeout t).1 := fun u => by
  have hheap : (r.clearTimeout t).1.heap = (r.setTimeoutTime t 0).heap := by
    unfold clearTimeout updateTaskTimeout
    dsimp only
    rw [updateNext_eq]
  rw [hheap]
  unfold setTimeoutTime
  by_cases hu : u = t
  · rw [hu, set_heap_self]
    exact .inl rfl
  · rw [set_heap_ne _ hu]
    exact hr u

/-- A step that gives no deadline. -/
theorem Clocked.timed (h : Clocked r s none) (hr : Timed r) : Timed s := by
  cases h with
  | calm h | started t hlive hinit h => exact h.timed hr
  | made parent h =>
    intro u
    by_cases hu : u = r.unique_id_seed_
    · rw [hu, h.new]
      exact .inl rfl
    · rw [h.others u hu]
      exact hr u
  | swept d hd h =>
    refine h.timed fun u => ?_
    have hheap : (TaskRunner.swept d).heap = d.1.heap := by
      unfold TaskRunner.swept
      dsimp only
      split_ifs <;> rfl
    rw [hheap, hd.heap u]
    exact hr u

/-- What `Process` has answered. -/
theorem processed_timed (hr : Timed r) (new_state : Int) : Timed (r.processed t new_state).1 := by
  have hset : ∀ {task : Task}, task.timer = (r.heap t).timer → Timed (r.set t task) :=
    fun htimer u => by
      by_cases hu : u = t
      · rw [hu, set_heap_self, htimer]
        exact hr t
      · rw [set_heap_ne _ hu]
        exact hr u
  have hadvance : Timed (r.advance t new_state) := by
    unfold advance
    dsimp only
    split_ifs
    · exact hset rfl
    · exact resetTimeout_timed (set_timed hr)
  have hfinish : Timed ((r.advance t new_state).finish t new_state) :=
    (finish_calm _ t new_state).timed hadvance
  unfold processed
  dsimp only
  split_ifs
  · exact (abort_calm _ t true).timed (hset rfl)
  · exact hfinish
  · exact hfinish

end TaskRunner

theorem timed_step {c c' : RunnerConf} {a : Act RunnerCall Int} (hc : Attainable c)
    (hr : Timed c.state) (hG : a.Allowed TaskRules c) (hs : taskRunner.step c a = some c') :
    Timed c'.state := by
  rcases step_cases hs with ⟨x, rest, r, rfl, -, -, hexec, rfl⟩ | ⟨m, rfl, -, rfl⟩ |
    ⟨v, x, rest, rfl, -, -, rfl⟩
  · exact (exec_clocked hexec).timed hr
  · have hclocked := enter_clocked hc.scheduled fun t ht =>
      ⟨(hG m rfl t ht).1, (hG m rfl t ht).2.1⟩
    cases m with
    | setTimeoutSeconds t n => exact resetTimeout_timed (set_timed hr)
    | resetTimeout t => exact resetTimeout_timed fun u _ => hr u
    | clearTimeout t => exact clearTimeout_timed hr
    | suspendTimeout t => exact setSuspended_timed hr true
    | resumeTimeout t => exact setSuspended_timed hr false
    | _ => exact Clocked.timed hclocked hr
  · cases x with
    | process t => exact processed_timed hr v
    | _ => exact hr

theorem Attainable.timed {c : RunnerConf} (h : Attainable c) : Timed c.state :=
  Reaches.invariant (I := fun c => Timed c.state) h (fun _ => .inl rfl)
    fun _ _ _ hreach ih hG hs => timed_step hreach ih hG hs

/-- A task is reported once its seconds have passed since its last reset, and not before. -/
def ReportsInTime (r : TaskRunner) (t : TaskId) (ms seconds : Nat) : Prop :=
  ∀ passed, { r with now := PumpThread.CurrentTime (ms + passed) }.timedOut t = true ↔
    seconds * 1000 ≤ passed

theorem currentTime_lt (ms : Nat) : PumpThread.CurrentTime ms < 2 ^ 32 :=
  Int.ofNat_lt.2 (Nat.mod_lt ms (by decide))

/-- The clock does not run ahead of the time. -/
theorem currentTime_add (ms passed : Nat) :
    PumpThread.CurrentTime (ms + passed) ≤ PumpThread.CurrentTime ms + passed := by
  unfold PumpThread.CurrentTime
  omega

/-- When the clock has to be, for a task to be reported. -/
theorem deadline_of_timedOut {r : TaskRunner} (hr : Timed r) {t : TaskId} {ms seconds passed : Nat}
    (hseconds : (r.heap t).timer.timeout_seconds_ = seconds)
    (hreset : (r.heap t).timer.reset_time = PumpThread.CurrentTime ms)
    (h : { r with now := PumpThread.CurrentTime (ms + passed) }.timedOut t = true) :
    PumpThread.CurrentTime ms + seconds * 10000000 ≤ PumpThread.CurrentTime (ms + passed) := by
  obtain ⟨-, hne, hle⟩ := timedOut_iff.1 h
  have hdeadline : r.deadline t = PumpThread.CurrentTime ms + seconds * 10000000 := by
    rw [← hreset, ← hseconds]
    exact (hr t).resolve_left hne
  rw [← hdeadline]
  exact hle

/-- No task that `PumpThread` runs is reported in time, whenever it was reset; and from 430 seconds
on it is never reported. -/
theorem pump_never_in_time {c : RunnerConf} (h : Attainable c) {t : TaskId} {ms seconds : Nat}
    (hpos : 0 < seconds) (hseconds : (c.state.heap t).timer.timeout_seconds_ = seconds)
    (hreset : (c.state.heap t).timer.reset_time = PumpThread.CurrentTime ms) :
    ¬ReportsInTime c.state t ms seconds ∧ (430 ≤ seconds → ∀ passed,
      { c.state with now := PumpThread.CurrentTime (ms + passed) }.timedOut t = false) := by
  constructor
  · intro hintime
    -- it should be reported when its seconds have just passed
    have htimedOut := (hintime (seconds * 1000)).2 (Nat.le_refl _)
    have hdeadline := deadline_of_timedOut h.timed hseconds hreset htimedOut
    have hadd := currentTime_add ms (seconds * 1000)
    omega
  · intro hlong passed
    refine Bool.eq_false_iff.2 fun htimedOut => ?_
    have hdeadline := deadline_of_timedOut h.timed hseconds hreset htimedOut
    have hlt := currentTime_lt (ms + passed)
    have hnonneg : 0 ≤ PumpThread.CurrentTime ms := Int.natCast_nonneg _
    omega

/-- A task of five seconds that is started and stepped: `Process` goes on to `STATE_START`, which
resets its timeout, and blocks. -/
def fiveSeconds : List (Act RunnerCall Int) :=
  [.call (.construct none 0), .call (.clock 1000), .call (.setTimeoutSeconds 0 5),
    .call (.start 0), .ret 0, .call .runTasks, .ret STATE_START, .ret STATE_BLOCKED, .ret 0]

/-- That task has a deadline, and is not reported in time. -/
theorem pump_never_in_time_five : ∃ c, Attainable c ∧ c.state.deadline 0 = 50001000 ∧
    ¬ReportsInTime c.state 0 1000 5 := by
  obtain ⟨c, hc, hp⟩ := exists_of_drive (P := taskRunner) (G := TaskRules) (n := 40)
    (c := RunnerConf.init) (l := fiveSeconds)
    (p := fun c => decide ((c.state.heap 0).timer.timeout_seconds_ = (5 : Nat) ∧
      (c.state.heap 0).timer.reset_time = PumpThread.CurrentTime 1000 ∧
      c.state.deadline 0 = 50001000)) (by decide +kernel)
  obtain ⟨hseconds, hreset, hdeadline⟩ := of_decide_eq_true hp
  exact ⟨c, hc, hdeadline, (pump_never_in_time hc (by decide) hseconds hreset).1⟩

/-- Five seconds later it is blocked, and not reported. -/
theorem pump_reports_late : ∃ c, Attainable c ∧
    ((c.state.heap 0).timer.timeout_seconds_ = 5 ∧ (c.state.heap 0).timer.reset_time = 1000 ∧
      c.state.now = PumpThread.CurrentTime (1000 + 5000)) ∧
    c.control = [] ∧ (c.state.heap 0).blocked_ = true ∧ c.state.timedOut 0 = false := by
  obtain ⟨c, hc, hp⟩ := exists_of_drive (P := taskRunner) (G := TaskRules) (n := 40)
    (c := RunnerConf.init) (l := fiveSeconds ++ [.call (.clock 6000)])
    (p := fun c => decide (((c.state.heap 0).timer.timeout_seconds_ = 5 ∧
      (c.state.heap 0).timer.reset_time = 1000 ∧
      c.state.now = PumpThread.CurrentTime (1000 + 5000)) ∧
      c.control = [] ∧ (c.state.heap 0).blocked_ = true ∧ c.state.timedOut 0 = false))
    (by decide +kernel)
  exact ⟨c, hc, of_decide_eq_true hp⟩

end Gxmpp.TalkBase
