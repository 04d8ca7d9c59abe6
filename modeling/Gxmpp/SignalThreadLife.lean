/-
A `SignalThread` is deleted once, and emits `SignalWorkDone` once for each run that is completed.

The reference count is one for the owner, until `Release`, `Destroy` or `OnMessage` gives it up, and
one for each scope that the main thread is in. Handlers of `SignalWorkDone` run inside the scope of
`OnMessage`: when the owner has given up its reference, that scope has the only one, and
`Destroy(true)` cannot leave a lock that `OnMessage` holds too.
-/
import Gxmpp.SignalThread

set_option autoImplicit false

namespace Gxmpp.TalkBase

open Reentrant Interleaving

/-! ## 1. What the functions do while the object lives -/

namespace SignalThread

variable {s : SignalThread}

theorem touch_eq (h : s.deletes = 0) : s.touch = s := by
  unfold touch
  rw [decide_eq_false (not_not.2 h), Bool.or_false]

theorem enterScope_eq (h : s.deletes = 0) :
    s.enterScope = { s with
      depth := s.depth + 1
      refcount_ := s.refcount_ + 1 } := by
  unfold enterScope
  rw [touch_eq h]

theorem exitScope_eq (h : s.deletes = 0) (hcount : s.refcount_ ≠ 1) :
    s.exitScope = { s with
      depth := s.depth - 1
      refcount_ := s.refcount_ - 1 } := by
  unfold exitScope
  rw [touch_eq h]
  exact if_neg fun h => hcount (by dsimp only at h; omega)

/-- The last reference is given up. -/
theorem exitScope_delete (h : s.deletes = 0) (hcount : s.refcount_ = 1) :
    s.exitScope = { s with
      depth := s.depth - 1
      refcount_ := 0
      deletes := 1
      posted := 0 } := by
  unfold exitScope
  rw [touch_eq h]
  dsimp only
  rw [if_pos (by omega), delete]
  simp [h, hcount]

/-- A scope that does nothing. -/
theorem scope_eq (h : s.deletes = 0) (hcount : s.refcount_ ≠ 0) : s.enterScope.exitScope = s := by
  rw [enterScope_eq h, exitScope_eq (by exact h) (by dsimp only; omega)]
  simp

theorem Start_eq (h : s.deletes = 0) (hcount : s.refcount_ ≠ 0) (hstarted : s.started_ = false)
    (hstate : s.state_ = .kInit ∨ s.state_ = .kComplete) :
    s.Start = { s with
      state_ := .kRunning
      starts := s.starts + 1
      started_ := true
      worker := .working } := by
  unfold Start
  rw [enterScope_eq h]
  dsimp only
  rw [if_pos hstate, startWorker]
  dsimp only
  rw [hstarted, if_neg Bool.false_ne_true, exitScope_eq (by exact h) (by dsimp only; omega)]
  simp

theorem Release_running (h : s.deletes = 0) (hcount : s.refcount_ ≠ 0)
    (hstate : s.state_ = .kRunning) :
    s.Release = { s with
      released := true
      state_ := .kReleasing } := by
  unfold Release
  rw [enterScope_eq h]
  dsimp only
  rw [hstate, if_neg (by decide), if_pos rfl, exitScope_eq (by exact h) (by dsimp only; omega)]
  simp

theorem Release_complete (h : s.deletes = 0) (hstate : s.state_ = .kComplete) :
    s.Release = { s with
      depth := s.depth + 1
      released := true
      given := true }.exitScope := by
  unfold Release
  rw [enterScope_eq h]
  dsimp only
  rw [if_pos hstate]
  simp

theorem Destroy_idle (h : s.deletes = 0) (hstate : s.state_ = .kInit ∨ s.state_ = .kComplete)
    (wait : Bool) :
    s.Destroy wait = ({ s with
      depth := s.depth + 1
      released := true
      destroyed := true
      given := true }.exitScope, []) := by
  unfold Destroy
  rw [enterScope_eq h]
  dsimp only
  rw [if_pos hstate]
  simp

/-- `Destroy` while there is a run. -/
theorem Destroy_busy (h : s.deletes = 0) (hcount : s.refcount_ ≠ 0)
    (hstate : s.state_ = .kRunning ∨ s.state_ = .kReleasing) (wait : Bool) :
    s.Destroy wait =
      if wait then ({ s with
        refcount_ := s.refcount_ + 1
        released := true
        destroyed := true
        state_ := .kStopping }, [.stop, .stopped])
      else ({ s with
        released := true
        destroyed := true
        state_ := .kStopping }, []) := by
  unfold Destroy
  rw [enterScope_eq h]
  dsimp only
  have hidle : ¬(s.state_ = .kInit ∨ s.state_ = .kComplete) := by
    rcases hstate with hs | hs <;> rw [hs] <;> decide
  rw [if_neg hidle, if_pos hstate]
  cases wait with
  | true => simp
  | false =>
    rw [if_neg Bool.false_ne_true, if_neg Bool.false_ne_true,
      exitScope_eq (by exact h) (by dsimp only; omega)]
    simp

theorem OnMessage_running (h : s.deletes = 0) (hstate : s.state_ = .kRunning)
    (hdestroyed : s.destroyed = false) :
    s.OnMessage = ({ s with
      depth := s.depth + 1
      refcount_ := s.refcount_ + 1
      posted := s.posted - 1
      completions := s.completions + 1
      state_ := .kComplete }, [.stop, .emit, .handled false]) := by
  unfold OnMessage
  rw [enterScope_eq h]
  simp [hstate, hdestroyed]

theorem OnMessage_releasing (h : s.deletes = 0) (hstate : s.state_ = .kReleasing)
    (hdestroyed : s.destroyed = false) :
    s.OnMessage = ({ s with
      depth := s.depth + 1
      refcount_ := s.refcount_ + 1
      posted := s.posted - 1
      completions := s.completions + 1 }, [.stop, .emit, .handled true]) := by
  unfold OnMessage
  rw [enterScope_eq h]
  simp [hstate, hdestroyed]

theorem OnMessage_stopping (h : s.deletes = 0) (hstate : s.state_ = .kStopping)
    (hdestroyed : s.destroyed = true) :
    s.OnMessage = ({ s with
      depth := s.depth + 1
      refcount_ := s.refcount_ + 1
      posted := s.posted - 1 }, [.handled true]) := by
  unfold OnMessage
  rw [enterScope_eq h]
  simp [hstate, hdestroyed]

theorem run_eq (h : s.deletes = 0) (hcount : s.refcount_ ≠ 0) :
    (s.enter .run).1 = { s with
      posted := s.posted + 1
      worker := .exiting } := by
  unfold enter
  dsimp only
  rw [enterScope_eq h]
  dsimp only
  rw [exitScope_eq (by exact h) (by dsimp only; omega)]
  simp

end SignalThread

/-! ## 2. The invariant -/

/-- The worker has been joined, and nothing is posted. -/
structure Joined (s : SignalThread) : Prop where
  worker : s.worker = .idle
  started_ : s.started_ = false
  posted : s.posted = 0

/-- A run is on its way to `OnMessage`. -/
structure Outstanding (s : SignalThread) : Prop where
  started_ : s.started_ = true
  posted : s.worker = .working ∧ s.posted = 0 ∨
    (s.worker = .exiting ∨ s.worker = .ended) ∧ s.posted = 1

/-- The object lives, with so many references, and the owner holds his. -/
structure Alive (s : SignalThread) (refs : Int) (depth : Nat) : Prop where
  refcount_ : s.refcount_ = refs
  depth : s.depth = depth
  deletes : s.deletes = 0
  touched : s.touched = false
  given : s.given = false
  released : s.released = true ↔ s.state_ = .kReleasing ∨ s.state_ = .kStopping
  destroyed : s.destroyed = true ↔ s.state_ = .kStopping

/-- The emissions so far; one may be about to happen. -/
structure Counts (s : SignalThread) (pending : Nat) : Prop where
  late : s.lateSignals = 0
  signals : s.signals + pending = s.completions
  completions : s.completions ≤ s.starts
  starts : s.destroyed = false →
    s.starts = s.completions + (if s.worker = .working then 1 else 0) + s.posted

/-- There is a run. -/
def Busy (s : SignalThread) : Prop :=
  s.state_ = .kRunning ∨ s.state_ = .kReleasing ∨ s.state_ = .kStopping

/-- The object was deleted, once. -/
structure Dead (s : SignalThread) : Prop where
  refcount_ : s.refcount_ = 0
  deletes : s.deletes = 1
  touched : s.touched = false
  posted : s.posted = 0
  worker : s.worker ≠ .working
  released : s.released = true

/-- In `OnMessage`, the owner has given up his reference. -/
structure Given (s : SignalThread) : Prop where
  refcount_ : s.refcount_ = 1
  deletes : s.deletes = 0
  touched : s.touched = false
  given : s.given = true
  released : s.released = true
  joined : Joined s

/-- In `OnMessage`, after the emission. -/
def Handling (s : SignalThread) : Bool → Prop
  | true => Alive s 2 1 ∧ (s.state_ = .kReleasing ∨ s.state_ = .kStopping) ∧
      s.posted = 0 ∧ s.worker ≠ .working
  | false => Alive s 2 1 ∧ s.state_ = .kComplete ∧ Joined s ∨
      Alive s 2 1 ∧ Busy s ∧ s.started_ = true ∧ s.worker = .working ∧ s.posted = 0 ∨ Given s

/-- What holds at each point of the main thread. -/
inductive Phase (s : SignalThread) : List SignalStmt → Prop
  | idle (h : Alive s 1 0) (hstate : s.state_ = .kInit ∨ s.state_ = .kComplete)
      (hjoined : Joined s) : Phase s []
  | busy (h : Alive s 1 0) (hstate : Busy s) (hrun : Outstanding s) : Phase s []
  | dead (h : Dead s) : Phase s []
  | stopping (h : Alive s 2 0) (hstate : s.state_ = .kStopping) (hrun : Outstanding s) :
      Phase s [.stop, .stopped]
  | stopped (h : Alive s 2 0) (hstate : s.state_ = .kStopping) (hworker : s.worker = .idle) :
      Phase s [.stopped]
  | completing {do_delete : Bool} (h : Alive s 2 1)
      (hstate : s.state_ = if do_delete then .kReleasing else .kComplete) (hposted : s.posted = 0)
      (hworker : s.worker = .exiting ∨ s.worker = .ended) :
      Phase s [.stop, .emit, .handled do_delete]
  | emitting {do_delete : Bool} (h : Alive s 2 1)
      (hstate : s.state_ = if do_delete then .kReleasing else .kComplete) (hjoined : Joined s) :
      Phase s [.emit, .handled do_delete]
  | handlers {do_delete : Bool} (h : Handling s do_delete) : Phase s [.handlers, .handled do_delete]
  | handled {do_delete : Bool} (h : Handling s do_delete) : Phase s [.handled do_delete]

/-- The emissions that `OnMessage` is about to make. -/
def pending (l : List SignalStmt) : Nat := if .emit ∈ l then 1 else 0

/-- The invariant. -/
structure Sound (c : SignalConf) : Prop where
  phase : Phase c.state (c.control .main)
  counts : Counts c.state (pending (c.control .main))
  worker : c.control .worker = []

/-- What handlers of `SignalWorkDone` have to refrain from: `Destroy(true)` while there is a run, and
any call after `Release` or `Destroy` has given up the reference of the owner. -/
def Considerate (c : SignalConf) (t : Side) (a : Act SignalCall Unit) : Prop :=
  SignalRules c t a ∧ match a with
    | .call .start | .call .release => c.state.given = false
    | .call (.destroy wait) => c.state.given = false ∧
        (wait = true → c.control .main = [] ∨ c.state.state_ = .kComplete)
    | _ => True

section Runs

variable {c c' : SignalConf} {s s' : SignalThread} {x : SignalStmt} {rest push : List SignalStmt}

variable {k : Nat} {destroyed do_delete : Bool} {l : List SignalStmt}

/-- A scope that ends does not change the emissions. -/
theorem exitScope_counts (h : Counts s k) (hdeletes : s.deletes = 0)
    (hposted : s.refcount_ = 1 → s.destroyed = false → s.posted = 0) : Counts s.exitScope k := by
  by_cases hcount : s.refcount_ = 1
  · rw [SignalThread.exitScope_delete hdeletes hcount]
    refine ⟨h.late, h.signals, h.completions, fun hd => ?_⟩
    have hstarts := h.starts hd
    rw [hposted hcount hd] at hstarts
    exact hstarts
  · rw [SignalThread.exitScope_eq hdeletes hcount]
    exact { h with }

theorem give_counts (h : Counts s k) (hdeletes : s.deletes = 0) (hposted : s.posted = 0)
    (hdestroyed : destroyed = s.destroyed ∨ destroyed = true) :
    Counts { s with
      depth := s.depth + 1
      released := true
      destroyed := destroyed
      given := true }.exitScope k := by
  refine exitScope_counts ⟨h.late, h.signals, h.completions, fun hd => ?_⟩ hdeletes
    fun _ _ => hposted
  rcases hdestroyed with rfl | rfl
  · exact h.starts hd
  · cases hd

theorem not_busy (hstate : s.state_ = .kInit ∨ s.state_ = .kComplete) : ¬Busy s := by
  rintro (hs | hs | hs) <;> rw [hs] at hstate <;> rcases hstate with hstate | hstate <;>
    cases hstate

/-- Where the main thread can be when it calls something. -/
theorem Phase.outside (h : Phase s l) (hwait : ∀ x ∈ l.head?, SignalThread.foreign x = true) :
    l = [] ∧ (Alive s 1 0 ∧ (s.state_ = .kInit ∨ s.state_ = .kComplete) ∧ Joined s ∨
      Alive s 1 0 ∧ Busy s ∧ Outstanding s ∨ Dead s) ∨
    ∃ do_delete, l = [.handlers, .handled do_delete] ∧ Handling s do_delete := by
  cases h with
  | idle h hstate hjoined => exact Or.inl ⟨rfl, Or.inl ⟨h, hstate, hjoined⟩⟩
  | busy h hstate hrun => exact Or.inl ⟨rfl, Or.inr (Or.inl ⟨h, hstate, hrun⟩)⟩
  | dead h => exact Or.inl ⟨rfl, Or.inr (Or.inr h)⟩
  | handlers h => exact Or.inr ⟨_, rfl, h⟩
  | _ => cases hwait _ rfl

/-- When there is no run, nothing is posted. -/
theorem Phase.posted (h : Phase s l) (hstate : s.state_ = .kInit ∨ s.state_ = .kComplete)
    (hwait : ∀ x ∈ l.head?, SignalThread.foreign x = true) : s.posted = 0 := by
  rcases h.outside hwait with ⟨-, ⟨-, -, hjoined⟩ | ⟨-, hs, -⟩ | h⟩ | ⟨do_delete, -, h⟩
  · exact hjoined.posted
  · exact absurd hs (not_busy hstate)
  · exact h.posted
  · cases do_delete with
    | true => exact h.2.2.1
    | false =>
      rcases h with ⟨-, -, hjoined⟩ | ⟨-, hs, -⟩ | h
      · exact hjoined.posted
      · exact absurd hs (not_busy hstate)
      · exact h.joined.posted

section Between

variable (h : Phase s l) (hdeletes : s.deletes = 0)
  (hstate : s.state_ = .kInit ∨ s.state_ = .kComplete) (hgiven : s.given = false)
  (hwait : ∀ x ∈ l.head?, SignalThread.foreign x = true)
include h hdeletes hstate hgiven hwait

/-- A call of the main thread, when no run is on its way. -/
theorem Phase.between :
    Joined s ∧ (l = [] ∧ Alive s 1 0 ∨ l = [.handlers, .handled false] ∧ Alive s 2 1) := by
  rcases h.outside hwait with ⟨hl, ⟨h, -, hjoined⟩ | ⟨-, hs, -⟩ | h⟩ | ⟨do_delete, hl, h⟩
  · exact ⟨hjoined, Or.inl ⟨hl, h⟩⟩
  · exact absurd hs (not_busy hstate)
  · exact absurd (hdeletes.symm.trans h.deletes) (by decide)
  · cases do_delete with
    | true => exact absurd (Or.inr h.2.1) (not_busy hstate)
    | false =>
      rcases h with ⟨h, -, hjoined⟩ | ⟨-, hs, -⟩ | h
      · exact ⟨hjoined, Or.inr ⟨hl, h⟩⟩
      · exact absurd hs (not_busy hstate)
      · exact absurd (hgiven.symm.trans h.given) Bool.false_ne_true

/-- Giving up the reference of the owner: outside of `OnMessage`, the object is deleted. -/
theorem give_phase (destroyed : Bool) :
    Phase { s with
      depth := s.depth + 1
      released := true
      destroyed := destroyed
      given := true }.exitScope l := by
  obtain ⟨hjoined, ⟨rfl, halive⟩ | ⟨rfl, halive⟩⟩ := h.between hdeletes hstate hgiven hwait
  · rw [SignalThread.exitScope_delete (by exact hdeletes) (by exact halive.refcount_)]
    refine .dead ⟨rfl, rfl, halive.touched, rfl, ?_, rfl⟩
    dsimp only
    rw [hjoined.worker]
    decide
  · have hcount : s.refcount_ ≠ 1 := by
      rw [halive.refcount_]
      decide
    rw [SignalThread.exitScope_eq (by exact hdeletes) (by exact hcount)]
    refine .handlers (Or.inr (Or.inr ⟨?_, hdeletes, halive.touched, rfl, rfl,
      { hjoined with }⟩))
    dsimp only
    rw [halive.refcount_]
    rfl

/-- `Start`, when no run is on its way. -/
theorem start_phase (hcounts : Counts s k) :
    Phase s.Start l ∧ Counts s.Start k := by
  obtain ⟨hjoined, hl⟩ := h.between hdeletes hstate hgiven hwait
  have hcount : s.refcount_ ≠ 0 := by
    rcases hl with ⟨-, halive⟩ | ⟨-, halive⟩ <;> rw [halive.refcount_] <;> decide
  rw [SignalThread.Start_eq hdeletes hcount hjoined.started_ hstate]
  have halive : ∀ {n d}, Alive s n d → Alive { s with
      state_ := .kRunning
      starts := s.starts + 1
      started_ := true
      worker := .working } n d := by
    intro n d h
    have hrunning : ¬(WorkState.kRunning = .kReleasing ∨ WorkState.kRunning = .kStopping) := by
      decide
    have hreleased : ¬s.released = true := by
      rw [h.released]
      rcases hstate with hs | hs <;> rw [hs] <;> decide
    have hdestroyed : ¬s.destroyed = true := by
      rw [h.destroyed]
      rcases hstate with hs | hs <;> rw [hs] <;> decide
    exact ⟨h.refcount_, h.depth, h.deletes, h.touched, h.given,
      iff_of_false hreleased hrunning, iff_of_false hdestroyed fun h => hrunning (Or.inr h)⟩
  refine ⟨?_, hcounts.late, hcounts.signals, Nat.le_succ_of_le hcounts.completions, fun hd => ?_⟩
  · rcases hl with ⟨rfl, ha⟩ | ⟨rfl, ha⟩
    · exact .busy (halive ha) (Or.inl rfl) ⟨rfl, Or.inl ⟨rfl, hjoined.posted⟩⟩
    · exact .handlers (Or.inr (Or.inl ⟨halive ha, Or.inl rfl, rfl, rfl, hjoined.posted⟩))
  · have hstarts := hcounts.starts hd
    rw [hjoined.worker, if_neg (by decide)] at hstarts
    dsimp only
    rw [if_pos rfl, hstarts]
    omega

end Between

/-- `Release` or `Destroy` while there is a run. -/
theorem Alive.leave {n : Int} {d : Nat} {state_ : WorkState} (h : Alive s n d)
    (hstate : state_ = .kReleasing ∨ state_ = .kStopping)
    (hdestroyed : destroyed = true ↔ state_ = .kStopping) :
    Alive { s with
      released := true
      destroyed := destroyed
      state_ := state_ } n d :=
  ⟨h.refcount_, h.depth, h.deletes, h.touched, h.given, iff_of_true rfl hstate, hdestroyed⟩

/-- Where the main thread can be, when it calls something while there is a run. -/
theorem Phase.during (h : Phase s l) (hbusy : Busy s)
    (hwait : ∀ x ∈ l.head?, SignalThread.foreign x = true) (hdeletes : s.deletes = 0)
    (hgiven : s.given = false) :
    (l = [] ∧ Alive s 1 0 ∧ Outstanding s) ∨
    (∃ do_delete, l = [.handlers, .handled do_delete] ∧ Alive s 2 1 ∧ Handling s do_delete) := by
  rcases h.outside hwait with ⟨hl, ⟨-, hs, -⟩ | ⟨h, -, hrun⟩ | h⟩ | ⟨do_delete, hl, h⟩
  · exact absurd hbusy (not_busy hs)
  · exact Or.inl ⟨hl, h, hrun⟩
  · exact absurd (hdeletes.symm.trans h.deletes) (by decide)
  · refine Or.inr ⟨do_delete, hl, ?_, h⟩
    cases do_delete with
    | true => exact h.1
    | false =>
      rcases h with ⟨h, -, -⟩ | ⟨h, -⟩ | h
      · exact h
      · exact h
      · exact absurd (hgiven.symm.trans h.given) Bool.false_ne_true

/-- `Release` or `Destroy(false)` while there is a run. -/
theorem leave_phase {state_ : WorkState} (h : Phase s l)
    (hbusy : s.state_ = .kRunning ∨ s.state_ = .kReleasing ∧ state_ = .kStopping)
    (hwait : ∀ x ∈ l.head?, SignalThread.foreign x = true) (hdeletes : s.deletes = 0)
    (hgiven : s.given = false) (hstate : state_ = .kReleasing ∨ state_ = .kStopping)
    (hdestroyed : destroyed = true ↔ state_ = .kStopping) :
    Phase { s with
      released := true
      destroyed := destroyed
      state_ := state_ } l := by
  have hb : Busy s := hbusy.elim Or.inl fun h => Or.inr (Or.inl h.1)
  rcases h.during hb hwait hdeletes hgiven with ⟨rfl, halive, hrun⟩ | ⟨do_delete, rfl, halive, hh⟩
  · exact .busy (halive.leave hstate hdestroyed) (Or.inr hstate) ⟨hrun.started_, hrun.posted⟩
  · have ha := halive.leave hstate hdestroyed
    refine .handlers ?_
    cases do_delete with
    | true => exact ⟨ha, hstate, hh.2.2⟩
    | false =>
      rcases hh with ⟨-, hs, -⟩ | ⟨-, -, hrun⟩ | hg
      · rcases hbusy with h | h <;> rw [hs] at h
        · cases h
        · cases h.1
      · exact Or.inr (Or.inl ⟨ha, Or.inr hstate, hrun⟩)
      · exact absurd (hgiven.symm.trans hg.given) Bool.false_ne_true

/-- The state of a run that is not destroyed. -/
theorem Alive.undestroyed {n : Int} {d : Nat} (h : Alive s n d) (hs : s.state_ ≠ .kStopping) :
    s.destroyed = false :=
  Bool.eq_false_iff.2 fun hd => hs (h.destroyed.1 hd)

/-- `OnMessage`, to the call of `worker_.Stop()`. -/
theorem dispatch_phase (h : Phase s []) (hposted : 0 < s.posted) (hcounts : Counts s 0) :
    Phase s.OnMessage.1 s.OnMessage.2 ∧ Counts s.OnMessage.1 (pending s.OnMessage.2) := by
  cases h with
  | idle _ _ hjoined | dead hjoined => exact absurd hjoined.posted (Nat.ne_of_gt hposted)
  | busy h hstate hrun =>
    obtain ⟨hworker, hone⟩ := hrun.posted.resolve_left fun h => Nat.ne_of_gt hposted h.2
    have hidle : s.worker ≠ .working := by
      rcases hworker with hw | hw <;> rw [hw] <;> decide
    have hcount : s.refcount_ + 1 = 2 := by
      rw [h.refcount_]
      rfl
    have hdepth : s.depth + 1 = 1 := by rw [h.depth]
    have hzero : s.posted - 1 = 0 := by rw [hone]
    have hlive : s.state_ ≠ .kStopping → s.completions + 1 ≤ s.starts ∧
        s.starts = s.completions + 1 := by
      intro hs
      have hstarts := hcounts.starts (h.undestroyed hs)
      rw [if_neg hidle, hone] at hstarts
      omega
    have hsignals : s.signals + 1 = s.completions + 1 := by
      rw [← hcounts.signals, Nat.add_zero]
    rcases hstate with hs | hs | hs
    · have hne : s.state_ ≠ .kStopping := by
        rw [hs]
        decide
      rw [SignalThread.OnMessage_running h.deletes hs (h.undestroyed hne)]
      have hreleased : ¬s.released = true := by
        rw [h.released, hs]
        decide
      have hdestroyed : ¬s.destroyed = true := by
        rw [h.destroyed, hs]
        decide
      refine ⟨.completing ⟨hcount, hdepth, h.deletes, h.touched, h.given,
        iff_of_false hreleased nofun, iff_of_false hdestroyed nofun⟩ rfl hzero hworker,
        hcounts.late, hsignals, (hlive hne).1, fun _ => ?_⟩
      dsimp only
      rw [if_neg hidle, hzero]
      exact (hlive hne).2
    · have hne : s.state_ ≠ .kStopping := by
        rw [hs]
        decide
      rw [SignalThread.OnMessage_releasing h.deletes hs (h.undestroyed hne)]
      refine ⟨.completing ⟨hcount, hdepth, h.deletes, h.touched, h.given, h.released, h.destroyed⟩
        hs hzero hworker, hcounts.late, hsignals, (hlive hne).1, fun _ => ?_⟩
      dsimp only
      rw [if_neg hidle, hzero]
      exact (hlive hne).2
    · have hd : s.destroyed = true := h.destroyed.2 hs
      rw [SignalThread.OnMessage_stopping h.deletes hs hd]
      have hhandling : Handling { s with
          depth := s.depth + 1
          refcount_ := s.refcount_ + 1
          posted := s.posted - 1 } true :=
        ⟨⟨hcount, hdepth, h.deletes, h.touched, h.given, h.released, h.destroyed⟩, Or.inr hs,
          hzero, hidle⟩
      refine ⟨.handled hhandling, hcounts.late, hcounts.signals, hcounts.completions, fun hf => ?_⟩
      exact absurd (hd.symm.trans hf) Bool.false_ne_true.symm

/-- Handlers run inside the scope of `OnMessage`. -/
theorem Handling.depth (h : Handling s do_delete) (hworker : s.worker = .working) :
    s.depth = 1 := by
  cases do_delete with
  | true => exact h.1.depth
  | false =>
    rcases h with ⟨h, -, -⟩ | ⟨h, -⟩ | h
    · exact h.depth
    · exact h.depth
    · exact absurd (hworker.symm.trans h.joined.worker) nofun

/-- The worker is only in its way to `OnMessage` when it works. -/
theorem Phase.working (h : Phase s l) (hworker : s.worker = .working) (hdepth : s.depth = 0) :
    s.deletes = 0 ∧ s.refcount_ ≠ 0 ∧ Outstanding s ∧
      (l = [] ∧ Alive s 1 0 ∧ Busy s ∨ l = [.stop, .stopped] ∧ Alive s 2 0 ∧
        s.state_ = .kStopping) := by
  have hidle : ¬(WorkerPhase.working = .idle) := nofun
  cases h with
  | idle _ _ hjoined | emitting _ _ hjoined =>
    exact absurd (hworker.symm.trans hjoined.worker) hidle
  | busy h hs hrun =>
    refine ⟨h.deletes, ?_, hrun, Or.inl ⟨rfl, h, hs⟩⟩
    rw [h.refcount_]
    decide
  | dead h => exact absurd hworker h.worker
  | stopping h hs hrun =>
    refine ⟨h.deletes, ?_, hrun, Or.inr ⟨rfl, h, hs⟩⟩
    rw [h.refcount_]
    decide
  | stopped _ _ hw => exact absurd (hworker.symm.trans hw) hidle
  | completing _ _ _ hw =>
    rcases hw with hw | hw <;> rw [hw] at hworker <;> cases hworker
  | handlers hh | handled hh => exact absurd (hdepth.symm.trans (hh.depth hworker)) (by decide)

/-- The scope of `Run`. -/
theorem run_phase (h : Phase s l) (hworker : s.worker = .working) (hdepth : s.depth = 0)
    (hcounts : Counts s k) : Phase (s.enter .run).1 l ∧ Counts (s.enter .run).1 k := by
  obtain ⟨hdeletes, hcount, hrun, hl⟩ := h.working hworker hdepth
  have hposted : s.posted = 0 := by
    rcases hrun.posted with hp | hp
    · exact hp.2
    · rw [hworker] at hp
      rcases hp.1 with hp | hp <;> cases hp
  have hone : s.posted + 1 = 1 := by rw [hposted]
  rw [SignalThread.run_eq hdeletes hcount]
  refine ⟨?_, hcounts.late, hcounts.signals, hcounts.completions, fun hd => ?_⟩
  · rcases hl with ⟨rfl, h, hs⟩ | ⟨rfl, h, hs⟩
    · exact .busy { h with } hs
        ⟨hrun.started_, Or.inr ⟨Or.inl rfl, hone⟩⟩
    · exact .stopping { h with } hs ⟨hrun.started_, Or.inr ⟨Or.inl rfl, hone⟩⟩
  · have hstarts := hcounts.starts hd
    rw [hworker, if_pos rfl] at hstarts
    dsimp only
    rw [if_neg (by decide)]
    omega

/-- The OS thread ends. -/
theorem finish_phase (h : Phase s l) (hworker : s.worker = .exiting) (hcounts : Counts s k) :
    Phase (s.enter .finish).1 l ∧ Counts (s.enter .finish).1 k := by
  have hjoined : ¬Joined s := fun hj => by
    rw [hj.worker] at hworker
    cases hworker
  have halive : ∀ {n d}, Alive s n d → Alive (s.enter .finish).1 n d := fun h =>
    { h with }
  have hrun : Outstanding s → Outstanding (s.enter .finish).1 := by
    refine fun h => ⟨h.started_, Or.inr ⟨Or.inr rfl, ?_⟩⟩
    rcases h.posted with hp | hp
    · rw [hworker] at hp
      cases hp.1
    · exact hp.2
  have hended : (s.enter .finish).1.worker ≠ .working := by
    show WorkerPhase.ended ≠ .working
    decide
  have hhandling : ∀ {do_delete}, Handling s do_delete →
      Handling (s.enter .finish).1 do_delete := by
    intro do_delete hh
    cases do_delete with
    | true => exact ⟨halive hh.1, hh.2.1, hh.2.2.1, hended⟩
    | false =>
      rcases hh with ⟨-, -, hj⟩ | ⟨-, -, -, hw, -⟩ | hg
      · exact absurd hj hjoined
      · rw [hw] at hworker
        cases hworker
      · exact absurd hg.joined hjoined
  refine ⟨?_, hcounts.late, hcounts.signals, hcounts.completions, fun hd => ?_⟩
  · cases h with
    | idle _ _ hj | emitting _ _ hj => exact absurd hj hjoined
    | busy h hs hr => exact .busy (halive h) hs (hrun hr)
    | dead h => exact .dead ⟨h.refcount_, h.deletes, h.touched, h.posted, hended, h.released⟩
    | stopping h hs hr => exact .stopping (halive h) hs (hrun hr)
    | stopped _ _ hw =>
      rw [hw] at hworker
      cases hworker
    | completing h hs hp _ => exact .completing (halive h) hs hp (Or.inr rfl)
    | handlers hh => exact .handlers (hhandling hh)
    | handled hh => exact .handled (hhandling hh)
  · have hstarts := hcounts.starts hd
    rw [hworker, if_neg (by decide)] at hstarts
    rw [if_neg hended]
    exact hstarts

/-- `worker_.Stop()` returns when the OS thread has ended. -/
theorem stop_phase (h : Phase s (.stop :: rest)) (hcounts : Counts s (pending rest))
    (hs : s.exec .stop = some (s', push)) :
    Phase s' (push ++ rest) ∧ Counts s' (pending (push ++ rest)) := by
  unfold SignalThread.exec at hs
  dsimp only at hs
  split_ifs at hs with hblocked
  obtain ⟨rfl, rfl⟩ := Prod.mk.inj (Option.some.inj hs)
  have hidle : s.worker ≠ .working := by
    intro hw
    cases h with
    | stopping h _ hrun => exact hblocked ⟨hrun.started_, by rw [hw]; decide⟩
    | completing _ _ _ hworker =>
      rw [hw] at hworker
      rcases hworker with hworker | hworker <;> cases hworker
  have hdeletes : s.deletes = 0 := by
    cases h with
    | stopping h | completing h => exact h.deletes
  rw [SignalThread.touch_eq hdeletes]
  refine ⟨?_, hcounts.late, hcounts.signals, hcounts.completions, fun hd => ?_⟩
  · cases h with
    | stopping h hstate hrun =>
      exact .stopped { h with } hstate rfl
    | completing h hstate hposted _ =>
      exact .emitting { h with } hstate ⟨rfl, rfl, hposted⟩
  · have hstarts := hcounts.starts hd
    rw [if_neg hidle] at hstarts
    dsimp only
    rw [if_neg (by decide)]
    exact hstarts

/-- The end of `Destroy(true)`. -/
theorem stopped_phase (h : Alive s 2 0) (hstate : s.state_ = .kStopping)
    (hworker : s.worker = .idle) (hcounts : Counts s 0)
    (hs : s.exec .stopped = some (s', push)) : push = [] ∧ Phase s' [] ∧ Counts s' 0 := by
  obtain ⟨rfl, rfl⟩ := Prod.mk.inj (Option.some.inj hs)
  rw [SignalThread.touch_eq h.deletes]
  have hcount : s.refcount_ - 1 = 1 := by
    rw [h.refcount_]
    rfl
  have hd : s.destroyed = true := h.destroyed.2 hstate
  rw [SignalThread.exitScope_delete (by exact h.deletes) (by exact hcount)]
  refine ⟨rfl, .dead ⟨rfl, rfl, h.touched, rfl, ?_, h.released.2 (Or.inr hstate)⟩, hcounts.late,
    hcounts.signals, hcounts.completions, fun hf => ?_⟩
  · dsimp only
    rw [hworker]
    decide
  · exact absurd (hd.symm.trans hf) Bool.false_ne_true.symm

/-- `SignalWorkDone`. -/
theorem emit_phase (h : Alive s 2 1)
    (hstate : s.state_ = if do_delete then .kReleasing else .kComplete) (hjoined : Joined s)
    (hcounts : Counts s 1) (hs : s.exec .emit = some (s', push)) :
    push = [.handlers] ∧ Handling s' do_delete ∧ Counts s' 0 := by
  obtain ⟨rfl, rfl⟩ := Prod.mk.inj (Option.some.inj hs)
  have hne : s.state_ ≠ .kStopping := by
    rw [hstate]
    cases do_delete <;> decide
  have hd : ¬s.destroyed = true := by
    rw [h.undestroyed hne]
    exact Bool.false_ne_true
  rw [SignalThread.touch_eq h.deletes, if_neg hd]
  have halive : Alive { s with signals := s.signals + 1 } 2 1 :=
    { h with }
  refine ⟨rfl, ?_, hcounts.late, hcounts.signals, hcounts.completions, hcounts.starts⟩
  cases do_delete with
  | true =>
    refine ⟨halive, Or.inl hstate, hjoined.posted, ?_⟩
    dsimp only
    rw [hjoined.worker]
    decide
  | false =>
    exact Or.inl ⟨halive, hstate, { hjoined with }⟩

/-- The end of `OnMessage`. -/
theorem handled_phase (h : Handling s do_delete) (hcounts : Counts s 0)
    (hs : s.exec (.handled do_delete) = some (s', push)) :
    push = [] ∧ Phase s' [] ∧ Counts s' 0 := by
  obtain ⟨rfl, rfl⟩ := Prod.mk.inj (Option.some.inj hs)
  refine ⟨rfl, ?_⟩
  cases do_delete with
  | true =>
    obtain ⟨h, hstate, hposted, hworker⟩ := h
    have hcount : s.refcount_ - 1 = 1 := by
      rw [h.refcount_]
      rfl
    rw [if_pos rfl]
    refine ⟨?_, exitScope_counts { hcounts with } h.deletes fun _ _ => hposted⟩
    rw [SignalThread.exitScope_delete (by exact h.deletes) (by exact hcount)]
    exact .dead ⟨rfl, rfl, h.touched, rfl, hworker, h.released.2 hstate⟩
  | false =>
    rw [if_neg Bool.false_ne_true]
    have hposted : s.posted = 0 := by
      rcases h with ⟨-, -, hj⟩ | ⟨-, -, -, -, hp⟩ | hg
      · exact hj.posted
      · exact hp
      · exact hg.joined.posted
    have hdeletes : s.deletes = 0 := by
      rcases h with ⟨h, -⟩ | ⟨h, -⟩ | hg
      · exact h.deletes
      · exact h.deletes
      · exact hg.deletes
    refine ⟨?_, exitScope_counts hcounts hdeletes fun _ _ => hposted⟩
    have hleave : ∀ {m}, Alive s 2 1 → m = s.refcount_ - 1 → Alive { s with
        depth := s.depth - 1
        refcount_ := m } 1 0 := by
      rintro m h rfl
      refine ⟨?_, ?_, h.deletes, h.touched, h.given, h.released, h.destroyed⟩
      · dsimp only
        rw [h.refcount_]
        rfl
      · dsimp only
        rw [h.depth]
    rcases h with ⟨h, hstate, hj⟩ | ⟨h, hbusy, hstarted, hworker, -⟩ | hg
    · rw [SignalThread.exitScope_eq hdeletes (by rw [h.refcount_]; decide)]
      exact .idle (hleave h rfl) (Or.inr hstate) { hj with }
    · rw [SignalThread.exitScope_eq hdeletes (by rw [h.refcount_]; decide)]
      exact .busy (hleave h rfl) hbusy ⟨hstarted, Or.inl ⟨hworker, hposted⟩⟩
    · rw [SignalThread.exitScope_delete hdeletes hg.refcount_]
      refine .dead ⟨rfl, rfl, hg.touched, rfl, ?_, hg.released⟩
      dsimp only
      rw [hg.joined.worker]
      decide

theorem exec_phase {x : SignalStmt} (h : Phase s (x :: rest))
    (hcounts : Counts s (pending (x :: rest))) (hs : s.exec x = some (s', push)) :
    Phase s' (push ++ rest) ∧ Counts s' (pending (push ++ rest)) := by
  cases x with
  | stop =>
    have hpending : pending (.stop :: rest) = pending rest := by
      unfold pending
      simp
    rw [hpending] at hcounts
    exact stop_phase h hcounts hs
  | stopped =>
    cases h with
    | stopped h hstate hworker =>
      obtain ⟨rfl, hp, hc⟩ := stopped_phase h hstate hworker hcounts hs
      exact ⟨hp, hc⟩
  | emit =>
    cases h with
    | emitting h hstate hjoined =>
      obtain ⟨rfl, hp, hc⟩ := emit_phase h hstate hjoined hcounts hs
      exact ⟨.handlers hp, hc⟩
  | handlers => cases hs
  | handled do_delete =>
    cases h with
    | handled h =>
      obtain ⟨rfl, hp, hc⟩ := handled_phase h hcounts hs
      exact ⟨hp, hc⟩

/-- `Release`. -/
theorem release_phase (h : Phase s l) (hdeletes : s.deletes = 0)
    (hstate : s.state_ = .kRunning ∨ s.state_ = .kComplete) (hgiven : s.given = false)
    (hwait : ∀ x ∈ l.head?, SignalThread.foreign x = true) (hcounts : Counts s k) :
    Phase s.Release l ∧ Counts s.Release k := by
  rcases hstate with hs | hs
  · have hcount : s.refcount_ ≠ 0 := by
      rcases h.during (Or.inl hs) hwait hdeletes hgiven with ⟨-, ha, -⟩ | ⟨_, -, ha, -⟩ <;>
        rw [ha.refcount_] <;> decide
    have halive : s.destroyed = true ↔ WorkState.kReleasing = .kStopping := by
      rcases h.during (Or.inl hs) hwait hdeletes hgiven with ⟨-, ha, -⟩ | ⟨_, -, ha, -⟩ <;>
        exact iff_of_false (by rw [ha.destroyed, hs]; decide) nofun
    rw [SignalThread.Release_running hdeletes hcount hs]
    refine ⟨?_, hcounts.late, hcounts.signals, hcounts.completions, hcounts.starts⟩
    exact leave_phase h (Or.inl hs) hwait hdeletes hgiven (Or.inl rfl) halive
  · rw [SignalThread.Release_complete hdeletes hs]
    exact ⟨give_phase h hdeletes (Or.inr hs) hgiven hwait s.destroyed,
      give_counts hcounts hdeletes (h.posted (Or.inr hs) hwait) (Or.inl rfl)⟩

/-- `Destroy`. -/
theorem destroy_phase {wait : Bool} (h : Phase s l) (hdeletes : s.deletes = 0)
    (hstate : s.state_ ≠ .kStopping) (hgiven : s.given = false)
    (hwait : ∀ x ∈ l.head?, SignalThread.foreign x = true)
    (hidle : wait = true → l = [] ∨ s.state_ = .kComplete) (hcounts : Counts s (pending l)) :
    Phase (s.Destroy wait).1 ((s.Destroy wait).2 ++ l) ∧
      Counts (s.Destroy wait).1 (pending ((s.Destroy wait).2 ++ l)) := by
  by_cases hs : s.state_ = .kInit ∨ s.state_ = .kComplete
  · rw [SignalThread.Destroy_idle hdeletes hs]
    exact ⟨give_phase h hdeletes hs hgiven hwait true,
      give_counts hcounts hdeletes (h.posted hs hwait) (Or.inr rfl)⟩
  · have hbusy : s.state_ = .kRunning ∨ s.state_ = .kReleasing := by
      cases hstate' : s.state_ with
      | kInit => exact absurd (Or.inl hstate') hs
      | kRunning => exact Or.inl rfl
      | kReleasing => exact Or.inr rfl
      | kComplete => exact absurd (Or.inr hstate') hs
      | kStopping => exact absurd hstate' hstate
    have hb : Busy s := hbusy.imp id Or.inl
    have hduring := h.during hb hwait hdeletes hgiven
    have hcount : s.refcount_ ≠ 0 := by
      rcases hduring with ⟨-, ha, -⟩ | ⟨_, -, ha, -⟩ <;> rw [ha.refcount_] <;> decide
    have hcounts' : ∀ {n : Int}, Counts { s with
        refcount_ := n
        released := true
        destroyed := true
        state_ := .kStopping } (pending l) := fun {_} =>
      ⟨hcounts.late, hcounts.signals, hcounts.completions, fun hf =>
        absurd hf Bool.false_ne_true.symm⟩
    rw [SignalThread.Destroy_busy hdeletes hcount hbusy]
    cases wait with
    | false =>
      refine ⟨?_, hcounts'⟩
      exact leave_phase h (hbusy.imp id fun h => ⟨h, rfl⟩) hwait hdeletes hgiven (Or.inr rfl)
        (iff_of_true rfl rfl)
    | true =>
      have hl : l = [] := (hidle rfl).resolve_right fun hc => hs (Or.inr hc)
      subst hl
      rcases hduring with ⟨-, ha, hrun⟩ | ⟨_, hl, -⟩
      · refine ⟨.stopping ⟨?_, ha.depth, ha.deletes, ha.touched, ha.given,
          iff_of_true rfl (Or.inr rfl), iff_of_true rfl rfl⟩ rfl ⟨hrun.started_, hrun.posted⟩,
          hcounts'⟩
        rw [if_pos rfl, ha.refcount_]
        rfl
      · cases hl

/-- A step of the main thread keeps the invariant. -/
theorem Sound.put (h : Sound c) (hphase : Phase s' l) (hcounts : Counts s' (pending l)) :
    Sound (c.put .main s' l) := by
  refine ⟨?_, ?_, ?_⟩
  · rw [Threads.put_self]
    exact hphase
  · rw [Threads.put_self]
    exact hcounts
  · rw [Threads.put_ne c (by decide)]
    exact h.worker

/-- A step of the worker. -/
theorem Sound.put_worker (h : Sound c) (hphase : Phase s' (c.control .main))
    (hcounts : Counts s' (pending (c.control .main))) :
    Sound (c.put .worker s' ([] ++ c.control .worker)) := by
  refine ⟨?_, ?_, ?_⟩
  · rw [Threads.put_ne c (by decide)]
    exact hphase
  · rw [Threads.put_ne c (by decide)]
    exact hcounts
  · rw [Threads.put_self]
    exact h.worker

theorem call_sound {t : Side} {m : SignalCall} (h : Sound c) (hK : Considerate c t (.call m))
    (hwait : ∀ x ∈ (c.control t).head?, SignalThread.foreign x = true) :
    Sound (c.put t (c.state.enter m).1 ((c.state.enter m).2 ++ c.control t)) := by
  obtain ⟨hrules, hK⟩ := hK
  cases t with
  | main =>
    cases m with
    | start =>
      obtain ⟨hp, hc⟩ := start_phase h.phase hrules.1 hrules.2 hK hwait h.counts
      exact h.put hp hc
    | destroy wait =>
      obtain ⟨hp, hc⟩ := destroy_phase h.phase hrules.1 hrules.2 hK.1 hwait hK.2 h.counts
      exact h.put hp hc
    | release =>
      obtain ⟨hp, hc⟩ := release_phase h.phase hrules.1 hrules.2 hK hwait h.counts
      exact h.put hp hc
    | dispatch =>
      obtain ⟨hnil, hposted⟩ := hrules
      have hphase := h.phase
      have hcounts := h.counts
      rw [hnil] at hphase hcounts
      obtain ⟨hp, hc⟩ := dispatch_phase hphase hposted hcounts
      rw [hnil, List.append_nil]
      exact h.put hp hc
    | _ => cases hrules
  | worker =>
    cases m with
    | continueWork =>
      obtain ⟨hdeletes, hcount, -⟩ := h.phase.working hrules.1 hrules.2
      refine h.put_worker ?_ ?_
      · show Phase c.state.enterScope.exitScope _
        rw [SignalThread.scope_eq hdeletes hcount]
        exact h.phase
      · show Counts c.state.enterScope.exitScope _
        rw [SignalThread.scope_eq hdeletes hcount]
        exact h.counts
    | run =>
      obtain ⟨hp, hc⟩ := run_phase h.phase hrules.1 hrules.2 h.counts
      exact h.put_worker hp hc
    | finish =>
      obtain ⟨hp, hc⟩ := finish_phase h.phase hrules h.counts
      exact h.put_worker hp hc
    | _ => cases hrules

theorem step_sound {t : Side} {a : Act SignalCall Unit} (h : Sound c) (hK : Considerate c t a)
    (hs : Interleaving.step signalThread c t a = some c') : Sound c' := by
  rcases Interleaving.step_cases hs with ⟨x, rest, r, rfl, hc, -, hr, rfl⟩ |
    ⟨m, rfl, hwait, rfl⟩ | ⟨v, x, rest, rfl, hc, hf, rfl⟩
  · cases t with
    | main =>
      obtain ⟨hp, hcs⟩ := exec_phase (hc ▸ h.phase) (hc ▸ h.counts) hr
      exact h.put hp hcs
    | worker => cases hK.1
  · exact call_sound h hK hwait
  · cases t with
    | main =>
      have hphase := h.phase
      have hcounts := h.counts
      rw [hc] at hphase hcounts
      cases hphase with
      | handlers hh => exact h.put (.handled hh) hcounts
      | _ => cases hf
    | worker => cases hK.1

theorem init_sound : Sound SignalConf.init where
  phase := .idle ⟨rfl, rfl, rfl, rfl, rfl, by decide, by decide⟩ (Or.inl rfl) ⟨rfl, rfl, rfl⟩
  counts := ⟨rfl, rfl, Nat.le_refl 0, fun _ => rfl⟩
  worker := rfl

theorem sound_run (h : Reaches signalThread Considerate SignalConf.init c) : Sound c :=
  h.invariant init_sound fun _ _ _ _ _ hI hK hs => step_sound hI hK hs

end Runs

/-! ## 3. Every run -/

/-- The main thread does nothing, no message is posted, and the worker does not run. -/
def Quiescent (c : SignalConf) : Prop :=
  c.control .main = [] ∧ c.state.posted = 0 ∧
    (c.state.worker = .idle ∨ c.state.worker = .ended)

/-- What happens without a call of the main thread. -/
def Internal : Act SignalCall Unit → Prop
  | .tick | .ret _ | .call .dispatch | .call .run | .call .finish => True
  | _ => False

/-- What is promised. -/
structure DiesOnce (c : SignalConf) : Prop where
  refcount_ : 0 ≤ c.state.refcount_
  deletes : c.state.deletes ≤ 1
  touched : c.state.touched = false
  late : c.state.lateSignals = 0
  runs : c.state.completions ≤ c.state.starts
  /-- once for each run that is completed, and `OnMessage` emits it before it does anything else -/
  signals : .emit ∉ c.control .main → c.state.signals = c.state.completions
  /-- in the end -/
  rest : Quiescent c → (c.state.deletes = if c.state.released then 1 else 0) ∧
    (c.state.destroyed = false → c.state.signals = c.state.starts)
  /-- until then, something can happen -/
  proceeds : ¬Quiescent c → ∃ t a, Internal a ∧ SignalRules c t a ∧
    (Interleaving.step signalThread c t a).isSome = true

section Runs

variable {c : SignalConf} {s : SignalThread}

/-- A statement of the main thread. -/
theorem step_tick {x : SignalStmt} {rest : List SignalStmt} {r : SignalThread × List SignalStmt}
    (hc : c.control .main = x :: rest) (hf : SignalThread.foreign x = false)
    (hr : c.state.exec x = some r) :
    (Interleaving.step signalThread c .main .tick).isSome = true := by
  rw [step_of_exec (P := signalThread) hc hf hr]
  rfl

theorem step_call {t : Side} {m : SignalCall}
    (hwait : ∀ x ∈ (c.control t).head?, SignalThread.foreign x = true) :
    (Interleaving.step signalThread c t (.call m)).isSome = true := by
  rw [step_of_enter (P := signalThread) hwait]
  rfl

/-- A run that is on its way gets to `OnMessage`. -/
theorem Outstanding.proceeds (h : Sound c) (hrun : Outstanding c.state) (hdepth : c.state.depth = 0)
    (hmain : (∃ r, c.control .main = [.stop, r]) ∨ c.control .main = []) :
    ∃ t a, Internal a ∧ SignalRules c t a ∧
      (Interleaving.step signalThread c t a).isSome = true := by
  have hworker : ∀ x ∈ (c.control .worker).head?, SignalThread.foreign x = true := by
    rw [h.worker]
    exact nofun
  rcases hrun.posted with ⟨hw, -⟩ | ⟨hw | hw, hposted⟩
  · exact ⟨.worker, .call .run, trivial, ⟨hw, hdepth⟩, step_call hworker⟩
  · exact ⟨.worker, .call .finish, trivial, hw, step_call hworker⟩
  · rcases hmain with ⟨r, hmain⟩ | hmain
    · refine ⟨.main, .tick, trivial, trivial, step_tick hmain rfl (if_neg fun hb => ?_)⟩
      exact hb.2 hw
    · refine ⟨.main, .call .dispatch, trivial, ⟨hmain, by rw [hposted]; exact Nat.one_pos⟩,
        step_call ?_⟩
      rw [hmain]
      exact nofun

theorem Sound.proceeds (h : Sound c) (hrest : ¬Quiescent c) :
    ∃ t a, Internal a ∧ SignalRules c t a ∧
      (Interleaving.step signalThread c t a).isSome = true := by
  have hphase := h.phase
  generalize hmain : c.control .main = l at hphase
  have hworker : ∀ x ∈ (c.control .worker).head?, SignalThread.foreign x = true := by
    rw [h.worker]
    exact nofun
  cases hphase with
  | idle _ _ hjoined => exact absurd ⟨hmain, hjoined.posted, Or.inl hjoined.worker⟩ hrest
  | busy ha hs hrun => exact hrun.proceeds h ha.depth (Or.inr hmain)
  | dead hd =>
    cases hw : c.state.worker with
    | idle => exact absurd ⟨hmain, hd.posted, Or.inl hw⟩ hrest
    | working => exact absurd hw hd.worker
    | exiting => exact ⟨.worker, .call .finish, trivial, hw, step_call hworker⟩
    | ended => exact absurd ⟨hmain, hd.posted, Or.inr hw⟩ hrest
  | stopping ha hs hrun => exact hrun.proceeds h ha.depth (Or.inl ⟨_, hmain⟩)
  | stopped | emitting | handled => exact ⟨.main, .tick, trivial, trivial, step_tick hmain rfl rfl⟩
  | completing _ _ _ hw =>
    rcases hw with hw | hw
    · exact ⟨.worker, .call .finish, trivial, hw, step_call hworker⟩
    · refine ⟨.main, .tick, trivial, trivial, step_tick hmain rfl (if_neg fun hb => ?_)⟩
      exact hb.2 hw
  | handlers _ =>
    refine ⟨.main, .ret (), trivial, trivial, ?_⟩
    rw [step_of_resume (P := signalThread) hmain rfl]
    rfl

/-- What the references say. -/
theorem Phase.refs {l : List SignalStmt} (h : Phase s l) :
    0 ≤ s.refcount_ ∧ s.deletes ≤ 1 ∧ s.touched = false := by
  have halive : ∀ {n : Int} {d}, 0 ≤ n → Alive s n d →
      0 ≤ s.refcount_ ∧ s.deletes ≤ 1 ∧ s.touched = false := by
    intro n d hn h
    rw [h.refcount_, h.deletes]
    exact ⟨hn, Nat.zero_le 1, h.touched⟩
  have hhandling : ∀ {do_delete}, Handling s do_delete →
      0 ≤ s.refcount_ ∧ s.deletes ≤ 1 ∧ s.touched = false := by
    intro do_delete hh
    cases do_delete with
    | true => exact halive (by decide) hh.1
    | false =>
      rcases hh with ⟨h, -⟩ | ⟨h, -⟩ | hg
      · exact halive (by decide) h
      · exact halive (by decide) h
      · rw [hg.refcount_, hg.deletes]
        exact ⟨by decide, Nat.zero_le 1, hg.touched⟩
  cases h with
  | idle h | busy h | stopping h | stopped h | completing h | emitting h =>
    exact halive (by decide) h
  | dead h =>
    rw [h.refcount_, h.deletes]
    exact ⟨Int.le_refl 0, Nat.le_refl 1, h.touched⟩
  | handlers hh | handled hh => exact hhandling hh

theorem Sound.rest (h : Sound c) (hrest : Quiescent c) :
    (c.state.deletes = if c.state.released then 1 else 0) ∧
      (c.state.destroyed = false → c.state.signals = c.state.starts) := by
  obtain ⟨hmain, hposted, hworker⟩ := hrest
  have hphase := h.phase
  have hcounts := h.counts
  rw [hmain] at hphase hcounts
  have hidle : c.state.worker ≠ .working := by
    rcases hworker with hw | hw <;> rw [hw] <;> decide
  refine ⟨?_, fun hd => ?_⟩
  · cases hphase with
    | idle ha hs _ =>
      have hr : ¬c.state.released = true := by
        rw [ha.released]
        rcases hs with hs | hs <;> rw [hs] <;> decide
      rw [if_neg hr, ha.deletes]
    | busy _ _ hrun =>
      rcases hrun.posted with hp | hp
      · exact absurd hp.1 hidle
      · rw [hposted] at hp
        cases hp.2
    | dead hdead => rw [hdead.released, hdead.deletes, if_pos rfl]
  · have hstarts := hcounts.starts hd
    rw [if_neg hidle, hposted] at hstarts
    have hsignals : c.state.signals + 0 = c.state.completions := hcounts.signals
    omega

/-- In every run whose handlers are considerate, the object is deleted once, and
`SignalWorkDone` is emitted once for each run that completes before `Destroy`. -/
theorem signal_thread_dies_once (h : Reaches signalThread Considerate SignalConf.init c) :
    DiesOnce c := by
  have hsound := sound_run h
  obtain ⟨hcount, hdeletes, htouched⟩ := hsound.phase.refs
  refine ⟨hcount, hdeletes, htouched, hsound.counts.late, hsound.counts.completions,
    fun hemit => ?_, hsound.rest, hsound.proceeds⟩
  have hsignals := hsound.counts.signals
  unfold pending at hsignals
  rw [if_neg hemit] at hsignals
  exact hsignals

end Runs

instance (c : SignalConf) (t : Side) (a : Act SignalCall Unit) : Decidable (SignalRules c t a) := by
  unfold SignalRules
  split <;> infer_instance

instance (c : SignalConf) (t : Side) (a : Act SignalCall Unit) : Decidable (Considerate c t a) := by
  unfold Considerate
  split <;> infer_instance

/-- A run that is completed, started again from the handler, and released in the second one. -/
theorem signal_thread_dies_once_twice : ∃ c, Reaches signalThread Considerate SignalConf.init c ∧
    c.state.deletes = 1 ∧ c.state.signals = 2 ∧ DiesOnce c := by
  obtain ⟨c, hc, hp⟩ := exists_of_follow (P := signalThread) (K := Considerate)
    (c := SignalConf.init)
    (l := [(.main, .call .start), (.worker, .call .run), (.main, .call .dispatch),
      (.worker, .call .finish), (.main, .tick), (.main, .tick), (.main, .call .start),
      (.main, .ret ()), (.main, .tick), (.worker, .call .continueWork), (.worker, .call .run),
      (.worker, .call .finish), (.main, .call .dispatch), (.main, .tick), (.main, .tick),
      (.main, .call .release), (.main, .ret ()), (.main, .tick)])
    (p := fun c => decide (c.state.deletes = 1) && decide (c.state.signals = 2)) (by decide +kernel)
  obtain ⟨hd, hs⟩ := Bool.and_eq_true_iff.1 hp
  exact ⟨c, hc, of_decide_eq_true hd, of_decide_eq_true hs, signal_thread_dies_once hc⟩

/-- Handlers that are not considerate. `Destroy(true)` in the releasing state gives up a reference
that `OnMessage` gives up again; a second `Release` deletes the object under `OnMessage`; and
`Destroy(true)` after `Start` waits for a worker that waits for the lock of `OnMessage`. -/
theorem signal_thread_inconsiderate :
    (∃ c, Reaches signalThread SignalRules SignalConf.init c ∧ c.state.refcount_ < 0) ∧
    (∃ c, Reaches signalThread SignalRules SignalConf.init c ∧ c.state.touched = true) ∧
    ∃ c, Reaches signalThread SignalRules SignalConf.init c ∧
      c.control .main = [.stop, .stopped, .handlers, .handled false] ∧
      c.state.worker = .working ∧ c.state.depth = 1 := by
  refine ⟨?_, ?_, ?_⟩
  · obtain ⟨c, hc, hp⟩ := exists_of_follow (P := signalThread) (K := SignalRules)
      (c := SignalConf.init)
      (l := [(.main, .call .start), (.worker, .call .run), (.worker, .call .finish),
        (.main, .call .release), (.main, .call .dispatch), (.main, .tick), (.main, .tick),
        (.main, .call (.destroy true)), (.main, .tick), (.main, .tick), (.main, .ret ()),
        (.main, .tick)])
      (p := fun c => decide (c.state.refcount_ < 0)) (by decide +kernel)
    exact ⟨c, hc, of_decide_eq_true hp⟩
  · obtain ⟨c, hc, hp⟩ := exists_of_follow (P := signalThread) (K := SignalRules)
      (c := SignalConf.init)
      (l := [(.main, .call .start), (.worker, .call .run), (.worker, .call .finish),
        (.main, .call .dispatch), (.main, .tick), (.main, .tick), (.main, .call .release),
        (.main, .call .release), (.main, .ret ()), (.main, .tick)])
      (p := fun c => c.state.touched) (by decide +kernel)
    exact ⟨c, hc, hp⟩
  · obtain ⟨c, hc, hp⟩ := exists_of_follow (P := signalThread) (K := SignalRules)
      (c := SignalConf.init)
      (l := [(.main, .call .start), (.worker, .call .run), (.worker, .call .finish),
        (.main, .call .dispatch), (.main, .tick), (.main, .tick), (.main, .call .start),
        (.main, .call (.destroy true))])
      (p := fun c => decide (c.control .main = [.stop, .stopped, .handlers, .handled false] ∧
        c.state.worker = .working ∧ c.state.depth = 1)) (by decide +kernel)
    exact ⟨c, hc, of_decide_eq_true hp⟩

end Gxmpp.TalkBase
