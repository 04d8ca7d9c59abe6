/-
The thresholds of `LogMessage`, in `talk/base/logging.cc`.

A stream is known by its number, and what becomes of it is left out; no stream is `none`. What is
written by a message, and when, is left out as well: only to whom it goes.
-/
import Gxmpp.Refining
import Mathlib.Data.List.Induction
import Mathlib.Order.Bounds.Basic
import Mathlib.Order.MinMax

set_option autoImplicit false

namespace Gxmpp.TalkBase

inductive LoggingSeverity where
  | LS_SENSITIVE
  | LS_VERBOSE
  | LS_INFO
  | LS_WARNING
  | LS_ERROR
deriving DecidableEq

/-- The value of the enumerator. -/
def LoggingSeverity.value : LoggingSeverity → Int
  | .LS_SENSITIVE => 0
  | .LS_VERBOSE => 1
  | .LS_INFO => 2
  | .LS_WARNING => 3
  | .LS_ERROR => 4

/-- A `StreamInterface*`. -/
abbrev StreamPointer := Option ℕ

/-- The static members of the class. -/
structure LogMessage where
  min_sev_ : Int
  dbg_sev_ : Int
  streams_ : List (StreamPointer × Int)
deriving DecidableEq

namespace LogMessage

def NO_LOGGING : Int := LoggingSeverity.LS_ERROR.value + 1

/-- By default, release builds don't log, debug builds at info level. -/
def LOG_DEFAULT (debug : Bool) : Int :=
  if debug then LoggingSeverity.LS_INFO.value else NO_LOGGING

/-- When the program starts. -/
def init (debug : Bool) : LogMessage := ⟨LOG_DEFAULT debug, LOG_DEFAULT debug, []⟩

variable (s : LogMessage)

def UpdateMinLogSeverity : LogMessage :=
  { s with min_sev_ := s.streams_.foldl (fun _ p => min s.dbg_sev_ p.2) s.dbg_sev_ }

def LogToDebug (min_sev : Int) : LogMessage :=
  { s with dbg_sev_ := min_sev }.UpdateMinLogSeverity

def AddLogToStream (stream : StreamPointer) (min_sev : Int) : LogMessage :=
  { s with streams_ := s.streams_ ++ [(stream, min_sev)] }.UpdateMinLogSeverity

def LogToStream (stream : StreamPointer) (min_sev : Int) : LogMessage :=
  let s := { s with streams_ := [] }
  -- without a stream, `min_sev_` is not computed again
  if stream.isSome then s.AddLogToStream stream min_sev else s

def RemoveLogToStream (stream : StreamPointer) : LogMessage :=
  { s with streams_ := s.streams_.eraseP fun p => stream = p.1 }.UpdateMinLogSeverity

def Loggable (sev : LoggingSeverity) : Bool := sev.value ≥ s.min_sev_

/-- `~LogMessage`: whether a message goes to the debug output, and to which streams. -/
def outputs (severity_ : LoggingSeverity) : Bool × List StreamPointer :=
  (severity_.value ≥ s.dbg_sev_,
    (s.streams_.filter fun p => severity_.value ≥ p.2).map Prod.fst)

/-- The calls that change the thresholds. -/
inductive Call where
  | logToDebug (min_sev : Int)
  | logToStream (stream : StreamPointer) (min_sev : Int)
  | addLogToStream (stream : StreamPointer) (min_sev : Int)
  | removeLogToStream (stream : StreamPointer)
deriving DecidableEq

def step (s : LogMessage) : Call → LogMessage × Unit
  | .logToDebug min_sev => (s.LogToDebug min_sev, ())
  | .logToStream stream min_sev => (s.LogToStream stream min_sev, ())
  | .addLogToStream stream min_sev => (s.AddLogToStream stream min_sev, ())
  | .removeLogToStream stream => (s.RemoveLogToStream stream, ())

/-! ## 1. The minimum -/

/-- `min_sev_` is the minimum of the other thresholds, and a message passes the fast check where
somebody wants it. -/
structure Minimal : Prop where
  least : IsLeast {m | m = s.dbg_sev_ ∨ ∃ p ∈ s.streams_, m = p.2} s.min_sev_
  fast : ∀ sev, s.Loggable sev = true ↔
    (s.outputs sev).1 = true ∨ (s.outputs sev).2 ≠ []

variable {s}

theorem minimal_iff :
    s.Minimal ↔ IsLeast {m | m = s.dbg_sev_ ∨ ∃ p ∈ s.streams_, m = p.2} s.min_sev_ := by
  refine ⟨fun h => h.least, fun h => ⟨h, fun sev => ?_⟩⟩
  have hstreams : (s.outputs sev).2 ≠ [] ↔ ∃ p ∈ s.streams_, sev.value ≥ p.2 := by
    simp [outputs]
  have hdebug : (s.outputs sev).1 = true ↔ sev.value ≥ s.dbg_sev_ := decide_eq_true_iff
  rw [hstreams, hdebug, Loggable, decide_eq_true_iff]
  constructor
  · intro hle
    rcases h.1 with hmin | ⟨p, hp, hmin⟩
    · exact .inl (hmin ▸ hle)
    · exact .inr ⟨p, hp, hmin ▸ hle⟩
  · rintro (hle | ⟨p, hp, hle⟩)
    · exact (h.2 (.inl rfl)).trans hle
    · exact (h.2 (.inr ⟨p, hp, rfl⟩)).trans hle

/-- The loop of `UpdateMinLogSeverity` sees the last stream only. -/
theorem updated_min :
    s.UpdateMinLogSeverity.min_sev_
      = (s.streams_.getLast?.map fun p => min s.dbg_sev_ p.2).getD s.dbg_sev_ := by
  unfold UpdateMinLogSeverity
  cases s.streams_ using List.reverseRecOn with
  | nil => rfl
  | append_singleton streams p =>
    -- what the stream before it left is thrown away
    rw [List.foldl_append, List.getLast?_concat]
    rfl

/-- No stream wants more than the debug output and the last stream do. -/
def LastTells (dbg_sev : Int) (streams : List (StreamPointer × Int)) : Prop :=
  ∀ last, streams.getLast? = some last → ∀ p ∈ streams, dbg_sev ≤ p.2 ∨ last.2 ≤ p.2

/-- After `UpdateMinLogSeverity`, the minimum is right where the last stream tells it. -/
theorem updated_iff :
    s.UpdateMinLogSeverity.Minimal ↔ LastTells s.dbg_sev_ s.streams_ := by
  rw [minimal_iff, updated_min]
  change IsLeast {m | m = s.dbg_sev_ ∨ ∃ p ∈ s.streams_, m = p.2} _ ↔ _
  cases hlast : s.streams_.getLast? with
  | none =>
    have hnil : s.streams_ = [] := List.getLast?_eq_none_iff.1 hlast
    unfold LastTells
    rw [hlast, hnil]
    refine iff_of_true ⟨.inl rfl, ?_⟩ (fun last h => nomatch h)
    rintro m (rfl | ⟨p, hp, -⟩)
    · exact le_rfl
    · cases hp
  | some last =>
    have hmem : last ∈ s.streams_ := List.mem_of_getLast? hlast
    have hattained : min s.dbg_sev_ last.2 = s.dbg_sev_ ∨
        ∃ p ∈ s.streams_, min s.dbg_sev_ last.2 = p.2 :=
      (min_choice s.dbg_sev_ last.2).imp_right fun h => ⟨last, hmem, h⟩
    unfold LastTells
    rw [hlast]
    constructor
    · rintro ⟨-, hlower⟩ last' hlast' p hp
      obtain rfl := Option.some.inj hlast'
      exact min_le_iff.1 (hlower (.inr ⟨p, hp, rfl⟩))
    · intro htells
      refine ⟨hattained, ?_⟩
      rintro m (rfl | ⟨p, hp, rfl⟩)
      · exact min_le_left _ _
      · exact min_le_iff.2 (htells last rfl p hp)

/-! ## 2. Every run -/

/-- Where a call leaves the minimum right: behind `LogToStream` without a stream, no stream was
below the debug output; behind the other calls, the last stream tells it. -/
def Tells (s : LogMessage) : Call → Prop
  | .logToDebug min_sev => LastTells min_sev s.streams_
  | .logToStream (some _) _ => True
  | .logToStream none _ => ∀ p ∈ s.streams_, s.dbg_sev_ ≤ p.2
  | .addLogToStream _ min_sev => ∀ p ∈ s.streams_, s.dbg_sev_ ≤ p.2 ∨ min_sev ≤ p.2
  | .removeLogToStream stream =>
    LastTells s.dbg_sev_ (s.streams_.eraseP fun p => stream = p.1)

theorem init_minimal (debug : Bool) : (init debug).Minimal := by
  refine minimal_iff.2 ⟨.inl rfl, ?_⟩
  rintro m (rfl | ⟨p, hp, -⟩)
  · exact le_rfl
  · cases hp

theorem step_iff (h : s.Minimal) (call : Call) : (step s call).1.Minimal ↔ s.Tells call := by
  cases call with
  | logToDebug | removeLogToStream => exact updated_iff
  | addLogToStream stream min_sev =>
    refine updated_iff.trans ?_
    unfold LastTells
    rw [List.getLast?_concat]
    constructor
    · exact fun htells p hp => htells _ rfl p (List.mem_append_left _ hp)
    · intro htells last hlast p hp
      obtain rfl := Option.some.inj hlast
      rcases List.mem_append.1 hp with hp | hp
      · exact htells p hp
      · rw [List.mem_singleton.1 hp]
        exact .inr le_rfl
  | logToStream stream min_sev =>
    cases stream with
    | some stream =>
      refine updated_iff.trans (iff_of_true ?_ trivial)
      intro last hlast p hp
      obtain rfl := Option.some.inj hlast
      rw [List.mem_singleton.1 hp]
      exact .inr le_rfl
    | none =>
      -- nothing is updated: `min_sev_` is what it was, and the debug output alone is left
      rw [minimal_iff]
      change IsLeast {m | m = s.dbg_sev_ ∨ ∃ p ∈ ([] : List (StreamPointer × Int)), m = p.2}
        s.min_sev_ ↔ _
      constructor
      · rintro ⟨hattained, -⟩ p hp
        rcases hattained with hmin | ⟨q, hq, -⟩
        · exact hmin ▸ h.least.2 (.inr ⟨p, hp, rfl⟩)
        · cases hq
      · intro htells
        have hmin : s.min_sev_ = s.dbg_sev_ := by
          refine le_antisymm (h.least.2 (.inl rfl)) ?_
          rcases h.least.1 with hmin | ⟨p, hp, hmin⟩
          · exact hmin.ge
          · exact hmin ▸ htells p hp
        refine ⟨.inl hmin, ?_⟩
        rintro m (rfl | ⟨p, hp, -⟩)
        · exact hmin.le
        · cases hp

/-- In a run the minimum is right after each call exactly if each call leaves it right. -/
theorem minimal_run_iff (debug : Bool) (calls : List Call) :
    Refining.Meets step (fun s call => (step s call).1.Minimal) (init debug) calls
      ↔ Refining.Meets step Tells (init debug) calls :=
  Refining.meets_iff (I := Minimal) (fun _ call h => step_iff h call) (fun _ _ _ h => h)
    (init_minimal debug) calls

/-- Two streams of which the last one wants less: what the first one wants is lost in the fast
check. A stream that is gone still counts. -/
theorem minimum_lost :
    ¬Refining.Meets step (fun s call => (step s call).1.Minimal) (init false)
        [.addLogToStream (some 1) 1, .addLogToStream (some 2) 3]
    ∧ ¬Refining.Meets step (fun s call => (step s call).1.Minimal) (init false)
        [.addLogToStream (some 1) 1, .logToStream none 0] := by
  constructor
  · rintro ⟨-, h, -⟩
    exact absurd (h.least.2 (.inr ⟨(some 1, 1), by decide, rfl⟩)) (by decide)
  · rintro ⟨-, h, -⟩
    rcases h.least.1 with hmin | ⟨p, hp, -⟩
    · exact absurd hmin (by decide)
    · cases hp

end LogMessage

end Gxmpp.TalkBase
