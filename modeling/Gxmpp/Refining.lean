/-
A machine that is observed, and a specification that its observations follow.

A machine takes an input in a state, and gives an output and the next state. A specification says
of a state of its own which outputs and next states an input may have; it need not be
deterministic. `follows` carries a relation between the two kinds of states along a whole run:
each step must keep it and give an output that the specification allows. Inputs may be restricted
in each state (`Meets`), by what the caller promises or by what is known to go wrong.
-/
import Mathlib.Data.List.Basic

set_option autoImplicit false

namespace Refining

variable {σ τ ι ω : Type*} (step : σ → ι → σ × ω) (ok : σ → ι → Prop)
  (spec : τ → ι → ω → τ → Prop)

/-- The state after a run. -/
def run : σ → List ι → σ
  | s, [] => s
  | s, i :: is => run (step s i).1 is

/-- What is observed of a run. -/
def trace : σ → List ι → List (ι × ω)
  | _, [] => []
  | s, i :: is => (i, (step s i).2) :: trace (step s i).1 is

/-- Every input of a run meets the condition in the state that it finds. -/
def Meets : σ → List ι → Prop
  | _, [] => True
  | s, i :: is => ok s i ∧ Meets (step s i).1 is

/-- The observations are allowed, one after the other. -/
def Follows : τ → List (ι × ω) → Prop
  | _, [] => True
  | q, (i, o) :: t => ∃ q', spec q i o q' ∧ Follows q' t

variable {step ok spec}

/-- Inputs that meet the condition in every state. -/
theorem Meets.of_forall {s : σ} {is : List ι} (h : ∀ i ∈ is, ∀ s, ok s i) : Meets step ok s is := by
  induction is generalizing s with
  | nil => trivial
  | cons i is ih =>
    exact ⟨h i List.mem_cons_self s, ih fun j hj => h j (List.mem_cons_of_mem i hj)⟩

/-- What comes next in a run meets the condition in the state that it finds. -/
theorem Meets.next {s : σ} {is : List ι} {i : ι} {js : List ι}
    (h : Meets step ok s (is ++ i :: js)) : Meets step ok s is ∧ ok (run step s is) i := by
  induction is generalizing s with
  | nil => exact ⟨trivial, h.1⟩
  | cons j is ih => exact ⟨⟨h.1, (ih h.2).1⟩, (ih h.2).2⟩

/-- What holds in the first state, and is kept where the condition is met, holds behind the run. -/
theorem Meets.invariant {I : σ → Prop} (hstep : ∀ s i, I s → ok s i → I (step s i).1) {s : σ}
    {is : List ι} (h : I s) (hmeets : Meets step ok s is) : I (run step s is) := by
  induction is generalizing s with
  | nil => exact h
  | cons i is ih => exact ih (hstep s i h hmeets.1) hmeets.2

/-- Two conditions that come to the same where the invariant holds, which the first one keeps. -/
theorem meets_iff {ok' : σ → ι → Prop} {I : σ → Prop} (hiff : ∀ s i, I s → (ok s i ↔ ok' s i))
    (hstep : ∀ s i, I s → ok s i → I (step s i).1) {s : σ} (h : I s) (is : List ι) :
    Meets step ok s is ↔ Meets step ok' s is := by
  induction is generalizing s with
  | nil => exact Iff.rfl
  | cons i is ih =>
    constructor
    · rintro ⟨hok, hmore⟩
      exact ⟨(hiff s i h).1 hok, (ih (hstep s i h hok)).1 hmore⟩
    · rintro ⟨hok', hmore⟩
      have hok := (hiff s i h).2 hok'
      exact ⟨hok, (ih (hstep s i h hok)).2 hmore⟩

variable (step) in
/-- In a run from `s` there is an input with an output that `cause` tells, and from then on the
states meet `P`, up to the state `x` in which `i` comes next. -/
def Waits (cause : ι → ω → Prop) (P : σ → Prop) (s : σ) (is : List ι) (x : σ) (i : ι) : Prop :=
  ∃ before c between after, is = before ++ c :: (between ++ i :: after)
    ∧ cause c (step (run step s before) c).2
    ∧ (∀ l, l <+: between → P (run step s (before ++ c :: l)))
    ∧ x = run step s (before ++ c :: between)

/-- What is known where something is waited for. -/
theorem Waits.state {cause : ι → ω → Prop} {P I : σ → Prop} {s x : σ} {is : List ι} {i : ι}
    (h : Waits step cause P s is x i) (hstep : ∀ s i, I s → ok s i → I (step s i).1) (hs : I s)
    (hmeets : Meets step ok s is) : P x ∧ I x ∧ ok x i := by
  obtain ⟨before, c, between, after, rfl, -, hstays, rfl⟩ := h
  have hcut : before ++ c :: (between ++ i :: after) = (before ++ c :: between) ++ i :: after := by
    rw [List.append_assoc, List.cons_append]
  rw [hcut] at hmeets
  exact ⟨hstays _ List.prefix_rfl, hmeets.next.1.invariant hstep hs, hmeets.next.2⟩

section Simulation

variable {R : σ → τ → Prop}
  (hstep : ∀ s q i, R s q → ok s i → ∃ q', spec q i (step s i).2 q' ∧ R (step s i).1 q')

include hstep

/-- A relation that every step keeps carries a run. -/
theorem follows {s : σ} {q : τ} {is : List ι} (h : R s q) (hmeets : Meets step ok s is) :
    Follows spec q (trace step s is) := by
  induction is generalizing s q with
  | nil => trivial
  | cons i is ih =>
    obtain ⟨q', hspec, hR⟩ := hstep s q i h hmeets.1
    exact ⟨q', hspec, ih hR hmeets.2⟩

/-- The relation holds behind the run. -/
theorem related {s : σ} {q : τ} {is : List ι} (h : R s q) (hmeets : Meets step ok s is) :
    ∃ q', R (run step s is) q' := by
  induction is generalizing s q with
  | nil => exact ⟨q, h⟩
  | cons i is ih =>
    obtain ⟨q', -, hR⟩ := hstep s q i h hmeets.1
    exact ih hR hmeets.2

end Simulation

end Refining
