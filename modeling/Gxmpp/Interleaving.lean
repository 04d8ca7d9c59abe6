/-
Threads that share a state.

Each thread runs a component with a control stack of its own, and all of them act on one state.
A step of the whole is a step of one thread, so that the steps of a run are those of the threads
in any order. A statement that cannot be executed now (`exec` is `none`) blocks its thread.

What this file provides:

* `Reaches`, the configurations a run arrives at whose steps all meet a condition, with its
  induction rule `Reaches.invariant`, and `follow` for explicit runs;
* `step_cases`, the three shapes of a step, and what makes a step possible (`step_of_exec`,
  `step_of_enter`, `step_of_resume`);
* `Stacks`, an invariant given by a part for the state and a part for each thread's stack. To
  preserve it a thread has to keep its own part, and not to interfere with those of the others
  (`Stacks.Holds.put`).
-/
import Gxmpp.Reentrant

set_option autoImplicit false

namespace Interleaving

open Reentrant

/-! ## Configurations and steps -/

/-- The state, and what each thread has still to execute, innermost first. -/
structure Threads (ι σ Stmt : Type*) where
  state : σ
  control : ι → List Stmt

variable {ι σ Stmt Call Ans : Type*}

/-- What one thread sees. -/
def Threads.view (c : Threads ι σ Stmt) (t : ι) : Config σ Stmt := ⟨c.state, c.control t⟩

section Step

variable [DecidableEq ι]

/-- A thread changes the state and its own stack. -/
def Threads.put (c : Threads ι σ Stmt) (t : ι) (s : σ) (l : List Stmt) : Threads ι σ Stmt :=
  ⟨s, Function.update c.control t l⟩

@[simp] theorem Threads.put_state (c : Threads ι σ Stmt) (t : ι) (s : σ) (l : List Stmt) :
    (c.put t s l).state = s := rfl

@[simp] theorem Threads.put_self (c : Threads ι σ Stmt) (t : ι) (s : σ) (l : List Stmt) :
    (c.put t s l).control t = l := by
  show Function.update c.control t l _ = _
  rw [Function.update_self]

theorem Threads.put_ne (c : Threads ι σ Stmt) {t u : ι} (h : u ≠ t) (s : σ) (l : List Stmt) :
    (c.put t s l).control u = c.control u := by
  show Function.update c.control t l _ = _
  rw [Function.update_of_ne h]

theorem Threads.put_put (c : Threads ι σ Stmt) (t : ι) (s s' : σ) (l l' : List Stmt) :
    (c.put t s l).put t s' l' = c.put t s' l' := by
  unfold Threads.put
  rw [Function.update_idem]

/-- A step of the thread `t`. -/
def step (P : ι → Component σ Stmt Call Ans) (c : Threads ι σ Stmt) (t : ι) (a : Act Call Ans) :
    Option (Threads ι σ Stmt) :=
  ((P t).step (c.view t) a).map fun d => c.put t d.state d.control

/-- A run whose steps all meet the condition `K`, on the configuration before the step. -/
def Reaches (P : ι → Component σ Stmt Call Ans)
    (K : Threads ι σ Stmt → ι → Act Call Ans → Prop) :
    Threads ι σ Stmt → Threads ι σ Stmt → Prop :=
  Relation.ReflTransGen fun c c' => ∃ t a, K c t a ∧ step P c t a = some c'

variable {P : ι → Component σ Stmt Call Ans} {K : Threads ι σ Stmt → ι → Act Call Ans → Prop}

/-- A condition may be weakened. -/
theorem Reaches.mono {L : Threads ι σ Stmt → ι → Act Call Ans → Prop}
    (hKL : ∀ c t a, K c t a → L c t a) {c c' : Threads ι σ Stmt} (h : Reaches P K c c') :
    Reaches P L c c' :=
  Relation.ReflTransGen.mono (fun c _ ⟨t, a, ha, hs⟩ => ⟨t, a, hKL c t a ha, hs⟩) _ _ h

/-- The invariant rule. -/
theorem Reaches.invariant {I : Threads ι σ Stmt → Prop} {c₀ c : Threads ι σ Stmt}
    (h : Reaches P K c₀ c) (h₀ : I c₀)
    (hstep : ∀ c t (a : Act Call Ans) c', Reaches P K c₀ c → I c → K c t a →
      step P c t a = some c' → I c') : I c := by
  induction h with
  | refl => exact h₀
  | tail hreach hmove ih =>
    obtain ⟨t, a, hK, hs⟩ := hmove
    exact hstep _ t a _ hreach ih hK hs

/-- The run of a list of decisions, each of which has to meet the condition. -/
def follow (P : ι → Component σ Stmt Call Ans) (K : Threads ι σ Stmt → ι → Act Call Ans → Prop)
    [∀ c t a, Decidable (K c t a)] :
    Threads ι σ Stmt → List (ι × Act Call Ans) → Option (Threads ι σ Stmt)
  | c, [] => some c
  | c, d :: ds =>
    if K c d.1 d.2 then (step P c d.1 d.2).bind fun c' => follow P K c' ds else none

theorem reaches_follow [∀ c t a, Decidable (K c t a)] {c c' : Threads ι σ Stmt}
    {ds : List (ι × Act Call Ans)} (h : follow P K c ds = some c') : Reaches P K c c' := by
  induction ds generalizing c with
  | nil => exact Option.some.inj h ▸ Relation.ReflTransGen.refl
  | cons d ds ih =>
    simp only [follow] at h
    split at h
    · rename_i hd
      obtain ⟨e, he, hrest⟩ := Option.bind_eq_some_iff.1 h
      exact Relation.ReflTransGen.head ⟨d.1, d.2, hd, he⟩ (ih hrest)
    · cases h

/-- A run with a property, from a list of decisions for which it is evaluated. -/
theorem exists_of_follow [∀ c t a, Decidable (K c t a)] {c : Threads ι σ Stmt}
    {l : List (ι × Act Call Ans)} {p : Threads ι σ Stmt → Bool}
    (h : (follow P K c l).any p = true) : ∃ c', Reaches P K c c' ∧ p c' = true := by
  obtain ⟨c', hc, hp⟩ := (Option.any_eq_true p _).1 h
  exact ⟨c', reaches_follow hc, hp⟩

section Enabled

variable {c : Threads ι σ Stmt} {t : ι} {x : Stmt} {rest : List Stmt}

/-- A statement that can be executed. -/
theorem step_of_exec {r : σ × List Stmt} (hc : c.control t = x :: rest)
    (hf : (P t).foreign x = false) (hr : (P t).exec c.state x = some r) :
    step P c t .tick = some (c.put t r.1 (r.2 ++ rest)) := by
  unfold step Component.step Threads.view
  dsimp only
  rw [hc]
  dsimp only
  rw [hf, if_neg Bool.false_ne_true, hr]
  rfl

/-- A call, when the client has control. -/
theorem step_of_enter {m : Call} (hw : ∀ x ∈ (c.control t).head?, (P t).foreign x = true) :
    step P c t (.call m) =
      some (c.put t ((P t).enter c.state m).1 (((P t).enter c.state m).2 ++ c.control t)) := by
  unfold step Component.step
  dsimp only
  rw [if_pos (waiting_of_head hw)]
  rfl

/-- A return of the client. -/
theorem step_of_resume {v : Ans} (hc : c.control t = x :: rest) (hf : (P t).foreign x = true) :
    step P c t (.ret v) =
      some (c.put t ((P t).resume c.state x v).1 (((P t).resume c.state x v).2 ++ rest)) := by
  unfold step Component.step Threads.view
  dsimp only
  rw [hc]
  dsimp only
  rw [if_pos hf]
  rfl

end Enabled

/-- The three shapes of a step of the thread `t`. -/
theorem step_cases {c c' : Threads ι σ Stmt} {t : ι} {a : Act Call Ans}
    (h : step P c t a = some c') :
    (∃ x rest r, a = .tick ∧ c.control t = x :: rest ∧ (P t).foreign x = false ∧
      (P t).exec c.state x = some r ∧ c' = c.put t r.1 (r.2 ++ rest)) ∨
    (∃ m, a = .call m ∧ (∀ x ∈ (c.control t).head?, (P t).foreign x = true) ∧
      c' = c.put t ((P t).enter c.state m).1 (((P t).enter c.state m).2 ++ c.control t)) ∨
    (∃ v x rest, a = .ret v ∧ c.control t = x :: rest ∧ (P t).foreign x = true ∧
      c' = c.put t ((P t).resume c.state x v).1 (((P t).resume c.state x v).2 ++ rest)) := by
  obtain ⟨d, hd, rfl⟩ := Option.map_eq_some_iff.1 h
  rcases Reentrant.step_cases hd with ⟨x, rest, r, rfl, hc, hf, hr, rfl⟩ | ⟨m, rfl, hw, rfl⟩ |
    ⟨v, x, rest, rfl, hc, hf, rfl⟩
  · exact .inl ⟨x, rest, r, rfl, hc, hf, hr, rfl⟩
  · refine .inr (.inl ⟨m, rfl, fun x hx => ?_, rfl⟩)
    rcases waiting_cases hw with hnil | ⟨y, rest, hc, hf⟩
    · rw [show c.control t = [] from hnil] at hx
      cases hx
    · rw [show c.control t = y :: rest from hc] at hx
      exact Option.some.inj hx ▸ hf
  · exact .inr (.inr ⟨v, x, rest, rfl, hc, hf, rfl⟩)

end Step

/-! ## Invariants with a part for each stack -/

/-- A part for the state, and one for the stack of each thread. -/
structure Stacks (ι σ Stmt : Type*) where
  global : σ → Prop
  stack : ι → σ → List Stmt → Prop

/-- The invariant, of a configuration. -/
structure Stacks.Holds (I : Stacks ι σ Stmt) (c : Threads ι σ Stmt) : Prop where
  global : I.global c.state
  stack : ∀ t, I.stack t c.state (c.control t)

/-- A step keeps the invariant when it keeps the part of its own thread, and does not interfere
with those of the others. -/
theorem Stacks.Holds.put [DecidableEq ι] {I : Stacks ι σ Stmt} {c : Threads ι σ Stmt} {t : ι}
    {s : σ} {l : List Stmt} (h : I.Holds c) (hglobal : I.global s) (hown : I.stack t s l)
    (hothers : ∀ u, u ≠ t → I.stack u c.state (c.control u) → I.stack u s (c.control u)) :
    I.Holds (c.put t s l) where
  global := hglobal
  stack u := by
    by_cases hu : u = t
    · rw [hu, Threads.put_self]
      exact hown
    · rw [Threads.put_ne c hu]
      exact hothers u hu (h.stack u)

end Interleaving
