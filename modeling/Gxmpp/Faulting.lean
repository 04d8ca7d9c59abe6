/-
Systems whose steps can go wrong.

A program that follows a pointer to something that is gone has no next state, and nothing can be
said of it any more. So a step is a partial function (`none`: it goes wrong), and a run is a
sequence of steps that have a result. That no step of a run goes wrong is then a statement about
the states that are reached: each step that is possible there has a result.

`ReachesWhen` are the runs whose steps meet a condition. Where the condition keeps an invariant,
and the steps that meet it have a result wherever that holds, no such step goes wrong in any of
these runs (`ReachesWhen.safe`).
-/
import Mathlib.Logic.Relation

set_option autoImplicit false

namespace Faulting

/-- A system: which events are possible, and what they make of the state. -/
structure System (σ ε : Type*) where
  enabled : σ → ε → Prop
  step : σ → ε → Option σ

variable {σ ε : Type*} {S : System σ ε} {K : σ → ε → Prop}

/-- `t` is reached from `s` by steps that all meet the condition. -/
def System.ReachesWhen (S : System σ ε) (K : σ → ε → Prop) : σ → σ → Prop :=
  Relation.ReflTransGen fun s t => ∃ e, S.enabled s e ∧ K s e ∧ S.step s e = some t

/-- `t` is reached from `s`. -/
def System.Reaches (S : System σ ε) : σ → σ → Prop := S.ReachesWhen fun _ _ => True

/-- No step that is possible goes wrong. -/
def System.SafeAt (S : System σ ε) (s : σ) : Prop := ∀ e, S.enabled s e → (S.step s e).isSome = true

/-- The invariant rule. -/
theorem ReachesWhen.invariant {I : σ → Prop} {s t : σ} (h : S.ReachesWhen K s t) (hs : I s)
    (hstep : ∀ s e t, I s → S.enabled s e → K s e → S.step s e = some t → I t) : I t := by
  induction h with
  | refl => exact hs
  | tail _ hmove ih =>
    obtain ⟨e, he, hK, hmove⟩ := hmove
    exact hstep _ e _ ih he hK hmove

/-- Where the steps that meet the condition have a result and keep the invariant, none of them
goes wrong. -/
theorem ReachesWhen.safe {I : σ → Prop} {s t : σ} (h : S.ReachesWhen K s t) (hs : I s)
    (hstep : ∀ s e, I s → S.enabled s e → K s e → ∃ t, S.step s e = some t ∧ I t) :
    I t ∧ ∀ e, S.enabled t e → K t e → (S.step t e).isSome = true := by
  have hinv : I t := ReachesWhen.invariant h hs fun s e t hI he hK ht => by
    obtain ⟨u, hu, hIu⟩ := hstep s e hI he hK
    rw [Option.some.inj (ht.symm.trans hu)]
    exact hIu
  refine ⟨hinv, fun e he hK => ?_⟩
  obtain ⟨u, hu, -⟩ := hstep t e hinv he hK
  rw [hu]
  rfl

section Follow

variable [∀ s e, Decidable (S.enabled s e)] [∀ s e, Decidable (K s e)]

/-- The run of a list of events. -/
def System.follow (S : System σ ε) (K : σ → ε → Prop) [∀ s e, Decidable (S.enabled s e)]
    [∀ s e, Decidable (K s e)] : σ → List ε → Option σ
  | s, [] => some s
  | s, e :: es =>
    if S.enabled s e ∧ K s e then (S.step s e).bind fun t => S.follow K t es else none

theorem reaches_follow {s t : σ} {es : List ε} (h : S.follow K s es = some t) :
    S.ReachesWhen K s t := by
  induction es generalizing s with
  | nil => exact Option.some.inj h ▸ Relation.ReflTransGen.refl
  | cons e es ih =>
    unfold System.follow at h
    obtain ⟨hguard, h⟩ := Option.ite_none_right_eq_some.1 h
    obtain ⟨u, hu, hrest⟩ := Option.bind_eq_some_iff.1 h
    exact Relation.ReflTransGen.head ⟨e, hguard.1, hguard.2, hu⟩ (ih hrest)

/-- A run to a state with a property, from a list of events for which it is evaluated. -/
theorem exists_of_follow {s : σ} {l : List ε} {p : σ → Bool}
    (h : (S.follow K s l).any p = true) : ∃ t, S.ReachesWhen K s t ∧ p t = true := by
  obtain ⟨t, ht, hp⟩ := (Option.any_eq_true p _).1 h
  exact ⟨t, reaches_follow ht, hp⟩

end Follow

end Faulting
