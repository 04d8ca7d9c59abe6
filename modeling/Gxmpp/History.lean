/-
Histories in which every event is lawful where it happens.

A property of a run is often a property of its history: each event is allowed by what
happened before it. `Lawful ok` is that statement about all positions of a history, and it
is proved while the history grows, one event at a time (`Lawful.snoc`); what follows from
it about the whole history is an induction over the same growth (`Lawful.induction`). The
code that produced the history is gone by then.

Where an event keeps a property exactly when it is allowed, the property holds all the time
exactly when every event is allowed (`always_iff`).
-/
import Mathlib.Data.List.Induction

set_option autoImplicit false

namespace History

variable {ε : Type*} {ok : List ε → ε → Prop} {l : List ε} {x : ε}

/-- Every event of the history is allowed by the events before it. -/
def Lawful (ok : List ε → ε → Prop) (l : List ε) : Prop :=
  ∀ l₁ x l₂, l = l₁ ++ x :: l₂ → ok l₁ x

theorem Lawful.nil : Lawful ok [] := by
  intro l₁ x l₂ h
  exact absurd h.symm (by simp)

/-- The history grows by an event that is allowed. -/
theorem Lawful.snoc (h : Lawful ok l) (hx : ok l x) : Lawful ok (l ++ [x]) := by
  intro l₁ y l₂ heq
  rcases List.eq_nil_or_concat l₂ with rfl | ⟨l₃, z, rfl⟩
  · obtain ⟨rfl, hlast⟩ := List.append_inj' heq rfl
    obtain rfl := List.singleton_inj.1 hlast
    exact hx
  · have heq' : l ++ [x] = (l₁ ++ y :: l₃) ++ [z] := by
      rw [heq]
      simp
    obtain ⟨hinit, -⟩ := List.append_inj' heq' rfl
    exact h l₁ y l₃ hinit

/-- Events that are allowed anywhere. -/
theorem Lawful.append (h : Lawful ok l) {es : List ε} (hes : ∀ x ∈ es, ∀ l, ok l x) :
    Lawful ok (l ++ es) := by
  induction es generalizing l with
  | nil =>
    rw [List.append_nil]
    exact h
  | cons x es ih =>
    have hx := h.snoc (hes x List.mem_cons_self l)
    have hrest := ih hx fun y hy => hes y (List.mem_cons_of_mem _ hy)
    rwa [List.append_assoc] at hrest

/-- The last event was allowed by the history before it. -/
theorem Lawful.last (h : Lawful ok (l ++ [x])) : ok l x := h l x [] rfl

theorem Lawful.init {m : List ε} (h : Lawful ok (l ++ m)) : Lawful ok l := by
  intro l₁ y l₂ heq
  refine h l₁ y (l₂ ++ m) ?_
  rw [heq]
  simp

/-- What holds of the empty history and is kept by every event that is allowed holds of
every lawful history. -/
theorem Lawful.induction {p : List ε → Prop} (h : Lawful ok l) (hnil : p [])
    (hsnoc : ∀ l x, Lawful ok l → p l → ok l x → p (l ++ [x])) : p l := by
  induction l using List.reverseRecOn with
  | nil => exact hnil
  | append_singleton l x ih => exact hsnoc l x h.init (ih h.init) h.last

/-- The property holds of every beginning of the history exactly when every event of it is
allowed. -/
theorem always_iff {good : List ε → Prop} (hnil : good [])
    (hsnoc : ∀ l x, good l → (good (l ++ [x]) ↔ ok l x)) (l : List ε) :
    (∀ l₁, l₁ <+: l → good l₁) ↔ ∀ l₁ x, l₁ ++ [x] <+: l → ok l₁ x := by
  constructor
  · intro h l₁ x hbeginning
    have hbefore := h l₁ ((List.prefix_append l₁ [x]).trans hbeginning)
    exact (hsnoc l₁ x hbefore).1 (h (l₁ ++ [x]) hbeginning)
  · intro h l₁
    induction l₁ using List.reverseRecOn with
    | nil => exact fun _ => hnil
    | append_singleton l₁ x ih =>
      intro hbeginning
      have hbefore := ih ((List.prefix_append l₁ [x]).trans hbeginning)
      exact (hsnoc l₁ x hbefore).2 (h l₁ x hbeginning)

end History
