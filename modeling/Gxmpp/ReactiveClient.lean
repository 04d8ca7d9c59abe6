/-
A client that is a function.

In a run of a re-entrant component the client decides what comes next. For a client whose
handlers are known (modules that ship with the component, say) that choice is a function
of the state the client keeps: `Reactive` gives, for each handler the component calls, the
new state of the client, the functions it calls before it returns, and its answer.

What is left to do is then a list of **tasks**, and a step depends on nothing else, so a
call of the component is a big-step evaluation, `Completes`:

* `Completes.unique`: it has at most one result;
* `Completes.append`: tasks are treated one after the other;
* `Completes.reaches`: it is a run of the component, on top of whatever was pending.
-/
import Gxmpp.Reentrant

set_option autoImplicit false

namespace Reentrant

variable {σ τ Stmt Call Ans : Type*}

/-! ## 1. Clients and their tasks -/

/-- A client with states `τ`. At a handler it takes a new state, calls functions of the
component in this order, and gives its answer. -/
structure Reactive (τ Stmt Call Ans : Type*) where
  react : τ → Stmt → τ × List Call × Ans

/-- What is left to do: a statement of the component, a call the client has decided on,
or the return from a handler. -/
inductive Task (Stmt Call Ans : Type*) where
  | run (s : Stmt)
  | call (m : Call)
  | answer (s : Stmt) (a : Ans)

/-- The statement that a task keeps on the control stack. -/
def Task.stmt : Task Stmt Call Ans → Option Stmt
  | .run s => some s
  | .call _ => none
  | .answer s _ => some s

/-- One step: the new states, and the tasks that replace the first one. -/
def Component.next (P : Component σ Stmt Call Ans) (K : Reactive τ Stmt Call Ans) (x : σ × τ) :
    Task Stmt Call Ans → Option ((σ × τ) × List (Task Stmt Call Ans))
  | .run s =>
    if P.foreign s then
      some ((x.1, (K.react x.2 s).1),
        (K.react x.2 s).2.1.map Task.call ++ [.answer s (K.react x.2 s).2.2])
    else (P.exec x.1 s).map fun r => ((r.1, x.2), r.2.map Task.run)
  | .call m => some (((P.enter x.1 m).1, x.2), (P.enter x.1 m).2.map Task.run)
  | .answer s a => some (((P.resume x.1 s a).1, x.2), (P.resume x.1 s a).2.map Task.run)

/-- The tasks are done one after the other, and `y` is what is left then. -/
inductive Completes (P : Component σ Stmt Call Ans) (K : Reactive τ Stmt Call Ans) :
    σ × τ → List (Task Stmt Call Ans) → σ × τ → Prop where
  | nil (x : σ × τ) : Completes P K x [] x
  | cons {x y z : σ × τ} {t : Task Stmt Call Ans} {push rest : List (Task Stmt Call Ans)}
      (hnext : P.next K x t = some (y, push)) (hrest : Completes P K y (push ++ rest) z) :
      Completes P K x (t :: rest) z

variable {P : Component σ Stmt Call Ans} {K : Reactive τ Stmt Call Ans} {x y z : σ × τ}
  {l rest : List (Task Stmt Call Ans)}

/-! ## 2. One result, task by task -/

/-- The client and the component leave no choice. -/
theorem Completes.unique (h : Completes P K x l y) (k : Completes P K x l z) : y = z := by
  induction h with
  | nil x =>
    cases k
    rfl
  | cons hnext _ ih =>
    cases k with
    | cons hnext' hrest' =>
      obtain ⟨rfl, rfl⟩ := Prod.mk.inj (Option.some.inj (hnext.symm.trans hnext'))
      exact ih hrest'

theorem Completes.append (h : Completes P K x l y) (k : Completes P K y rest z) :
    Completes P K x (l ++ rest) z := by
  induction h with
  | nil x => exact k
  | cons hnext _ ih =>
    have hrest := ih k
    rw [List.append_assoc] at hrest
    exact .cons hnext hrest

/-- A task, and then what replaces it. -/
theorem Completes.single {t : Task Stmt Call Ans} {push : List (Task Stmt Call Ans)}
    (hnext : P.next K x t = some (y, push)) (hrest : Completes P K y push z) :
    Completes P K x [t] z := by
  refine .cons hnext ?_
  rw [List.append_nil]
  exact hrest

/-- A statement of the component is executed, and then what it leaves. -/
theorem Completes.run {s : Stmt} {r : σ × List Stmt} (hf : P.foreign s = false)
    (hr : P.exec x.1 s = some r) (hrest : Completes P K (r.1, x.2) (r.2.map Task.run) y) :
    Completes P K x [.run s] y := by
  refine .single ?_ hrest
  simp only [Component.next, hf, Bool.false_eq_true, if_false, hr, Option.map_some]

/-- A function of the component is called. -/
theorem Completes.enter {m : Call}
    (hrest : Completes P K ((P.enter x.1 m).1, x.2) ((P.enter x.1 m).2.map Task.run) y) :
    Completes P K x [.call m] y :=
  .single rfl hrest

/-- A handler makes its calls and returns. -/
theorem Completes.handler {s : Stmt} {t : τ} {calls : List Call} {a : Ans}
    (hf : P.foreign s = true) (hr : K.react x.2 s = (t, calls, a))
    (hcalls : Completes P K (x.1, t) (calls.map Task.call) y)
    (hrest : Completes P K ((P.resume y.1 s a).1, y.2) ((P.resume y.1 s a).2.map Task.run) z) :
    Completes P K x [.run s] z := by
  have hanswer : Completes P K y [.answer s a] z := .single rfl hrest
  have hnext : P.next K x (.run s) = some ((x.1, t), calls.map Task.call ++ [.answer s a]) := by
    simp only [Component.next, hf, if_true, hr]
  exact .single hnext (hcalls.append hanswer)

/-! ## 3. The run of the component -/

/-- The control stack of a list of tasks on top of `below`. -/
def controlOf (below : List Stmt) (l : List (Task Stmt Call Ans)) : List Stmt :=
  l.filterMap Task.stmt ++ below

/-- The client has control wherever it is about to call a function or to answer. -/
def Placed (P : Component σ Stmt Call Ans) (below : List Stmt) : List (Task Stmt Call Ans) → Prop
  | [] => True
  | .run _ :: l => Placed P below l
  | .call _ :: l =>
    (∀ s, (controlOf below l).head? = some s → P.foreign s = true) ∧ Placed P below l
  | .answer s _ :: l => P.foreign s = true ∧ Placed P below l

theorem Placed.runs {below : List Stmt} (push : List Stmt) (h : Placed P below l) :
    Placed P below (push.map Task.run ++ l) := by
  induction push with
  | nil => exact h
  | cons s push ih => exact ih

theorem controlOf_runs (below push : List Stmt) (l : List (Task Stmt Call Ans)) :
    controlOf below (push.map Task.run ++ l) = push ++ controlOf below l := by
  induction push with
  | nil => rfl
  | cons s push ih =>
    rw [List.map_cons, List.cons_append, List.cons_append, ← ih]
    rfl

theorem controlOf_calls (below : List Stmt) (calls : List Call) (l : List (Task Stmt Call Ans)) :
    controlOf below (calls.map Task.call ++ l) = controlOf below l := by
  induction calls with
  | nil => rfl
  | cons m calls ih => exact ih

theorem Placed.calls {below : List Stmt} (calls : List Call)
    (hw : ∀ s, (controlOf below l).head? = some s → P.foreign s = true)
    (h : Placed P below l) : Placed P below (calls.map Task.call ++ l) := by
  induction calls with
  | nil => exact h
  | cons m calls ih => exact ⟨fun s hs => hw s (controlOf_calls below calls l ▸ hs), ih⟩

/-- A step of the tasks is a step of the component, or only the client moves. -/
theorem next_step {below : List Stmt} {t : Task Stmt Call Ans} {push : List (Task Stmt Call Ans)}
    (h : P.next K x t = some (y, push)) (hp : Placed P below (t :: rest)) :
    Placed P below (push ++ rest) ∧
      ((⟨y.1, controlOf below (push ++ rest)⟩ : Config σ Stmt)
      = ⟨x.1, controlOf below (t :: rest)⟩ ∨
        ∃ a : Act Call Ans, P.step ⟨x.1, controlOf below (t :: rest)⟩ a
          = some ⟨y.1, controlOf below (push ++ rest)⟩) := by
  cases t with
  | run s =>
    by_cases hf : P.foreign s = true
    · simp only [Component.next, hf, if_true, Option.some.injEq, Prod.mk.injEq] at h
      obtain ⟨rfl, rfl⟩ := h
      have hp' : Placed P below (.answer s (K.react x.2 s).2.2 :: rest) := ⟨hf, hp⟩
      rw [List.append_assoc]
      refine ⟨hp'.calls _ fun s' hs' => ?_, .inl ?_⟩
      · obtain rfl := Option.some.inj hs'
        exact hf
      · rw [controlOf_calls]
        rfl
    · simp only [Component.next, hf, Bool.false_eq_true, if_false, Option.map_eq_some_iff] at h
      obtain ⟨r, hr, hy⟩ := h
      obtain ⟨rfl, rfl⟩ := Prod.mk.inj hy
      refine ⟨Placed.runs _ hp, .inr ⟨.tick, ?_⟩⟩
      have hcontrol : controlOf below (.run s :: rest) = s :: controlOf below rest := rfl
      rw [controlOf_runs, hcontrol]
      simp only [Component.step, hf, Bool.false_eq_true, if_false, hr, Option.map_some]
  | call m =>
    obtain ⟨rfl, rfl⟩ := Prod.mk.inj (Option.some.inj h)
    refine ⟨Placed.runs _ hp.2, .inr ⟨.call m, ?_⟩⟩
    have hcontrol : controlOf below (.call m :: rest) = controlOf below rest := rfl
    have hw : (⟨x.1, controlOf below rest⟩ : Config σ Stmt).waiting P = true :=
      waiting_of_head hp.1
    rw [controlOf_runs, hcontrol]
    simp only [Component.step, hw, if_true]
  | answer s a =>
    obtain ⟨rfl, rfl⟩ := Prod.mk.inj (Option.some.inj h)
    refine ⟨Placed.runs _ hp.2, .inr ⟨.ret a, ?_⟩⟩
    have hcontrol : controlOf below (.answer s a :: rest) = s :: controlOf below rest := rfl
    rw [controlOf_runs, hcontrol]
    simp only [Component.step, hp.1, if_true]

/-- What a client of this kind does is something that any client may do. -/
theorem Completes.reaches {below : List Stmt} (h : Completes P K x l y) (hp : Placed P below l) :
    P.Reaches anyCall ⟨x.1, controlOf below l⟩ ⟨y.1, below⟩ := by
  induction h with
  | nil x => exact Relation.ReflTransGen.refl
  | cons hnext _ ih =>
    obtain ⟨hp', heq | ⟨a, ha⟩⟩ := next_step hnext hp
    · exact heq ▸ ih hp'
    · exact .head ⟨a, fun _ _ => trivial, ha⟩ (ih hp')

end Reentrant
