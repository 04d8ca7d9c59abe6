/-
Components that call out to their client and are called back from it.

An object-oriented component is re-entered: one of its functions calls a
handler, the handler calls another function of the same component, and the
first function resumes on a state that moved under it. The usual model of a
component as one atomic function per operation cannot say this, and the
properties that fail in such code fail exactly there.

The model here keeps the pending work explicit. A configuration is a state and
a **control stack** of statements still to be executed, innermost first. The
component executes the head of the stack; at a *foreign* statement the client is
running, and it may call another function (its statements go on top) or return
(the foreign statement is popped). Nothing else is assumed of the client, so a
property of every run is a property of every nesting of calls.

What this file provides, and what the proofs of such a component use:

* `Reaches`, the configurations a guarded run arrives at, with its induction
  rule `Reaches.invariant`;
* `Invariant`, an invariant given by three parts (of the state, of each pending
  statement, of each pair of pending statements), and the two rules
  `Invariant.Holds.replace` and `Invariant.Holds.push` that reduce its preservation to facts
  about the head statement alone;
* `ReachesWhen`, the runs whose steps all meet a condition;
* `Owed`, for what the state says somebody still has to do, and its rule `Owed.step`;
* `gauge_step`, the same for a quantity that the state and the stack hold together,
  such as a nesting counter;
* `Device` and `Component.attach`, for a client that is known: the component and the code
  between it and its environment.
-/
import Mathlib.Logic.Relation
import Mathlib.Data.List.Basic
import Mathlib.Algebra.GroupWithZero.Nat

set_option autoImplicit false

namespace Reentrant

/-! ## Components and their runs -/

/-- A component with state `σ`, whose code is cut into statements `Stmt` at the
points where it calls its client. -/
structure Component (σ Stmt Call Ans : Type*) where
  /-- Executes one pending statement: the new state, and what is to be executed
  before the rest. `none` is a fault: the code has no behaviour to model. -/
  exec : σ → Stmt → Option (σ × List Stmt)
  /-- The statements at which the client is running. -/
  foreign : Stmt → Bool
  /-- What the component does with the answer of a client that returns. -/
  resume : σ → Stmt → Ans → σ × List Stmt
  /-- The entry of a function the client calls. -/
  enter : σ → Call → σ × List Stmt

/-- A step: the component's own (`tick`), or a decision of the client. -/
inductive Act (Call Ans : Type*) where
  | tick
  | call (m : Call)
  | ret (a : Ans)

/-- A state and the statements still to be executed, innermost first. -/
structure Config (σ Stmt : Type*) where
  state : σ
  control : List Stmt

variable {σ Stmt Call Ans : Type*}

/-- The client has control: no call is in progress, or the innermost one waits
for a handler to return. -/
def Config.waiting (P : Component σ Stmt Call Ans) (c : Config σ Stmt) : Bool :=
  match c.control with
  | [] => true
  | s :: _ => P.foreign s

/-- One step. `none` when the step is not possible in `c`. -/
def Component.step (P : Component σ Stmt Call Ans) (c : Config σ Stmt) :
    Act Call Ans → Option (Config σ Stmt)
  | .tick =>
    match c.control with
    | [] => none
    | s :: rest =>
      if P.foreign s then none
      else (P.exec c.state s).map fun r => ⟨r.1, r.2 ++ rest⟩
  | .call m =>
    if c.waiting P then some ⟨(P.enter c.state m).1, (P.enter c.state m).2 ++ c.control⟩
    else none
  | .ret a =>
    match c.control with
    | [] => none
    | s :: rest =>
      if P.foreign s then
        some ⟨(P.resume c.state s a).1, (P.resume c.state s a).2 ++ rest⟩
      else none

/-- Executes the component's own statements until the client has control. -/
def Component.settle (P : Component σ Stmt Call Ans) : ℕ → Config σ Stmt → Config σ Stmt
  | 0, c => c
  | n + 1, c =>
    match P.step c .tick with
    | some c' => P.settle n c'
    | none => c

/-- The rules of a client: whether it may call a function in a configuration. What
it returns from a handler, and when, is never restricted. -/
abbrev Rules (σ Stmt Call : Type*) := Config σ Stmt → Call → Prop

/-- No rules: the client does as it likes. -/
def anyCall (_ : Config σ Stmt) (_ : Call) : Prop := True

instance : ∀ (c : Config σ Stmt) (m : Call), Decidable (anyCall c m) :=
  fun _ _ => .isTrue trivial

/-- A step keeps to the rules. -/
def Act.Allowed (G : Rules σ Stmt Call) (c : Config σ Stmt) (a : Act Call Ans) : Prop :=
  ∀ m, a = .call m → G c m

instance (G : Rules σ Stmt Call) [∀ c m, Decidable (G c m)] (c : Config σ Stmt) :
    ∀ a : Act Call Ans, Decidable (a.Allowed G c)
  | .tick => .isTrue (by simp [Act.Allowed])
  | .call m => decidable_of_iff (G c m) (by simp [Act.Allowed])
  | .ret _ => .isTrue (by simp [Act.Allowed])

/-- A run given by the decisions of a client that keeps to the rules: after each of
them the component settles, in at most `n` steps. -/
def Component.drive (P : Component σ Stmt Call Ans) (G : Rules σ Stmt Call)
    [∀ c m, Decidable (G c m)] (n : ℕ) :
    Config σ Stmt → List (Act Call Ans) → Option (Config σ Stmt)
  | c, [] => some c
  | c, a :: as =>
    if a.Allowed G c then (P.step c a).bind fun c' => P.drive G n (P.settle n c') as
    else none

/-- One step of a run in which the client keeps to the rules. -/
def Component.Move (P : Component σ Stmt Call Ans) (G : Rules σ Stmt Call)
    (c c' : Config σ Stmt) : Prop :=
  ∃ a : Act Call Ans, a.Allowed G c ∧ P.step c a = some c'

/-- `c'` is reached from `c` by a run in which the client keeps to the rules. -/
def Component.Reaches (P : Component σ Stmt Call Ans) (G : Rules σ Stmt Call) :
    Config σ Stmt → Config σ Stmt → Prop :=
  Relation.ReflTransGen (P.Move G)

variable {P : Component σ Stmt Call Ans} {G : Rules σ Stmt Call}

/-- Rules may be loosened. -/
theorem Reaches.mono {G' : Rules σ Stmt Call} (hG : ∀ c m, G c m → G' c m) {c c' : Config σ Stmt}
    (h : P.Reaches G c c') : P.Reaches G' c c' :=
  Relation.ReflTransGen.mono
    (fun c _ ⟨a, ha, hs⟩ => ⟨a, fun m hm => hG c m (ha m hm), hs⟩) _ _ h

/-- A run that keeps to the rules is a run. -/
theorem Reaches.any {c c' : Config σ Stmt} (h : P.Reaches G c c') : P.Reaches anyCall c c' :=
  Reaches.mono (fun _ _ _ => trivial) h

theorem reaches_settle (n : ℕ) (c : Config σ Stmt) : P.Reaches G c (P.settle n c) := by
  induction n generalizing c with
  | zero => exact Relation.ReflTransGen.refl
  | succ n ih =>
    rw [Component.settle]
    cases hs : P.step c .tick with
    | none => exact Relation.ReflTransGen.refl
    | some c' =>
      exact Relation.ReflTransGen.head ⟨.tick, by simp [Act.Allowed], hs⟩ (ih c')

/-- What a list of decisions leads to is reached. -/
theorem reaches_drive [∀ c m, Decidable (G c m)] {n : ℕ} {c c' : Config σ Stmt}
    {as : List (Act Call Ans)} (h : P.drive G n c as = some c') : P.Reaches G c c' := by
  induction as generalizing c with
  | nil =>
    simp only [Component.drive, Option.some.injEq] at h
    exact h ▸ Relation.ReflTransGen.refl
  | cons a as ih =>
    simp only [Component.drive] at h
    split at h
    · rename_i ha
      obtain ⟨d, hd, hrest⟩ := Option.bind_eq_some_iff.1 h
      exact Relation.ReflTransGen.head ⟨a, ha, hd⟩ ((reaches_settle n d).trans (ih hrest))
    · cases h

/-- A run with a property, from a list of decisions for which it is evaluated. -/
theorem exists_of_drive [∀ c m, Decidable (G c m)] {n : ℕ} {c : Config σ Stmt}
    {l : List (Act Call Ans)} {p : Config σ Stmt → Bool}
    (h : (P.drive G n c l).any p = true) : ∃ c', P.Reaches G c c' ∧ p c' = true := by
  obtain ⟨c', hc, hp⟩ := (Option.any_eq_true p _).1 h
  exact ⟨c', reaches_drive hc, hp⟩

/-- The invariant rule. What is known of every reached configuration may be used in
the step. -/
theorem Reaches.invariant {I : Config σ Stmt → Prop} {c₀ c : Config σ Stmt}
    (h : P.Reaches G c₀ c) (h₀ : I c₀)
    (hstep : ∀ c (a : Act Call Ans) c', P.Reaches G c₀ c → I c → a.Allowed G c →
      P.step c a = some c' → I c') : I c := by
  induction h with
  | refl => exact h₀
  | tail hreach hmove ih =>
    obtain ⟨a, hG, hs⟩ := hmove
    exact hstep _ a _ hreach ih hG hs

/-- A reflexive and transitive relation between the states before and after each step
holds between the ends of every run. -/
theorem Reaches.relation {R : σ → σ → Prop} {c₀ c : Config σ Stmt} (h : P.Reaches G c₀ c)
    (hrefl : ∀ s, R s s) (htrans : ∀ a b d, R a b → R b d → R a d)
    (hstep : ∀ c (a : Act Call Ans) c', P.step c a = some c' → R c.state c'.state) :
    R c₀.state c.state := by
  induction h with
  | refl => exact hrefl _
  | tail _ hmove ih =>
    obtain ⟨a, -, hs⟩ := hmove
    exact htrans _ _ _ ih (hstep _ a _ hs)

/-! ## Runs whose steps meet a condition -/

/-- `c'` is reached from `c` by a run whose steps all meet the condition `K`, on the
configuration and on what is decided there. -/
def Component.ReachesWhen (P : Component σ Stmt Call Ans)
    (K : Config σ Stmt → Act Call Ans → Prop) : Config σ Stmt → Config σ Stmt → Prop :=
  Relation.ReflTransGen fun c c' => ∃ a, K c a ∧ P.step c a = some c'

section When

variable {K : Config σ Stmt → Act Call Ans → Prop}

theorem ReachesWhen.reaches (hK : ∀ c a, K c a → a.Allowed G c) {c c' : Config σ Stmt}
    (h : P.ReachesWhen K c c') : P.Reaches G c c' :=
  Relation.ReflTransGen.mono (fun c _ ⟨a, ha, hs⟩ => ⟨a, hK c a ha, hs⟩) _ _ h

/-- The invariant rule for such runs. -/
theorem ReachesWhen.invariant {I : Config σ Stmt → Prop} {c₀ c : Config σ Stmt}
    (h : P.ReachesWhen K c₀ c) (h₀ : I c₀)
    (hstep : ∀ c (a : Act Call Ans) c', P.ReachesWhen K c₀ c → I c → K c a →
      P.step c a = some c' → I c') : I c := by
  induction h with
  | refl => exact h₀
  | tail hreach hmove ih =>
    obtain ⟨a, hK, hs⟩ := hmove
    exact hstep _ a _ hreach ih hK hs

/-- The run of a list of decisions, each of which has to meet the condition. -/
def Component.follow (P : Component σ Stmt Call Ans) (K : Config σ Stmt → Act Call Ans → Prop)
    [∀ c a, Decidable (K c a)] : Config σ Stmt → List (Act Call Ans) → Option (Config σ Stmt)
  | c, [] => some c
  | c, a :: as => if K c a then (P.step c a).bind fun c' => P.follow K c' as else none

theorem reaches_follow [∀ c a, Decidable (K c a)] {c c' : Config σ Stmt}
    {as : List (Act Call Ans)} (h : P.follow K c as = some c') : P.ReachesWhen K c c' := by
  induction as generalizing c with
  | nil => exact Option.some.inj h ▸ Relation.ReflTransGen.refl
  | cons a as ih =>
    simp only [Component.follow] at h
    split at h
    · rename_i ha
      obtain ⟨d, hd, hrest⟩ := Option.bind_eq_some_iff.1 h
      exact Relation.ReflTransGen.head ⟨a, ha, hd⟩ (ih hrest)
    · cases h

/-- Such a run with a property, from a list of decisions for which it is evaluated. -/
theorem exists_of_follow [∀ c a, Decidable (K c a)] {c : Config σ Stmt}
    {l : List (Act Call Ans)} {p : Config σ Stmt → Bool}
    (h : (P.follow K c l).any p = true) : ∃ c', P.ReachesWhen K c c' ∧ p c' = true := by
  obtain ⟨c', hc, hp⟩ := (Option.any_eq_true p _).1 h
  exact ⟨c', reaches_follow hc, hp⟩

end When

/-! ## What a step does, once and for all -/

/-- The three shapes of a step. Every proof about a step starts here. -/
theorem step_cases {c c' : Config σ Stmt} {a : Act Call Ans} (h : P.step c a = some c') :
    (∃ s rest r, a = .tick ∧ c.control = s :: rest ∧ P.foreign s = false ∧
      P.exec c.state s = some r ∧ c' = ⟨r.1, r.2 ++ rest⟩) ∨
    (∃ m, a = .call m ∧ c.waiting P = true ∧
      c' = ⟨(P.enter c.state m).1, (P.enter c.state m).2 ++ c.control⟩) ∨
    (∃ v s rest, a = .ret v ∧ c.control = s :: rest ∧ P.foreign s = true ∧
      c' = ⟨(P.resume c.state s v).1, (P.resume c.state s v).2 ++ rest⟩) := by
  cases a with
  | tick =>
    cases hc : c.control with
    | nil => simp [Component.step, hc] at h
    | cons s rest =>
      cases hf : P.foreign s with
      | true => simp [Component.step, hc, hf] at h
      | false =>
        simp only [Component.step, hc, hf, Bool.false_eq_true, if_false,
          Option.map_eq_some_iff] at h
        obtain ⟨r, hr, rfl⟩ := h
        exact .inl ⟨s, rest, r, rfl, rfl, hf, hr, rfl⟩
  | call m =>
    cases hw : c.waiting P with
    | false => simp [Component.step, hw] at h
    | true =>
      simp only [Component.step, hw, if_true, Option.some.injEq] at h
      exact .inr (.inl ⟨m, rfl, rfl, h.symm⟩)
  | ret v =>
    cases hc : c.control with
    | nil => simp [Component.step, hc] at h
    | cons s rest =>
      cases hf : P.foreign s with
      | false => simp [Component.step, hc, hf] at h
      | true =>
        simp only [Component.step, hc, hf, if_true, Option.some.injEq] at h
        exact .inr (.inr ⟨v, s, rest, rfl, rfl, hf, h.symm⟩)

/-- When the client has control, the stack is empty or a foreign statement is on
top of it. -/
theorem waiting_cases {c : Config σ Stmt} (h : c.waiting P = true) :
    c.control = [] ∨ ∃ s rest, c.control = s :: rest ∧ P.foreign s = true := by
  cases hc : c.control with
  | nil => exact .inl rfl
  | cons s rest =>
    simp only [Config.waiting, hc] at h
    exact .inr ⟨s, rest, rfl, h⟩

/-- And conversely. -/
theorem waiting_of_head {c : Config σ Stmt} (h : ∀ s ∈ c.control.head?, P.foreign s = true) :
    c.waiting P = true := by
  unfold Config.waiting
  cases hc : c.control with
  | nil => rfl
  | cons s rest => exact h s (by rw [hc]; rfl)

/-! ## Invariants with a part for the stack -/

/-- An invariant of a configuration: of the state, of each pending statement
(which may mention the state), and of each pair of an upper and a lower pending
statement. -/
structure Invariant (σ Stmt : Type*) where
  global : σ → Prop
  frame : σ → Stmt → Prop
  below : Stmt → Stmt → Prop

/-- The invariant holds in a configuration. -/
structure Invariant.Holds (I : Invariant σ Stmt) (c : Config σ Stmt) : Prop where
  global : I.global c.state
  frame : ∀ s ∈ c.control, I.frame c.state s
  below : c.control.Pairwise I.below

/-- What must be shown when `push` goes on the stack and the state becomes `t`:
about the state, about `push` itself, and about every statement that may lie
under it, which is known to satisfy `under`. -/
structure Invariant.Preserved (I : Invariant σ Stmt) (s t : σ) (push : List Stmt)
    (under : Stmt → Prop) : Prop where
  global : I.global t
  frame : ∀ p ∈ push, I.frame t p
  below : push.Pairwise I.below
  rest : ∀ l, I.frame s l → under l → I.frame t l ∧ ∀ p ∈ push, I.below p l

/-- The rule for a step that replaces the head of the stack: only statements that
may lie under the head have to be considered. -/
theorem Invariant.Holds.replace {I : Invariant σ Stmt} {s t : σ} {x : Stmt} {push rest : List Stmt}
    (h : I.Holds ⟨s, x :: rest⟩)
    (hp : I.Preserved s t push (fun l => I.below x l)) : I.Holds ⟨t, push ++ rest⟩ := by
  have hb : (∀ l ∈ rest, I.below x l) ∧ rest.Pairwise I.below := List.pairwise_cons.1 h.below
  have hr : ∀ l ∈ rest, I.frame t l ∧ ∀ p ∈ push, I.below p l :=
    fun l hl => hp.rest l (h.frame l (List.mem_cons_of_mem _ hl)) (hb.1 l hl)
  refine ⟨hp.global, ?_, ?_⟩
  · intro l hl
    rcases List.mem_append.1 hl with hl | hl
    · exact hp.frame l hl
    · exact (hr l hl).1
  · exact List.pairwise_append.2 ⟨hp.below, hb.2, fun p hp' l hl => (hr l hl).2 p hp'⟩

/-- The rule for a call: the stack below is empty, or what lies there is the
foreign statement on top of it or lies under that one. -/
theorem Invariant.Holds.push {I : Invariant σ Stmt} {P : Component σ Stmt Call Ans}
    {c : Config σ Stmt} {t : σ} {push : List Stmt} (h : I.Holds c) (hw : c.waiting P = true)
    (hp : I.Preserved c.state t push
      (fun l => ∃ f, P.foreign f = true ∧ I.frame c.state f ∧ (l = f ∨ I.below f l))) :
    I.Holds ⟨t, push ++ c.control⟩ := by
  have hr : ∀ l ∈ c.control, I.frame t l ∧ ∀ p ∈ push, I.below p l := by
    intro l hl
    rcases waiting_cases hw with hnil | ⟨f, rest, hc, hf⟩
    · rw [hnil] at hl
      cases hl
    · refine hp.rest l (h.frame l hl) ⟨f, hf, h.frame f (by rw [hc]; exact List.mem_cons_self), ?_⟩
      have hb := h.below
      rw [hc] at hl hb
      rcases List.mem_cons.1 hl with rfl | hl
      · exact .inl rfl
      · exact .inr ((List.pairwise_cons.1 hb).1 l hl)
  refine ⟨hp.global, ?_, ?_⟩
  · intro l hl
    rcases List.mem_append.1 hl with hl | hl
    · exact hp.frame l hl
    · exact (hr l hl).1
  · exact List.pairwise_append.2 ⟨hp.below, h.below, fun p hp' l hl => (hr l hl).2 p hp'⟩

/-- An invariant is preserved by a step if it is by the statement executed, by the
call entered and by the answer taken. The three premises speak of the head of the
stack only. -/
theorem Invariant.Holds.step {I : Invariant σ Stmt} {c c' : Config σ Stmt} {a : Act Call Ans}
    (h : I.Holds c) (hs : P.step c a = some c')
    (hexec : ∀ x t push, a = .tick → c.control.head? = some x → I.global c.state →
      I.frame c.state x → P.exec c.state x = some (t, push) →
      I.Preserved c.state t push (fun l => I.below x l))
    (henter : ∀ m, a = .call m → I.global c.state →
      I.Preserved c.state (P.enter c.state m).1 (P.enter c.state m).2
        (fun l => ∃ f, P.foreign f = true ∧ I.frame c.state f ∧ (l = f ∨ I.below f l)))
    (hresume : ∀ x v, a = .ret v → c.control.head? = some x → I.global c.state →
      I.frame c.state x → P.foreign x = true →
      I.Preserved c.state (P.resume c.state x v).1 (P.resume c.state x v).2
        (fun l => I.below x l)) : I.Holds c' := by
  rcases step_cases hs with ⟨x, rest, r, ha, hc, -, hr, rfl⟩ | ⟨m, ha, hw, rfl⟩ |
    ⟨v, x, rest, ha, hc, hf, rfl⟩
  · have hx : I.frame c.state x := h.frame x (by rw [hc]; exact List.mem_cons_self)
    refine Invariant.Holds.replace (s := c.state) (x := x) ⟨h.global, ?_, ?_⟩
      (hexec x r.1 r.2 ha (by rw [hc]; rfl) h.global hx hr)
    · rw [← hc]; exact h.frame
    · rw [← hc]; exact h.below
  · exact h.push hw (henter m ha h.global)
  · have hx : I.frame c.state x := h.frame x (by rw [hc]; exact List.mem_cons_self)
    refine Invariant.Holds.replace (s := c.state) (x := x) ⟨h.global, ?_, ?_⟩
      (hresume x v ha (by rw [hc]; rfl) h.global hx hf)
    · rw [← hc]; exact h.frame
    · rw [← hc]; exact h.below

/-! ## What the state owes -/

/-- What the state owes, a pending statement pays. -/
def Owed (owes : σ → Prop) (pays : Stmt → Prop) (c : Config σ Stmt) : Prop :=
  owes c.state → ∃ x ∈ c.control, pays x

/-- A debt after a step is new, and what the step left pays it, or it is old, and it was not
the statement executed that pays it. -/
theorem Owed.step {owes : σ → Prop} {pays : Stmt → Prop} {c c' : Config σ Stmt}
    {a : Act Call Ans} (h : Owed owes pays c) (hs : P.step c a = some c')
    (hexec : ∀ x t push, a = .tick → c.control.head? = some x → P.foreign x = false →
      P.exec c.state x = some (t, push) → owes t →
      (∃ p ∈ push, pays p) ∨ (owes c.state ∧ ¬pays x))
    (henter : ∀ m, a = .call m → owes (P.enter c.state m).1 →
      (∃ p ∈ (P.enter c.state m).2, pays p) ∨ owes c.state)
    (hresume : ∀ x v, a = .ret v → c.control.head? = some x → P.foreign x = true →
      owes (P.resume c.state x v).1 →
      (∃ p ∈ (P.resume c.state x v).2, pays p) ∨ (owes c.state ∧ ¬pays x)) :
    Owed owes pays c' := by
  have hrest : ∀ x rest, c.control = x :: rest → owes c.state → ¬pays x →
      ∃ y ∈ rest, pays y := by
    intro x rest hc howes hx
    obtain ⟨y, hy, hpays⟩ := h howes
    rw [hc] at hy
    rcases List.mem_cons.1 hy with rfl | hy
    · exact absurd hpays hx
    · exact ⟨y, hy, hpays⟩
  rcases step_cases hs with ⟨x, rest, r, ha, hc, hf, hr, rfl⟩ | ⟨m, ha, -, rfl⟩ |
    ⟨v, x, rest, ha, hc, hf, rfl⟩
  · intro howes
    rcases hexec x r.1 r.2 ha (by rw [hc]; rfl) hf hr howes with ⟨p, hp, hpays⟩ | ⟨hold, hx⟩
    · exact ⟨p, List.mem_append_left _ hp, hpays⟩
    · obtain ⟨y, hy, hpays⟩ := hrest x rest hc hold hx
      exact ⟨y, List.mem_append_right _ hy, hpays⟩
  · intro howes
    rcases henter m ha howes with ⟨p, hp, hpays⟩ | hold
    · exact ⟨p, List.mem_append_left _ hp, hpays⟩
    · obtain ⟨y, hy, hpays⟩ := h hold
      exact ⟨y, List.mem_append_right _ hy, hpays⟩
  · intro howes
    rcases hresume x v ha (by rw [hc]; rfl) hf howes with ⟨p, hp, hpays⟩ | ⟨hold, hx⟩
    · exact ⟨p, List.mem_append_left _ hp, hpays⟩
    · obtain ⟨y, hy, hpays⟩ := hrest x rest hc hold hx
      exact ⟨y, List.mem_append_right _ hy, hpays⟩

/-! ## Quantities held by the state and the stack together -/

/-- The weight of the whole stack. -/
def total (w : Stmt → ℕ) (control : List Stmt) : ℕ := (control.map w).sum

@[simp] theorem total_nil (w : Stmt → ℕ) : total w [] = 0 := rfl

@[simp] theorem total_cons (w : Stmt → ℕ) (s : Stmt) (l : List Stmt) :
    total w (s :: l) = w s + total w l := by
  simp [total]

@[simp] theorem total_append (w : Stmt → ℕ) (l m : List Stmt) :
    total w (l ++ m) = total w l + total w m := by
  simp [total]

theorem total_eq_zero {w : Stmt → ℕ} {l : List Stmt} (h : ∀ s ∈ l, w s = 0) : total w l = 0 := by
  induction l with
  | nil => rfl
  | cons s l ih =>
    rw [total_cons, h s List.mem_cons_self, ih fun x hx => h x (List.mem_cons_of_mem _ hx)]

theorem total_le_of_mem {w : Stmt → ℕ} {l : List Stmt} {s : Stmt} (h : s ∈ l) :
    w s ≤ total w l := by
  induction l with
  | nil => cases h
  | cons x l ih =>
    rw [total_cons]
    rcases List.mem_cons.1 h with rfl | h
    · omega
    · have := ih h
      omega

/-- If each step moves weight between the stack and the quantity `q` of the state
without creating any, the two stay equal. -/
theorem gauge_step {w : Stmt → ℕ} {q : σ → ℕ} {c c' : Config σ Stmt} {a : Act Call Ans}
    (h : total w c.control = q c.state) (hs : P.step c a = some c')
    (hexec : ∀ s x t push, q s ≥ w x → P.exec s x = some (t, push) →
      total w push + q s = w x + q t)
    (henter : ∀ s m, total w (P.enter s m).2 + q s = q (P.enter s m).1)
    (hresume : ∀ s x v, P.foreign x = true →
      total w (P.resume s x v).2 + q s = w x + q (P.resume s x v).1) :
    total w c'.control = q c'.state := by
  rcases step_cases hs with ⟨x, rest, r, -, hc, -, hr, rfl⟩ | ⟨m, -, -, rfl⟩ |
    ⟨v, x, rest, -, hc, hf, rfl⟩
  · rw [hc, total_cons] at h
    have := hexec c.state x r.1 r.2 (by omega) hr
    simp only [total_append]
    omega
  · have := henter c.state m
    simp only [total_append]
    omega
  · rw [hc, total_cons] at h
    have := hresume c.state x v hf
    simp only [total_append]
    omega

/-! ## A component and the device its client drives -/

/-- A client with a state of its own: what an outside event makes of it, and which
function of the component it calls then; what happens when it returns from a handler,
and what it answers. It sees the component. -/
structure Device (σ τ Stmt Call Ans Ext Env : Type*) where
  enter : σ → τ → Ext → τ × Option Call
  resume : τ → Stmt → Env → τ × Ans

variable {τ Ext Env : Type*}

/-- The component with the device. -/
def Component.attach (P : Component σ Stmt Call Ans) (D : Device σ τ Stmt Call Ans Ext Env) :
    Component (σ × τ) Stmt Ext Env where
  exec s x := (P.exec s.1 x).map fun r => ((r.1, s.2), r.2)
  foreign := P.foreign
  resume s x v :=
    (((P.resume s.1 x (D.resume s.2 x v).2).1, (D.resume s.2 x v).1),
      (P.resume s.1 x (D.resume s.2 x v).2).2)
  enter s e :=
    match (D.enter s.1 s.2 e).2 with
    | some m => (((P.enter s.1 m).1, (D.enter s.1 s.2 e).1), (P.enter s.1 m).2)
    | none => ((s.1, (D.enter s.1 s.2 e).1), [])

/-- The component's part of a configuration. -/
def Config.inner (c : Config (σ × τ) Stmt) : Config σ Stmt := ⟨c.state.1, c.control⟩

/-- The four shapes of a step of the whole: the component's own, a function of it that is
called, an event that only the device sees, and the return from a handler. -/
theorem attach_cases {D : Device σ τ Stmt Call Ans Ext Env} {c c' : Config (σ × τ) Stmt}
    {a : Act Ext Env} (h : (P.attach D).step c a = some c') :
    (∃ s rest r, c.control = s :: rest ∧ P.foreign s = false ∧ P.exec c.state.1 s = some r ∧
      c' = ⟨(r.1, c.state.2), r.2 ++ rest⟩) ∨
    (∃ e m, a = .call e ∧ c.inner.waiting P = true ∧ (D.enter c.state.1 c.state.2 e).2 = some m ∧
      c' = ⟨((P.enter c.state.1 m).1, (D.enter c.state.1 c.state.2 e).1),
        (P.enter c.state.1 m).2 ++ c.control⟩) ∨
    (∃ e, a = .call e ∧ (D.enter c.state.1 c.state.2 e).2 = none ∧
      c' = ⟨(c.state.1, (D.enter c.state.1 c.state.2 e).1), c.control⟩) ∨
    (∃ v s rest, c.control = s :: rest ∧ P.foreign s = true ∧
      c' = ⟨((P.resume c.state.1 s (D.resume c.state.2 s v).2).1, (D.resume c.state.2 s v).1),
        (P.resume c.state.1 s (D.resume c.state.2 s v).2).2 ++ rest⟩) := by
  rcases step_cases h with ⟨s, rest, r, -, hc, hf, hr, rfl⟩ | ⟨e, rfl, hw, rfl⟩ |
    ⟨v, s, rest, -, hc, hf, rfl⟩
  · obtain ⟨r', hr', rfl⟩ := Option.map_eq_some_iff.1 hr
    exact .inl ⟨s, rest, r', hc, hf, hr', rfl⟩
  · cases he : (D.enter c.state.1 c.state.2 e).2 with
    | none => exact .inr (.inr (.inl ⟨e, rfl, he, by simp [Component.attach, he]⟩))
    | some m => exact .inr (.inl ⟨e, m, rfl, hw, he, by simp [Component.attach, he]⟩)
  · exact .inr (.inr (.inr ⟨v, s, rest, hc, hf, rfl⟩))

/-- Where the device can be made to call any function and to give any answer, every run
of the component is one of the whole. -/
theorem Reaches.attach {D : Device σ τ Stmt Call Ans Ext Env}
    (hcall : ∀ s t m, ∃ e, (D.enter s t e).2 = some m)
    (hret : ∀ t s v, ∃ e, (D.resume t s e).2 = v) {c c' : Config σ Stmt}
    (h : P.Reaches anyCall c c') (t : τ) :
    ∃ d, (P.attach D).Reaches anyCall ⟨(c.state, t), c.control⟩ d ∧ d.inner = c' := by
  induction h with
  | refl => exact ⟨_, Relation.ReflTransGen.refl, rfl⟩
  | tail _ hmove ih =>
    obtain ⟨d, hd, rfl⟩ := ih
    obtain ⟨a, -, hs⟩ := hmove
    -- the step of the whole that does to the component what `a` does
    suffices hstep : ∃ b d', (P.attach D).step d b = some d' ∧ d'.inner = _ by
      obtain ⟨b, d', hb, hd'⟩ := hstep
      exact ⟨d', hd.tail ⟨b, fun _ _ => trivial, hb⟩, hd'⟩
    rcases step_cases hs with ⟨s, rest, r, -, hc, hf, hr, rfl⟩ | ⟨m, -, hw, rfl⟩ |
      ⟨v, s, rest, -, hc, hf, rfl⟩
    · have hc' : d.control = s :: rest := hc
      refine ⟨.tick, ⟨((r.1, d.state.2)), r.2 ++ rest⟩, ?_, rfl⟩
      have hr' : P.exec d.state.1 s = some r := hr
      simp [Component.step, Component.attach, hc', hf, hr']
    · obtain ⟨e, he⟩ := hcall d.state.1 d.state.2 m
      have hw' : d.waiting (P.attach D) = true := hw
      refine ⟨.call e, _, by simp only [Component.step, hw', if_true]; rfl, ?_⟩
      simp [Component.attach, he, Config.inner]
    · have hc' : d.control = s :: rest := hc
      obtain ⟨e, he⟩ := hret d.state.2 s v
      have hf' : (P.attach D).foreign s = true := hf
      refine ⟨.ret e, _, by simp only [Component.step, hc', hf', if_true]; rfl, ?_⟩
      simp [Component.attach, he, Config.inner]

end Reentrant
