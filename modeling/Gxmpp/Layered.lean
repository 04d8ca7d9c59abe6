/-
A component under a layer of code that is known.

The client of a component is often part of the same program: it serves some of the
component's calls itself and leaves the rest to its own client. The layer here is such code.
It has a state and statements of its own; it may call the component, and where the component
calls one of the handlers it serves, its code runs before the component goes on. The layer
and the component together are again a component (`Component.over`), whose client is what
is left outside.

`Reaches.project` is what the layer is for: seen from below, a run of the whole is a run of
the component under some client. So what is known of every run of the component holds of
the whole.
-/
import Gxmpp.Reentrant
import Mathlib.Data.List.Chain

set_option autoImplicit false

namespace Reentrant

/-! ## The layer -/

/-- A pending statement of the whole. -/
inductive Frame (Stmt L Call : Type*) where
  /-- a statement of the component -/
  | inner (s : Stmt)
  /-- the component waits at `s` for the code of the layer above it -/
  | serving (s : Stmt)
  /-- a statement of the layer -/
  | layer (l : L)
  /-- the layer calls the component -/
  | call (m : Call)

/-- What the layer has to do next: statements of its own, and calls of the component. -/
abbrev Code (L Call : Type*) := List (L ⊕ Call)

/-- The code of a layer, as pending statements. -/
def Code.frames {Stmt L Call : Type*} (code : Code L Call) : List (Frame Stmt L Call) :=
  code.map (Sum.elim .layer .call)

/-- A layer over a component with state `σ`; its own state is in `τ`, its statements in `L`. -/
structure Layer (σ τ Stmt Call Ans L Ext Env : Type*) where
  /-- The code that serves a handler of the component, if the layer serves it. -/
  serves : Stmt → Option (Code L Call)
  /-- The answer of a handler that was served. -/
  served : Ans
  /-- The answer of a handler that was not. -/
  answer : Env → Ans
  /-- Executes a statement of the layer. -/
  exec : σ → τ → L → Option (τ × Code L Call)
  /-- The statements of the layer at which its own client is running. -/
  foreign : L → Bool
  /-- What the layer does with the answer of its client. -/
  resume : σ → τ → L → Env → τ × Code L Call
  /-- The entry of a function of the layer. -/
  enter : σ → τ → Ext → τ × Code L Call

variable {σ τ Stmt Call Ans L Ext Env : Type*}

/-- The component with the layer over it. -/
def Component.over (P : Component σ Stmt Call Ans) (D : Layer σ τ Stmt Call Ans L Ext Env) :
    Component (σ × τ) (Frame Stmt L Call) Ext Env where
  exec s
    | .inner x =>
      if P.foreign x then (D.serves x).map fun code => (s, code.frames ++ [.serving x])
      else (P.exec s.1 x).map fun r => ((r.1, s.2), r.2.map .inner)
    | .serving x =>
      let r := P.resume s.1 x D.served
      some ((r.1, s.2), r.2.map .inner)
    | .layer l => (D.exec s.1 s.2 l).map fun r => ((s.1, r.1), r.2.frames)
    | .call m =>
      let r := P.enter s.1 m
      some ((r.1, s.2), r.2.map .inner)
  foreign
    | .inner x => P.foreign x && (D.serves x).isNone
    | .layer l => D.foreign l
    | .serving _ | .call _ => false
  resume s
    | .inner x, v =>
      let r := P.resume s.1 x (D.answer v)
      ((r.1, s.2), r.2.map .inner)
    | .layer l, v =>
      let r := D.resume s.1 s.2 l v
      ((s.1, r.1), r.2.frames)
    | .serving _, _ | .call _, _ => (s, [])
  enter s e :=
    let r := D.enter s.1 s.2 e
    ((s.1, r.1), r.2.frames)

variable {P : Component σ Stmt Call Ans} {D : Layer σ τ Stmt Call Ans L Ext Env}

/-- The shapes of a step of the whole: a statement of the component or of the layer, a
handler that is served and its return, a call of the component, an event, and the two
returns of the client. -/
inductive OverStep (P : Component σ Stmt Call Ans) (D : Layer σ τ Stmt Call Ans L Ext Env)
    (c : Config (σ × τ) (Frame Stmt L Call)) :
    Act Ext Env → Config (σ × τ) (Frame Stmt L Call) → Prop where
  | inner {x rest r} (hc : c.control = .inner x :: rest) (hf : P.foreign x = false)
      (hr : P.exec c.state.1 x = some r) :
      OverStep P D c .tick ⟨(r.1, c.state.2), r.2.map .inner ++ rest⟩
  | serve {x rest code} (hc : c.control = .inner x :: rest) (hf : P.foreign x = true)
      (hs : D.serves x = some code) :
      OverStep P D c .tick ⟨c.state, code.frames ++ .serving x :: rest⟩
  | served {x rest} (hc : c.control = .serving x :: rest) :
      OverStep P D c .tick ⟨((P.resume c.state.1 x D.served).1, c.state.2),
        (P.resume c.state.1 x D.served).2.map .inner ++ rest⟩
  | layer {l rest r} (hc : c.control = .layer l :: rest) (hf : D.foreign l = false)
      (hr : D.exec c.state.1 c.state.2 l = some r) :
      OverStep P D c .tick ⟨(c.state.1, r.1), r.2.frames ++ rest⟩
  | call {m rest} (hc : c.control = .call m :: rest) :
      OverStep P D c .tick ⟨((P.enter c.state.1 m).1, c.state.2),
        (P.enter c.state.1 m).2.map .inner ++ rest⟩
  | event {e} (hw : c.waiting (P.over D) = true) :
      OverStep P D c (.call e) ⟨(c.state.1, (D.enter c.state.1 c.state.2 e).1),
        (D.enter c.state.1 c.state.2 e).2.frames ++ c.control⟩
  | returned {x rest v} (hc : c.control = .inner x :: rest) (hf : P.foreign x = true)
      (hs : D.serves x = none) :
      OverStep P D c (.ret v) ⟨((P.resume c.state.1 x (D.answer v)).1, c.state.2),
        (P.resume c.state.1 x (D.answer v)).2.map .inner ++ rest⟩
  | resumed {l rest v} (hc : c.control = .layer l :: rest) (hf : D.foreign l = true) :
      OverStep P D c (.ret v) ⟨(c.state.1, (D.resume c.state.1 c.state.2 l v).1),
        (D.resume c.state.1 c.state.2 l v).2.frames ++ rest⟩

/-- Every step of the whole has one of these shapes. -/
theorem over_step {c c' : Config (σ × τ) (Frame Stmt L Call)} {a : Act Ext Env}
    (h : (P.over D).step c a = some c') : OverStep P D c a c' := by
  rcases step_cases h with ⟨x, rest, r, rfl, hc, hf, hr, rfl⟩ | ⟨e, rfl, hw, rfl⟩ |
    ⟨v, x, rest, rfl, hc, hf, rfl⟩
  · cases x with
    | inner x =>
      have hr : (if P.foreign x = true then
          (D.serves x).map fun code => (c.state, code.frames ++ [Frame.serving x])
        else (P.exec c.state.1 x).map fun r => ((r.1, c.state.2), r.2.map .inner)) = some r := hr
      cases hx : P.foreign x with
      | true =>
        rw [hx, if_pos rfl] at hr
        obtain ⟨code, hs, rfl⟩ := Option.map_eq_some_iff.1 hr
        have happ : (code.frames ++ [Frame.serving x]) ++ rest
            = code.frames ++ Frame.serving x :: rest := List.append_assoc _ _ _
        rw [show (⟨(c.state, code.frames ++ [Frame.serving x]).1,
          (c.state, code.frames ++ [Frame.serving x]).2 ++ rest⟩ : Config _ _)
            = ⟨c.state, code.frames ++ Frame.serving x :: rest⟩ from by rw [← happ]]
        exact .serve hc hx hs
      | false =>
        rw [hx, if_neg Bool.false_ne_true] at hr
        obtain ⟨r', hr', rfl⟩ := Option.map_eq_some_iff.1 hr
        exact .inner hc hx hr'
    | serving x =>
      obtain rfl := Option.some.inj hr
      exact .served hc
    | layer l =>
      obtain ⟨r', hr', rfl⟩ := Option.map_eq_some_iff.1 hr
      exact .layer hc hf hr'
    | call m =>
      obtain rfl := Option.some.inj hr
      exact .call hc
  · exact .event hw
  · cases x with
    | inner x =>
      have hx := Bool.and_eq_true_iff.1 hf
      exact .returned hc hx.1 (Option.isNone_iff_eq_none.1 hx.2)
    | serving | call => exact absurd hf Bool.false_ne_true
    | layer l => exact .resumed hc hf

/-- And what has one of these shapes is a step. -/
theorem OverStep.step {c c' : Config (σ × τ) (Frame Stmt L Call)} {a : Act Ext Env}
    (h : OverStep P D c a c') : (P.over D).step c a = some c' := by
  cases h with
  | inner hc hf hr | layer hc hf hr => simp [Component.step, Component.over, hc, hf, hr]
  | serve hc hf hs | returned hc hf hs => simp [Component.step, Component.over, hc, hf, hs]
  | served hc | call hc => simp [Component.step, Component.over, hc]
  | event hw =>
    simp only [Component.step, hw, if_true]
    rfl
  | resumed hc hf => simp [Component.step, Component.over, hc, hf]

/-- A client that makes no calls: it only returns. -/
def noCall (_ : Config σ Stmt) (_ : Call) : Prop := False

/-- A step that is not a call is a run without calls. -/
theorem OverStep.reaches {c c' : Config (σ × τ) (Frame Stmt L Call)} {a : Act Ext Env}
    (h : OverStep P D c a c') (ha : ∀ e, a ≠ .call e) : (P.over D).Reaches noCall c c' :=
  Relation.ReflTransGen.single ⟨a, fun e he => absurd he (ha e), h.step⟩

/-! ## The run of the component -/

/-- The component's part of a pending statement. -/
def Frame.stmt? : Frame Stmt L Call → Option Stmt
  | .inner s | .serving s => some s
  | .layer _ | .call _ => none

/-- The component's part of the control stack. -/
def inners (control : List (Frame Stmt L Call)) : List Stmt := control.filterMap Frame.stmt?

/-- The component's part of a configuration. -/
def Config.project (c : Config (σ × τ) (Frame Stmt L Call)) : Config σ Stmt :=
  ⟨c.state.1, inners c.control⟩

@[simp] theorem inners_inner (s : Stmt) (l : List (Frame Stmt L Call)) :
    inners (.inner s :: l) = s :: inners l := rfl

@[simp] theorem inners_serving (s : Stmt) (l : List (Frame Stmt L Call)) :
    inners (.serving s :: l) = s :: inners l := rfl

@[simp] theorem inners_call (m : Call) (l : List (Frame Stmt L Call)) :
    inners (.call m :: l) = inners l := rfl

@[simp] theorem inners_append (l₁ l₂ : List (Frame Stmt L Call)) :
    inners (l₁ ++ l₂) = inners l₁ ++ inners l₂ := List.filterMap_append

@[simp] theorem inners_map_inner (l : List Stmt) :
    inners (l.map (Frame.inner : Stmt → Frame Stmt L Call)) = l := by
  induction l with
  | nil => rfl
  | cons s l ih => rw [List.map_cons, inners_inner, ih]

@[simp] theorem inners_frames (code : Code L Call) :
    inners (code.frames : List (Frame Stmt L Call)) = [] := by
  induction code with
  | nil => rfl
  | cons x code ih => cases x <;> exact ih

/-- The layer is at work only where the component waits for its client: in the control stack
below a statement of the layer the first one of the component is foreign, and so is each
that is being served. -/
def Stacked (P : Component σ Stmt Call Ans) : List (Frame Stmt L Call) → Prop
  | [] => True
  | .inner _ :: rest => Stacked P rest
  | .serving s :: rest => P.foreign s = true ∧ Stacked P rest
  | .layer _ :: rest => (∀ s ∈ (inners rest).head?, P.foreign s = true) ∧ Stacked P rest
  | .call _ :: rest => (∀ s ∈ (inners rest).head?, P.foreign s = true) ∧ Stacked P rest

theorem Stacked.inner_append {l : List Stmt} {rest : List (Frame Stmt L Call)}
    (h : Stacked P rest) : Stacked P (l.map .inner ++ rest) := by
  induction l with
  | nil => exact h
  | cons s l ih => exact ih

theorem Stacked.frames_append {code : Code L Call} {rest : List (Frame Stmt L Call)}
    (h : Stacked P rest) (hhead : ∀ s ∈ (inners rest).head?, P.foreign s = true) :
    Stacked P (code.frames ++ rest) := by
  induction code with
  | nil => exact h
  | cons x code ih =>
    have hinner : inners (Code.frames code ++ rest) = inners rest := by
      rw [inners_append, inners_frames, List.nil_append]
    cases x with
    | inl | inr => exact ⟨by rw [← hinner] at hhead; exact hhead, ih⟩

/-- Where the client of the whole has control, so has that of the component. -/
theorem Stacked.head_foreign {c : Config (σ × τ) (Frame Stmt L Call)} (h : Stacked P c.control)
    (hw : c.waiting (P.over D) = true) :
    ∀ s ∈ (inners c.control).head?, P.foreign s = true := by
  intro s hs
  rcases waiting_cases hw with hnil | ⟨x, rest, hc, hf⟩
  · rw [hnil] at hs
    cases hs
  · rw [hc] at h hs
    cases x with
    | inner x =>
      obtain rfl : x = s := Option.some.inj hs
      exact (Bool.and_eq_true_iff.1 hf).1
    | serving | call => exact absurd hf Bool.false_ne_true
    | layer l => exact h.1 s hs

/-- A step of the whole is a step of the component, or none. -/
theorem OverStep.project {c c' : Config (σ × τ) (Frame Stmt L Call)} {a : Act Ext Env}
    (h : OverStep P D c a c') (hn : Stacked P c.control) :
    Stacked P c'.control ∧
      (c'.project = c.project ∨ ∃ b : Act Call Ans, P.step c.project b = some c'.project) := by
  cases h with
  | @inner x rest r hc hf hr =>
    rw [hc] at hn
    refine ⟨Stacked.inner_append hn, Or.inr ⟨.tick, ?_⟩⟩
    have hp : c.project = ⟨c.state.1, x :: inners rest⟩ := by
      unfold Config.project
      rw [hc, inners_inner]
    rw [hp]
    simp [Component.step, hf, hr, Config.project]
  | @serve x rest code hc hf hs =>
    rw [hc] at hn
    have hserving : Stacked P (Frame.serving x :: rest) := ⟨hf, hn⟩
    refine ⟨Stacked.frames_append hserving fun s hs => ?_, Or.inl ?_⟩
    · obtain rfl : x = s := Option.some.inj hs
      exact hf
    · unfold Config.project
      rw [hc, inners_append, inners_frames]
      rfl
  | @served x rest hc =>
    rw [hc] at hn
    refine ⟨Stacked.inner_append hn.2, Or.inr ⟨.ret D.served, ?_⟩⟩
    have hp : c.project = ⟨c.state.1, x :: inners rest⟩ := by
      unfold Config.project
      rw [hc, inners_serving]
    rw [hp]
    simp [Component.step, hn.1, Config.project]
  | @layer l rest r hc | @resumed l rest v hc =>
    rw [hc] at hn
    refine ⟨Stacked.frames_append hn.2 hn.1, Or.inl ?_⟩
    unfold Config.project
    rw [hc, inners_append, inners_frames]
    rfl
  | @call m rest hc =>
    rw [hc] at hn
    refine ⟨Stacked.inner_append hn.2, Or.inr ⟨.call m, ?_⟩⟩
    have hp : c.project = ⟨c.state.1, inners rest⟩ := by
      unfold Config.project
      rw [hc, inners_call]
    have hw : (⟨c.state.1, inners rest⟩ : Config σ Stmt).waiting P = true :=
      waiting_of_head hn.1
    rw [hp]
    simp [Component.step, hw, Config.project]
  | @event e hw =>
    refine ⟨Stacked.frames_append hn (hn.head_foreign hw), Or.inl ?_⟩
    unfold Config.project
    rw [inners_append, inners_frames]
    rfl
  | @returned x rest v hc hf hs =>
    rw [hc] at hn
    refine ⟨Stacked.inner_append hn, Or.inr ⟨.ret (D.answer v), ?_⟩⟩
    have hp : c.project = ⟨c.state.1, x :: inners rest⟩ := by
      unfold Config.project
      rw [hc, inners_inner]
    rw [hp]
    simp [Component.step, hf, Config.project]

/-- **Projection.** A run of the whole is a run of the component. -/
theorem Reaches.project {G : Rules (σ × τ) (Frame Stmt L Call) Ext}
    {c c' : Config (σ × τ) (Frame Stmt L Call)} (h : (P.over D).Reaches G c c')
    (hn : Stacked P c.control) :
    P.Reaches anyCall c.project c'.project ∧ Stacked P c'.control := by
  induction h with
  | refl => exact ⟨Relation.ReflTransGen.refl, hn⟩
  | tail _ hmove ih =>
    obtain ⟨a, -, hs⟩ := hmove
    obtain ⟨hn', hsame | ⟨b, hb⟩⟩ := (over_step hs).project ih.2
    · exact ⟨hsame ▸ ih.1, hn'⟩
    · exact ⟨ih.1.tail ⟨b, fun _ _ => trivial, hb⟩, hn'⟩

/-! ## Statements that must not run too early -/

section Primed

variable {α : Type*}

/-- Every pending statement may run when its turn comes: it may run now (`ok`), or what stands
directly above it makes sure of that (`gives`). -/
structure Primed (ok : α → Prop) (gives : α → α → Prop) (control : List α) : Prop where
  head : ∀ x ∈ control.head?, ok x
  chain : control.IsChain fun x y => ok y ∨ gives x y

variable {ok ok' : α → Prop} {gives : α → α → Prop}

theorem Primed.nil : Primed ok gives ([] : List α) := ⟨nofun, List.isChain_nil⟩

/-- Statements that may all run now. -/
theorem Primed.of_all {l : List α} (h : ∀ x ∈ l, ok x) : Primed ok gives l where
  head x hx := h x (List.mem_of_mem_head? hx)
  chain := by
    induction l with
    | nil => exact List.isChain_nil
    | cons x l ih =>
      refine List.isChain_cons.2 ⟨fun y hy => Or.inl (h y ?_), ih fun y hy => h y ?_⟩
      · exact List.mem_cons_of_mem x (List.mem_of_mem_head? hy)
      · exact List.mem_cons_of_mem x hy

/-- What goes on top of a stack whose head may run. -/
theorem Primed.append {push rest : List α} (hrest : Primed ok gives rest)
    (hpush : Primed ok gives push) : Primed ok gives (push ++ rest) where
  head x hx := by
    cases push with
    | nil => exact hrest.head x hx
    | cons p push => exact hpush.head x hx
  chain := List.isChain_append.2
    ⟨hpush.chain, hrest.chain, fun _ _ y hy => Or.inl (hrest.head y hy)⟩

theorem Primed.mono {l : List α} (h : Primed ok gives l) (hmono : ∀ x ∈ l, ok x → ok' x) :
    Primed ok' gives l where
  head x hx := hmono x (List.mem_of_mem_head? hx) (h.head x hx)
  chain := by
    have hchain := h.chain
    clear h
    induction l with
    | nil => exact List.isChain_nil
    | cons x l ih =>
      obtain ⟨hx, hl⟩ := List.isChain_cons.1 hchain
      refine List.isChain_cons.2
        ⟨fun y hy => ?_, ih (fun y hy => hmono y (List.mem_cons_of_mem x hy)) hl⟩
      have hmem : y ∈ x :: l := List.mem_cons_of_mem x (List.mem_of_mem_head? hy)
      exact (hx y hy).imp_left (hmono y hmem)

/-- The statement below one that has run. -/
theorem Primed.tail {x : α} {rest : List α} (h : Primed ok gives (x :: rest))
    (hmono : ∀ y ∈ rest, ok y → ok' y) (hgives : ∀ y ∈ rest, gives x y → ok' y) :
    Primed ok' gives rest := by
  obtain ⟨hx, hchain⟩ := List.isChain_cons.1 h.chain
  refine ⟨fun y hy => ?_, ?_⟩
  · have hmem : y ∈ rest := List.mem_of_mem_head? hy
    exact (hx y hy).elim (hmono y hmem) (hgives y hmem)
  · have hrest : Primed (fun y => ok y ∨ ok' y) gives rest :=
      ⟨fun y hy => (hx y hy).imp_right (hgives y (List.mem_of_mem_head? hy)),
        hchain.imp fun _ _ => Or.imp_left Or.inl⟩
    exact (hrest.mono fun y hy h => h.elim (hmono y hy) id).chain

end Primed

end Reentrant
