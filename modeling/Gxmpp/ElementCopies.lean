/-
`talk/xmllite/xmlelement.cc`: what is done to a copy of an element is not done to the element.

A copy is a tree of the same value in cells of its own (`copyChild_spec`). Every function that
changes an element follows pointers from where it is called and from what it is given, and puts
no others into a cell, so it stays in a region of cells whose pointers do not lead out of it. The
copy is such a region and has no cell in common with the one that the original is in. This holds
whatever was done to either, in any order (`copies_apart`), also where `last_child_` is not the
last child.
-/
import Gxmpp.AttrMap

set_option autoImplicit false

namespace Gxmpp.XmlCells

open Linked

/-! ## 1. What stays in a region -/

theorem attrEnds_traced : attrEnds.Traced Cell.pointers where
  get := by
    rintro (_ | _ | e) q hq p hp
    · cases hq
    · cases hq
    · obtain rfl := Option.some_inj.1 hq
      rcases hp with hp | hp <;> simp [Cell.pointers, Option.mem_toList.2 hp]
  set := by
    rintro q (_ | _ | e) p hp
    · cases hp
    · cases hp
    · simp only [attrEnds, Cell.pointers, List.mem_append, Option.mem_toList] at hp ⊢
      tauto

theorem childEnds_traced : childEnds.Traced Cell.pointers where
  get := by
    rintro (_ | _ | e) q hq p hp
    · cases hq
    · cases hq
    · obtain rfl := Option.some_inj.1 hq
      rcases hp with hp | hp <;> simp [Cell.pointers, Option.mem_toList.2 hp]
  set := by
    rintro q (_ | _ | e) p hp
    · cases hp
    · cases hp
    · simp only [childEnds, Cell.pointers, List.mem_append, Option.mem_toList] at hp ⊢
      tauto

section

variable {A : Set ℕ} {this : ℕ}

/-- A program that is done in a region. -/
abbrev Inside {β : Type} (A : Set ℕ) (m : Mem Cell β) : Prop :=
  Within Cell.pointers A m fun _ _ => True

theorem inside_modifyFields (ht : this ∈ A) {f : Fields → Fields}
    (hf : ∀ e, (Cell.element (f e)).pointers = (Cell.element e).pointers) :
    Inside A (modifyFields this f) := by
  refine .modifyValue ht fun v w hw b hb => ?_
  cases v with
  | attr | text => cases hw
  | element e =>
    obtain rfl := Option.some_inj.1 hw
    rw [hf] at hb
    exact .inl hb

theorem inside_modifyText (ht : this ∈ A) (f : Str → Str) : Inside A (modifyText this f) := by
  refine .modifyValue ht fun v w hw b hb => ?_
  cases v with
  | attr | element => cases hw
  | text t =>
    obtain rfl := Option.some_inj.1 hw
    cases hb

theorem inside_modifyAttr (ht : this ∈ A) (f : XmlAttr → XmlAttr) :
    Inside A (modifyAttr this f) := by
  refine .modifyValue ht fun v w hw b hb => ?_
  cases v with
  | attr a =>
    obtain rfl := Option.some_inj.1 hw
    cases hb
  | text | element => cases hw

theorem within_newText (text : Str) :
    Within Cell.pointers A (newText text) fun a B => a ∈ B :=
  .new fun _ hp => absurd hp List.not_mem_nil

theorem within_newElement (name : QName) (useDefaultNs : Bool) :
    Within Cell.pointers A (newElement name useDefaultNs) fun a B => a ∈ B := by
  cases useDefaultNs with
  | false => exact .new fun p hp => absurd hp List.not_mem_nil
  | true =>
    refine .bind (.new fun p hp => absurd hp List.not_mem_nil) fun a B _ ha => .new fun p hp => ?_
    obtain rfl : p = a := by simpa [Cell.pointers] using hp
    exact ha

/-- The pointers of a member are pointers of the cell. -/
theorem pointers_mem {n : Node Cell} (hn : ∀ p ∈ n.pointers Cell.pointers, p ∈ A) {e : Fields}
    (he : n.value = .element e) :
    (∀ p ∈ e.firstAttr, p ∈ A) ∧ (∀ p ∈ e.firstChild, p ∈ A) := by
  have hmem : ∀ p ∈ (Cell.element e).pointers, p ∈ A := fun p hp =>
    hn p (List.mem_append.2 (.inr (he ▸ hp)))
  constructor
  · intro p hp
    exact hmem p (by simp [Cell.pointers, Option.mem_toList.2 hp])
  · intro p hp
    exact hmem p (by simp [Cell.pointers, Option.mem_toList.2 hp])

theorem inside_deleteFrom (n : ℕ) (ht : this ∈ A) : Inside A (deleteFrom n this) := by
  induction n generalizing A this with
  | zero => exact .failure
  | succ n ih =>
    refine .bind (.load ht) fun c B hAB hc => ?_
    obtain ⟨value, next⟩ := c
    cases value with
    | attr a => exact .failure
    | text t => exact .delete (hAB ht)
    | element e =>
      obtain ⟨hattr, hchild⟩ := pointers_mem hc rfl
      refine .bind (.clearFrom (fun a C _ ha => .delete ha) hattr) fun _ C hBC _ => ?_
      refine .bind (.clearFrom (fun a D _ ha => ih ha) fun p hp => hBC (hchild p hp))
        fun _ D hCD _ => ?_
      exact .delete (hCD (hBC (hAB ht)))

theorem inside_deleteChild (ht : this ∈ A) : Inside A (deleteChild this) :=
  .bind .size fun n _ hAB _ => inside_deleteFrom n (hAB ht)

/-- What is copied may be anywhere. -/
theorem within_copyAttr (a : ℕ) : Within Cell.pointers A (copyAttr a) fun x B => x ∈ B := by
  refine .bind (.peek a) fun c B _ _ => ?_
  obtain ⟨value, next⟩ := c
  cases value with
  | attr a => exact .new fun p hp => absurd hp List.not_mem_nil
  | text | element => exact .failure

theorem within_copyFrom (n elt : ℕ) :
    Within Cell.pointers A (copyFrom n elt) fun x B => x ∈ B := by
  induction n generalizing A elt with
  | zero => exact .failure
  | succ n ih =>
    refine .bind (.peek elt) fun c B _ _ => ?_
    obtain ⟨value, next⟩ := c
    have hnone : ∀ {C : Set ℕ}, ∀ a ∈ (none : Option ℕ), a ∈ C := fun a ha => by cases ha
    cases value with
    | attr a => exact .failure
    | text t => exact within_newText t
    | element e =>
      refine .bind (within_newElement _ _) fun x C _ hx => ?_
      refine .bind (.copyFrom attrEnds_traced (fun a D _ => within_copyAttr a) hx hnone)
        fun newAttr D hCD hattr => ?_
      refine .bind (.setLast attrEnds_traced (hCD hx) hattr) fun _ E hDE _ => ?_
      refine .bind (.copyFrom childEnds_traced (fun a F _ => ih a) (hDE (hCD hx)) hnone)
        fun newChild F hEF hchild => ?_
      refine .bind (.setLast childEnds_traced (hEF (hDE (hCD hx))) hchild) fun _ G hFG _ => ?_
      have hxG := hFG (hEF (hDE (hCD hx)))
      refine .bind (inside_modifyFields hxG fun e => rfl) fun _ H hGH _ => ?_
      exact .pure (hGH hxG)

theorem within_copyChild (elt : ℕ) : Within Cell.pointers A (copyChild elt) fun x B => x ∈ B :=
  .bind .size fun n _ _ _ => within_copyFrom n elt

/-! ## 2. The functions that change an element -/

theorem within_findAttr (ht : this ∈ A) (name : QName) :
    Within Cell.pointers A (findAttr this name) fun v B =>
      (∀ a ∈ v.1, a ∈ B) ∧ ∀ a ∈ v.2, a ∈ B := by
  refine .bind (.loadEnds attrEnds_traced ht) fun ends B _ hends => ?_
  refine .bind .size fun n C hBC _ => ?_
  exact .search (fun a ha => by cases ha) fun a ha => hBC (hends.1 a ha)

theorem inside_setName (ht : this ∈ A) (name : QName) : Inside A (setName this name) :=
  inside_modifyFields ht fun _ => rfl

theorem inside_addAttr (ht : this ∈ A) (name : QName) (value : Str) :
    Inside A (addAttr this name value) := by
  refine .bind (.new fun p hp => absurd hp List.not_mem_nil) fun a B hAB ha => ?_
  exact .append attrEnds_traced (hAB ht) ha

theorem inside_setAttr (ht : this ∈ A) (name : QName) (value : Str) :
    Inside A (setAttr this name value) := by
  refine .bind (within_findAttr ht name) ?_
  rintro ⟨prev, found⟩ B hAB ⟨-, hfound⟩
  cases found with
  | none => exact inside_addAttr (hAB ht) name value
  | some a => exact inside_modifyAttr (hfound a rfl) _

theorem inside_clearAttr (ht : this ∈ A) (name : QName) : Inside A (clearAttr this name) := by
  refine .bind (within_findAttr ht name) ?_
  rintro ⟨prev, found⟩ B hAB ⟨hprev, hfound⟩
  cases found with
  | none => exact .pure trivial
  | some a =>
    refine .bind (.unlink attrEnds_traced (hAB ht) hprev (hfound a rfl)) fun _ C hBC _ => ?_
    exact .delete (hBC (hfound a rfl))

theorem inside_clearAttributes (ht : this ∈ A) : Inside A (clearAttributes this) := by
  have hnone : ∀ {C : Set ℕ}, ∀ a ∈ (none : Option ℕ), a ∈ C := fun a ha => by cases ha
  refine .bind (.loadEnds attrEnds_traced ht) fun ends B hAB hends => ?_
  refine .bind .size fun n C hBC _ => ?_
  refine .bind (.clearFrom (fun a D _ ha => .delete ha) fun a ha => hBC (hends.1 a ha))
    fun _ D hCD _ => ?_
  have htD := hCD (hBC (hAB ht))
  exact .bind (.setLast attrEnds_traced htD hnone) fun _ E hDE _ =>
    .setFirst attrEnds_traced (hDE htD) hnone

theorem inside_clearChildren (ht : this ∈ A) : Inside A (clearChildren this) := by
  have hnone : ∀ {C : Set ℕ}, ∀ a ∈ (none : Option ℕ), a ∈ C := fun a ha => by cases ha
  refine .bind (.loadEnds childEnds_traced ht) fun ends B hAB hends => ?_
  refine .bind .size fun n C hBC _ => ?_
  refine .bind (.clearFrom (fun a D _ ha => inside_deleteChild ha) fun a ha => hBC (hends.1 a ha))
    fun _ D hCD _ => ?_
  have htD := hCD (hBC (hAB ht))
  exact .bind (.setLast childEnds_traced htD hnone) fun _ E hDE _ =>
    .setFirst childEnds_traced (hDE htD) hnone

theorem inside_appendText (ht : this ∈ A) (text : Str) : Inside A (appendText this text) :=
  .bind (within_newText text) fun _ _ hAB hc => .append childEnds_traced (hAB ht) hc

theorem inside_addParsedText (ht : this ∈ A) (text : Str) :
    Inside A (addParsedText this text) := by
  unfold addParsedText
  by_cases htext : text.isEmpty = true
  · rw [if_pos htext]
    exact .pure trivial
  rw [if_neg htext]
  refine .bind (.loadEnds childEnds_traced ht) ?_
  rintro ⟨firstChild, lastChild⟩ B hAB ⟨-, hlast⟩
  cases lastChild with
  | none => exact inside_appendText (hAB ht) text
  | some c =>
    refine .bind (.load (hlast c rfl)) fun n C hBC _ => ?_
    by_cases hn : n.value.isText = true
    · rw [if_pos hn]
      exact inside_modifyText (hBC (hlast c rfl)) _
    · rw [if_neg hn]
      exact inside_appendText (hBC (hAB ht)) text

theorem inside_addCDATAText (ht : this ∈ A) (text : Str) : Inside A (addCDATAText this text) :=
  .bind (inside_modifyFields ht fun _ => rfl) fun _ _ hAB _ => inside_addParsedText (hAB ht) text

theorem inside_addElement (ht : this ∈ A) {child : Option ℕ} (hc : ∀ c ∈ child, c ∈ A) :
    Inside A (addElement this child) := by
  cases child with
  | none => exact .pure trivial
  | some c =>
    refine .bind (.append childEnds_traced ht (hc c rfl)) fun _ B hAB _ => ?_
    exact .setNext (hAB (hc c rfl)) fun a ha => by cases ha

theorem within_descend (depth : ℕ) (ht : this ∈ A) :
    Within Cell.pointers A (descend depth this) fun a B => a ∈ B := by
  induction depth generalizing A this with
  | zero => exact .pure ht
  | succ depth ih =>
    refine .bind (.loadEnds childEnds_traced ht) fun ends B _ hends => ?_
    exact .bind (.deref hends.2) fun c C _ hc => ih hc

theorem inside_setBodyText (ht : this ∈ A) (text : Str) : Inside A (setBodyText this text) := by
  have hclear : ∀ {B : Set ℕ}, this ∈ B → Inside B (do clearChildren this; addText this text) :=
    fun htB => .bind (inside_clearChildren htB) fun _ _ hBC _ => inside_addParsedText (hBC htB) text
  unfold setBodyText
  by_cases htext : text.isEmpty = true
  · rw [if_pos htext]
    exact inside_clearChildren ht
  rw [if_neg htext]
  refine .bind (.loadEnds childEnds_traced ht) ?_
  rintro ⟨firstChild, lastChild⟩ B hAB ⟨hfirst, -⟩
  cases firstChild with
  | none => exact inside_addParsedText (hAB ht) text
  | some c =>
    refine .bind (.load (hfirst c rfl)) fun n C hBC _ => ?_
    by_cases hn : (n.value.isText && decide (lastChild = some c)) = true
    · rw [if_pos hn]
      exact inside_modifyText (hBC (hfirst c rfl)) _
    · rw [if_neg hn]
      exact hclear (hBC (hAB ht))

theorem inside_insertChildAfter (ht : this ∈ A) {predecessor : Option ℕ}
    (hp : ∀ a ∈ predecessor, a ∈ A) {next : ℕ} (hn : next ∈ A) :
    Inside A (insertChildAfter this predecessor next) :=
  .insertAfter childEnds_traced ht hp hn

theorem inside_removeChildAfter (ht : this ∈ A) {predecessor : Option ℕ}
    (hp : ∀ a ∈ predecessor, a ∈ A) : Inside A (removeChildAfter this predecessor) := by
  refine .bind (.peekPlace childEnds_traced (Within.after_cell ht hp)) fun p B hAB hpB => ?_
  refine .bind (.deref hpB) fun next C hBC hn => ?_
  refine .bind (.unlink childEnds_traced (hBC (hAB ht)) (fun a ha => hBC (hAB (hp a ha))) hn)
    fun _ D hCD _ => ?_
  exact inside_deleteChild (hCD hn)

theorem inside_clearNamedFrom (name : QName) (n : ℕ) (ht : this ∈ A) {prevChild child : Option ℕ}
    (hp : ∀ a ∈ prevChild, a ∈ A) (hc : ∀ a ∈ child, a ∈ A) :
    Inside A (clearNamedFrom this name n prevChild child) := by
  induction n generalizing A prevChild child with
  | zero =>
    cases child with
    | none => exact .pure trivial
    | some a => exact .failure
  | succ n ih =>
    cases child with
    | none => exact .pure trivial
    | some a =>
      refine .bind (.load (hc a rfl)) fun c B hAB hcB => ?_
      have hnext : ∀ b ∈ c.next, b ∈ B := fun b hb =>
        hcB b (List.mem_append.2 (.inl (Option.mem_toList.2 hb)))
      have hpB : ∀ b ∈ prevChild, b ∈ B := fun b hb => hAB (hp b hb)
      by_cases hnamed : c.value.isNamed name = true
      · rw [if_pos hnamed]
        refine .bind (inside_removeChildAfter (hAB ht) hpB) fun _ C hBC _ => ?_
        exact ih (hBC (hAB ht)) (fun b hb => hBC (hpB b hb)) fun b hb => hBC (hnext b hb)
      · rw [if_neg hnamed]
        exact ih (hAB ht) (Within.mem_some (hAB (hc a rfl))) hnext

theorem inside_clearNamedChildren (ht : this ∈ A) (name : QName) :
    Inside A (clearNamedChildren this name) := by
  refine .bind (.loadEnds childEnds_traced ht) fun ends B hAB hends => ?_
  refine .bind .size fun n C hBC _ => ?_
  exact inside_clearNamedFrom name n (hBC (hAB ht)) (fun a ha => by cases ha) fun a ha =>
    hBC (hends.1 a ha)

theorem inside_findOrAddNamedChild (ht : this ∈ A) (name : QName) :
    Inside A (findOrAddNamedChild this name) := by
  have hfirst : Inside A (firstNamed this name) := by
    refine .bind (.loadEnds childEnds_traced ht) fun ends B _ hends => ?_
    refine .bind .size fun n C hBC _ => ?_
    refine .bind (.search (fun a ha => by cases ha) fun a ha => hBC (hends.1 a ha)) ?_
    exact fun found D _ _ => .pure trivial
  refine .bind hfirst fun found B hAB _ => ?_
  cases found with
  | some child => exact .pure trivial
  | none =>
    refine .bind (within_newElement name false) fun child C hBC hc => ?_
    refine .bind (inside_addElement (hBC (hAB ht)) (Within.mem_some hc)) fun _ D _ _ => ?_
    exact .pure trivial

end

/-! ## 3. Two that change elements -/

/-- A call that makes or changes something. -/
inductive Edit where
  | newText (text : Str)
  | newElement (name : QName) (useDefaultNs : Bool)
  | copy (elt : ℕ)
  | delete (this : ℕ)
  | setText (this : ℕ) (text : Str)
  | addToText (this : ℕ) (text : Str)
  | setName (this : ℕ) (name : QName)
  | setBodyText (this : ℕ) (text : Str)
  | setAttr (this : ℕ) (name : QName) (value : Str)
  | clearAttr (this : ℕ) (name : QName)
  | addAttr (this : ℕ) (name : QName) (value : Str) (depth : ℕ)
  | clearAttributes (this : ℕ)
  | findOrAddNamedChild (this : ℕ) (name : QName)
  | insertChildAfter (this : ℕ) (predecessor : Option ℕ) (next : ℕ)
  | removeChildAfter (this : ℕ) (predecessor : Option ℕ)
  | addParsedText (this : ℕ) (text : Str)
  | addCDATAText (this : ℕ) (text : Str)
  | addText (this : ℕ) (text : Str) (depth : ℕ)
  | addElement (this : ℕ) (child : Option ℕ) (depth : ℕ)
  | clearNamedChildren (this : ℕ) (name : QName)
  | clearChildren (this : ℕ)

/-- Without its result. -/
def discard {β : Type} (m : Mem Cell β) : Mem Cell Unit := do
  let _ ← m
  pure ()

/-- `depth` steps down the last child, and a call there. -/
def atDepth (depth this : ℕ) (f : ℕ → Mem Cell Unit) : Mem Cell Unit := do
  let element ← descend depth this
  f element

/-- What the call does. -/
def Edit.call : Edit → Mem Cell Unit
  | .newText text => discard (XmlCells.newText text)
  | .newElement name useDefaultNs => discard (XmlCells.newElement name useDefaultNs)
  | .copy elt => discard (copyChild elt)
  | .delete this => deleteChild this
  | .setText this text => XmlCells.setText this text
  | .addToText this text => XmlCells.addToText this text
  | .setName this name => XmlCells.setName this name
  | .setBodyText this text => XmlCells.setBodyText this text
  | .setAttr this name value => XmlCells.setAttr this name value
  | .clearAttr this name => XmlCells.clearAttr this name
  | .addAttr this name value depth => atDepth depth this fun e => XmlCells.addAttr e name value
  | .clearAttributes this => XmlCells.clearAttributes this
  | .findOrAddNamedChild this name => discard (XmlCells.findOrAddNamedChild this name)
  | .insertChildAfter this predecessor next => XmlCells.insertChildAfter this predecessor next
  | .removeChildAfter this predecessor => XmlCells.removeChildAfter this predecessor
  | .addParsedText this text => XmlCells.addParsedText this text
  | .addCDATAText this text => XmlCells.addCDATAText this text
  | .addText this text depth => atDepth depth this fun e => XmlCells.addText e text
  | .addElement this child depth => atDepth depth this fun e => XmlCells.addElement e child
  | .clearNamedChildren this name => XmlCells.clearNamedChildren this name
  | .clearChildren this => XmlCells.clearChildren this

/-- The pointers that the call is given. What is copied may be anywhere. -/
def Edit.pointers : Edit → List ℕ
  | .newText _ | .newElement _ _ | .copy _ => []
  | .delete this | .setText this _ | .addToText this _ | .setName this _ | .setBodyText this _
  | .setAttr this _ _ | .clearAttr this _ | .addAttr this _ _ _ | .clearAttributes this
  | .findOrAddNamedChild this _ | .addParsedText this _ | .addCDATAText this _
  | .addText this _ _ | .clearNamedChildren this _ | .clearChildren this => [this]
  | .insertChildAfter this predecessor next => this :: next :: predecessor.toList
  | .removeChildAfter this predecessor => this :: predecessor.toList
  | .addElement this child _ => this :: child.toList

variable {A B : Set ℕ} {h : Store Cell}

theorem Inside.discard {β : Type} {m : Mem Cell β} {Q : β → Set ℕ → Prop}
    (hm : Within Cell.pointers A m Q) : Inside A (discard m) :=
  .bind hm fun _ _ _ _ => .pure trivial

/-- A call stays in the region of its pointers. -/
theorem Edit.inside (e : Edit) (he : ∀ p ∈ e.pointers, p ∈ A) : Inside A e.call := by
  cases e with
  | newText text => exact .discard (within_newText text)
  | newElement name useDefaultNs => exact .discard (within_newElement name useDefaultNs)
  | copy elt => exact .discard (within_copyChild elt)
  | delete this => exact inside_deleteChild (he this (by simp [pointers]))
  | setText this | addToText this => exact inside_modifyText (he this (by simp [pointers])) _
  | setName this name => exact inside_setName (he this (by simp [pointers])) name
  | setBodyText this text => exact inside_setBodyText (he this (by simp [pointers])) text
  | setAttr this name value => exact inside_setAttr (he this (by simp [pointers])) name value
  | clearAttr this name => exact inside_clearAttr (he this (by simp [pointers])) name
  | addAttr this name value depth =>
    exact .bind (within_descend depth (he this (by simp [pointers]))) fun _ _ _ h =>
      inside_addAttr h name value
  | clearAttributes this => exact inside_clearAttributes (he this (by simp [pointers]))
  | findOrAddNamedChild this name =>
    exact .discard (inside_findOrAddNamedChild (he this (by simp [pointers])) name)
  | insertChildAfter this predecessor next =>
    exact inside_insertChildAfter (he this (by simp [pointers]))
      (fun a ha => he a (by simp [pointers, Option.mem_toList.2 ha]))
      (he next (by simp [pointers]))
  | removeChildAfter this predecessor =>
    exact inside_removeChildAfter (he this (by simp [pointers]))
      fun a ha => he a (by simp [pointers, Option.mem_toList.2 ha])
  | addParsedText this text => exact inside_addParsedText (he this (by simp [pointers])) text
  | addCDATAText this text => exact inside_addCDATAText (he this (by simp [pointers])) text
  | addText this text depth =>
    exact .bind (within_descend depth (he this (by simp [pointers]))) fun _ _ _ h =>
      inside_addParsedText h text
  | addElement this child depth =>
    refine .bind (within_descend depth (he this (by simp [pointers]))) fun _ _ hAB h => ?_
    exact inside_addElement h fun c hc =>
      hAB (he c (by simp [pointers, Option.mem_toList.2 hc]))
  | clearNamedChildren this name =>
    exact inside_clearNamedChildren (he this (by simp [pointers])) name
  | clearChildren this => exact inside_clearChildren (he this (by simp [pointers]))

/-- The cells, and which of them each of the two has. -/
structure Both where
  heap : Store Cell
  left : Set ℕ
  right : Set ℕ

/-- One of the two makes a call with pointers of its own; what is new is its own. -/
inductive Turn : Both → Both → Prop where
  | left {h A B e h'} (he : ∀ p ∈ Edit.pointers e, p ∈ A) (hcall : e.call h = some ((), h')) :
      Turn ⟨h, A, B⟩ ⟨h', grown A h h', B⟩
  | right {h A B e h'} (he : ∀ p ∈ Edit.pointers e, p ∈ B) (hcall : e.call h = some ((), h')) :
      Turn ⟨h, A, B⟩ ⟨h', A, grown B h h'⟩

/-- A call with pointers of one region leaves the other one as it is. -/
theorem Edit.apart {h' : Store Cell} {e : Edit} (hAB : Apart Cell.pointers h A B)
    (he : ∀ p ∈ e.pointers, p ∈ A) (hcall : e.call h = some ((), h')) :
    Apart Cell.pointers h' (grown A h h') B ∧ ∀ a ∈ B, h'.read a = h.read a :=
  hAB.step (e.inside he h () h' hAB.left hcall).1

theorem Turn.apart {s s' : Both} (hs : Apart Cell.pointers s.heap s.left s.right)
    (hturn : Turn s s') : Apart Cell.pointers s'.heap s'.left s'.right := by
  cases hturn with
  | left he hcall => exact (Edit.apart hs he hcall).1
  | right he hcall => exact (Edit.apart hs.symm he hcall).1.symm

theorem turns_apart {s s' : Both} (hs : Apart Cell.pointers s.heap s.left s.right)
    (hturns : Relation.ReflTransGen Turn s s') :
    Apart Cell.pointers s'.heap s'.left s'.right := by
  induction hturns with
  | refl => exact hs
  | tail _ hturn ih => exact hturn.apart ih

/-- Cells and trees are what they were. -/
def Untouched (h h' : Store Cell) (A : Set ℕ) : Prop :=
  ∀ a ∈ A, h'.read a = h.read a ∧ ∀ t, TreeAt h a t → TreeAt h' a t

theorem Edit.untouched {h' : Store Cell} {e : Edit} (hAB : Apart Cell.pointers h A B)
    (he : ∀ p ∈ e.pointers, p ∈ A) (hcall : e.call h = some ((), h')) : Untouched h h' B := by
  have hsame := (Edit.apart hAB he hcall).2
  exact fun a ha => ⟨hsame a ha, fun t ht => ht.keep hAB.right ha hsame⟩

/-- A call by either of the two leaves what the other has as it is. -/
def Independent (s : Both) : Prop :=
  ∀ (e : Edit) (h' : Store Cell), e.call s.heap = some ((), h') →
    ((∀ p ∈ e.pointers, p ∈ s.left) → Untouched s.heap h' s.right) ∧
      ((∀ p ∈ e.pointers, p ∈ s.right) → Untouched s.heap h' s.left)

/-! ## 4. Copies -/

/-- A copy is a tidy tree of the same value; whatever is done to it or to the original after
that, in any order, is not done to the other. -/
theorem copies_apart {elt : ℕ} {t : XmlChild} (ht : TreeAt h elt t)
    (hB : Closed Cell.pointers h B) (helt : elt ∈ B) :
    ∃ this h', copyChild elt h = some (this, h') ∧ TidyAt h' this t ∧ TreeAt h' elt t ∧
      this ∈ grown ∅ h h' ∧ Untouched h h' B ∧
      ∀ s, Relation.ReflTransGen Turn ⟨h', grown ∅ h h', B⟩ s → Independent s := by
  obtain ⟨c, next, rfl, rfl, hh⟩ := ht
  obtain ⟨_, h', _, hrun, ⟨d, rfl, htree, htidy, rfl⟩, hh'⟩ := (copyChild_spec c next).run hh
  have hempty : Closed Cell.pointers h ∅ := ⟨fun _ ha => ha.elim, fun _ ha => ha.elim⟩
  obtain ⟨hconfined, hthis⟩ := within_copyChild c.item.addr h _ h' hempty hrun
  obtain ⟨hapart, hsame⟩ := Apart.step ⟨hempty, hB, fun _ ha => ha.elim⟩ hconfined
  refine ⟨_, h', hrun, ⟨d, none, rfl, htree, htidy, hh'.right⟩, ⟨c, next, rfl, rfl, hh'.left⟩,
    hthis, fun a ha => ⟨hsame a ha, fun t ht => ht.keep hB ha hsame⟩, fun s hturns => ?_⟩
  have hs := turns_apart (s := ⟨h', grown ∅ h h', B⟩) hapart hturns
  exact fun e h'' hcall => ⟨fun he => Edit.untouched hs he hcall,
    fun he => Edit.untouched hs.symm he hcall⟩

/-- The attributes of an element are the ordered map that the edits denote, and copies are
independent. -/
theorem attributes_and_copies :
    (∀ (h : Store Cell) (this : ℕ) (m : OrderedMap QName Str) (ops : List AttrEdit),
      AttrsAre h this m → AllAllowed m ops →
      ∃ h', callAll this ops h = some ((), h') ∧ AttrsAre h' this (denoteAttrs m ops) ∧
        ∀ name, (attr this name h').map Prod.fst
            = some (((denoteAttrs m ops).value name).getD STR_EMPTY) ∧
          (hasAttr this name h').map Prod.fst = some ((denoteAttrs m ops).value name).isSome) ∧
    ∀ (h : Store Cell) (elt : ℕ) (t : XmlChild) (B : Set ℕ), TreeAt h elt t →
      Closed Cell.pointers h B → elt ∈ B →
      ∃ this h', copyChild elt h = some (this, h') ∧ TidyAt h' this t ∧ TreeAt h' elt t ∧
        this ∈ grown ∅ h h' ∧ Untouched h h' B ∧
        ∀ s, Relation.ReflTransGen Turn ⟨h', grown ∅ h h', B⟩ s → Independent s := by
  constructor
  · intro h this m ops hm hops
    obtain ⟨h', hrun, hm'⟩ := attrs_run hm hops
    exact ⟨h', hrun, hm', hm'.read⟩
  · intro h elt t B ht hB helt
    exact copies_apart ht hB helt

/-- An element with one attribute. -/
def oneAttr : Placed :=
  .element 0 ⟨STR_EMPTY, str "a"⟩ [(1, ⟨⟨STR_EMPTY, str "id"⟩, str "x"⟩)] (some 1) [] none false

def oneAttrHeap : Store Cell :=
  [some ⟨.element ⟨⟨STR_EMPTY, str "a"⟩, some 1, some 1, none, none, false⟩, none⟩,
    some ⟨.attr ⟨⟨STR_EMPTY, str "id"⟩, str "x"⟩, none⟩]

theorem oneAttrHeap_tidy : TidyAt oneAttrHeap 0 oneAttr.tree := by
  refine ⟨oneAttr, none, rfl, rfl, .element 0 _ [(1, _)] [] false (by simp), ?_, ?_⟩
  · simp [oneAttr, Item.cells, Placed.item, itemList, attrItem]
  · intro q hq
    rcases Multiset.mem_add.1 hq with hq | hq
    · rw [Multiset.mem_singleton.1 hq]
      rfl
    · obtain rfl : q = _ := by simpa [oneAttr, Placed.item, itemList, attrItem] using hq
      rfl

theorem oneAttrHeap_closed : Closed Cell.pointers oneAttrHeap {a | a < 2} := by
  refine ⟨fun _ ha => ha, fun a ha n hn p hp => ?_⟩
  obtain rfl | rfl : a = 0 ∨ a = 1 := by
    have : a < 2 := ha
    omega
  · obtain rfl := Option.some_inj.1 hn
    obtain rfl : p = 1 := by simpa [Node.pointers, Cell.pointers] using hp
    exact Nat.one_lt_two
  · obtain rfl := Option.some_inj.1 hn
    cases hp

theorem attributes_and_copies_oneAttr :
    (∃ h', callAll 0 [.setAttr ⟨STR_EMPTY, str "id"⟩ (str "y")] oneAttrHeap = some ((), h') ∧
      (attr 0 ⟨STR_EMPTY, str "id"⟩ h').map Prod.fst = some (str "y")) ∧
    ∃ this h', copyChild 0 oneAttrHeap = some (this, h') ∧ TidyAt h' this oneAttr.tree ∧
      Untouched oneAttrHeap h' {a | a < 2} := by
  constructor
  · have hm : AttrsAre oneAttrHeap 0 (OrderedMap.empty.set ⟨STR_EMPTY, str "id"⟩ (str "x")) :=
      oneAttrHeap_tidy.attrsAre (OrderedMap.Lists.empty.set_new (by simp) _)
    obtain ⟨h', hrun, -, hread⟩ := attributes_and_copies.1 oneAttrHeap 0 _
      [.setAttr ⟨STR_EMPTY, str "id"⟩ (str "y")] hm ⟨trivial, trivial⟩
    refine ⟨h', hrun, (hread ⟨STR_EMPTY, str "id"⟩).1.trans ?_⟩
    rfl
  · obtain ⟨this, h', hrun, htidy, -, -, hsame, -⟩ := attributes_and_copies.2 oneAttrHeap 0 _ _
      oneAttrHeap_tidy.treeAt oneAttrHeap_closed (by decide)
    exact ⟨this, h', hrun, htidy, hsame⟩

end Gxmpp.XmlCells
