/-
`talk/xmllite/xmlelement.cc`: the functions that edit an element in place.

A child is pointed at by its place among the children. `RemoveChildAfter` names the child to
be removed by the one before it, which is NULL for the first.
-/
import Gxmpp.XmlElement
import Gxmpp.Walking

set_option autoImplicit false

namespace Gxmpp

/-- A child that is an element of that name. -/
def XmlChild.isNamed (name : QName) : XmlChild → Bool
  | .text _ => false
  | .element e => e.name = name

namespace XmlElement

/-! ## 1. The functions -/

/-- `XmlElement::ClearAttr`: the first attribute of that name goes. -/
def clearAttr (e : XmlElement) (name : QName) : XmlElement :=
  { e with attrs := e.attrs.eraseP fun a => a.name = name }

/-- `XmlElement::FirstNamed`, as a place. -/
def firstNamedAt (e : XmlElement) (name : QName) : Option Nat :=
  Walking.next (XmlChild.isNamed name) e.children 0

/-- `XmlElement::NextNamed` of the child at a place. -/
def nextNamedAt (e : XmlElement) (name : QName) (place : Nat) : Option Nat :=
  Walking.next (XmlChild.isNamed name) e.children (place + 1)

/-- `BodyText` of the child at a place; `none` if no element is there. -/
def bodyTextAt (e : XmlElement) (place : Nat) : Option Str :=
  (e.children[place]?.bind XmlChild.asElement).map bodyText

/-- `XmlElement::RemoveChildAfter`. -/
def removeChildAfter (e : XmlElement) : Option Nat → XmlElement
  | none => { e with children := e.children.tail }
  | some predecessor => { e with children := e.children.eraseIdx (predecessor + 1) }

/-- `XmlElement::ClearNamedChildren`. -/
def clearNamedChildren (e : XmlElement) (name : QName) : XmlElement :=
  { e with children := e.children.filter fun c => !c.isNamed name }

/-- `AddElement(new XmlElement(name))` and `AddText(text, 1)`: the idiom that adds a child with
a text. -/
def addNamedText (e : XmlElement) (name : QName) (text : Str) : XmlElement :=
  atDepth (fun child => child.addText text) 1 (e.addElement (new name false))

/-! ## 2. Attributes -/

variable {e : XmlElement} {name other : QName}

theorem attr_of_not_hasAttr (h : e.hasAttr name = false) : e.attr name = [] := by
  unfold hasAttr at h
  rw [List.any_eq_false] at h
  unfold attr
  rw [List.find?_eq_none.2 h]
  rfl

theorem hasAttr_append (e : XmlElement) (name : QName) (a : XmlAttr) :
    ({ e with attrs := e.attrs ++ [a] } : XmlElement).hasAttr name
      = (e.hasAttr name || decide (a.name = name)) := by
  unfold hasAttr
  rw [List.any_append, List.any_cons, List.any_nil, Bool.or_false]

theorem hasAttr_setAttr (e : XmlElement) (value : Str) (h : other ≠ name) :
    (e.setAttr name value).hasAttr other = e.hasAttr other := by
  unfold setAttr
  split
  · unfold hasAttr
    dsimp only
    induction e.attrs with
    | nil => rfl
    | cons a as ih =>
      rw [replaceAttr]
      split
      · next ha => rw [List.any_cons, List.any_cons, ha]
      · rw [List.any_cons, List.any_cons, ih]
  · unfold addAttr
    rw [hasAttr_append, decide_eq_false h.symm, Bool.or_false]

theorem hasAttr_clearAttr (h : e.hasAttr other = false) :
    (e.clearAttr name).hasAttr other = false := by
  unfold hasAttr clearAttr at *
  rw [List.any_eq_false] at h ⊢
  exact fun a ha => h a (List.mem_of_mem_eraseP ha)

theorem name_setAttr (e : XmlElement) (name : QName) (value : Str) :
    (e.setAttr name value).name = e.name := by
  unfold setAttr
  split <;> rfl

theorem find_replaceAttr_self (name : QName) (value : Str) {attrs : List XmlAttr}
    (h : attrs.any (fun a => a.name = name) = true) :
    (replaceAttr name value attrs).find? (fun a => a.name = name) = some ⟨name, value⟩ := by
  induction attrs with
  | nil => cases h
  | cons a as ih =>
    rw [replaceAttr]
    by_cases ha : a.name = name
    · rw [if_pos ha, List.find?_cons_of_pos (by simp)]
    · rw [if_neg ha, List.find?_cons_of_neg (by simpa using ha)]
      rw [List.any_cons, decide_eq_false ha, Bool.false_or] at h
      exact ih h

/-- The attribute that was set is read. -/
theorem attr_setAttr_self (e : XmlElement) (name : QName) (value : Str) :
    (e.setAttr name value).attr name = value := by
  unfold setAttr
  split
  · rename_i hhas
    unfold attr
    dsimp only
    rw [find_replaceAttr_self name value hhas]
  · rename_i hhas
    have hnone : e.attrs.find? (fun a => a.name = name) = none := by
      rw [List.find?_eq_none]
      intro a ha hname
      exact hhas (List.any_eq_true.2 ⟨a, ha, hname⟩)
    unfold addAttr attr
    rw [List.find?_append, hnone]
    simp

/-! ## 3. Children -/

@[simp] theorem named_addElement (e child : XmlElement) (name : QName) :
    (e.addElement child).named name
      = e.named name ++ if child.name = name then [child] else [] := by
  unfold named elements addElement
  by_cases h : child.name = name <;> simp [XmlChild.asElement, h]

/-- The element that `addNamedText` adds. -/
def textElement (name : QName) (text : Str) : XmlElement := (new name false).addText text

theorem textElement_name (name : QName) (text : Str) : (textElement name text).name = name := by
  unfold textElement addText
  split <;> rfl

theorem textElement_bodyText (name : QName) (text : Str) :
    (textElement name text).bodyText = text := by
  unfold textElement addText
  split
  · next h => rw [List.isEmpty_iff.1 h]; rfl
  · rfl

theorem textElement_hasAttr (name : QName) (text : Str) (attr : QName) :
    (textElement name text).hasAttr attr = false := by
  unfold textElement addText
  split <;> rfl

/-- The function at depth 1 is done to the child that was added last. -/
theorem atDepth_addElement (f : XmlElement → XmlElement) (e child : XmlElement) :
    atDepth f 1 (e.addElement child) = e.addElement (f child) := by
  have hlast : (e.addElement child).children.getLast? = some (.element child) :=
    List.getLast?_concat
  have hinit : (e.addElement child).children.dropLast = e.children := List.dropLast_concat
  rw [atDepth, hlast]
  dsimp only
  rw [hinit]
  rfl

theorem addNamedText_eq (e : XmlElement) (name : QName) (text : Str) :
    e.addNamedText name text = e.addElement (textElement name text) :=
  atDepth_addElement _ e _

theorem named_clearNamedChildren_self (e : XmlElement) (name : QName) :
    (e.clearNamedChildren name).named name = [] := by
  unfold named elements clearNamedChildren
  rw [List.filter_eq_nil_iff]
  intro c hc
  obtain ⟨child, hchild, hsome⟩ := List.mem_filterMap.1 hc
  cases child with
  | text t => cases hsome
  | element d =>
    obtain rfl : d = c := Option.some.inj hsome
    have hne := (List.mem_filter.1 hchild).2
    unfold XmlChild.isNamed at hne
    simpa using hne

theorem named_clearNamedChildren_ne (e : XmlElement) (h : other ≠ name) :
    (e.clearNamedChildren name).named other = e.named other := by
  unfold named elements clearNamedChildren
  dsimp only
  induction e.children with
  | nil => rfl
  | cons c children ih =>
    cases c with
    | text t =>
      rw [List.filter_cons_of_pos (by rfl), List.filterMap_cons_none (by rfl),
        List.filterMap_cons_none (by rfl)]
      exact ih
    | element d =>
      by_cases hd : d.name = name
      · have hother : d.name ≠ other := fun heq => h (heq.symm.trans hd)
        rw [List.filter_cons_of_neg (by simp [XmlChild.isNamed, hd])]
        simpa [XmlChild.asElement, hother] using ih
      · rw [List.filter_cons_of_pos (by simp [XmlChild.isNamed, hd])]
        by_cases hother : d.name = other <;> simpa [XmlChild.asElement, hother] using ih

/-! ## 4. Places and the elements of a name -/

theorem filter_isNamed (name : QName) (children : List XmlChild) :
    (children.filter (XmlChild.isNamed name)).map XmlChild.asElement
      = ((children.filterMap XmlChild.asElement).filter fun c => c.name = name).map some := by
  induction children with
  | nil => rfl
  | cons c children ih =>
    cases c with
    | text t =>
      rw [List.filter_cons_of_neg (by exact Bool.false_ne_true),
        List.filterMap_cons_none (by rfl)]
      exact ih
    | element d =>
      by_cases hd : d.name = name <;> simpa [XmlChild.isNamed, XmlChild.asElement, hd] using ih

theorem length_named (e : XmlElement) (name : QName) :
    (e.children.filter (XmlChild.isNamed name)).length = (e.named name).length := by
  have h := congrArg List.length (filter_isNamed name e.children)
  rwa [List.length_map, List.length_map] at h

/-- The text at the place of match number `k`. -/
theorem bodyTextAt_nth {k place : Nat}
    (h : Walking.nth (XmlChild.isNamed name) e.children k = some place) :
    e.bodyTextAt place = (e.named name)[k]?.map bodyText := by
  unfold bodyTextAt
  rw [Walking.get_nth _ h]
  have hk : ((e.children.filter (XmlChild.isNamed name)).map XmlChild.asElement)[k]?
      = (((e.children.filterMap XmlChild.asElement).filter fun c => c.name = name).map some)[k]? :=
    congrArg (fun l => l[k]?) (filter_isNamed name e.children)
  rw [List.getElem?_map, List.getElem?_map] at hk
  unfold named elements
  revert hk
  cases (e.children.filter (XmlChild.isNamed name))[k]? with
  | none =>
    intro hk
    rw [Option.map_none] at hk
    rw [Option.map_eq_none_iff.1 hk.symm]
    rfl
  | some c =>
    intro hk
    rw [Option.map_some] at hk
    obtain ⟨d, hd, hc⟩ := Option.map_eq_some_iff.1 hk.symm
    rw [hd, Option.bind_some, ← hc]

/-- There is a place for each element of the name. -/
theorem exists_nth {k : Nat} (h : k < (e.named name).length) :
    ∃ place, Walking.nth (XmlChild.isNamed name) e.children k = some place := by
  rw [← length_named] at h
  exact Option.isSome_iff_exists.1 ((Walking.nth_isSome_iff _ _ _).2 h)

end XmlElement

end Gxmpp
