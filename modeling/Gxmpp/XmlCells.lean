/-
`talk/xmllite/xmlelement.h/.cc`: the element tree as cells that point at each other.

`XmlElement.lean` has the value of a tree, two lists for each element. This is what the lists are
in the source: an attribute and a child point at the next one, and an element keeps the first and
the last of each. Every function is here that changes a tree, and those that read what it keeps.

A call has a result or fails, where the source follows a null pointer or one whose object has
gone. A loop along a chain, and a recursion down a tree, is given the number of cells that were
taken so far, which no chain and no tree exceeds. The assertion of `AddAttr` is for debug builds
and is left out.
-/
import Gxmpp.XmlElement
import Gxmpp.Linked

set_option autoImplicit false

namespace Gxmpp.XmlCells

open Linked

/-! ## 1. Objects -/

/-- The members of an `XmlElement` that no other class has. -/
structure Fields where
  name : QName
  firstAttr : Option ℕ
  lastAttr : Option ℕ
  firstChild : Option ℕ
  lastChild : Option ℕ
  cdata : Bool

/-- An object: an `XmlAttr`, an `XmlText` or an `XmlElement`. -/
inductive Cell where
  | attr (a : XmlAttr)
  | text (text : Str)
  | element (e : Fields)

/-- `XmlChild::IsText`. -/
def Cell.isText : Cell → Bool
  | .text _ => true
  | _ => false

/-- An attribute of that name. -/
def Cell.isAttr (name : QName) : Cell → Bool
  | .attr a => a.name = name
  | _ => false

/-- A child that is an element of that name. -/
def Cell.isNamed (name : QName) : Cell → Bool
  | .element e => e.name = name
  | _ => false

/-- `first_attr_` and `last_attr_`. -/
def attrEnds : Ends Cell where
  get
    | .element e => some (e.firstAttr, e.lastAttr)
    | _ => none
  set p
    | .element e => .element { e with firstAttr := p.1, lastAttr := p.2 }
    | c => c
  get_set := by
    rintro (_ | _ | e) q hq p
    · cases hq
    · cases hq
    · rfl
  set_set := by
    rintro (_ | _ | e) p q
    · rfl
    · rfl
    · rfl

/-- `first_child_` and `last_child_`. -/
def childEnds : Ends Cell where
  get
    | .element e => some (e.firstChild, e.lastChild)
    | _ => none
  set p
    | .element e => .element { e with firstChild := p.1, lastChild := p.2 }
    | c => c
  get_set := by
    rintro (_ | _ | e) q hq p
    · cases hq
    · cases hq
    · rfl
  set_set := by
    rintro (_ | _ | e) p q
    · rfl
    · rfl
    · rfl

/-- Changes the members of the element at an address. -/
def modifyFields (this : ℕ) (f : Fields → Fields) : Mem Cell Unit :=
  modifyValue this fun c =>
    match c with
    | .element e => some (.element (f e))
    | _ => none

/-- Changes the `XmlAttr` at an address. -/
def modifyAttr (this : ℕ) (f : XmlAttr → XmlAttr) : Mem Cell Unit :=
  modifyValue this fun c =>
    match c with
    | .attr a => some (.attr (f a))
    | _ => none

/-- Changes the text of the `XmlText` at an address. -/
def modifyText (this : ℕ) (f : Str → Str) : Mem Cell Unit :=
  modifyValue this fun c =>
    match c with
    | .text t => some (.text (f t))
    | _ => none

/-- `XmlText::SetText`. -/
def setText (this : ℕ) (text : Str) : Mem Cell Unit := modifyText this fun _ => text

/-- `XmlText::AddText` and `XmlText::AddParsedText`. -/
def addToText (this : ℕ) (text : Str) : Mem Cell Unit := modifyText this fun t => t ++ text

/-- `new XmlText(text)`. -/
def newText (text : Str) : Mem Cell ℕ := new (.text text)

/-- `new XmlElement(name, useDefaultNs)`, and `new XmlElement(name)`, which has no attribute. -/
def newElement (name : QName) (useDefaultNs : Bool) : Mem Cell ℕ := do
  if useDefaultNs then
    let a ← new (.attr ⟨QN_XMLNS, name.ns⟩)
    new (.element ⟨name, some a, some a, none, none, false⟩)
  else
    new (.element ⟨name, none, none, none, none, false⟩)

/-- The destructors, with a bound for the recursion. -/
def deleteFrom : ℕ → ℕ → Mem Cell Unit
  | 0, _ => failure
  | n + 1, this => do
      let c ← load this
      match c.value with
      | .attr _ => failure
      | .text _ => delete this
      | .element e => do
          clearFrom delete n e.firstAttr
          clearFrom (deleteFrom n) n e.firstChild
          delete this

/-- `delete` of an `XmlChild`. -/
def deleteChild (this : ℕ) : Mem Cell Unit := do
  let n ← size
  deleteFrom n this

/-- `new XmlAttr(*attr)`. -/
def copyAttr (attr : ℕ) : Mem Cell ℕ := do
  let c ← load attr
  match c.value with
  | .attr a => new (.attr a)
  | _ => failure

/-- `new XmlText(*child)` and `new XmlElement(*child)`, with a bound for the recursion. -/
def copyFrom : ℕ → ℕ → Mem Cell ℕ
  | 0, _ => failure
  | n + 1, elt => do
      let c ← load elt
      match c.value with
      | .attr _ => failure
      | .text t => newText t
      | .element e => do
          let this ← newElement e.name false
          let newAttr ← attrEnds.copyFrom copyAttr n e.firstAttr (.first this) none
          attrEnds.setLast this newAttr
          let newChild ← childEnds.copyFrom (copyFrom n) n e.firstChild (.first this) none
          childEnds.setLast this newChild
          modifyFields this fun f => { f with cdata := e.cdata }
          pure this

/-- `XmlElement::XmlElement(elt)`, and the same for an `XmlText`. -/
def copyChild (elt : ℕ) : Mem Cell ℕ := do
  let n ← size
  copyFrom n elt

/-! ## 2. Attributes -/

/-- `XmlElement::SetName`. -/
def setName (this : ℕ) (name : QName) : Mem Cell Unit :=
  modifyFields this fun e => { e with name }

/-- The attribute of that name, and the one before it. -/
def findAttr (this : ℕ) (name : QName) : Mem Cell (Option ℕ × Option ℕ) := do
  let ends ← attrEnds.load this
  let n ← size
  search (Cell.isAttr name) n none ends.1

/-- `XmlElement::Attr`. -/
def attr (this : ℕ) (name : QName) : Mem Cell Str := do
  let found ← findAttr this name
  match found.2 with
  | none => pure STR_EMPTY
  | some a => do
      let c ← load a
      match c.value with
      | .attr x => pure x.value
      | _ => failure

/-- `XmlElement::HasAttr`. -/
def hasAttr (this : ℕ) (name : QName) : Mem Cell Bool := do
  let found ← findAttr this name
  pure found.2.isSome

/-- `XmlElement::AddAttr`. -/
def addAttr (this : ℕ) (name : QName) (value : Str) : Mem Cell Unit := do
  let a ← new (.attr ⟨name, value⟩)
  attrEnds.append this a

/-- `XmlElement::SetAttr`. -/
def setAttr (this : ℕ) (name : QName) (value : Str) : Mem Cell Unit := do
  let found ← findAttr this name
  match found.2 with
  | none => addAttr this name value
  | some a => modifyAttr a fun x => { x with value }

/-- `XmlElement::ClearAttr`. -/
def clearAttr (this : ℕ) (name : QName) : Mem Cell Unit := do
  let found ← findAttr this name
  match found.2 with
  | none => pure ()
  | some a => do
      attrEnds.unlink this found.1 a
      delete a

/-- `XmlElement::ClearAttributes`. -/
def clearAttributes (this : ℕ) : Mem Cell Unit := do
  let ends ← attrEnds.load this
  let n ← size
  clearFrom delete n ends.1
  attrEnds.setLast this none
  attrEnds.setFirst this none

/-! ## 3. Children -/

/-- `XmlElement::ClearChildren`. -/
def clearChildren (this : ℕ) : Mem Cell Unit := do
  let ends ← childEnds.load this
  let n ← size
  clearFrom deleteChild n ends.1
  childEnds.setLast this none
  childEnds.setFirst this none

/-- A new text behind the last child. -/
def appendText (this : ℕ) (text : Str) : Mem Cell Unit := do
  let c ← newText text
  childEnds.append this c

/-- `XmlElement::AddParsedText`: nothing for no text, and a text is added to a last child that is
a text. -/
def addParsedText (this : ℕ) (text : Str) : Mem Cell Unit := do
  if text.isEmpty then
    pure ()
  else
    let ends ← childEnds.load this
    match ends.2 with
    | none => appendText this text
    | some c => do
        let n ← load c
        if n.value.isText then addToText c text else appendText this text

/-- `XmlElement::AddText`. -/
def addText (this : ℕ) (text : Str) : Mem Cell Unit := addParsedText this text

/-- `XmlElement::AddCDATAText`. -/
def addCDATAText (this : ℕ) (text : Str) : Mem Cell Unit := do
  modifyFields this fun e => { e with cdata := true }
  addParsedText this text

/-- `XmlElement::AddElement`. -/
def addElement (this : ℕ) (child : Option ℕ) : Mem Cell Unit := do
  match child with
  | none => pure ()
  | some c => do
      childEnds.append this c
      setNext c none

/-- The element that the `depth` argument of `AddAttr`, `AddText` and `AddElement` names: `depth`
steps down the last child. -/
def descend : ℕ → ℕ → Mem Cell ℕ
  | 0, element => pure element
  | depth + 1, element => do
      let ends ← childEnds.load element
      let c ← deref ends.2
      descend depth c

/-- `XmlElement::BodyText`. -/
def bodyText (this : ℕ) : Mem Cell Str := do
  let ends ← childEnds.load this
  match ends.1 with
  | none => pure STR_EMPTY
  | some c => do
      let n ← load c
      match n.value with
      | .text t => if ends.2 = some c then pure t else pure STR_EMPTY
      | _ => pure STR_EMPTY

/-- `XmlElement::SetBodyText`. -/
def setBodyText (this : ℕ) (text : Str) : Mem Cell Unit := do
  if text.isEmpty then
    clearChildren this
  else
    let ends ← childEnds.load this
    match ends.1 with
    | none => addText this text
    | some c => do
        let n ← load c
        if n.value.isText && ends.2 = some c then
          setText c text
        else
          clearChildren this
          addText this text

/-- `XmlElement::InsertChildAfter`. -/
def insertChildAfter (this : ℕ) (predecessor : Option ℕ) (next : ℕ) : Mem Cell Unit :=
  childEnds.insertAfter this predecessor next

/-- `XmlElement::RemoveChildAfter`. -/
def removeChildAfter (this : ℕ) (predecessor : Option ℕ) : Mem Cell Unit := do
  let p ← childEnds.peek (.after this predecessor)
  let next ← deref p
  childEnds.unlink this predecessor next
  deleteChild next

/-- The loop of `ClearNamedChildren`. -/
def clearNamedFrom (this : ℕ) (name : QName) : ℕ → Option ℕ → Option ℕ → Mem Cell Unit
  | _, _, none => pure ()
  | 0, _, some _ => failure
  | n + 1, prevChild, some child => do
      let c ← load child
      if c.value.isNamed name then
        removeChildAfter this prevChild
        clearNamedFrom this name n prevChild c.next
      else
        clearNamedFrom this name n (some child) c.next

/-- `XmlElement::ClearNamedChildren`. -/
def clearNamedChildren (this : ℕ) (name : QName) : Mem Cell Unit := do
  let ends ← childEnds.load this
  let n ← size
  clearNamedFrom this name n none ends.1

/-- `XmlElement::FirstNamed`. -/
def firstNamed (this : ℕ) (name : QName) : Mem Cell (Option ℕ) := do
  let ends ← childEnds.load this
  let n ← size
  let found ← search (Cell.isNamed name) n none ends.1
  pure found.2

/-- `XmlElement::FindOrAddNamedChild`. -/
def findOrAddNamedChild (this : ℕ) (name : QName) : Mem Cell ℕ := do
  let found ← firstNamed this name
  match found with
  | some child => pure child
  | none => do
      let child ← newElement name false
      addElement this (some child)
      pure child

end Gxmpp.XmlCells
