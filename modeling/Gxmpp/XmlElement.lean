/-
`talk/xmllite`: qualified names and the element tree.

`XmlElement` is a linked list of attributes and a linked list of children in the
source; the model keeps the two lists and forgets the links. What is modelled is
what the engine, the login task and the printer read or build; the functions
that edit the middle of a child list have no caller among them.

`std::string` is a sequence of bytes, so `Str` is a list of bytes and not a
Lean `String`: a server may send, and a client may be configured with, text that
is not valid UTF-8. `str` writes an ASCII literal.
-/
set_option autoImplicit false

namespace Gxmpp

/-- `std::string`. -/
abbrev Str := List UInt8

instance : LawfulBEq Str := inferInstance

/-- The bytes of an ASCII literal. -/
def str (s : String) : Str := s.toList.map fun c => UInt8.ofNat c.toNat

/-- A test passed by the 256 bytes is passed by every byte. -/
theorem byte_forall (p : UInt8 → Bool)
    (h : (List.range 256).all (fun n => p (UInt8.ofNat n)) = true) (ch : UInt8) : p ch = true := by
  have hlt : ch.toNat ∈ List.range 256 := List.mem_range.2 (UInt8.toNat_lt ch)
  have hp := List.all_eq_true.1 h ch.toNat hlt
  rwa [UInt8.ofNat_toNat] at hp

/-- `QName` (and `StaticQName`): a namespace and a local part. -/
structure QName where
  ns : Str
  localPart : Str
deriving DecidableEq

/-- `QName::IsEmpty`. -/
def QName.isEmpty (q : QName) : Bool := q.ns.isEmpty && q.localPart.isEmpty

/-- `XmlAttr`. -/
structure XmlAttr where
  name : QName
  value : Str
deriving DecidableEq

mutual

/-- `XmlElement`: name, attributes and children in order, and the CDATA mark. -/
structure XmlElement where
  name : QName
  attrs : List XmlAttr
  children : List XmlChild
  cdata : Bool

/-- `XmlChild`: an `XmlText` or an `XmlElement`. -/
inductive XmlChild where
  | text (t : Str)
  | element (e : XmlElement)

end

/-! ## `talk/xmllite/xmlconstants.cc` -/

def STR_EMPTY : Str := []
def NS_XML : Str := str "http://www.w3.org/XML/1998/namespace"
def NS_XMLNS : Str := str "http://www.w3.org/2000/xmlns/"
def QN_XMLNS : QName := ⟨STR_EMPTY, str "xmlns"⟩

/-! ## Reading an element -/

/-- `XmlChild::AsElement`. -/
def XmlChild.asElement : XmlChild → Option XmlElement
  | .text _ => none
  | .element e => some e

namespace XmlElement

/-- `XmlElement::XmlElement(name)` and `XmlElement::XmlElement(name, useDefaultNs)`:
the second adds an `xmlns` attribute with the name's namespace. -/
def new (name : QName) (useDefaultNs : Bool) : XmlElement :=
  { name, attrs := if useDefaultNs then [⟨QN_XMLNS, name.ns⟩] else [],
    children := [], cdata := false }

/-- `XmlElement::Attr`: the value of the first attribute of that name, or the
empty string. -/
def attr (e : XmlElement) (name : QName) : Str :=
  match e.attrs.find? (fun a => a.name = name) with
  | some a => a.value
  | none => STR_EMPTY

/-- `XmlElement::HasAttr`. -/
def hasAttr (e : XmlElement) (name : QName) : Bool :=
  e.attrs.any fun a => a.name = name

/-- The children that are elements. -/
def elements (e : XmlElement) : List XmlElement := e.children.filterMap XmlChild.asElement

/-- `XmlElement::FirstElement`. -/
def firstElement (e : XmlElement) : Option XmlElement := e.elements.head?

/-- The elements `FirstNamed(name)` and then `NextNamed(name)` walk over. -/
def named (e : XmlElement) (name : QName) : List XmlElement :=
  e.elements.filter fun c => c.name = name

/-- `XmlElement::FirstNamed`. -/
def firstNamed (e : XmlElement) (name : QName) : Option XmlElement := (e.named name).head?

/-- `XmlElement::BodyText`: the text of an element whose only child is a text. -/
def bodyText (e : XmlElement) : Str :=
  match e.children with
  | [.text t] => t
  | _ => STR_EMPTY

/-- `XmlElement::TextNamed`. -/
def textNamed (e : XmlElement) (name : QName) : Str :=
  match e.firstNamed name with
  | some c => c.bodyText
  | none => STR_EMPTY

/-! ## Building an element -/

/-- `XmlElement::AddAttr`, which asserts that the name is new. -/
def addAttr (e : XmlElement) (name : QName) (value : Str) : XmlElement :=
  { e with attrs := e.attrs ++ [⟨name, value⟩] }

/-- Replaces the value of the first attribute of that name. -/
def replaceAttr (name : QName) (value : Str) : List XmlAttr → List XmlAttr
  | [] => []
  | a :: as => if a.name = name then ⟨name, value⟩ :: as else a :: replaceAttr name value as

/-- `XmlElement::SetAttr`. -/
def setAttr (e : XmlElement) (name : QName) (value : Str) : XmlElement :=
  if e.hasAttr name then { e with attrs := replaceAttr name value e.attrs }
  else e.addAttr name value

/-- `XmlElement::AddElement`. -/
def addElement (e child : XmlElement) : XmlElement :=
  { e with children := e.children ++ [.element child] }

/-- `XmlElement::AddText` and `XmlElement::AddParsedText`: empty text adds
nothing, and text after a text child is appended to that child. -/
def addText (e : XmlElement) (text : Str) : XmlElement :=
  if text.isEmpty then e
  else
    match e.children.getLast? with
    | some (.text t) => { e with children := e.children.dropLast ++ [.text (t ++ text)] }
    | _ => { e with children := e.children ++ [.text text] }

/-- The `depth` argument of `AddAttr`, `AddText` and `AddElement`: `depth` steps
down the last child, which the callers know to be an element. -/
def atDepth (f : XmlElement → XmlElement) : Nat → XmlElement → XmlElement
  | 0, e => f e
  | d + 1, e =>
    match e.children.getLast? with
    | some (.element c) =>
      { e with children := e.children.dropLast ++ [.element (atDepth f d c)] }
    | _ => e

/-! ## Attributes of other names -/

theorem attr_addAttr (e : XmlElement) {name other : QName} (value : Str) (h : other ≠ name) :
    (e.addAttr name value).attr other = e.attr other := by
  have hne : (name = other) = False := by simp [h.symm]
  simp [attr, addAttr, List.find?_append, hne]

theorem find_replaceAttr {name other : QName} (value : Str) (h : other ≠ name)
    (attrs : List XmlAttr) :
    (replaceAttr name value attrs).find? (fun a => a.name = other)
      = attrs.find? (fun a => a.name = other) := by
  induction attrs with
  | nil => rfl
  | cons a as ih =>
    rw [replaceAttr]
    split
    · rename_i ha
      have hne : (name = other) = False := by simp [h.symm]
      simp [ha, hne]
    · rw [List.find?_cons, List.find?_cons, ih]

theorem attr_setAttr (e : XmlElement) {name other : QName} (value : Str) (h : other ≠ name) :
    (e.setAttr name value).attr other = e.attr other := by
  rw [setAttr]
  split
  · simp only [attr, find_replaceAttr value h]
  · exact attr_addAttr e value h

end XmlElement

end Gxmpp
