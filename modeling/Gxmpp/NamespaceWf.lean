/-
What `XmlParser` with `XmlBuilder` accepts, against Namespaces in XML.

expat runs without namespace processing, so the names it delivers are those of the
document and everything about namespaces is decided in `ExpatStartElement`,
`ResolveQName` and `BuildElement`. What they decide is local to a tag and the
declarations around it: `TagPasses` is what they look at, `TagWf` is what the
recommendation asks for, and a document passes or is well formed if all of its
tags are. The two differ in the names that are no `QName`s, in the prefixes that
begin with "xml", and in the declarations of `xml` and `xmlns`.
-/
import Gxmpp.StanzaParsing
import Mathlib.Data.List.Nodup

set_option autoImplicit false

namespace Gxmpp

open ParseContext (splitColon)

/-! ## 1. Scopes -/

/-- The declarations in force, the last one first: a prefix, or the empty string for the
default, and its namespace. -/
abbrev Scope := List (Str × Str)

/-- What the prefix is declared to be. -/
def Scope.declared (scope : Scope) (pre : Str) : Option Str :=
  (scope.find? fun b => b.1 = pre).map (·.2)

/-- The namespace of a prefix: `xml` and `xmlns` need no declaration. -/
def Scope.prefixNs (scope : Scope) (pre : Str) : Option Str :=
  if pre = str "xml" then some NS_XML
  else if pre = str "xmlns" then some NS_XMLNS
  else scope.declared pre

/-- The expanded name: an element without a prefix is in the default namespace, an
attribute without a prefix in none. -/
def Scope.expanded (scope : Scope) (name : Str) (isAttr : Bool) : QName :=
  match splitColon name with
  | some (pre, localPart) => ⟨(scope.prefixNs pre).getD [], localPart⟩
  | none => ⟨if isAttr then [] else (scope.declared []).getD [], name⟩

/-- The declarations among the attributes of a tag. -/
def declarations (atts : List (Str × Str)) : Scope :=
  atts.filterMap fun a =>
    if a.1 = str "xmlns" then some ([], a.2)
    else if (str "xmlns:").isPrefixOf a.1 then some (a.1.drop 6, a.2)
    else none

/-- The scope inside a tag. -/
def Scope.inside (scope : Scope) (atts : List (Str × Str)) : Scope :=
  (declarations atts).reverse ++ scope

/-- What stands before the first colon of a name, if it has one. -/
def prefixOf (name : Str) : Option Str := (splitColon name).map (·.1)

/-! ## 2. What the recommendation asks of a tag -/

/-- A name with at most one colon, and something on both sides of it. -/
def IsQName (name : Str) : Prop :=
  match splitColon name with
  | none => name ≠ []
  | some (pre, localPart) => pre ≠ [] ∧ localPart ≠ [] ∧ (0x3A : UInt8) ∉ localPart

instance (name : Str) : Decidable (IsQName name) := by
  unfold IsQName
  cases splitColon name <;> infer_instance

/-- Namespace well-formedness of a tag, in the scope inside it. -/
structure TagWf (scope : Scope) (name : Str) (atts : List (Str × Str)) : Prop where
  isQName : IsQName name
  areQNames : ∀ a ∈ atts, IsQName a.1
  /-- no prefix is declared empty -/
  filled : ∀ a ∈ atts, (str "xmlns:").isPrefixOf a.1 = true → a.2 ≠ []
  /-- `xmlns` is not declared, and `xml` not as anything else -/
  reserved : ∀ a ∈ atts, (str "xmlns:").isPrefixOf a.1 = true →
    a.1.drop 6 ≠ str "xmlns" ∧ (a.1.drop 6 = str "xml" → a.2 = NS_XML)
  /-- the prefix of the element is `xml` or declared -/
  elementPrefix : ∀ pre ∈ prefixOf name,
    pre = str "xml" ∨ (pre ≠ str "xmlns" ∧ (scope.declared pre).isSome = true)
  /-- so are those of the attributes that are no declarations -/
  attrPrefix : ∀ a ∈ atts, ∀ pre ∈ prefixOf a.1,
    pre = str "xml" ∨ pre = str "xmlns" ∨ (scope.declared pre).isSome = true
  distinct : (atts.map fun a => scope.expanded a.1 true).Nodup

/-! ## 3. What the parser looks at -/

/-- A prefix `NsForPrefix` finds. -/
def Scope.Resolves (scope : Scope) (pre : Str) : Prop :=
  pre = str "xml" ∨ pre = str "xmlns" ∨
    (XmlnsStack.startsWithXml pre = false ∧ (pre = [] ∨ (scope.declared pre).isSome = true))

/-- A name that is resolved, and not to the empty `QName`, which stands for a failure. -/
def Scope.Known (scope : Scope) (name : Str) (isAttr : Bool) : Prop :=
  (∀ pre ∈ prefixOf name, scope.Resolves pre) ∧ (scope.expanded name isAttr).isEmpty = false

/-- The expanded names of the attributes that have a namespace. -/
def Scope.namespaced (scope : Scope) (atts : List (Str × Str)) : List QName :=
  (atts.map fun a => scope.expanded a.1 true).filter fun q => !q.ns.isEmpty

/-- A tag without an error the parser looks for. -/
structure TagPasses (scope : Scope) (name : Str) (atts : List (Str × Str)) : Prop where
  filled : ∀ a ∈ atts, (str "xmlns:").isPrefixOf a.1 = true → a.2 ≠ []
  element : scope.Known name false
  attrs : ∀ a ∈ atts, scope.Known a.1 true
  distinct : (scope.namespaced atts).Nodup

/-- The attributes of a tag, with the expanded names. -/
def attrsOf (scope : Scope) (atts : List (Str × Str)) : List XmlAttr :=
  atts.map fun a => ⟨scope.expanded a.1 true, a.2⟩

/-- The element of a tag, with the expanded names. -/
def elementOf (scope : Scope) (name : Str) (atts : List (Str × Str)) : XmlElement :=
  { name := scope.expanded name false, attrs := attrsOf scope atts, children := [], cdata := false }

/-- More attributes at the end. -/
def XmlElement.addAttrs (e : XmlElement) (attrs : List XmlAttr) : XmlElement :=
  { e with attrs := e.attrs ++ attrs }

theorem XmlElement.addAttrs_nil (e : XmlElement) : e.addAttrs [] = e := by
  obtain ⟨name, attrs, children, cdata⟩ := e
  unfold XmlElement.addAttrs
  rw [List.append_nil]

theorem XmlElement.addAttr_addAttrs (e : XmlElement) (name : QName) (value : Str)
    (attrs : List XmlAttr) :
    (e.addAttr name value).addAttrs attrs = e.addAttrs (⟨name, value⟩ :: attrs) := by
  unfold XmlElement.addAttrs XmlElement.addAttr
  simp

/-! ## 4. The parser decides `TagPasses` -/

variable {pre name : Str} {content : XmlContent} {scope : Scope} {atts : List (Str × Str)}

theorem nsForPrefix_resolves {s : XmlnsStack} (h : Scope.Resolves s.bindings pre) :
    s.nsForPrefix pre = some ((Scope.prefixNs s.bindings pre).getD []) := by
  unfold XmlnsStack.nsForPrefix Scope.prefixNs
  rcases h with hxml | hxmlns | ⟨hplain, hfound⟩
  · rw [hxml]
    rfl
  · rw [hxmlns]
    rfl
  · have hxml : pre ≠ str "xml" := by
      rintro rfl
      exact absurd hplain (by decide)
    have hxmlns : pre ≠ str "xmlns" := by
      rintro rfl
      exact absurd hplain (by decide)
    rw [if_neg (by simp [hplain]), if_neg hxml, if_neg hxmlns]
    unfold Scope.declared at hfound ⊢
    generalize s.bindings.find? (fun b => decide (b.1 = pre)) = found at hfound ⊢
    rcases found with _ | b
    · have hempty : pre = [] := by simpa using hfound
      exact if_pos hempty
    · rfl

theorem nsForPrefix_unresolved {s : XmlnsStack} (h : ¬ Scope.Resolves s.bindings pre) :
    s.nsForPrefix pre = none := by
  unfold Scope.Resolves at h
  rw [not_or, not_or, not_and] at h
  obtain ⟨hxml, hxmlns, hplain⟩ := h
  unfold XmlnsStack.nsForPrefix
  by_cases hlike : XmlnsStack.startsWithXml pre = true
  · rw [if_pos hlike, if_neg hxml, if_neg hxmlns]
  · rw [if_neg hlike]
    have hfound := hplain (Bool.eq_false_iff.2 hlike)
    rw [not_or] at hfound
    unfold Scope.declared at hfound
    generalize s.bindings.find? (fun b => decide (b.1 = pre)) = found at hfound ⊢
    rcases found with _ | b
    · exact if_neg hfound.1
    · exact absurd rfl hfound.2

/-- `ResolveQName` fails exactly on the names that are not known. -/
theorem resolveQName_isEmpty (c : ParseContext) (name : Str) (isAttr : Bool) :
    (c.resolveQName name isAttr).isEmpty = false ↔
      Scope.Known c.xmlnsstack.bindings name isAttr := by
  have hdefault : Scope.Resolves c.xmlnsstack.bindings STR_EMPTY :=
    Or.inr (Or.inr ⟨rfl, Or.inl rfl⟩)
  unfold Scope.Known Scope.expanded ParseContext.resolveQName prefixOf
  rcases hsplit : splitColon name with _ | ⟨pre, localPart⟩
  · dsimp only
    rcases isAttr with _ | _
    · rw [nsForPrefix_resolves hdefault]
      constructor
      · intro h
        exact ⟨fun _ h' => absurd h' (by simp), h⟩
      · rintro ⟨-, h⟩
        exact h
    · constructor
      · intro h
        exact ⟨fun _ h' => absurd h' (by simp), h⟩
      · rintro ⟨-, h⟩
        exact h
  · dsimp only
    by_cases hres : Scope.Resolves c.xmlnsstack.bindings pre
    · rw [nsForPrefix_resolves hres]
      constructor
      · intro h
        refine ⟨?_, h⟩
        intro pre' heq
        rw [← Option.some.inj heq]
        exact hres
      · rintro ⟨-, h⟩
        exact h
    · rw [nsForPrefix_unresolved hres]
      constructor
      · intro h
        exact absurd h Bool.noConfusion
      · rintro ⟨h, -⟩
        exact absurd (h pre rfl) hres

/-- A known name is resolved to its expanded name. -/
theorem resolveQName_known {c : ParseContext} {isAttr : Bool}
    (h : Scope.Known c.xmlnsstack.bindings name isAttr) :
    c.resolveQName name isAttr = Scope.expanded c.xmlnsstack.bindings name isAttr := by
  have hdefault : Scope.Resolves c.xmlnsstack.bindings STR_EMPTY :=
    Or.inr (Or.inr ⟨rfl, Or.inl rfl⟩)
  obtain ⟨hpfx, -⟩ := h
  unfold Scope.expanded ParseContext.resolveQName
  rcases hsplit : splitColon name with _ | ⟨pre, localPart⟩
  · dsimp only
    rcases isAttr with _ | _
    · rw [nsForPrefix_resolves hdefault]
      rfl
    · rfl
  · dsimp only
    have hmem : pre ∈ prefixOf name := by
      unfold prefixOf
      rw [hsplit]
      rfl
    rw [nsForPrefix_resolves (hpfx pre hmem)]

/-- The attribute loop of `BuildElement`. -/
theorem buildAttrs_iff (c : ParseContext) (atts : List (Str × Str)) (seen : List QName)
    (el el' : XmlElement) :
    XmlBuilder.buildAttrs c atts seen el = some el' ↔
      (∀ a ∈ atts, Scope.Known c.xmlnsstack.bindings a.1 true) ∧
      (Scope.namespaced c.xmlnsstack.bindings atts).Nodup ∧
      (∀ q ∈ Scope.namespaced c.xmlnsstack.bindings atts, q ∉ seen) ∧
      el' = el.addAttrs (attrsOf c.xmlnsstack.bindings atts) := by
  induction atts generalizing seen el with
  | nil =>
    rw [XmlBuilder.buildAttrs, Option.some.injEq]
    simp [Scope.namespaced, attrsOf, XmlElement.addAttrs_nil, eq_comm]
  | cons a atts ih =>
    rw [XmlBuilder.buildAttrs]
    by_cases hknown : Scope.Known c.xmlnsstack.bindings a.1 true
    · have hempty : ¬ (c.resolveQName a.1 true).isEmpty = true := by
        rw [(resolveQName_isEmpty c a.1 true).2 hknown]
        decide
      rw [if_neg hempty, resolveQName_known hknown]
      generalize hq : Scope.expanded c.xmlnsstack.bindings a.1 true = q
      have hattrs : attrsOf c.xmlnsstack.bindings (a :: atts)
          = ⟨q, a.2⟩ :: attrsOf c.xmlnsstack.bindings atts := by
        unfold attrsOf
        rw [List.map_cons, hq]
      by_cases hns : q.ns.isEmpty = true
      · -- an attribute without a namespace is not looked at again
        have hlist : Scope.namespaced c.xmlnsstack.bindings (a :: atts)
            = Scope.namespaced c.xmlnsstack.bindings atts := by
          unfold Scope.namespaced
          rw [List.map_cons, hq, List.filter_cons_of_neg (by simpa using hns)]
        rw [if_pos hns, ih, hlist, hattrs, XmlElement.addAttr_addAttrs, List.forall_mem_cons]
        simp only [hknown, true_and]
      · have hlist : Scope.namespaced c.xmlnsstack.bindings (a :: atts)
            = q :: Scope.namespaced c.xmlnsstack.bindings atts := by
          unfold Scope.namespaced
          rw [List.map_cons, hq, List.filter_cons_of_pos (by simpa using hns)]
        rw [if_neg hns, hlist, hattrs]
        by_cases hseen : q ∈ seen
        · rw [if_pos hseen]
          simp [hseen]
        · rw [if_neg hseen, ih, XmlElement.addAttr_addAttrs, List.nodup_cons]
          simp only [List.mem_cons, not_or, forall_eq_or_imp]
          constructor
          · rintro ⟨hall, hnodup, hapart, hel⟩
            exact ⟨⟨hknown, hall⟩, ⟨fun hmem => (hapart q hmem).1 rfl, hnodup⟩,
              ⟨hseen, fun x hx => (hapart x hx).2⟩, hel⟩
          · rintro ⟨⟨-, hall⟩, ⟨hfresh, hnodup⟩, ⟨-, hapart⟩, hel⟩
            refine ⟨hall, hnodup, fun x hx => ⟨?_, hapart x hx⟩, hel⟩
            rintro rfl
            exact hfresh hx
    · have hempty : (c.resolveQName a.1 true).isEmpty = true := by
        by_cases h : (c.resolveQName a.1 true).isEmpty = true
        · exact h
        · exact absurd ((resolveQName_isEmpty c a.1 true).1 (Bool.eq_false_iff.2 h)) hknown
      rw [if_pos hempty]
      simp [hknown]

/-- The declarations of a tag: none of a prefix may be empty. -/
theorem declareAtts_eq (s : XmlnsStack) (atts : List (Str × Str)) :
    ((XmppStanzaParser.declareAtts ⟨s, .none⟩ atts).raised = .none ↔
      ∀ a ∈ atts, (str "xmlns:").isPrefixOf a.1 = true → a.2 ≠ []) ∧
    ((XmppStanzaParser.declareAtts ⟨s, .none⟩ atts).raised = .none →
      XmppStanzaParser.declareAtts ⟨s, .none⟩ atts
        = ⟨⟨Scope.inside s.bindings atts, s.depths⟩, .none⟩) := by
  induction atts generalizing s with
  | nil => exact ⟨by simp [XmppStanzaParser.declareAtts], fun _ => rfl⟩
  | cons a atts ih =>
    obtain ⟨name, value⟩ := a
    rw [XmppStanzaParser.declareAtts]
    -- the default namespace may be declared empty, a prefix may not
    by_cases hdefault : name = str "xmlns"
    · obtain ⟨hiff, heq⟩ := ih (s.addXmlns STR_EMPTY value)
      have hpfx : ¬ (str "xmlns:").isPrefixOf name = true := by
        rw [hdefault]
        decide
      rw [if_pos hdefault]
      refine ⟨?_, ?_⟩
      · refine hiff.trans ?_
        rw [List.forall_mem_cons]
        exact ⟨fun h => ⟨fun hp => absurd hp hpfx, h⟩, fun h => h.2⟩
      · intro hraised
        refine (heq hraised).trans ?_
        unfold Scope.inside declarations
        rw [List.filterMap_cons_some (b := ([], value)) (by simp [hdefault]), List.reverse_cons,
          List.append_assoc]
        rfl
    · rw [if_neg hdefault]
      by_cases hpfx : (str "xmlns:").isPrefixOf name = true
      · rw [if_pos hpfx]
        by_cases hempty : value.isEmpty = true
        · rw [if_pos hempty]
          have hraised : ((⟨s, .none⟩ : ParseContext).raiseError .syntaxError).raised
              ≠ .none := by
            simp [ParseContext.raiseError]
          refine ⟨?_, fun h => absurd h hraised⟩
          refine iff_of_false hraised fun h => ?_
          exact h (name, value) List.mem_cons_self hpfx (List.isEmpty_iff.1 hempty)
        · rw [if_neg hempty]
          obtain ⟨hiff, heq⟩ := ih (s.addXmlns (name.drop 6) value)
          have hvalue : value ≠ [] := by simpa using hempty
          refine ⟨?_, ?_⟩
          · refine hiff.trans ?_
            rw [List.forall_mem_cons]
            exact ⟨fun h => ⟨fun _ => hvalue, h⟩, fun h => h.2⟩
          · intro hraised
            refine (heq hraised).trans ?_
            unfold Scope.inside declarations
            rw [List.filterMap_cons_some (b := (name.drop 6, value))
              (by rw [if_neg hdefault, if_pos hpfx]), List.reverse_cons, List.append_assoc]
            rfl
      · rw [if_neg hpfx]
        obtain ⟨hiff, heq⟩ := ih s
        refine ⟨?_, ?_⟩
        · refine hiff.trans ?_
          rw [List.forall_mem_cons]
          exact ⟨fun h => ⟨fun hp => absurd hp hpfx, h⟩, fun h => h.2⟩
        · intro hraised
          refine (heq hraised).trans ?_
          unfold Scope.inside declarations
          rw [List.filterMap_cons_none (by rw [if_neg hdefault, if_neg hpfx])]

/-- A tag is opened exactly if it passes, with the expanded names. -/
theorem openElement_iff (s s' : XmlnsStack) (name : Str) (atts : List (Str × Str))
    (el : XmlElement) :
    openElement s name atts = some (s', el) ↔
      TagPasses (Scope.inside s.bindings atts) name atts ∧
      s' = ⟨Scope.inside s.bindings atts, s.bindings.length :: s.depths⟩ ∧
      el = elementOf (Scope.inside s.bindings atts) name atts := by
  obtain ⟨hiff, heq⟩ := declareAtts_eq s.pushFrame atts
  have hpush : s.pushFrame.bindings = s.bindings := rfl
  unfold openElement
  dsimp only
  by_cases hraised : (XmppStanzaParser.declareAtts ⟨s.pushFrame, .none⟩ atts).raised = .none
  · rw [if_neg (not_not_intro hraised), heq hraised, hpush]
    have hfilled := hiff.1 hraised
    generalize hscope : Scope.inside s.bindings atts = scope
    unfold XmlBuilder.buildElement
    dsimp only
    by_cases hknown : scope.Known name false
    · have hempty : ¬ (ParseContext.resolveQName ⟨⟨scope, s.pushFrame.depths⟩, .none⟩ name
          false).isEmpty = true := by
        rw [(resolveQName_isEmpty ⟨⟨scope, s.pushFrame.depths⟩, .none⟩ name false).2 hknown]
        decide
      rw [if_neg hempty, resolveQName_known (c := ⟨⟨scope, s.pushFrame.depths⟩, .none⟩) hknown,
        Option.map_eq_some_iff]
      constructor
      · rintro ⟨el', hbuild, hpair⟩
        obtain ⟨rfl, rfl⟩ := Prod.mk.inj hpair
        obtain ⟨hattrs, hnodup, -, hel⟩ := (buildAttrs_iff _ _ _ _ _).1 hbuild
        refine ⟨⟨hfilled, hknown, hattrs, hnodup⟩, rfl, ?_⟩
        rw [hel]
        rfl
      · rintro ⟨hpasses, rfl, rfl⟩
        refine ⟨_, (buildAttrs_iff _ _ _ _ _).2 ⟨hpasses.attrs, hpasses.distinct, ?_, rfl⟩, rfl⟩
        exact fun q _ => List.not_mem_nil
    · have hempty : (ParseContext.resolveQName ⟨⟨scope, s.pushFrame.depths⟩, .none⟩ name
          false).isEmpty = true := by
        by_cases h : (ParseContext.resolveQName ⟨⟨scope, s.pushFrame.depths⟩, .none⟩ name
            false).isEmpty = true
        · exact h
        · exact absurd ((resolveQName_isEmpty _ name false).1 (Bool.eq_false_iff.2 h)) hknown
      rw [if_pos hempty]
      refine iff_of_false (by simp) ?_
      rintro ⟨hpasses, -, -⟩
      exact hknown hpasses.element
  · rw [if_pos hraised]
    refine iff_of_false (by simp) ?_
    rintro ⟨hpasses, -, -⟩
    exact hraised (hiff.2 hpasses.filled)

/-! ## 5. Documents -/

/-- A property of every tag of the content, each in the scope inside it. -/
def XmlContent.All (P : Scope → Str → List (Str × Str) → Prop) (scope : Scope) : XmlContent → Prop
  | .nil => True
  | .text _ rest => rest.All P scope
  | .element name atts inner rest =>
    P (scope.inside atts) name atts ∧ inner.All P (scope.inside atts) ∧ rest.All P scope

/-- The element with the content added, under its expanded names. -/
def XmlContent.expand (scope : Scope) (el : XmlElement) : XmlContent → XmlElement
  | .nil => el
  | .text t rest => rest.expand scope (el.addText t)
  | .element name atts inner rest =>
    rest.expand scope (el.addElement
      (inner.expand (scope.inside atts) (elementOf (scope.inside atts) name atts)))

/-- The content is built exactly if its tags pass. -/
theorem build_iff (content : XmlContent) (s : XmlnsStack) (el el' : XmlElement) :
    content.build s el = some el' ↔
      content.All TagPasses s.bindings ∧ el' = content.expand s.bindings el := by
  induction content generalizing s el el' with
  | nil =>
    rw [XmlContent.build, XmlContent.All, XmlContent.expand, Option.some.injEq, true_and, eq_comm]
  | text t rest ih =>
    rw [XmlContent.build, XmlContent.All, XmlContent.expand, ih]
  | element name atts inner rest ihInner ihRest =>
    rw [XmlContent.build, XmlContent.All, XmlContent.expand]
    rcases hopened : openElement s name atts with _ | ⟨s', child⟩
    · refine iff_of_false (by simp) ?_
      rintro ⟨⟨htag, -, -⟩, -⟩
      have h := (openElement_iff s _ name atts _).2 ⟨htag, rfl, rfl⟩
      rw [hopened] at h
      exact absurd h (by simp)
    · obtain ⟨htag, hs', hchild⟩ := (openElement_iff s s' name atts child).1 hopened
      have hbindings : s'.bindings = Scope.inside s.bindings atts := by rw [hs']
      dsimp only
      rcases hinner : inner.build s' child with _ | child'
      · refine iff_of_false (by simp) ?_
        rintro ⟨⟨-, hall, -⟩, -⟩
        rw [← hbindings] at hall
        have h := (ihInner s' child _).2 ⟨hall, rfl⟩
        rw [hinner] at h
        exact absurd h (by simp)
      · obtain ⟨hall, hchild'⟩ := (ihInner s' child child').1 hinner
        rw [hbindings] at hall hchild'
        dsimp only
        rw [ihRest, hchild', hchild]
        constructor
        · rintro ⟨hrest, hel⟩
          exact ⟨⟨htag, hall, hrest⟩, hel⟩
        · rintro ⟨⟨-, -, hrest⟩, hel⟩
          exact ⟨hrest, hel⟩

/-- A property of tags that follows from another one. -/
theorem XmlContent.All.imp {P Q : Scope → Str → List (Str × Str) → Prop} (h : content.All P scope)
    (hpq : ∀ s name atts, P s name atts → Q s name atts) : content.All Q scope := by
  induction content generalizing scope with
  | nil => exact trivial
  | text t rest ih => exact ih h
  | element name atts inner rest ihInner ihRest =>
    obtain ⟨htag, hinner, hrest⟩ := h
    exact ⟨hpq _ _ _ htag, ihInner hinner, ihRest hrest⟩

/-! ## 6. `XmlParser` with `XmlBuilder` -/

namespace XmlBuilder

/-- One callback of expat, with the builder as the handler of the parser. -/
def expatEvent (p : ParseContext × XmlBuilder) (ev : ExpatEvent) : ParseContext × XmlBuilder :=
  if p.1.raised ≠ .none then p
  else
    match ev with
    | .startElement name atts =>
      let c := XmppStanzaParser.declareAtts
        { p.1 with xmlnsstack := p.1.xmlnsstack.pushFrame } atts
      if c.raised ≠ .none then (c, p.2)
      else
        match buildElement c name atts with
        | none => (c.raiseError .syntaxError, p.2)
        | some el => (c, p.2.startElement el)
    | .endElement _ => ({ p.1 with xmlnsstack := p.1.xmlnsstack.popFrame }, p.2.endElement)
    | .characterData text => (p.1, p.2.characterData text)
    | .xmlDecl ver enc standalone => (XmppStanzaParser.expatXmlDecl p.1 ver enc standalone, p.2)

/-- The callbacks one after the other. -/
def run (p : ParseContext × XmlBuilder) (evs : List ExpatEvent) : ParseContext × XmlBuilder :=
  evs.foldl expatEvent p

/-- `XmlElement::ForStr`: the tree, or none if an error is reported, after which the
builder is empty. -/
def forStr (evs : List ExpatEvent) : Option XmlElement :=
  let p := run (.init, .init) evs
  if p.1.raised ≠ .none then none else p.2.createElement.2

theorem run_raised {p : ParseContext × XmlBuilder} (h : p.1.raised ≠ .none)
    (evs : List ExpatEvent) : run p evs = p := by
  induction evs with
  | nil => rfl
  | cons ev evs ih =>
    have hone : expatEvent p ev = p := by
      unfold expatEvent
      rw [if_pos h]
    unfold run at ih ⊢
    rw [List.foldl_cons, hone, ih]

/-- A start tag: the element is opened, or an error is raised. -/
theorem expatEvent_start {c : ParseContext} (hr : c.raised = .none) (b : XmlBuilder) (name : Str)
    (atts : List (Str × Str)) :
    (∀ s' el, openElement c.xmlnsstack name atts = some (s', el) →
      expatEvent (c, b) (.startElement name atts) = (⟨s', .none⟩, b.startElement el)) ∧
    (openElement c.xmlnsstack name atts = none →
      (expatEvent (c, b) (.startElement name atts)).1.raised ≠ .none) := by
  obtain ⟨s, raised⟩ := c
  obtain rfl : raised = .none := hr
  have hev : expatEvent (⟨s, .none⟩, b) (.startElement name atts)
      = if (XmppStanzaParser.declareAtts ⟨s.pushFrame, .none⟩ atts).raised ≠ .none
        then (XmppStanzaParser.declareAtts ⟨s.pushFrame, .none⟩ atts, b)
        else
          match buildElement (XmppStanzaParser.declareAtts ⟨s.pushFrame, .none⟩ atts) name atts with
          | none =>
            ((XmppStanzaParser.declareAtts ⟨s.pushFrame, .none⟩ atts).raiseError .syntaxError, b)
          | some el =>
            (XmppStanzaParser.declareAtts ⟨s.pushFrame, .none⟩ atts, b.startElement el) :=
    if_neg (by simp)
  rw [hev]
  unfold openElement
  dsimp only
  generalize XmppStanzaParser.declareAtts ⟨s.pushFrame, .none⟩ atts = c
  by_cases hc : c.raised ≠ .none
  · rw [if_pos hc, if_pos hc]
    exact ⟨fun _ _ h => absurd h (by simp), fun _ => hc⟩
  · rw [if_neg hc, if_neg hc]
    have hc' : (⟨c.xmlnsstack, .none⟩ : ParseContext) = c := by
      obtain ⟨s', raised⟩ := c
      rw [show raised = .none by simpa using hc]
    rcases buildElement c name atts with _ | el
    · exact ⟨fun _ _ h => absurd h (by simp),
        fun _ => XmppStanzaParser.raiseError_raised c (by simp)⟩
    · refine ⟨?_, fun h => absurd h (by simp)⟩
      intro s' el' h
      obtain ⟨rfl, rfl⟩ := Prod.mk.inj (Option.some.inj h)
      rw [hc']

/-- The content of an open element is added to it, or an error is raised in it. -/
theorem run_content {c : ParseContext} {b : XmlBuilder} {el : XmlElement} {outer : List XmlElement}
    (content : XmlContent) (hr : c.raised = .none) (hopen : b.open_ = el :: outer) :
    (∀ el', content.build c.xmlnsstack el = some el' →
      run (c, b) content.events = (c, { b with open_ := el' :: outer })) ∧
    (content.build c.xmlnsstack el = none → (run (c, b) content.events).1.raised ≠ .none) := by
  induction content generalizing c b el outer with
  | nil =>
    refine ⟨?_, fun h => absurd h (by simp [XmlContent.build])⟩
    intro el' h
    rw [XmlContent.build] at h
    rw [← Option.some.inj h, ← hopen]
    rfl
  | text t rest ih =>
    rw [XmlContent.build, XmlContent.events]
    have htext : expatEvent (c, b) (.characterData t)
        = (c, { b with open_ := el.addText t :: outer }) := by
      unfold expatEvent characterData
      rw [if_neg (by simp [hr])]
      dsimp only
      rw [hopen]
    show (∀ el', _ → run (expatEvent (c, b) (.characterData t)) rest.events = _) ∧
      (_ → (run (expatEvent (c, b) (.characterData t)) rest.events).1.raised ≠ .none)
    rw [htext]
    exact ih (b := { b with open_ := el.addText t :: outer }) hr rfl
  | element name atts inner rest ihInner ihRest =>
    obtain ⟨hstart, hbad⟩ := expatEvent_start hr b name atts
    rw [XmlContent.build, XmlContent.events]
    show (∀ el', _ → run (expatEvent (c, b) (.startElement name atts))
        (inner.events ++ .endElement name :: rest.events) = _) ∧
      (_ → (run (expatEvent (c, b) (.startElement name atts))
        (inner.events ++ .endElement name :: rest.events)).1.raised ≠ .none)
    rcases hopened : openElement c.xmlnsstack name atts with _ | ⟨s', child⟩
    · have hraised := hbad hopened
      refine ⟨fun _ h => absurd h (by simp), fun _ => ?_⟩
      rw [run_raised hraised]
      exact hraised
    · rw [hstart s' child hopened]
      have hbopen : (b.startElement child).open_ = child :: el :: outer := by
        unfold startElement
        rw [← hopen]
      obtain ⟨hbuilt, hraised⟩ := ihInner (c := ⟨s', .none⟩) rfl hbopen
      have happend : ∀ q, run q (inner.events ++ .endElement name :: rest.events)
          = run (expatEvent (run q inner.events) (.endElement name)) rest.events := by
        intro q
        unfold run
        rw [List.foldl_append, List.foldl_cons]
      rw [happend]
      dsimp only at hbuilt hraised ⊢
      rcases hchild : inner.build s' child with _ | child'
      · have hr' := hraised hchild
        refine ⟨fun _ h => absurd h (by simp), fun _ => ?_⟩
        have hend : expatEvent (run (⟨s', .none⟩, b.startElement child) inner.events)
            (.endElement name) = run (⟨s', .none⟩, b.startElement child) inner.events := by
          unfold expatEvent
          rw [if_pos hr']
        rw [hend, run_raised hr']
        exact hr'
      · rw [hbuilt child' hchild]
        -- the end tag pops the bindings and puts the child into its parent
        have hend : expatEvent (⟨s', .none⟩,
            { b.startElement child with open_ := child' :: el :: outer }) (.endElement name)
            = (c, { b with open_ := el.addElement child' :: outer }) := by
          have hpop := XmppStanzaParser.popFrame_openElement hopened
          have hctx : (⟨s'.popFrame, .none⟩ : ParseContext) = c := by
            rw [hpop, ← hr]
          unfold expatEvent endElement
          rw [if_neg (by simp)]
          dsimp only
          rw [hctx]
          rfl
        rw [hend]
        exact ihRest (b := { b with open_ := el.addElement child' :: outer }) hr rfl

end XmlBuilder

/-! ## 7. What the parser decides -/

/-- What XML itself asks of a tag: names that are not empty, and no attribute twice. -/
def TagAccepted (_ : Scope) (name : Str) (atts : List (Str × Str)) : Prop :=
  name ≠ [] ∧ (∀ a ∈ atts, a.1 ≠ []) ∧ (atts.map (·.1)).Nodup

/-- A property of every tag of the document. -/
def StreamDocument.Every (doc : StreamDocument)
    (P : Scope → Str → List (Str × Str) → Prop) : Prop :=
  P (Scope.inside [] doc.atts) doc.name doc.atts ∧ doc.content.All P (Scope.inside [] doc.atts)

/-- A document that expat accepts. -/
structure XmlDocument extends StreamDocument where
  accepted : toStreamDocument.Every TagAccepted

namespace XmlDocument

/-- The tree `XmlElement::ForStr` makes of the document. -/
def parse (doc : XmlDocument) : Option XmlElement := XmlBuilder.forStr doc.events

/-- The tree of the document, with the names the recommendation assigns. -/
def tree (doc : XmlDocument) : XmlElement :=
  doc.content.expand (Scope.inside [] doc.atts)
    (elementOf (Scope.inside [] doc.atts) doc.name doc.atts)

end XmlDocument

/-- The root element of a document: it is built exactly if its tags pass, and then it is the
tree. -/
theorem root_iff (doc : XmlDocument) (t : XmlElement) :
    (if (XmlBuilder.run (.init, .init) (.startElement doc.name doc.atts
        :: (doc.content.events ++ [.endElement doc.name]))).1.raised ≠ .none then none
      else (XmlBuilder.run (.init, .init) (.startElement doc.name doc.atts
        :: (doc.content.events ++ [.endElement doc.name]))).2.createElement.2) = some t ↔
      doc.Every TagPasses ∧ t = doc.tree := by
  obtain ⟨hstart, hbad⟩ := XmlBuilder.expatEvent_start (c := .init) rfl .init doc.name doc.atts
  have hcons : XmlBuilder.run (.init, .init) (.startElement doc.name doc.atts
      :: (doc.content.events ++ [.endElement doc.name]))
      = XmlBuilder.expatEvent (XmlBuilder.run
        (XmlBuilder.expatEvent (.init, .init) (.startElement doc.name doc.atts))
          doc.content.events) (.endElement doc.name) := by
    unfold XmlBuilder.run
    rw [List.foldl_cons, List.foldl_append]
    rfl
  rw [hcons]
  rcases hopened : openElement .empty doc.name doc.atts with _ | ⟨s, root⟩
  · -- the start tag is refused, and the error it raises stays
    have hraised := hbad hopened
    rw [XmlBuilder.run_raised hraised]
    have hend : XmlBuilder.expatEvent
        (XmlBuilder.expatEvent (.init, .init) (.startElement doc.name doc.atts))
        (.endElement doc.name)
        = XmlBuilder.expatEvent (.init, .init) (.startElement doc.name doc.atts) := if_pos hraised
    rw [hend, if_pos hraised]
    refine iff_of_false (by simp) ?_
    rintro ⟨⟨htag, -⟩, -⟩
    have h := (openElement_iff .empty _ doc.name doc.atts _).2 ⟨htag, rfl, rfl⟩
    rw [hopened] at h
    exact absurd h (by simp)
  · obtain ⟨htag, hs, hroot⟩ := (openElement_iff .empty s doc.name doc.atts root).1 hopened
    have hbindings : s.bindings = Scope.inside [] doc.atts := by
      rw [hs]
      rfl
    rw [hstart s root hopened]
    obtain ⟨hbuilt, hraised⟩ := XmlBuilder.run_content (c := ⟨s, .none⟩)
      (b := XmlBuilder.init.startElement root) doc.content rfl (show _ = root :: [] from rfl)
    dsimp only at hbuilt hraised
    rcases hcontent : doc.content.build s root with _ | root'
    · -- so does an error in the content
      have hr := hraised hcontent
      have hend : XmlBuilder.expatEvent
          (XmlBuilder.run (⟨s, .none⟩, XmlBuilder.init.startElement root) doc.content.events)
          (.endElement doc.name)
          = XmlBuilder.run (⟨s, .none⟩, XmlBuilder.init.startElement root) doc.content.events :=
        if_pos hr
      rw [hend, if_pos hr]
      refine iff_of_false (by simp) ?_
      rintro ⟨⟨-, hall⟩, -⟩
      rw [← hbindings] at hall
      have h := (build_iff doc.content s root _).2 ⟨hall, rfl⟩
      rw [hcontent] at h
      exact absurd h (by simp)
    · obtain ⟨hall, hroot'⟩ := (build_iff doc.content s root root').1 hcontent
      rw [hbindings] at hall hroot'
      rw [hbuilt root' hcontent]
      -- the end tag of the root finishes it
      have hend : XmlBuilder.expatEvent (⟨s, .none⟩,
          { XmlBuilder.init.startElement root with open_ := [root'] }) (.endElement doc.name)
          = (⟨s.popFrame, .none⟩, ⟨[], some root'⟩) := if_neg (by simp)
      rw [hend, if_neg (by simp)]
      show some root' = some t ↔ _
      rw [Option.some.injEq, hroot', hroot, eq_comm]
      constructor
      · intro ht
        exact ⟨⟨htag, hall⟩, ht⟩
      · rintro ⟨-, ht⟩
        exact ht

/-- The whole document: it is parsed exactly if its XML declaration is accepted and its
tags pass, and then to its tree. -/
theorem parse_iff (doc : XmlDocument) (t : XmlElement) :
    doc.parse = some t ↔ doc.declAccepted = true ∧ doc.Every TagPasses ∧ t = doc.tree := by
  unfold XmlDocument.parse XmlBuilder.forStr StreamDocument.events StreamDocument.declEvents
    StreamDocument.declAccepted
  rcases doc.xmlDecl with _ | ⟨ver, enc, standalone⟩
  · dsimp only
    rw [List.nil_append, root_iff doc t]
    simp
  · dsimp only
    have hrun : ∀ evs, XmlBuilder.run (.init, .init) ([.xmlDecl ver enc standalone] ++ evs)
        = XmlBuilder.run (XmppStanzaParser.expatXmlDecl .init ver enc standalone, .init) evs :=
      fun _ => rfl
    rw [hrun]
    rcases XmppStanzaParser.expatXmlDecl_init ver enc standalone with hraised | hsame
    · -- the XML declaration is refused
      have hstop := XmlBuilder.run_raised
        (p := (XmppStanzaParser.expatXmlDecl .init ver enc standalone, .init)) hraised
      rw [hstop, if_pos hraised]
      refine iff_of_false (by simp) ?_
      rintro ⟨hdecl, -⟩
      exact hraised (by simpa using hdecl)
    · rw [hsame, root_iff doc t]
      simp [ParseContext.init]

/-! ## 8. The parser and the recommendation -/

/-- No prefix is declared empty in the scope. -/
def Scope.Filled (scope : Scope) : Prop := ∀ b ∈ scope, b.1 ≠ [] → b.2 ≠ []

theorem Scope.Filled.inside (h : scope.Filled)
    (hatts : ∀ a ∈ atts, (str "xmlns:").isPrefixOf a.1 = true → a.2 ≠ []) :
    (scope.inside atts).Filled := by
  intro b hb hpre
  rcases List.mem_append.1 hb with hnew | hold
  · rw [List.mem_reverse] at hnew
    obtain ⟨a, ha, heq⟩ := List.mem_filterMap.1 hnew
    by_cases hdefault : a.1 = str "xmlns"
    · rw [if_pos hdefault] at heq
      rw [← Option.some.inj heq] at hpre
      exact absurd rfl hpre
    · rw [if_neg hdefault] at heq
      by_cases hpfx : (str "xmlns:").isPrefixOf a.1 = true
      · rw [if_pos hpfx] at heq
        rw [← Option.some.inj heq]
        exact hatts a ha hpfx
      · rw [if_neg hpfx] at heq
        exact absurd heq (by simp)
  · exact h b hold hpre

theorem Scope.Filled.declared (h : scope.Filled) {ns : Str} (hpre : pre ≠ [])
    (hns : scope.declared pre = some ns) : ns ≠ [] := by
  obtain ⟨b, hfind, rfl⟩ := Option.map_eq_some_iff.1 hns
  have hb : b.1 = pre := by simpa using List.find?_some hfind
  refine h b (List.mem_of_find?_eq_some hfind) ?_
  rw [hb]
  exact hpre

/-- A tag whose names are `QName`s, that declares neither `xmlns` nor `xml` as anything
else, and whose element does not bear the prefix `xmlns`. -/
structure TagClean (scope : Scope) (name : Str) (atts : List (Str × Str)) : Prop where
  isQName : IsQName name
  areQNames : ∀ a ∈ atts, IsQName a.1
  reserved : ∀ a ∈ atts, (str "xmlns:").isPrefixOf a.1 = true →
    a.1.drop 6 ≠ str "xmlns" ∧ (a.1.drop 6 = str "xml" → a.2 = NS_XML)
  elementPrefix : prefixOf name ≠ some (str "xmlns")

/-- A prefix that does not begin with "xml", in any case, unless it is `xml` or `xmlns`. -/
def PlainPrefix (pre : Str) : Prop :=
  XmlnsStack.startsWithXml pre = false ∨ pre = str "xml" ∨ pre = str "xmlns"

/-- A tag with plain prefixes. -/
def TagPlain (_ : Scope) (name : Str) (atts : List (Str × Str)) : Prop :=
  (∀ pre ∈ prefixOf name, PlainPrefix pre) ∧ ∀ a ∈ atts, ∀ pre ∈ prefixOf a.1, PlainPrefix pre

theorem expanded_localPart {isAttr : Bool} (h : IsQName name) :
    (scope.expanded name isAttr).isEmpty = false := by
  unfold IsQName at h
  unfold Scope.expanded QName.isEmpty
  generalize splitColon name = split at h ⊢
  rcases split with _ | ⟨pre, localPart⟩
  · dsimp only at h ⊢
    simp [h]
  · dsimp only at h ⊢
    simp [h.2.1]

/-- A well-formed tag with plain prefixes passes. -/
theorem TagWf.passes (h : TagWf scope name atts) (hplain : TagPlain scope name atts) :
    TagPasses scope name atts := by
  have hresolves : ∀ pre, PlainPrefix pre →
      (pre = str "xml" ∨ pre = str "xmlns" ∨ (scope.declared pre).isSome = true) →
      scope.Resolves pre := by
    rintro pre hpre (hxml | hxmlns | hdeclared)
    · exact Or.inl hxml
    · exact Or.inr (Or.inl hxmlns)
    · rcases hpre with hunlike | hxml | hxmlns
      · exact Or.inr (Or.inr ⟨hunlike, Or.inr hdeclared⟩)
      · exact Or.inl hxml
      · exact Or.inr (Or.inl hxmlns)
  refine ⟨h.filled, ⟨?_, expanded_localPart h.isQName⟩, ?_, ?_⟩
  · intro pre hpre
    refine hresolves pre (hplain.1 pre hpre) ?_
    rcases h.elementPrefix pre hpre with hxml | ⟨-, hdeclared⟩
    · exact Or.inl hxml
    · exact Or.inr (Or.inr hdeclared)
  · intro a ha
    refine ⟨?_, expanded_localPart (h.areQNames a ha)⟩
    intro pre hpre
    exact hresolves pre (hplain.2 a ha pre hpre) (h.attrPrefix a ha pre hpre)
  · exact h.distinct.filter _

/-- What passes has plain prefixes. -/
theorem TagPasses.plain (h : TagPasses scope name atts) : TagPlain scope name atts := by
  have hplain : ∀ pre, scope.Resolves pre → PlainPrefix pre := by
    rintro pre (hxml | hxmlns | ⟨hunlike, -⟩)
    · exact Or.inr (Or.inl hxml)
    · exact Or.inr (Or.inr hxmlns)
    · exact Or.inl hunlike
  exact ⟨fun pre hpre => hplain pre (h.element.1 pre hpre),
    fun a ha pre hpre => hplain pre ((h.attrs a ha).1 pre hpre)⟩

/-- The prefix of a `QName` that resolves is `xml`, `xmlns` or declared. -/
theorem Scope.Resolves.declared (hq : IsQName name) (hpre : pre ∈ prefixOf name)
    (h : scope.Resolves pre) :
    pre ≠ [] ∧ (pre = str "xml" ∨ pre = str "xmlns" ∨ (scope.declared pre).isSome = true) := by
  obtain ⟨⟨pre', localPart⟩, hsplit, heq⟩ := Option.map_eq_some_iff.1 hpre
  have hne : pre ≠ [] := by
    unfold IsQName at hq
    rw [hsplit] at hq
    rw [← heq]
    exact hq.1
  refine ⟨hne, ?_⟩
  rcases h with hxml | hxmlns | ⟨-, hempty | hdeclared⟩
  · exact Or.inl hxml
  · exact Or.inr (Or.inl hxmlns)
  · exact absurd hempty hne
  · exact Or.inr (Or.inr hdeclared)

/-- In a clean tag that passes, an attribute without a namespace has no prefix: a prefix that
is known stands for a namespace that is not empty. -/
theorem TagPasses.localPart_eq (h : TagPasses scope name atts) (hclean : TagClean scope name atts)
    (hfilled : scope.Filled) {x : Str × Str} (hx : x ∈ atts)
    (hnone : (scope.expanded x.1 true).ns = []) : (scope.expanded x.1 true).localPart = x.1 := by
  unfold Scope.expanded at hnone ⊢
  rcases hsplit : splitColon x.1 with _ | ⟨pre, localPart⟩
  · rfl
  · rw [hsplit] at hnone
    dsimp only at hnone
    have hpre : pre ∈ prefixOf x.1 := by
      unfold prefixOf
      rw [hsplit]
      rfl
    obtain ⟨hne, hknown⟩ := Scope.Resolves.declared (hclean.areQNames x hx) hpre
      ((h.attrs x hx).1 pre hpre)
    unfold Scope.prefixNs at hnone
    by_cases hpxml : pre = str "xml"
    · rw [if_pos hpxml] at hnone
      exact absurd hnone (by decide)
    · rw [if_neg hpxml] at hnone
      by_cases hpxmlns : pre = str "xmlns"
      · rw [if_pos hpxmlns] at hnone
        exact absurd hnone (by decide)
      · rw [if_neg hpxmlns] at hnone
        have hdeclared := (hknown.resolve_left hpxml).resolve_left hpxmlns
        obtain ⟨ns, hd⟩ := Option.isSome_iff_exists.1 hdeclared
        rw [hd] at hnone
        exact absurd hnone (hfilled.declared hne hd)

/-- A clean tag that passes is well formed: attributes without a namespace are those
without a prefix, which XML itself keeps apart. -/
theorem TagPasses.wf (h : TagPasses scope name atts) (hclean : TagClean scope name atts)
    (hfilled : scope.Filled) (hxml : TagAccepted scope name atts) : TagWf scope name atts := by
  refine ⟨hclean.isQName, hclean.areQNames, h.filled, hclean.reserved, ?_, ?_, ?_⟩
  · intro pre hpre
    obtain ⟨-, hxml | hxmlns | hdeclared⟩ :=
      Scope.Resolves.declared hclean.isQName hpre (h.element.1 pre hpre)
    · exact Or.inl hxml
    · rw [hxmlns] at hpre
      exact absurd hpre hclean.elementPrefix
    · refine Or.inr ⟨?_, hdeclared⟩
      rintro rfl
      exact hclean.elementPrefix hpre
  · intro a ha pre hpre
    exact (Scope.Resolves.declared (hclean.areQNames a ha) hpre ((h.attrs a ha).1 pre hpre)).2
  · have hnodup : atts.Nodup := List.Nodup.of_map _ hxml.2.2
    refine List.Nodup.map_on ?_ hnodup
    intro a ha b hb heq
    by_cases hns : (scope.expanded a.1 true).ns = []
    · -- neither has a prefix, so the names are the local parts
      have hlocal := fun x (hx : x ∈ atts) => h.localPart_eq hclean hfilled hx
      have hnames : a.1 = b.1 := by
        rw [← hlocal a ha hns, ← hlocal b hb (by rw [← heq]; exact hns), heq]
      exact List.inj_on_of_nodup_map hxml.2.2 ha hb hnames
    · -- both have a namespace, and those names are distinct
      have hmem : ∀ x ∈ atts, (scope.expanded x.1 true).ns ≠ [] →
          x ∈ atts.filter (fun x => !(scope.expanded x.1 true).ns.isEmpty) := by
        intro x hx hsome
        exact List.mem_filter.2 ⟨hx, by simpa using hsome⟩
      have hdistinct : ((atts.filter fun x => !(scope.expanded x.1 true).ns.isEmpty).map
          fun x => scope.expanded x.1 true).Nodup := by
        have hd := h.distinct
        unfold Scope.namespaced at hd
        rw [List.filter_map] at hd
        exact hd
      exact List.inj_on_of_nodup_map hdistinct (hmem a ha hns)
        (hmem b hb (by rw [← heq]; exact hns)) heq

/-- Clean content that passes is well formed. The scopes inside stay filled, as no tag that
passes declares a prefix empty. -/
theorem XmlContent.All.wf (hfilled : scope.Filled) (h : content.All TagPasses scope)
    (hclean : content.All TagClean scope) (hxml : content.All TagAccepted scope) :
    content.All TagWf scope := by
  induction content generalizing scope with
  | nil => exact trivial
  | text t rest ih => exact ih hfilled h hclean hxml
  | element name atts inner rest ihInner ihRest =>
    obtain ⟨htag, hinner, hrest⟩ := h
    obtain ⟨hctag, hcinner, hcrest⟩ := hclean
    obtain ⟨hxtag, hxinner, hxrest⟩ := hxml
    have hin : (scope.inside atts).Filled := hfilled.inside htag.filled
    exact ⟨htag.wf hctag hin hxtag, ihInner hin hinner hcinner hxinner,
      ihRest hfilled hrest hcrest hxrest⟩

/-- Well-formed content with plain prefixes passes. -/
theorem XmlContent.All.passes (h : content.All TagWf scope) (hplain : content.All TagPlain scope) :
    content.All TagPasses scope := by
  induction content generalizing scope with
  | nil => exact trivial
  | text t rest ih => exact ih h hplain
  | element name atts inner rest ihInner ihRest =>
    obtain ⟨htag, hinner, hrest⟩ := h
    obtain ⟨hptag, hpinner, hprest⟩ := hplain
    exact ⟨htag.passes hptag, ihInner hinner hpinner, ihRest hrest hprest⟩

namespace XmlDocument

/-- A namespace-well-formed document. -/
def Wf (doc : XmlDocument) : Prop := doc.Every TagWf

theorem every_plain {doc : XmlDocument} (h : doc.Every TagPasses) : doc.Every TagPlain :=
  ⟨h.1.plain, h.2.imp fun _ _ _ => TagPasses.plain⟩

theorem wf_of_passes {doc : XmlDocument} (h : doc.Every TagPasses) (hclean : doc.Every TagClean) :
    doc.Wf := by
  have hroot : (Scope.inside [] doc.atts).Filled :=
    Scope.Filled.inside (fun b hb => absurd hb (by simp)) h.1.filled
  exact ⟨h.1.wf hclean.1 hroot doc.accepted.1,
    XmlContent.All.wf hroot h.2 hclean.2 doc.accepted.2⟩

theorem passes_of_wf {doc : XmlDocument} (h : doc.Wf) (hplain : doc.Every TagPlain) :
    doc.Every TagPasses :=
  ⟨h.1.passes hplain.1, XmlContent.All.passes h.2 hplain.2⟩

/-- A well-formed document is parsed exactly if its XML declaration is accepted and its
prefixes are plain, a clean document that is parsed is well formed, and what is parsed
bears the names the recommendation assigns. -/
theorem namespaces_decided (doc : XmlDocument) :
    (doc.Wf → (doc.parse.isSome = true ↔
      doc.declAccepted = true ∧ doc.Every TagPlain)) ∧
    (doc.Every TagClean → doc.parse.isSome = true → doc.Wf) ∧
    (∀ t, doc.parse = some t → t = doc.tree) := by
  have hsome : doc.parse.isSome = true ↔ doc.declAccepted = true ∧ doc.Every TagPasses := by
    rw [Option.isSome_iff_exists]
    constructor
    · rintro ⟨t, ht⟩
      obtain ⟨hdecl, hpasses, -⟩ := (parse_iff doc t).1 ht
      exact ⟨hdecl, hpasses⟩
    · rintro ⟨hdecl, hpasses⟩
      exact ⟨doc.tree, (parse_iff doc _).2 ⟨hdecl, hpasses, rfl⟩⟩
  refine ⟨?_, ?_, ?_⟩
  · intro hwf
    rw [hsome]
    constructor
    · rintro ⟨hdecl, hpasses⟩
      exact ⟨hdecl, every_plain hpasses⟩
    · rintro ⟨hdecl, hplain⟩
      exact ⟨hdecl, passes_of_wf hwf hplain⟩
  · intro hclean hparsed
    exact wf_of_passes (hsome.1 hparsed).2 hclean
  · intro t ht
    exact ((parse_iff doc t).1 ht).2.2

/-- `<a:r xmlns:a="u" xmlns="d"><x a:k="v"/></a:r>`. -/
def declaring : XmlDocument where
  xmlDecl := none
  name := str "a:r"
  atts := [(str "xmlns:a", str "u"), (str "xmlns", str "d")]
  content := .element (str "x") [(str "a:k", str "v")] .nil .nil
  accepted := by
    refine ⟨⟨by decide, by decide, by decide⟩, ⟨by decide, by decide, by decide⟩, trivial, trivial⟩

/-- It is parsed, so it is well formed, and the tree is its tree. -/
theorem namespaces_decided_declaring : declaring.Wf ∧ declaring.parse = some declaring.tree := by
  obtain ⟨-, hwf, htree⟩ := namespaces_decided declaring
  have hparsed : declaring.parse.isSome = true := by decide
  have hroot : TagClean (Scope.inside [] declaring.atts) declaring.name declaring.atts :=
    ⟨by decide, by decide, by decide, by decide⟩
  have hchild : TagClean (Scope.inside (Scope.inside [] declaring.atts) [(str "a:k", str "v")])
      (str "x") [(str "a:k", str "v")] :=
    ⟨by decide, by decide, by decide, by decide⟩
  refine ⟨hwf ⟨hroot, hchild, trivial, trivial⟩ hparsed, ?_⟩
  obtain ⟨t, ht⟩ := Option.isSome_iff_exists.1 hparsed
  rw [ht, htree t ht]

/-- `<a xmlns:xmlish="u" xmlish:b="v"/>`: the prefix begins with "xml". -/
def xmlish : XmlDocument where
  xmlDecl := none
  name := str "a"
  atts := [(str "xmlns:xmlish", str "u"), (str "xmlish:b", str "v")]
  content := .nil
  accepted := ⟨⟨by decide, by decide, by decide⟩, trivial⟩

/-- Not every well-formed document is parsed. -/
theorem xmlish_prefix_refused : ¬ ∀ doc : XmlDocument, doc.parse.isSome = true ↔ doc.Wf := by
  intro h
  have hwf : xmlish.Wf :=
    ⟨⟨by decide, by decide, by decide, by decide, by decide,
      by decide, by decide⟩, trivial⟩
  have hparsed : xmlish.parse.isSome = true := (h xmlish).2 hwf
  exact absurd hparsed (by decide)

end XmlDocument

end Gxmpp
