/-
Printer and parser on namespaces: what is printed is parsed under the same names.

The parser meets the declarations of a tag in the order in which the printer made
them, so inside a tag its bindings are those of the printer, and a prefix the
printer found is resolved to the namespace it was found for. The printer invents
a prefix for whatever has none, also for an element in no namespace under a
default that is not empty. That declaration has an empty value, as has a
declaration of a prefix that the tree itself contains with an empty value, and
the parser refuses both. `declarable` says that neither is there; it looks at the
declarations of the tree only, since the prefixes that are invented change nothing
about the empty namespace.
-/
import Gxmpp.PrinterScope
import Gxmpp.NamespaceWf

set_option autoImplicit false

namespace Gxmpp

open ParseContext (splitColon splitColon_append splitColon_none)
open XmlPrinter (Piece pieces childrenPieces childPieces startPiece tagStack needed declared
  explicit)

/-! ## 1. The parser on what is printed -/

/-- A declaration the printer adds, as an attribute. -/
def xmlnsAttr (b : Str × Str) : Str × Str :=
  (if b.1 = STR_EMPTY then str "xmlns" else str "xmlns:" ++ b.1, b.2)

/-- The callbacks of expat for a piece. -/
def XmlPrinter.Piece.events : Piece → List ExpatEvent
  | .startTag name atts xmlns empty =>
    .startElement name (atts ++ xmlns.map xmlnsAttr) :: if empty then [.endElement name] else []
  | .endTag name => [.endElement name]
  | .text t => [.characterData t]
  | .cdata t => [.characterData t]

/-- The names a handler of the parser resolves in a start tag. -/
structure TagNames where
  name : QName
  attrs : List QName

namespace TagNames

/-- A callback of expat, for a handler that resolves the names and keeps them. -/
def expatEvent (p : ParseContext × List TagNames) (ev : ExpatEvent) :
    ParseContext × List TagNames :=
  if p.1.raised ≠ .none then p
  else
    match ev with
    | .startElement name atts =>
      let c := XmppStanzaParser.declareAtts
        { p.1 with xmlnsstack := p.1.xmlnsstack.pushFrame } atts
      if c.raised ≠ .none then (c, p.2)
      else (c, p.2 ++ [⟨c.resolveQName name false, atts.map fun a => c.resolveQName a.1 true⟩])
    | .endElement _ => ({ p.1 with xmlnsstack := p.1.xmlnsstack.popFrame }, p.2)
    | .characterData _ => p
    | .xmlDecl ver enc standalone => (XmppStanzaParser.expatXmlDecl p.1 ver enc standalone, p.2)

/-- The callbacks one after the other. -/
def run (p : ParseContext × List TagNames) (evs : List ExpatEvent) : ParseContext × List TagNames :=
  evs.foldl expatEvent p

/-- The names are those of the element, and those of declarations the printer added. -/
def Of (names : TagNames) (e : XmlElement) : Prop :=
  names.name = e.name ∧
    ∃ extra, names.attrs = e.attrs.map (·.name) ++ extra ∧ ∀ q ∈ extra, q.ns = NS_XMLNS

theorem run_raised {p : ParseContext × List TagNames} (h : p.1.raised ≠ .none)
    (evs : List ExpatEvent) : run p evs = p := by
  unfold run
  refine List.foldl_fixed' ?_ evs
  intro ev
  unfold expatEvent
  rw [if_pos h]

theorem run_append (p : ParseContext × List TagNames) (evs evs' : List ExpatEvent) :
    run p (evs ++ evs') = run (run p evs) evs' := by
  unfold run
  rw [List.foldl_append]

theorem run_cons (p : ParseContext × List TagNames) (ev : ExpatEvent) (evs : List ExpatEvent) :
    run p (ev :: evs) = run (expatEvent p ev) evs := rfl

end TagNames

mutual

/-- The elements of a tree, in the order of their start tags. -/
def XmlElement.preorder : XmlElement → List XmlElement
  | ⟨name, attrs, children, cdata⟩ =>
    ⟨name, attrs, children, cdata⟩ :: XmlElement.preorderChildren children

/-- The elements below the children. -/
def XmlElement.preorderChildren : List XmlChild → List XmlElement
  | [] => []
  | c :: cs => XmlElement.preorderChild c ++ XmlElement.preorderChildren cs

/-- The elements of a child. -/
def XmlElement.preorderChild : XmlChild → List XmlElement
  | .text _ => []
  | .element e => e.preorder

end

/-- The local parts of the tree are names without a colon. -/
def XmlElement.NCNames (e : XmlElement) : Prop :=
  ∀ x ∈ e.preorder, isNCName x.name.localPart = true ∧
    ∀ a ∈ x.attrs, isNCName a.name.localPart = true

/-- No error is raised, and every element and attribute is resolved to its own name. -/
def Agree (ns : XmlnsStack) (e : XmlElement) : Prop :=
  let p := TagNames.run (⟨ns, .none⟩, []) ((pieces ns e).flatMap Piece.events)
  p.1.raised = .none ∧ List.Forall₂ TagNames.Of p.2 e.preorder

/-! ## 2. What can be declared -/

/-- The declarations of a tag have values, and an element in no namespace is written under
a prefix, or without one, that stands for that. -/
def declarableTag (s : XmlnsStack) (name : QName) (attrs : List XmlAttr) : Bool :=
  attrs.all (fun a => a.name.ns ≠ NS_XMLNS || !a.value.isEmpty) &&
    (!name.ns.isEmpty || (s.prefixForNs STR_EMPTY false).isSome)

mutual

/-- Every tag of the tree can be declared; `s` has the declarations of the tree alone. -/
def declarable : XmlnsStack → XmlElement → Bool
  | s, ⟨name, attrs, children, _⟩ =>
    declarableTag (declared s attrs) name attrs && declarableChildren (declared s attrs) children

/-- Every tag below the children. -/
def declarableChildren : XmlnsStack → List XmlChild → Bool
  | _, [] => true
  | s, c :: cs => declarableChild s c && declarableChildren s cs

/-- Every tag of a child. -/
def declarableChild : XmlnsStack → XmlChild → Bool
  | _, .text _ => true
  | s, .element e => declarable s e

end

/-! ## 3. The names that are printed -/

/-- Bindings whose prefixes have no colon. -/
def ColonFree (s : XmlnsStack) : Prop := ∀ b ∈ s.bindings, (0x3A : UInt8) ∉ b.1

variable {s ns : XmlnsStack} {name : QName} {attrs : List XmlAttr}

theorem colon_of_resolved (hs : ColonFree s) {pre ns : Str} (h : s.nsForPrefix pre = some ns) :
    (0x3A : UInt8) ∉ pre := by
  rcases XmlnsStack.nsForPrefix_some h with ⟨rfl, -⟩ | ⟨rfl, -⟩ | hmem | ⟨rfl, -⟩
  · decide
  · decide
  · exact hs (pre, ns) hmem
  · decide

theorem splitColon_some {name pre localPart : Str} (h : splitColon name = some (pre, localPart)) :
    name = pre ++ str ":" ++ localPart := by
  have hcolon : str ":" = [(0x3A : UInt8)] := by decide
  have hsplit := List.takeWhile_append_dropWhile
    (p := fun ch => decide (ch ≠ (0x3A : UInt8))) (l := name)
  unfold splitColon at h
  rcases hdrop : name.dropWhile (fun ch => decide (ch ≠ (0x3A : UInt8))) with _ | ⟨ch, rest⟩
  · rw [hdrop] at h
    exact absurd h (by simp)
  · rw [hdrop] at h hsplit
    obtain ⟨hpre, hrest⟩ := Prod.mk.inj (Option.some.inj h)
    have hch : ch = 0x3A := by
      have hhead := List.head?_dropWhile_not (fun ch => decide (ch ≠ (0x3A : UInt8))) name
      rw [hdrop] at hhead
      simpa using hhead
    rw [← hsplit, hpre, hch, ← hrest, hcolon]
    simp

/-- The names that begin with "xmlns:" are those with that prefix. -/
theorem isPrefixOf_xmlns (name : Str) :
    (str "xmlns:").isPrefixOf name = true ↔
    ∃ localPart, splitColon name = some (str "xmlns", localPart) := by
  have hsplit : str "xmlns:" = str "xmlns" ++ str ":" := by decide
  rw [List.isPrefixOf_iff_prefix, hsplit]
  constructor
  · rintro ⟨localPart, rfl⟩
    exact ⟨localPart, splitColon_append (by decide) localPart⟩
  · rintro ⟨localPart, h⟩
    exact ⟨localPart, (splitColon_some h).symm⟩

/-- The prefix of an element that is found. -/
theorem formatQName_element (hs : ColonFree s)
    (hfound : (s.prefixForNs name.ns false).isSome = true) :
    ∃ pre, (0x3A : UInt8) ∉ pre ∧ s.nsForPrefix pre = some name.ns ∧
      s.formatQName name false =
        if pre = STR_EMPTY then name.localPart else pre ++ str ":" ++ name.localPart := by
  obtain ⟨pre, hpre⟩ := Option.isSome_iff_exists.1 hfound
  rcases XmlnsStack.prefixForNs_some hpre with ⟨hattr, -⟩ | ⟨hns, -⟩
  · exact absurd hattr (by simp)
  · refine ⟨pre, colon_of_resolved hs hns, hns, ?_⟩
    unfold XmlnsStack.formatQName
    rw [hpre]
    rfl

/-- An attribute in no namespace is written without a prefix. -/
theorem formatQName_bare (s : XmlnsStack) (h : name.ns = []) :
    s.formatQName name true = name.localPart := by
  unfold XmlnsStack.formatQName XmlnsStack.prefixForNs
  rw [h]
  rfl

/-- The prefix of an attribute that is found; it is `xmlns` for a declaration only. -/
theorem formatQName_attr (hs : ColonFree s) (hfound : (s.prefixForNs name.ns true).isSome = true)
    (hne : name.ns ≠ []) :
    ∃ pre, (0x3A : UInt8) ∉ pre ∧ s.nsForPrefix pre = some name.ns ∧
      (pre = str "xmlns" ↔ name.ns = NS_XMLNS) ∧
      s.formatQName name true = pre ++ str ":" ++ name.localPart := by
  obtain ⟨pre, hpre⟩ := Option.isSome_iff_exists.1 hfound
  rcases XmlnsStack.prefixForNs_some hpre with ⟨-, hnil, -⟩ | ⟨hns, hpre'⟩
  · exact absurd hnil hne
  · refine ⟨pre, colon_of_resolved hs hns, hns, ?_, ?_⟩
    · constructor
      · rintro rfl
        exact (Option.some.inj hns).symm
      · intro hxmlns
        rw [hxmlns] at hpre
        exact (Option.some.inj hpre).symm
    · unfold XmlnsStack.formatQName
      rw [hpre]
      exact if_neg (hpre' rfl)

/-! ## 4. The declarations of a start tag -/

/-- The attributes of a start tag, as they are printed. -/
def printedAtts (s : XmlnsStack) (attrs : List XmlAttr) : List (Str × Str) :=
  attrs.map fun a => (s.formatQName a.name true, a.value)

/-- The parser takes an attribute for a declaration exactly if the printer does. -/
theorem declaration_printed (hs : ColonFree s) {a : XmlAttr}
    (hfound : (s.prefixForNs a.name.ns true).isSome = true)
    (hnc : isNCName a.name.localPart = true) :
    (if s.formatQName a.name true = str "xmlns" then some (([] : Str), a.value)
      else if (str "xmlns:").isPrefixOf (s.formatQName a.name true) then
        some ((s.formatQName a.name true).drop 6, a.value)
      else none)
      = (if a.name = QN_XMLNS then some ([], a.value)
        else if a.name.ns = NS_XMLNS then some (a.name.localPart, a.value)
        else none) ∧
    ((str "xmlns:").isPrefixOf (s.formatQName a.name true) = true ↔ a.name.ns = NS_XMLNS) := by
  have hlocal := colon_not_mem hnc
  -- without a namespace the name is printed bare, and `xmlns` declares the default one
  by_cases hnil : a.name.ns = []
  · have hxmlns : a.name.ns ≠ NS_XMLNS := by
      rw [hnil]
      decide
    have hpfx : ¬ (str "xmlns:").isPrefixOf a.name.localPart = true := by
      rw [isPrefixOf_xmlns, splitColon_none hlocal]
      simp
    rw [formatQName_bare s hnil]
    refine ⟨?_, iff_of_false hpfx hxmlns⟩
    by_cases hdefault : a.name.localPart = str "xmlns"
    · have hname : a.name = QN_XMLNS := by
        rw [QN_XMLNS, QName.mk.injEq]
        exact ⟨hnil, hdefault⟩
      rw [if_pos hdefault, if_pos hname]
    · have hname : a.name ≠ QN_XMLNS := by
        intro h
        rw [h] at hdefault
        exact hdefault rfl
      rw [if_neg hdefault, if_neg hname, if_neg hpfx, if_neg hxmlns]
  -- a printed prefix is split off again at the first colon, and it is `xmlns` for NS_XMLNS alone
  · obtain ⟨pre, hcolon, -, hxmlns, hfmt⟩ := formatQName_attr hs hfound hnil
    have hsplit : splitColon (s.formatQName a.name true) = some (pre, a.name.localPart) := by
      rw [hfmt]
      exact splitColon_append hcolon _
    have hbare : s.formatQName a.name true ≠ str "xmlns" := by
      intro h
      rw [h] at hsplit
      exact absurd hsplit (by simp [splitColon_none (show (0x3A : UInt8) ∉ str "xmlns" by decide)])
    have hname : a.name ≠ QN_XMLNS := by
      intro h
      rw [h] at hnil
      exact hnil rfl
    have hpfx : (str "xmlns:").isPrefixOf (s.formatQName a.name true) = true ↔
        a.name.ns = NS_XMLNS := by
      rw [isPrefixOf_xmlns, hsplit, ← hxmlns]
      simp
    refine ⟨?_, hpfx⟩
    rw [if_neg hbare, if_neg hname]
    by_cases hdecl : a.name.ns = NS_XMLNS
    · have hdrop : (s.formatQName a.name true).drop 6 = a.name.localPart := by
        rw [hfmt, hxmlns.2 hdecl]
        rfl
      rw [if_pos (hpfx.2 hdecl), if_pos hdecl, hdrop]
    · rw [if_neg fun h => hdecl (hpfx.1 h), if_neg hdecl]

/-- A declaration the printer adds is one for the parser. -/
theorem declaration_added {b : Str × Str} (hinv : XmlnsStack.Invented b.1) :
    (str "xmlns:").isPrefixOf (xmlnsAttr b).1 = true ∧ (xmlnsAttr b).1 ≠ str "xmlns" ∧
      (xmlnsAttr b).1.drop 6 = b.1 ∧
      splitColon (xmlnsAttr b).1 = some (str "xmlns", b.1) := by
  have hne : b.1 ≠ STR_EMPTY := isNCName_ne_nil hinv.ncName
  have hattr : (xmlnsAttr b).1 = str "xmlns" ++ str ":" ++ b.1 := by
    unfold xmlnsAttr
    rw [if_neg hne]
    rfl
  have hsplit : splitColon (str "xmlns" ++ str ":" ++ b.1) = some (str "xmlns", b.1) :=
    splitColon_append (by decide) b.1
  rw [hattr]
  refine ⟨?_, ?_, rfl, hsplit⟩
  · rw [isPrefixOf_xmlns]
    exact ⟨b.1, hsplit⟩
  · intro h
    rw [h] at hsplit
    exact absurd hsplit (by simp [splitColon_none (show (0x3A : UInt8) ∉ str "xmlns" by decide)])

/-- The parser declares what the printer has declared, in the same order. -/
theorem declarations_printed (hs : ColonFree s)
    (hfound : ∀ a ∈ attrs, (s.prefixForNs a.name.ns true).isSome = true)
    (hnc : ∀ a ∈ attrs, isNCName a.name.localPart = true) {new : List (Str × Str)}
    (hinv : ∀ b ∈ new, XmlnsStack.Invented b.1) :
    declarations (printedAtts s attrs ++ new.map xmlnsAttr) = explicit attrs ++ new := by
  have hattrs : declarations (printedAtts s attrs) = explicit attrs := by
    unfold declarations printedAtts explicit
    rw [List.filterMap_map]
    exact List.filterMap_congr fun a ha => (declaration_printed hs (hfound a ha) (hnc a ha)).1
  have hnew : declarations (new.map xmlnsAttr) = new := by
    unfold declarations
    rw [List.filterMap_map]
    refine (List.filterMap_congr fun b hb => ?_).trans List.filterMap_some
    obtain ⟨hpfx, hbare, hdrop, -⟩ := declaration_added (hinv b hb)
    show (if (xmlnsAttr b).1 = str "xmlns" then _ else if _ then _ else _) = some b
    rw [if_neg hbare, if_pos hpfx, hdrop]
    rfl
  unfold declarations at hattrs hnew ⊢
  rw [List.filterMap_append, hattrs, hnew]

/-- The bindings of a tag have no colon. -/
theorem ColonFree.tagStack (h : ColonFree ns) (name : QName)
    (hnc : ∀ a ∈ attrs, isNCName a.name.localPart = true) : ColonFree (tagStack ns name attrs) := by
  intro b hb
  rcases XmlPrinter.mem_tagStack hb with hdefault | ⟨a, ha, heq⟩ | hinvented | hout
  · rw [hdefault]
    exact List.not_mem_nil
  · rw [← heq]
    exact colon_not_mem (hnc a ha)
  · exact colon_not_mem hinvented
  · exact h b hout

/-- A tag can be declared exactly if no prefix it declares gets an empty value: a value of the
tree, or the namespace of a new prefix. -/
theorem declarableTag_iff (h : ColonFree ns) (name : QName)
    (hnc : ∀ a ∈ attrs, isNCName a.name.localPart = true) :
    (∀ a ∈ printedAtts (tagStack ns name attrs) attrs
      ++ (needed (declared ns.pushFrame attrs) name attrs).2.map xmlnsAttr,
      (str "xmlns:").isPrefixOf a.1 = true → a.2 ≠ []) ↔
      declarableTag (declared ns.pushFrame attrs) name attrs = true := by
  obtain ⟨hext, -, hfound, -⟩ :=
    XmlPrinter.needed_spec (declared ns.pushFrame attrs) name attrs
  have hempty := XmlPrinter.needed_empty (declared ns.pushFrame attrs) name attrs
  have hs := h.tagStack name hnc
  have hattrs : (∀ a ∈ printedAtts (tagStack ns name attrs) attrs,
      (str "xmlns:").isPrefixOf a.1 = true → a.2 ≠ []) ↔
      ∀ a ∈ attrs, a.name.ns = NS_XMLNS → a.value ≠ [] := by
    constructor
    · intro hall a ha hxmlns
      exact hall _ (List.mem_map_of_mem ha)
        ((declaration_printed hs (hfound a ha) (hnc a ha)).2.2 hxmlns)
    · intro hall x hx hpfx
      obtain ⟨a, ha, rfl⟩ := List.mem_map.1 hx
      exact hall a ha ((declaration_printed hs (hfound a ha) (hnc a ha)).2.1 hpfx)
  have hnew : (∀ a ∈ (needed (declared ns.pushFrame attrs) name attrs).2.map xmlnsAttr,
      (str "xmlns:").isPrefixOf a.1 = true → a.2 ≠ []) ↔
      (name.ns = [] →
        ((declared ns.pushFrame attrs).prefixForNs STR_EMPTY false).isSome = true) := by
    constructor
    · intro hall hnil
      apply Classical.byContradiction
      intro hsome
      obtain ⟨b, hb, hb'⟩ := hempty.2 ⟨hnil, Option.not_isSome_iff_eq_none.1 hsome⟩
      exact hall _ (List.mem_map_of_mem hb) (declaration_added (hext.invented b hb)).1 hb'
    · intro himp x hx _ hx'
      obtain ⟨b, hb, rfl⟩ := List.mem_map.1 hx
      obtain ⟨hnil, hnone⟩ := hempty.1 ⟨b, hb, hx'⟩
      have hsome := himp hnil
      rw [STR_EMPTY, hnone] at hsome
      exact absurd hsome (by simp)
  rw [List.forall_mem_append, hattrs, hnew]
  unfold declarableTag
  rw [Bool.and_eq_true, List.all_eq_true]
  simp only [Bool.or_eq_true, decide_eq_true_eq, Bool.not_eq_true', List.isEmpty_eq_false_iff,
    ne_eq, imp_iff_not_or]

/-- Inside a tag that can be declared the parser has the bindings of the printer, and a tag
that cannot be declared raises an error. -/
theorem declareAtts_printed (h : ColonFree ns) (name : QName)
    (hnc : ∀ a ∈ attrs, isNCName a.name.localPart = true) :
    (declarableTag (declared ns.pushFrame attrs) name attrs = true →
      XmppStanzaParser.declareAtts ⟨ns.pushFrame, .none⟩
        (printedAtts (tagStack ns name attrs) attrs
          ++ (needed (declared ns.pushFrame attrs) name attrs).2.map xmlnsAttr)
        = ⟨tagStack ns name attrs, .none⟩) ∧
    (declarableTag (declared ns.pushFrame attrs) name attrs = false →
      (XmppStanzaParser.declareAtts ⟨ns.pushFrame, .none⟩
        (printedAtts (tagStack ns name attrs) attrs
          ++ (needed (declared ns.pushFrame attrs) name attrs).2.map xmlnsAttr)).raised ≠
          .none) := by
  obtain ⟨hext, -, hfound, -⟩ :=
    XmlPrinter.needed_spec (declared ns.pushFrame attrs) name attrs
  have hs := h.tagStack name hnc
  have hdecls := declarations_printed hs hfound hnc hext.invented
  obtain ⟨hiff, heq⟩ := declareAtts_eq ns.pushFrame
    (printedAtts (tagStack ns name attrs) attrs
      ++ (needed (declared ns.pushFrame attrs) name attrs).2.map xmlnsAttr)
  have hvalues := declarableTag_iff h name hnc
  constructor
  · intro hdecl
    have hraised := hiff.2 (hvalues.2 hdecl)
    rw [heq hraised]
    unfold Scope.inside
    rw [hdecls, XmlPrinter.tagStack_eq]
    rfl
  · intro hdecl hraised
    rw [hvalues.1 (hiff.1 hraised)] at hdecl
    exact absurd hdecl (by simp)

/-! ## 5. The names of a start tag -/

theorem resolve_element (hs : ColonFree s) (hfound : (s.prefixForNs name.ns false).isSome = true)
    (hnc : isNCName name.localPart = true) :
    (⟨s, .none⟩ : ParseContext).resolveQName (s.formatQName name false) false = name := by
  obtain ⟨pre, hcolon, hns, hfmt⟩ := formatQName_element hs hfound
  rw [hfmt]
  unfold ParseContext.resolveQName
  by_cases hempty : pre = STR_EMPTY
  · rw [if_pos hempty, splitColon_none (colon_not_mem hnc)]
    rw [hempty] at hns
    dsimp only
    rw [hns]
    rfl
  · rw [if_neg hempty, splitColon_append hcolon]
    dsimp only
    rw [hns]

theorem resolve_attr (hs : ColonFree s) (hfound : (s.prefixForNs name.ns true).isSome = true)
    (hnc : isNCName name.localPart = true) :
    (⟨s, .none⟩ : ParseContext).resolveQName (s.formatQName name true) true = name := by
  unfold ParseContext.resolveQName
  by_cases hnil : name.ns = []
  · rw [formatQName_bare s hnil, splitColon_none (colon_not_mem hnc)]
    dsimp only
    rw [STR_EMPTY, ← hnil]
    rfl
  · obtain ⟨pre, hcolon, hns, -, hfmt⟩ := formatQName_attr hs hfound hnil
    rw [hfmt, splitColon_append hcolon]
    dsimp only
    rw [hns]

/-- The name of a declaration the printer added. -/
theorem resolve_added (s : XmlnsStack) {b : Str × Str} (hinv : XmlnsStack.Invented b.1) :
    (⟨s, .none⟩ : ParseContext).resolveQName (xmlnsAttr b).1 true = ⟨NS_XMLNS, b.1⟩ := by
  obtain ⟨-, -, -, hsplit⟩ := declaration_added hinv
  unfold ParseContext.resolveQName
  rw [hsplit]
  rfl

/-- The start tag of an element that can be declared. -/
theorem expatEvent_printed (h : ColonFree ns) (hname : isNCName name.localPart = true)
    (hnc : ∀ a ∈ attrs, isNCName a.name.localPart = true) (out : List TagNames) :
    (declarableTag (declared ns.pushFrame attrs) name attrs = true →
      ∃ names : TagNames, TagNames.expatEvent (⟨ns, .none⟩, out)
        (.startElement ((tagStack ns name attrs).formatQName name false)
          (printedAtts (tagStack ns name attrs) attrs
            ++ (needed (declared ns.pushFrame attrs) name attrs).2.map xmlnsAttr))
        = (⟨tagStack ns name attrs, .none⟩, out ++ [names]) ∧
        ∀ children cdata, names.Of ⟨name, attrs, children, cdata⟩) ∧
    (declarableTag (declared ns.pushFrame attrs) name attrs = false →
      (TagNames.expatEvent (⟨ns, .none⟩, out)
        (.startElement ((tagStack ns name attrs).formatQName name false)
          (printedAtts (tagStack ns name attrs) attrs
            ++ (needed (declared ns.pushFrame attrs) name attrs).2.map xmlnsAttr))).1.raised
        ≠ .none) := by
  obtain ⟨hext, helement, hfound, -⟩ :=
    XmlPrinter.needed_spec (declared ns.pushFrame attrs) name attrs
  obtain ⟨hgood, hbad⟩ := declareAtts_printed h name hnc
  have hs := h.tagStack name hnc
  constructor
  · intro hdecl
    unfold TagNames.expatEvent
    rw [if_neg (by simp)]
    dsimp only
    rw [hgood hdecl, if_neg (by simp)]
    refine ⟨_, rfl, fun children cdata => ⟨resolve_element hs helement hname, ?_⟩⟩
    rw [List.map_append]
    refine ⟨_, congrArg (· ++ _) ?_, ?_⟩
    · unfold printedAtts
      rw [List.map_map]
      exact List.map_congr_left fun a ha => resolve_attr hs (hfound a ha) (hnc a ha)
    · intro q hq
      obtain ⟨x, hx, rfl⟩ := List.mem_map.1 hq
      obtain ⟨b, hb, rfl⟩ := List.mem_map.1 hx
      rw [resolve_added _ (hext.invented b hb)]
  · intro hdecl
    have hraised := hbad hdecl
    unfold TagNames.expatEvent
    rw [if_neg (by simp)]
    dsimp only
    rw [if_pos hraised]
    exact hraised

/-! ## 6. The empty namespace -/

/-- Other bindings than those of the tree, none of the empty namespace. -/
abbrev SameEmpty (s t : XmlnsStack) : Prop := XmlnsStack.Grown (· ≠ []) s t

/-- Whether a tag can be declared depends on the empty namespace only. -/
theorem SameEmpty.declarableTag_eq {t : XmlnsStack} (h : SameEmpty s t) (name : QName)
    (attrs : List XmlAttr) : declarableTag s name attrs = declarableTag t name attrs := by
  obtain ⟨hback, hforth⟩ := XmlnsStack.Grown.found h STR_EMPTY false
  have hfound : (s.prefixForNs STR_EMPTY false).isSome
    = (t.prefixForNs STR_EMPTY false).isSome := by
    rw [Bool.eq_iff_iff]
    exact ⟨fun hs => (hforth hs).resolve_right (not_not_intro rfl), hback⟩
  unfold declarableTag
  rw [hfound]

/-- The prefixes invented for a tag that can be declared change nothing about it. -/
theorem SameEmpty.tagStack (h : SameEmpty ns s)
    (hdecl : declarableTag (declared ns.pushFrame attrs) name attrs = true) :
    SameEmpty (tagStack ns name attrs) (declared s attrs) := by
  obtain ⟨hext, -⟩ := XmlPrinter.needed_spec (declared ns.pushFrame attrs) name attrs
  have hempty := XmlPrinter.needed_empty (declared ns.pushFrame attrs) name attrs
  have hpush : SameEmpty ns.pushFrame s := ⟨h.kept, h.added⟩
  refine (XmlPrinter.grown_declared hpush attrs).extends hext ?_
  intro b hb hnil
  obtain ⟨hname, hnone⟩ := hempty.1 ⟨b, hb, hnil⟩
  unfold declarableTag at hdecl
  rw [hname, STR_EMPTY, hnone, Bool.and_eq_true] at hdecl
  exact absurd hdecl.2 (by simp)

/-! ## 7. A whole tree -/

/-- The callbacks of an element: its start tag, its children and its end tag. -/
theorem events_pieces (ns : XmlnsStack) (name : QName) (attrs : List XmlAttr)
    (children : List XmlChild) (cdata : Bool) :
    (pieces ns ⟨name, attrs, children, cdata⟩).flatMap Piece.events
      = .startElement ((tagStack ns name attrs).formatQName name false)
          (printedAtts (tagStack ns name attrs) attrs
            ++ (needed (declared ns.pushFrame attrs) name attrs).2.map xmlnsAttr)
        :: ((childrenPieces (tagStack ns name attrs) cdata children).flatMap Piece.events
          ++ [.endElement ((tagStack ns name attrs).formatQName name false)]) := by
  rw [pieces]
  rcases children with _ | ⟨c, cs⟩
  · simp [startPiece, Piece.events, printedAtts, childrenPieces]
  · simp [startPiece, Piece.events, printedAtts]

theorem mem_preorderChildren {children : List XmlChild} {e x : XmlElement}
    (he : XmlChild.element e ∈ children) (hx : x ∈ e.preorder) :
    x ∈ XmlElement.preorderChildren children := by
  induction children with
  | nil => exact absurd he (by simp)
  | cons c cs ih =>
    rw [XmlElement.preorderChildren, List.mem_append]
    rcases List.mem_cons.1 he with rfl | he
    · rw [XmlElement.preorderChild]
      exact Or.inl hx
    · exact Or.inr (ih he)

/-- The children one after the other, from what each of them does. -/
theorem run_childrenPieces {t : XmlnsStack} (children : List XmlChild) (cdata : Bool)
    (out : List TagNames) (h : ∀ e, XmlChild.element e ∈ children → ∀ out,
      (declarable s e = true →
        ∃ names, TagNames.run (⟨t, .none⟩, out) ((pieces t e).flatMap Piece.events)
          = (⟨t, .none⟩, out ++ names) ∧ List.Forall₂ TagNames.Of names e.preorder) ∧
      (declarable s e = false →
        (TagNames.run (⟨t, .none⟩, out) ((pieces t e).flatMap Piece.events)).1.raised ≠ .none)) :
    (declarableChildren s children = true →
      ∃ names, TagNames.run (⟨t, .none⟩, out)
          ((childrenPieces t cdata children).flatMap Piece.events)
        = (⟨t, .none⟩, out ++ names) ∧
          List.Forall₂ TagNames.Of names (XmlElement.preorderChildren children)) ∧
    (declarableChildren s children = false →
      (TagNames.run (⟨t, .none⟩, out)
        ((childrenPieces t cdata children).flatMap Piece.events)).1.raised ≠ .none) := by
  induction children generalizing out with
  | nil =>
    rw [declarableChildren, childrenPieces, XmlElement.preorderChildren]
    exact ⟨fun _ => ⟨[], by rw [List.append_nil]; rfl, List.Forall₂.nil⟩,
      fun hf => absurd hf (by simp)⟩
  | cons c cs ih =>
    have hcs := fun out => ih out fun e he => h e (List.mem_cons_of_mem _ he)
    rw [declarableChildren, childrenPieces, XmlElement.preorderChildren, List.flatMap_append,
      TagNames.run_append]
    rcases c with text | e
    · have htext : TagNames.run (⟨t, .none⟩, out)
          ((childPieces t cdata (.text text)).flatMap Piece.events) = (⟨t, .none⟩, out) := by
        have hstep : TagNames.expatEvent (⟨t, .none⟩, out) (.characterData text)
            = (⟨t, .none⟩, out) := if_neg (by simp)
        rw [childPieces]
        rcases cdata with _ | _ <;> exact hstep
      rw [htext, declarableChild, Bool.true_and, XmlElement.preorderChild, List.nil_append]
      exact hcs out
    · obtain ⟨hgood, hbad⟩ := h e List.mem_cons_self out
      rw [childPieces, declarableChild, XmlElement.preorderChild]
      by_cases hd : declarable s e = true
      · obtain ⟨names, hrun, hof⟩ := hgood hd
        rw [hrun, hd, Bool.true_and]
        obtain ⟨hrest, hraised⟩ := hcs (out ++ names)
        refine ⟨fun hall => ?_, hraised⟩
        obtain ⟨names', hrun', hof'⟩ := hrest hall
        refine ⟨names ++ names', ?_, List.rel_append hof hof'⟩
        rw [hrun', List.append_assoc]
      · rw [Bool.not_eq_true] at hd
        rw [hd, Bool.false_and, TagNames.run_raised (hbad hd)]
        exact ⟨fun hf => absurd hf (by simp), fun _ => hbad hd⟩

/-- From the printer's bindings, an element that can be declared leaves the parser where it
was, with the names of the element; any other one raises an error. The induction is over
the tree; the parser has the bindings of the printer throughout, and the declarations of
the tree agree with them on the empty namespace. -/
theorem run_pieces (e : XmlElement) (hns : ColonFree ns) (hs : SameEmpty ns s) (hnc : e.NCNames)
    (out : List TagNames) :
    (declarable s e = true →
      ∃ names, TagNames.run (⟨ns, .none⟩, out) ((pieces ns e).flatMap Piece.events)
        = (⟨ns, .none⟩, out ++ names) ∧ List.Forall₂ TagNames.Of names e.preorder) ∧
    (declarable s e = false →
      (TagNames.run (⟨ns, .none⟩, out) ((pieces ns e).flatMap Piece.events)).1.raised ≠ .none) := by
  induction e using XmlElement.tree_induction generalizing ns s out with
  | h name attrs children cdata ih =>
    have hroot := hnc ⟨name, attrs, children, cdata⟩ (by rw [XmlElement.preorder]; simp)
    obtain ⟨hgood, hbad⟩ := expatEvent_printed hns hroot.1 hroot.2 out
    have hsame : declarableTag (declared ns.pushFrame attrs) name attrs
        = declarableTag (declared s attrs) name attrs :=
      SameEmpty.declarableTag_eq (XmlPrinter.grown_declared
        (show SameEmpty ns.pushFrame s from ⟨hs.kept, hs.added⟩) attrs) name attrs
    rw [hsame] at hgood hbad
    rw [events_pieces, TagNames.run_cons, declarable]
    by_cases hdecl : declarableTag (declared s attrs) name attrs = true
    · obtain ⟨names, hstart, hof⟩ := hgood hdecl
      rw [hstart, hdecl, Bool.true_and, TagNames.run_append]
      have hin : SameEmpty (tagStack ns name attrs) (declared s attrs) :=
        SameEmpty.tagStack hs (by rw [hsame]; exact hdecl)
      have hcolon := hns.tagStack name hroot.2
      have hpop := XmlPrinter.popFrame_tagStack ns name attrs
      have hbelow : ∀ e, XmlChild.element e ∈ children → e.NCNames := by
        intro e he x hx
        refine hnc x ?_
        rw [XmlElement.preorder]
        exact List.mem_cons_of_mem _ (mem_preorderChildren he hx)
      -- the children are printed and read in the scope of this tag
      generalize tagStack ns name attrs = t at hin hcolon hpop ⊢
      generalize declared s attrs = s' at hin ⊢
      obtain ⟨hall, hsome⟩ := run_childrenPieces children cdata (out ++ [names])
        fun e he out => ih e he hcolon hin (hbelow e he) out
      constructor
      · intro hd
        obtain ⟨names', hrun, hofs⟩ := hall hd
        rw [hrun]
        refine ⟨names :: names', ?_, ?_⟩
        · have hend : TagNames.expatEvent (⟨t, .none⟩, out ++ [names] ++ names')
              (.endElement (t.formatQName name false))
              = (⟨t.popFrame, .none⟩, out ++ [names] ++ names') := if_neg (by simp)
          rw [TagNames.run_cons, hend, hpop, List.append_assoc]
          rfl
        · rw [XmlElement.preorder]
          exact List.Forall₂.cons (hof children cdata) hofs
      · intro hd
        have hraised := hsome hd
        rw [TagNames.run_raised hraised]
        exact hraised
    · rw [Bool.not_eq_true] at hdecl
      have hraised := hbad hdecl
      rw [hdecl, Bool.false_and, TagNames.run_raised hraised]
      exact ⟨fun h => absurd h (by simp), fun _ => hraised⟩

/-- Printer and parser agree exactly on the trees that can be declared, and the printer leaves
its bindings as they were for every tree. -/
theorem agree_iff (ns : XmlnsStack) (e : XmlElement) (hns : ColonFree ns) (hnc : e.NCNames) :
    (Agree ns e ↔ declarable ns e = true) ∧ (XmlPrinter.printElement ns e).2 = ns := by
  obtain ⟨hgood, hbad⟩ := run_pieces e hns (XmlnsStack.Grown.refl _ ns) hnc []
  refine ⟨?_, by rw [XmlPrinter.printElement_pieces]⟩
  constructor
  · intro hagree
    apply Classical.byContradiction
    intro hd
    exact hbad (Bool.eq_false_iff.2 hd) hagree.1
  · intro hd
    obtain ⟨names, hrun, hof⟩ := hgood hd
    unfold Agree
    rw [hrun]
    exact ⟨rfl, hof⟩

/-- The engine's default. -/
def clientStack : XmlnsStack := ⟨[([], str "jabber:client")], []⟩

/-- A message with an attribute that needs a prefix, and a child that undoes the default. -/
def mixedMessage : XmlElement :=
  ⟨⟨str "jabber:client", str "message"⟩, [⟨⟨str "urn:a.b.tune", str "k"⟩, str "v"⟩],
    [.element ⟨⟨[], str "x"⟩, [⟨QN_XMLNS, []⟩], [], false⟩, .text (str "t")], false⟩

/-- Printer and parser agree on it. -/
theorem agree_iff_mixed : Agree clientStack mixedMessage := by
  refine (agree_iff clientStack mixedMessage ?_ ?_).1.2 (by decide)
  · intro b hb
    rw [List.mem_singleton.1 hb]
    exact List.not_mem_nil
  · intro x hx
    have hpre : mixedMessage.preorder
        = [mixedMessage, ⟨⟨[], str "x"⟩, [⟨QN_XMLNS, []⟩], [], false⟩] :=
      rfl
    rw [hpre] at hx
    rcases List.mem_cons.1 hx with rfl | hx
    · exact ⟨by decide, by decide⟩
    · rw [List.mem_singleton.1 hx]
      exact ⟨by decide, by decide⟩

/-- An element in no namespace under the engine's default is printed with a declaration that
the parser refuses. -/
theorem bare_element_refused : ¬ ∀ (ns : XmlnsStack) (e : XmlElement), ColonFree ns → e.NCNames →
    Agree ns e ∧ (XmlPrinter.printElement ns e).2 = ns := by
  intro h
  have hns : ColonFree clientStack := by
    intro b hb
    rw [List.mem_singleton.1 hb]
    exact List.not_mem_nil
  have hnc : (XmlElement.new ⟨[], str "a"⟩ false).NCNames := by
    intro x hx
    have hpre : (XmlElement.new ⟨[], str "a"⟩ false).preorder
      = [XmlElement.new ⟨[], str "a"⟩ false] :=
      rfl
    rw [hpre] at hx
    rw [List.mem_singleton.1 hx]
    exact ⟨by decide, by decide⟩
  obtain ⟨⟨hraised, -⟩, -⟩ := h clientStack (XmlElement.new ⟨[], str "a"⟩ false) hns hnc
  exact absurd hraised (by decide)

end Gxmpp
