/-
What the parser makes of a printed stanza: the stanza, with the declarations that the printer
added as attributes.

A tree that declares nothing itself, whose elements are in namespaces and whose attributes are
distinct, is read back whatever the printer has declared around it (`read_printed`). The parser
has the bindings of the printer in every tag, so each name is the one that was printed; and the
prefixes that were invented for a tag are distinct, so its attributes still are.
-/
import Gxmpp.MarkupSafety
import Gxmpp.PresenceSetters

set_option autoImplicit false

namespace Gxmpp

open XmlPrinter (Piece pieces childrenPieces childPieces tagStack needed declared needPrefix)

/-! ## 1. Prefixes that were invented -/

/-- New prefixes are distinct, and bound. -/
def Fresh (acc : XmlnsStack × List (Str × Str)) : Prop :=
  (acc.2.map Prod.fst).Nodup ∧ ∀ b ∈ acc.2, (acc.1.nsForPrefix b.1).isSome = true

theorem Fresh.needPrefix {acc : XmlnsStack × List (Str × Str)} (h : Fresh acc) (ns : Str)
    (isAttr : Bool) : Fresh (XmlPrinter.needPrefix acc ns isAttr) := by
  obtain ⟨s, seen⟩ := acc
  unfold XmlPrinter.needPrefix
  rw [XmlnsStack.addNewPrefix_eq]
  by_cases hfound : (s.prefixForNs ns isAttr).isSome = true
  · rw [if_pos hfound]
    exact h
  · rw [if_neg hfound]
    have hext := XmlnsStack.extends_fresh s ns
    have hnone := XmlnsStack.freshPrefix_none s ns
    have hnew : s.freshPrefix ns ∉ seen.map Prod.fst := by
      intro hmem
      obtain ⟨b, hb, heq⟩ := List.mem_map.1 hmem
      have hbound := h.2 b hb
      rw [heq, hnone] at hbound
      exact Bool.false_ne_true hbound
    constructor
    · show ((seen ++ [(s.freshPrefix ns, ns)]).map Prod.fst).Nodup
      rw [List.map_append, List.map_singleton, ← List.concat_eq_append]
      exact h.1.concat hnew
    · intro b hb
      have hkept : ∀ {pre : Str}, (s.nsForPrefix pre).isSome = true →
          ((s.addXmlns (s.freshPrefix ns) ns).nsForPrefix pre).isSome = true := by
        intro pre hpre
        obtain ⟨v, hv⟩ := Option.isSome_iff_exists.1 hpre
        exact Option.isSome_iff_exists.2 ⟨v, hext.kept pre v hv⟩
      rcases List.mem_append.1 hb with hb | hb
      · exact hkept (h.2 b hb)
      · rw [List.mem_singleton.1 hb]
        show ((s.addXmlns (s.freshPrefix ns) ns).nsForPrefix (s.freshPrefix ns)).isSome = true
        rw [XmlnsStack.nsForPrefix_addXmlns_self (XmlnsStack.freshPrefix_invented s ns).plain]
        rfl

theorem needed_fresh (s : XmlnsStack) (name : QName) (attrs : List XmlAttr) :
    Fresh (needed s name attrs) := by
  unfold needed
  have hnil : Fresh (s, []) := ⟨List.nodup_nil, by simp⟩
  have hstart := hnil.needPrefix name.ns false
  generalize XmlPrinter.needPrefix (s, []) name.ns false = acc at hstart
  induction attrs generalizing acc with
  | nil => exact hstart
  | cons a attrs ih => exact ih _ (hstart.needPrefix _ _)

/-! ## 2. A start tag -/

/-- The attributes that declare some prefixes. -/
def addedAttrs (new : List (Str × Str)) : List XmlAttr := new.map fun b => ⟨⟨NS_XMLNS, b.1⟩, b.2⟩

/-- An element that is in a namespace, has distinct attributes and declares nothing. -/
structure PlainTag (name : QName) (attrs : List XmlAttr) : Prop where
  named : isNCName name.localPart = true
  attrsNamed : ∀ a ∈ attrs, isNCName a.name.localPart = true
  placed : name.ns ≠ []
  distinct : (attrs.map XmlAttr.name).Nodup
  undeclared : ∀ a ∈ attrs, a.name ≠ QN_XMLNS ∧ a.name.ns ≠ NS_XMLNS

theorem QName.isEmpty_of_ncName {q : QName} (h : isNCName q.localPart = true) :
    ¬ q.isEmpty = true := by
  unfold QName.isEmpty
  rw [Bool.and_eq_true, not_and]
  intro _ hnil
  exact isNCName_ne_nil h (List.isEmpty_iff.1 hnil)

variable {attrs : List XmlAttr} {name : QName} {ns : XmlnsStack}

/-- The attributes of a tag whose names can be resolved are put in one after the other. -/
theorem buildAttrs_resolved (c : ParseContext) {atts : List (Str × Str)}
    (hread : atts.map (fun a => (⟨c.resolveQName a.1 true, a.2⟩ : XmlAttr)) = attrs)
    (hnamed : ∀ a ∈ attrs, ¬ a.name.isEmpty = true) (hdistinct : (attrs.map XmlAttr.name).Nodup)
    {seen : List QName} (hseen : ∀ a ∈ attrs, a.name ∉ seen) (el : XmlElement) :
    XmlBuilder.buildAttrs c atts seen el = some (el.addAttrs attrs) := by
  induction atts generalizing attrs seen el with
  | nil =>
    obtain rfl := hread
    exact congrArg some el.addAttrs_nil.symm
  | cons a atts ih =>
    obtain ⟨b, attrs, rfl⟩ : ∃ b l, attrs = b :: l := by
      rw [← hread]
      exact ⟨_, _, rfl⟩
    obtain ⟨hb, hrest⟩ := List.cons.inj hread
    have hname : c.resolveQName a.1 true = b.name := congrArg XmlAttr.name hb
    have hvalue : a.2 = b.value := congrArg XmlAttr.value hb
    rw [List.map_cons, List.nodup_cons] at hdistinct
    have hnamed' : ∀ x ∈ attrs, ¬ x.name.isEmpty = true :=
      fun x hx => hnamed x (List.mem_cons_of_mem _ hx)
    have hseen' : ∀ x ∈ attrs, x.name ∉ seen := fun x hx => hseen x (List.mem_cons_of_mem _ hx)
    rw [XmlBuilder.buildAttrs]
    rw [hname, hvalue, if_neg (hnamed b List.mem_cons_self)]
    have hadd : ∀ el : XmlElement, (el.addAttr b.name b.value).addAttrs attrs
        = el.addAttrs (b :: attrs) := fun el => el.addAttr_addAttrs b.name b.value attrs
    by_cases hns : b.name.ns.isEmpty = true
    · rw [if_pos hns, ih hrest hnamed' hdistinct.2 hseen', hadd]
    · rw [if_neg hns, if_neg (hseen b List.mem_cons_self),
        ih hrest hnamed' hdistinct.2 ?_, hadd]
      intro x hx hmem
      rcases List.mem_cons.1 hmem with heq | hmem
      · exact hdistinct.1 (heq ▸ List.mem_map_of_mem hx)
      · exact hseen' x hx hmem

/-- A start tag is opened with the names that were printed. -/
theorem openElement_printed (h : ColonFree ns) (hplain : PlainTag name attrs) :
    openElement ns ((tagStack ns name attrs).formatQName name false)
        (printedAtts (tagStack ns name attrs) attrs
          ++ (needed (declared ns.pushFrame attrs) name attrs).2.map xmlnsAttr)
      = some (tagStack ns name attrs,
          ⟨name, attrs ++ addedAttrs (needed (declared ns.pushFrame attrs) name attrs).2, [],
            false⟩) := by
  obtain ⟨hext, helement, hfound, -⟩ :=
    XmlPrinter.needed_spec (declared ns.pushFrame attrs) name attrs
  have hs := h.tagStack name hplain.attrsNamed
  have hdecl : declarableTag (declared ns.pushFrame attrs) name attrs = true := by
    have hname : name.ns.isEmpty = false := by simpa using hplain.placed
    unfold declarableTag
    rw [hname, Bool.and_eq_true, List.all_eq_true]
    refine ⟨fun a ha => ?_, rfl⟩
    rw [decide_eq_true (hplain.undeclared a ha).2, Bool.true_or]
  have hnames : (printedAtts (tagStack ns name attrs) attrs
        ++ (needed (declared ns.pushFrame attrs) name attrs).2.map xmlnsAttr).map
          (fun a => (⟨(⟨tagStack ns name attrs, .none⟩ : ParseContext).resolveQName a.1 true,
            a.2⟩ : XmlAttr))
      = attrs ++ addedAttrs (needed (declared ns.pushFrame attrs) name attrs).2 := by
    unfold printedAtts addedAttrs
    rw [List.map_append, List.map_map, List.map_map]
    congr 1
    · refine (List.map_congr_left fun a ha => ?_).trans (List.map_id attrs)
      rw [Function.comp_apply, resolve_attr hs (hfound a ha) (hplain.attrsNamed a ha)]
      rfl
    · refine List.map_congr_left fun b hb => ?_
      rw [Function.comp_apply, resolve_added _ (hext.invented b hb)]
      rfl
  have hnamed : ∀ a ∈ attrs ++ addedAttrs (needed (declared ns.pushFrame attrs) name attrs).2,
      ¬ a.name.isEmpty = true := by
    intro a ha
    rcases List.mem_append.1 ha with ha | ha
    · exact QName.isEmpty_of_ncName (hplain.attrsNamed a ha)
    · obtain ⟨b, hb, rfl⟩ := List.mem_map.1 ha
      exact QName.isEmpty_of_ncName (hext.invented b hb).ncName
  have hdistinct : ((attrs ++ addedAttrs
      (needed (declared ns.pushFrame attrs) name attrs).2).map XmlAttr.name).Nodup := by
    have hadded : (addedAttrs (needed (declared ns.pushFrame attrs) name attrs).2).map XmlAttr.name
        = ((needed (declared ns.pushFrame attrs) name attrs).2.map Prod.fst).map
            fun pre => ⟨NS_XMLNS, pre⟩ := by
      unfold addedAttrs
      rw [List.map_map, List.map_map]
      rfl
    rw [List.map_append, hadded, List.nodup_append]
    refine ⟨hplain.distinct, ?_, ?_⟩
    · exact (needed_fresh _ name attrs).1.map fun a b heq => congrArg QName.localPart heq
    · intro q hq q' hq' heq
      obtain ⟨a, ha, rfl⟩ := List.mem_map.1 hq
      obtain ⟨pre, -, rfl⟩ := List.mem_map.1 hq'
      exact (hplain.undeclared a ha).2 (congrArg QName.ns heq)
  unfold openElement XmlBuilder.buildElement
  dsimp only
  rw [(declareAtts_printed h name hplain.attrsNamed).1 hdecl, if_neg (not_not_intro rfl)]
  rw [resolve_element hs helement hplain.named, if_neg (QName.isEmpty_of_ncName hplain.named),
    buildAttrs_resolved _ hnames hnamed hdistinct (fun a _ => List.not_mem_nil)]
  rfl

/-! ## 3. A tree -/

mutual

/-- What is read of an element that was printed. -/
def XmlElement.reread : XmlnsStack → XmlElement → XmlElement
  | ns, ⟨name, attrs, children, _⟩ =>
    XmlElement.rereadChildren (tagStack ns name attrs) children
      ⟨name, attrs ++ addedAttrs (needed (declared ns.pushFrame attrs) name attrs).2, [], false⟩

/-- An element with the children that are read. -/
def XmlElement.rereadChildren : XmlnsStack → List XmlChild → XmlElement → XmlElement
  | _, [], el => el
  | ns, c :: cs, el => XmlElement.rereadChildren ns cs (XmlElement.rereadChild ns c el)

/-- An element with one child that is read. -/
def XmlElement.rereadChild : XmlnsStack → XmlChild → XmlElement → XmlElement
  | _, .text t, el => el.addText t
  | ns, .element e, el => el.addElement (e.reread ns)

end

mutual

/-- The element as content, before some other. -/
def contentOf : XmlnsStack → XmlElement → XmlContent → XmlContent
  | ns, ⟨name, attrs, children, _⟩, rest =>
    .element ((tagStack ns name attrs).formatQName name false)
      (printedAtts (tagStack ns name attrs) attrs
        ++ (needed (declared ns.pushFrame attrs) name attrs).2.map xmlnsAttr)
      (childrenContent (tagStack ns name attrs) children) rest

/-- The children as content. -/
def childrenContent : XmlnsStack → List XmlChild → XmlContent
  | _, [] => .nil
  | ns, c :: cs => childContent ns c (childrenContent ns cs)

/-- One child as content. -/
def childContent : XmlnsStack → XmlChild → XmlContent → XmlContent
  | _, .text t, rest => .text t rest
  | ns, .element e, rest => contentOf ns e rest

end

/-- Every element of the tree is plain. -/
def XmlElement.Plain (e : XmlElement) : Prop := ∀ x ∈ e.preorder, PlainTag x.name x.attrs

theorem XmlElement.Plain.child {children : List XmlChild} {cdata : Bool}
    (h : (⟨name, attrs, children, cdata⟩ : XmlElement).Plain) {e : XmlElement}
    (he : XmlChild.element e ∈ children) : e.Plain := by
  intro x hx
  refine h x ?_
  rw [XmlElement.preorder]
  exact List.mem_cons_of_mem _ (mem_preorderChildren he hx)

theorem XmlElement.Plain.tag {children : List XmlChild} {cdata : Bool}
    (h : (⟨name, attrs, children, cdata⟩ : XmlElement).Plain) : PlainTag name attrs :=
  h ⟨name, attrs, children, cdata⟩ (by rw [XmlElement.preorder]; exact List.mem_cons_self)

/-- The callbacks for the content are those for what is printed. -/
theorem events_contentOf (e : XmlElement) (ns : XmlnsStack) (rest : XmlContent) :
    (contentOf ns e rest).events = (pieces ns e).flatMap Piece.events ++ rest.events := by
  induction e using XmlElement.tree_induction generalizing ns rest with
  | h name attrs children cdata ih =>
    have hchildren : ∀ (t : XmlnsStack) (cs : List XmlChild), (∀ c ∈ cs, c ∈ children) →
        (childrenContent t cs).events = (childrenPieces t cdata cs).flatMap Piece.events := by
      intro t cs hsub
      induction cs with
      | nil => rw [childrenContent, childrenPieces]; rfl
      | cons c cs ihs =>
        have hcs := ihs fun x hx => hsub x (List.mem_cons_of_mem _ hx)
        rw [childrenContent, childrenPieces, List.flatMap_append, ← hcs]
        cases c with
        | text u =>
          rw [childContent, childPieces]
          cases cdata <;> rfl
        | element d =>
          rw [childContent, childPieces]
          exact ih d (hsub _ List.mem_cons_self) t _
    rw [contentOf, XmlContent.events, hchildren _ _ fun c hc => hc, events_pieces]
    simp

/-- The children one after the other, from what is built of each of them. -/
theorem build_childrenContent {t : XmlnsStack} (cs : List XmlChild)
    (h : ∀ d, XmlChild.element d ∈ cs → ∀ rest el,
      (contentOf t d rest).build t el = rest.build t (el.addElement (d.reread t)))
    (el : XmlElement) :
    (childrenContent t cs).build t el = some (XmlElement.rereadChildren t cs el) := by
  induction cs generalizing el with
  | nil => rw [childrenContent, XmlContent.build, XmlElement.rereadChildren]
  | cons c cs ih =>
    have hcs := ih fun d hd => h d (List.mem_cons_of_mem _ hd)
    rw [childrenContent, XmlElement.rereadChildren]
    cases c with
    | text u => rw [childContent, XmlContent.build, XmlElement.rereadChild, hcs]
    | element d => rw [childContent, h d List.mem_cons_self, hcs, XmlElement.rereadChild]

/-- The content of a plain tree is built. The induction is over the tree; the parser has the
bindings of the printer in every tag. -/
theorem build_contentOf (e : XmlElement) (hns : ColonFree ns) (he : e.Plain) (rest : XmlContent)
    (el : XmlElement) :
    (contentOf ns e rest).build ns el = rest.build ns (el.addElement (e.reread ns)) := by
  induction e using XmlElement.tree_induction generalizing ns rest el with
  | h name attrs children cdata ih =>
    have htag := he.tag
    have hin := hns.tagStack name htag.attrsNamed
    rw [contentOf, XmlContent.build, openElement_printed hns htag]
    dsimp only
    rw [build_childrenContent children fun d hd => ih d hd hin (he.child hd)]
    rw [XmlElement.reread]

/-- A parser that is inside of a stream. -/
structure InStream (p : XmppStanzaParser) (ns : XmlnsStack) : Prop where
  context : p.context = ⟨ns, .none⟩
  depth : p.depth = 1
  builder : p.builder = .init

/-- A plain stanza that is printed into a stream is read back, with the declarations that were
added. -/
theorem read_printed {p : XmppStanzaParser} (hp : InStream p ns) (hns : ColonFree ns)
    {e : XmlElement} (he : e.Plain) (root : Str) :
    p.told ((pieces ns e).flatMap Piece.events ++ [.endElement root]) .none
      = [.stanza (e.reread ns), .endStream] := by
  have hevents := events_contentOf e ns .nil
  rw [XmlContent.events, List.append_nil] at hevents
  rw [← hevents, XmppStanzaParser.told_content root _ (by rw [hp.context]) hp.depth hp.builder,
    hp.context]
  obtain ⟨name, attrs, children, cdata⟩ := e
  have hin := hns.tagStack name he.tag.attrsNamed
  have hinner := build_childrenContent (t := tagStack ns name attrs) children
    fun d hd => build_contentOf d hin (he.child hd)
  dsimp only
  rw [contentOf, XmlContent.callbacks, openElement_printed hns he.tag, Option.bind_some, hinner,
    XmlElement.reread]
  rfl

/-! ## 4. The content of a stanza -/

/-- A part of what a document says. Text is given by its characters, since an element may have it
in several children. -/
inductive Content where
  | start (name : QName) (attrs : List XmlAttr)
  | char (ch : UInt8)
  | stop

mutual

/-- What an element says: names, attributes that declare no prefixes, and text, in order. -/
def XmlElement.content : XmlElement → List Content
  | ⟨name, attrs, children, _⟩ =>
    .start name (attrs.filter fun a => a.name.ns ≠ NS_XMLNS) :: (contentList children ++ [.stop])

def contentList : List XmlChild → List Content
  | [] => []
  | .text t :: cs => t.map .char ++ contentList cs
  | .element e :: cs => e.content ++ contentList cs

end

theorem content_eq (e : XmlElement) : e.content
    = .start e.name (e.attrs.filter fun a => a.name.ns ≠ NS_XMLNS)
      :: (contentList e.children ++ [.stop]) := by
  cases e
  rw [XmlElement.content]

theorem contentList_append (l l' : List XmlChild) :
    contentList (l ++ l') = contentList l ++ contentList l' := by
  induction l with
  | nil => rfl
  | cons c l ih =>
    cases c with
    | text | element => simp [contentList, ih]

/-- Text is added behind what was said, to a child that is there or as a new one. -/
theorem contentList_addText (el : XmlElement) (t : Str) :
    contentList (el.addText t).children = contentList el.children ++ t.map .char := by
  unfold XmlElement.addText
  split
  · simp [List.isEmpty_iff.1 ‹_›]
  · split
    · rename_i u hlast
      have hlist := List.dropLast_append_getLast? _ hlast
      conv_rhs => rw [← hlist]
      simp [contentList_append, contentList]
    · simp [contentList_append, contentList]

/-- The children say one after the other what each of them says. -/
theorem content_rereadChildren (ns : XmlnsStack) (cs : List XmlChild)
    (h : ∀ d, XmlChild.element d ∈ cs → (d.reread ns).content = d.content) (el : XmlElement) :
    (XmlElement.rereadChildren ns cs el).name = el.name
      ∧ (XmlElement.rereadChildren ns cs el).attrs = el.attrs
      ∧ contentList (XmlElement.rereadChildren ns cs el).children
        = contentList el.children ++ contentList cs := by
  induction cs generalizing el with
  | nil => simp [XmlElement.rereadChildren, contentList]
  | cons c cs ih =>
    have hcs := ih fun d hd => h d (List.mem_cons_of_mem _ hd)
    cases c with
    | text t =>
      obtain ⟨hname, hattrs, hlist⟩ := hcs (el.addText t)
      rw [XmlElement.rereadChildren, XmlElement.rereadChild, hname, hattrs, hlist,
        contentList_addText, contentList, List.append_assoc]
      unfold XmlElement.addText
      split
      · exact ⟨rfl, rfl, rfl⟩
      · split <;> exact ⟨rfl, rfl, rfl⟩
    | element d =>
      obtain ⟨hname, hattrs, hlist⟩ := hcs (el.addElement (d.reread ns))
      rw [XmlElement.rereadChildren, XmlElement.rereadChild, hname, hattrs, hlist]
      unfold XmlElement.addElement
      simp [contentList_append, contentList, h d List.mem_cons_self]

/-- What is read says what was printed. -/
theorem content_reread (e : XmlElement) (ns : XmlnsStack) : (e.reread ns).content = e.content := by
  induction e using XmlElement.tree_induction generalizing ns with
  | h name attrs children cdata ih =>
    have hadded : ∀ new : List (Str × Str),
        (attrs ++ addedAttrs new).filter (fun a => a.name.ns ≠ NS_XMLNS)
          = attrs.filter fun a => a.name.ns ≠ NS_XMLNS := by
      intro new
      rw [List.filter_append, List.append_right_eq_self, List.filter_eq_nil_iff]
      intro a ha
      obtain ⟨b, -, rfl⟩ := List.mem_map.1 ha
      simp
    obtain ⟨hname, hattrs, hlist⟩ :=
      content_rereadChildren (tagStack ns name attrs) children (fun d hd => ih d hd _)
        ⟨name, attrs ++ addedAttrs (needed (declared ns.pushFrame attrs) name attrs).2, [], false⟩
    rw [XmlElement.reread]
    rw [content_eq, hname, hattrs, hlist]
    dsimp only
    rw [hadded, content_eq]
    rfl

theorem NamedPrefixes.colonFree {ns : XmlnsStack} (h : NamedPrefixes ns) : ColonFree ns := by
  intro b hb
  rcases h b hb with hnil | hname
  · rw [hnil]
    exact List.not_mem_nil
  · exact colon_not_mem hname

end Gxmpp
