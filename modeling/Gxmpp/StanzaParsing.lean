/-
`XmppStanzaParser` over whole documents.

expat promises to deliver the same tags and the same character data however the
bytes of a document are cut; how the character data is cut is not promised, nor
how the callbacks fall on the calls of `Parse`. A `Delivery` is any way they may
fall. The callbacks of the stanza parser do not depend on it: two pieces of
character data act as one (`run_joinText`), and the end of a call acts only if an
error was raised, after which nothing acts (`parseAll_eq`).

What they are is `StreamDocument.callbacks`, read off the document.
-/
import Gxmpp.XmlParser
import Mathlib.Data.List.Chain

set_option autoImplicit false

namespace Gxmpp

/-! ## 1. Text nodes -/

/-- Whether the child is a text. -/
def XmlChild.isText : XmlChild → Bool
  | .text _ => true
  | .element _ => false

/-- Every text node in the tree has text, and no two of them are neighbours. -/
inductive XmlElement.Normal : XmlElement → Prop
  | mk (e : XmlElement) (filled : ∀ t, .text t ∈ e.children → t ≠ [])
      (apart : e.children.IsChain fun a b => ¬ (a.isText = true ∧ b.isText = true))
      (sub : ∀ c, .element c ∈ e.children → XmlElement.Normal c) : XmlElement.Normal e

namespace XmlElement

theorem addText_nil (e : XmlElement) : e.addText [] = e := rfl

/-- Text that is not empty is added to the last child, or is the last child. -/
theorem addText_of_nonempty (e : XmlElement) {t : Str} (ht : t.isEmpty = false) :
    e.addText t = match e.children.getLast? with
      | some (.text u) => { e with children := e.children.dropLast ++ [.text (u ++ t)] }
      | _ => { e with children := e.children ++ [.text t] } := by
  unfold addText
  rw [ht]
  rfl

/-- Text added in two pieces is text added at once. -/
theorem addText_addText (e : XmlElement) (a b : Str) :
    (e.addText a).addText b = e.addText (a ++ b) := by
  by_cases ha : a = []
  · rw [ha, addText_nil, List.nil_append]
  · by_cases hb : b = []
    · rw [hb, addText_nil, List.append_nil]
    · have ha' : a.isEmpty = false := by simpa using ha
      have hb' : b.isEmpty = false := by simpa using hb
      have hab : (a ++ b).isEmpty = false := by simp [ha]
      rw [addText_of_nonempty e ha', addText_of_nonempty e hab, addText_of_nonempty _ hb']
      -- the last child of the result is the text that was extended or made
      rcases e.children.getLast? with _ | ⟨u⟩ | ⟨c⟩ <;> simp

theorem Normal.addText {e : XmlElement} (h : e.Normal) (t : Str) : (e.addText t).Normal := by
  obtain ⟨_, filled, apart, sub⟩ := h
  by_cases ht : t.isEmpty = true
  · unfold XmlElement.addText
    rw [if_pos ht]
    exact ⟨e, filled, apart, sub⟩
  · have ht' : t ≠ [] := by simpa using ht
    unfold XmlElement.addText
    rw [if_neg ht]
    rcases List.eq_nil_or_concat e.children with hnil | ⟨pre, last, hlast⟩
    · rw [hnil]
      refine ⟨_, ?_, List.isChain_singleton _, ?_⟩
      · intro u hu
        have heq : u = t := by simpa using hu
        rw [heq]
        exact ht'
      · intro c hc
        exact absurd hc (by simp)
    · rw [List.concat_eq_append] at hlast
      rw [hlast] at filled apart sub
      rw [hlast, List.getLast?_concat, List.dropLast_concat]
      rcases last with u | c
      · -- the text is appended to the last child
        refine ⟨_, ?_, ?_, ?_⟩
        · intro v hv
          rcases List.mem_append.1 hv with hold | hnew
          · exact filled v (List.mem_append_left _ hold)
          · have heq : v = u ++ t := by simpa using hnew
            rw [heq]
            simp [ht']
        · rw [List.isChain_append] at apart ⊢
          exact ⟨apart.1, List.isChain_singleton _, by simpa [XmlChild.isText] using apart.2.2⟩
        · intro d hd
          rcases List.mem_append.1 hd with hold | hnew
          · exact sub d (List.mem_append_left _ hold)
          · exact absurd hnew (by simp)
      · -- the last child is an element, so the text is a new child
        refine ⟨_, ?_, ?_, ?_⟩
        · intro v hv
          rcases List.mem_append.1 hv with hold | hnew
          · exact filled v hold
          · have heq : v = t := by simpa using hnew
            rw [heq]
            exact ht'
        · refine List.IsChain.append apart (List.isChain_singleton _) ?_
          intro x hx y _
          rw [List.getLast?_concat, Option.mem_some_iff] at hx
          rw [← hx]
          simp [XmlChild.isText]
        · intro d hd
          rcases List.mem_append.1 hd with hold | hnew
          · exact sub d hold
          · exact absurd hnew (by simp)

theorem Normal.addElement {e c : XmlElement} (h : e.Normal) (hc : c.Normal) :
    (e.addElement c).Normal := by
  obtain ⟨_, filled, apart, sub⟩ := h
  refine ⟨_, ?_, ?_, ?_⟩
  · intro t ht
    rcases List.mem_append.1 ht with hold | hnew
    · exact filled t hold
    · exact absurd (List.mem_singleton.1 hnew) (by simp)
  · refine List.IsChain.append apart (List.isChain_singleton _) ?_
    intro x _ y hy
    simp only [List.head?_cons, Option.mem_def, Option.some.injEq] at hy
    rw [← hy]
    simp [XmlChild.isText]
  · intro d hd
    rcases List.mem_append.1 hd with hold | hnew
    · exact sub d hold
    · have heq : d = c := by simpa using List.mem_singleton.1 hnew
      rw [heq]
      exact hc

theorem Normal.of_no_children {e : XmlElement} (h : e.children = []) : e.Normal := by
  refine ⟨e, ?_, ?_, ?_⟩
  · intro t ht
    rw [h] at ht
    exact absurd ht List.not_mem_nil
  · rw [h]
    exact List.IsChain.nil
  · intro c hc
    rw [h] at hc
    exact absurd hc List.not_mem_nil

end XmlElement

/-- A new element has no children, whatever its attributes. -/
theorem XmlBuilder.buildAttrs_children {c : ParseContext} {atts : List (Str × Str)}
    {seen : List QName} {el el' : XmlElement}
    (h : XmlBuilder.buildAttrs c atts seen el = some el') : el'.children = el.children := by
  induction atts generalizing seen el with
  | nil =>
    rw [XmlBuilder.buildAttrs] at h
    rw [Option.some.inj h]
  | cons att atts ih =>
    rw [XmlBuilder.buildAttrs] at h
    by_cases hempty : (c.resolveQName att.1 true).isEmpty = true
    · rw [if_pos hempty] at h
      exact absurd h (by simp)
    · rw [if_neg hempty] at h
      by_cases hns : (c.resolveQName att.1 true).ns.isEmpty = true
      · rw [if_pos hns] at h
        exact (ih h).trans rfl
      · rw [if_neg hns] at h
        by_cases hseen : c.resolveQName att.1 true ∈ seen
        · rw [if_pos hseen] at h
          exact absurd h (by simp)
        · rw [if_neg hseen] at h
          exact (ih h).trans rfl

theorem XmlBuilder.buildElement_normal {c : ParseContext} {name : Str} {atts : List (Str × Str)}
    {el : XmlElement} (h : XmlBuilder.buildElement c name atts = some el) : el.Normal := by
  unfold XmlBuilder.buildElement at h
  by_cases hempty : (c.resolveQName name false).isEmpty = true
  · rw [if_pos hempty] at h
    exact absurd h (by simp)
  · rw [if_neg hempty] at h
    exact .of_no_children (XmlBuilder.buildAttrs_children h)

/-! ## 2. The callbacks of one call, and of many -/

/-- The trees a callback hands over. -/
def StanzaEvent.tree : StanzaEvent → Option XmlElement
  | .startStream e => some e
  | .stanza e => some e
  | .endStream | .xmlError => none

namespace XmppStanzaParser

/-- `XML_Parse`: expat's callbacks one after the other, with what the handler is told. -/
def run (p : XmppStanzaParser) : List ExpatEvent → XmppStanzaParser × List StanzaEvent
  | [] => (p, [])
  | ev :: evs =>
    let r := p.expatEvent ev
    let s := r.1.run evs
    (s.1, r.2.toList ++ s.2)

/-- `XmppStanzaParser::Parse`, with `XmlParser::Parse`. -/
def parse (p : XmppStanzaParser) (events : List ExpatEvent) (status : XmlErrorCode) :
    XmppStanzaParser × List StanzaEvent :=
  if p.sentError then (p, [])
  else
    let r := run { p with expatUsed := true } events
    let s := r.1.parseReturned status
    (s.1, r.2 ++ if s.2 then [.xmlError] else [])

/-- Calls of `Parse` one after the other. -/
def parseAll (p : XmppStanzaParser) :
    List (List ExpatEvent × XmlErrorCode) → XmppStanzaParser × List StanzaEvent
  | [] => (p, [])
  | call :: calls =>
    let r := p.parse call.1 call.2
    let s := r.1.parseAll calls
    (s.1, r.2 ++ s.2)

theorem run_cons (p : XmppStanzaParser) (ev : ExpatEvent) (evs : List ExpatEvent) :
    p.run (ev :: evs)
      = (((p.expatEvent ev).1.run evs).1,
        (p.expatEvent ev).2.toList ++ ((p.expatEvent ev).1.run evs).2) := rfl

theorem run_append (p : XmppStanzaParser) (evs evs' : List ExpatEvent) :
    p.run (evs ++ evs')
      = (((p.run evs).1.run evs').1, (p.run evs).2 ++ ((p.run evs).1.run evs').2) := by
  induction evs generalizing p with
  | nil => rfl
  | cons ev evs ih =>
    rw [List.cons_append, run_cons, ih, run_cons, List.append_assoc]

variable {p : XmppStanzaParser} {b : XmlBuilder}

/-- Nothing happens once an error is raised. -/
theorem expatEvent_raised (h : p.context.raised ≠ .none) (ev : ExpatEvent) :
    p.expatEvent ev = (p, none) := by
  unfold expatEvent
  rw [if_pos h]

theorem run_raised (h : p.context.raised ≠ .none) (evs : List ExpatEvent) :
    p.run evs = (p, []) := by
  induction evs with
  | nil => rfl
  | cons ev evs ih =>
    rw [run_cons, expatEvent_raised h, ih]
    rfl

/-! ## 3. Character data -/

/-- What a piece of character data does. -/
theorem expatEvent_characterData (p : XmppStanzaParser) (text : Str) :
    p.expatEvent (.characterData text)
      = (if p.context.raised ≠ .none then p else p.incomingCharacterData text, none) := by
  unfold expatEvent
  by_cases h : p.context.raised ≠ .none
  · rw [if_pos h, if_pos h]
  · rw [if_neg h, if_neg h]

theorem incomingCharacterData_nil (p : XmppStanzaParser) : p.incomingCharacterData [] = p := by
  unfold incomingCharacterData XmlBuilder.characterData
  rcases hopen : p.builder.open_ with _ | ⟨el, rest⟩
  · simp
  · -- empty text adds nothing to the current element
    have hsame : ({ p.builder with open_ := el :: rest } : XmlBuilder) = p.builder := by
      rw [← hopen]
    by_cases hdepth : p.depth > 1
    · simp only [hdepth, if_true, XmlElement.addText_nil, hsame]
    · simp only [hdepth, if_false]

theorem incomingCharacterData_twice (p : XmppStanzaParser) (a b : Str) :
    (p.incomingCharacterData a).incomingCharacterData b = p.incomingCharacterData (a ++ b) := by
  unfold incomingCharacterData
  by_cases hdepth : p.depth > 1
  · simp only [hdepth, if_true]
    unfold XmlBuilder.characterData
    rcases hopen : p.builder.open_ with _ | ⟨el, rest⟩
    · simp [hopen]
    · simp only [XmlElement.addText_addText]
  · simp only [hdepth, if_false]

theorem incomingCharacterData_raised (p : XmppStanzaParser) (text : Str) :
    (p.incomingCharacterData text).context = p.context := by
  unfold incomingCharacterData
  by_cases hdepth : p.depth > 1
  · rw [if_pos hdepth]
  · rw [if_neg hdepth]

/-- The callbacks with their character data in one piece between two tags, and none
that is empty. -/
def joinText : List ExpatEvent → List ExpatEvent
  | [] => []
  | .characterData t :: evs =>
    match joinText evs with
    | .characterData u :: rest => .characterData (t ++ u) :: rest
    | rest => if t.isEmpty then rest else .characterData t :: rest
  | ev :: evs => ev :: joinText evs

/-- Joining two pieces, or dropping an empty one, changes nothing the parser does. -/
theorem run_text_text (p : XmppStanzaParser) (t u : Str) (evs : List ExpatEvent) :
    p.run (.characterData t :: .characterData u :: evs)
    = p.run (.characterData (t ++ u) :: evs) := by
  rw [run_cons, run_cons, run_cons]
  simp only [expatEvent_characterData]
  by_cases h : p.context.raised ≠ .none
  · simp only [h, if_true, Option.toList_none, List.nil_append, not_false_eq_true, ne_eq]
  · simp only [h, if_false, incomingCharacterData_raised, incomingCharacterData_twice,
      Option.toList_none, List.nil_append]

theorem run_text_nil (p : XmppStanzaParser) (evs : List ExpatEvent) :
    p.run (.characterData [] :: evs) = p.run evs := by
  rw [run_cons, expatEvent_characterData, incomingCharacterData_nil, ite_self]
  rfl

theorem run_joinText (p : XmppStanzaParser) (evs : List ExpatEvent) :
    p.run (joinText evs) = p.run evs := by
  induction evs generalizing p with
  | nil => rfl
  | cons ev evs ih =>
    rcases ev with ⟨name, atts⟩ | ⟨name⟩ | ⟨t⟩ | ⟨ver, enc, standalone⟩
    · rw [joinText, run_cons, run_cons, ih]
      exact fun _ => ExpatEvent.noConfusion
    · rw [joinText, run_cons, run_cons, ih]
      exact fun _ => ExpatEvent.noConfusion
    · have htail : p.run (.characterData t :: joinText evs)
        = p.run (.characterData t :: evs) := by
        rw [run_cons, run_cons, ih]
      rw [joinText, ← htail]
      generalize joinText evs = joined
      have hapart : p.run (if t.isEmpty then joined else .characterData t :: joined)
          = p.run (.characterData t :: joined) := by
        by_cases ht : t.isEmpty = true
        · rw [if_pos ht, List.isEmpty_iff.1 ht, run_text_nil]
        · rw [if_neg ht]
      rcases joined with _ | ⟨first, rest⟩
      · exact hapart
      · rcases first with _ | _ | ⟨u⟩ | _
        · exact hapart
        · exact hapart
        · exact (run_text_text p t u rest).symm
        · exact hapart
    · rw [joinText, run_cons, run_cons, ih]
      exact fun _ => ExpatEvent.noConfusion

/-! ## 4. What one callback of expat can do -/

/-- The ways through one callback of expat. -/
inductive Effect (p : XmppStanzaParser) : ExpatEvent → XmppStanzaParser × Option StanzaEvent → Prop
  /-- an error was raised before -/
  | ignored (ev : ExpatEvent) (hr : p.context.raised ≠ .none) : Effect p ev (p, none)
  /-- a start tag that cannot be resolved -/
  | refused (name : Str) (atts : List (Str × Str)) (c : ParseContext) (d : Int)
      (hc : c.raised ≠ .none) :
      Effect p (.startElement name atts) ({ p with context := c, depth := d }, none)
  /-- the tag that opens the stream -/
  | stream (name : Str) (atts : List (Str × Str)) (c : ParseContext) (el : XmlElement)
      (hd : p.depth = 0) (hc : c.raised = .none) (hel : el.Normal) :
      Effect p (.startElement name atts)
        ({ p with context := c, depth := p.depth + 1 }, some (.startStream el))
  /-- a tag inside the stream -/
  | opened (name : Str) (atts : List (Str × Str)) (c : ParseContext) (el : XmlElement)
      (hd : p.depth ≠ 0) (hc : c.raised = .none) (hel : el.Normal) :
      Effect p (.startElement name atts)
        ({ p with context := c, depth := p.depth + 1, builder := p.builder.startElement el }, none)
  /-- character data -/
  | text (t : Str) : Effect p (.characterData t) (p.incomingCharacterData t, none)
  /-- the end of the stream -/
  | endStream (name : Str) (c : ParseContext) (hd : p.depth - 1 = 0) :
      Effect p (.endElement name) ({ p with context := c, depth := p.depth - 1 }, some .endStream)
  /-- the end of a stanza -/
  | endStanza (name : Str) (c : ParseContext) (hd : p.depth - 1 = 1) :
      Effect p (.endElement name)
        ({ p with context := c, depth := p.depth - 1,
                  builder := p.builder.endElement.createElement.1 },
          p.builder.endElement.createElement.2.map .stanza)
  /-- the end of an element inside a stanza -/
  | closed (name : Str) (c : ParseContext) (hd : p.depth - 1 ≠ 0) (hd' : p.depth - 1 ≠ 1) :
      Effect p (.endElement name)
        ({ p with context := c, depth := p.depth - 1, builder := p.builder.endElement }, none)
  /-- the XML declaration -/
  | xmlDecl (ver enc : Option Str) (standalone : Int) (c : ParseContext) :
      Effect p (.xmlDecl ver enc standalone) ({ p with context := c }, none)

theorem raiseError_raised (c : ParseContext) {err : XmlErrorCode} (h : err ≠ .none) :
    (c.raiseError err).raised ≠ .none := by
  unfold ParseContext.raiseError
  by_cases hraised : c.raised = .none
  · rw [if_pos hraised]
    exact h
  · rw [if_neg hraised]
    exact hraised

theorem effect (p : XmppStanzaParser) (ev : ExpatEvent) : Effect p ev (p.expatEvent ev) := by
  unfold expatEvent
  by_cases hr : p.context.raised ≠ .none
  · rw [if_pos hr]
    exact .ignored ev hr
  · rw [if_neg hr]
    rcases ev with ⟨name, atts⟩ | ⟨name⟩ | ⟨t⟩ | ⟨ver, enc, standalone⟩
    · -- a start tag: the declarations first, then the names
      dsimp only
      generalize
        declareAtts { p.context with xmlnsstack := p.context.xmlnsstack.pushFrame } atts = c
      by_cases hc : c.raised ≠ .none
      · rw [if_pos hc]
        exact .refused name atts c p.depth hc
      · rw [if_neg hc]
        have hc' : c.raised = .none := by simpa using hc
        unfold incomingStartElement
        dsimp only
        rcases hel : XmlBuilder.buildElement c name atts with _ | el
        · exact .refused name atts _ _ (raiseError_raised c (by simp))
        · have hnormal := XmlBuilder.buildElement_normal hel
          dsimp only
          by_cases hd : p.depth = 0
          · rw [if_pos hd]
            exact .stream name atts c el hd hc' hnormal
          · rw [if_neg hd]
            exact .opened name atts c el hd hc' hnormal
    · dsimp only
      unfold incomingEndElement
      dsimp only
      by_cases hd : p.depth - 1 = 0
      · rw [if_pos hd]
        exact .endStream name _ hd
      · rw [if_neg hd]
        by_cases hd' : p.depth - 1 = 1
        · rw [if_pos hd']
          exact .endStanza name _ hd'
        · rw [if_neg hd']
          exact .closed name _ hd hd'
    · exact .text t
    · exact .xmlDecl ver enc standalone _

/-- The flags of the parser are not touched by the callbacks of expat. -/
theorem expatEvent_flags (p : XmppStanzaParser) (ev : ExpatEvent) :
    (p.expatEvent ev).1.sentError = p.sentError ∧ (p.expatEvent ev).1.expatUsed = p.expatUsed := by
  have h := effect p ev
  generalize p.expatEvent ev = r at h
  rcases h with _ | _ | _ | _ | ⟨t⟩ | _ | _ | _ | _
  case text =>
    unfold incomingCharacterData
    by_cases hd : p.depth > 1
    · rw [if_pos hd]
      exact ⟨rfl, rfl⟩
    · rw [if_neg hd]
      exact ⟨rfl, rfl⟩
  all_goals exact ⟨rfl, rfl⟩

theorem run_flags (p : XmppStanzaParser) (evs : List ExpatEvent) :
    (p.run evs).1.sentError = p.sentError ∧ (p.run evs).1.expatUsed = p.expatUsed := by
  induction evs generalizing p with
  | nil => exact ⟨rfl, rfl⟩
  | cons ev evs ih =>
    obtain ⟨hsent, hused⟩ := expatEvent_flags p ev
    obtain ⟨hsent', hused'⟩ := ih (p.expatEvent ev).1
    rw [run_cons]
    exact ⟨hsent'.trans hsent, hused'.trans hused⟩

/-- expat's callbacks never report an error themselves. -/
theorem run_no_error (p : XmppStanzaParser) (evs : List ExpatEvent) :
    ∀ ev ∈ (p.run evs).2, ev ≠ .xmlError := by
  induction evs generalizing p with
  | nil => exact fun ev hev => absurd hev List.not_mem_nil
  | cons e evs ih =>
    intro ev hev
    rw [run_cons] at hev
    rcases List.mem_append.1 hev with hone | hrest
    · have h := effect p e
      generalize p.expatEvent e = r at h hone
      rcases h with _ | _ | _ | _ | _ | _ | _ | _ | _
      case stream =>
        rw [List.mem_singleton.1 hone]
        simp
      case endStream =>
        rw [List.mem_singleton.1 hone]
        simp
      case endStanza =>
        obtain ⟨el, -, heq⟩ := Option.map_eq_some_iff.1 (Option.mem_toList.1 hone)
        rw [← heq]
        simp
      all_goals exact absurd hone List.not_mem_nil
    · exact ih _ ev hrest

/-! ## 5. Calls -/

/-- The calls made for the callbacks `events`, the last of which returns `status`. -/
def tape (calls : List (List ExpatEvent)) (last : List ExpatEvent) (status : XmlErrorCode) :
    List (List ExpatEvent × XmlErrorCode) :=
  calls.map (fun call => (call, .none)) ++ [(last, status)]

/-- What the handler is told of a document whose callbacks are `events`. -/
def told (p : XmppStanzaParser) (events : List ExpatEvent) (status : XmlErrorCode) :
    List StanzaEvent :=
  (p.run events).2
    ++ if (p.run events).1.context.raised ≠ .none ∨ status ≠ .none then [.xmlError] else []

theorem parse_sent (h : p.sentError = true) (events : List ExpatEvent) (status : XmlErrorCode) :
    p.parse events status = (p, []) := by
  unfold parse
  rw [if_pos h]

theorem parseAll_sent (h : p.sentError = true) (calls : List (List ExpatEvent × XmlErrorCode)) :
    p.parseAll calls = (p, []) := by
  induction calls with
  | nil => rfl
  | cons call calls ih => rw [parseAll, parse_sent h, ih, List.nil_append]

/-- One call: its callbacks, and the error if one was raised, here or by expat. -/
theorem parse_eq (hsent : p.sentError = false) (hused : p.expatUsed = true)
    (events : List ExpatEvent) (status : XmlErrorCode) :
    (p.parse events status).2 = p.told events status ∧
    ((p.run events).1.context.raised ≠ .none ∨ status ≠ .none →
      (p.parse events status).1.sentError = true) ∧
    ((p.run events).1.context.raised = .none → status = .none →
      (p.parse events status).1 = (p.run events).1) := by
  have hfed : ({ p with expatUsed := true } : XmppStanzaParser) = p := by rw [← hused]
  unfold parse told
  rw [if_neg (by simp [hsent]), hfed]
  unfold parseReturned
  by_cases hstatus : status = .none
  · by_cases hraised : (p.run events).1.context.raised = .none <;> simp [hstatus, hraised]
  · have hraised := raiseError_raised (p.run events).1.context hstatus
    simp [hstatus, hraised]

/-- Many calls tell the handler what one call would. -/
theorem parseAll_eq (hsent : p.sentError = false) (hused : p.expatUsed = true)
    (calls : List (List ExpatEvent)) (last : List ExpatEvent) (status : XmlErrorCode) :
    (p.parseAll (tape calls last status)).2 = p.told (calls.flatten ++ last) status := by
  induction calls generalizing p with
  | nil =>
    rw [tape, List.map_nil, List.nil_append, parseAll, parseAll, List.append_nil]
    exact (parse_eq hsent hused last status).1
  | cons call calls ih =>
    obtain ⟨hcall, hstop, hgo⟩ := parse_eq hsent hused call .none
    rw [tape, List.map_cons, List.cons_append, parseAll, List.flatten_cons, List.append_assoc]
    show (p.parse call .none).2
      ++ ((p.parse call .none).1.parseAll (tape calls last status)).2 = _
    by_cases hraised : (p.run call).1.context.raised = .none
    · have hflags := run_flags p call
      rw [hgo hraised rfl, ih (hflags.1.trans hsent) (hflags.2.trans hused), hcall]
      unfold told
      rw [run_append p call, if_neg (by simp [hraised]), List.append_nil, List.append_assoc]
    · -- the error is told at the end of this call, and nothing after it
      rw [parseAll_sent (hstop (Or.inl hraised)), List.append_nil, hcall]
      unfold told
      rw [run_append p call, run_raised hraised, List.append_nil, if_pos (Or.inl hraised),
        if_pos (Or.inl hraised)]

/-- Nothing is told after an error. -/
theorem parseAll_pairwise (p : XmppStanzaParser) (hused : p.expatUsed = true)
    (calls : List (List ExpatEvent × XmlErrorCode)) :
    (p.parseAll calls).2.Pairwise fun ev _ => ev ≠ .xmlError := by
  induction calls generalizing p with
  | nil => exact List.Pairwise.nil
  | cons call calls ih =>
    by_cases hsent : p.sentError = true
    · rw [parseAll_sent hsent]
      exact List.Pairwise.nil
    · obtain ⟨hcall, hstop, hgo⟩ :=
        parse_eq (Bool.eq_false_iff.2 hsent) hused call.1 call.2
      have hnone := run_no_error p call.1
      have hrun : (p.run call.1).2.Pairwise fun ev _ => ev ≠ .xmlError :=
        List.pairwise_of_forall_mem_list fun ev hev _ _ => hnone ev hev
      rw [parseAll]
      show ((p.parse call.1 call.2).2 ++ ((p.parse call.1 call.2).1.parseAll calls).2).Pairwise _
      by_cases hraised : (p.run call.1).1.context.raised ≠ .none ∨ call.2 ≠ .none
      · rw [parseAll_sent (hstop hraised), List.append_nil, hcall]
        unfold told
        rw [if_pos hraised, List.pairwise_append]
        exact ⟨hrun, List.pairwise_singleton _ _, fun ev hev _ _ => hnone ev hev⟩
      · have hquiet : (p.run call.1).1.context.raised = .none ∧ call.2 = .none := by
          simpa [not_or] using hraised
        rw [hgo hquiet.1 hquiet.2, hcall]
        unfold told
        rw [if_neg hraised, List.append_nil, List.pairwise_append]
        exact ⟨hrun, ih _ ((run_flags p call.1).2.trans hused), fun ev hev _ _ => hnone ev hev⟩

/-! ## 6. The trees -/

/-- The elements under construction are normal. -/
structure BuildsNormal (b : XmlBuilder) : Prop where
  open_ : ∀ el ∈ b.open_, el.Normal
  root : ∀ el, b.pelRoot = some el → el.Normal

theorem BuildsNormal.endElement (h : BuildsNormal b) : BuildsNormal b.endElement := by
  obtain ⟨hopen, hroot⟩ := h
  unfold XmlBuilder.endElement
  rcases hb : b.open_ with _ | ⟨el, _ | ⟨parent, rest⟩⟩
  · rw [hb] at hopen
    exact ⟨by rwa [hb], hroot⟩
  · rw [hb] at hopen
    refine ⟨fun e he => absurd he List.not_mem_nil, ?_⟩
    intro e he
    rw [← Option.some.inj he]
    exact hopen el List.mem_cons_self
  · rw [hb] at hopen
    refine ⟨?_, hroot⟩
    intro e he
    rcases List.mem_cons.1 he with heq | hrest
    · rw [heq]
      exact (hopen parent (by simp)).addElement (hopen el List.mem_cons_self)
    · exact hopen e (by simp [hrest])

theorem BuildsNormal.characterData (h : BuildsNormal b) (t : Str) :
    BuildsNormal (b.characterData t) := by
  obtain ⟨hopen, hroot⟩ := h
  unfold XmlBuilder.characterData
  rcases hb : b.open_ with _ | ⟨el, rest⟩
  · exact ⟨hopen, hroot⟩
  · rw [hb] at hopen
    refine ⟨?_, hroot⟩
    intro e he
    rcases List.mem_cons.1 he with heq | hrest
    · rw [heq]
      exact (hopen el List.mem_cons_self).addText t
    · exact hopen e (List.mem_cons_of_mem _ hrest)

theorem expatEvent_normal (h : BuildsNormal p.builder) (ev : ExpatEvent) :
    BuildsNormal (p.expatEvent ev).1.builder ∧
      ∀ e ∈ (p.expatEvent ev).2, ∀ el, e.tree = some el → el.Normal := by
  have heff := effect p ev
  generalize p.expatEvent ev = r at heff
  rcases heff with _ | _ | ⟨name, atts, c, el, hd, hc, hel⟩ | ⟨name, atts, c, el, hd, hc, hel⟩
    | ⟨t⟩ | _ | ⟨name, c, hd⟩ | _ | _
  case stream =>
    refine ⟨h, ?_⟩
    intro e he el' htree
    rw [← Option.some.inj he] at htree
    rw [← Option.some.inj htree]
    exact hel
  case opened =>
    refine ⟨⟨?_, h.root⟩, fun e he => absurd he (by simp)⟩
    intro e he
    rcases List.mem_cons.1 he with heq | hrest
    · rw [heq]
      exact hel
    · exact h.open_ e hrest
  case text =>
    refine ⟨?_, fun e he => absurd he (by simp)⟩
    unfold incomingCharacterData
    by_cases hd : p.depth > 1
    · rw [if_pos hd]
      exact h.characterData t
    · rw [if_neg hd]
      exact h
  case endStream =>
    refine ⟨h, ?_⟩
    intro e he el' htree
    rw [← Option.some.inj he] at htree
    exact absurd htree (by simp [StanzaEvent.tree])
  case endStanza =>
    -- the root that is handed over was built, and is released
    have hend := h.endElement
    refine ⟨⟨hend.open_, fun el hel => absurd hel (by simp [XmlBuilder.createElement])⟩, ?_⟩
    intro e he el' htree
    obtain ⟨el, hroot, heq⟩ := Option.map_eq_some_iff.1 he
    rw [← heq] at htree
    rw [← Option.some.inj htree]
    exact hend.root el hroot
  case closed => exact ⟨h.endElement, fun e he => absurd he (by simp)⟩
  all_goals exact ⟨h, fun e he => absurd he (by simp)⟩

theorem run_normal (h : BuildsNormal p.builder) (evs : List ExpatEvent) :
    ∀ e ∈ (p.run evs).2, ∀ el, e.tree = some el → el.Normal := by
  induction evs generalizing p with
  | nil => exact fun e he => absurd he List.not_mem_nil
  | cons ev evs ih =>
    obtain ⟨hbuilder, hone⟩ := expatEvent_normal h ev
    intro e he
    rw [run_cons] at he
    rcases List.mem_append.1 he with hfirst | hrest
    · exact hone e (Option.mem_toList.1 hfirst)
    · exact ih hbuilder e hrest

/-! ## 7. Depth -/

/-- The number of open elements after the callbacks; none if more were closed than
opened. -/
def level : Nat → List ExpatEvent → Option Nat
  | n, [] => some n
  | n, .startElement _ _ :: evs => level (n + 1) evs
  | n, .endElement _ :: evs => if n = 0 then none else level (n - 1) evs
  | n, .characterData _ :: evs => level n evs
  | n, .xmlDecl _ _ _ :: evs => level n evs

/-- The depth counter, the builder's stack and its root are in step with the tags. -/
structure InStep (p : XmppStanzaParser) (n : Nat) : Prop where
  depth : p.depth = n
  open_ : p.builder.open_.length = n - 1
  root : p.builder.pelRoot = none

theorem endElement_length (h : 2 ≤ b.open_.length) :
    b.endElement.open_.length = b.open_.length - 1 ∧ b.endElement.pelRoot = b.pelRoot := by
  unfold XmlBuilder.endElement
  rcases hb : b.open_ with _ | ⟨el, _ | ⟨parent, rest⟩⟩
  · rw [hb] at h
    exact absurd h (by simp)
  · rw [hb] at h
    exact absurd h (by simp)
  · simp

theorem characterData_length (b : XmlBuilder) (t : Str) :
    (b.characterData t).open_.length = b.open_.length ∧
    (b.characterData t).pelRoot = b.pelRoot := by
  unfold XmlBuilder.characterData
  rcases hb : b.open_ with _ | ⟨el, rest⟩
  · simp [hb]
  · simp

theorem run_inStep {n m : Nat} {evs : List ExpatEvent} (h : InStep p n)
    (hlevel : level n evs = some m) (hquiet : (p.run evs).1.context.raised = .none) :
    InStep (p.run evs).1 m := by
  induction evs generalizing p n with
  | nil =>
    rw [level] at hlevel
    rw [← Option.some.inj hlevel]
    exact h
  | cons ev evs ih =>
    rw [run_cons] at hquiet ⊢
    -- the callback raised no error, or nothing after it would have taken it back
    have hone : (p.expatEvent ev).1.context.raised = .none := by
      apply Classical.byContradiction
      intro hraised
      rw [run_raised hraised] at hquiet
      exact hraised hquiet
    have heff := effect p ev
    generalize p.expatEvent ev = r at heff hone hquiet
    obtain ⟨hdepth, hopen, hroot⟩ := h
    rcases heff with ⟨ev, hr⟩ | ⟨name, atts, c, d, hc⟩ | ⟨name, atts, c, el, hd, hc, hel⟩
      | ⟨name, atts, c, el, hd, hc, hel⟩ | ⟨t⟩ | ⟨name, c, hd⟩ | ⟨name, c, hd⟩
      | ⟨name, c, hd, hd'⟩
      | ⟨ver, enc, standalone, c⟩
    · exact absurd hone hr
    · exact absurd hone hc
    · rw [level] at hlevel
      refine ih ⟨?_, ?_, hroot⟩ hlevel hquiet
      · dsimp only
        omega
      · dsimp only
        omega
    · rw [level] at hlevel
      refine ih ⟨?_, ?_, hroot⟩ hlevel hquiet
      · dsimp only
        omega
      · dsimp only [XmlBuilder.startElement]
        rw [List.length_cons]
        omega
    · rw [level] at hlevel
      refine ih ?_ hlevel hquiet
      unfold incomingCharacterData
      by_cases hd : p.depth > 1
      · rw [if_pos hd]
        obtain ⟨hlen, hroot'⟩ := characterData_length p.builder t
        exact ⟨hdepth, hlen.trans hopen, hroot'.trans hroot⟩
      · rw [if_neg hd]
        exact ⟨hdepth, hopen, hroot⟩
    all_goals
      rw [level] at hlevel
    · have hn : n ≠ 0 := by omega
      rw [if_neg hn] at hlevel
      refine ih ⟨?_, ?_, hroot⟩ hlevel hquiet
      · dsimp only
        omega
      · dsimp only
        omega
    · -- the stanza is closed: the stack is emptied and the root released
      have hn : n ≠ 0 := by omega
      rw [if_neg hn] at hlevel
      have hlen : p.builder.open_.length = 1 := by omega
      obtain ⟨el, hb⟩ := List.length_eq_one_iff.1 hlen
      refine ih ⟨?_, ?_, rfl⟩ hlevel hquiet
      · dsimp only
        omega
      · dsimp only [XmlBuilder.createElement, XmlBuilder.endElement]
        rw [hb]
        simp only [List.length_nil]
        omega
    · by_cases hn : n = 0
      · rw [if_pos hn] at hlevel
        exact absurd hlevel (by simp)
      · rw [if_neg hn] at hlevel
        have hlen : 2 ≤ p.builder.open_.length := by omega
        obtain ⟨hlen', hroot'⟩ := endElement_length hlen
        refine ih ⟨?_, ?_, hroot'.trans hroot⟩ hlevel hquiet
        · dsimp only
          omega
        · dsimp only
          omega
    · exact ih ⟨hdepth, hopen, hroot⟩ hlevel hquiet

end XmppStanzaParser

/-! ## 8. Documents -/

/-- What stands between the tags of an element: text, and elements with their content. -/
inductive XmlContent where
  | nil
  | text (t : Str) (rest : XmlContent)
  | element (name : Str) (atts : List (Str × Str)) (inner rest : XmlContent)

/-- expat's callbacks for the content. -/
def XmlContent.events : XmlContent → List ExpatEvent
  | .nil => []
  | .text t rest => .characterData t :: rest.events
  | .element name atts inner rest =>
    .startElement name atts :: (inner.events ++ .endElement name :: rest.events)

/-- The bindings inside an element and the element without its content; none where its
tag is in error. -/
def openElement (s : XmlnsStack) (name : Str) (atts : List (Str × Str)) :
    Option (XmlnsStack × XmlElement) :=
  let c := XmppStanzaParser.declareAtts ⟨s.pushFrame, .none⟩ atts
  if c.raised ≠ .none then none
  else (XmlBuilder.buildElement c name atts).map fun el => (c.xmlnsstack, el)

/-- The element `el` with the content added; none where a tag in it is in error. -/
def XmlContent.build (s : XmlnsStack) (el : XmlElement) : XmlContent → Option XmlElement
  | .nil => some el
  | .text t rest => rest.build s (el.addText t)
  | .element name atts inner rest =>
    match openElement s name atts with
    | none => none
    | some (s', child) =>
      match inner.build s' child with
      | none => none
      | some child' => rest.build s (el.addElement child')

/-- The callbacks for the content of the stream: a stanza for each element, up to the
first error. -/
def XmlContent.callbacks (s : XmlnsStack) : XmlContent → List StanzaEvent
  | .nil => [.endStream]
  | .text _ rest => rest.callbacks s
  | .element name atts inner rest =>
    match (openElement s name atts).bind fun opened => inner.build opened.1 opened.2 with
    | some stanza => .stanza stanza :: rest.callbacks s
    | none => [.xmlError]

/-- A stream: an XML declaration or none, and one element. -/
structure StreamDocument where
  xmlDecl : Option (Option Str × Option Str × Int)
  name : Str
  atts : List (Str × Str)
  content : XmlContent

namespace StreamDocument

/-- expat's callbacks for the XML declaration. -/
def declEvents (doc : StreamDocument) : List ExpatEvent :=
  match doc.xmlDecl with
  | some (ver, enc, standalone) => [.xmlDecl ver enc standalone]
  | none => []

/-- expat's callbacks for the document, the character data in one way. -/
def events (doc : StreamDocument) : List ExpatEvent :=
  doc.declEvents ++ .startElement doc.name doc.atts
    :: (doc.content.events ++ [.endElement doc.name])

/-- Whether the XML declaration is accepted. -/
def declAccepted (doc : StreamDocument) : Bool :=
  match doc.xmlDecl with
  | some (ver, enc, standalone) =>
    (XmppStanzaParser.expatXmlDecl .init ver enc standalone).raised = .none
  | none => true

/-- What the handler is told: the start of the stream, its stanzas in order and its end,
up to the first error. -/
def callbacks (doc : StreamDocument) : List StanzaEvent :=
  if doc.declAccepted then
    match openElement .empty doc.name doc.atts with
    | some (s, stream) => .startStream stream :: doc.content.callbacks s
    | none => [.xmlError]
  else [.xmlError]

end StreamDocument

namespace XmppStanzaParser

/-- The declarations of a tag go on top of the bindings. -/
theorem declareAtts_stack (c : ParseContext) (atts : List (Str × Str)) :
    ∃ ds, (declareAtts c atts).xmlnsstack = ⟨ds ++ c.xmlnsstack.bindings, c.xmlnsstack.depths⟩ := by
  induction atts generalizing c with
  | nil => exact ⟨[], rfl⟩
  | cons att atts ih =>
    obtain ⟨name, value⟩ := att
    rw [declareAtts]
    by_cases hdefault : name = str "xmlns"
    · rw [if_pos hdefault]
      obtain ⟨ds, hds⟩ := ih (c.startNamespace STR_EMPTY value)
      refine ⟨ds ++ [(STR_EMPTY, value)], ?_⟩
      rw [hds, List.append_assoc]
      rfl
    · rw [if_neg hdefault]
      by_cases hpfx : (str "xmlns:").isPrefixOf name = true
      · rw [if_pos hpfx]
        by_cases hempty : value.isEmpty = true
        · rw [if_pos hempty]
          refine ⟨[], ?_⟩
          unfold ParseContext.raiseError
          by_cases hraised : c.raised = .none
          · rw [if_pos hraised]
            rfl
          · rw [if_neg hraised]
            rfl
        · rw [if_neg hempty]
          obtain ⟨ds, hds⟩ := ih (c.startNamespace (name.drop 6) value)
          refine ⟨ds ++ [(name.drop 6, value)], ?_⟩
          rw [hds, List.append_assoc]
          rfl
      · rw [if_neg hpfx]
        exact ih c

variable {atts : List (Str × Str)} {el : XmlElement} {name : Str} {s' : XmlnsStack}
  {p : XmppStanzaParser}

/-- Leaving an element restores the bindings outside it. -/
theorem popFrame_openElement {s : XmlnsStack} (h : openElement s name atts = some (s', el)) :
    s'.popFrame = s := by
  unfold openElement at h
  dsimp only at h
  obtain ⟨ds, hds⟩ := declareAtts_stack ⟨s.pushFrame, .none⟩ atts
  by_cases hraised : (declareAtts ⟨s.pushFrame, .none⟩ atts).raised ≠ .none
  · rw [if_pos hraised] at h
    exact absurd h (by simp)
  · rw [if_neg hraised] at h
    obtain ⟨el', -, heq⟩ := Option.map_eq_some_iff.1 h
    have hs : s' = ⟨ds ++ s.bindings, s.bindings.length :: s.depths⟩ :=
      (Prod.mk.inj heq).1.symm.trans hds
    rw [hs]
    unfold XmlnsStack.popFrame
    dsimp only
    have hlen : (ds ++ s.bindings).length - s.bindings.length = ds.length := by
      rw [List.length_append]
      omega
    rw [hlen, List.drop_left]

/-- A start tag, while no error is raised: the declarations, and then the names. -/
theorem expatEvent_startElement (hr : p.context.raised = .none) (name : Str)
    (atts : List (Str × Str)) :
    p.expatEvent (.startElement name atts)
      = if (declareAtts ⟨p.context.xmlnsstack.pushFrame, .none⟩ atts).raised ≠ .none
        then ({ p with context := declareAtts ⟨p.context.xmlnsstack.pushFrame, .none⟩ atts }, none)
        else incomingStartElement
          { p with context := declareAtts ⟨p.context.xmlnsstack.pushFrame, .none⟩ atts }
          name atts := by
  have hctx : (⟨p.context.xmlnsstack.pushFrame, p.context.raised⟩ : ParseContext)
      = ⟨p.context.xmlnsstack.pushFrame, .none⟩ := by rw [hr]
  unfold expatEvent
  rw [if_neg (not_not_intro hr)]
  show (if (declareAtts ⟨p.context.xmlnsstack.pushFrame, p.context.raised⟩ atts).raised ≠ .none
    then _ else _) = _
  rw [hctx]

/-- A start tag that is in order opens its element. -/
theorem expatEvent_opened (hr : p.context.raised = .none)
    (h : openElement p.context.xmlnsstack name atts = some (s', el)) :
    p.expatEvent (.startElement name atts)
      = if p.depth = 0
        then ({ p with context := ⟨s', .none⟩, depth := p.depth + 1 }, some (.startStream el))
        else ({ p with context := ⟨s', .none⟩, depth := p.depth + 1,
                       builder := p.builder.startElement el }, none) := by
  rw [expatEvent_startElement hr]
  unfold openElement at h
  dsimp only at h
  generalize declareAtts ⟨p.context.xmlnsstack.pushFrame, .none⟩ atts = c at h ⊢
  by_cases hc : c.raised ≠ .none
  · rw [if_pos hc] at h
    exact absurd h (by simp)
  · rw [if_neg hc] at h ⊢
    obtain ⟨el', hel, heq⟩ := Option.map_eq_some_iff.1 h
    obtain ⟨rfl, rfl⟩ := Prod.mk.inj heq
    have hc' : c.raised = .none := by simpa using hc
    have hc'' : (⟨c.xmlnsstack, .none⟩ : ParseContext) = c := by rw [← hc']
    rw [hc'']
    unfold incomingStartElement
    dsimp only
    rw [hel]

/-- A start tag that is in error raises it. -/
theorem expatEvent_refused (hr : p.context.raised = .none)
    (h : openElement p.context.xmlnsstack name atts = none) :
    (p.expatEvent (.startElement name atts)).2 = none ∧
      (p.expatEvent (.startElement name atts)).1.context.raised ≠ .none := by
  rw [expatEvent_startElement hr]
  unfold openElement at h
  dsimp only at h
  generalize declareAtts ⟨p.context.xmlnsstack.pushFrame, .none⟩ atts = c at h ⊢
  by_cases hc : c.raised ≠ .none
  · rw [if_pos hc]
    exact ⟨rfl, hc⟩
  · rw [if_neg hc] at h ⊢
    have hel : XmlBuilder.buildElement c name atts = none := Option.map_eq_none_iff.1 h
    unfold incomingStartElement
    dsimp only
    rw [hel]
    exact ⟨rfl, raiseError_raised c (by simp)⟩

/-- The end tag of an element inside a stanza pops its bindings and puts it into its parent. -/
theorem expatEvent_end_nested {child' : XmlElement} {outer : List XmlElement} (name : Str)
    (hr : p.context.raised = .none) (hd : p.depth = outer.length + 2)
    (hpop : s'.popFrame = p.context.xmlnsstack) :
    ({ p with context := ⟨s', .none⟩, depth := p.depth + 1,
              builder := { p.builder with open_ := child' :: el :: outer } } :
      XmppStanzaParser).expatEvent (.endElement name)
      = ({ p with builder := { p.builder with open_ := el.addElement child' :: outer } },
        none) := by
  have hctx : (⟨s'.popFrame, .none⟩ : ParseContext) = p.context := by
    rw [hpop, ← hr]
  have hdepth : p.depth + 1 - 1 = p.depth := by omega
  unfold expatEvent
  dsimp only
  rw [if_neg (by simp)]
  unfold incomingEndElement
  dsimp only
  -- it is neither the stream nor a stanza
  rw [if_neg (by omega), if_neg (by omega)]
  unfold XmlBuilder.endElement
  dsimp only
  rw [hctx, hdepth]

/-- The end tag of a stanza empties the builder and reports it. -/
theorem expatEvent_end_stanza {child' : XmlElement} (name : Str) (hr : p.context.raised = .none)
    (hd : p.depth = 1) (hb : p.builder = .init) (hpop : s'.popFrame = p.context.xmlnsstack) :
    ({ p with context := ⟨s', .none⟩, depth := p.depth + 1,
              builder := { p.builder with open_ := [child'] } } :
      XmppStanzaParser).expatEvent (.endElement name) = (p, some (.stanza child')) := by
  have hctx : (⟨s'.popFrame, .none⟩ : ParseContext) = p.context := by
    rw [hpop, ← hr]
  have hdepth : p.depth + 1 - 1 = p.depth := by omega
  have hinit : (⟨[], none⟩ : XmlBuilder) = p.builder := hb.symm
  unfold expatEvent
  dsimp only
  rw [if_neg (by simp)]
  unfold incomingEndElement
  dsimp only
  rw [if_neg (by omega), if_pos (by omega), hctx, hdepth]
  show (({ p with builder := ⟨[], none⟩ } : XmppStanzaParser),
    some (StanzaEvent.stanza child')) = _
  rw [hinit]

/-- The content of an element is added to it, or an error is raised in it. Nothing is
told meanwhile: the element is not at the depth of a stanza's parent. -/
theorem run_content {outer : List XmlElement} (content : XmlContent)
    (hr : p.context.raised = .none) (hopen : p.builder.open_ = el :: outer)
    (hd : p.depth = outer.length + 2) :
    (∀ el', content.build p.context.xmlnsstack el = some el' →
      p.run content.events
        = ({ p with builder := { p.builder with open_ := el' :: outer } }, [])) ∧
    (content.build p.context.xmlnsstack el = none →
      (p.run content.events).2 = [] ∧ (p.run content.events).1.context.raised ≠ .none) := by
  induction content generalizing p el outer with
  | nil =>
    refine ⟨?_, fun h => absurd h (by simp [XmlContent.build])⟩
    intro el' h
    rw [XmlContent.build] at h
    rw [XmlContent.events, run, ← Option.some.inj h, ← hopen]
  | text t rest ih =>
    rw [XmlContent.build, XmlContent.events, run_cons, expatEvent_characterData,
      if_neg (by simp [hr])]
    have htext : p.incomingCharacterData t
        = { p with builder := { p.builder with open_ := el.addText t :: outer } } := by
      unfold incomingCharacterData XmlBuilder.characterData
      rw [if_pos (by omega), hopen]
    rw [htext]
    exact ih
      (p := { p with builder := { p.builder with open_ := el.addText t :: outer } }) hr rfl hd
  | element name atts inner rest ihInner ihRest =>
    rw [XmlContent.build, XmlContent.events, run_cons]
    rcases hopened : openElement p.context.xmlnsstack name atts with _ | ⟨s', child⟩
    · -- the start tag is refused, and nothing after it is looked at
      obtain ⟨hnone, hraised⟩ := expatEvent_refused hr hopened
      refine ⟨fun _ h => absurd h (by simp), fun _ => ?_⟩
      rw [run_raised hraised, hnone]
      exact ⟨rfl, hraised⟩
    · rw [expatEvent_opened hr hopened, if_neg (by omega)]
      dsimp only
      -- inside the child: its bindings, one level deeper, and the child on the stack
      -- `q` is the parser inside of the stanza, `run_content` takes it to the end of the content
      generalize hq : ({ p with context := ⟨s', .none⟩, depth := p.depth + 1,
                                builder := p.builder.startElement child } : XmppStanzaParser) = q
      have hqr : q.context.raised = .none := by rw [← hq]
      have hqs : q.context.xmlnsstack = s' := by rw [← hq]
      have hqo : q.builder.open_ = child :: el :: outer := by
        rw [← hq]
        dsimp only [XmlBuilder.startElement]
        rw [hopen]
      have hqd : q.depth = (el :: outer).length + 2 := by
        rw [← hq, List.length_cons]
        dsimp only
        omega
      obtain ⟨hbuilt, hraised⟩ := ihInner hqr hqo hqd
      rw [hqs] at hbuilt hraised
      rw [run_append]
      rcases hchild : inner.build s' child with _ | child'
      · obtain ⟨hnone, hr'⟩ := hraised hchild
        refine ⟨fun _ h => absurd h (by simp), fun _ => ?_⟩
        rw [run_raised hr', hnone]
        exact ⟨rfl, hr'⟩
      · rw [hbuilt child' hchild, run_cons]
        have hend : ({ q with builder := { q.builder with open_ := child' :: el :: outer } } :
            XmppStanzaParser).expatEvent (.endElement name)
            = ({ p with builder := { p.builder with open_ := el.addElement child' :: outer } },
              none) := by
          rw [← hq]
          exact expatEvent_end_nested name hr hd (popFrame_openElement hopened)
        rw [hend]
        exact ihRest (p := { p with
          builder := { p.builder with open_ := el.addElement child' :: outer } }) hr rfl hd

theorem told_raised (h : p.context.raised ≠ .none) (evs : List ExpatEvent) :
    p.told evs .none = [.xmlError] := by
  unfold told
  rw [run_raised h, if_pos (Or.inl h)]
  rfl

theorem told_cons (p : XmppStanzaParser) (ev : ExpatEvent) (evs : List ExpatEvent) :
    p.told (ev :: evs) .none
      = (p.expatEvent ev).2.toList ++ (p.expatEvent ev).1.told evs .none := by
  unfold told
  rw [run_cons, List.append_assoc]

theorem told_append (p : XmppStanzaParser) (evs evs' : List ExpatEvent) :
    p.told (evs ++ evs') .none = (p.run evs).2 ++ (p.run evs).1.told evs' .none := by
  unfold told
  rw [run_append, List.append_assoc]

/-- Inside the stream: each element of the content becomes a stanza. -/
theorem told_content (root : Str) (content : XmlContent) (hr : p.context.raised = .none)
    (hd : p.depth = 1) (hb : p.builder = .init) :
    p.told (content.events ++ [.endElement root]) .none
      = content.callbacks p.context.xmlnsstack := by
  induction content generalizing p with
  | nil =>
    have hend : p.expatEvent (.endElement root)
        = ({ p with context := ⟨p.context.xmlnsstack.popFrame, .none⟩, depth := 0 },
          some .endStream) := by
      unfold expatEvent
      dsimp only
      rw [if_neg (by simp [hr])]
      unfold incomingEndElement
      dsimp only
      rw [if_pos (by omega), hr, hd]
      rfl
    rw [XmlContent.events, XmlContent.callbacks, List.nil_append, told_cons, hend]
    rfl
  | text t rest ih =>
    have htext : p.expatEvent (.characterData t) = (p, none) := by
      rw [expatEvent_characterData, if_neg (by simp [hr])]
      unfold incomingCharacterData
      rw [if_neg (by omega)]
    rw [XmlContent.events, XmlContent.callbacks, List.cons_append, told_cons, htext]
    exact ih hr hd hb
  | element name atts inner rest _ ihRest =>
    rw [XmlContent.events, XmlContent.callbacks, List.cons_append, told_cons]
    rcases hopened : openElement p.context.xmlnsstack name atts with _ | ⟨s', child⟩
    · obtain ⟨hnone, hraised⟩ := expatEvent_refused hr hopened
      rw [hnone, told_raised hraised]
      rfl
    · rw [expatEvent_opened hr hopened, if_neg (by omega), List.append_assoc]
      generalize hq : ({ p with context := ⟨s', .none⟩, depth := p.depth + 1,
                                builder := p.builder.startElement child } : XmppStanzaParser) = q
      have hqr : q.context.raised = .none := by rw [← hq]
      have hqs : q.context.xmlnsstack = s' := by rw [← hq]
      have hqo : q.builder.open_ = child :: [] := by
        rw [← hq, hb]
        rfl
      have hqd : q.depth = ([] : List XmlElement).length + 2 := by
        rw [← hq, List.length_nil]
        dsimp only
        omega
      obtain ⟨hbuilt, hraised⟩ := run_content inner hqr hqo hqd
      rw [hqs] at hbuilt hraised
      dsimp only [Option.bind_some]
      rw [told_append]
      rcases hchild : inner.build s' child with _ | child'
      · obtain ⟨hnone, hr'⟩ := hraised hchild
        rw [hnone, told_raised hr']
        rfl
      · rw [hbuilt child' hchild, List.cons_append, told_cons]
        have hend : ({ q with builder := { q.builder with open_ := [child'] } } :
            XmppStanzaParser).expatEvent (.endElement name)
            = (p, some (.stanza child')) := by
          rw [← hq]
          exact expatEvent_end_stanza name hr hd hb (popFrame_openElement hopened)
        rw [hend]
        show StanzaEvent.stanza child' :: p.told (rest.events ++ [.endElement root]) .none = _
        rw [ihRest hr hd hb]

/-- A refused XML declaration raises an error, an accepted one changes nothing. -/
theorem expatXmlDecl_init (ver enc : Option Str) (standalone : Int) :
    (expatXmlDecl .init ver enc standalone).raised ≠ .none ∨
      expatXmlDecl .init ver enc standalone = .init := by
  have hraise : ∀ err : XmlErrorCode, err ≠ .none →
      (ParseContext.init.raiseError err).raised ≠ .none :=
    fun err herr => raiseError_raised _ herr
  unfold expatXmlDecl
  by_cases hver : (ver.isSome && ver ≠ some (str "1.0")) = true
  · rw [if_pos hver]
    exact Or.inl (hraise _ (by simp))
  · rw [if_neg hver]
    by_cases halone : standalone = 0
    · rw [if_pos halone]
      exact Or.inl (hraise _ (by simp))
    · rw [if_neg halone]
      rcases enc with _ | e
      · exact Or.inr rfl
      · dsimp only
        by_cases henc : acceptsEncoding e = true
        · rw [if_pos henc]
          exact Or.inr rfl
        · rw [if_neg henc]
          exact Or.inl (hraise _ (by simp))

/-- The state in which the first call of `Parse` hands bytes to expat. -/
def fresh : XmppStanzaParser := { init with expatUsed := true }

/-- A whole document. -/
theorem told_document (doc : StreamDocument) : fresh.told doc.events .none = doc.callbacks := by
  have hbody : fresh.told (.startElement doc.name doc.atts
      :: (doc.content.events ++ [.endElement doc.name])) .none
      = match openElement .empty doc.name doc.atts with
        | some (s, stream) => .startStream stream :: doc.content.callbacks s
        | none => [.xmlError] := by
    rw [told_cons]
    rcases hopened : openElement .empty doc.name doc.atts with _ | ⟨s, stream⟩
    · obtain ⟨hnone, hraised⟩ := expatEvent_refused (p := fresh) rfl hopened
      rw [hnone, told_raised hraised]
      rfl
    · rw [expatEvent_opened (p := fresh) rfl hopened, if_pos (show fresh.depth = 0 from rfl)]
      have hcontent := told_content (p := { fresh with context := ⟨s, .none⟩, depth := 1 })
        doc.name doc.content rfl rfl rfl
      exact congrArg (StanzaEvent.startStream stream :: ·) hcontent
  unfold StreamDocument.events StreamDocument.callbacks StreamDocument.declEvents
    StreamDocument.declAccepted
  rcases hdecl : doc.xmlDecl with _ | ⟨ver, enc, standalone⟩
  · dsimp only
    rw [List.nil_append, hbody, if_pos rfl]
  · dsimp only
    rw [List.singleton_append, told_cons]
    have hevent : fresh.expatEvent (.xmlDecl ver enc standalone)
        = ({ fresh with context := expatXmlDecl .init ver enc standalone }, none) := rfl
    rw [hevent]
    by_cases haccepted : (expatXmlDecl .init ver enc standalone).raised = .none
    · -- an accepted declaration changes nothing
      have hsame := (expatXmlDecl_init ver enc standalone).resolve_left (not_not.2 haccepted)
      rw [if_pos (by simpa using haccepted), ← hbody]
      show [] ++ XmppStanzaParser.told
        { fresh with context := expatXmlDecl .init ver enc standalone } _ _
        = _
      rw [hsame]
      rfl
    · rw [if_neg (by simpa using haccepted)]
      show [] ++ XmppStanzaParser.told
        { fresh with context := expatXmlDecl .init ver enc standalone } _ _
        = _
      rw [List.nil_append]
      exact told_raised haccepted _

end XmppStanzaParser

/-! ## 9. Chunks -/

/-- A way expat may deliver a document whose callbacks are `events`: any calls of
`Parse`, the last of which returns `status`, with the character data cut anywhere. -/
structure Delivery (events : List ExpatEvent) (status : XmlErrorCode) where
  calls : List (List ExpatEvent)
  last : List ExpatEvent
  same : XmppStanzaParser.joinText (calls.flatten ++ last) = XmppStanzaParser.joinText events

namespace Delivery

variable {events : List ExpatEvent} {status : XmlErrorCode}

/-- The callbacks of a new stanza parser for the delivery. -/
def callbacks (d : Delivery events status) : List StanzaEvent :=
  (XmppStanzaParser.init.parseAll (XmppStanzaParser.tape d.calls d.last status)).2

/-- The callbacks depend on the document alone. -/
theorem callbacks_eq (d : Delivery events status) :
    d.callbacks = XmppStanzaParser.fresh.told events status := by
  have hstart : XmppStanzaParser.init.parseAll (XmppStanzaParser.tape d.calls d.last status)
      = XmppStanzaParser.fresh.parseAll (XmppStanzaParser.tape d.calls d.last status) := by
    unfold XmppStanzaParser.tape
    rcases d.calls with _ | ⟨call, calls⟩ <;> rfl
  unfold callbacks
  rw [hstart, XmppStanzaParser.parseAll_eq rfl rfl]
  unfold XmppStanzaParser.told
  rw [← XmppStanzaParser.run_joinText, d.same, XmppStanzaParser.run_joinText]

end Delivery

/-- A stanza parser whose callbacks do not depend on how a document is cut. -/
structure ChunkIndependent : Prop where
  /-- two deliveries of one document, complete or broken off with an error of expat -/
  same : ∀ {events : List ExpatEvent} {status : XmlErrorCode} (d d' : Delivery events status),
    d.callbacks = d'.callbacks
  /-- a start, a stanza for each child in order, an end -/
  document : ∀ (doc : StreamDocument) (d : Delivery doc.events .none), d.callbacks = doc.callbacks
  /-- no text node is empty or beside another -/
  normal : ∀ {events : List ExpatEvent} {status : XmlErrorCode} (d : Delivery events status),
    ∀ ev ∈ d.callbacks, ∀ el, ev.tree = some el → el.Normal
  /-- between stanzas the builder is as at the start -/
  between : ∀ {events : List ExpatEvent} {status : XmlErrorCode} (d : Delivery events status)
    (pre : List ExpatEvent), pre <+: d.calls.flatten ++ d.last →
    XmppStanzaParser.level 0 pre = some 1 →
    (XmppStanzaParser.fresh.run pre).1.context.raised = .none →
    (XmppStanzaParser.fresh.run pre).1.builder = .init
  /-- whatever the calls, an error is the last that is told -/
  silent : ∀ calls : List (List ExpatEvent × XmlErrorCode),
    (XmppStanzaParser.init.parseAll calls).2.Pairwise fun ev _ => ev ≠ .xmlError

/-- Stanza parsing is chunk independent. -/
theorem stanza_parsing : ChunkIndependent where
  same d d' := by rw [d.callbacks_eq, d'.callbacks_eq]
  document doc d := by rw [d.callbacks_eq, XmppStanzaParser.told_document]
  normal {events status} d := by
    rw [d.callbacks_eq]
    intro ev hev el htree
    have hnew : XmppStanzaParser.BuildsNormal XmppStanzaParser.fresh.builder :=
      ⟨fun e he => absurd he List.not_mem_nil,
        fun e he => absurd he (by simp [XmppStanzaParser.fresh,
        XmppStanzaParser.init, XmlBuilder.init])⟩
    rcases List.mem_append.1 hev with hrun | herror
    · exact XmppStanzaParser.run_normal hnew events ev hrun el htree
    · by_cases hraised : (XmppStanzaParser.fresh.run events).1.context.raised ≠ .none ∨
        status ≠ .none
      · rw [if_pos hraised, List.mem_singleton] at herror
        rw [herror] at htree
        exact absurd htree (by simp [StanzaEvent.tree])
      · rw [if_neg hraised] at herror
        exact absurd herror List.not_mem_nil
  between d pre _ hlevel hquiet := by
    obtain ⟨-, hopen, hroot⟩ :=
      XmppStanzaParser.run_inStep (p := XmppStanzaParser.fresh) ⟨rfl, rfl, rfl⟩ hlevel hquiet
    generalize (XmppStanzaParser.fresh.run pre).1.builder = b at hopen hroot
    obtain ⟨open_, root⟩ := b
    have hnil : open_ = [] := List.length_eq_zero_iff.1 hopen
    rw [hnil, show root = none from hroot]
    rfl
  silent calls := by
    rcases calls with _ | ⟨call, calls⟩
    · exact List.Pairwise.nil
    · exact XmppStanzaParser.parseAll_pairwise XmppStanzaParser.fresh rfl (call :: calls)

end Gxmpp
