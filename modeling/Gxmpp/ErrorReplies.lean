/-
`talk/xmpp/xmppengineimpl_iq.cc`: the shape of the stanza that `SendStanzaError` sends.

The attributes of the original are gone over once: `from` becomes `to`, and what was `to` or
`type` goes. Each name comes from one name only, so names that stood once stand once in the
reply. The error is put in by functions that go down the last child, and right after
`AddElement` the last child is the error, whatever stood there before.

Text is copied by `AddText`, which joins a text to the one before it and drops a text that is
empty. A parser makes neither; an application can, when it takes out what stood between two
texts. So the children are those of the original with their texts joined (`error_reply_shape`),
which are those of the original if there is nothing to join (`joinTexts_eq`).
-/
import Gxmpp.IqAnswers
import Gxmpp.PresenceSetters
import Gxmpp.StanzaParsing

set_option autoImplicit false

namespace Gxmpp

open World

/-! ## 1. Texts -/

/-- A text before some children: it is joined to one that is there, and dropped if it is
empty. -/
def prependText (t : Str) (children : List XmlChild) : List XmlChild :=
  match children with
  | .text u :: rest => .text (t ++ u) :: rest
  | _ => if t.isEmpty then children else .text t :: children

/-- Children with every text joined to the texts next to it, and no empty text. -/
def joinTexts : List XmlChild → List XmlChild
  | [] => []
  | .element e :: children => .element e :: joinTexts children
  | .text t :: children => prependText t (joinTexts children)

/-- No text is empty and no two texts are neighbours. -/
def Joined (children : List XmlChild) : Prop :=
  (∀ t, .text t ∈ children → t ≠ []) ∧
    children.IsChain fun a b => ¬ (a.isText = true ∧ b.isText = true)

/-- Where there is nothing to join, nothing changes. -/
theorem joinTexts_eq {children : List XmlChild} (h : Joined children) :
    joinTexts children = children := by
  obtain ⟨hfilled, hapart⟩ := h
  induction children with
  | nil => rfl
  | cons c children ih =>
    have hrest := ih (fun t ht => hfilled t (List.mem_cons_of_mem _ ht)) hapart.tail
    cases c with
    | element e => rw [joinTexts, hrest]
    | text t =>
      have ht : ¬ t.isEmpty = true := fun hnil =>
        hfilled t List.mem_cons_self (List.isEmpty_iff.1 hnil)
      rw [joinTexts, hrest]
      unfold prependText
      cases children with
      | nil => exact if_neg ht
      | cons d rest =>
        cases d with
        | element e => exact if_neg ht
        | text u => exact absurd ⟨rfl, rfl⟩ ((List.isChain_cons.1 hapart).1 (.text u) rfl)

/-- The children that `AddText` leaves. -/
def appendText (children : List XmlChild) (t : Str) : List XmlChild :=
  if t.isEmpty then children
  else
    match children.getLast? with
    | some (.text u) => children.dropLast ++ [.text (u ++ t)]
    | _ => children ++ [.text t]

theorem addText_children (e : XmlElement) (t : Str) :
    (e.addText t).children = appendText e.children t := by
  unfold XmlElement.addText appendText
  cases t.isEmpty with
  | true => rfl
  | false =>
    rw [if_neg Bool.false_ne_true, if_neg Bool.false_ne_true]
    rcases e.children.getLast? with _ | _ | _ <;> rfl

theorem appendText_nil (children : List XmlChild) : appendText children [] = children := rfl

/-- What is not at the end is left alone. -/
theorem appendText_cons (c : XmlChild) {children : List XmlChild} (h : children ≠ []) (t : Str) :
    appendText (c :: children) t = c :: appendText children t := by
  obtain ⟨d, rest, rfl⟩ := List.exists_cons_of_ne_nil h
  unfold appendText
  cases t.isEmpty with
  | true => rfl
  | false =>
    rw [if_neg Bool.false_ne_true, if_neg Bool.false_ne_true, List.getLast?_cons_cons,
      List.dropLast_cons_cons]
    rcases (d :: rest).getLast? with _ | _ | _ <;> rfl

theorem appendText_element (e : XmlElement) (children : List XmlChild) (t : Str) :
    appendText (.element e :: children) t = .element e :: appendText children t := by
  by_cases h : children = []
  · subst h
    unfold appendText
    split <;> rfl
  · exact appendText_cons _ h t

/-- A text that is empty is no text. -/
theorem prependText_nil (children : List XmlChild) : prependText [] children = children := by
  unfold prependText
  split <;> rfl

/-- Texts at both ends may be joined in either order. -/
theorem prependText_appendText (u t : Str) (children : List XmlChild) :
    prependText u (appendText children t) = appendText (prependText u children) t := by
  by_cases ht : t = []
  · rw [ht, appendText_nil, appendText_nil]
  by_cases hu : u = []
  · rw [hu, prependText_nil, prependText_nil]
  have ht' : t.isEmpty = false := by simpa using ht
  have hu' : u.isEmpty = false := by simpa using hu
  cases children with
  | nil => simp [appendText, prependText, ht', hu']
  | cons c rest =>
    cases c with
    | element e =>
      rw [appendText_element]
      have hsplit : ∀ l, prependText u (.element e :: l) = .text u :: .element e :: l :=
        fun l => if_neg (by rw [hu']; exact Bool.false_ne_true)
      rw [hsplit, hsplit, appendText_cons _ (List.cons_ne_nil _ _), appendText_element]
    | text v =>
      by_cases hrest : rest = []
      · rw [hrest]
        simp [appendText, prependText, ht']
      · rw [appendText_cons _ hrest]
        exact (appendText_cons _ hrest t).symm

theorem joinTexts_concat_element (children : List XmlChild) (e : XmlElement) :
    joinTexts (children ++ [.element e]) = joinTexts children ++ [.element e] := by
  induction children with
  | nil => rfl
  | cons c children ih =>
    cases c with
    | element d => rw [List.cons_append, joinTexts, joinTexts, ih, List.cons_append]
    | text t =>
      rw [List.cons_append, joinTexts, joinTexts, ih]
      rcases joinTexts children with _ | ⟨_ | _, _⟩
      · unfold prependText
        dsimp only [List.nil_append]
        split <;> rfl
      · rfl
      · unfold prependText
        dsimp only [List.cons_append]
        split <;> rfl

theorem joinTexts_concat_text (children : List XmlChild) (t : Str) :
    joinTexts (children ++ [.text t]) = appendText (joinTexts children) t := by
  induction children with
  | nil => rfl
  | cons c children ih =>
    cases c with
    | element e => rw [List.cons_append, joinTexts, joinTexts, ih, appendText_element]
    | text u => rw [List.cons_append, joinTexts, joinTexts, ih, prependText_appendText]

/-- The children that are copied. -/
theorem replyChildren_children {e : XmlElement} (he : e.children = []) (children : List XmlChild) :
    (replyChildren e children).children = joinTexts children := by
  unfold replyChildren
  induction children using List.reverseRecOn with
  | nil => exact he
  | append_singleton children c ih =>
    rw [List.foldl_concat]
    cases c with
    | text t => rw [joinTexts_concat_text, ← ih, ← addText_children]
    | element d => rw [joinTexts_concat_element, ← ih]; rfl

/-! ## 2. The error -/

/-- The condition of an error. -/
def stanzaCondition : XmppStanzaError → QName
  | .badRequest => ⟨NS_STANZA, str "bad-request"⟩
  | .conflict => ⟨NS_STANZA, str "conflict"⟩
  | .featureNotImplemented => ⟨NS_STANZA, str "feature-not-implemented"⟩
  | .forbidden => ⟨NS_STANZA, str "forbidden"⟩
  | .gone => ⟨NS_STANZA, str "gone"⟩
  | .internalServerError => ⟨NS_STANZA, str "internal-server-error"⟩
  | .itemNotFound => ⟨NS_STANZA, str "item-not-found"⟩
  | .jidMalformed => ⟨NS_STANZA, str "jid-malformed"⟩
  | .notAcceptable => ⟨NS_STANZA, str "not-acceptable"⟩
  | .notAllowed => ⟨NS_STANZA, str "not-allowed"⟩
  | .paymentRequired => ⟨NS_STANZA, str "payment-required"⟩
  | .recipientUnavailable => ⟨NS_STANZA, str "recipient-unavailable"⟩
  | .redirect => ⟨NS_STANZA, str "redirect"⟩
  | .registrationRequired => ⟨NS_STANZA, str "registration-required"⟩
  | .serverNotFound => ⟨NS_STANZA, str "remote-server-not-found"⟩
  | .serverTimeout => ⟨NS_STANZA, str "remote-server-timeout"⟩
  | .resourceConstraint => ⟨NS_STANZA, str "resource-constraint"⟩
  | .serviceUnavailable => ⟨NS_STANZA, str "service-unavailable"⟩
  | .subscriptionRequired => ⟨NS_STANZA, str "subscription-required"⟩
  | .undefinedCondition => ⟨NS_STANZA, str "undefined-condition"⟩
  | .unexpectedRequest => ⟨NS_STANZA, str "unexpected-request"⟩

/-- An error element with its condition, and a code and a type. -/
structure IsErrorElement (e : XmlElement) (condition : QName) : Prop where
  name : e.name = QN_ERROR
  attrs : e.attrs.map XmlAttr.name = [QN_CODE, QN_TYPE]
  children : e.children = [.element (XmlElement.new condition true)]

/-- `AecImpl` adds an error element at the end. -/
theorem aecImpl_eq (e : XmlElement) (name type code : Str) : ∃ error,
    aecImpl e name type code = e.addElement error ∧ IsErrorElement error ⟨NS_STANZA, name⟩ := by
  unfold aecImpl
  dsimp only
  rw [XmlElement.atDepth_addElement, XmlElement.atDepth_addElement, XmlElement.atDepth_addElement]
  exact ⟨_, rfl, rfl, rfl, rfl⟩

theorem addErrorCode_eq (e : XmlElement) (code : XmppStanzaError) : ∃ error,
    addErrorCode e code = e.addElement error ∧ IsErrorElement error (stanzaCondition code) := by
  cases code <;> exact aecImpl_eq e _ _ _

/-! ## 3. The attributes -/

/-- The value of an attribute, if there is one. -/
def XmlElement.lookupAttr (e : XmlElement) (name : QName) : Option Str :=
  (e.attrs.find? fun a => a.name = name).map XmlAttr.value

/-- The name that an attribute gets in the reply. -/
def replyName (name : QName) : Option QName :=
  if name = QN_TO then none
  else if name = QN_FROM then some QN_TO
  else if name = QN_TYPE then none
  else some name

theorem map_name_replyAttr (a : XmlAttr) : (replyAttr a).map XmlAttr.name = replyName a.name := by
  unfold replyAttr replyName
  split
  · rfl
  · split
    · rfl
    · split <;> rfl

theorem names_replyAttr (attrs : List XmlAttr) :
    (attrs.filterMap replyAttr).map XmlAttr.name
      = (attrs.map XmlAttr.name).filterMap replyName := by
  rw [List.map_filterMap, List.filterMap_map]
  congr 1
  funext a
  exact map_name_replyAttr a

/-- A name comes from one name only. -/
theorem replyName_inj {m n k : QName} (hm : k ∈ replyName m) (hn : k ∈ replyName n) : m = n := by
  have horigin : ∀ {m k : QName}, k ∈ replyName m →
      k = QN_TO ∧ m = QN_FROM ∨ k ≠ QN_TO ∧ m = k := by
    intro m k hk
    unfold replyName at hk
    split at hk
    · cases hk
    · next hto =>
        split at hk
        · next hfrom => exact Or.inl ⟨(Option.some.inj hk).symm, hfrom⟩
        · split at hk
          · cases hk
          · obtain rfl := Option.some.inj hk
            exact Or.inr ⟨hto, rfl⟩
  rcases horigin hm with ⟨hk, rfl⟩ | ⟨hk, rfl⟩
  · rcases horigin hn with ⟨-, rfl⟩ | ⟨hne, -⟩
    · rfl
    · exact absurd hk hne
  · rcases horigin hn with ⟨hto, -⟩ | ⟨-, rfl⟩
    · exact absurd hto hk
    · rfl

/-- Neither `from` nor `type` is copied. -/
theorem replyName_ne {m k : QName} (h : k ∈ replyName m) : k ≠ QN_FROM ∧ k ≠ QN_TYPE := by
  unfold replyName at h
  split at h
  · cases h
  · split at h
    · obtain rfl := Option.some.inj h
      decide
    · next hfrom =>
        split at h
        · cases h
        · next htype =>
            obtain rfl := Option.some.inj h
            exact ⟨hfrom, htype⟩

theorem find_replyAttr_to (attrs : List XmlAttr) :
    (attrs.filterMap replyAttr).find? (fun a => a.name = QN_TO)
      = (attrs.find? fun a => a.name = QN_FROM).map fun a => ⟨QN_TO, a.value⟩ := by
  induction attrs with
  | nil => rfl
  | cons a attrs ih =>
    by_cases hfrom : a.name = QN_FROM
    · have hreply : replyAttr a = some ⟨QN_TO, a.value⟩ := by
        unfold replyAttr
        rw [if_neg (by rw [hfrom]; decide), if_pos hfrom]
      rw [List.filterMap_cons_some hreply, List.find?_cons_of_pos (by rfl),
        List.find?_cons_of_pos (by simpa using hfrom)]
      rfl
    · rw [List.find?_cons_of_neg (by simpa using hfrom)]
      cases hreply : replyAttr a with
      | none => rw [List.filterMap_cons_none hreply, ih]
      | some b =>
        have hb : b.name ≠ QN_TO := by
          unfold replyAttr at hreply
          split at hreply
          · cases hreply
          · next hto =>
              split at hreply
              · cases hreply
              · cases hreply
                exact hto
        rw [List.filterMap_cons_some hreply, List.find?_cons_of_neg (by simpa using hb), ih]

/-! ## 4. The reply -/

/-- The parts of an error reply, whose children start with these. -/
structure ErrorShape (original : XmlElement) (code : XmppStanzaError) (text : Str)
    (children : List XmlChild) (reply : XmlElement) : Prop where
  name : reply.name = original.name
  type : reply.lookupAttr QN_TYPE = some (str "error")
  /-- `to` is the `from` of the original -/
  recipient : reply.lookupAttr QN_TO = original.lookupAttr QN_FROM
  sender : reply.lookupAttr QN_FROM = none
  others : ∀ name, name ≠ QN_TYPE → name ≠ QN_TO → name ≠ QN_FROM →
    reply.lookupAttr name = original.lookupAttr name
  distinct : reply.AttrsDistinct
  children : ∃ error, IsErrorElement error (stanzaCondition code) ∧
    reply.children = children ++ .element error ::
      if text ≠ [] then [.element ((XmlElement.new QN_STANZA_TEXT true).addText text)] else []

/-- The attributes that are copied are put in, no children. -/
theorem replyAttrs_children (attrs : List XmlAttr) (e : XmlElement) :
    (replyAttrs e attrs).children = e.children := by
  induction attrs generalizing e with
  | nil => rfl
  | cons a attrs ih =>
    unfold replyAttrs at ih ⊢
    rw [List.foldl_cons, ih]
    split
    · rfl
    · split
      · rfl
      · split <;> rfl

/-- What an error reply consists of. -/
theorem errorReply_members (original : XmlElement) (code : XmppStanzaError) (text : Str) :
    (errorReply original code text).name = original.name ∧
    (errorReply original code text).attrs
      = ⟨QN_TYPE, str "error"⟩ :: original.attrs.filterMap replyAttr ∧
    ∃ error, IsErrorElement error (stanzaCondition code) ∧
      (errorReply original code text).children = joinTexts original.children ++ .element error ::
        if text ≠ [] then [.element ((XmlElement.new QN_STANZA_TEXT true).addText text)] else [] := by
  let base := (XmlElement.new original.name false).addAttr QN_TYPE (str "error")
  let copied := replyChildren (replyAttrs base original.attrs) original.children
  have hname : copied.name = original.name :=
    (replyChildren_members original.children _).1.trans (replyAttrs_members original.attrs base).1
  have hattrs : copied.attrs = ⟨QN_TYPE, str "error"⟩ :: original.attrs.filterMap replyAttr :=
    (replyChildren_members original.children _).2.trans (replyAttrs_members original.attrs base).2
  have hchildren : copied.children = joinTexts original.children :=
    replyChildren_children (replyAttrs_children original.attrs base) original.children
  obtain ⟨error, hadd, herror⟩ := addErrorCode_eq copied code
  by_cases htext : text = []
  · have hreply : errorReply original code text = copied.addElement error := by
      rw [← hadd]
      exact if_neg (not_not_intro htext)
    rw [hreply, if_neg (not_not_intro htext)]
    refine ⟨hname, hattrs, error, herror, ?_⟩
    rw [← hchildren]
    rfl
  · have hreply : errorReply original code text = (copied.addElement error).addElement
        ((XmlElement.new QN_STANZA_TEXT true).addText text) := by
      rw [← hadd]
      exact if_pos htext
    rw [hreply, if_pos htext]
    refine ⟨hname, hattrs, error, herror, ?_⟩
    rw [← hchildren]
    exact List.append_assoc _ _ _

/-- The reply to a stanza whose attributes are distinct. -/
theorem errorReply_shape {original : XmlElement} (hdistinct : original.AttrsDistinct)
    (code : XmppStanzaError) (text : Str) :
    ErrorShape original code text (joinTexts original.children)
      (errorReply original code text) := by
  obtain ⟨hname, hattrs, hchildren⟩ := errorReply_members original code text
  have hcopied : ∀ name, name ∈ (original.attrs.filterMap replyAttr).map XmlAttr.name →
      name ≠ QN_FROM ∧ name ≠ QN_TYPE := by
    intro name hmem
    rw [names_replyAttr] at hmem
    obtain ⟨m, -, hm⟩ := List.mem_filterMap.1 hmem
    exact replyName_ne hm
  -- the attribute in front is the type
  have hbehind : ∀ name, name ≠ QN_TYPE → (errorReply original code text).lookupAttr name
      = ((original.attrs.filterMap replyAttr).find? fun a => a.name = name).map
          XmlAttr.value := by
    intro name htype
    unfold XmlElement.lookupAttr
    rw [hattrs, List.find?_cons_of_neg (by simpa using Ne.symm htype)]
  refine ⟨hname, ?_, ?_, ?_, ?_, ?_, hchildren⟩
  · unfold XmlElement.lookupAttr
    rw [hattrs]
    rfl
  · rw [hbehind _ (by decide), find_replyAttr_to]
    unfold XmlElement.lookupAttr
    rw [Option.map_map]
    rfl
  · rw [hbehind _ (by decide), Option.map_eq_none_iff, List.find?_eq_none]
    intro a ha hname
    exact (hcopied a.name (List.mem_map_of_mem ha)).1 (by simpa using hname)
  · intro name htype hto hfrom
    rw [hbehind _ htype, find_replyAttr hto hfrom htype]
    rfl
  · unfold XmlElement.AttrsDistinct
    rw [hattrs, List.map_cons, List.nodup_cons]
    refine ⟨fun hmem => (hcopied _ hmem).2 rfl, ?_⟩
    rw [names_replyAttr]
    exact List.Nodup.filterMap (fun m n k hm hn => replyName_inj hm hn) hdistinct

/-- An application takes out what stood between two texts. -/
def emptied : XmlElement :=
  ((((XmlElement.new QN_MESSAGE false).addText (str "a")).addElement
    (XmlElement.new QN_STATUS false)).addText (str "b")).clearNamedChildren QN_STATUS

/-- Its reply has one text. -/
theorem error_reply_joins :
    ¬ ∀ (original : XmlElement) (code : XmppStanzaError) (text : Str), original.AttrsDistinct →
      ErrorShape original code text original.children (errorReply original code text) := by
  intro h
  obtain ⟨error, -, hchildren⟩ :=
    (h emptied .badRequest [] (by unfold XmlElement.AttrsDistinct; decide)).children
  have hhead : some (XmlChild.text (str "ab")) = some (XmlChild.text (str "a")) :=
    congrArg List.head? hchildren
  exact absurd (XmlChild.text.inj (Option.some.inj hhead)) (by decide)

/-- `SendStanzaError` sends a stanza of the right shape, unless the engine is closed. The
children are those of the original with their texts joined, which changes nothing where there
is nothing to join. -/
theorem error_reply_shape (w : World) (hopen : w.eng.state ≠ .closed) (original : XmlElement)
    (hdistinct : original.AttrsDistinct) (code : XmppStanzaError) (text : Str) :
    ∃ reply sent, Sent w reply sent ∧
      w.sendStanzaError original code text = (sent, [.exitScope w.eng.state], .ok) ∧
      ErrorShape original code text (joinTexts original.children) reply ∧
      (Joined original.children → joinTexts original.children = original.children) := by
  rcases sendStanza_cases w (errorReply original code text) with
    ⟨hclosed, -⟩ | ⟨-, sent, hsent, heq⟩
  · exact absurd hclosed hopen
  · refine ⟨errorReply original code text, sent, hsent, ?_, errorReply_shape hdistinct code text,
      joinTexts_eq⟩
    unfold sendStanzaError
    rw [if_neg hopen, heq]

/-- The reply to a message with a text. -/
theorem error_reply_shape_message : ∃ reply sent, Sent World.init reply sent ∧
    World.init.sendStanzaError ((XmlElement.new QN_MESSAGE false).addAttr QN_FROM (str "bob"))
      .forbidden (str "no") = (sent, [.exitScope World.init.eng.state], .ok) ∧
    ErrorShape ((XmlElement.new QN_MESSAGE false).addAttr QN_FROM (str "bob")) .forbidden
      (str "no") [] reply ∧ (Joined [] → joinTexts [] = []) :=
  error_reply_shape World.init (by decide) _ (by unfold XmlElement.AttrsDistinct; decide) _ _

end Gxmpp
