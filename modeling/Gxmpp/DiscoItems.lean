/-
`talk/xmpp/discoitemsquerytask.cc`: the items of a service.

`HandleResult` goes over the children of the query in the way `PubsubTask` goes over the
children of an event. A service may put white space between its elements, and the parser keeps
it (`spaced`); then each of the three walks follows a `NULL`. `ParseItem` is asked for each
element and returns false for those that carry a JID: what it reports are the others.
-/
import Gxmpp.PubsubTask
import Gxmpp.XmlEdit

set_option autoImplicit false

namespace Gxmpp

def NS_DISCO_ITEMS : Str := str "http://jabber.org/protocol/disco#items"
def QN_DISCO_ITEMS_QUERY : QName := ⟨NS_DISCO_ITEMS, str "query"⟩
def QN_DISCO_ITEM : QName := ⟨NS_DISCO_ITEMS, str "item"⟩

/-! ## 1. The task -/

/-- `DiscoItem`. -/
structure DiscoItem where
  jid : Str
  node : Str
  name : Str
deriving DecidableEq

/-- What the task signals. -/
inductive DiscoSignal where
  | result (items : List DiscoItem)
  | error
deriving DecidableEq

namespace DiscoItemsQueryTask

/-- `DiscoItemsQueryTask::ParseItem`. -/
def parseItem (element : XmlElement) : Option DiscoItem :=
  if element.hasAttr QN_JID then none
  else some ⟨element.attr QN_JID, element.attr QN_NODE, element.attr QN_NAME⟩

/-- `DiscoItemsQueryTask::HandleResult`: its signal, or `none` if it follows a `NULL`. -/
def handleResult (stanza : XmlElement) : Option DiscoSignal :=
  match stanza.firstNamed QN_DISCO_ITEMS_QUERY with
  | some query => (walkElements parseItem query.children).map .result
  | none => some .error

/-- The signal made of the element children of the query alone. -/
def elementsSignal (stanza : XmlElement) : DiscoSignal :=
  match stanza.firstNamed QN_DISCO_ITEMS_QUERY with
  | some query => .result (query.elements.filterMap parseItem)
  | none => .error

theorem handleResult_of_query {stanza query : XmlElement}
    (h : stanza.firstNamed QN_DISCO_ITEMS_QUERY = some query) :
    handleResult stanza = (walkElements parseItem query.children).map .result := by
  unfold handleResult
  rw [h]

theorem elementsSignal_of_query {stanza query : XmlElement}
    (h : stanza.firstNamed QN_DISCO_ITEMS_QUERY = some query) :
    elementsSignal stanza = .result (query.elements.filterMap parseItem) := by
  unfold elementsSignal
  rw [h]

end DiscoItemsQueryTask

/-! ## 2. Children that are no elements -/

/-- No child is a text. -/
def XmlElement.OnlyElements (e : XmlElement) : Prop := ∀ child ∈ e.children, child.isText = false

instance (e : XmlElement) : Decidable e.OnlyElements :=
  inferInstanceAs (Decidable (∀ child ∈ e.children, child.isText = false))

theorem DiscoItemsQueryTask.handleResult_isSome_iff (stanza : XmlElement) :
    (handleResult stanza).isSome = true ↔
      ∀ query, stanza.firstNamed QN_DISCO_ITEMS_QUERY = some query → query.OnlyElements := by
  cases hquery : stanza.firstNamed QN_DISCO_ITEMS_QUERY with
  | none => simp [handleResult, hquery]
  | some query =>
    rw [handleResult_of_query hquery, Option.isSome_map, walkElements_isSome_iff]
    constructor
    · rintro h q hq
      rw [← Option.some.inj hq]
      exact h
    · intro h
      exact h query rfl

theorem DiscoItemsQueryTask.handleResult_eq_iff (stanza : XmlElement) :
    handleResult stanza = some (elementsSignal stanza) ↔
      ∀ query, stanza.firstNamed QN_DISCO_ITEMS_QUERY = some query → query.OnlyElements := by
  rw [← handleResult_isSome_iff]
  constructor
  · intro h
    rw [h]
    rfl
  · intro h
    cases hquery : stanza.firstNamed QN_DISCO_ITEMS_QUERY with
    | none => simp [handleResult, elementsSignal, hquery]
    | some query =>
      rw [handleResult_of_query hquery, Option.isSome_map, walkElements_isSome_iff] at h
      rw [handleResult_of_query hquery, elementsSignal_of_query hquery,
        (walkElements_eq_some_iff parseItem query.children).2 h]
      rfl

/-- A walk for the children of a name. -/
theorem walk_itemsNamed_iff (name : QName) (e : XmlElement) :
    walkElements (itemsNamed name) e.children = some (e.named name) ↔ e.OnlyElements := by
  have h := walkElements_eq_some_iff (itemsNamed name) e.children
  unfold itemsNamed at h
  rw [List.filterMap_eq_filter] at h
  exact h

/-- Each of the three walks, over an element `e` or over the query of a stanza, follows no `NULL`,
and comes to see exactly the elements, if and only if no child is a text. -/
theorem walks_follow_no_null_iff (e stanza : XmlElement) :
    (((PubsubTask.handlePubsubEventMessage e).isSome = true ↔ e.OnlyElements) ∧
      (PubsubTask.handlePubsubEventMessage e = some (e.named QN_PUBSUB_EVENT_ITEMS) ↔
        e.OnlyElements)) ∧
    (((PubsubTask.handlePubsubIqGetResponse e).isSome = true ↔ e.OnlyElements) ∧
      (PubsubTask.handlePubsubIqGetResponse e = some (e.named QN_PUBSUB_ITEMS) ↔
        e.OnlyElements)) ∧
    ((DiscoItemsQueryTask.handleResult stanza).isSome = true ↔
      ∀ query, stanza.firstNamed QN_DISCO_ITEMS_QUERY = some query → query.OnlyElements) ∧
    (DiscoItemsQueryTask.handleResult stanza
        = some (DiscoItemsQueryTask.elementsSignal stanza) ↔
      ∀ query, stanza.firstNamed QN_DISCO_ITEMS_QUERY = some query → query.OnlyElements) := by
  refine ⟨⟨?_, ?_⟩, ⟨?_, ?_⟩, ?_, ?_⟩
  · exact walkElements_isSome_iff _ e.children
  · exact walk_itemsNamed_iff QN_PUBSUB_EVENT_ITEMS e
  · exact walkElements_isSome_iff _ e.children
  · exact walk_itemsNamed_iff QN_PUBSUB_ITEMS e
  · exact DiscoItemsQueryTask.handleResult_isSome_iff stanza
  · exact DiscoItemsQueryTask.handleResult_eq_iff stanza

/-- What holds of every stanza that the parser hands over. -/
def HoldsOfParsed (holds : XmlElement → Bool) : Prop :=
  ∀ (events : List ExpatEvent), ∀ ev ∈ (XmppStanzaParser.fresh.run events).2,
    ∀ stanza, ev.tree = some stanza → holds stanza = true

theorem not_holdsOfParsed {holds : XmlElement → Bool} (events : List ExpatEvent)
    (h : ((XmppStanzaParser.fresh.run events).2.any
      fun ev => ev.tree.any fun stanza => !holds stanza) = true) : ¬HoldsOfParsed holds := by
  intro hall
  obtain ⟨ev, hev, htree⟩ := List.any_eq_true.1 h
  obtain ⟨stanza, hstanza, hnot⟩ := (Option.any_eq_true _ _).1 htree
  rw [hall events ev hev stanza hstanza] at hnot
  cases hnot

/-- A message with a child of that name, indented. -/
def spaced (tag ns : Str) : List ExpatEvent :=
  [.startElement (str "stream") [(str "xmlns", str "s")],
    .startElement (str "message") [],
    .startElement tag [(str "xmlns", ns)], .characterData (str "\n  "),
    .startElement (str "item") [], .endElement (str "item"), .endElement tag,
    .endElement (str "message")]

/-- The parser hands over stanzas that make each of the walks follow a `NULL`. -/
theorem walks_follow_null :
    ¬(HoldsOfParsed fun stanza => (stanza.firstNamed QN_PUBSUB_EVENT).all
      fun e => (PubsubTask.handlePubsubEventMessage e).isSome) ∧
    ¬(HoldsOfParsed fun stanza => (stanza.firstNamed QN_PUBSUB).all
      fun e => (PubsubTask.handlePubsubIqGetResponse e).isSome) ∧
    ¬(HoldsOfParsed fun stanza => (DiscoItemsQueryTask.handleResult stanza).isSome) := by
  refine ⟨?_, ?_, ?_⟩
  · exact not_holdsOfParsed (spaced (str "event") NS_PUBSUB_EVENT) (by decide +kernel)
  · exact not_holdsOfParsed (spaced (str "pubsub") NS_PUBSUB) (by decide +kernel)
  · exact not_holdsOfParsed (spaced (str "query") NS_DISCO_ITEMS) (by decide +kernel)

/-! ## 3. Items with a JID -/

namespace DiscoItemsQueryTask

/-- What a child of the query says. -/
def itemOf (element : XmlElement) : DiscoItem :=
  ⟨element.attr QN_JID, element.attr QN_NODE, element.attr QN_NAME⟩

/-- What is left of it without the JID. -/
def withoutJid (element : XmlElement) : DiscoItem :=
  ⟨STR_EMPTY, element.attr QN_NODE, element.attr QN_NAME⟩

/-- The children with a JID, and the others. -/
def identified (query : XmlElement) : List XmlElement :=
  query.elements.filter fun e => e.hasAttr QN_JID

def anonymous (query : XmlElement) : List XmlElement :=
  query.elements.filter fun e => !e.hasAttr QN_JID

/-- What is reported are the children without a JID. -/
theorem filterMap_parseItem (elements : List XmlElement) :
    elements.filterMap parseItem
      = (elements.filter fun e => !e.hasAttr QN_JID).map withoutJid := by
  induction elements with
  | nil => rfl
  | cons e elements ih =>
    cases hjid : e.hasAttr QN_JID with
    | true =>
      rw [List.filterMap_cons_none (by simp [parseItem, hjid]),
        List.filter_cons_of_neg (by simp [hjid])]
      exact ih
    | false =>
      have hitem : parseItem e = some (withoutJid e) := by
        unfold parseItem withoutJid
        rw [hjid, XmlElement.attr_of_not_hasAttr hjid]
        rfl
      rw [List.filterMap_cons_some hitem, List.filter_cons_of_pos (by simp [hjid]),
        List.map_cons, ih]

/-- An item that is an item without its JID has an empty one. -/
theorem map_itemOf_eq_iff (items others : List XmlElement) :
    others.map withoutJid = items.map itemOf ↔
      (∀ e ∈ items, e.attr QN_JID = STR_EMPTY) ∧ others.map withoutJid = items.map withoutJid := by
  have hsame : (∀ e ∈ items, e.attr QN_JID = STR_EMPTY) →
      items.map itemOf = items.map withoutJid := by
    intro hempty
    refine List.map_congr_left ?_
    intro e he
    unfold itemOf withoutJid
    rw [hempty e he]
  constructor
  · intro h
    have hempty : ∀ e ∈ items, e.attr QN_JID = STR_EMPTY := by
      intro e he
      have hmem : itemOf e ∈ others.map withoutJid := by
        rw [h]
        exact List.mem_map_of_mem he
      obtain ⟨o, -, ho⟩ := List.mem_map.1 hmem
      exact (congrArg DiscoItem.jid ho).symm
    exact ⟨hempty, h.trans (hsame hempty)⟩
  · rintro ⟨hempty, h⟩
    exact h.trans (hsame hempty).symm

/-- For a query with element children only, the items of the children with a JID are what is
reported if and only if none of these JIDs says anything and the children without a JID have
the same nodes and names in the same order. -/
theorem disco_items_reported_iff {stanza query : XmlElement}
    (hquery : stanza.firstNamed QN_DISCO_ITEMS_QUERY = some query)
    (hchildren : query.OnlyElements) :
    handleResult stanza = some (.result ((identified query).map itemOf)) ↔
      (∀ e ∈ identified query, e.attr QN_JID = STR_EMPTY) ∧
      (anonymous query).map withoutJid = (identified query).map withoutJid := by
  rw [← map_itemOf_eq_iff, handleResult_of_query hquery,
    (walkElements_eq_some_iff parseItem query.children).2 hchildren, Option.map_some,
    filterMap_parseItem]
  constructor
  · intro h
    exact DiscoSignal.result.inj (Option.some.inj h)
  · intro h
    exact congrArg (fun items => some (DiscoSignal.result items)) h

/-- A result with the items of a service. -/
def discoResult (items : List XmlElement) : XmlElement :=
  (XmlElement.new QN_IQ false).addElement
    (items.foldl XmlElement.addElement (XmlElement.new QN_DISCO_ITEMS_QUERY true))

/-- An item with a JID and a name. -/
def roomItem : XmlElement :=
  ((XmlElement.new QN_DISCO_ITEM false).addAttr QN_JID (str "room@x")).addAttr QN_NAME (str "Room")

/-- The query with that item. -/
def roomQuery : XmlElement := (XmlElement.new QN_DISCO_ITEMS_QUERY true).addElement roomItem

theorem roomQuery_first :
    (discoResult [roomItem]).firstNamed QN_DISCO_ITEMS_QUERY = some roomQuery := rfl

theorem disco_items_reported_room :
    handleResult (discoResult [roomItem])
        = some (.result ((identified roomQuery).map itemOf)) ↔
      (∀ e ∈ identified roomQuery, e.attr QN_JID = STR_EMPTY) ∧
      (anonymous roomQuery).map withoutJid = (identified roomQuery).map withoutJid :=
  disco_items_reported_iff roomQuery_first (by decide)

/-- The one item of a service is not reported. -/
theorem disco_item_not_reported :
    ¬∀ stanza query : XmlElement, stanza.firstNamed QN_DISCO_ITEMS_QUERY = some query →
      query.OnlyElements →
        handleResult stanza = some (.result ((identified query).map itemOf)) := by
  intro h
  have hroom := h (discoResult [roomItem]) roomQuery roomQuery_first (by decide)
  revert hroom
  decide +kernel

end DiscoItemsQueryTask

end Gxmpp
