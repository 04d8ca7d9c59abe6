/-
`talk/xmpp/pubsub_task.cc`: a task that listens to a pub sub node.

`HandleStanza` queues a child of the stanza it takes, and `ProcessResponse` looks at what was
queued: it calls `OnPubsubError` if that is of type error, and walks over it otherwise. The
walk has two levels. The outer one goes over the children and takes each of them for an
element; the inner one calls the handler of the node for each item it knows, and stands still
at one it does not know.

A handler is a parameter; what is modelled is which calls are made. A `NULL` that is followed
is `none`.
-/
import Gxmpp.IqMatch
import Gxmpp.PublishResults
import Gxmpp.StanzaParsing
import Gxmpp.Walking

set_option autoImplicit false

namespace Gxmpp

def QN_PUBSUB_ITEMS : QName := ⟨NS_PUBSUB, str "items"⟩
def QN_PUBSUB_EVENT : QName := ⟨NS_PUBSUB_EVENT, str "event"⟩
def QN_PUBSUB_EVENT_ITEMS : QName := ⟨NS_PUBSUB_EVENT, str "items"⟩

/-! ## 1. A walk over the children -/

/-- A loop over the children that takes each of them for an element, with what it keeps of one.
`none` if it follows a `NULL`. What is done with an element is taken to return. -/
def walkElements {β : Type} (visit : XmlElement → Option β) : List XmlChild → Option (List β)
  | [] => some []
  | child :: rest =>
    -- `AsElement` of a text is NULL, and it is used all the same
    child.asElement.bind fun child_element =>
      (walkElements visit rest).map fun later => (visit child_element).toList ++ later

/-- The children for which `HandlePubsubItems` is called. -/
def itemsNamed (name : QName) : XmlElement → Option XmlElement :=
  Option.guard fun child => child.name = name

section Walk

variable {β : Type} (visit : XmlElement → Option β)

/-- The loop over a child that is an element. -/
theorem walkElements_element (e : XmlElement) (rest : List XmlChild) :
    walkElements visit (.element e :: rest)
      = (walkElements visit rest).map fun later => (visit e).toList ++ later := rfl

/-- The loop comes to its end exactly if no child is a text. -/
theorem walkElements_isSome_iff (children : List XmlChild) :
    (walkElements visit children).isSome = true ↔ ∀ child ∈ children, child.isText = false := by
  induction children with
  | nil => simp [walkElements]
  | cons child rest ih =>
    cases child with
    | text t => simp [walkElements, XmlChild.asElement, XmlChild.isText]
    | element e =>
      rw [walkElements_element, Option.isSome_map, ih]
      simp [XmlChild.isText]

/-- What it has kept at its end is what `visit` keeps of the elements. -/
theorem walkElements_eq {children : List XmlChild} {kept : List β}
    (h : walkElements visit children = some kept) :
    kept = (children.filterMap XmlChild.asElement).filterMap visit := by
  induction children generalizing kept with
  | nil => exact (Option.some.inj h).symm
  | cons child rest ih =>
    cases child with
    | text t => cases h
    | element e =>
      rw [walkElements_element] at h
      obtain ⟨later, hlater, rfl⟩ := Option.map_eq_some_iff.1 h
      rw [ih hlater, List.filterMap_cons_some (by rfl), List.filterMap_cons]
      cases visit e with
      | none | some => rfl

theorem walkElements_eq_some_iff (children : List XmlChild) :
    walkElements visit children
        = some ((children.filterMap XmlChild.asElement).filterMap visit) ↔
      ∀ child ∈ children, child.isText = false := by
  rw [← walkElements_isSome_iff visit]
  constructor
  · intro h
    rw [h]
    rfl
  · intro h
    obtain ⟨kept, hkept⟩ := Option.isSome_iff_exists.1 h
    rw [hkept, ← walkElements_eq visit hkept]

end Walk

/-! ## 2. The task -/

/-- `PubsubTask`, with what it has of `XmppTask` but the queue. -/
structure PubsubTask (NodeHandler : Type) where
  pubsub_node_jid_ : Jid
  task_id : Str
  subscribed_nodes_ : AList fun _ : Str => NodeHandler

namespace PubsubTask

/-- `PubsubTask::HandlePubsubEventMessage`. -/
def handlePubsubEventMessage (pubsub_event : XmlElement) : Option (List XmlElement) :=
  walkElements (itemsNamed QN_PUBSUB_EVENT_ITEMS) pubsub_event.children

/-- `PubsubTask::HandlePubsubIqGetResponse`. -/
def handlePubsubIqGetResponse (pubsub_iq_response : XmlElement) : Option (List XmlElement) :=
  walkElements (itemsNamed QN_PUBSUB_ITEMS) pubsub_iq_response.children

/-- The names that `HandlePubsubItems` calls the handler for. -/
def isItem (item : XmlElement) : Bool :=
  item.name = QN_PUBSUB_EVENT_ITEM || item.name = QN_PUBSUB_EVENT_RETRACT
    || item.name = QN_PUBSUB_ITEM

section Handlers

variable {NodeHandler : Type}

/-- A round of the loop of `HandlePubsubItems`: the item and those behind it, and the calls of
the handler so far. -/
def itemsRound (handler : NodeHandler) :
    Walking.Round (List XmlElement × List (NodeHandler × XmlElement))
      (List (NodeHandler × XmlElement))
  | ([], calls) => .inr calls
  | (item :: rest, calls) =>
    -- `continue` does not go to the next element
    if item.name ≠ QN_PUBSUB_EVENT_ITEM ∧ item.name ≠ QN_PUBSUB_EVENT_RETRACT
        ∧ item.name ≠ QN_PUBSUB_ITEM then .inl (item :: rest, calls)
    else .inl (rest, calls ++ [(handler, item)])

/-- `PubsubTask::HandlePubsubItems` returns, and has made these calls of handlers. -/
def HandlesItems (t : PubsubTask NodeHandler) (items : XmlElement)
    (calls : List (NodeHandler × XmlElement)) : Prop :=
  match t.subscribed_nodes_.lookup (items.attr QN_NODE) with
  | some handler => Walking.Ends (itemsRound handler) (items.elements, []) calls
  | none => calls = []

/-- `PubsubTask::HandleStanza`: what it queues. -/
def handleStanza (t : PubsubTask NodeHandler) (me : Jid) (stanza : XmlElement) :
    Option XmlElement :=
  if stanza.name = QN_MESSAGE then
    if XmppTask.matchStanzaFrom me stanza t.pubsub_node_jid_ then
      stanza.firstNamed QN_PUBSUB_EVENT
    else none
  else if stanza.name = QN_IQ then
    if XmppTask.matchResponseIq me stanza t.pubsub_node_jid_ t.task_id then
      stanza.firstNamed QN_PUBSUB
    else none
  else none

/-- `PubsubTask::ProcessResponse`, of what was queued: the argument of `OnPubsubError`, if it is
called. Otherwise the element is walked over. -/
def processResponse (stanza : XmlElement) : Option (Option XmlElement) :=
  if stanza.attr QN_TYPE = STR_ERROR then some (stanza.firstNamed QN_ERROR) else none

/-! ## 3. The items of a node -/

theorem itemsRound_item (handler : NodeHandler) {item : XmlElement} (h : isItem item = true)
    (rest : List XmlElement) (calls : List (NodeHandler × XmlElement)) :
    itemsRound handler (item :: rest, calls) = .inl (rest, calls ++ [(handler, item)]) := by
  unfold isItem at h
  simp only [Bool.or_eq_true, decide_eq_true_eq] at h
  unfold itemsRound
  dsimp only
  rw [if_neg]
  rintro ⟨hitem, hretract, hpubsub⟩
  rcases h with (h | h) | h
  · exact hitem h
  · exact hretract h
  · exact hpubsub h

theorem itemsRound_other (handler : NodeHandler) {item : XmlElement} (h : isItem item = false)
    (rest : List XmlElement) (calls : List (NodeHandler × XmlElement)) :
    itemsRound handler (item :: rest, calls) = .inl (item :: rest, calls) := by
  unfold isItem at h
  simp only [Bool.or_eq_false_iff, decide_eq_false_iff_not] at h
  unfold itemsRound
  dsimp only
  rw [if_pos ⟨h.1.1, h.1.2, h.2⟩]

/-- The loop over elements that it knows. -/
theorem ends_of_items (handler : NodeHandler) {items : List XmlElement}
    (h : ∀ item ∈ items, isItem item = true) (calls : List (NodeHandler × XmlElement)) :
    Walking.Ends (itemsRound handler) (items, calls)
      (calls ++ items.map fun item => (handler, item)) := by
  induction items generalizing calls with
  | nil =>
    rw [List.map_nil, List.append_nil]
    exact Walking.ends_of_left rfl
  | cons item items ih =>
    have hfirst := itemsRound_item handler (h item List.mem_cons_self) items calls
    refine (Walking.ends_of_next hfirst).2 ?_
    have hrest := ih (fun i hi => h i (List.mem_cons_of_mem _ hi)) (calls ++ [(handler, item)])
    rw [List.append_assoc] at hrest
    exact hrest

/-- The loop does not get past an element that it does not know. -/
theorem items_of_ends (handler : NodeHandler) {items : List XmlElement}
    {calls result : List (NodeHandler × XmlElement)}
    (h : Walking.Ends (itemsRound handler) (items, calls) result) :
    ∀ item ∈ items, isItem item = true := by
  induction items generalizing calls with
  | nil => exact nofun
  | cons item items ih =>
    cases hitem : isItem item with
    | false =>
      -- the cursor stands at this element for good
      refine absurd h (Walking.not_ends (I := fun s => s = (item :: items, calls)) rfl ?_)
      rintro s rfl
      exact ⟨_, itemsRound_other handler hitem items calls, rfl⟩
    | true =>
      rw [Walking.ends_of_next (itemsRound_item handler hitem items calls)] at h
      intro i hi
      rcases List.mem_cons.1 hi with rfl | hi
      · exact hitem
      · exact ih h i hi

/-- For a node that is subscribed, `HandlePubsubItems` calls the handler for each item in order
exactly if every element among the children is an item. If one is not, it does not return. -/
theorem pubsub_items_handled_iff {t : PubsubTask NodeHandler} {items : XmlElement}
    {handler : NodeHandler}
    (hnode : t.subscribed_nodes_.lookup (items.attr QN_NODE) = some handler) :
    (t.HandlesItems items ((items.elements.filter isItem).map fun item => (handler, item)) ↔
      ∀ item ∈ items.elements, isItem item = true) ∧
    ((∃ calls, t.HandlesItems items calls) ↔ ∀ item ∈ items.elements, isItem item = true) := by
  unfold HandlesItems
  rw [hnode]
  dsimp only
  have hcomplete : (∀ item ∈ items.elements, isItem item = true) →
      Walking.Ends (itemsRound handler) (items.elements, [])
        ((items.elements.filter isItem).map fun item => (handler, item)) := by
    intro h
    rw [List.filter_eq_self.2 h]
    exact ends_of_items handler h []
  exact ⟨⟨items_of_ends handler, hcomplete⟩,
    ⟨fun ⟨_, hcalls⟩ => items_of_ends handler hcalls, fun h => ⟨_, hcomplete h⟩⟩⟩

/-- The items element of a node, with a text between two items. -/
def mixedItems : XmlElement :=
  ((((XmlElement.new QN_PUBSUB_EVENT_ITEMS false).addAttr QN_NODE (str "n")).addElement
    (XmlElement.new QN_PUBSUB_EVENT_RETRACT false)).addText (str " ")).addElement
      (XmlElement.new QN_PUBSUB_EVENT_ITEM false)

/-- A task with the handler `0` for the node "n". -/
def listener : PubsubTask Nat := ⟨Jid.empty, str "1", AList.singleton (str "n") 0⟩

theorem mixedItems_subscribed :
    listener.subscribed_nodes_.lookup (mixedItems.attr QN_NODE) = some 0 := by decide

theorem pubsub_items_handled_mixed :
    (listener.HandlesItems mixedItems
        ((mixedItems.elements.filter isItem).map fun item => (0, item)) ↔
      ∀ item ∈ mixedItems.elements, isItem item = true) ∧
    ((∃ calls, listener.HandlesItems mixedItems calls) ↔
      ∀ item ∈ mixedItems.elements, isItem item = true) :=
  pubsub_items_handled_iff mixedItems_subscribed

/-- An element that is no item among the items. -/
theorem pubsub_items_stuck :
    ¬∀ (t : PubsubTask Nat) (items : XmlElement),
      (t.subscribed_nodes_.lookup (items.attr QN_NODE)).isSome = true →
        ∃ calls, t.HandlesItems items calls := by
  intro h
  have hmixed := h listener (mixedItems.addElement (XmlElement.new QN_PUBSUB_PUBLISH false))
    (by decide)
  unfold HandlesItems at hmixed
  obtain ⟨calls, hcalls⟩ := hmixed
  have hlookup : listener.subscribed_nodes_.lookup
      ((mixedItems.addElement (XmlElement.new QN_PUBSUB_PUBLISH false)).attr QN_NODE) = some 0 := by
    decide
  rw [hlookup] at hcalls
  have hall := items_of_ends 0 hcalls (XmlElement.new QN_PUBSUB_PUBLISH false)
    (by
      unfold XmlElement.elements XmlElement.addElement
      rw [List.filterMap_append]
      exact List.mem_append_right _ List.mem_cons_self)
  revert hall
  decide

end Handlers

end PubsubTask

end Gxmpp
