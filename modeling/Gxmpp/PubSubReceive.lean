/-
`talk/xmpp/pubsubtasks.cc`: the task that receives the events of a node.

`ParseEventItemsElem` walks over the items element twice, for the items and then for the
retractions, and the application gets one vector of both. The vector says the same as the
element where no retraction stands before an item (`event_items_in_order_iff`). An item that is
retracted and published again in one event is gone for the application.
-/
import Gxmpp.PubsubTask

set_option autoImplicit false

namespace Gxmpp

/-! ## 1. The task -/

/-- `IsPubSubEventItemsElem`. -/
def isPubSubEventItemsElem (stanza : XmlElement) (expected_node : Str) : Bool :=
  if stanza.name ≠ QN_MESSAGE then false
  else
    match stanza.firstNamed QN_PUBSUB_EVENT with
    | none => false
    | some event_elem =>
      match event_elem.firstNamed QN_PUBSUB_EVENT_ITEMS with
      | none => false
      | some items_elem => items_elem.attr QN_NODE = expected_node

/-- `ParseItem`: what it appends. -/
def parseItem (item_elem : XmlElement) : PubSubItem := ⟨item_elem.attr QN_ID, item_elem⟩

/-- `ParseRetract`. -/
def parseRetract (retract_elem : XmlElement) : PubSubItem := parseItem retract_elem

/-- `ParseEventItemsElem`. -/
def parseEventItemsElem (stanza : XmlElement) : List PubSubItem :=
  match stanza.firstNamed QN_PUBSUB_EVENT with
  | none => []
  | some event_elem =>
    match event_elem.firstNamed QN_PUBSUB_EVENT_ITEMS with
    | none => []
    | some items_elem =>
      (items_elem.named QN_PUBSUB_EVENT_ITEM).map parseItem
        ++ (items_elem.named QN_PUBSUB_EVENT_RETRACT).map parseRetract

/-- `PubSubReceiveTask`. -/
structure PubSubReceiveTask where
  pubsubjid_ : Jid
  node_ : Str

namespace PubSubReceiveTask

/-- `PubSubReceiveTask::WantsStanza`. -/
def wantsStanza (t : PubSubReceiveTask) (me : Jid) (stanza : XmlElement) : Bool :=
  XmppTask.matchStanzaFrom me stanza t.pubsubjid_ && isPubSubEventItemsElem stanza t.node_

/-- `PubSubReceiveTask::ReceiveStanza`: the argument of `SignalUpdate`. -/
def receiveStanza (stanza : XmlElement) : List PubSubItem := parseEventItemsElem stanza

end PubSubReceiveTask

/-! ## 2. The items element of an event -/

/-- The items element that is looked at. -/
def eventItems (stanza : XmlElement) : Option XmlElement :=
  (stanza.firstNamed QN_PUBSUB_EVENT).bind fun event_elem =>
    event_elem.firstNamed QN_PUBSUB_EVENT_ITEMS

def isEventItem (e : XmlElement) : Bool := e.name = QN_PUBSUB_EVENT_ITEM

def isEventRetract (e : XmlElement) : Bool := e.name = QN_PUBSUB_EVENT_RETRACT

def isEventChange (e : XmlElement) : Bool := isEventItem e || isEventRetract e

/-- The children that are items or retractions. -/
def eventChanges (items_elem : XmlElement) : List XmlElement :=
  items_elem.elements.filter isEventChange

theorem not_retract_of_item (e : XmlElement) (h : isEventItem e = true) :
    isEventRetract e = false := by
  unfold isEventItem at h
  unfold isEventRetract
  rw [of_decide_eq_true h]
  decide

/-- The vector that is delivered. -/
theorem receiveStanza_eq {stanza items_elem : XmlElement}
    (h : eventItems stanza = some items_elem) :
    PubSubReceiveTask.receiveStanza stanza
      = (items_elem.elements.filter isEventItem ++ items_elem.elements.filter isEventRetract).map
          parseItem := by
  unfold eventItems at h
  obtain ⟨event_elem, hevent, hitems⟩ := Option.bind_eq_some_iff.1 h
  unfold PubSubReceiveTask.receiveStanza parseEventItemsElem
  rw [hevent]
  dsimp only
  rw [hitems, List.map_append]
  rfl

/-! ## 3. Last-known items -/

/-- What an application that has these items knows after one more: a retraction removes its id,
an item sets it. -/
def applyItem (known : Str → Option XmlElement) (item : PubSubItem) : Str → Option XmlElement :=
  Function.update known item.itemid
    (if item.elem.name = QN_PUBSUB_EVENT_RETRACT then none else some item.elem)

/-- The same said of a child of the items element. -/
def applyChild (known : Str → Option XmlElement) (child : XmlElement) : Str → Option XmlElement :=
  if child.name = QN_PUBSUB_EVENT_RETRACT then Function.update known (child.attr QN_ID) none
  else if child.name = QN_PUBSUB_EVENT_ITEM then
    Function.update known (child.attr QN_ID) (some child)
  else known

/-- What a child of the items element sets its id to. -/
def childValue (child : XmlElement) : Option XmlElement :=
  if child.name = QN_PUBSUB_EVENT_RETRACT then none else some child

theorem foldl_applyItem (known : Str → Option XmlElement) (children : List XmlElement) :
    (children.map parseItem).foldl applyItem known
      = Walking.writes (fun e => e.attr QN_ID) childValue known children := by
  rw [List.foldl_map]
  rfl

theorem applyChild_of_change (known : Str → Option XmlElement) {e : XmlElement}
    (h : isEventChange e = true) :
    applyChild known e = Function.update known (e.attr QN_ID) (childValue e) := by
  unfold applyChild childValue
  by_cases hretract : e.name = QN_PUBSUB_EVENT_RETRACT
  · rw [if_pos hretract, if_pos hretract]
  · have hitem : e.name = QN_PUBSUB_EVENT_ITEM := by
      simpa [isEventChange, isEventItem, isEventRetract, hretract] using h
    rw [if_neg hretract, if_neg hretract, if_pos hitem]

theorem applyChild_of_other (known : Str → Option XmlElement) {e : XmlElement}
    (h : isEventChange e = false) : applyChild known e = known := by
  unfold isEventChange at h
  obtain ⟨hitem, hretract⟩ := Bool.or_eq_false_iff.1 h
  unfold applyChild
  rw [if_neg (of_decide_eq_false hretract), if_neg (of_decide_eq_false hitem)]

theorem foldl_applyChild (known : Str → Option XmlElement) (children : List XmlElement) :
    children.foldl applyChild known
      = Walking.writes (fun e => e.attr QN_ID) childValue known
          (children.filter isEventChange) := by
  induction children generalizing known with
  | nil => rfl
  | cons e children ih =>
    rw [List.foldl_cons, ih]
    cases hchange : isEventChange e with
    | true =>
      rw [List.filter_cons_of_pos hchange, applyChild_of_change known hchange]
      rfl
    | false =>
      rw [List.filter_cons_of_neg (Bool.eq_false_iff.1 hchange),
        applyChild_of_other known hchange]

/-- The vector that is delivered has the children in document order if and only if no retraction
stands before an item. Whatever was known before, it says of each id what the children say if
and only if of each id that is retracted the last child is a retraction. -/
theorem event_items_in_order_iff {stanza items_elem : XmlElement}
    (h : eventItems stanza = some items_elem) :
    (PubSubReceiveTask.receiveStanza stanza = (eventChanges items_elem).map parseItem ↔
      items_elem.elements.Pairwise fun a b =>
        ¬(isEventRetract a = true ∧ isEventItem b = true)) ∧
    ∀ known : Str → Option XmlElement,
      (PubSubReceiveTask.receiveStanza stanza).foldl applyItem known
          = items_elem.elements.foldl applyChild known ↔
        ∀ a ∈ items_elem.elements, isEventRetract a = true → ∀ b,
          ((eventChanges items_elem).filter fun c => c.attr QN_ID = a.attr QN_ID).getLast?
              = some b → isEventRetract b = true := by
  rw [receiveStanza_eq h]
  constructor
  · have hinj : Function.Injective parseItem := fun _ _ heq => congrArg PubSubItem.elem heq
    rw [(List.map_injective_iff.2 hinj).eq_iff]
    exact Walking.two_walks_iff not_retract_of_item items_elem.elements
  · intro known
    rw [foldl_applyItem, foldl_applyChild]
    refine Walking.writes_two_walks_iff _ childValue ?_ ?_ known items_elem.elements
    · intro e he
      have hnot := not_retract_of_item e he
      unfold childValue
      rw [if_neg (of_decide_eq_false hnot)]
      rfl
    · intro e he
      unfold childValue
      rw [if_pos (of_decide_eq_true he)]

/-- An item of an event, or a retraction. -/
def eventChange (name : QName) (id : Str) : XmlElement :=
  (XmlElement.new name false).addAttr QN_ID id

/-- An event of the node "n" that retracts an item and then publishes it again. -/
def republished : XmlElement :=
  (((XmlElement.new QN_PUBSUB_EVENT_ITEMS false).addAttr QN_NODE (str "n")).addElement
    (eventChange QN_PUBSUB_EVENT_RETRACT (str "1"))).addElement
      (eventChange QN_PUBSUB_EVENT_ITEM (str "1"))

/-- The message with it. -/
def republishing : XmlElement :=
  ((XmlElement.new QN_MESSAGE false).addAttr QN_FROM (str "pubsub.x")).addElement
    ((XmlElement.new QN_PUBSUB_EVENT false).addElement republished)

theorem republishing_items : eventItems republishing = some republished := rfl

theorem event_items_in_order_republished :
    (PubSubReceiveTask.receiveStanza republishing = (eventChanges republished).map parseItem ↔
      republished.elements.Pairwise fun a b =>
        ¬(isEventRetract a = true ∧ isEventItem b = true)) ∧
    ∀ known : Str → Option XmlElement,
      (PubSubReceiveTask.receiveStanza republishing).foldl applyItem known
          = republished.elements.foldl applyChild known ↔
        ∀ a ∈ republished.elements, isEventRetract a = true → ∀ b,
          ((eventChanges republished).filter fun c => c.attr QN_ID = a.attr QN_ID).getLast?
              = some b → isEventRetract b = true :=
  event_items_in_order_iff republishing_items

/-- A task for that node. -/
def receiver : PubSubReceiveTask := ⟨Jid.ofString (str "pubsub.x"), str "n"⟩

/-- The item that is published again is not there for the application. -/
theorem republished_item_lost :
    ¬∀ (t : PubSubReceiveTask) (me : Jid) (stanza items_elem : XmlElement),
      t.wantsStanza me stanza = true → eventItems stanza = some items_elem →
        PubSubReceiveTask.receiveStanza stanza = (eventChanges items_elem).map parseItem ∧
        ∀ known : Str → Option XmlElement,
          (PubSubReceiveTask.receiveStanza stanza).foldl applyItem known
            = items_elem.elements.foldl applyChild known := by
  intro h
  obtain ⟨-, hfold⟩ := h receiver Jid.empty republishing republished (by decide +kernel)
    republishing_items
  have hone := congrArg Option.isSome (congrFun (hfold fun _ => none) (str "1"))
  revert hone
  decide +kernel

end Gxmpp
