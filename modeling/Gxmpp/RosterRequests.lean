/-
`talk/xmpp/rostermoduleimpl.cc`: the requests to change and to remove a contact, and what
`InternalRosterItems` reads in them when the server sends them back as a roster push.

The request to change carries the item of the contact in its query. The request to remove
puts its two attributes on the query itself, so it carries no item, and a push that reflects
it changes nothing.
-/
import Gxmpp.RosterGroups
import Gxmpp.RosterContacts

set_option autoImplicit false

namespace Gxmpp

open XmppRosterModuleImpl

/-! ## 1. The requests -/

/-- What comes of a request: it is refused, or an iq is given to `SendIq`. -/
inductive RosterRequested where
  | refused (status : XmppReturnStatus)
  | sent (iq : XmlElement)

namespace XmppRosterModuleImpl

/-- `XmppRosterModuleImpl::RequestRosterChange`; `none` where it follows a NULL. The engine is
given by the id it hands out next. -/
def requestRosterChange (engine : Option Str) (contact : Option XmppRosterContact) :
    Option RosterRequested :=
  match contact with
  | none => some (.refused .badArgument)
  | some contact =>
    contact.jid.map fun jid =>
      if !jid.isValid then .refused .badArgument
      else
        match engine with
        | none => .refused .badState
        | some id =>
          let contact_xml := contact.rawXml.1
          if contact_xml.name ≠ QN_ROSTER_ITEM || contact_xml.hasAttr QN_SUBSCRIPTION
              || contact_xml.hasAttr QN_ASK then
            .refused .badArgument
          else .sent (changeRequest id contact_xml)

/-- `XmppRosterModuleImpl::RequestRosterRemove`. -/
def requestRosterRemove (engine : Option Str) (jid : Jid) : RosterRequested :=
  if !jid.isValid then .refused .badArgument
  else
    match engine with
    | none => .refused .badState
    | some id => .sent (removeRequest id jid)

end XmppRosterModuleImpl

/-- The push is the request as the server reflects it: it has its query. -/
structure Reflects (iq push : XmlElement) : Prop where
  name : push.name = QN_IQ
  type : push.attr QN_TYPE = str "set"
  query : push.firstNamed QN_ROSTER_QUERY = iq.firstNamed QN_ROSTER_QUERY

/-- A roster item with the JID stands where `InternalRosterItems` looks for it. -/
def CarriesItem (iq : XmlElement) (jid : Jid) : Prop := ∃ item ∈ stanzaItems iq, itemJid item = jid

/-- The contact is in the roster: what is found under its JID has its name and its groups. -/
def HasContact (m : XmppRosterModuleImpl) (jid : Jid) (c : XmppRosterContact) : Prop :=
  ∃ entry, m.findRosterContact jid = some entry ∧
    (XmppRosterContact.create.setXmlFromWire (some entry.raw_xml)).name = c.name ∧
    (XmppRosterContact.create.setXmlFromWire (some entry.raw_xml)).groups = c.groups

/-- The roster after a push. -/
def XmppRosterModuleImpl.pushed (m : XmppRosterModuleImpl) (push : XmlElement) :
    XmppRosterModuleImpl :=
  (m.internalRosterItems push).1

/-! ## 2. A contact that is built -/

/-- The functions of `XmppRosterContact`: all but `SetXmlFromWire`, which is not virtual. -/
def ContactCall.isPublic : ContactCall → Bool
  | .setXmlFromWire _ => false
  | _ => true

/-- An item that `RequestRosterChange` accepts. -/
structure Requestable (e : XmlElement) : Prop where
  name : e.name = QN_ROSTER_ITEM
  subscription : e.hasAttr QN_SUBSCRIPTION = false
  ask : e.hasAttr QN_ASK = false

/-- Edits of the children leave it one. -/
theorem Requestable.children {e : XmlElement} (h : Requestable e) (children : List XmlChild) :
    Requestable { e with children := children } :=
  { h with }

theorem Requestable.setAttr {e : XmlElement} (h : Requestable e) {name : QName} (value : Str)
    (hsubscription : QN_SUBSCRIPTION ≠ name) (hask : QN_ASK ≠ name) :
    Requestable (e.setAttr name value) := by
  refine ⟨?_, ?_, ?_⟩
  · unfold XmlElement.setAttr
    split <;> exact h.name
  · rw [XmlElement.hasAttr_setAttr e value hsubscription]
    exact h.subscription
  · rw [XmlElement.hasAttr_setAttr e value hask]
    exact h.ask

theorem Requestable.clearAttr {e : XmlElement} (h : Requestable e) (name : QName) :
    Requestable (e.clearAttr name) :=
  ⟨h.name, XmlElement.hasAttr_clearAttr h.subscription, XmlElement.hasAttr_clearAttr h.ask⟩

namespace XmppRosterContact

theorem withXml_requestable {c : XmppRosterContact} (h : Requestable c.xml) :
    Requestable c.withXml.xml := by
  rw [withXml_xml]
  exact h

/-- A public function leaves the contact fit for a request. -/
theorem call_requestable {c c' : XmppRosterContact} {x : ContactCall} (hx : x.isPublic = true)
    (h : Requestable c.xml) (hcall : c.call x = some c') : Requestable c'.xml := by
  cases x with
  | setXmlFromWire xml => exact absurd hx Bool.false_ne_true
  | setJid jid =>
    obtain rfl := Option.some.inj hcall
    unfold setJid
    dsimp only
    split
    · exact withXml_requestable h
    · exact (withXml_requestable h).setAttr _ (by decide) (by decide)
  | setName name =>
    obtain rfl := Option.some.inj hcall
    unfold setName
    dsimp only
    split
    · exact (withXml_requestable h).clearAttr _
    · exact (withXml_requestable h).setAttr _ (by decide) (by decide)
  | addGroup group =>
    obtain rfl := Option.some.inj hcall
    by_cases hadds : group ≠ [] ∧ findGroup c.xml group = none
    · rw [addGroup_added hadds.1 hadds.2]
      exact h.children _
    · rcases addGroup_same hadds with hsame | hsame
      · rw [hsame]
        exact h
      · rw [hsame]
        exact withXml_requestable h
  | removeGroup group =>
    obtain rfl := Option.some.inj hcall
    unfold removeGroup
    split
    · exact h
    split
    · exact h
    · next raw_xml hraw =>
        have hxml : c.xml = raw_xml := by
          unfold xml
          rw [hraw]
          rfl
        rw [hxml] at h
        split
        · next place _ =>
            show Requestable (raw_xml.removeChildAfter (childBefore place))
            unfold XmlElement.removeChildAfter
            split <;> exact h.children _
        · show Requestable c.xml
          rw [hxml]
          exact h
  | getGroupCount =>
    obtain rfl := Option.some.inj hcall
    unfold xml
    rw [getGroupCount_raw_xml]
    exact h
  | getGroup index =>
    obtain ⟨r, hr, rfl⟩ := Option.map_eq_some_iff.1 hcall
    unfold xml
    rw [getGroup_raw_xml hr]
    exact h
  | rawXml =>
    obtain rfl := Option.some.inj hcall
    exact withXml_requestable h
  | setRawXml xml =>
    obtain rfl := Option.some.inj hcall
    unfold setRawXml
    split
    · exact h
    · next e =>
        split
        · exact h
        · next hok =>
            simp only [Bool.or_eq_true, decide_eq_true_eq, not_or, Bool.not_eq_true,
              ne_eq, not_not] at hok
            exact ⟨hok.1.1, hok.1.2, hok.2⟩

theorem calls_requestable {l : List ContactCall} (hl : ∀ x ∈ l, x.isPublic = true)
    {c : XmppRosterContact} (hc : create.calls l = some c) : Requestable c.xml := by
  induction l using List.reverseRecOn generalizing c with
  | nil =>
    obtain rfl := Option.some.inj hc
    exact ⟨rfl, rfl, rfl⟩
  | append_singleton l x ih =>
    rw [calls_snoc] at hc
    obtain ⟨b, hb, hx⟩ := Option.bind_eq_some_iff.1 hc
    have hpublic := hl x (List.mem_append_right l List.mem_cons_self)
    exact call_requestable hpublic
      (ih (fun y hy => hl y (List.mem_append_left [x] hy)) hb) hx

end XmppRosterContact

/-! ## 3. What is read in them -/

/-- The query of a request to change has the contact in it. -/
theorem changeRequest_query (id : Str) (contact_xml : XmlElement) :
    (changeRequest id contact_xml).firstNamed QN_ROSTER_QUERY
      = some ((XmlElement.new QN_ROSTER_QUERY true).addElement contact_xml) := rfl

/-- The query of a request to remove has nothing in it. -/
theorem removeRequest_query (id : Str) (jid : Jid) :
    (removeRequest id jid).firstNamed QN_ROSTER_QUERY
      = some (((XmlElement.new QN_ROSTER_QUERY true).addAttr QN_JID jid.toStr).addAttr
          QN_SUBSCRIPTION (str "remove")) := rfl

theorem Reflects.items {iq push : XmlElement} (h : Reflects iq push) :
    stanzaItems push = stanzaItems iq := by
  unfold stanzaItems
  rw [h.query]

theorem changeRequest_items {contact_xml : XmlElement} (h : Requestable contact_xml)
    (hvalid : (itemJid contact_xml).isValid = true) (id : Str) :
    stanzaItems (changeRequest id contact_xml) = [contact_xml] := by
  unfold stanzaItems
  rw [changeRequest_query]
  dsimp only
  unfold rosterItems
  rw [XmlElement.named_addElement, if_pos h.name]
  have hempty : (XmlElement.new QN_ROSTER_QUERY true).named QN_ROSTER_ITEM = [] := rfl
  rw [hempty, List.nil_append]
  exact List.filter_cons_of_pos hvalid

theorem removeRequest_items (id : Str) (jid : Jid) : stanzaItems (removeRequest id jid) = [] := by
  unfold stanzaItems
  rw [removeRequest_query]
  rfl

/-- The contacts after a push: the loop over its items. -/
theorem pushed_contacts (m : XmppRosterModuleImpl) (push : XmlElement) :
    (m.pushed push).contacts_
      = (rosterLoop m.contacts_.isEmpty (stanzaItems push) m.contacts_).1 :=
  (m.internalRosterItems_contacts push).trans (itemsTaken_loop push m.contacts_)

/-- An item that does not remove is found under its JID. -/
theorem ItemStep.found {item : XmlElement} {contacts : List XmppRosterContactImpl}
    {r : List XmppRosterContactImpl × List RosterCallback} (h : ItemStep item contacts r)
    (hkeeps : removes item = false) : r.1.find? (fun c => c.jid = itemJid item) = some ⟨item⟩ := by
  have hself : ∀ back : List XmppRosterContactImpl,
      (⟨item⟩ :: back).find? (fun c => c.jid = itemJid item) = some ⟨item⟩ :=
    fun back => List.find?_cons_of_pos (decide_eq_true rfl)
  have hnone : ∀ {front : List XmppRosterContactImpl}, (∀ c ∈ front, c.jid ≠ itemJid item) →
      front.find? (fun c => c.jid = itemJid item) = none := by
    intro front hfront
    rw [List.find?_eq_none]
    exact fun c hc heq => hfront c hc (of_decide_eq_true heq)
  cases h with
  | removed front contact back hfront hjid hremoves =>
    rw [hkeeps] at hremoves
    exact absurd hremoves Bool.false_ne_true
  | changed front contact back hfront | added contacts hfront =>
    rw [List.find?_append, hnone hfront, hself]
    rfl

/-- A push of one item that does not remove. -/
theorem pushed_item {m : XmppRosterModuleImpl} {push item : XmlElement}
    (hitems : stanzaItems push = [item]) (hkeeps : removes item = false) :
    (m.pushed push).findRosterContact (itemJid item) = some ⟨item⟩ := by
  unfold findRosterContact
  rw [pushed_contacts, hitems]
  cases hcontacts : m.contacts_ with
  | nil =>
    -- a roster that is empty is not searched
    rw [show ([] : List XmppRosterContactImpl).isEmpty = true from rfl, rosterLoop_new]
    exact List.find?_cons_of_pos (decide_eq_true rfl)
  | cons contact contacts =>
    exact (rosterItem_step (contact :: contacts) item).found hkeeps

/-- A push without items. -/
theorem pushed_nothing {m : XmppRosterModuleImpl} {push : XmlElement}
    (hitems : stanzaItems push = []) (jid : Jid) :
    (m.pushed push).findRosterContact jid = m.findRosterContact jid := by
  unfold findRosterContact
  rw [pushed_contacts, hitems]
  rfl

/-! ## 4. What the requests do -/

/-- The request to change leaves the roster with the contact. The request to remove leaves it
without the JID exactly if it was without it: it carries no item. -/
theorem roster_requests_mean {l : List ContactCall} (hl : ∀ x ∈ l, x.isPublic = true)
    {c : XmppRosterContact} (hc : XmppRosterContact.create.calls l = some c) {jid : Jid}
    (hjid : c.jid = some jid) (hvalid : jid.isValid = true) {leaving : Jid}
    (hleaving : leaving.isValid = true) (id : Str) (m : XmppRosterModuleImpl) :
    (∃ iq, requestRosterChange (some id) (some c) = some (.sent iq) ∧ CarriesItem iq jid ∧
      ∀ push, Reflects iq push → HasContact (m.pushed push) jid c) ∧
    ∃ iq, requestRosterRemove (some id) leaving = .sent iq ∧ ¬CarriesItem iq leaving ∧
      ((∀ push, Reflects iq push → (m.pushed push).findRosterContact leaving = none) ↔
        m.findRosterContact leaving = none) := by
  constructor
  · have hrequestable := XmppRosterContact.calls_requestable hl hc
    obtain ⟨raw_xml, hraw, hattr⟩ := Option.map_eq_some_iff.1 hjid
    have hxml : c.xml = raw_xml := by
      unfold XmppRosterContact.xml
      rw [hraw]
      rfl
    rw [hxml] at hrequestable
    have hitem : itemJid raw_xml = jid := hattr
    have hitems := changeRequest_items hrequestable (by rw [hitem]; exact hvalid) id
    refine ⟨changeRequest id raw_xml, ?_, ⟨raw_xml, ?_, hitem⟩, fun push hpush => ?_⟩
    · have hok : (decide (raw_xml.name ≠ QN_ROSTER_ITEM) || raw_xml.hasAttr QN_SUBSCRIPTION
          || raw_xml.hasAttr QN_ASK) = false := by
        rw [hrequestable.subscription, hrequestable.ask,
          decide_eq_false (not_not_intro hrequestable.name)]
        rfl
      have hxml' : c.rawXml.1 = raw_xml := (XmppRosterContact.withXml_xml c).trans hxml
      unfold requestRosterChange
      dsimp only
      rw [hjid, Option.map_some, hvalid, hxml', hok]
      rfl
    · rw [hitems]
      exact List.mem_cons_self
    · have hkeeps : removes raw_xml = false := by
        unfold removes
        rw [XmlElement.attr_of_not_hasAttr hrequestable.subscription]
        decide
      have hfound := pushed_item (m := m) (hpush.items.trans hitems) hkeeps
      rw [hitem] at hfound
      refine ⟨⟨raw_xml⟩, hfound, ?_, ?_⟩
      · unfold XmppRosterContact.name
        rw [hraw]
        rfl
      · rw [XmppRosterContact.groups_eq, XmppRosterContact.groups_eq, hxml]
        rfl
  · have hitems := removeRequest_items id leaving
    refine ⟨removeRequest id leaving, ?_, ?_, fun hgone => ?_, fun hnone push hpush => ?_⟩
    · unfold requestRosterRemove
      rw [hleaving]
      rfl
    · rintro ⟨item, hmem, -⟩
      rw [hitems] at hmem
      cases hmem
    · -- the server may reflect the request as it is
      have hpush : Reflects (removeRequest id leaving) (removeRequest id leaving) := ⟨rfl, rfl, rfl⟩
      rw [← pushed_nothing hitems leaving]
      exact hgone _ hpush
    · rw [pushed_nothing (hpush.items.trans hitems)]
      exact hnone

/-- A contact `m@y` of the group "Friends" is requested, and `n@y` removed. -/
theorem roster_requests_mean_friend :
    (∃ iq, requestRosterChange (some (str "1"))
        (some ((XmppRosterContact.create.setJid ⟨str "m", str "y", []⟩).2.addGroup
          (str "Friends")).2) = some (.sent iq) ∧ CarriesItem iq ⟨str "m", str "y", []⟩ ∧
      ∀ push, Reflects iq push → HasContact (init.pushed push) ⟨str "m", str "y", []⟩
        ((XmppRosterContact.create.setJid ⟨str "m", str "y", []⟩).2.addGroup (str "Friends")).2) ∧
    ∃ iq, requestRosterRemove (some (str "1")) ⟨str "n", str "y", []⟩ = .sent iq ∧
      ¬CarriesItem iq ⟨str "n", str "y", []⟩ ∧
      ((∀ push, Reflects iq push →
          (init.pushed push).findRosterContact ⟨str "n", str "y", []⟩ = none) ↔
        init.findRosterContact ⟨str "n", str "y", []⟩ = none) :=
  roster_requests_mean
    (l := [.setJid ⟨str "m", str "y", []⟩, .addGroup (str "Friends")]) (by decide) rfl (by decide)
    (by decide) (by decide) (str "1") init

/-- A request to remove the only contact, reflected as it is. -/
theorem removed_contact_stays :
    ¬∀ (id : Str) (jid : Jid) (m : XmppRosterModuleImpl) (iq : XmlElement), jid.isValid = true →
      requestRosterRemove (some id) jid = .sent iq →
        (m.pushed iq).findRosterContact jid = none := by
  intro h
  have hgone := h (str "1") ⟨str "m", str "y", []⟩
    { init with contacts_ := [⟨rosterEntry (str "m@y") []⟩] } _ (by decide) rfl
  revert hgone
  decide

end Gxmpp
