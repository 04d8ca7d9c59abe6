/-
The contacts of the roster module: at most one for a JID, and what a roster stanza does to
the map from JIDs to items that they are.

`InternalRosterItems` has two ways through its loop. When there are contacts it searches
them for each item, and then an item does one of three things (`ItemStep`). When there are
none it does not search, so an item is always appended. Two things go wrong: an item that
removes a contact that is not there is appended as a contact, and items of one stanza for
one JID make as many contacts if the roster was empty.
-/
import Gxmpp.RosterModule
import Gxmpp.History

set_option autoImplicit false

namespace Gxmpp

/-! ## 1. What is delivered -/

/-- A roster push: an iq of type set with a roster query. -/
def isRosterPush (e : XmlElement) : Bool :=
  (e.firstNamed QN_ROSTER_QUERY).isSome && e.attr QN_TYPE = str "set"

/-- The contacts after the items of a roster stanza. -/
def itemsTaken (stanza : XmlElement) (contacts : List XmppRosterContactImpl) :
    List XmppRosterContactImpl :=
  match stanza.firstNamed QN_ROSTER_QUERY with
  | none => contacts
  | some result_data =>
    (XmppRosterModuleImpl.rosterLoop contacts.isEmpty
      (XmppRosterModuleImpl.rosterItems result_data) contacts).1

/-- The contacts after a stanza for the handlers. -/
def pushTaken (stanza : XmlElement) (contacts : List XmppRosterContactImpl) :
    List XmppRosterContactImpl :=
  if stanza.name = QN_IQ && isRosterPush stanza then itemsTaken stanza contacts else contacts

/-- The contacts after the answer to a request of the module. -/
def answerTaken (stanza : XmlElement) (contacts : List XmppRosterContactImpl) :
    List XmppRosterContactImpl :=
  if stanza.attr QN_TYPE = str "error" then contacts else itemsTaken stanza contacts

/-- A presence that is stored: an available or an unavailable one of a valid sender. -/
def isIncoming (e : XmlElement) : Bool :=
  e.name = QN_PRESENCE && (Jid.ofString (e.attr QN_FROM)).isValid
    && (e.attr QN_TYPE = str "unavailable" || e.attr QN_TYPE = STR_EMPTY)

/-- A callback that is about no contact. -/
def isAside : RosterCallback → Bool
  | .subscriptionRequest _ _ _ | .subscriptionError _ _ | .rosterError _
  | .incomingPresenceChanged _ => true
  | _ => false

/-- What the engine gives the roster module: the answer to its iq, or any stanza. -/
inductive RosterDelivery where
  | result (stanza : XmlElement)
  | stanza (stanza : XmlElement)

namespace XmppRosterModuleImpl

/-- The module after a delivery, and what the roster handler is told. -/
def deliver (m : XmppRosterModuleImpl) : RosterDelivery → XmppRosterModuleImpl × List RosterCallback
  | .result e => m.iqResponse e
  | .stanza e => ((m.handleStanza e).module, (m.handleStanza e).told)

/-- The module after some deliveries. -/
def deliverAll (m : XmppRosterModuleImpl) (ds : List RosterDelivery) : XmppRosterModuleImpl :=
  ds.foldl (fun m d => (m.deliver d).1) m

theorem deliverAll_snoc (m : XmppRosterModuleImpl) (ds : List RosterDelivery) (d : RosterDelivery) :
    m.deliverAll (ds ++ [d]) = ((m.deliverAll ds).deliver d).1 := by
  unfold deliverAll
  rw [List.foldl_append]
  rfl

/-- The module of an application that sets its roster handler first, or sets none. -/
def start (roster_handler : Bool) : XmppRosterModuleImpl :=
  { init with roster_handler_ := roster_handler }

theorem internalRosterItems_contacts (m : XmppRosterModuleImpl) (stanza : XmlElement) :
    (m.internalRosterItems stanza).1.contacts_ = itemsTaken stanza m.contacts_ := by
  unfold internalRosterItems itemsTaken
  cases stanza.firstNamed QN_ROSTER_QUERY <;> rfl

/-- What the module does with a stanza: it takes its roster items, it stores its presence, it
tells the handler about it, or it leaves it. -/
inductive Handling (m : XmppRosterModuleImpl) (e : XmlElement) :
    Handled XmppRosterModuleImpl RosterCallback → Prop
  | push (hpush : (e.name = QN_IQ && isRosterPush e) = true) (hstored : isIncoming e = false) :
      Handling m e ⟨(m.internalRosterItems e).1, (m.internalRosterItems e).2, [pushResult e], true⟩
  | presence (hpush : (e.name = QN_IQ && isRosterPush e) = false) (hstored : isIncoming e = true) :
      Handling m e ⟨(m.internalIncomingPresence (Jid.ofString (e.attr QN_FROM)) e).1,
        (m.internalIncomingPresence (Jid.ofString (e.attr QN_FROM)) e).2, [], true⟩
  | told (cb : RosterCallback) (haside : isAside cb = true)
      (hpush : (e.name = QN_IQ && isRosterPush e) = false) (hstored : isIncoming e = false) :
      Handling m e ⟨m, m.tell cb, [], true⟩
  | left (hpush : (e.name = QN_IQ && isRosterPush e) = false) (hstored : isIncoming e = false) :
      Handling m e ⟨m, [], [], false⟩

/-- A subscription request is neither an available nor an unavailable presence. -/
theorem subscription_not_stored {type : Str} {request_type : XmppSubscriptionRequestType}
    (h : stringToSubscriptionRequestType type = some request_type) :
    type ≠ str "unavailable" ∧ type ≠ STR_EMPTY := by
  constructor
  · rintro rfl
    exact absurd h (by decide +revert)
  · rintro rfl
    exact absurd h (by decide +revert)

theorem handleStanza_handling (m : XmppRosterModuleImpl) (e : XmlElement) :
    Handling m e (m.handleStanza e) := by
  unfold handleStanza
  by_cases hpresence : e.name = QN_PRESENCE
  -- a presence is no push, an iq is never stored
  · have hpush : (e.name = QN_IQ && isRosterPush e) = false := by
      rw [hpresence, show decide (QN_PRESENCE = QN_IQ) = false by decide, Bool.false_and]
    rw [if_pos hpresence]
    dsimp only
    by_cases hvalid : (Jid.ofString (e.attr QN_FROM)).isValid = true
    · have hstored : isIncoming e
          = (e.attr QN_TYPE = str "unavailable" || e.attr QN_TYPE = STR_EMPTY) := by
        unfold isIncoming
        rw [hvalid, decide_eq_true hpresence, Bool.true_and, Bool.true_and]
      rw [if_neg (by simp [hvalid])]
      unfold handlePresence
      dsimp only
      cases htype : stringToSubscriptionRequestType (e.attr QN_TYPE) with
      | some request_type =>
        obtain ⟨hne, hne'⟩ := subscription_not_stored htype
        exact .told _ rfl hpush (by rw [hstored]; simp [hne, hne'])
      | none =>
        by_cases hkept : (e.attr QN_TYPE = str "unavailable" || e.attr QN_TYPE = STR_EMPTY) = true
        · dsimp only
          rw [if_pos hkept]
          exact .presence hpush (hstored.trans hkept)
        · have hnot := hstored.trans (Bool.eq_false_iff.2 hkept)
          dsimp only
          rw [if_neg hkept]
          by_cases herror : e.attr QN_TYPE = str "error"
          · rw [if_pos herror]
            exact .told _ rfl hpush hnot
          · rw [if_neg herror]
            exact .left hpush hnot
    · rw [if_pos (by simp [hvalid])]
      exact .left hpush (by unfold isIncoming; simp [hvalid])
  · have hstored : isIncoming e = false := by
      unfold isIncoming
      simp [hpresence]
    rw [if_neg hpresence]
    by_cases hname : e.name = QN_IQ
    · rw [if_pos hname]
      have hpush : (e.name = QN_IQ && isRosterPush e)
          = !((e.firstNamed QN_ROSTER_QUERY).isNone || e.attr QN_TYPE ≠ str "set") := by
        unfold isRosterPush
        cases e.firstNamed QN_ROSTER_QUERY <;> simp [hname]
      by_cases hleft : ((e.firstNamed QN_ROSTER_QUERY).isNone || e.attr QN_TYPE ≠ str "set") = true
      · rw [if_pos hleft]
        exact .left (by rw [hpush, hleft]; rfl) hstored
      · rw [if_neg hleft]
        exact .push (by rw [hpush, Bool.eq_false_iff.2 hleft]; rfl) hstored
    · rw [if_neg hname]
      exact .left (by simp [hname]) hstored

/-- What storing a presence leaves alone. -/
theorem internalIncomingPresence_keeps (m : XmppRosterModuleImpl) (jid : Jid)
    (stanza : XmlElement) :
    (m.internalIncomingPresence jid stanza).1.contacts_ = m.contacts_
      ∧ (m.internalIncomingPresence jid stanza).1.roster_handler_ = m.roster_handler_ := by
  unfold internalIncomingPresence
  dsimp only
  split
  · exact ⟨rfl, rfl⟩
  · split <;> exact ⟨rfl, rfl⟩

/-- What a stanza does to the contacts. -/
theorem handleStanza_contacts (m : XmppRosterModuleImpl) (stanza : XmlElement) :
    (m.handleStanza stanza).module.contacts_ = pushTaken stanza m.contacts_ := by
  have hhandling := m.handleStanza_handling stanza
  generalize m.handleStanza stanza = r at hhandling
  unfold pushTaken
  cases hhandling with
  | push hpush _ =>
    rw [if_pos hpush]
    exact m.internalRosterItems_contacts stanza
  | presence hpush _ =>
    rw [if_neg (Bool.eq_false_iff.1 hpush)]
    exact (m.internalIncomingPresence_keeps _ stanza).1
  | told cb _ hpush | left hpush => rw [if_neg (Bool.eq_false_iff.1 hpush)]

theorem iqResponse_contacts (m : XmppRosterModuleImpl) (stanza : XmlElement) :
    (m.iqResponse stanza).1.contacts_ = answerTaken stanza m.contacts_ := by
  unfold iqResponse answerTaken
  by_cases herror : stanza.attr QN_TYPE = str "error"
  · rw [if_pos herror, if_pos herror]
  · rw [if_neg herror, if_neg herror]
    exact internalRosterItems_contacts m stanza

end XmppRosterModuleImpl

open XmppRosterModuleImpl

/-- The JID of a roster item. -/
def itemJid (item : XmlElement) : Jid := Jid.ofString (item.attr QN_JID)

/-- A roster item that removes its contact. -/
def removes (item : XmlElement) : Bool := item.attr QN_SUBSCRIPTION = str "remove"

/-- The items of a stanza that `InternalRosterItems` goes through. -/
def stanzaItems (stanza : XmlElement) : List XmlElement :=
  match stanza.firstNamed QN_ROSTER_QUERY with
  | none => []
  | some result_data => rosterItems result_data

/-- The items of a delivery: those of a roster result or of a roster push. -/
def RosterDelivery.items : RosterDelivery → List XmlElement
  | .result e => if e.attr QN_TYPE = str "error" then [] else stanzaItems e
  | .stanza e => if e.name = QN_IQ && isRosterPush e then stanzaItems e else []

theorem itemsTaken_loop (stanza : XmlElement) (contacts : List XmppRosterContactImpl) :
    itemsTaken stanza contacts
      = (rosterLoop contacts.isEmpty (stanzaItems stanza) contacts).1 := by
  unfold itemsTaken stanzaItems
  cases stanza.firstNamed QN_ROSTER_QUERY <;> rfl

/-- The contacts after a delivery: the loop over its items. -/
theorem deliver_contacts (m : XmppRosterModuleImpl) (d : RosterDelivery) :
    (m.deliver d).1.contacts_ = (rosterLoop m.contacts_.isEmpty d.items m.contacts_).1 := by
  cases d with
  | result e =>
    refine (m.iqResponse_contacts e).trans ?_
    unfold answerTaken
    by_cases herror : e.attr QN_TYPE = str "error"
    · have hitems : (RosterDelivery.result e).items = [] := if_pos herror
      rw [if_pos herror, hitems]
      rfl
    · have hitems : (RosterDelivery.result e).items = stanzaItems e := if_neg herror
      rw [if_neg herror, hitems]
      exact itemsTaken_loop e m.contacts_
  | stanza e =>
    refine (m.handleStanza_contacts e).trans ?_
    unfold pushTaken
    by_cases hpush : (e.name = QN_IQ && isRosterPush e) = true
    · have hitems : (RosterDelivery.stanza e).items = stanzaItems e := if_pos hpush
      rw [if_pos hpush, hitems]
      exact itemsTaken_loop e m.contacts_
    · have hitems : (RosterDelivery.stanza e).items = [] := if_neg hpush
      rw [if_neg hpush, hitems]
      rfl

/-! ## 2. What an item does -/

/-- What an item does to contacts that are searched, and what the roster handler is told. -/
inductive ItemStep (item : XmlElement) : List XmppRosterContactImpl →
    List XmppRosterContactImpl × List RosterCallback → Prop
  | removed (front : List XmppRosterContactImpl) (contact : XmppRosterContactImpl)
      (back : List XmppRosterContactImpl) (hfront : ∀ c ∈ front, c.jid ≠ itemJid item)
      (hjid : contact.jid = itemJid item) (hremoves : removes item = true) :
      ItemStep item (front ++ contact :: back)
        (front ++ back, [.contactRemoved contact front.length])
  | changed (front : List XmppRosterContactImpl) (contact : XmppRosterContactImpl)
      (back : List XmppRosterContactImpl) (hfront : ∀ c ∈ front, c.jid ≠ itemJid item)
      (hjid : contact.jid = itemJid item) (hremoves : removes item = false) :
      ItemStep item (front ++ contact :: back)
        (front ++ ⟨item⟩ :: back, [.contactChanged contact front.length])
  | added (contacts : List XmppRosterContactImpl) (hfree : ∀ c ∈ contacts, c.jid ≠ itemJid item) :
      ItemStep item contacts (contacts ++ [⟨item⟩], [.contactsAdded contacts.length 1])

/-- The first entry with a property, and what stands around it. -/
theorem split_of_findIdx {α : Type} {p : α → Bool} {l : List α} {i : Nat}
    (h : l.findIdx? p = some i) : ∃ front a back, l = front ++ a :: back ∧ i = front.length
      ∧ p a = true ∧ ∀ b ∈ front, p b = false := by
  obtain ⟨hi, ha, hbefore⟩ := List.findIdx?_eq_some_iff_getElem.1 h
  refine ⟨l.take i, l[i], l.drop (i + 1), ?_, ?_, ha, ?_⟩
  · rw [List.getElem_cons_drop, List.take_append_drop]
  · rw [List.length_take]
    omega
  · intro b hb
    obtain ⟨j, hj, rfl⟩ := List.getElem_of_mem hb
    have hji : j < i := by
      rw [List.length_take] at hj
      omega
    rw [List.getElem_take]
    exact Bool.eq_false_iff.2 (hbefore j hji)

theorem rosterItem_step (contacts : List XmppRosterContactImpl) (item : XmlElement) :
    ItemStep item contacts (rosterItem false contacts item) := by
  unfold rosterItem
  simp only [Bool.false_eq_true, if_false]
  cases hfind : contacts.findIdx? fun c => c.jid = Jid.ofString (item.attr QN_JID) with
  | none =>
    refine .added contacts fun c hc => ?_
    have hnot := List.findIdx?_eq_none_iff.1 hfind c hc
    exact of_decide_eq_false hnot
  | some i =>
    obtain ⟨front, contact, back, rfl, rfl, hjid, hfront⟩ := split_of_findIdx hfind
    have hget : (front ++ contact :: back)[front.length]? = some contact := by simp
    simp only [Option.bind_some, hget, Option.map_some]
    by_cases hremove : item.attr QN_SUBSCRIPTION = str "remove"
    · rw [if_pos hremove]
      have herase : (front ++ contact :: back).eraseIdx front.length = front ++ back := by
        rw [List.eraseIdx_append_of_length_le (Nat.le_refl _), Nat.sub_self]
        rfl
      rw [herase]
      exact .removed front contact back (fun c hc => of_decide_eq_false (hfront c hc))
        (of_decide_eq_true hjid) (decide_eq_true hremove)
    · rw [if_neg hremove]
      have hset : (front ++ contact :: back).set front.length ⟨item⟩
          = front ++ ⟨item⟩ :: back := by
        rw [List.set_append_right _ _ (Nat.le_refl _), Nat.sub_self]
        rfl
      rw [hset]
      exact .changed front contact back (fun c hc => of_decide_eq_false (hfront c hc))
        (of_decide_eq_true hjid) (decide_eq_false hremove)

/-- Contacts that are not searched grow by the items, and nobody is told yet. -/
theorem rosterLoop_new (items : List XmlElement) (contacts : List XmppRosterContactImpl) :
    rosterLoop true items contacts = (contacts ++ items.map XmppRosterContactImpl.mk, []) := by
  induction items generalizing contacts with
  | nil =>
    rw [List.map_nil, List.append_nil]
    rfl
  | cons item items ih =>
    have hloop : rosterLoop true (item :: items) contacts
        = rosterLoop true items (contacts ++ [⟨item⟩]) := rfl
    rw [hloop, ih, List.append_assoc]
    rfl

/-- A roster item. -/
def rosterEntry (jid subscription : Str) : XmlElement :=
  ((XmlElement.new QN_ROSTER_ITEM false).addAttr QN_JID jid).addAttr QN_SUBSCRIPTION subscription

/-- A roster push of these items. -/
def rosterSet (items : List XmlElement) : XmlElement :=
  ((XmlElement.new QN_IQ false).addAttr QN_TYPE (str "set")).addElement
    (items.foldl XmlElement.addElement (XmlElement.new QN_ROSTER_QUERY true))

/-! ## 3. One contact for each JID -/

/-- There is at most one contact for a JID. -/
def OneEach (contacts : List XmppRosterContactImpl) : Prop :=
  (contacts.map XmppRosterContactImpl.jid).Nodup

instance (contacts : List XmppRosterContactImpl) : Decidable (OneEach contacts) :=
  inferInstanceAs (Decidable (List.Nodup _))

/-- There is at most one contact for a JID, so that a contact found by its JID is the one
found by its index. -/
structure UniqueContacts (m : XmppRosterModuleImpl) : Prop where
  oneEach : OneEach m.contacts_
  found : ∀ index contact, m.getRosterContact index = some contact →
    m.findRosterContact contact.jid = some contact

theorem uniqueContacts_iff (m : XmppRosterModuleImpl) : UniqueContacts m ↔ OneEach m.contacts_ := by
  refine ⟨fun h => h.oneEach, fun h => ⟨h, fun index contact hindex => ?_⟩⟩
  obtain ⟨front, back, hsplit⟩ := List.append_of_mem (List.mem_of_getElem? hindex)
  unfold OneEach at h
  unfold findRosterContact
  rw [hsplit] at h ⊢
  rw [List.map_append, List.map_cons, List.nodup_append] at h
  have hfront : front.find? (fun c => c.jid = contact.jid) = none := by
    rw [List.find?_eq_none]
    intro c hc heq
    have hne := h.2.2 c.jid (List.mem_map_of_mem hc) contact.jid List.mem_cons_self
    exact hne (of_decide_eq_true heq)
  rw [List.find?_append, hfront, List.find?_cons_of_pos (by simp)]
  rfl

variable {contacts : List XmppRosterContactImpl} {jid : Jid}

theorem ItemStep.oneEach {item : XmlElement}
    {r : List XmppRosterContactImpl × List RosterCallback} (h : ItemStep item contacts r)
    (hone : OneEach contacts) : OneEach r.1 := by
  unfold OneEach at hone ⊢
  cases h with
  | removed front contact back hfront hjid hremoves =>
    have hsub : (front ++ back).Sublist (front ++ contact :: back) :=
      (List.Sublist.refl front).append (List.sublist_cons_self contact back)
    exact hone.sublist (hsub.map XmppRosterContactImpl.jid)
  | changed front contact back hfront hjid hremoves =>
    have hsame : (front ++ ⟨item⟩ :: back).map XmppRosterContactImpl.jid
        = (front ++ contact :: back).map XmppRosterContactImpl.jid := by
      rw [List.map_append, List.map_append, List.map_cons, List.map_cons, hjid]
      rfl
    dsimp only
    rw [hsame]
    exact hone
  | added contacts hfree =>
    rw [List.map_append, List.nodup_append]
    refine ⟨hone, List.pairwise_singleton _ _, ?_⟩
    intro a ha b hb
    obtain ⟨c, hc, rfl⟩ := List.mem_map.1 ha
    rw [List.mem_singleton.1 hb]
    exact hfree c hc

theorem rosterLoop_oneEach (items : List XmlElement) (hone : OneEach contacts) :
    OneEach (rosterLoop false items contacts).1 := by
  induction items generalizing contacts with
  | nil => exact hone
  | cons item items ih => exact ih ((rosterItem_step contacts item).oneEach hone)

/-- A delivery that finds no contacts has at most one item for a JID. -/
def DistinctItems (m : XmppRosterModuleImpl) (d : RosterDelivery) : Prop :=
  m.contacts_ = [] → (d.items.map itemJid).Nodup

theorem deliver_unique {m : XmppRosterModuleImpl} (h : UniqueContacts m) (d : RosterDelivery) :
    UniqueContacts (m.deliver d).1 ↔ DistinctItems m d := by
  rw [uniqueContacts_iff, deliver_contacts]
  unfold DistinctItems
  by_cases hempty : m.contacts_ = []
  · rw [hempty, List.isEmpty_nil, rosterLoop_new, List.nil_append]
    unfold OneEach
    rw [List.map_map]
    exact ⟨fun hone _ => hone, fun hdistinct => hdistinct rfl⟩
  · have hfull : m.contacts_.isEmpty = false := by simpa using hempty
    rw [hfull]
    exact iff_of_true (rosterLoop_oneEach _ h.oneEach) fun heq => absurd heq hempty

/-- There is at most one contact for a JID all the time, exactly when no delivery that finds
no contacts has two items for a JID. -/
theorem roster_unique (roster_handler : Bool) (ds : List RosterDelivery) :
    (∀ done, done <+: ds → UniqueContacts ((start roster_handler).deliverAll done)) ↔
      ∀ done d, done ++ [d] <+: ds → DistinctItems ((start roster_handler).deliverAll done) d := by
  refine History.always_iff ?_ ?_ ds
  · exact (uniqueContacts_iff _).2 List.nodup_nil
  · intro done d hunique
    rw [deliverAll_snoc]
    exact deliver_unique hunique d

/-- A roster result whose two items have one JID makes two contacts. -/
theorem roster_unique_fails : ¬ ∀ (roster_handler : Bool) (ds : List RosterDelivery),
    UniqueContacts ((start roster_handler).deliverAll ds) := by
  intro h
  have hunique := h false
    [.stanza (rosterSet [rosterEntry (str "m@y") [], rosterEntry (str "m@y") []])]
  exact absurd hunique.oneEach (by decide)

/-! ## 4. The map from JIDs to items -/

/-- The item the module holds for a JID. -/
def XmppRosterModuleImpl.held (m : XmppRosterModuleImpl) (jid : Jid) : Option XmlElement :=
  (m.findRosterContact jid).map XmppRosterContactImpl.raw_xml

/-- What an item is to do to the map. -/
def foldItem (map : Jid → Option XmlElement) (item : XmlElement) : Jid → Option XmlElement :=
  fun jid => if jid = itemJid item then (if removes item then none else some item) else map jid

/-- The map after a delivery is the fold of the items over the map before. -/
def Folds (m : XmppRosterModuleImpl) (d : RosterDelivery) : Prop :=
  (m.deliver d).1.held = d.items.foldl foldItem m.held

/-- The items for a JID. -/
def itemsFor (jid : Jid) (items : List XmlElement) : List XmlElement :=
  items.filter fun item => jid = itemJid item

/-- How many items at the end remove their contact. -/
def trailingRemoves (items : List XmlElement) : Nat := (items.reverse.takeWhile removes).length

/-- With contacts: for each JID, the items at the end that remove it are none, or they are an
odd number and the first of them meets a contact, or an even number and it meets none.
Without contacts: for each JID the last item does not remove it and is the first item. -/
def FoldsWhen (m : XmppRosterModuleImpl) (d : RosterDelivery) : Prop :=
  if m.contacts_ = [] then
    ∀ jid, (itemsFor jid d.items).getLast? = (itemsFor jid d.items).head?
      ∧ ∀ item ∈ (itemsFor jid d.items).getLast?, removes item = false
  else
    ∀ jid, trailingRemoves (itemsFor jid d.items) = 0 ∨
      (trailingRemoves (itemsFor jid d.items) % 2 = 1 ↔
        trailingRemoves (itemsFor jid d.items) < (itemsFor jid d.items).length
          ∨ (m.held jid).isSome = true)

/-- What an item is to do to the entry of its JID. -/
def settle (_ : Option XmlElement) (item : XmlElement) : Option XmlElement :=
  if removes item then none else some item

/-- What it does: one that removes is appended where there is no entry. -/
def meet (entry : Option XmlElement) (item : XmlElement) : Option XmlElement :=
  if removes item && entry.isSome then none else some item

/-- The item held for a JID in a list of contacts. -/
def lookup (contacts : List XmppRosterContactImpl) (jid : Jid) : Option XmlElement :=
  (contacts.find? fun c => c.jid = jid).map XmppRosterContactImpl.raw_xml

theorem lookup_append (front back : List XmppRosterContactImpl) (jid : Jid) :
    lookup (front ++ back) jid = (lookup front jid).or (lookup back jid) := by
  unfold lookup
  rw [List.find?_append]
  cases front.find? fun c => c.jid = jid <;> rfl

theorem lookup_cons_self {c : XmppRosterContactImpl} (h : c.jid = jid)
    (back : List XmppRosterContactImpl) : lookup (c :: back) jid = some c.raw_xml := by
  unfold lookup
  rw [List.find?_cons_of_pos (by simp [h])]
  rfl

theorem lookup_cons_item (item : XmlElement) (back : List XmppRosterContactImpl) :
    lookup (⟨item⟩ :: back) (itemJid item) = some item :=
  lookup_cons_self (c := ⟨item⟩) rfl back

theorem lookup_cons_ne {c : XmppRosterContactImpl} (h : c.jid ≠ jid)
    (back : List XmppRosterContactImpl) : lookup (c :: back) jid = lookup back jid := by
  unfold lookup
  rw [List.find?_cons_of_neg (by simp [h])]

theorem lookup_none (h : ∀ c ∈ contacts, c.jid ≠ jid) : lookup contacts jid = none := by
  unfold lookup
  have hnone : contacts.find? (fun c => c.jid = jid) = none := by
    rw [List.find?_eq_none]
    exact fun c hc heq => h c hc (of_decide_eq_true heq)
  rw [hnone]
  rfl

/-- An item changes the entry of its JID and no other. -/
theorem ItemStep.lookup {item : XmlElement} {r : List XmppRosterContactImpl × List RosterCallback}
    (h : ItemStep item contacts r) (hone : OneEach contacts) (jid : Jid) : lookup r.1 jid =
      if jid = itemJid item then meet (lookup contacts jid) item else lookup contacts jid := by
  cases h with
  | removed front contact back hfront hjid hremoves =>
    by_cases hself : jid = itemJid item
    · subst hself
      -- no other contact has this JID
      have hback : ∀ c ∈ back, c.jid ≠ itemJid item := by
        unfold OneEach at hone
        rw [List.map_append, List.map_cons, List.nodup_append, List.nodup_cons] at hone
        intro c hc heq
        refine hone.2.1.1 ?_
        rw [hjid, ← heq]
        exact List.mem_map_of_mem hc
      rw [if_pos rfl, lookup_append, lookup_append, lookup_none hfront, lookup_none hback,
        lookup_cons_self hjid]
      simp [meet, hremoves]
    · have hother : contact.jid ≠ jid := fun heq => hself (heq.symm.trans hjid)
      rw [if_neg hself, lookup_append, lookup_append, lookup_cons_ne hother]
  | changed front contact back hfront hjid hremoves =>
    by_cases hself : jid = itemJid item
    · subst hself
      rw [if_pos rfl, lookup_append, lookup_append, lookup_none hfront, lookup_cons_item,
        lookup_cons_self hjid]
      simp [meet, hremoves]
    · have hother : contact.jid ≠ jid := fun heq => hself (heq.symm.trans hjid)
      have hnew : XmppRosterContactImpl.jid ⟨item⟩ ≠ jid := fun heq => hself heq.symm
      rw [if_neg hself, lookup_append, lookup_append, lookup_cons_ne hother,
        lookup_cons_ne hnew]
  | added contacts hfree =>
    by_cases hself : jid = itemJid item
    · subst hself
      rw [if_pos rfl, lookup_append, lookup_none hfree, lookup_cons_item]
      simp [meet]
    · have hnew : XmppRosterContactImpl.jid ⟨item⟩ ≠ jid := fun heq => hself heq.symm
      rw [if_neg hself, lookup_append, lookup_cons_ne hnew]
      exact Option.or_none

theorem itemsFor_cons (jid : Jid) (item : XmlElement) (items : List XmlElement) :
    itemsFor jid (item :: items)
      = if jid = itemJid item then item :: itemsFor jid items else itemsFor jid items := by
  unfold itemsFor
  by_cases h : jid = itemJid item
  · rw [if_pos h, List.filter_cons_of_pos (by simpa using h)]
  · rw [if_neg h, List.filter_cons_of_neg (by simpa using h)]

/-- The loop over searched contacts, at one JID. -/
theorem lookup_loop (items : List XmlElement) (hone : OneEach contacts) (jid : Jid) :
    lookup (rosterLoop false items contacts).1 jid
      = (itemsFor jid items).foldl meet (lookup contacts jid) := by
  induction items generalizing contacts with
  | nil => rfl
  | cons item items ih =>
    have hstep := rosterItem_step contacts item
    refine (ih (hstep.oneEach hone)).trans ?_
    rw [hstep.lookup hone jid, itemsFor_cons]
    by_cases h : jid = itemJid item
    · rw [if_pos h, if_pos h, List.foldl_cons]
    · rw [if_neg h, if_neg h]

/-- The fold, at one JID. -/
theorem foldItem_at (items : List XmlElement) (map : Jid → Option XmlElement) (jid : Jid) :
    items.foldl foldItem map jid = (itemsFor jid items).foldl settle (map jid) := by
  induction items generalizing map with
  | nil => rfl
  | cons item items ih =>
    rw [List.foldl_cons, ih, itemsFor_cons]
    unfold foldItem
    by_cases h : jid = itemJid item
    · rw [if_pos h, if_pos h, List.foldl_cons]
      rfl
    · rw [if_neg h, if_neg h]

theorem trailingRemoves_snoc (items : List XmlElement) (item : XmlElement) :
    trailingRemoves (items ++ [item]) = if removes item then trailingRemoves items + 1 else 0 := by
  unfold trailingRemoves
  rw [List.reverse_append, List.reverse_singleton, List.singleton_append]
  by_cases h : removes item = true
  · rw [if_pos h, List.takeWhile_cons_of_pos h, List.length_cons]
  · rw [if_neg h, List.takeWhile_cons_of_neg h, List.length_nil]

/-- There is an entry after the items if the items at the end that remove it were met an even
number of times by one, or an odd number of times by none. -/
theorem meet_isSome (entry : Option XmlElement) (items : List XmlElement) :
    (items.foldl meet entry).isSome = true ↔ (trailingRemoves items % 2 = 0 ↔
      trailingRemoves items < items.length ∨ entry.isSome = true) := by
  induction items using List.reverseRecOn with
  | nil => simp [trailingRemoves]
  | append_singleton items item ih =>
    rw [List.foldl_append, List.foldl_cons, List.foldl_nil, trailingRemoves_snoc,
      List.length_append,
      List.length_singleton]
    by_cases h : removes item = true
    · have hnext : (meet (items.foldl meet entry) item).isSome = true
          ↔ ¬ (items.foldl meet entry).isSome = true := by
        generalize items.foldl meet entry = entered
        unfold meet
        cases entered <;> simp [h]
      rw [if_pos h, hnext, ih, Nat.add_lt_add_iff_right]
      by_cases hbefore : trailingRemoves items < items.length ∨ entry.isSome = true
      · simp only [hbefore, iff_true]
        omega
      · simp only [hbefore, iff_false]
        omega
    · have hnext : (meet (items.foldl meet entry) item).isSome = true := by
        unfold meet
        simp [h]
      rw [if_neg h]
      simp [hnext]

/-- The items do what they are to do if the first of those at the end that remove the entry
and then every second one meets it. -/
theorem meet_eq_settle_iff (entry : Option XmlElement) (items : List XmlElement) :
    items.foldl meet entry = items.foldl settle entry ↔ trailingRemoves items = 0 ∨
      (trailingRemoves items % 2 = 1 ↔
        trailingRemoves items < items.length ∨ entry.isSome = true) := by
  rcases List.eq_nil_or_concat items with rfl | ⟨before, item, rfl⟩
  · exact iff_of_true rfl (Or.inl rfl)
  · have hsome := meet_isSome entry before
    rw [List.concat_eq_append, List.foldl_append, List.foldl_append, List.foldl_cons,
      List.foldl_cons, List.foldl_nil, List.foldl_nil, trailingRemoves_snoc, List.length_append,
      List.length_singleton]
    by_cases h : removes item = true
    · have hboth : meet (before.foldl meet entry) item = settle (before.foldl settle entry) item
          ↔ (before.foldl meet entry).isSome = true := by
        generalize before.foldl meet entry = entered
        unfold meet settle
        cases entered <;> simp [h]
      rw [if_pos h, hboth, hsome, Nat.add_lt_add_iff_right]
      by_cases hbefore : trailingRemoves before < before.length ∨ entry.isSome = true
      · simp only [hbefore, iff_true]
        omega
      · simp only [hbefore, iff_false]
        omega
    · rw [if_neg h]
      refine iff_of_true ?_ (Or.inl rfl)
      unfold meet settle
      simp [h]

/-- Without contacts the first item for a JID is found. -/
theorem lookup_new (items : List XmlElement) (jid : Jid) :
    lookup (items.map XmppRosterContactImpl.mk) jid = (itemsFor jid items).head? := by
  induction items with
  | nil => rfl
  | cons item items ih =>
    rw [List.map_cons, itemsFor_cons]
    by_cases h : jid = itemJid item
    · rw [if_pos h, lookup_cons_self (c := ⟨item⟩) h.symm, List.head?_cons]
    · rw [if_neg h, lookup_cons_ne (c := ⟨item⟩) (fun heq => h heq.symm), ih]

theorem settle_getLast (items : List XmlElement) :
    items.foldl settle none
      = items.getLast?.bind fun item => if removes item then none else some item := by
  rcases List.eq_nil_or_concat items with rfl | ⟨before, item, rfl⟩
  · rfl
  · rw [List.concat_eq_append, List.foldl_append, List.getLast?_concat]
    rfl

theorem head_eq_settle_iff (items : List XmlElement) : items.head? = items.foldl settle none ↔
    items.getLast? = items.head? ∧ ∀ item ∈ items.getLast?, removes item = false := by
  rw [settle_getLast]
  cases hlast : items.getLast? with
  | none =>
    rw [List.getLast?_eq_none_iff.1 hlast]
    simp
  | some item =>
    have hne : items ≠ [] := by
      rintro rfl
      cases hlast
    obtain ⟨first, rest, rfl⟩ := List.exists_cons_of_ne_nil hne
    by_cases h : removes item = true
    · simp [h]
    · have hfalse : removes item = false := Bool.eq_false_iff.2 h
      rw [Option.bind_some, if_neg h]
      constructor
      · intro heq
        refine ⟨heq.symm, fun x hx => ?_⟩
        rw [← Option.some.inj hx]
        exact hfalse
      · exact fun hboth => hboth.1.symm

/-- With one contact for a JID, the map after a delivery is the fold of its items exactly
when the items that remove a contact meet one as said. -/
theorem roster_folds {m : XmppRosterModuleImpl} (hone : OneEach m.contacts_) (d : RosterDelivery) :
    Folds m d ↔ FoldsWhen m d := by
  have hat : Folds m d ↔ ∀ jid, lookup (rosterLoop m.contacts_.isEmpty d.items m.contacts_).1 jid
      = (itemsFor jid d.items).foldl settle (lookup m.contacts_ jid) := by
    unfold Folds
    rw [funext_iff]
    refine forall_congr' fun jid => ?_
    rw [foldItem_at, ← deliver_contacts]
    rfl
  rw [hat]
  unfold FoldsWhen
  by_cases hempty : m.contacts_ = []
  · rw [if_pos hempty, hempty, List.isEmpty_nil]
    refine forall_congr' fun jid => ?_
    rw [rosterLoop_new, List.nil_append, lookup_new]
    exact head_eq_settle_iff _
  · have hfull : m.contacts_.isEmpty = false := by simpa using hempty
    rw [if_neg hempty, hfull]
    refine forall_congr' fun jid => ?_
    rw [lookup_loop _ hone]
    exact meet_eq_settle_iff _ _

/-- A push that removes a contact which is there. -/
theorem roster_folds_removed :
    OneEach [⟨rosterEntry (str "m@y") []⟩] ∧
      (Folds ⟨false, [], [], [], [⟨rosterEntry (str "m@y") []⟩]⟩
          (.stanza (rosterSet [rosterEntry (str "m@y") (str "remove")])) ↔
        FoldsWhen ⟨false, [], [], [], [⟨rosterEntry (str "m@y") []⟩]⟩
          (.stanza (rosterSet [rosterEntry (str "m@y") (str "remove")]))) :=
  ⟨by decide, roster_folds (by decide) _⟩

/-- A push that removes a contact which is not there makes it a contact. -/
theorem roster_fold_fails : ¬ ∀ (m : XmppRosterModuleImpl) (d : RosterDelivery),
    OneEach m.contacts_ → Folds m d := by
  intro h
  have hfolds := congrFun (h init (.stanza (rosterSet [rosterEntry (str "m@y") (str "remove")]))
    List.nodup_nil) (Jid.ofString (str "m@y"))
  have hheld : ((init.deliver (.stanza (rosterSet [rosterEntry (str "m@y") (str "remove")]))).1.held
      (Jid.ofString (str "m@y"))).isSome = true := by decide
  rw [hfolds] at hheld
  revert hheld
  decide

end Gxmpp
