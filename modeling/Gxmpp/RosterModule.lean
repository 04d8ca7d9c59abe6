/-
`talk/xmpp/rostermoduleimpl.cc`: contacts and incoming presence.

The module keeps what the server told it: `contacts_` from roster results and roster
pushes, and the last presence of each sender, once in a flat vector and once in a
bucket for each bare JID. It tells its `XmppRosterHandler` what changed; the calls of
that handler are listed as `RosterCallback` and have no effect on the module.

A contact is its XML, as `SetXmlFromWire` stores it. Presence objects are shared by the
vector and the buckets, so they have addresses: the position at which they were made.
-/
import Gxmpp.Constants
import Gxmpp.Jid

set_option autoImplicit false

namespace Gxmpp

/-- What a module does with a stanza: the module after it, what its handler is told, the
stanzas it sends, and the result of `HandleStanza`. -/
structure Handled (σ cb : Type) where
  module : σ
  told : List cb
  sent : List XmlElement
  result : Bool

/-! ## Presence and contacts -/

/-- `XmppPresenceImpl`. -/
structure XmppPresenceImpl where
  raw_xml : Option XmlElement

/-- `XmppPresenceAvailable`. -/
inductive XmppPresenceAvailable where
  | unavailable
  | available
  | error
deriving DecidableEq

namespace XmppPresenceImpl

/-- `XmppPresenceImpl::XmppPresenceImpl`. -/
def init : XmppPresenceImpl := ⟨none⟩

/-- `XmppPresenceImpl::jid`. -/
def jid (p : XmppPresenceImpl) : Jid :=
  match p.raw_xml with
  | none => Jid.empty
  | some xml => Jid.ofString (xml.attr QN_FROM)

/-- `XmppPresenceImpl::available`. -/
def available (p : XmppPresenceImpl) : XmppPresenceAvailable :=
  match p.raw_xml with
  | none => .unavailable
  | some xml =>
    if xml.attr QN_TYPE = str "unavailable" then .unavailable
    else if xml.attr QN_TYPE = str "error" then .error
    else .available

/-- `XmppPresenceImpl::set_raw_xml`; `none` where it returns `BADARGUMENT`. -/
def setRawXml (_ : XmppPresenceImpl) (xml : XmlElement) : Option XmppPresenceImpl :=
  if xml.name ≠ QN_PRESENCE then none else some ⟨some xml⟩

end XmppPresenceImpl

/-- `XmppRosterContactImpl`, as `SetXmlFromWire` leaves it. -/
structure XmppRosterContactImpl where
  raw_xml : XmlElement

/-- `XmppRosterContactImpl::jid`. -/
def XmppRosterContactImpl.jid (c : XmppRosterContactImpl) : Jid :=
  Jid.ofString (c.raw_xml.attr QN_JID)

/-! ## The module -/

/-- `XmppSubscriptionRequestType`. -/
inductive XmppSubscriptionRequestType where
  | subscribe
  | unsubscribe
  | subscribed
  | unsubscribed
deriving DecidableEq

/-- `StringToSubscriptionRequestType`. -/
def stringToSubscriptionRequestType (s : Str) : Option XmppSubscriptionRequestType :=
  if s = str "subscribe" then some .subscribe
  else if s = str "unsubscribe" then some .unsubscribe
  else if s = str "subscribed" then some .subscribed
  else if s = str "unsubscribed" then some .unsubscribed
  else none

/-- The functions of `XmppRosterHandler`. -/
inductive RosterCallback where
  | subscriptionRequest (jid : Jid) (type : XmppSubscriptionRequestType) (raw_xml : XmlElement)
  | subscriptionError (jid : Jid) (raw_xml : XmlElement)
  | rosterError (raw_xml : XmlElement)
  | incomingPresenceChanged (presence : Option XmppPresenceImpl)
  | contactChanged (old_contact : XmppRosterContactImpl) (index : Nat)
  | contactsAdded (index number : Nat)
  | contactRemoved (removed_contact : XmppRosterContactImpl) (index : Nat)

/-- `XmppRosterModuleImpl`. The roster handler is a boolean: only whether it is NULL
matters. `presences` are the presence objects, by address. -/
structure XmppRosterModuleImpl where
  roster_handler_ : Bool
  presences : List XmppPresenceImpl
  incoming_presence_map_ : List (Jid × List Nat)
  incoming_presence_vector_ : List Nat
  contacts_ : List XmppRosterContactImpl

namespace XmppRosterModuleImpl

/-- `XmppRosterModuleImpl::XmppRosterModuleImpl`. -/
def init : XmppRosterModuleImpl := ⟨false, [], [], [], []⟩

/-- The presence at an address. -/
def presenceAt (m : XmppRosterModuleImpl) (p : Nat) : XmppPresenceImpl :=
  m.presences.getD p .init

/-- What the roster handler is told, if there is one. -/
def tell (m : XmppRosterModuleImpl) (cb : RosterCallback) : List RosterCallback :=
  if m.roster_handler_ then [cb] else []

/-! ## Accessors -/

/-- `XmppRosterModuleImpl::GetIncomingPresenceCount`. -/
def getIncomingPresenceCount (m : XmppRosterModuleImpl) : Nat := m.incoming_presence_vector_.length

/-- `XmppRosterModuleImpl::GetIncomingPresence`: the address of the presence. -/
def getIncomingPresence (m : XmppRosterModuleImpl) (index : Nat) : Option Nat :=
  m.incoming_presence_vector_[index]?

/-- The vector `incoming_presence_map_` has for a JID, if there is one. -/
def presenceVector (m : XmppRosterModuleImpl) (jid : Jid) : Option (List Nat) :=
  (m.incoming_presence_map_.find? fun e => e.1 = jid).map Prod.snd

/-- `XmppRosterModuleImpl::GetIncomingPresenceForJidCount`. -/
def getIncomingPresenceForJidCount (m : XmppRosterModuleImpl) (jid : Jid) : Nat :=
  match m.presenceVector jid with
  | none => 0
  | some presence_vector => presence_vector.length

/-- `XmppRosterModuleImpl::GetIncomingPresenceForJid`: the address of the presence. -/
def getIncomingPresenceForJid (m : XmppRosterModuleImpl) (jid : Jid) (index : Nat) : Option Nat :=
  match m.presenceVector jid with
  | none => none
  | some presence_vector => presence_vector[index]?

/-- `XmppRosterModuleImpl::GetRosterContactCount`. -/
def getRosterContactCount (m : XmppRosterModuleImpl) : Nat := m.contacts_.length

/-- `XmppRosterModuleImpl::GetRosterContact`. -/
def getRosterContact (m : XmppRosterModuleImpl) (index : Nat) : Option XmppRosterContactImpl :=
  m.contacts_[index]?

/-- `XmppRosterModuleImpl::FindRosterContact`. -/
def findRosterContact (m : XmppRosterModuleImpl) (jid : Jid) : Option XmppRosterContactImpl :=
  m.contacts_.find? fun c => c.jid = jid

/-! ## Roster items -/

/-- One item of `InternalRosterItems`, which has a valid JID: the contacts after it, and
what the roster handler is told. `all_new` says that there were no contacts when the
stanza came, and then they are not searched. -/
def rosterItem (all_new : Bool) (contacts : List XmppRosterContactImpl) (roster_item : XmlElement) :
    List XmppRosterContactImpl × List RosterCallback :=
  let jid := Jid.ofString (roster_item.attr QN_JID)
  let pos := if all_new then none else contacts.findIdx? fun c => c.jid = jid
  match pos.bind fun i => contacts[i]?.map fun c => (i, c) with
  | some (i, contact) =>
    if roster_item.attr QN_SUBSCRIPTION = str "remove" then
      (contacts.eraseIdx i, [.contactRemoved contact i])
    -- the handler is given the contact as it was
    else (contacts.set i ⟨roster_item⟩, [.contactChanged contact i])
  | none =>
    (contacts ++ [⟨roster_item⟩], if all_new then [] else [.contactsAdded contacts.length 1])

/-- The items the loop of `InternalRosterItems` goes through: those with a valid JID. -/
def rosterItems (result_data : XmlElement) : List XmlElement :=
  (result_data.named QN_ROSTER_ITEM).filter fun item => (Jid.ofString (item.attr QN_JID)).isValid

/-- The loop of `InternalRosterItems`. -/
def rosterLoop (all_new : Bool) : List XmlElement → List XmppRosterContactImpl →
    List XmppRosterContactImpl × List RosterCallback
  | [], contacts => (contacts, [])
  | item :: items, contacts =>
    let r := rosterItem all_new contacts item
    let rest := rosterLoop all_new items r.1
    (rest.1, r.2 ++ rest.2)

/-- `XmppRosterModuleImpl::InternalRosterItems`. -/
def internalRosterItems (m : XmppRosterModuleImpl) (stanza : XmlElement) :
    XmppRosterModuleImpl × List RosterCallback :=
  match stanza.firstNamed QN_ROSTER_QUERY with
  | none => (m, [])
  | some result_data =>
    let all_new := m.contacts_.isEmpty
    let r := rosterLoop all_new (rosterItems result_data) m.contacts_
    -- a first roster is told as one addition
    let told := if all_new then r.2 ++ [.contactsAdded 0 r.1.length] else r.2
    ({ m with contacts_ := r.1 }, if m.roster_handler_ then told else [])

/-! ## Presence -/

/-- The bucket of a bare JID; an empty one is made where there is none. -/
def withBucket (map : List (Jid × List Nat)) (bare_jid : Jid) : List (Jid × List Nat) :=
  if map.any fun e => e.1 = bare_jid then map else map ++ [(bare_jid, [])]

/-- `XmppRosterModuleImpl::InternalIncomingPresence`. -/
def internalIncomingPresence (m : XmppRosterModuleImpl) (jid : Jid) (stanza : XmlElement) :
    XmppRosterModuleImpl × List RosterCallback :=
  let bare_jid := jid.bareJid
  let map := withBucket m.incoming_presence_map_ bare_jid
  let bucket := ((map.find? fun e => e.1 = bare_jid).map Prod.snd).getD []
  match bucket.find? fun p => (m.presenceAt p).jid = jid with
  | some p =>
    let presence := ((m.presenceAt p).setRawXml stanza).getD (m.presenceAt p)
    ({ m with incoming_presence_map_ := map, presences := m.presences.set p presence },
      m.tell (.incomingPresenceChanged (some presence)))
  | none =>
    match XmppPresenceImpl.init.setRawXml stanza with
    | some presence =>
      let p := m.presences.length
      ({ m with
          presences := m.presences ++ [presence]
          incoming_presence_map_ := map.map fun e =>
            if e.1 = bare_jid then (e.1, e.2 ++ [p]) else e
          incoming_presence_vector_ := m.incoming_presence_vector_ ++ [p] },
        m.tell (.incomingPresenceChanged (some presence)))
    | none =>
      -- the new object refuses what is no presence, and the handler gets NULL
      ({ m with incoming_presence_map_ := map }, m.tell (.incomingPresenceChanged none))

/-! ## What comes from the engine -/

/-- The reply to a roster push. -/
def pushResult (stanza : XmlElement) : XmlElement :=
  (((XmlElement.new QN_IQ false).addAttr QN_TYPE (str "result")).addAttr QN_TO
    (stanza.attr QN_FROM)).addAttr QN_ID (stanza.attr QN_ID)

/-- The part of `HandleStanza` for a presence of a valid sender; `none` where it returns
false. -/
def handlePresence (m : XmppRosterModuleImpl) (jid : Jid) (stanza : XmlElement) :
    Option (XmppRosterModuleImpl × List RosterCallback) :=
  let type := stanza.attr QN_TYPE
  match stringToSubscriptionRequestType type with
  | some request_type => some (m, m.tell (.subscriptionRequest jid request_type stanza))
  | none =>
    if type = str "unavailable" || type = STR_EMPTY then
      some (m.internalIncomingPresence jid stanza)
    else if type = str "error" then some (m, m.tell (.subscriptionError jid stanza))
    else none

/-- `XmppRosterModuleImpl::HandleStanza`. -/
def handleStanza (m : XmppRosterModuleImpl) (stanza : XmlElement) :
    Handled XmppRosterModuleImpl RosterCallback :=
  if stanza.name = QN_PRESENCE then
    let jid := Jid.ofString (stanza.attr QN_FROM)
    if !jid.isValid then ⟨m, [], [], false⟩
    else
      match m.handlePresence jid stanza with
      | some r => ⟨r.1, r.2, [], true⟩
      | none => ⟨m, [], [], false⟩
  else if stanza.name = QN_IQ then
    if (stanza.firstNamed QN_ROSTER_QUERY).isNone || stanza.attr QN_TYPE ≠ str "set" then
      ⟨m, [], [], false⟩
    else
      -- the sender of the push is not looked at
      let r := m.internalRosterItems stanza
      ⟨r.1, r.2, [pushResult stanza], true⟩
  else ⟨m, [], [], false⟩

/-- `XmppRosterModuleImpl::IqResponse`. -/
def iqResponse (m : XmppRosterModuleImpl) (stanza : XmlElement) :
    XmppRosterModuleImpl × List RosterCallback :=
  if stanza.attr QN_TYPE = str "error" then (m, m.tell (.rosterError stanza))
  else m.internalRosterItems stanza

/-! ## The requests of the module -/

/-- The iq of `XmppRosterModuleImpl::RequestRosterUpdate`. -/
def updateRequest (id : Str) : XmlElement :=
  (((XmlElement.new QN_IQ false).addAttr QN_TYPE (str "get")).addAttr QN_ID id).addElement
    (XmlElement.new QN_ROSTER_QUERY true)

/-- The iq of `XmppRosterModuleImpl::RequestRosterChange`. -/
def changeRequest (id : Str) (contact_xml : XmlElement) : XmlElement :=
  XmlElement.atDepth (fun e => e.addElement contact_xml) 1
    ((((XmlElement.new QN_IQ false).addAttr QN_TYPE (str "set")).addAttr QN_ID id).addElement
      (XmlElement.new QN_ROSTER_QUERY true))

/-- The iq of `XmppRosterModuleImpl::RequestRosterRemove`. The two attributes go to the
query element. -/
def removeRequest (id : Str) (jid : Jid) : XmlElement :=
  XmlElement.atDepth (fun e => e.addAttr QN_SUBSCRIPTION (str "remove")) 1
    (XmlElement.atDepth (fun e => e.addAttr QN_JID jid.toStr) 1
      ((((XmlElement.new QN_IQ false).addAttr QN_TYPE (str "set")).addAttr QN_ID id).addElement
        (XmlElement.new QN_ROSTER_QUERY true)))

end XmppRosterModuleImpl

end Gxmpp
