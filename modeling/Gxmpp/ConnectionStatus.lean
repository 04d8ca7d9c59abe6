/-
The connection status of a member, from `RequestConnectionStatusChange` to `connection_status`.

`chatroommoduleimpl.cc` writes the status under `QN_STATUS`, which is in the namespace of the
stream, and `rostermoduleimpl.cc` reads it under `QN_ATTR_STATUS`, which is in none. Printer and
parser keep the two apart whatever is declared around the stanza, so what is written is never
read: the reader falls back on "connected". `connection_status_iff` says when that, or what a
server has put in front of it, is the status that was asked for.
-/
import Gxmpp.ChatroomRuns
import Gxmpp.Reread

set_option autoImplicit false

namespace Gxmpp

open XmlPrinter (Piece pieces)
open LexState (cleanValue)

/-! ## 1. Writing the status -/

def NS_GOOGLE_PSTN_CONFERENCE : Str := str "http://www.google.com/pstn-conference"

def QN_GOOGLE_PSTN_CONFERENCE_STATUS : QName := ⟨NS_GOOGLE_PSTN_CONFERENCE, str "status"⟩
def QN_ATTR_STATUS : QName := ⟨STR_EMPTY, str "status"⟩

def STR_PSTN_CONFERENCE_STATUS_CONNECTING : Str := str "connecting"
def STR_PSTN_CONFERENCE_STATUS_CONNECTED : Str := str "connected"
def STR_PSTN_CONFERENCE_STATUS_HANGUP : Str := str "hangup"

/-- `XmppPresenceConnectionStatus`. -/
inductive XmppPresenceConnectionStatus where
  | unknown
  | connecting
  | connected
  | hangup
deriving DecidableEq

/-- `GetAttrValueFor`. -/
def getAttrValueFor : XmppPresenceConnectionStatus → Str
  | .connecting => STR_PSTN_CONFERENCE_STATUS_CONNECTING
  | .connected => STR_PSTN_CONFERENCE_STATUS_CONNECTED
  | .unknown | .hangup => []

namespace XmppChatroomModuleImpl

/-- The presence of `RequestConnectionStatusChange`. -/
def statusPresence (m : XmppChatroomModuleImpl)
    (connection_status : XmppPresenceConnectionStatus) : XmlElement :=
  let element := ((XmlElement.new QN_PRESENCE false).addAttr QN_TO m.memberJid.toStr).addElement
    (XmlElement.new QN_MUC_X false)
  if connection_status ≠ .unknown then
    element.addElement ((XmlElement.new QN_GOOGLE_PSTN_CONFERENCE_STATUS false).addAttr QN_STATUS
      (getAttrValueFor connection_status))
  else element

/-- `XmppChatroomModuleImpl::RequestConnectionStatusChange`. -/
def requestConnectionStatusChange (m : XmppChatroomModuleImpl)
    (connection_status : XmppPresenceConnectionStatus) (engine : Option XmppReturnStatus) :
    Requested :=
  match engine with
  | none => ⟨m, [], .badState⟩
  | some status =>
    if m.chatroom_state_ ≠ .inRoom then ⟨m, [], .badState⟩
    else if !m.checkEnterChatroomStateOk then ⟨m, [], .badState⟩
    else ⟨m, [m.statusPresence connection_status], status⟩

end XmppChatroomModuleImpl

/-! ## 2. Reading it -/

/-- `XmppPresenceImpl::connection_status`. -/
def XmppPresenceImpl.connectionStatus (p : XmppPresenceImpl) : XmppPresenceConnectionStatus :=
  match p.raw_xml with
  | none => .unknown
  | some raw_xml =>
    match raw_xml.firstNamed QN_GOOGLE_PSTN_CONFERENCE_STATUS with
    | none => .connected
    | some con =>
      let status := con.attr QN_ATTR_STATUS
      if status = STR_PSTN_CONFERENCE_STATUS_CONNECTING then .connecting
      else if status = STR_PSTN_CONFERENCE_STATUS_CONNECTED then .connected
      else if status = STR_PSTN_CONFERENCE_STATUS_HANGUP then .hangup
      else .connected

/-- What is read of the first status among some children; the default is "connected". -/
def readStatus (children : List XmlChild) : XmppPresenceConnectionStatus :=
  XmppPresenceImpl.connectionStatus ⟨some ⟨QN_PRESENCE, [], children, false⟩⟩

theorem connectionStatus_eq (raw_xml : XmlElement) :
    XmppPresenceImpl.connectionStatus ⟨some raw_xml⟩ = readStatus raw_xml.children := rfl

/-- The first status of some children. -/
def firstStatus (children : List XmlChild) : Option XmlElement :=
  XmlElement.firstNamed ⟨QN_PRESENCE, [], children, false⟩ QN_GOOGLE_PSTN_CONFERENCE_STATUS

theorem firstStatus_append (a b : List XmlChild) :
    firstStatus (a ++ b) = (firstStatus a).or (firstStatus b) := by
  unfold firstStatus XmlElement.firstNamed XmlElement.named XmlElement.elements
  rw [List.filterMap_append, List.filter_append, List.head?_append]

theorem firstStatus_cons_ne {e : XmlElement} (h : e.name ≠ QN_GOOGLE_PSTN_CONFERENCE_STATUS)
    (children : List XmlChild) : firstStatus (.element e :: children) = firstStatus children := by
  simp [firstStatus, XmlElement.firstNamed, XmlElement.named, XmlElement.elements,
    XmlChild.asElement, h]

theorem firstStatus_cons_eq {e : XmlElement} (h : e.name = QN_GOOGLE_PSTN_CONFERENCE_STATUS)
    (children : List XmlChild) : firstStatus (.element e :: children) = some e := by
  simp [firstStatus, XmlElement.firstNamed, XmlElement.named, XmlElement.elements,
    XmlChild.asElement, h]

theorem readStatus_of_none {children : List XmlChild} (h : firstStatus children = none) :
    readStatus children = .connected := by
  unfold firstStatus at h
  unfold readStatus XmppPresenceImpl.connectionStatus
  dsimp only
  rw [h]

theorem readStatus_of_some {children : List XmlChild} {con : XmlElement}
    (h : firstStatus children = some con) : readStatus children =
      if con.attr QN_ATTR_STATUS = STR_PSTN_CONFERENCE_STATUS_CONNECTING then .connecting
      else if con.attr QN_ATTR_STATUS = STR_PSTN_CONFERENCE_STATUS_CONNECTED then .connected
      else if con.attr QN_ATTR_STATUS = STR_PSTN_CONFERENCE_STATUS_HANGUP then .hangup
      else .connected := by
  unfold firstStatus at h
  unfold readStatus XmppPresenceImpl.connectionStatus
  dsimp only
  rw [h]

/-! ## 3. On the wire -/

section Wire

variable (m : XmppChatroomModuleImpl) {status : XmppPresenceConnectionStatus} {ns : XmlnsStack}

/-- The presence, for a status. -/
theorem statusPresence_eq (h : status ≠ .unknown) : m.statusPresence status
    = ⟨QN_PRESENCE, [⟨QN_TO, m.memberJid.toStr⟩],
        [.element (XmlElement.new QN_MUC_X false), .element ⟨QN_GOOGLE_PSTN_CONFERENCE_STATUS,
          [⟨QN_STATUS, getAttrValueFor status⟩], [], false⟩], false⟩ := by
  unfold XmppChatroomModuleImpl.statusPresence
  exact if_pos h

theorem preorder_statusPresence (h : status ≠ .unknown) : (m.statusPresence status).preorder
    = [m.statusPresence status, XmlElement.new QN_MUC_X false,
        ⟨QN_GOOGLE_PSTN_CONFERENCE_STATUS, [⟨QN_STATUS, getAttrValueFor status⟩], [], false⟩] := by
  rw [statusPresence_eq m h]
  rfl

theorem plain_statusPresence (h : status ≠ .unknown) : (m.statusPresence status).Plain := by
  have hpresence : PlainTag QN_PRESENCE [⟨QN_TO, m.memberJid.toStr⟩] :=
    ⟨by decide, by simp [QN_TO]; decide, by decide, by simp, by simp [QN_TO]; decide⟩
  have hmuc : PlainTag QN_MUC_X [] := ⟨by decide, by simp, by decide, by simp, by simp⟩
  have hcon : PlainTag QN_GOOGLE_PSTN_CONFERENCE_STATUS [⟨QN_STATUS, getAttrValueFor status⟩] :=
    ⟨by decide, by simp [QN_STATUS]; decide, by decide, by simp, by simp [QN_STATUS]; decide⟩
  intro x hx
  rw [preorder_statusPresence m h] at hx
  simp only [List.mem_cons, List.not_mem_nil, or_false] at hx
  rcases hx with rfl | rfl | rfl
  · rw [statusPresence_eq m h]
    exact hpresence
  · exact hmuc
  · exact hcon

theorem harmlessTag_of_clean (s : XmlnsStack) {name : QName} {attrs : List XmlAttr}
    (hname : cleanValue name.ns = true) (hattrs : ∀ a ∈ attrs, cleanValue a.name.ns = true) :
    harmlessTag s name attrs = true := by
  unfold harmlessTag
  rw [hname, Bool.or_true, Bool.true_and, List.all_eq_true]
  intro a ha
  rw [hattrs a ha, Bool.or_true]

/-- The text that is printed has the tokens of the presence. -/
theorem tokenise_statusPresence (h : status ≠ .unknown) (hns : NamedPrefixes ns) :
    tokenise (XmlPrinter.printXml ns (m.statusPresence status)).1
      = some (treeTokens ns (m.statusPresence status)) := by
  refine tokenise_of_harmless hns ?_ ?_
  · intro x hx
    have hplain := plain_statusPresence m h x hx
    exact ⟨hplain.named, hplain.attrsNamed⟩
  · have hpresence : ∀ s, harmlessTag s QN_PRESENCE [⟨QN_TO, m.memberJid.toStr⟩] = true :=
      fun s => harmlessTag_of_clean s (by decide) (by simp [QN_TO]; decide)
    have hmuc : ∀ s, harmlessTag s QN_MUC_X [] = true :=
      fun s => harmlessTag_of_clean s (by decide) (by simp)
    have hcon : ∀ s, harmlessTag s QN_GOOGLE_PSTN_CONFERENCE_STATUS
        [⟨QN_STATUS, getAttrValueFor status⟩] = true :=
      fun s => harmlessTag_of_clean s (by decide) (by simp [QN_STATUS]; decide)
    rw [statusPresence_eq m h]
    simp [harmless, harmlessChildren, harmlessChild, XmlElement.new, hpresence, hmuc, hcon]

/-- What is read of the presence: its status has the attribute that was written, and some that
declare prefixes. -/
theorem reread_statusPresence (h : status ≠ .unknown) (ns : XmlnsStack) :
    ∃ x con, ((m.statusPresence status).reread ns).children = [.element x, .element con] ∧
      ((m.statusPresence status).reread ns).name = QN_PRESENCE ∧ x.name = QN_MUC_X ∧
      con.name = QN_GOOGLE_PSTN_CONFERENCE_STATUS ∧ con.attr QN_ATTR_STATUS = [] := by
  rw [statusPresence_eq m h]
  refine ⟨_, _, rfl, rfl, rfl, rfl, ?_⟩
  apply XmlElement.attr_of_not_hasAttr
  unfold XmlElement.hasAttr
  rw [List.any_eq_false]
  intro a ha
  rcases List.mem_append.1 (show a ∈ [⟨QN_STATUS, getAttrValueFor status⟩] ++ addedAttrs _ from ha)
    with ha | ha
  · rw [List.mem_singleton.1 ha]
    have hne : QN_STATUS ≠ QN_ATTR_STATUS := by decide
    simpa using hne
  · obtain ⟨b, -, rfl⟩ := List.mem_map.1 ha
    simp [QN_ATTR_STATUS, STR_EMPTY, NS_XMLNS, str]

/-- A connection status survives the wire: a presence is sent, its text has the tokens of the
presence, the parser reports a stanza for it, and that stanza, with the children that a server
has put in front, between and behind, shows the status. -/
def Survives (m : XmppChatroomModuleImpl) (engine : XmppReturnStatus) (ns : XmlnsStack)
    (p : XmppStanzaParser) (root : Str) (status : XmppPresenceConnectionStatus)
    (front between behind : List XmlChild) : Prop :=
  ∃ e r x con, (m.requestConnectionStatusChange status (some engine)).sent = [e] ∧
    tokenise (XmlPrinter.printXml ns e).1 = some (treeTokens ns e) ∧
    p.told ((pieces ns e).flatMap Piece.events ++ [.endElement root]) .none
      = [.stanza r, .endStream] ∧
    r.children = [x, con] ∧
    ∃ presence, XmppPresenceImpl.init.setRawXml
        { r with children := front ++ x :: (between ++ con :: behind) } = some presence ∧
      presence.connectionStatus = status

end Wire

/-- What is read is the first status that was put in front of the one that was sent. -/
theorem survives_iff_read {m : XmppChatroomModuleImpl} (hroom : m.chatroom_state_ = .inRoom)
    (hok : m.checkEnterChatroomStateOk = true) (engine : XmppReturnStatus) {ns : XmlnsStack}
    (hns : NamedPrefixes ns) {p : XmppStanzaParser} (hp : InStream p ns) (root : Str)
    {status : XmppPresenceConnectionStatus} (h : status ≠ .unknown)
    (front between behind : List XmlChild) :
    Survives m engine ns p root status front between behind ↔
      readStatus (front ++ between) = status := by
  have hsent : (m.requestConnectionStatusChange status (some engine)).sent
      = [m.statusPresence status] := by
    unfold XmppChatroomModuleImpl.requestConnectionStatusChange
    dsimp only
    rw [if_neg (not_not_intro hroom), hok]
    rfl
  have htold := read_printed hp hns.colonFree (plain_statusPresence m h) root
  obtain ⟨y, own, hchildren, hname, hy, hown, hattr⟩ := reread_statusPresence m h ns
  have hset : ∀ children, XmppPresenceImpl.init.setRawXml
      { (m.statusPresence status).reread ns with children := children }
      = some ⟨some { (m.statusPresence status).reread ns with children := children }⟩ :=
    fun children => if_neg (not_not_intro hname)
  -- the one that was sent shows the default
  have hread : readStatus (front ++ .element y :: (between ++ .element own :: behind))
      = readStatus (front ++ between) := by
    have hfirst : firstStatus (front ++ .element y :: (between ++ .element own :: behind))
        = (firstStatus (front ++ between)).or (some own) := by
      have hy' : y.name ≠ QN_GOOGLE_PSTN_CONFERENCE_STATUS := by rw [hy]; decide
      rw [firstStatus_append, firstStatus_cons_ne hy', firstStatus_append,
        firstStatus_cons_eq hown, firstStatus_append, Option.or_assoc]
    cases hfront : firstStatus (front ++ between) with
    | none =>
      rw [hfront, Option.none_or] at hfirst
      rw [readStatus_of_none hfront, readStatus_of_some hfirst, hattr]
      decide
    | some con =>
      rw [hfront, Option.some_or] at hfirst
      rw [readStatus_of_some hfront, readStatus_of_some hfirst]
  constructor
  · rintro ⟨e, r, x, con, he, -, hr, hxc, presence, hpresence, hstatus⟩
    obtain rfl := (List.cons.inj (he.symm.trans hsent)).1
    obtain rfl : r = (m.statusPresence status).reread ns :=
      StanzaEvent.stanza.inj (List.cons.inj (hr.symm.trans htold)).1
    obtain ⟨rfl, hcon⟩ := List.cons.inj (hxc.symm.trans hchildren)
    obtain ⟨rfl, -⟩ := List.cons.inj hcon
    obtain rfl := Option.some.inj ((hset _).symm.trans hpresence)
    rw [← hstatus, connectionStatus_eq, hread]
  · intro hstatus
    refine ⟨_, _, _, _, hsent, tokenise_statusPresence m h hns, htold, hchildren, _, hset _, ?_⟩
    rw [connectionStatus_eq, hread, hstatus]

/-- A status element that stands for "connecting" or "connected". -/
def StandsFor (con : XmlElement) : XmppPresenceConnectionStatus → Prop
  | .connecting => con.attr QN_ATTR_STATUS = STR_PSTN_CONFERENCE_STATUS_CONNECTING
  | .connected => con.attr QN_ATTR_STATUS ≠ STR_PSTN_CONFERENCE_STATUS_CONNECTING ∧
      con.attr QN_ATTR_STATUS ≠ STR_PSTN_CONFERENCE_STATUS_HANGUP
  | .unknown | .hangup => False

/-- Some children make a reader believe a status: there is none and it is the default, or the
first one stands for it. -/
def Shows (children : List XmlChild) (status : XmppPresenceConnectionStatus) : Prop :=
  (firstStatus children = none ∧ status = .connected) ∨
    ∃ con, firstStatus children = some con ∧ StandsFor con status

theorem readStatus_iff (children : List XmlChild) {status : XmppPresenceConnectionStatus}
    (h : status = .connecting ∨ status = .connected) :
    readStatus children = status ↔ Shows children status := by
  unfold Shows
  cases hfirst : firstStatus children with
  | none =>
    rw [readStatus_of_none hfirst]
    simp [eq_comm]
  | some con =>
    rw [readStatus_of_some hfirst]
    simp only [reduceCtorEq, false_and, false_or, Option.some.injEq, exists_eq_left']
    have hapart : STR_PSTN_CONFERENCE_STATUS_CONNECTED ≠ STR_PSTN_CONFERENCE_STATUS_CONNECTING ∧
        STR_PSTN_CONFERENCE_STATUS_CONNECTED ≠ STR_PSTN_CONFERENCE_STATUS_HANGUP := by decide
    rcases h with rfl | rfl
    · show _ ↔ con.attr QN_ATTR_STATUS = STR_PSTN_CONFERENCE_STATUS_CONNECTING
      by_cases hconnecting : con.attr QN_ATTR_STATUS = STR_PSTN_CONFERENCE_STATUS_CONNECTING
      · simp [hconnecting]
      · rw [if_neg hconnecting]
        refine iff_of_false ?_ hconnecting
        split
        · decide
        · split <;> decide
    · show _ ↔ con.attr QN_ATTR_STATUS ≠ STR_PSTN_CONFERENCE_STATUS_CONNECTING ∧
        con.attr QN_ATTR_STATUS ≠ STR_PSTN_CONFERENCE_STATUS_HANGUP
      by_cases hconnecting : con.attr QN_ATTR_STATUS = STR_PSTN_CONFERENCE_STATUS_CONNECTING
      · simp [hconnecting]
      · rw [if_neg hconnecting]
        by_cases hconnected : con.attr QN_ATTR_STATUS = STR_PSTN_CONFERENCE_STATUS_CONNECTED
        · rw [if_pos hconnected, hconnected]
          exact iff_of_true rfl hapart
        · rw [if_neg hconnected]
          by_cases hhangup : con.attr QN_ATTR_STATUS = STR_PSTN_CONFERENCE_STATUS_HANGUP
          · simp [hhangup]
          · simp [hconnecting, hhangup]

/-- A user that is in a room. -/
def inRoom : XmppChatroomModuleImpl :=
  ⟨false, ⟨str "room", str "conference", []⟩, str "me", .inRoom, [], 0⟩

/-- A parser in the stream of a client. -/
def clientParser : XmppStanzaParser :=
  { XmppStanzaParser.init with context := ⟨clientStack, .none⟩, expatUsed := true, depth := 1 }

theorem inStream_client : InStream clientParser clientStack := ⟨rfl, rfl, rfl⟩

/-- "connecting" is read as "connected". -/
theorem connecting_lost : ¬ Survives inRoom .ok clientStack clientParser (str "stream:stream")
    .connecting [] [] [] := by
  rw [survives_iff_read rfl (by decide) .ok namedPrefixes_client inStream_client _ (by decide)]
  decide

/-- A connection status survives the wire exactly if a server has put in front of it what shows
the same status, or nothing and the status is "connected". -/
theorem connection_status_iff {m : XmppChatroomModuleImpl} (hroom : m.chatroom_state_ = .inRoom)
    (hok : m.checkEnterChatroomStateOk = true) (engine : XmppReturnStatus) {ns : XmlnsStack}
    (hns : NamedPrefixes ns) {p : XmppStanzaParser} (hp : InStream p ns) (root : Str)
    {status : XmppPresenceConnectionStatus} (hstatus : status = .connecting ∨ status = .connected)
    (front between behind : List XmlChild) :
    Survives m engine ns p root status front between behind ↔
      Shows (front ++ between) status := by
  have hknown : status ≠ .unknown := by
    rcases hstatus with rfl | rfl <;> decide
  rw [survives_iff_read hroom hok engine hns hp root hknown, readStatus_iff _ hstatus]

/-- "connected" in the stream of a client. -/
theorem connection_status_connected :
    Survives inRoom .ok clientStack clientParser (str "stream:stream") .connected [] [] [] ↔
      Shows ([] ++ []) .connected :=
  connection_status_iff rfl (by decide) .ok namedPrefixes_client inStream_client _ (Or.inr rfl)
    [] [] []

end Gxmpp
