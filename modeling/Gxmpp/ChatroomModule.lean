/-
`talk/xmpp/chatroommoduleimpl.cc`: one chatroom, as the stanzas of its server change it.

The module holds the state of the user in the room and the members of the room, a
`std::map` from the JID of a member to its presence. `HandleStanza` sends nothing: what
it does is to change the two and to tell the `XmppChatroomHandler`, whose calls are
listed as `ChatroomCallback`. An iq from the room is claimed and changes nothing.
-/
import Gxmpp.RosterModule

set_option autoImplicit false

namespace Gxmpp

/-! ## Names -/

def NS_GOOGLE_SESSION : Str := str "http://www.google.com/session"
def NS_MUC_USER : Str := str "http://jabber.org/protocol/muc#user"

def QN_GOOGLE_SESSION_BLOCKED : QName := ⟨NS_GOOGLE_SESSION, str "blocked"⟩
def QN_GOOGLE_SESSION_BLOCKING : QName := ⟨NS_GOOGLE_SESSION, str "blocking"⟩
def QN_MUC_USER_X : QName := ⟨NS_MUC_USER, str "x"⟩
def QN_MUC_USER_STATUS : QName := ⟨NS_MUC_USER, str "status"⟩

/-! ## Enumerations -/

/-- `XmppChatroomState`. -/
inductive XmppChatroomState where
  | notInRoom
  | requestedEnter
  | inRoom
  | requestedExit
deriving DecidableEq

/-- `XmppChatroomEnteredStatus`. -/
inductive XmppChatroomEnteredStatus where
  | success
  | nicknameConflict
  | passwordRequired
  | passwordIncorrect
  | notAMember
  | memberBanned
  | maxUsers
  | roomLocked
  | memberBlocked
  | memberBlocking
  | outdatedClient
  | unspecified
deriving DecidableEq

/-- `XmppChatroomExitedStatus`. -/
inductive XmppChatroomExitedStatus where
  | requested
  | banned
  | kicked
  | notAMember
  | systemShutdown
  | unspecified
deriving DecidableEq

/-- `TransitionType`. -/
inductive TransitionType where
  | none
  | enterSuccess
  | enterFailure
  | exitVoluntarily
  | exitInvoluntarily
deriving DecidableEq

/-- `StateTransitionDescription`. -/
structure StateTransitionDescription where
  old_state : XmppChatroomState
  new_state : XmppChatroomState
  is_valid_server_transition : Bool
  is_valid_client_transition : Bool
  transition_type : TransitionType

/-- `Transitions`. -/
def Transitions : List StateTransitionDescription :=
  [⟨.notInRoom, .requestedEnter, false, true, .none⟩,
    ⟨.notInRoom, .inRoom, false, false, .enterSuccess⟩,
    ⟨.notInRoom, .requestedExit, false, false, .none⟩,
    ⟨.requestedEnter, .notInRoom, true, false, .enterFailure⟩,
    ⟨.requestedEnter, .inRoom, true, false, .enterSuccess⟩,
    ⟨.requestedEnter, .requestedExit, false, false, .none⟩,
    ⟨.inRoom, .notInRoom, true, false, .exitInvoluntarily⟩,
    ⟨.inRoom, .requestedEnter, false, false, .none⟩,
    ⟨.inRoom, .requestedExit, false, true, .none⟩,
    ⟨.requestedExit, .notInRoom, true, false, .exitVoluntarily⟩,
    ⟨.requestedExit, .requestedEnter, false, false, .none⟩,
    ⟨.requestedExit, .inRoom, false, false, .none⟩]

/-- The functions of `XmppChatroomHandler`. A member is its presence. -/
inductive ChatroomCallback where
  | chatroomEnteredStatus (presence : XmppPresenceImpl) (status : XmppChatroomEnteredStatus)
  | chatroomExitedStatus (status : XmppChatroomExitedStatus)
  | memberEntered (entered_member : XmppPresenceImpl)
  | memberChanged (changed_member : XmppPresenceImpl)
  | memberExited (exited_member : XmppPresenceImpl)
  | messageReceived (message : XmlElement)

/-! ## The codes of the server -/

/-- `isspace` in the C locale. -/
def isspace (ch : UInt8) : Bool := ch = 0x20 || (0x09 ≤ ch && ch ≤ 0x0D)

/-- The digits at the start of a string, as a number. -/
def atoiDigits (s : Str) : Nat :=
  (s.takeWhile fun ch => 0x30 ≤ ch && ch ≤ 0x39).foldl (fun n ch => 10 * n + (ch.toNat - 0x30)) 0

/-- `atoi`. A number that does not fit into `int` has no defined value in the source, and
keeps its value here. -/
def atoi (s : Str) : Int :=
  match s.dropWhile isspace with
  | [] => 0
  | ch :: rest =>
    if ch = 0x2D then -(atoiDigits rest : Int)
    else if ch = 0x2B then atoiDigits rest
    else atoiDigits (ch :: rest)

/-- The cases of `GetEnterFailureFromXml`. -/
def enterFailureOfCode (error : XmlElement) (code : Int) : XmppChatroomEnteredStatus :=
  if code = 401 then .passwordRequired
  else if code = 403 then
    if (error.firstNamed QN_GOOGLE_SESSION_BLOCKED).isSome then .memberBlocked
    else if (error.firstNamed QN_GOOGLE_SESSION_BLOCKING).isSome then .memberBlocking
    else .memberBanned
  else if code = 405 then .roomLocked
  else if code = 406 then .outdatedClient
  else if code = 407 then .notAMember
  else if code = 409 then .nicknameConflict
  else if code = 503 then .maxUsers
  else .unspecified

/-- `XmppChatroomModuleImpl::GetEnterFailureFromXml`. -/
def getEnterFailureFromXml (presence : XmlElement) : XmppChatroomEnteredStatus :=
  match presence.firstNamed QN_ERROR with
  | none => .unspecified
  | some error =>
    if error.hasAttr QN_CODE then enterFailureOfCode error (atoi (error.attr QN_CODE))
    else .unspecified

/-- `XmppChatroomModuleImpl::GetExitFailureFromXml`. -/
def getExitFailureFromXml (presence : XmlElement) : XmppChatroomExitedStatus :=
  match (presence.firstNamed QN_MUC_USER_X).bind fun x => x.firstNamed QN_MUC_USER_STATUS with
  | none => .unspecified
  | some user_status =>
    let code := atoi (user_status.attr QN_CODE)
    if !user_status.hasAttr QN_CODE then .unspecified
    else if code = 307 then .kicked
    else if code = 322 then .notAMember
    else if code = 332 then .systemShutdown
    else .unspecified

/-! ## The members -/

/-- `Jid::operator<`, by `Jid::Compare`. -/
def Jid.lt (a b : Jid) : Bool :=
  a.node < b.node || (a.node = b.node &&
    (a.domain < b.domain || (a.domain = b.domain && a.resource < b.resource)))

/-- `std::map::insert` for a key that is not there. -/
def insertMember (jid : Jid) (member : XmppPresenceImpl) :
    List (Jid × XmppPresenceImpl) → List (Jid × XmppPresenceImpl)
  | [] => [(jid, member)]
  | e :: members =>
    if jid.lt e.1 then (jid, member) :: e :: members else e :: insertMember jid member members

/-! ## The module -/

/-- `XmppChatroomModuleImpl`. The chatroom handler is a boolean: only whether it is NULL
matters. The members are in the order of their JIDs. -/
structure XmppChatroomModuleImpl where
  chatroom_handler_ : Bool
  chatroom_jid_ : Jid
  nickname_ : Str
  chatroom_state_ : XmppChatroomState
  chatroom_jid_members_ : List (Jid × XmppPresenceImpl)
  chatroom_jid_members_version_ : Nat

namespace XmppChatroomModuleImpl

/-- `XmppChatroomModuleImpl::XmppChatroomModuleImpl`. -/
def init : XmppChatroomModuleImpl :=
  ⟨false, Jid.ofString STR_EMPTY, STR_EMPTY, .notInRoom, [], 0⟩

/-- What the chatroom handler is told, if there is one. -/
def fire (m : XmppChatroomModuleImpl) (cb : ChatroomCallback) : List ChatroomCallback :=
  if m.chatroom_handler_ then [cb] else []

/-- `XmppChatroomModuleImpl::member_jid`. -/
def memberJid (m : XmppChatroomModuleImpl) : Jid :=
  Jid.ofParts m.chatroom_jid_.node m.chatroom_jid_.domain m.nickname_

/-- `XmppChatroomModuleImpl::FireEnteredStatus`: `set_raw_xml` refuses what is no
presence. -/
def fireEnteredStatus (m : XmppChatroomModuleImpl) (presence : XmlElement)
    (status : XmppChatroomEnteredStatus) : List ChatroomCallback :=
  m.fire (.chatroomEnteredStatus ((XmppPresenceImpl.init.setRawXml presence).getD .init) status)

/-- The notification of `XmppChatroomModuleImpl::ChangePresence`. -/
def fireTransition (m : XmppChatroomModuleImpl) (presence : XmlElement) :
    TransitionType → List ChatroomCallback
  | .enterSuccess => m.fireEnteredStatus presence .success
  | .enterFailure => m.fireEnteredStatus presence (getEnterFailureFromXml presence)
  | .exitInvoluntarily => m.fire (.chatroomExitedStatus (getExitFailureFromXml presence))
  | .exitVoluntarily => m.fire (.chatroomExitedStatus .requested)
  | .none => []

/-- `XmppChatroomModuleImpl::ChangePresence`, for a change that comes from the server. -/
def changePresence (m : XmppChatroomModuleImpl) (new_state : XmppChatroomState)
    (presence : XmlElement) : XmppChatroomModuleImpl × List ChatroomCallback :=
  if m.chatroom_state_ = new_state then (m, [])
  else
    match Transitions.find? fun t => t.old_state = m.chatroom_state_ && t.new_state = new_state with
    | none => (m, [])
    -- a transition the server may not make is dropped
    | some transition_desc =>
      if !transition_desc.is_valid_server_transition then (m, [])
      else ({ m with chatroom_state_ := new_state },
        m.fireTransition presence transition_desc.transition_type)

/-- `XmppChatroomModuleImpl::ServerChangeMyPresence`. -/
def serverChangeMyPresence (m : XmppChatroomModuleImpl) (presence : XmlElement) :
    XmppChatroomModuleImpl × List ChatroomCallback :=
  m.changePresence (if presence.hasAttr QN_TYPE then .notInRoom else .inRoom) presence

/-- `XmppChatroomModuleImpl::ServerChangedOtherPresence`. -/
def serverChangedOtherPresence (m : XmppChatroomModuleImpl) (presence_element : XmlElement) :
    XmppChatroomModuleImpl × List ChatroomCallback :=
  match XmppPresenceImpl.init.setRawXml presence_element with
  | none => (m, [])
  | some presence =>
    let jid := presence.jid
    let version := m.chatroom_jid_members_version_ + 1
    match m.chatroom_jid_members_.find? fun e => e.1 = jid with
    | none =>
      -- somebody who is not there can only enter
      if presence.available = .available then
        ({ m with
            chatroom_jid_members_ := insertMember jid presence m.chatroom_jid_members_
            chatroom_jid_members_version_ := version },
          m.fire (.memberEntered presence))
      else (m, [])
    | some (_, member) =>
      if presence.available = .available then
        ({ m with
            chatroom_jid_members_ := m.chatroom_jid_members_.map fun e =>
              if e.1 = jid then (e.1, presence) else e
            chatroom_jid_members_version_ := version },
          m.fire (.memberChanged presence))
      else if presence.available = .unavailable then
        ({ m with
            chatroom_jid_members_ := m.chatroom_jid_members_.eraseP fun e => e.1 = jid
            chatroom_jid_members_version_ := version },
          m.fire (.memberExited member))
      else (m, [])

/-- `XmppChatroomModuleImpl::HandleStanza`. -/
def handleStanza (m : XmppChatroomModuleImpl) (stanza : XmlElement) :
    Handled XmppChatroomModuleImpl ChatroomCallback :=
  let from_jid := Jid.ofString (stanza.attr QN_FROM)
  if m.chatroom_jid_ ≠ from_jid.bareJid then ⟨m, [], [], false⟩
  else if stanza.name = QN_PRESENCE then
    -- the presence of the user itself moves the state, any other one the members
    let r := if from_jid = m.memberJid then m.serverChangeMyPresence stanza
      else m.serverChangedOtherPresence stanza
    ⟨r.1, r.2, [], true⟩
  else if stanza.name = QN_MESSAGE then ⟨m, m.fire (.messageReceived stanza), [], true⟩
  -- an iq from the room, or anything else: claimed, and nothing done
  else ⟨m, [], [], true⟩

end XmppChatroomModuleImpl

end Gxmpp
