/-
A chatroom module over whole runs: the application calls it and the server sends it stanzas,
in any order.

Two things are expected of it. The members are those of the room that is configured, and
outside of a room there are none; and only the stanzas of the configured room are claimed.
The first rests on the server: the members are changed by the presences of the others alone,
so they stay when the user leaves, and a presence that comes late makes a member although
the user is outside. The second fails while no room is configured, because the bare JID of a
sender that is no JID is the empty JID, which is also what is configured then.

`set_chatroom_jid` asks whether the JID is bare, not whether it is valid. The engine is a
parameter of a request: what its `SendStanza` returns, or that there is none.
-/
import Gxmpp.ChatroomModule
import Gxmpp.Engine
import Gxmpp.JidNormal
import Gxmpp.History

set_option autoImplicit false

namespace Gxmpp

/-! ## 1. The requests of the application -/

def NS_MUC : Str := str "http://jabber.org/protocol/muc"
def NS_GOOGLE_MUC_USER : Str := str "google:muc#user"

def QN_MUC_X : QName := ⟨NS_MUC, str "x"⟩
def QN_CLIENT_VERSION : QName := ⟨NS_GOOGLE_MUC_USER, str "client-version"⟩
def QN_LOCALE : QName := ⟨NS_GOOGLE_MUC_USER, str "locale"⟩

/-- `XmlElement::SetBodyText`. -/
def XmlElement.setBodyText (e : XmlElement) (text : Str) : XmlElement :=
  ({ e with children := [] } : XmlElement).addText text

/-- What a request comes to: the module after it, the stanzas it sends, and what it returns. -/
structure Requested where
  module : XmppChatroomModuleImpl
  sent : List XmlElement
  status : XmppReturnStatus

namespace XmppChatroomModuleImpl

/-- `XmppChatroomModuleImpl::set_chatroom_handler`. -/
def setChatroomHandler (m : XmppChatroomModuleImpl) (handler : Bool) :
    XmppChatroomModuleImpl × XmppReturnStatus :=
  ({ m with chatroom_handler_ := handler }, .ok)

/-- `XmppChatroomModuleImpl::set_chatroom_jid`. -/
def setChatroomJid (m : XmppChatroomModuleImpl) (chatroom_jid : Jid) :
    XmppChatroomModuleImpl × XmppReturnStatus :=
  if m.chatroom_state_ ≠ .notInRoom then (m, .badState)
  else if chatroom_jid ≠ chatroom_jid.bareJid then (m, .badArgument)
  else ({ m with chatroom_jid_ := chatroom_jid }, .ok)

/-- `XmppChatroomModuleImpl::set_nickname`. -/
def setNickname (m : XmppChatroomModuleImpl) (nickname : Str) :
    XmppChatroomModuleImpl × XmppReturnStatus :=
  if m.chatroom_state_ ≠ .notInRoom then (m, .badState)
  else ({ m with nickname_ := nickname }, .ok)

/-- `XmppChatroomModuleImpl::CheckEnterChatroomStateOk`. -/
def checkEnterChatroomStateOk (m : XmppChatroomModuleImpl) : Bool :=
  m.chatroom_jid_.isValid && m.nickname_ ≠ STR_EMPTY

/-- `XmppChatroomModuleImpl::ClientChangeMyPresence`, with `ChangePresence` for a change that
comes from the client. None of its transitions notifies the handler. -/
def clientChangeMyPresence (m : XmppChatroomModuleImpl) (new_state : XmppChatroomState) :
    XmppChatroomModuleImpl × XmppReturnStatus :=
  if m.chatroom_state_ = new_state then (m, .ok)
  else
    match Transitions.find? fun t => t.old_state = m.chatroom_state_ && t.new_state = new_state with
    | none => (m, .badState)
    | some transition_desc =>
      if transition_desc.is_valid_client_transition then
        ({ m with chatroom_state_ := new_state }, .ok)
      else (m, .badArgument)

/-- The presence of `RequestEnterChatroom`. -/
def enterPresence (m : XmppChatroomModuleImpl) (client_version locale : Str) : XmlElement :=
  let muc_x := XmlElement.new QN_MUC_X false
  let muc_x := if client_version.isEmpty then muc_x
    else muc_x.addElement ((XmlElement.new QN_CLIENT_VERSION false).setBodyText client_version)
  let muc_x := if locale.isEmpty then muc_x
    else muc_x.addElement ((XmlElement.new QN_LOCALE false).setBodyText locale)
  ((XmlElement.new QN_PRESENCE false).addAttr QN_TO m.memberJid.toStr).addElement muc_x

/-- The presence of `RequestExitChatroom`. -/
def exitPresence (m : XmppChatroomModuleImpl) : XmlElement :=
  ((XmlElement.new QN_PRESENCE false).addAttr QN_TO m.memberJid.toStr).addAttr QN_TYPE
    (str "unavailable")

/-- A presence is sent, and the state changed if the engine took it. -/
def request (m : XmppChatroomModuleImpl) (engine : XmppReturnStatus) (element : XmlElement)
    (new_state : XmppChatroomState) : Requested :=
  if engine = .ok then
    ⟨(m.clientChangeMyPresence new_state).1, [element], (m.clientChangeMyPresence new_state).2⟩
  else ⟨m, [element], engine⟩

/-- `XmppChatroomModuleImpl::RequestEnterChatroom`. The password is not used. -/
def requestEnterChatroom (m : XmppChatroomModuleImpl) (_password client_version locale : Str)
    (engine : Option XmppReturnStatus) : Requested :=
  match engine with
  | none => ⟨m, [], .badState⟩
  | some status =>
    if m.chatroom_state_ ≠ .notInRoom then ⟨m, [], .badState⟩
    else if !m.checkEnterChatroomStateOk then ⟨m, [], .badState⟩
    else m.request status (m.enterPresence client_version locale) .requestedEnter

/-- `XmppChatroomModuleImpl::RequestExitChatroom`. -/
def requestExitChatroom (m : XmppChatroomModuleImpl) (engine : Option XmppReturnStatus) :
    Requested :=
  match engine with
  | none => ⟨m, [], .badState⟩
  | some status =>
    if m.chatroom_state_ ≠ .inRoom then ⟨m, [], .badState⟩
    else m.request status m.exitPresence .requestedExit

end XmppChatroomModuleImpl

/-! ## 2. Runs -/

/-- What is done to a chatroom module. -/
inductive ChatroomOp where
  | setChatroomHandler (handler : Bool)
  | setChatroomJid (chatroom_jid : Jid)
  | setNickname (nickname : Str)
  | requestEnterChatroom (password client_version locale : Str) (engine : Option XmppReturnStatus)
  | requestExitChatroom (engine : Option XmppReturnStatus)
  | handleStanza (stanza : XmlElement)

namespace XmppChatroomModuleImpl

/-- The module after an operation. -/
def apply (m : XmppChatroomModuleImpl) : ChatroomOp → XmppChatroomModuleImpl
  | .setChatroomHandler handler => (m.setChatroomHandler handler).1
  | .setChatroomJid chatroom_jid => (m.setChatroomJid chatroom_jid).1
  | .setNickname nickname => (m.setNickname nickname).1
  | .requestEnterChatroom password client_version locale engine =>
    (m.requestEnterChatroom password client_version locale engine).module
  | .requestExitChatroom engine => (m.requestExitChatroom engine).module
  | .handleStanza stanza => (m.handleStanza stanza).module

/-- The module after some operations. -/
def applyAll (m : XmppChatroomModuleImpl) (ops : List ChatroomOp) : XmppChatroomModuleImpl :=
  ops.foldl apply m

theorem applyAll_snoc (m : XmppChatroomModuleImpl) (ops : List ChatroomOp) (op : ChatroomOp) :
    m.applyAll (ops ++ [op]) = (m.applyAll ops).apply op := by
  unfold applyAll
  rw [List.foldl_append]
  rfl

/-! ### What the operations do -/

/-- A request changes the state at most, and does not lead out of the room. -/
structure SameMembers (m m' : XmppChatroomModuleImpl) : Prop where
  chatroom_jid_ : m'.chatroom_jid_ = m.chatroom_jid_
  members : m'.chatroom_jid_members_ = m.chatroom_jid_members_
  outside : m'.chatroom_state_ = .notInRoom → m.chatroom_state_ = .notInRoom

theorem SameMembers.refl (m : XmppChatroomModuleImpl) : SameMembers m m := ⟨rfl, rfl, id⟩

theorem clientChange_same (m : XmppChatroomModuleImpl) {new_state : XmppChatroomState}
    (hnew : new_state ≠ .notInRoom) : SameMembers m (m.clientChangeMyPresence new_state).1 := by
  unfold clientChangeMyPresence
  by_cases hsame : m.chatroom_state_ = new_state
  · rw [if_pos hsame]
    exact .refl m
  · rw [if_neg hsame]
    split
    · exact .refl m
    · split
      · exact ⟨rfl, rfl, fun h => absurd h hnew⟩
      · exact .refl m

theorem request_same (m : XmppChatroomModuleImpl) (engine : XmppReturnStatus) (element : XmlElement)
    {new_state : XmppChatroomState} (hnew : new_state ≠ .notInRoom) :
    SameMembers m (m.request engine element new_state).module := by
  unfold request
  by_cases hok : engine = .ok
  · rw [if_pos hok]
    exact m.clientChange_same hnew
  · rw [if_neg hok]
    exact .refl m

theorem requestEnter_same (m : XmppChatroomModuleImpl) (password client_version locale : Str)
    (engine : Option XmppReturnStatus) :
    SameMembers m (m.requestEnterChatroom password client_version locale engine).module := by
  unfold requestEnterChatroom
  cases engine with
  | none => exact .refl m
  | some status =>
    by_cases hstate : m.chatroom_state_ ≠ .notInRoom
    · simp only [if_pos hstate]
      exact .refl m
    · simp only [if_neg hstate]
      by_cases hcheck : (!m.checkEnterChatroomStateOk) = true
      · rw [if_pos hcheck]
        exact .refl m
      · rw [if_neg hcheck]
        exact m.request_same status _ (by decide)

theorem requestExit_same (m : XmppChatroomModuleImpl) (engine : Option XmppReturnStatus) :
    SameMembers m (m.requestExitChatroom engine).module := by
  unfold requestExitChatroom
  cases engine with
  | none => exact .refl m
  | some status =>
    by_cases hstate : m.chatroom_state_ ≠ .inRoom
    · simp only [if_pos hstate]
      exact .refl m
    · simp only [if_neg hstate]
      exact m.request_same status _ (by decide)

/-- The state after the user's own presence. One with a type leads out of the room. -/
def ownState (m : XmppChatroomModuleImpl) (presence : XmlElement) : XmppChatroomState :=
  if presence.hasAttr QN_TYPE then .notInRoom
  else if m.chatroom_state_ = .requestedEnter then .inRoom else m.chatroom_state_

/-- The user's own presence changes the state alone. -/
theorem serverChange_state (m : XmppChatroomModuleImpl) (presence : XmlElement) :
    (m.serverChangeMyPresence presence).1
      = { m with chatroom_state_ := m.ownState presence } := by
  obtain ⟨handler, jid, nickname, state, members, version⟩ := m
  unfold serverChangeMyPresence ownState
  cases presence.hasAttr QN_TYPE <;> cases state <;> rfl

/-- What a presence of another does to the members. -/
inductive OtherStep (m : XmppChatroomModuleImpl) (presence : XmppPresenceImpl) :
    List (Jid × XmppPresenceImpl) → Prop
  | entered (hfree : ∀ e ∈ m.chatroom_jid_members_, e.1 ≠ presence.jid)
      (havailable : presence.available = .available) :
      OtherStep m presence (insertMember presence.jid presence m.chatroom_jid_members_)
  | changed (hfound : ∃ e ∈ m.chatroom_jid_members_, e.1 = presence.jid)
      (havailable : presence.available = .available) :
      OtherStep m presence (m.chatroom_jid_members_.map fun e =>
        if e.1 = presence.jid then (e.1, presence) else e)
  | exited (hfound : ∃ e ∈ m.chatroom_jid_members_, e.1 = presence.jid)
      (havailable : presence.available = .unavailable) :
      OtherStep m presence (m.chatroom_jid_members_.eraseP fun e => e.1 = presence.jid)
  | left (havailable : presence.available ≠ .available) :
      OtherStep m presence m.chatroom_jid_members_

theorem otherPresence_step (m : XmppChatroomModuleImpl) {stanza : XmlElement}
    (hname : stanza.name = QN_PRESENCE) :
    OtherStep m ⟨some stanza⟩ (m.serverChangedOtherPresence stanza).1.chatroom_jid_members_
      ∧ (m.serverChangedOtherPresence stanza).1.chatroom_jid_ = m.chatroom_jid_
      ∧ (m.serverChangedOtherPresence stanza).1.chatroom_state_ = m.chatroom_state_ := by
  have hset : XmppPresenceImpl.init.setRawXml stanza = some ⟨some stanza⟩ :=
    if_neg (not_not_intro hname)
  unfold serverChangedOtherPresence
  rw [hset]
  dsimp only
  generalize (⟨some stanza⟩ : XmppPresenceImpl) = presence
  cases hfind : m.chatroom_jid_members_.find? fun e => e.1 = presence.jid with
  | none =>
    have hfree : ∀ e ∈ m.chatroom_jid_members_, e.1 ≠ presence.jid := fun e he heq =>
      List.find?_eq_none.1 hfind e he (decide_eq_true heq)
    by_cases havailable : presence.available = .available
    · rw [if_pos havailable]
      exact ⟨.entered hfree havailable, rfl, rfl⟩
    · rw [if_neg havailable]
      exact ⟨.left havailable, rfl, rfl⟩
  | some e =>
    obtain ⟨jid, member⟩ := e
    have hjid := List.find?_some
      (p := fun e : Jid × XmppPresenceImpl => decide (e.1 = presence.jid))
      hfind
    have hfound : ∃ x ∈ m.chatroom_jid_members_, x.1 = presence.jid :=
      ⟨(jid, member), List.mem_of_find?_eq_some hfind, of_decide_eq_true hjid⟩
    dsimp only
    by_cases havailable : presence.available = .available
    · rw [if_pos havailable]
      exact ⟨.changed hfound havailable, rfl, rfl⟩
    · by_cases hunavailable : presence.available = .unavailable
      · rw [if_neg havailable, if_pos hunavailable]
        exact ⟨.exited hfound hunavailable, rfl, rfl⟩
      · rw [if_neg havailable, if_neg hunavailable]
        exact ⟨.left havailable, rfl, rfl⟩

theorem handleStanza_room (m : XmppChatroomModuleImpl) (stanza : XmlElement) :
    (m.handleStanza stanza).module.chatroom_jid_ = m.chatroom_jid_ := by
  unfold handleStanza
  dsimp only
  split
  · rfl
  · split
    · rename_i hname
      dsimp only
      split
      · rw [serverChange_state]
      · exact (m.otherPresence_step hname).2.1
    · split <;> rfl

end XmppChatroomModuleImpl

open XmppChatroomModuleImpl

/-! ## 3. The members -/

/-- The members are of the configured room, and there are none outside of a room. -/
structure Membership (m : XmppChatroomModuleImpl) : Prop where
  members : ∀ e ∈ m.chatroom_jid_members_, e.1 = e.2.jid ∧ e.1.bareJid = m.chatroom_jid_
  outside : m.chatroom_state_ = .notInRoom → m.chatroom_jid_members_ = []

/-- An operation that keeps the members right: the user does not leave a room that has
members, and no other becomes available while the user is outside. -/
def KeepsMembers (m : XmppChatroomModuleImpl) : ChatroomOp → Prop
  | .handleStanza stanza =>
    m.chatroom_jid_ = (Jid.ofString (stanza.attr QN_FROM)).bareJid → stanza.name = QN_PRESENCE →
      if Jid.ofString (stanza.attr QN_FROM) = m.memberJid then
        stanza.hasAttr QN_TYPE = true → m.chatroom_jid_members_ = []
      else
        m.chatroom_state_ = .notInRoom →
          XmppPresenceImpl.available ⟨some stanza⟩ ≠ .available
  | _ => True

theorem XmppChatroomModuleImpl.SameMembers.membership {m m' : XmppChatroomModuleImpl}
    (h : SameMembers m m')
    (hm : Membership m) : Membership m' where
  members := by
    rw [h.members, h.chatroom_jid_]
    exact hm.members
  outside := fun hout => h.members.trans (hm.outside (h.outside hout))

theorem mem_insertMember {jid : Jid} {member : XmppPresenceImpl}
    {members : List (Jid × XmppPresenceImpl)} {e : Jid × XmppPresenceImpl}
    (h : e ∈ insertMember jid member members) : e = (jid, member) ∨ e ∈ members := by
  induction members with
  | nil => exact Or.inl (List.mem_singleton.1 h)
  | cons x members ih =>
    unfold insertMember at h
    by_cases hlt : jid.lt x.1 = true
    · rw [if_pos hlt] at h
      exact List.mem_cons.1 h
    · rw [if_neg hlt] at h
      rcases List.mem_cons.1 h with hx | hrest
      · exact Or.inr (hx ▸ List.mem_cons_self)
      · rcases ih hrest with heq | hmem
        · exact Or.inl heq
        · exact Or.inr (List.mem_cons_of_mem x hmem)

/-- A presence of another makes no member of another room. -/
theorem XmppChatroomModuleImpl.OtherStep.members {m : XmppChatroomModuleImpl}
    {presence : XmppPresenceImpl} {members : List (Jid × XmppPresenceImpl)}
    (h : OtherStep m presence members) (hroom : presence.jid.bareJid = m.chatroom_jid_)
    (hm : ∀ e ∈ m.chatroom_jid_members_, e.1 = e.2.jid ∧ e.1.bareJid = m.chatroom_jid_) :
    ∀ e ∈ members, e.1 = e.2.jid ∧ e.1.bareJid = m.chatroom_jid_ := by
  intro e he
  cases h with
  | entered hfree havailable =>
    rcases mem_insertMember he with rfl | he
    · exact ⟨rfl, hroom⟩
    · exact hm e he
  | changed hfound havailable =>
    obtain ⟨x, hx, rfl⟩ := List.mem_map.1 he
    by_cases hjid : x.1 = presence.jid
    · rw [if_pos hjid]
      exact ⟨hjid, (hm x hx).2⟩
    · rw [if_neg hjid]
      exact hm x hx
  | exited hfound hunavailable => exact hm e (List.mem_of_mem_eraseP he)
  | left havailable => exact hm e he

/-- Outside of a room nobody is found, so there are still no members unless the other is
available. -/
theorem XmppChatroomModuleImpl.OtherStep.outside {m : XmppChatroomModuleImpl}
    {presence : XmppPresenceImpl} {members : List (Jid × XmppPresenceImpl)}
    (h : OtherStep m presence members) (hempty : m.chatroom_jid_members_ = []) :
    members = [] ↔ presence.available ≠ .available := by
  have hnone : ¬ ∃ e ∈ m.chatroom_jid_members_, e.1 = presence.jid := by
    rw [hempty]
    rintro ⟨e, he, -⟩
    exact absurd he List.not_mem_nil
  cases h with
  | entered hfree havailable =>
    rw [hempty]
    exact iff_of_false (List.cons_ne_nil _ _) (not_not_intro havailable)
  | changed hfound | exited hfound => exact absurd hfound hnone
  | left havailable => exact iff_of_true hempty havailable

/-- What a stanza does to the members. -/
theorem handleStanza_membership {m : XmppChatroomModuleImpl} (hm : Membership m)
    (stanza : XmlElement) :
    Membership (m.handleStanza stanza).module ↔ KeepsMembers m (.handleStanza stanza) := by
  unfold handleStanza KeepsMembers
  dsimp only
  by_cases hroom : m.chatroom_jid_ = (Jid.ofString (stanza.attr QN_FROM)).bareJid
  · rw [if_neg (not_not_intro hroom)]
    by_cases hname : stanza.name = QN_PRESENCE
    · rw [if_pos hname]
      dsimp only
      by_cases hself : Jid.ofString (stanza.attr QN_FROM) = m.memberJid
      · -- the user's own presence
        rw [if_pos hself, if_pos hself, serverChange_state]
        unfold ownState
        by_cases htype : stanza.hasAttr QN_TYPE = true
        · rw [if_pos htype]
          constructor
          · exact fun h _ _ _ => h.outside rfl
          · exact fun h => ⟨hm.members, fun _ => h hroom hname htype⟩
        · rw [if_neg htype]
          refine iff_of_true ⟨hm.members, ?_⟩ fun _ _ h => absurd h htype
          by_cases hstate : m.chatroom_state_ = .requestedEnter
          · rw [if_pos hstate]
            exact fun h => nomatch h
          · rw [if_neg hstate]
            exact hm.outside
      -- a presence of another may make a member, and the state of the room is not looked at
      · rw [if_neg hself, if_neg hself]
        obtain ⟨hstep, hjid, hstate⟩ := m.otherPresence_step hname
        have hmembers := hstep.members hroom.symm hm.members
        constructor
        · intro h _ _ hout
          exact (hstep.outside (hm.outside hout)).1 (h.outside (hstate.trans hout))
        · intro h
          refine ⟨?_, fun hout => ?_⟩
          · rw [hjid]
            exact hmembers
          · have hout' := hstate.symm.trans hout
            exact (hstep.outside (hm.outside hout')).2 (h hroom hname hout')
    · rw [if_neg hname]
      have hkeeps : Membership (if stanza.name = QN_MESSAGE then
          (⟨m, m.fire (.messageReceived stanza), [], true⟩ : Handled _ _)
          else ⟨m, [], [], true⟩).module := by
        split <;> exact hm
      exact iff_of_true hkeeps fun _ h => absurd h hname
  · rw [if_pos hroom]
    exact iff_of_true hm fun h => absurd h hroom

/-- An operation after which the members are right. -/
theorem apply_membership {m : XmppChatroomModuleImpl} (hm : Membership m) (op : ChatroomOp) :
    Membership (m.apply op) ↔ KeepsMembers m op := by
  cases op with
  | setChatroomHandler handler => exact iff_of_true ⟨hm.members, hm.outside⟩ trivial
  | setChatroomJid chatroom_jid =>
    refine iff_of_true ?_ trivial
    show Membership (m.setChatroomJid chatroom_jid).1
    unfold setChatroomJid
    by_cases hstate : m.chatroom_state_ ≠ .notInRoom
    · rw [if_pos hstate]
      exact hm
    · rw [if_neg hstate]
      by_cases hbare : chatroom_jid ≠ chatroom_jid.bareJid
      · rw [if_pos hbare]
        exact hm
      · -- outside of a room there is no member of the room before
        rw [if_neg hbare]
        have hempty := hm.outside (not_not.1 hstate)
        refine ⟨fun e he => ?_, hm.outside⟩
        have he' : e ∈ m.chatroom_jid_members_ := he
        rw [hempty] at he'
        exact absurd he' List.not_mem_nil
  | setNickname nickname =>
    refine iff_of_true ?_ trivial
    show Membership (m.setNickname nickname).1
    unfold setNickname
    by_cases hstate : m.chatroom_state_ ≠ .notInRoom
    · rw [if_pos hstate]
      exact hm
    · rw [if_neg hstate]
      exact ⟨hm.members, hm.outside⟩
  | requestEnterChatroom password client_version locale engine =>
    exact iff_of_true ((m.requestEnter_same password client_version locale engine).membership hm)
      trivial
  | requestExitChatroom engine =>
    exact iff_of_true ((m.requestExit_same engine).membership hm) trivial
  | handleStanza stanza => exact handleStanza_membership hm stanza

/-- The members are those of the configured room all the time, and none outside of a room,
exactly when every operation keeps them so. -/
theorem chatroom_membership (ops : List ChatroomOp) :
    (∀ done, done <+: ops → Membership (XmppChatroomModuleImpl.init.applyAll done)) ↔
      ∀ done op, done ++ [op] <+: ops →
        KeepsMembers (XmppChatroomModuleImpl.init.applyAll done) op := by
  refine History.always_iff ?_ ?_ ops
  · exact ⟨fun e he => absurd he List.not_mem_nil, fun _ => rfl⟩
  · intro done op hmembership
    rw [applyAll_snoc]
    exact apply_membership hmembership op

/-- A presence. -/
def presenceOf (from' : Str) (type : Option Str) : XmlElement :=
  let e := (XmlElement.new QN_PRESENCE false).addAttr QN_FROM from'
  match type with
  | none => e
  | some t => e.addAttr QN_TYPE t

/-- The user enters a room with another member and leaves it. -/
def enterAndLeave : List ChatroomOp :=
  [.setChatroomJid (Jid.ofString (str "r@c")), .setNickname (str "me"),
    .requestEnterChatroom [] [] [] (some .ok), .handleStanza (presenceOf (str "r@c/you") none),
    .handleStanza (presenceOf (str "r@c/me") none), .requestExitChatroom (some .ok),
    .handleStanza (presenceOf (str "r@c/me") (some (str "unavailable")))]

/-- The other is still a member. -/
theorem chatroom_membership_fails : ¬ ∀ ops : List ChatroomOp,
    Membership (XmppChatroomModuleImpl.init.applyAll ops) := by
  intro h
  have hempty := (h enterAndLeave).outside (by decide)
  have hlength : (XmppChatroomModuleImpl.init.applyAll enterAndLeave).chatroom_jid_members_.length
    = 1 := by
    decide
  rw [hempty] at hlength
  exact absurd hlength (by decide)

/-! ## 4. Only its room -/

/-- A stanza is claimed, changes the members or is told of only if it comes from the
configured room, and that is a valid JID. -/
def ClaimsOwn (m : XmppChatroomModuleImpl) (stanza : XmlElement) : Prop :=
  (m.handleStanza stanza).result = true
      ∨ (m.handleStanza stanza).module.chatroom_jid_members_ ≠ m.chatroom_jid_members_
      ∨ (m.handleStanza stanza).told ≠ [] →
    m.chatroom_jid_.isValid = true
      ∧ (Jid.ofString (stanza.attr QN_FROM)).bareJid = m.chatroom_jid_

/-- The configured JID is bare. -/
theorem room_bare (ops : List ChatroomOp) :
    (XmppChatroomModuleImpl.init.applyAll ops).chatroom_jid_.bareJid
      = (XmppChatroomModuleImpl.init.applyAll ops).chatroom_jid_ := by
  induction ops using List.reverseRecOn with
  | nil => decide
  | append_singleton ops op ih =>
    rw [applyAll_snoc]
    generalize XmppChatroomModuleImpl.init.applyAll ops = m at ih ⊢
    cases op with
    | setChatroomHandler handler => exact ih
    | setChatroomJid chatroom_jid =>
      show (m.setChatroomJid chatroom_jid).1.chatroom_jid_.bareJid
        = (m.setChatroomJid chatroom_jid).1.chatroom_jid_
      unfold setChatroomJid
      by_cases hstate : m.chatroom_state_ ≠ .notInRoom
      · rw [if_pos hstate]
        exact ih
      -- the setter takes bare JIDs only
      · rw [if_neg hstate]
        by_cases hbare : chatroom_jid ≠ chatroom_jid.bareJid
        · rw [if_pos hbare]
          exact ih
        · rw [if_neg hbare]
          exact (not_not.1 hbare).symm
    | setNickname nickname =>
      show (m.setNickname nickname).1.chatroom_jid_.bareJid
        = (m.setNickname nickname).1.chatroom_jid_
      unfold setNickname
      split <;> exact ih
    | requestEnterChatroom password client_version locale engine =>
      have hsame := (m.requestEnter_same password client_version locale engine).chatroom_jid_
      exact (congrArg Jid.bareJid hsame).trans (ih.trans hsame.symm)
    | requestExitChatroom engine =>
      have hsame := (m.requestExit_same engine).chatroom_jid_
      exact (congrArg Jid.bareJid hsame).trans (ih.trans hsame.symm)
    | handleStanza stanza =>
      have hsame : (m.handleStanza stanza).module.chatroom_jid_ = m.chatroom_jid_ :=
        m.handleStanza_room stanza
      exact (congrArg Jid.bareJid hsame).trans (ih.trans hsame.symm)

/-- Only stanzas of the room are claimed exactly when the room is a valid JID or the sender
is one: the bare JID of anything else is the empty JID, and so is a room that is not
configured. -/
theorem chatroom_claims (ops : List ChatroomOp) (stanza : XmlElement) :
    ClaimsOwn (XmppChatroomModuleImpl.init.applyAll ops) stanza ↔
      (XmppChatroomModuleImpl.init.applyAll ops).chatroom_jid_.isValid = true
        ∨ (Jid.ofString (stanza.attr QN_FROM)).isValid = true := by
  have hbare := room_bare ops
  generalize XmppChatroomModuleImpl.init.applyAll ops = m at hbare ⊢
  unfold ClaimsOwn
  by_cases hroom : m.chatroom_jid_ = (Jid.ofString (stanza.attr QN_FROM)).bareJid
  · have hresult : (m.handleStanza stanza).result = true := by
      unfold handleStanza
      dsimp only
      rw [if_neg (not_not_intro hroom)]
      split
      · rfl
      · split <;> rfl
    constructor
    · exact fun h => Or.inl (h (Or.inl hresult)).1
    · rintro (hvalid | hvalid) -
      · exact ⟨hvalid, hroom.symm⟩
      · refine ⟨?_, hroom.symm⟩
        have hprep : Jid.Prepared (Jid.ofString (stanza.attr QN_FROM)) :=
          Jid.Prepared.of_valid (a := .text _) hvalid
        rw [hroom, hprep.bareJid_eq hvalid]
        exact hvalid
  · -- the stanza is left alone
    have hleft : m.handleStanza stanza = ⟨m, [], [], false⟩ := if_pos hroom
    rw [hleft]
    refine iff_of_true ?_ ?_
    · rintro (h | h | h)
      · cases h
      · exact absurd rfl h
      · exact absurd rfl h
    · by_cases hvalid : m.chatroom_jid_.isValid = true
      · exact Or.inl hvalid
      · refine Or.inr ?_
        by_cases hsender : (Jid.ofString (stanza.attr QN_FROM)).isValid = true
        · exact hsender
        · refine absurd ?_ hroom
          rw [← hbare]
          unfold Jid.bareJid
          rw [if_pos (by simp [hvalid]), if_pos (by simp [hsender])]

/-- A message without a sender is claimed by a module without a room. -/
theorem chatroom_claims_unsent : ¬ ∀ (ops : List ChatroomOp) (stanza : XmlElement),
    ClaimsOwn (XmppChatroomModuleImpl.init.applyAll ops) stanza := by
  intro h
  have hclaims := h [] (XmlElement.new QN_MESSAGE false) (Or.inl (by decide))
  exact absurd hclaims.1 (by decide)

end Gxmpp
