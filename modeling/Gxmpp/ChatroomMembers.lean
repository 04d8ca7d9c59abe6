/-
The members of a chatroom as its handler sees them.

A handler is told of every change of the members, so a map that follows its calls is the map of
the module (`members_mirrored`). What an operation does to the members and what a handler is
told of it are one inductive, `MemberStep`; whether there is a handler is left out of it
(`tells`), since the members do not depend on that.
-/
import Gxmpp.ChatroomRuns
import Gxmpp.SortedMap

set_option autoImplicit false

namespace Gxmpp

open XmppChatroomModuleImpl SortedMap

/-! ## 1. The order of the JIDs -/

theorem Jid.lt_iff (a b : Jid) : a.lt b = true ↔
    a.node < b.node ∨ a.node = b.node ∧
      (a.domain < b.domain ∨ a.domain = b.domain ∧ a.resource < b.resource) := by
  unfold Jid.lt
  simp only [Bool.or_eq_true, Bool.and_eq_true, decide_eq_true_eq]

/-- Strings are in an order. -/
theorem Str.lt_or_eq_or_gt (s t : Str) : s < t ∨ s = t ∨ t < s := by
  by_cases h : s < t
  · exact Or.inl h
  · by_cases h' : t < s
    · exact Or.inr (Or.inr h')
    · exact Or.inr (Or.inl (List.le_antisymm h' h))

instance : IsStrictTotalOrder Jid fun a b => a.lt b = true where
  irrefl a h := by
    rcases (Jid.lt_iff a a).1 h with h | ⟨-, h | ⟨-, h⟩⟩ <;> exact List.lt_irrefl _ h
  trans a b c hab hbc := by
    rw [Jid.lt_iff] at hab hbc ⊢
    rcases hab with hab | ⟨hn, hab⟩
    · rcases hbc with hbc | ⟨hn', -⟩
      · exact Or.inl (List.lt_trans hab hbc)
      · exact Or.inl (hn' ▸ hab)
    · rcases hbc with hbc | ⟨hn', hbc⟩
      · exact Or.inl (hn ▸ hbc)
      · refine Or.inr ⟨hn.trans hn', ?_⟩
        rcases hab with hab | ⟨hd, hab⟩
        · rcases hbc with hbc | ⟨hd', -⟩
          · exact Or.inl (List.lt_trans hab hbc)
          · exact Or.inl (hd' ▸ hab)
        · rcases hbc with hbc | ⟨hd', hbc⟩
          · exact Or.inl (hd ▸ hbc)
          · exact Or.inr ⟨hd.trans hd', List.lt_trans hab hbc⟩
  trichotomous a b hab hba := by
    rw [Jid.lt_iff] at hab hba
    rcases Str.lt_or_eq_or_gt a.node b.node with hn | hn | hn
    · exact absurd (Or.inl hn) hab
    · rcases Str.lt_or_eq_or_gt a.domain b.domain with hd | hd | hd
      · exact absurd (Or.inr ⟨hn, Or.inl hd⟩) hab
      · rcases Str.lt_or_eq_or_gt a.resource b.resource with hr | hr | hr
        · exact absurd (Or.inr ⟨hn, Or.inr ⟨hd, hr⟩⟩) hab
        · cases a
          cases b
          simp_all
        · exact absurd (Or.inr ⟨hn.symm, Or.inr ⟨hd.symm, hr⟩⟩) hba
      · exact absurd (Or.inr ⟨hn.symm, Or.inl hd⟩) hba
    · exact absurd (Or.inl hn) hba

theorem insertMember_eq (jid : Jid) (member : XmppPresenceImpl)
    (members : List (Jid × XmppPresenceImpl)) :
    insertMember jid member members = SortedMap.insert Jid.lt jid member members := by
  induction members with
  | nil => rfl
  | cons e members ih =>
    unfold insertMember SortedMap.insert
    rw [ih]

/-! ## 2. What the handler is told -/

/-- A call of the handler that is about a member. -/
def ChatroomCallback.isMember : ChatroomCallback → Bool
  | .memberEntered _ | .memberChanged _ | .memberExited _ => true
  | .chatroomEnteredStatus _ _ | .chatroomExitedStatus _ | .messageReceived _ => false

namespace XmppChatroomModuleImpl

/-- What the handler is told in an operation. The requests tell it nothing. -/
def told (m : XmppChatroomModuleImpl) : ChatroomOp → List ChatroomCallback
  | .handleStanza stanza => (m.handleStanza stanza).told
  | _ => []

/-- What a handler is told, or would be if there were one. -/
def tells (m : XmppChatroomModuleImpl) (op : ChatroomOp) : List ChatroomCallback :=
  told { m with chatroom_handler_ := true } op

/-- An operation and the members: what becomes of them, and what a handler is told. -/
inductive MemberStep (m : XmppChatroomModuleImpl) :
    XmppChatroomModuleImpl → List ChatroomCallback → Prop
  | same {m' : XmppChatroomModuleImpl} {cbs : List ChatroomCallback}
      (hmembers : m'.chatroom_jid_members_ = m.chatroom_jid_members_)
      (hversion : m'.chatroom_jid_members_version_ = m.chatroom_jid_members_version_)
      (hcbs : ∀ cb ∈ cbs, cb.isMember = false) : MemberStep m m' cbs
  | entered (presence : XmppPresenceImpl)
      (hfree : ∀ e ∈ m.chatroom_jid_members_, e.1 ≠ presence.jid) :
      MemberStep m { m with
        chatroom_jid_members_ := insertMember presence.jid presence m.chatroom_jid_members_
        chatroom_jid_members_version_ := m.chatroom_jid_members_version_ + 1 }
        [.memberEntered presence]
  | changed (presence : XmppPresenceImpl)
      (hfound : ∃ e ∈ m.chatroom_jid_members_, e.1 = presence.jid) :
      MemberStep m { m with
        chatroom_jid_members_ := replace presence.jid presence m.chatroom_jid_members_
        chatroom_jid_members_version_ := m.chatroom_jid_members_version_ + 1 }
        [.memberChanged presence]
  | exited (jid : Jid) (member : XmppPresenceImpl)
      (hfound : (jid, member) ∈ m.chatroom_jid_members_) :
      MemberStep m { m with
        chatroom_jid_members_ := erase jid m.chatroom_jid_members_
        chatroom_jid_members_version_ := m.chatroom_jid_members_version_ + 1 }
        [.memberExited member]

/-- A presence of another. -/
theorem otherPresence_members (m : XmppChatroomModuleImpl) (stanza : XmlElement) :
    MemberStep m (m.serverChangedOtherPresence stanza).1
      (serverChangedOtherPresence { m with chatroom_handler_ := true } stanza).2 := by
  unfold serverChangedOtherPresence
  cases XmppPresenceImpl.init.setRawXml stanza with
  | none => exact .same rfl rfl (by simp)
  | some presence =>
    dsimp only
    cases hfind : m.chatroom_jid_members_.find? fun e => e.1 = presence.jid with
    | none =>
      by_cases havailable : presence.available = .available
      · rw [if_pos havailable, if_pos havailable]
        refine .entered presence fun e he heq => ?_
        exact List.find?_eq_none.1 hfind e he (decide_eq_true heq)
      · rw [if_neg havailable, if_neg havailable]
        exact .same rfl rfl (by simp)
    | some e =>
      obtain ⟨jid, member⟩ := e
      have hmem := List.mem_of_find?_eq_some hfind
      have hjid : jid = presence.jid := of_decide_eq_true (List.find?_some
        (p := fun e : Jid × XmppPresenceImpl => decide (e.1 = presence.jid)) hfind)
      by_cases havailable : presence.available = .available
      · simp only [if_pos havailable]
        exact .changed presence ⟨_, hmem, hjid⟩
      · by_cases hunavailable : presence.available = .unavailable
        · simp only [if_neg havailable, if_pos hunavailable]
          exact hjid ▸ .exited jid member hmem
        · simp only [if_neg havailable, if_neg hunavailable]
          exact .same rfl rfl (by simp)

theorem fire_told (m : XmppChatroomModuleImpl) {cb : ChatroomCallback} (h : cb.isMember = false) :
    ∀ c ∈ m.fire cb, c.isMember = false := by
  intro c hc
  unfold fire at hc
  split at hc
  · rw [List.mem_singleton.1 hc]
    exact h
  · cases hc

theorem fireTransition_told (m : XmppChatroomModuleImpl) (presence : XmlElement)
    (type : TransitionType) : ∀ cb ∈ m.fireTransition presence type, cb.isMember = false := by
  cases type with
  | enterSuccess | enterFailure | exitInvoluntarily | exitVoluntarily => exact m.fire_told rfl
  | none => exact fun cb hcb => absurd hcb List.not_mem_nil

/-- The presence of the user itself is about no member. -/
theorem changePresence_told (m : XmppChatroomModuleImpl) (new_state : XmppChatroomState)
    (presence : XmlElement) : ∀ cb ∈ (m.changePresence new_state presence).2,
      cb.isMember = false := by
  have hnil : ∀ cb ∈ ([] : List ChatroomCallback), cb.isMember = false :=
    fun cb hcb => absurd hcb List.not_mem_nil
  unfold changePresence
  split
  · exact hnil
  · split
    · exact hnil
    · split
      · exact hnil
      · exact m.fireTransition_told presence _

theorem handleStanza_members (m : XmppChatroomModuleImpl) (stanza : XmlElement) :
    MemberStep m (m.handleStanza stanza).module
      (handleStanza { m with chatroom_handler_ := true } stanza).told := by
  unfold handleStanza
  dsimp only
  by_cases hroom : m.chatroom_jid_ ≠ (Jid.ofString (stanza.attr QN_FROM)).bareJid
  · simp only [if_pos hroom]
    exact .same rfl rfl (by simp)
  · simp only [if_neg hroom]
    by_cases hpresence : stanza.name = QN_PRESENCE
    · simp only [if_pos hpresence]
      by_cases hown : Jid.ofString (stanza.attr QN_FROM) = m.memberJid
      · have hown' : Jid.ofString (stanza.attr QN_FROM)
            = memberJid { m with chatroom_handler_ := true } := hown
        simp only [if_pos hown, if_pos hown']
        refine .same ?_ ?_ (changePresence_told _ _ _)
        · rw [serverChange_state]
        · rw [serverChange_state]
      · have hother : ¬ Jid.ofString (stanza.attr QN_FROM)
            = memberJid { m with chatroom_handler_ := true } := hown
        simp only [if_neg hown, if_neg hother]
        exact m.otherPresence_members stanza
    · simp only [if_neg hpresence]
      by_cases hmessage : stanza.name = QN_MESSAGE
      · simp only [if_pos hmessage]
        exact .same rfl rfl (fire_told _ rfl)
      · simp only [if_neg hmessage]
        exact .same rfl rfl (by simp)

/-- A request changes the state at most. -/
theorem clientChange_state (m : XmppChatroomModuleImpl) (new_state : XmppChatroomState) :
    ∃ state, (m.clientChangeMyPresence new_state).1 = { m with chatroom_state_ := state } := by
  unfold clientChangeMyPresence
  split
  · exact ⟨m.chatroom_state_, rfl⟩
  · split
    · exact ⟨m.chatroom_state_, rfl⟩
    · split
      · exact ⟨new_state, rfl⟩
      · exact ⟨m.chatroom_state_, rfl⟩

theorem request_state (m : XmppChatroomModuleImpl) (engine : XmppReturnStatus)
    (element : XmlElement) (new_state : XmppChatroomState) :
    ∃ state, (m.request engine element new_state).module = { m with chatroom_state_ := state } := by
  unfold request
  split
  · exact m.clientChange_state new_state
  · exact ⟨m.chatroom_state_, rfl⟩

theorem requestEnter_state (m : XmppChatroomModuleImpl) (password client_version locale : Str)
    (engine : Option XmppReturnStatus) : ∃ state,
      (m.requestEnterChatroom password client_version locale engine).module
        = { m with chatroom_state_ := state } := by
  unfold requestEnterChatroom
  cases engine with
  | none => exact ⟨m.chatroom_state_, rfl⟩
  | some status =>
    dsimp only
    split
    · exact ⟨m.chatroom_state_, rfl⟩
    · split
      · exact ⟨m.chatroom_state_, rfl⟩
      · exact m.request_state status _ _

theorem requestExit_state (m : XmppChatroomModuleImpl) (engine : Option XmppReturnStatus) :
    ∃ state, (m.requestExitChatroom engine).module = { m with chatroom_state_ := state } := by
  unfold requestExitChatroom
  cases engine with
  | none => exact ⟨m.chatroom_state_, rfl⟩
  | some status =>
    dsimp only
    split
    · exact ⟨m.chatroom_state_, rfl⟩
    · exact m.request_state status _ _

/-- What an operation does to the members. -/
theorem apply_members (m : XmppChatroomModuleImpl) (op : ChatroomOp) :
    MemberStep m (m.apply op) (m.tells op) := by
  have hsame : ∀ {m' : XmppChatroomModuleImpl},
      m'.chatroom_jid_members_ = m.chatroom_jid_members_ →
      m'.chatroom_jid_members_version_ = m.chatroom_jid_members_version_ → MemberStep m m' [] :=
    fun hmembers hversion =>
      .same hmembers hversion fun cb hcb => absurd hcb List.not_mem_nil
  have hstate : ∀ {m' : XmppChatroomModuleImpl},
      (∃ state, m' = { m with chatroom_state_ := state }) → MemberStep m m' [] := by
    rintro m' ⟨state, rfl⟩
    exact hsame rfl rfl
  cases op with
  | setChatroomHandler handler => exact hsame rfl rfl
  | setChatroomJid chatroom_jid =>
    show MemberStep m (m.setChatroomJid chatroom_jid).1 []
    unfold setChatroomJid
    split
    · exact hsame rfl rfl
    · split <;> exact hsame rfl rfl
  | setNickname nickname =>
    show MemberStep m (m.setNickname nickname).1 []
    unfold setNickname
    split <;> exact hsame rfl rfl
  | requestEnterChatroom password client_version locale engine =>
    exact hstate (m.requestEnter_state password client_version locale engine)
  | requestExitChatroom engine => exact hstate (m.requestExit_state engine)
  | handleStanza stanza => exact m.handleStanza_members stanza

theorem otherPresence_handler (m : XmppChatroomModuleImpl) (stanza : XmlElement) :
    (m.serverChangedOtherPresence stanza).1.chatroom_handler_ = m.chatroom_handler_ := by
  unfold serverChangedOtherPresence
  split
  · rfl
  · dsimp only
    split
    · split <;> rfl
    · split
      · rfl
      · split <;> rfl

/-- The handler is set by its setter alone. -/
theorem apply_handler (m : XmppChatroomModuleImpl) {op : ChatroomOp}
    (hm : m.chatroom_handler_ = true) (hop : op ≠ .setChatroomHandler false) :
    (m.apply op).chatroom_handler_ = true := by
  have hstate : ∀ {m' : XmppChatroomModuleImpl},
      (∃ state, m' = { m with chatroom_state_ := state }) → m'.chatroom_handler_ = true := by
    rintro m' ⟨state, rfl⟩
    exact hm
  cases op with
  | setChatroomHandler handler =>
    cases handler with
    | true => rfl
    | false => exact absurd rfl hop
  | setChatroomJid chatroom_jid =>
    show (m.setChatroomJid chatroom_jid).1.chatroom_handler_ = true
    unfold setChatroomJid
    split
    · exact hm
    · split <;> exact hm
  | setNickname nickname =>
    show (m.setNickname nickname).1.chatroom_handler_ = true
    unfold setNickname
    split <;> exact hm
  | requestEnterChatroom password client_version locale engine =>
    exact hstate (m.requestEnter_state password client_version locale engine)
  | requestExitChatroom engine => exact hstate (m.requestExit_state engine)
  | handleStanza stanza =>
    show (m.handleStanza stanza).module.chatroom_handler_ = true
    unfold handleStanza
    dsimp only
    split
    · exact hm
    · split
      · dsimp only
        split
        · rw [serverChange_state]
          exact hm
        · exact (m.otherPresence_handler stanza).trans hm
      · split <;> exact hm

/-- What the handler is told in some operations. -/
def toldAll (m : XmppChatroomModuleImpl) : List ChatroomOp → List ChatroomCallback
  | [] => []
  | op :: ops => m.told op ++ (m.apply op).toldAll ops

end XmppChatroomModuleImpl

/-! ## 3. The map that follows the handler -/

/-- The members, with their presences. -/
def memberMap (m : XmppChatroomModuleImpl) : Jid → Option XmppPresenceImpl :=
  SortedMap.lookup m.chatroom_jid_members_

/-- A map that follows the calls of the handler, by the JIDs of the members. -/
def mirrorStep (map : Jid → Option XmppPresenceImpl) :
    ChatroomCallback → Jid → Option XmppPresenceImpl
  | .memberEntered member | .memberChanged member => Function.update map member.jid (some member)
  | .memberExited member => Function.update map member.jid none
  | .chatroomEnteredStatus _ _ | .chatroomExitedStatus _ | .messageReceived _ => map

def mirror (cbs : List ChatroomCallback) : Jid → Option XmppPresenceImpl :=
  cbs.foldl mirrorStep fun _ => none

/-- The members are in the order of their JIDs, and each is there by the JID of its presence. -/
structure Ordered (m : XmppChatroomModuleImpl) : Prop where
  sorted : Sorted Jid.lt m.chatroom_jid_members_
  keyed : ∀ e ∈ m.chatroom_jid_members_, e.1 = e.2.jid

theorem mirror_others (cbs : List ChatroomCallback) (h : ∀ cb ∈ cbs, cb.isMember = false)
    (map : Jid → Option XmppPresenceImpl) : cbs.foldl mirrorStep map = map := by
  induction cbs with
  | nil => rfl
  | cons cb cbs ih =>
    have hcb := h cb List.mem_cons_self
    have hstep : mirrorStep map cb = map := by
      cases cb with
      | memberEntered | memberChanged | memberExited => cases hcb
      | chatroomEnteredStatus | chatroomExitedStatus | messageReceived => rfl
    rw [List.foldl_cons, hstep]
    exact ih fun c hc => h c (List.mem_cons_of_mem _ hc)

/-- A step keeps the order, and the map follows it. -/
theorem XmppChatroomModuleImpl.MemberStep.mirrored {m m' : XmppChatroomModuleImpl}
    {cbs : List ChatroomCallback} (h : MemberStep m m' cbs) (hm : Ordered m) :
    Ordered m' ∧ cbs.foldl mirrorStep (memberMap m) = memberMap m' := by
  unfold memberMap
  cases h with
  | same hmembers hversion hcbs =>
    refine ⟨⟨?_, ?_⟩, ?_⟩
    · rw [hmembers]
      exact hm.sorted
    · rw [hmembers]
      exact hm.keyed
    · rw [hmembers]
      exact mirror_others cbs hcbs _
  | entered presence hfree =>
    refine ⟨⟨?_, ?_⟩, ?_⟩
    · dsimp only
      rw [insertMember_eq]
      exact hm.sorted.insert hfree presence
    · intro e he
      rcases mem_insertMember he with rfl | he
      · rfl
      · exact hm.keyed e he
    · dsimp only
      rw [insertMember_eq, lookup_insert Jid.lt hfree]
      rfl
  | changed presence hfound =>
    refine ⟨⟨hm.sorted.replace _ _, ?_⟩, (lookup_replace hfound presence).symm⟩
    intro e he
    obtain ⟨d, hd, rfl⟩ := List.mem_map.1 he
    split
    · next heq => exact heq
    · exact hm.keyed d hd
  | exited jid member hfound =>
    refine ⟨⟨hm.sorted.erase jid, fun e he => hm.keyed e (List.mem_of_mem_eraseP he)⟩, ?_⟩
    have hjid : jid = member.jid := hm.keyed _ hfound
    dsimp only
    rw [lookup_erase hm.sorted.nodup, hjid]
    rfl

theorem mirror_toldAll {m : XmppChatroomModuleImpl} (hm : Ordered m)
    (hhandler : m.chatroom_handler_ = true) {ops : List ChatroomOp}
    (hkept : ∀ op ∈ ops, op ≠ .setChatroomHandler false) :
    (m.toldAll ops).foldl mirrorStep (memberMap m) = memberMap (m.applyAll ops) := by
  induction ops generalizing m with
  | nil => rfl
  | cons op ops ih =>
    have htold : m.told op = m.tells op := by
      unfold tells
      rw [← hhandler]
    obtain ⟨hordered, hmap⟩ := (m.apply_members op).mirrored hm
    have hstill : (m.apply op).chatroom_handler_ = true :=
      m.apply_handler hhandler (hkept op List.mem_cons_self)
    rw [toldAll, List.foldl_append, htold, hmap]
    exact ih hordered hstill fun o ho => hkept o (List.mem_cons_of_mem _ ho)

theorem ordered_applyAll {m : XmppChatroomModuleImpl} (hm : Ordered m) (ops : List ChatroomOp) :
    Ordered (m.applyAll ops) := by
  induction ops generalizing m with
  | nil => exact hm
  | cons op ops ih => exact ih ((m.apply_members op).mirrored hm).1

theorem ordered_init : Ordered XmppChatroomModuleImpl.init :=
  ⟨List.Pairwise.nil, fun _ he => absurd he List.not_mem_nil⟩

/-- There is a handler from the start. -/
def HandledFromStart (ops : List ChatroomOp) : Prop :=
  ∃ rest, ops = .setChatroomHandler true :: rest ∧ ∀ op ∈ rest, op ≠ .setChatroomHandler false

/-- The map that follows the handler is the map of the module. -/
theorem members_mirrored {ops : List ChatroomOp} (h : HandledFromStart ops) :
    mirror (XmppChatroomModuleImpl.init.toldAll ops)
      = memberMap (XmppChatroomModuleImpl.init.applyAll ops) := by
  obtain ⟨rest, rfl, hkept⟩ := h
  have hstart : Ordered (XmppChatroomModuleImpl.init.apply (.setChatroomHandler true)) :=
    ordered_applyAll ordered_init [.setChatroomHandler true]
  exact mirror_toldAll hstart rfl hkept

end Gxmpp
