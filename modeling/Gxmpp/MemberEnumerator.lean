/-
`talk/xmpp/chatroommoduleimpl.cc`: the enumerator of the members of a chatroom.

An enumerator is a cursor over the members in the order of their JIDs, with a place at either
end, as long as nothing has changed (`ask_valid`); then it is invalid and says nothing more
(`ask_invalid`).

Three things are not so. `IsAfterEnd` compares the iterator with the end and asks for nothing
else: in front of no members it says that the enumerator is after the end, and on an invalid
enumerator it touches the iterator. `IsBeforeBeginning` says of an invalid enumerator what it
said before. And the version that an enumerator remembers is an `int`: after `2 ^ 32` changes it
is the version of the map again. `members_seen_iff` is that nothing else goes wrong.
-/
import Gxmpp.ChatroomMembers

set_option autoImplicit false

namespace Gxmpp

open XmppChatroomModuleImpl SortedMap

/-! ## 1. The enumerator -/

/-- `XmppChatroomMemberEnumeratorImpl`. The map and its version are those of the module. The
iterator is the JID of the node that it is at; none is `end()`. -/
structure XmppChatroomMemberEnumeratorImpl where
  map_version_created_ : BitVec 32
  iterator_ : Option Jid
  before_beginning_ : Bool

/-- What a call comes to: the enumerator after it, what it returns, and whether it touches the
iterator. -/
structure Enumerated (α : Type) where
  enumerator : XmppChatroomMemberEnumeratorImpl
  result : α
  touched : Bool

/-- The version of the members as the `int` that it is. -/
def XmppChatroomModuleImpl.version (m : XmppChatroomModuleImpl) : BitVec 32 :=
  BitVec.ofNat 32 m.chatroom_jid_members_version_

namespace XmppChatroomMemberEnumeratorImpl

/-- `XmppChatroomModuleImpl::CreateMemberEnumerator`. -/
def create (m : XmppChatroomModuleImpl) : XmppChatroomMemberEnumeratorImpl :=
  ⟨m.version, first m.chatroom_jid_members_, true⟩

/-- `XmppChatroomMemberEnumeratorImpl::IsValid`. -/
def isValid (e : XmppChatroomMemberEnumeratorImpl) (m : XmppChatroomModuleImpl) : Bool :=
  e.map_version_created_ = m.version

/-- `XmppChatroomMemberEnumeratorImpl::IsBeforeBeginning`. -/
def isBeforeBeginning (e : XmppChatroomMemberEnumeratorImpl) : Bool := e.before_beginning_

/-- `XmppChatroomMemberEnumeratorImpl::IsAfterEnd`. -/
def isAfterEnd (e : XmppChatroomMemberEnumeratorImpl) : Enumerated Bool :=
  ⟨e, e.iterator_.isNone, true⟩

/-- `XmppChatroomMemberEnumeratorImpl::current`. A member is its node; none is NULL. -/
def current (e : XmppChatroomMemberEnumeratorImpl) (m : XmppChatroomModuleImpl) :
    Enumerated (Option (Jid × XmppPresenceImpl)) :=
  if e.isValid m = false then ⟨e, none, false⟩
  else if e.isBeforeBeginning then ⟨e, none, false⟩
  else if e.isAfterEnd.result then ⟨e, none, true⟩
  else ⟨e, e.iterator_.bind fun jid => m.chatroom_jid_members_.find? fun d => d.1 = jid, true⟩

/-- `XmppChatroomMemberEnumeratorImpl::Prev`. -/
def prev (e : XmppChatroomMemberEnumeratorImpl) (m : XmppChatroomModuleImpl) : Enumerated Bool :=
  if e.isValid m = false then ⟨e, false, false⟩
  else if e.isBeforeBeginning then ⟨e, false, false⟩
  else if e.iterator_ = first m.chatroom_jid_members_ then
    ⟨{ e with before_beginning_ := true }, false, true⟩
  else
    let e := { e with iterator_ := before m.chatroom_jid_members_ e.iterator_ }
    ⟨e, (e.current m).result.isSome, true⟩

/-- `XmppChatroomMemberEnumeratorImpl::Next`. -/
def next (e : XmppChatroomMemberEnumeratorImpl) (m : XmppChatroomModuleImpl) : Enumerated Bool :=
  if e.isValid m = false then ⟨e, false, false⟩
  else if e.isBeforeBeginning then
    let e := { e with before_beginning_ := false, iterator_ := first m.chatroom_jid_members_ }
    ⟨e, (e.current m).result.isSome, true⟩
  else if e.isAfterEnd.result then ⟨e, false, true⟩
  else
    let e := { e with iterator_ := e.iterator_.bind (after m.chatroom_jid_members_) }
    ⟨e, (e.current m).result.isSome, true⟩

end XmppChatroomMemberEnumeratorImpl

/-- The calls of an enumerator. -/
inductive EnumeratorCall where
  | current
  | isValid
  | isBeforeBeginning
  | isAfterEnd
  | next
  | prev
deriving DecidableEq

/-- What the calls return. -/
inductive EnumeratorAnswer where
  | member (node : Option (Jid × XmppPresenceImpl))
  | holds (result : Bool)

/-- NULL or false. -/
def EnumeratorAnswer.isNothing : EnumeratorAnswer → Bool
  | .member node => node.isNone
  | .holds result => !result

/-- A call of an enumerator. -/
def XmppChatroomMemberEnumeratorImpl.ask (e : XmppChatroomMemberEnumeratorImpl)
    (m : XmppChatroomModuleImpl) : EnumeratorCall → Enumerated EnumeratorAnswer
  | .current => ⟨(e.current m).enumerator, .member (e.current m).result, (e.current m).touched⟩
  | .isValid => ⟨e, .holds (e.isValid m), false⟩
  | .isBeforeBeginning => ⟨e, .holds e.isBeforeBeginning, false⟩
  | .isAfterEnd => ⟨e.isAfterEnd.enumerator, .holds e.isAfterEnd.result, e.isAfterEnd.touched⟩
  | .next => ⟨(e.next m).enumerator, .holds (e.next m).result, (e.next m).touched⟩
  | .prev => ⟨(e.prev m).enumerator, .holds (e.prev m).result, (e.prev m).touched⟩

/-! ## 2. The cursor -/

/-- Where a cursor is after a call. -/
def cursorPlace (members : List (Jid × XmppPresenceImpl)) (place : Nat) : EnumeratorCall → Nat
  | .next => forward members place
  | .prev => backward place
  | .current | .isValid | .isBeforeBeginning | .isAfterEnd => place

/-- What a cursor answers. -/
def cursorAnswer (members : List (Jid × XmppPresenceImpl)) (place : Nat) :
    EnumeratorCall → EnumeratorAnswer
  | .current => .member (entryAt members place)
  | .isValid => .holds true
  | .isBeforeBeginning => .holds (place = 0)
  | .isAfterEnd => .holds (place = members.length + 1)
  | .next => .holds (entryAt members (forward members place)).isSome
  | .prev => .holds (entryAt members (backward place)).isSome

namespace XmppChatroomMemberEnumeratorImpl

/-- The enumerator is at a place of the members. -/
def Stands (e : XmppChatroomMemberEnumeratorImpl) (m : XmppChatroomModuleImpl) (place : Nat) :
    Prop := At m.chatroom_jid_members_ e.before_beginning_ e.iterator_ place

variable {e : XmppChatroomMemberEnumeratorImpl} {m : XmppChatroomModuleImpl} {place : Nat}

theorem current_enumerator (e : XmppChatroomMemberEnumeratorImpl) (m : XmppChatroomModuleImpl) :
    (e.current m).enumerator = e := by
  unfold current
  split
  · rfl
  · split
    · rfl
    · split <;> rfl

/-- A valid enumerator shows the member of its place. -/
theorem current_valid (hm : Ordered m) (hvalid : e.isValid m = true) (h : e.Stands m place) :
    (e.current m).result = entryAt m.chatroom_jid_members_ place := by
  unfold current
  rw [if_neg (by rw [hvalid]; decide)]
  unfold isBeforeBeginning isAfterEnd
  by_cases hfront : e.before_beginning_ = true
  · rw [if_pos hfront, h.front.1 hfront]
    rfl
  · rw [if_neg hfront]
    obtain ⟨p, rfl⟩ := Nat.exists_eq_succ_of_ne_zero fun hzero => hfront (h.front.2 hzero)
    have hit : e.iterator_ = m.chatroom_jid_members_[p]?.map Prod.fst := h.iterator
    cases hp : m.chatroom_jid_members_[p]? with
    | none =>
      rw [hp] at hit
      rw [hit]
      exact hp.symm
    | some d =>
      rw [hp] at hit
      rw [hit]
      exact (find_at hm.sorted.nodup hp).trans hp.symm

/-- A valid enumerator goes one place on. -/
theorem next_valid (hm : Ordered m) (hvalid : e.isValid m = true) (h : e.Stands m place) :
    (e.next m).enumerator.Stands m (forward m.chatroom_jid_members_ place) ∧
      (e.next m).result
        = (entryAt m.chatroom_jid_members_ (forward m.chatroom_jid_members_ place)).isSome := by
  have hplace := h.place
  -- what is shown after the move
  have hmoved : ∀ {e' : XmppChatroomMemberEnumeratorImpl} {p : Nat},
      e'.map_version_created_ = e.map_version_created_ → e'.Stands m p →
      (⟨e', (e'.current m).result.isSome, true⟩ : Enumerated Bool).enumerator.Stands m p ∧
        (e'.current m).result.isSome = (entryAt m.chatroom_jid_members_ p).isSome := by
    intro e' p hcreated hstands
    have hvalid' : e'.isValid m = true := by
      unfold isValid
      rw [hcreated]
      exact hvalid
    exact ⟨hstands, by rw [current_valid hm hvalid' hstands]⟩
  unfold next
  rw [if_neg (by rw [hvalid]; decide)]
  unfold isBeforeBeginning isAfterEnd
  by_cases hfront : e.before_beginning_ = true
  · rw [if_pos hfront]
    obtain rfl := h.front.1 hfront
    rw [forward, if_pos (Nat.zero_le _)]
    refine hmoved rfl ⟨by omega, by simp, ?_⟩
    rw [first, List.head?_eq_getElem?]
  · rw [if_neg hfront]
    obtain ⟨p, rfl⟩ := Nat.exists_eq_succ_of_ne_zero fun hzero => hfront (h.front.2 hzero)
    have hit : e.iterator_ = m.chatroom_jid_members_[p]?.map Prod.fst := h.iterator
    have hfalse : e.before_beginning_ = false := by simpa using hfront
    cases hp : m.chatroom_jid_members_[p]? with
    | none =>
      -- it is after the last member, and stays there
      have hlen := List.getElem?_eq_none_iff.1 hp
      have hend : e.iterator_.isNone = true := by rw [hit, hp]; rfl
      rw [if_pos hend, forward, if_neg (by omega)]
      exact ⟨h, (congrArg Option.isSome hp).symm⟩
    | some d =>
      obtain ⟨hlt, -⟩ := List.getElem?_eq_some_iff.1 hp
      have hnode : ¬ e.iterator_.isNone = true := by rw [hit, hp]; exact Bool.false_ne_true
      rw [if_neg hnode, forward, if_pos (by omega)]
      refine hmoved rfl ⟨by omega, by simp [hfalse], ?_⟩
      rw [hit, hp]
      exact after_at hm.sorted.nodup hp

/-- A valid enumerator goes one place back. -/
theorem prev_valid (hm : Ordered m) (hvalid : e.isValid m = true) (h : e.Stands m place) :
    (e.prev m).enumerator.Stands m (backward place) ∧
      (e.prev m).result = (entryAt m.chatroom_jid_members_ (backward place)).isSome := by
  have hplace := h.place
  unfold prev backward
  rw [if_neg (by rw [hvalid]; decide)]
  unfold isBeforeBeginning
  by_cases hfront : e.before_beginning_ = true
  · rw [if_pos hfront]
    obtain rfl := h.front.1 hfront
    exact ⟨h, rfl⟩
  · rw [if_neg hfront]
    obtain ⟨p, rfl⟩ := Nat.exists_eq_succ_of_ne_zero fun hzero => hfront (h.front.2 hzero)
    have hit : e.iterator_ = m.chatroom_jid_members_[p]?.map Prod.fst := h.iterator
    have hfalse : e.before_beginning_ = false := by simpa using hfront
    cases p with
    | zero =>
      -- the first member, or the end if there is none
      have hfirst : e.iterator_ = first m.chatroom_jid_members_ := by
        rw [hit, first, List.head?_eq_getElem?]
      rw [if_pos hfirst]
      exact ⟨⟨by omega, by simp, hit⟩, rfl⟩
    | succ q =>
      have hne : ¬ e.iterator_ = first m.chatroom_jid_members_ := by
        rw [hit, first, List.head?_eq_getElem?]
        intro heq
        rw [← List.getElem?_map, ← List.getElem?_map] at heq
        have hlt : 0 < (m.chatroom_jid_members_.map Prod.fst).length := by
          rw [List.length_map]
          omega
        have hzero := (List.getElem?_inj hlt hm.sorted.nodup).1 heq.symm
        omega
      have hback : before m.chatroom_jid_members_ e.iterator_
          = m.chatroom_jid_members_[q]?.map Prod.fst := by
        rw [hit]
        exact before_at hm.sorted.nodup (by omega)
      rw [if_neg hne]
      have hstands : ({ e with iterator_ := before m.chatroom_jid_members_ e.iterator_ } :
          XmppChatroomMemberEnumeratorImpl).Stands m (q + 1) :=
        ⟨by omega, by simp [hfalse], hback⟩
      exact ⟨hstands, congrArg Option.isSome (current_valid hm hvalid hstands)⟩

/-- A call of a valid enumerator moves the cursor, and answers as the cursor does but in one
place. -/
theorem ask_valid (hm : Ordered m) (hvalid : e.isValid m = true) (h : e.Stands m place)
    (call : EnumeratorCall) :
    (e.ask m call).enumerator.Stands m (cursorPlace m.chatroom_jid_members_ place call) ∧
      ((e.ask m call).result = cursorAnswer m.chatroom_jid_members_ place call ↔
        (call = .isAfterEnd → ¬ (e.isBeforeBeginning = true ∧ m.chatroom_jid_members_ = []))) := by
  cases call with
  | current =>
    refine ⟨?_, ?_⟩
    · show (e.current m).enumerator.Stands m place
      rw [current_enumerator]
      exact h
    · simp [ask, cursorAnswer, current_valid hm hvalid h]
  | isValid => exact ⟨h, by simp [ask, cursorAnswer, hvalid]⟩
  | isBeforeBeginning =>
    refine ⟨h, ?_⟩
    have hfront : e.isBeforeBeginning = decide (place = 0) :=
      Bool.eq_iff_iff.2 (h.front.trans decide_eq_true_iff.symm)
    simp [ask, cursorAnswer, hfront]
  | isAfterEnd =>
    refine ⟨h, ?_⟩
    -- in front of no members the iterator is at the end too
    have hend : e.isAfterEnd.result = true ↔ _ := h.end_iff
    have hfront : e.isBeforeBeginning = true ↔ place = 0 := h.front
    have hplace : m.chatroom_jid_members_ = [] ↔ m.chatroom_jid_members_.length = 0 :=
      List.length_eq_zero_iff.symm
    show (EnumeratorAnswer.holds e.isAfterEnd.result = .holds _) ↔ _
    rw [EnumeratorAnswer.holds.injEq, Bool.eq_iff_iff, hend, decide_eq_true_iff, hfront, hplace]
    constructor
    · intro heq _ hempty
      have hafter := heq.1 (Or.inr hempty)
      omega
    · intro hother
      have hthere := hother rfl
      constructor
      · rintro (hafter | hempty)
        · exact hafter
        · exact absurd hempty hthere
      · exact Or.inl
  | next =>
    obtain ⟨hstands, hresult⟩ := next_valid hm hvalid h
    exact ⟨hstands, by simp [ask, cursorAnswer, hresult]⟩
  | prev =>
    obtain ⟨hstands, hresult⟩ := prev_valid hm hvalid h
    exact ⟨hstands, by simp [ask, cursorAnswer, hresult]⟩

/-- A call of an invalid enumerator. -/
theorem ask_invalid (hvalid : e.isValid m = false) (call : EnumeratorCall) :
    ((e.ask m call).result.isNothing = true ∧ (e.ask m call).touched = false) ↔
      call ≠ .isAfterEnd ∧ ¬ (call = .isBeforeBeginning ∧ e.isBeforeBeginning = true) := by
  cases call with
  | current => simp [ask, current, hvalid, EnumeratorAnswer.isNothing]
  | isValid => simp [ask, hvalid, EnumeratorAnswer.isNothing]
  | isBeforeBeginning => simp [ask, EnumeratorAnswer.isNothing]
  | isAfterEnd => simp [ask, isAfterEnd]
  | next => simp [ask, next, hvalid, EnumeratorAnswer.isNothing]
  | prev => simp [ask, prev, hvalid, EnumeratorAnswer.isNothing]

/-- No call changes the version that an enumerator remembers. -/
theorem ask_created (e : XmppChatroomMemberEnumeratorImpl) (m : XmppChatroomModuleImpl)
    (call : EnumeratorCall) :
    (e.ask m call).enumerator.map_version_created_ = e.map_version_created_ := by
  cases call with
  | current => exact congrArg _ (e.current_enumerator m)
  | isValid | isBeforeBeginning | isAfterEnd => rfl
  | next =>
    show (e.next m).enumerator.map_version_created_ = _
    unfold next
    split
    · rfl
    · split
      · rfl
      · split <;> rfl
  | prev =>
    show (e.prev m).enumerator.map_version_created_ = _
    unfold prev
    split
    · rfl
    · split
      · rfl
      · split <;> rfl

end XmppChatroomMemberEnumeratorImpl

/-! ## 3. Runs -/

/-- A module and one of its enumerators, with the members at its creation, the place of the
cursor, and how many changes there were since. -/
structure EnumeratorRun where
  module : XmppChatroomModuleImpl
  enumerator : XmppChatroomMemberEnumeratorImpl
  members : List (Jid × XmppPresenceImpl)
  place : Nat
  changes : Nat

/-- What happens: something is done to the module, or the enumerator is called. -/
inductive EnumeratorStep where
  | room (op : ChatroomOp)
  | ask (call : EnumeratorCall)

namespace EnumeratorRun

/-- An enumerator is created. -/
def create (m : XmppChatroomModuleImpl) : EnumeratorRun :=
  ⟨m, .create m, m.chatroom_jid_members_, 0, 0⟩

/-- A change is what a handler is told of, or would be. -/
def after (w : EnumeratorRun) : EnumeratorStep → EnumeratorRun
  | .room op =>
    { w with
      module := w.module.apply op
      changes := w.changes + (w.module.tells op).countP ChatroomCallback.isMember }
  | .ask call =>
    { w with
      enumerator := (w.enumerator.ask w.module call).enumerator
      place := if w.changes = 0 then cursorPlace w.members w.place call else w.place }

/-- Something holds of every call. -/
def Along (P : EnumeratorRun → EnumeratorCall → Prop) : EnumeratorRun → List EnumeratorStep → Prop
  | _, [] => True
  | w, .room op :: steps => Along P (w.after (.room op)) steps
  | w, .ask call :: steps => P w call ∧ Along P (w.after (.ask call)) steps

/-- Before the first change a call is answered by the cursor. After it the enumerator is
invalid, and a call returns NULL or false and touches no iterator. -/
def Right (w : EnumeratorRun) (call : EnumeratorCall) : Prop :=
  (w.changes = 0 →
    (w.enumerator.ask w.module call).result = cursorAnswer w.members w.place call) ∧
  (w.changes ≠ 0 → w.enumerator.isValid w.module = false ∧
    (w.enumerator.ask w.module call).result.isNothing = true ∧
    (w.enumerator.ask w.module call).touched = false)

/-- A call that is answered right: `IsAfterEnd` not in front of no members and not after a
change, `IsBeforeBeginning` not in front after a change, and nothing after a number of changes
that an `int` does not count. -/
def Meets (w : EnumeratorRun) (call : EnumeratorCall) : Prop :=
  (w.changes = 0 → call = .isAfterEnd →
    ¬ (w.enumerator.isBeforeBeginning = true ∧ w.module.chatroom_jid_members_ = [])) ∧
  (w.changes ≠ 0 → ¬ 2 ^ 32 ∣ w.changes ∧
    call ≠ .isAfterEnd ∧ ¬ (call = .isBeforeBeginning ∧ w.enumerator.isBeforeBeginning = true))

/-- What holds all the time. -/
structure Followed (w : EnumeratorRun) : Prop where
  ordered : Ordered w.module
  /-- the version counts the changes -/
  counted : ∃ version, w.enumerator.map_version_created_ = BitVec.ofNat 32 version ∧
    w.module.chatroom_jid_members_version_ = version + w.changes
  still : w.changes = 0 → w.module.chatroom_jid_members_ = w.members ∧
    w.enumerator.Stands w.module w.place

theorem followed_create {m : XmppChatroomModuleImpl} (hm : Ordered m) : Followed (create m) :=
  ⟨hm, ⟨_, rfl, rfl⟩, fun _ => ⟨rfl, At.start _⟩⟩

/-- An enumerator is valid as long as its `int` is that of the module. -/
theorem Followed.isValid_iff {w : EnumeratorRun} (h : Followed w) :
    w.enumerator.isValid w.module = true ↔ 2 ^ 32 ∣ w.changes := by
  obtain ⟨version, hcreated, hnow⟩ := h.counted
  unfold XmppChatroomMemberEnumeratorImpl.isValid XmppChatroomModuleImpl.version
  rw [decide_eq_true_iff, hcreated, hnow, ← BitVec.toNat_inj, BitVec.toNat_ofNat,
    BitVec.toNat_ofNat]
  omega

/-- What is right is what the condition says. -/
theorem Followed.right_iff {w : EnumeratorRun} (h : Followed w) (call : EnumeratorCall) :
    Right w call ↔ Meets w call := by
  unfold Right Meets
  by_cases hzero : w.changes = 0
  · obtain ⟨hmembers, hstands⟩ := h.still hzero
    have hvalid : w.enumerator.isValid w.module = true := by
      rw [h.isValid_iff, hzero]
      exact Nat.dvd_zero _
    have hask := (XmppChatroomMemberEnumeratorImpl.ask_valid h.ordered hvalid hstands call).2
    rw [hmembers] at hask ⊢
    simp only [hzero, ne_eq, not_true_eq_false, false_implies, and_true, true_implies]
    exact hask
  · simp only [hzero, false_implies, true_and, ne_eq, not_false_eq_true, true_implies]
    rw [← h.isValid_iff, Bool.not_eq_true]
    refine and_congr_right fun hvalid => ?_
    exact XmppChatroomMemberEnumeratorImpl.ask_invalid hvalid call

/-- A step of the module. -/
theorem Followed.room {w : EnumeratorRun} (h : Followed w) (op : ChatroomOp) :
    Followed (w.after (.room op)) := by
  have hstep := w.module.apply_members op
  have hordered := (hstep.mirrored h.ordered).1
  obtain ⟨version, hcreated, hnow⟩ := h.counted
  have hcount : (w.module.apply op).chatroom_jid_members_version_
      = w.module.chatroom_jid_members_version_
        + (w.module.tells op).countP ChatroomCallback.isMember ∧
      ((w.module.tells op).countP ChatroomCallback.isMember = 0 →
        (w.module.apply op).chatroom_jid_members_ = w.module.chatroom_jid_members_) := by
    generalize w.module.apply op = m' at hstep ⊢
    generalize w.module.tells op = cbs at hstep ⊢
    cases hstep with
    | same hmembers hversion hcbs =>
      have hnone : cbs.countP ChatroomCallback.isMember = 0 :=
        List.countP_eq_zero.2 fun cb hcb => by rw [hcbs cb hcb]; exact Bool.false_ne_true
      rw [hnone]
      exact ⟨hversion, fun _ => hmembers⟩
    | entered | changed | exited => exact ⟨rfl, fun hnone => absurd hnone Nat.one_ne_zero⟩
  refine ⟨hordered, ⟨version, hcreated, ?_⟩, ?_⟩
  · show (w.module.apply op).chatroom_jid_members_version_ = version + (w.changes + _)
    rw [hcount.1, hnow, Nat.add_assoc]
  · intro hzero
    obtain ⟨hbefore, hnone⟩ := Nat.add_eq_zero_iff.1 hzero
    obtain ⟨hmembers, hstands⟩ := h.still hbefore
    refine ⟨(hcount.2 hnone).trans hmembers, ?_⟩
    show At (w.module.apply op).chatroom_jid_members_ _ _ _
    rw [hcount.2 hnone]
    exact hstands

/-- A call of the enumerator. -/
theorem Followed.ask {w : EnumeratorRun} (h : Followed w) (call : EnumeratorCall) :
    Followed (w.after (.ask call)) := by
  obtain ⟨version, hcreated, hnow⟩ := h.counted
  refine ⟨h.ordered, ⟨version, ?_, hnow⟩, ?_⟩
  · exact (w.enumerator.ask_created w.module call).trans hcreated
  · intro hzero
    obtain ⟨hmembers, hstands⟩ := h.still hzero
    have hvalid : w.enumerator.isValid w.module = true := by
      rw [h.isValid_iff, show w.changes = 0 from hzero]
      exact Nat.dvd_zero _
    refine ⟨hmembers, ?_⟩
    show XmppChatroomMemberEnumeratorImpl.Stands _ w.module (if w.changes = 0 then _ else _)
    rw [if_pos (show w.changes = 0 from hzero), ← hmembers]
    exact (XmppChatroomMemberEnumeratorImpl.ask_valid h.ordered hvalid hstands call).1

theorem Followed.along_iff {w : EnumeratorRun} (h : Followed w) (steps : List EnumeratorStep) :
    Along Right w steps ↔ Along Meets w steps := by
  induction steps generalizing w with
  | nil => exact Iff.rfl
  | cons step steps ih =>
    cases step with
    | room op => exact ih (h.room op)
    | ask call => exact and_congr (h.right_iff call) (ih (h.ask call))

end EnumeratorRun

/-- The operations among some steps. -/
def EnumeratorStep.op? : EnumeratorStep → Option ChatroomOp
  | .room op => some op
  | .ask _ => none

/-- In front of no members. -/
theorem members_seen_empty : ¬ ∀ (ops : List ChatroomOp) (steps : List EnumeratorStep),
    EnumeratorRun.Along EnumeratorRun.Right (.create (XmppChatroomModuleImpl.init.applyAll ops)) steps := by
  intro h
  have hanswer := (h [] [.ask .isAfterEnd]).1.1 rfl
  exact Bool.noConfusion (EnumeratorAnswer.holds.inj hanswer)

/-- The handler and an enumerator see the members as they are in exactly the runs whose calls
meet the condition. -/
theorem members_seen_iff (ops : List ChatroomOp) (steps : List EnumeratorStep) :
    ((HandledFromStart (ops ++ steps.filterMap EnumeratorStep.op?) →
        mirror (XmppChatroomModuleImpl.init.toldAll (ops ++ steps.filterMap EnumeratorStep.op?))
          = memberMap (XmppChatroomModuleImpl.init.applyAll
              (ops ++ steps.filterMap EnumeratorStep.op?))) ∧
      Sorted Jid.lt (XmppChatroomModuleImpl.init.applyAll ops).chatroom_jid_members_ ∧
      EnumeratorRun.Along EnumeratorRun.Right (.create (XmppChatroomModuleImpl.init.applyAll ops)) steps) ↔
    EnumeratorRun.Along EnumeratorRun.Meets (.create (XmppChatroomModuleImpl.init.applyAll ops)) steps := by
  have hordered := ordered_applyAll ordered_init ops
  rw [← (EnumeratorRun.followed_create hordered).along_iff steps]
  constructor
  · rintro ⟨-, -, hright⟩
    exact hright
  · intro hright
    exact ⟨members_mirrored, hordered.sorted, hright⟩

end Gxmpp
