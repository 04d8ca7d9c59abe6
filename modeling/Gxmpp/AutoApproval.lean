/-
`gxmpp/pumpthread.cc`: `PumpThread::PrivateRosterModule`, the roster handler of the bot.

The roster module tells its handler of every presence that is about a subscription, with
its type, and the handler approves the sender whatever the type is. So it also says
`subscribed` to somebody who has just said `subscribed`, `unsubscribe` or `unsubscribed`.

One client shows this in its answers: `approvesOnRequest_iff` says for which stanzas they
are what they should be. Two clients with a relay between them show what it leads to: each
approval is answered by an approval, and the exchange has no end (`exchange_goes_on`).

A stanza is handed to the module by an engine that is open, and `SendStanza` of an open
engine sends; so what the handler sends is listed as it is.
-/
import Gxmpp.RosterObserver
import Gxmpp.XmlEdit
import Mathlib.Logic.Function.Iterate

set_option autoImplicit false

namespace Gxmpp

/-! ## 1. The requests about subscriptions -/

/-- The type attribute of a subscription presence. -/
def XmppSubscriptionRequestType.text : XmppSubscriptionRequestType → Str
  | .subscribe => str "subscribe"
  | .unsubscribe => str "unsubscribe"
  | .subscribed => str "subscribed"
  | .unsubscribed => str "unsubscribed"

theorem stringToSubscriptionRequestType_text (t : XmppSubscriptionRequestType) :
    stringToSubscriptionRequestType t.text = some t := by
  cases t <;> decide

theorem stringToSubscriptionRequestType_eq {type : Str} {t : XmppSubscriptionRequestType}
    (h : stringToSubscriptionRequestType type = some t) : type = t.text := by
  unfold stringToSubscriptionRequestType at h
  split_ifs at h with h₁ h₂ h₃ h₄
  · obtain rfl := Option.some.inj h
    exact h₁
  · obtain rfl := Option.some.inj h
    exact h₂
  · obtain rfl := Option.some.inj h
    exact h₃
  · obtain rfl := Option.some.inj h
    exact h₄

namespace XmppRosterModuleImpl

/-- The presence of `XmppRosterModuleImpl::SendSubscriptionRequest`; none for a JID that is
not valid. -/
def sendSubscriptionRequest (jid : Jid) (type : Str) : Option XmlElement :=
  if !jid.isValid then none
  else
    some (((XmlElement.new QN_PRESENCE false).addAttr QN_TO jid.toStr).addAttr QN_TYPE type)

/-- `XmppRosterModuleImpl::RequestSubscription`. -/
def requestSubscription (jid : Jid) : Option XmlElement :=
  sendSubscriptionRequest jid (str "subscribe")

/-- `XmppRosterModuleImpl::CancelSubscription`. -/
def cancelSubscription (jid : Jid) : Option XmlElement :=
  sendSubscriptionRequest jid (str "unsubscribe")

/-- `XmppRosterModuleImpl::ApproveSubscriber`. -/
def approveSubscriber (jid : Jid) : Option XmlElement :=
  sendSubscriptionRequest jid (str "subscribed")

/-- `XmppRosterModuleImpl::CancelSubscriber`. -/
def cancelSubscriber (jid : Jid) : Option XmlElement :=
  sendSubscriptionRequest jid (str "unsubscribed")

end XmppRosterModuleImpl

open XmppRosterModuleImpl

/-! ## 2. The handler -/

namespace PrivateRosterModule

/-- The module of a new `PrivateRosterModule`, which is its roster handler. -/
def init : XmppRosterModuleImpl := XmppRosterModuleImpl.start true

/-- The functions of `PrivateRosterModule` as a roster handler: what they send. -/
def handle : RosterCallback → List XmlElement
  -- the type of the request is not looked at
  | .subscriptionRequest requesting_jid _ _ => (approveSubscriber requesting_jid).toList
  | _ => []

/-- A stanza is handed to the module: the module after it, and what it and its handler
send. -/
def receive (m : XmppRosterModuleImpl) (stanza : XmlElement) :
    XmppRosterModuleImpl × List XmlElement :=
  let r := m.handleStanza stanza
  (r.module, r.told.flatMap handle ++ r.sent)

/-- The stanzas handed to the module, each with what was sent in reply. -/
def replies : XmppRosterModuleImpl → List XmlElement → List (XmlElement × List XmlElement)
  | _, [] => []
  | m, e :: es => (e, (receive m e).2) :: replies (receive m e).1 es

end PrivateRosterModule

/-- The presence is about a subscription, and its sender is a valid JID. -/
def subscriptionType (e : XmlElement) : Option XmppSubscriptionRequestType :=
  if e.name = QN_PRESENCE && (Jid.ofString (e.attr QN_FROM)).isValid then
    stringToSubscriptionRequestType (e.attr QN_TYPE)
  else none

namespace PrivateRosterModule

theorem handle_rosterItem (all_new : Bool) (contacts : List XmppRosterContactImpl)
    (item : XmlElement) : (rosterItem all_new contacts item).2.flatMap handle = [] := by
  unfold rosterItem
  dsimp only
  split
  · split <;> rfl
  · split <;> rfl

theorem handle_rosterLoop (all_new : Bool) (items : List XmlElement)
    (contacts : List XmppRosterContactImpl) :
    (rosterLoop all_new items contacts).2.flatMap handle = [] := by
  induction items generalizing contacts with
  | nil => rfl
  | cons item items ih =>
    rw [rosterLoop]
    dsimp only
    rw [List.flatMap_append, handle_rosterItem, ih, List.append_nil]

/-- The handler answers nothing about contacts. -/
theorem handle_internalRosterItems (m : XmppRosterModuleImpl) (stanza : XmlElement) :
    (m.internalRosterItems stanza).2.flatMap handle = [] := by
  unfold internalRosterItems
  split
  · rfl
  · dsimp only
    split
    · split
      · rw [List.flatMap_append, handle_rosterLoop]
        rfl
      · exact handle_rosterLoop _ _ _
    · rfl

/-- Nor does it about presence. -/
theorem handle_internalIncomingPresence (m : XmppRosterModuleImpl) (jid : Jid)
    (stanza : XmlElement) : (m.internalIncomingPresence jid stanza).2.flatMap handle = [] := by
  have htell : ∀ p, (m.tell (.incomingPresenceChanged p)).flatMap handle = [] := by
    intro p
    unfold XmppRosterModuleImpl.tell
    split <;> rfl
  unfold internalIncomingPresence
  dsimp only
  split
  · exact htell _
  · split <;> exact htell _

/-- What is sent in reply to a stanza: an approval of the sender to each subscription
presence, and otherwise at most the result of a roster push. -/
theorem receive_cases {m : XmppRosterModuleImpl} (hm : m.roster_handler_ = true)
    (e : XmlElement) :
    (receive m e).1.roster_handler_ = true ∧
      ((∃ t, subscriptionType e = some t) ∧
          (receive m e).2 = (approveSubscriber (Jid.ofString (e.attr QN_FROM))).toList
        ∨ subscriptionType e = none ∧
          ((receive m e).2 = [] ∨ (receive m e).2 = [pushResult e])) := by
  have htell : ∀ cb, m.tell cb = [cb] := fun cb => by
    rw [XmppRosterModuleImpl.tell, if_pos hm]
  unfold receive handleStanza subscriptionType
  dsimp only
  by_cases hname : e.name = QN_PRESENCE
  · rw [if_pos hname, decide_eq_true hname, Bool.true_and]
    by_cases hvalid : (Jid.ofString (e.attr QN_FROM)).isValid = true
    · rw [if_neg (by simp [hvalid]), if_pos hvalid]
      unfold handlePresence
      dsimp only
      cases htype : stringToSubscriptionRequestType (e.attr QN_TYPE) with
      | some t =>
        refine ⟨hm, Or.inl ⟨⟨t, rfl⟩, ?_⟩⟩
        dsimp only
        rw [htell]
        simp [handle]
      | none =>
        dsimp only
        split
        · rename_i hr
          split at hr
          · obtain rfl := Option.some.inj hr
            refine ⟨((m.internalIncomingPresence_keeps _ e).2).trans hm, Or.inr ⟨rfl, Or.inl ?_⟩⟩
            rw [handle_internalIncomingPresence]
            rfl
          · split at hr
            · obtain rfl := Option.some.inj hr
              refine ⟨hm, Or.inr ⟨rfl, Or.inl ?_⟩⟩
              dsimp only
              rw [htell]
              rfl
            · cases hr
        · exact ⟨hm, Or.inr ⟨rfl, Or.inl rfl⟩⟩
    · rw [if_pos (by simp [hvalid]), if_neg hvalid]
      exact ⟨hm, Or.inr ⟨rfl, Or.inl rfl⟩⟩
  · rw [if_neg hname, decide_eq_false hname, Bool.false_and, if_neg Bool.false_ne_true]
    split
    · split
      · exact ⟨hm, Or.inr ⟨rfl, Or.inl rfl⟩⟩
      · refine ⟨?_, Or.inr ⟨rfl, Or.inr ?_⟩⟩
        · exact (internalRosterItems_handler m e).trans hm
        · dsimp only
          rw [handle_internalRosterItems]
          rfl
    · exact ⟨hm, Or.inr ⟨rfl, Or.inl rfl⟩⟩

end PrivateRosterModule

open PrivateRosterModule

/-! ## 3. The answers of one client -/

/-- The stanza approves a subscription of the JID `to`. -/
structure IsApproval (to_ : Str) (e : XmlElement) : Prop where
  name : e.name = QN_PRESENCE
  type : e.attr QN_TYPE = str "subscribed"
  to_ : e.attr QN_TO = to_

/-- Each approval that is sent answers a `subscribe` presence of the JID it goes to. -/
def ApprovesOnRequest (m : XmppRosterModuleImpl) (stanzas : List XmlElement) : Prop :=
  ∀ r ∈ replies m stanzas, ∀ sent ∈ r.2, ∀ to_, IsApproval to_ sent →
    r.1.name = QN_PRESENCE ∧ r.1.attr QN_TYPE = str "subscribe" ∧
      (Jid.ofString (r.1.attr QN_FROM)).toStr = to_

/-- A subscription presence that asks for nothing. -/
def IsNoRequest (e : XmlElement) : Prop :=
  ∃ t, subscriptionType e = some t ∧ t ≠ .subscribe

theorem subscriptionType_spec {e : XmlElement} {t : XmppSubscriptionRequestType}
    (h : subscriptionType e = some t) :
    e.name = QN_PRESENCE ∧ (Jid.ofString (e.attr QN_FROM)).isValid = true ∧
      e.attr QN_TYPE = t.text := by
  unfold subscriptionType at h
  split at h
  · rename_i hpresence
    rw [Bool.and_eq_true, decide_eq_true_eq] at hpresence
    exact ⟨hpresence.1, hpresence.2, stringToSubscriptionRequestType_eq h⟩
  · cases h

/-- The presence that approves a valid JID. -/
theorem approveSubscriber_valid {jid : Jid} (hvalid : jid.isValid = true) :
    ∃ e, approveSubscriber jid = some e ∧ IsApproval jid.toStr e := by
  unfold approveSubscriber sendSubscriptionRequest
  rw [if_neg (by simp [hvalid])]
  refine ⟨_, rfl, rfl, ?_, ?_⟩
  · simp [XmlElement.attr, XmlElement.addAttr, XmlElement.new, QN_TO, QN_TYPE, str]
  · simp [XmlElement.attr, XmlElement.addAttr, XmlElement.new]

/-- The result of a roster push is no presence. -/
theorem pushResult_name (e : XmlElement) : (pushResult e).name = QN_IQ := rfl

/-- One stanza: its answer is right unless the stanza is a subscription presence that asks
for nothing. -/
theorem receive_approves {m : XmppRosterModuleImpl} (hm : m.roster_handler_ = true)
    (e : XmlElement) :
    (∀ sent ∈ (receive m e).2, ∀ to_, IsApproval to_ sent →
        e.name = QN_PRESENCE ∧ e.attr QN_TYPE = str "subscribe" ∧
          (Jid.ofString (e.attr QN_FROM)).toStr = to_) ↔ ¬IsNoRequest e := by
  obtain ⟨-, ⟨⟨t, ht⟩, hsent⟩ | ⟨hnone, hsent⟩⟩ := receive_cases hm e
  · obtain ⟨hname, hvalid, htype⟩ := subscriptionType_spec ht
    obtain ⟨approval, happroval, his⟩ := approveSubscriber_valid hvalid
    rw [hsent, happroval]
    constructor
    · intro h hno
      obtain ⟨t', ht', hne⟩ := hno
      obtain ⟨-, hsubscribe, -⟩ := h approval (by simp) _ his
      have hread := stringToSubscriptionRequestType_text t'
      rw [← (subscriptionType_spec ht').2.2, hsubscribe] at hread
      exact hne (Option.some.inj hread).symm
    · intro hno sent hmem to_ hto
      have hsubscribe : t = .subscribe := by
        by_contra hne
        exact hno ⟨t, ht, hne⟩
      have heq : sent = approval := by simpa using hmem
      rw [heq] at hto
      refine ⟨hname, ?_, his.to_.symm.trans hto.to_⟩
      rw [htype, hsubscribe]
      rfl
  · refine iff_of_true ?_ ?_
    · intro sent hmem to_ hto
      rcases hsent with hnil | hpush
      · rw [hnil] at hmem
        cases hmem
      · rw [hpush, List.mem_singleton] at hmem
        have hname := hto.name
        rw [hmem, pushResult_name] at hname
        exact absurd hname (by decide)
    · rintro ⟨t, ht, -⟩
      rw [hnone] at ht
      cases ht

/-- A sequence of stanzas: the approvals are right exactly when each subscription presence
of a valid sender among them is a `subscribe`. -/
theorem approvesOnRequest_iff {m : XmppRosterModuleImpl} (hm : m.roster_handler_ = true)
    (stanzas : List XmlElement) :
    ApprovesOnRequest m stanzas ↔ ∀ e ∈ stanzas, ¬IsNoRequest e := by
  induction stanzas generalizing m with
  | nil => exact iff_of_true (fun r hr => absurd hr List.not_mem_nil) fun e he => by cases he
  | cons e es ih =>
    have hfirst := receive_approves hm e
    have hrest := ih (receive_cases hm e).1
    unfold ApprovesOnRequest at hrest ⊢
    rw [replies, List.forall_mem_cons, List.forall_mem_cons]
    exact and_congr hfirst hrest

/-! ## 4. Two clients and a relay -/

/-- A client of the relay: its JID, as the relay writes it, and its module. -/
structure RelayClient where
  jid : Str
  module : XmppRosterModuleImpl
  valid : (Jid.ofString jid).isValid = true
  handler : module.roster_handler_ = true

/-- The client gets a stanza: the client after it, and what it sends. -/
def RelayClient.receive (c : RelayClient) (stanza : XmlElement) :
    RelayClient × List XmlElement :=
  let r := PrivateRosterModule.receive c.module stanza
  ({ c with module := r.1, handler := (receive_cases c.handler stanza).1 }, r.2)

/-- The stanza is one the relay forwards. -/
def forwards (e : XmlElement) : Bool :=
  e.name = QN_PRESENCE && (stringToSubscriptionRequestType (e.attr QN_TYPE)).isSome

/-- Two clients, told apart by a boolean, and what the relay has to deliver. -/
structure Relay where
  clients : Bool → RelayClient
  inFlight : List (Bool × XmlElement)

namespace Relay

/-- What the relay makes of the stanzas a client sends: the subscription presences go to
the other client, with the sender's JID. -/
def forward (r : Relay) (sender : Bool) (stanzas : List XmlElement) : List (Bool × XmlElement) :=
  (stanzas.filter forwards).map fun e => (!sender, e.setAttr QN_FROM (r.clients sender).jid)

/-- The relay delivers the next stanza, if there is one. -/
def step (r : Relay) : Relay :=
  match r.inFlight with
  | [] => r
  | (receiver, stanza) :: rest =>
    let c := (r.clients receiver).receive stanza
    { clients := fun b => if b = receiver then c.1 else r.clients b
      inFlight := rest ++ r.forward receiver c.2 }

/-- The relay has one subscription presence to deliver, which one client sent to the
other. -/
def start (clients : Bool → RelayClient) (sender : Bool) (type : XmppSubscriptionRequestType) :
    Relay where
  clients := clients
  inFlight :=
    [(!sender, (((XmlElement.new QN_PRESENCE false).addAttr QN_TO (clients !sender).jid).addAttr
      QN_TYPE type.text).addAttr QN_FROM (clients sender).jid)]

/-- The exchange comes to an end. -/
def Ends (r : Relay) : Prop := ∃ n, (step^[n] r).inFlight = []

/-- What is to be delivered is one subscription presence of the other client. -/
def OneRequest (r : Relay) : Prop :=
  ∃ receiver e, r.inFlight = [(receiver, e)] ∧ forwards e = true ∧
    e.attr QN_FROM = (r.clients !receiver).jid

theorem start_oneRequest (clients : Bool → RelayClient) (sender : Bool)
    (type : XmppSubscriptionRequestType) : (start clients sender type).OneRequest := by
  refine ⟨!sender, _, rfl, ?_, ?_⟩
  · have htype := stringToSubscriptionRequestType_text type
    simp [forwards, XmlElement.attr, XmlElement.addAttr, XmlElement.new, QN_TO, QN_TYPE, str,
      htype]
  · simp [XmlElement.attr, XmlElement.addAttr, XmlElement.new, QN_TO, QN_TYPE, QN_FROM, str, start]

/-- The stanza that is delivered is answered by an approval, which is forwarded. -/
theorem step_oneRequest {r : Relay} (h : r.OneRequest) : r.step.OneRequest := by
  obtain ⟨receiver, e, hflight, hforwards, hfrom⟩ := h
  have hsender := (r.clients !receiver).valid
  rw [← hfrom] at hsender
  obtain ⟨hname, htype⟩ := Bool.and_eq_true_iff.1 hforwards
  obtain ⟨t, ht⟩ := Option.isSome_iff_exists.1 htype
  have hrequest : subscriptionType e = some t := by
    unfold subscriptionType
    rw [hname, hsender, Bool.and_self, if_pos rfl]
    exact ht
  obtain ⟨approval, happroval, his⟩ := approveSubscriber_valid hsender
  have hsent : ((r.clients receiver).receive e).2 = [approval] := by
    obtain ⟨-, ⟨-, hsent⟩ | ⟨hnone, -⟩⟩ := receive_cases (r.clients receiver).handler e
    · rw [happroval] at hsent
      exact hsent
    · rw [hrequest] at hnone
      cases hnone
  have happroves : forwards approval = true := by
    unfold forwards
    rw [decide_eq_true his.name, his.type]
    rfl
  refine ⟨!receiver, approval.setAttr QN_FROM (r.clients receiver).jid, ?_, ?_, ?_⟩
  · unfold step
    rw [hflight]
    dsimp only
    rw [hsent]
    simp [forward, happroves]
  · unfold forwards at happroves ⊢
    rw [XmlElement.attr_setAttr _ _ (by decide)]
    exact (congrArg (fun n => decide (n = QN_PRESENCE) && _) (XmlElement.name_setAttr _ _ _)).trans
      happroves
  · rw [XmlElement.attr_setAttr_self, Bool.not_not]
    unfold step
    rw [hflight]
    dsimp only
    rw [if_pos rfl]
    rfl

/-- The exchange goes on for ever. -/
theorem exchange_goes_on {r : Relay} (h : r.OneRequest) (n : Nat) : (step^[n] r).OneRequest := by
  induction n with
  | zero => exact h
  | succ n ih =>
    rw [Function.iterate_succ_apply']
    exact step_oneRequest ih

end Relay

/-- The approvals a client sends answer `subscribe` presences exactly when every
subscription presence it gets is a `subscribe`; and between two clients the exchange that
one subscription presence starts never ends. -/
theorem auto_approval (stanzas : List XmlElement) (clients : Bool → RelayClient) (sender : Bool)
    (type : XmppSubscriptionRequestType) :
    (ApprovesOnRequest PrivateRosterModule.init stanzas ↔ ∀ e ∈ stanzas, ¬IsNoRequest e) ∧
      ¬(Relay.start clients sender type).Ends := by
  refine ⟨approvesOnRequest_iff rfl stanzas, ?_⟩
  rintro ⟨n, hn⟩
  obtain ⟨receiver, e, hflight, -⟩ :=
    Relay.exchange_goes_on (Relay.start_oneRequest clients sender type) n
  rw [hflight] at hn
  cases hn

/-- A presence that says `subscribed`. -/
def subscribedPresence : XmlElement :=
  ((XmlElement.new QN_PRESENCE false).addAttr QN_FROM (str "a@b")).addAttr QN_TYPE
    (str "subscribed")

/-- To `subscribed` the client says `subscribed`. -/
theorem auto_approval_unasked : ¬ApprovesOnRequest PrivateRosterModule.init [subscribedPresence] := by
  rw [approvesOnRequest_iff rfl]
  intro h
  exact h subscribedPresence (by simp) ⟨.subscribed, by decide, by decide⟩

end Gxmpp
