/-
An application that follows the contacts through the callbacks of its roster handler.

A callback names positions, and the application reads the contacts at those positions from
the module while the callback runs, so what is replayed is a callback together with the
contacts of that moment. The contacts of a first load are announced at the end of the
stanza, those of a later one item by item, and a change or a removal at once: in each case
the observer is brought to the contacts of that moment (`ItemStep.replays`).
-/
import Gxmpp.RosterContacts

set_option autoImplicit false

namespace Gxmpp

open XmppRosterModuleImpl

/-! ## 1. The callbacks and the contacts at the time -/

/-- A callback, and the contacts of the module while it runs. -/
abbrev Announced := RosterCallback × List XmppRosterContactImpl

namespace XmppRosterModuleImpl

theorem tell_aside (m : XmppRosterModuleImpl) {cb : RosterCallback} (h : isAside cb = true) :
    ∀ x ∈ m.tell cb, isAside x = true := by
  intro x hx
  unfold tell at hx
  by_cases hhandler : m.roster_handler_ = true
  · rw [if_pos hhandler] at hx
    rw [List.mem_singleton.1 hx]
    exact h
  · rw [if_neg hhandler] at hx
    exact absurd hx List.not_mem_nil

theorem internalIncomingPresence_told (m : XmppRosterModuleImpl) (jid : Jid) (stanza : XmlElement) :
    ∀ cb ∈ (m.internalIncomingPresence jid stanza).2, isAside cb = true := by
  unfold internalIncomingPresence
  dsimp only
  split
  · exact tell_aside m rfl
  · split <;> exact tell_aside m rfl

theorem internalRosterItems_handler (m : XmppRosterModuleImpl) (stanza : XmlElement) :
    (m.internalRosterItems stanza).1.roster_handler_ = m.roster_handler_ := by
  unfold internalRosterItems
  cases stanza.firstNamed QN_ROSTER_QUERY <;> rfl

/-- A stanza is a roster push, or the handler is told about no contact. -/
theorem handleStanza_told (m : XmppRosterModuleImpl) (e : XmlElement) :
    if e.name = QN_IQ && isRosterPush e then (m.handleStanza e).told = (m.internalRosterItems e).2
    else ∀ cb ∈ (m.handleStanza e).told, isAside cb = true := by
  have hhandling := m.handleStanza_handling e
  generalize m.handleStanza e = r at hhandling
  cases hhandling with
  | push hpush _ => rw [if_pos hpush]
  | presence hpush _ =>
    rw [if_neg (Bool.eq_false_iff.1 hpush)]
    exact m.internalIncomingPresence_told _ e
  | told cb haside hpush _ =>
    rw [if_neg (Bool.eq_false_iff.1 hpush)]
    exact tell_aside m haside
  | left hpush _ =>
    rw [if_neg (Bool.eq_false_iff.1 hpush)]
    exact fun cb hcb => absurd hcb List.not_mem_nil

/-- The handler stays set. -/
theorem deliver_handler (m : XmppRosterModuleImpl) (d : RosterDelivery) :
    (m.deliver d).1.roster_handler_ = m.roster_handler_ := by
  cases d with
  | result e =>
    show (m.iqResponse e).1.roster_handler_ = m.roster_handler_
    unfold iqResponse
    by_cases herror : e.attr QN_TYPE = str "error"
    · rw [if_pos herror]
    · rw [if_neg herror]
      exact internalRosterItems_handler m e
  | stanza e =>
    show (m.handleStanza e).module.roster_handler_ = m.roster_handler_
    have hhandling := m.handleStanza_handling e
    generalize m.handleStanza e = r at hhandling
    cases hhandling with
    | push _ _ => exact internalRosterItems_handler m e
    | presence _ _ => exact (m.internalIncomingPresence_keeps _ e).2
    | told | left => rfl

/-- The callbacks of the loop of `InternalRosterItems`. The contacts are changed first. -/
def loopTrace (all_new : Bool) : List XmlElement → List XmppRosterContactImpl → List Announced
  | [], _ => []
  | item :: items, contacts =>
    let r := rosterItem all_new contacts item
    r.2.map (fun cb => (cb, r.1)) ++ loopTrace all_new items r.1

/-- The callbacks of `InternalRosterItems`. -/
def itemsTrace (m : XmppRosterModuleImpl) (stanza : XmlElement) : List Announced :=
  match stanza.firstNamed QN_ROSTER_QUERY with
  | none => []
  | some result_data =>
    let all_new := m.contacts_.isEmpty
    let contacts := (rosterLoop all_new (rosterItems result_data) m.contacts_).1
    let trace := loopTrace all_new (rosterItems result_data) m.contacts_
    if m.roster_handler_ then
      if all_new then trace ++ [(.contactsAdded 0 contacts.length, contacts)] else trace
    else []

/-- The callbacks of a delivery. All but those of `InternalRosterItems` leave the contacts
alone. -/
def trace (m : XmppRosterModuleImpl) : RosterDelivery → List Announced
  | .result e =>
    if e.attr QN_TYPE = str "error" then (m.iqResponse e).2.map fun cb => (cb, m.contacts_)
    else m.itemsTrace e
  | .stanza e =>
    if e.name = QN_IQ && isRosterPush e then m.itemsTrace e
    else (m.handleStanza e).told.map fun cb => (cb, m.contacts_)

/-- The callbacks of some deliveries. -/
def traceAll (m : XmppRosterModuleImpl) : List RosterDelivery → List Announced
  | [] => []
  | d :: ds => m.trace d ++ (m.deliver d).1.traceAll ds

/-- What the handler is told by some deliveries. -/
def toldAll (m : XmppRosterModuleImpl) : List RosterDelivery → List RosterCallback
  | [] => []
  | d :: ds => (m.deliver d).2 ++ (m.deliver d).1.toldAll ds

theorem loopTrace_told (all_new : Bool) (items : List XmlElement)
    (contacts : List XmppRosterContactImpl) :
    (loopTrace all_new items contacts).map Prod.fst = (rosterLoop all_new items contacts).2 := by
  induction items generalizing contacts with
  | nil => rfl
  | cons item items ih =>
    have htold : ∀ (told : List RosterCallback) (now : List XmppRosterContactImpl),
        (told.map fun cb => ((cb, now) : Announced)).map Prod.fst = told := by
      intro told now
      rw [List.map_map]
      exact List.map_id told
    unfold loopTrace rosterLoop
    dsimp only
    rw [List.map_append, htold, ih]

theorem itemsTrace_told (m : XmppRosterModuleImpl) (stanza : XmlElement) :
    (m.itemsTrace stanza).map Prod.fst = (m.internalRosterItems stanza).2 := by
  unfold itemsTrace internalRosterItems
  cases stanza.firstNamed QN_ROSTER_QUERY with
  | none => rfl
  | some result_data =>
    dsimp only
    by_cases hhandler : m.roster_handler_ = true
    · rw [if_pos hhandler, if_pos hhandler]
      by_cases hnew : m.contacts_.isEmpty = true
      · rw [if_pos hnew, if_pos hnew, List.map_append, loopTrace_told]
        rfl
      · rw [if_neg hnew, if_neg hnew, loopTrace_told]
    · rw [if_neg hhandler, if_neg hhandler]
      rfl

/-- The callbacks are those the handler is told. -/
theorem trace_told (m : XmppRosterModuleImpl) (d : RosterDelivery) :
    (m.trace d).map Prod.fst = (m.deliver d).2 := by
  have htold : ∀ told : List RosterCallback,
      (told.map fun cb => ((cb, m.contacts_) : Announced)).map Prod.fst = told := by
    intro told
    rw [List.map_map]
    exact List.map_id told
  cases d with
  | result e =>
    unfold trace deliver
    dsimp only
    by_cases herror : e.attr QN_TYPE = str "error"
    · rw [if_pos herror, htold]
    · rw [if_neg herror, itemsTrace_told]
      exact congrArg Prod.snd (if_neg herror).symm
  | stanza e =>
    unfold trace deliver
    dsimp only
    by_cases hpush : (e.name = QN_IQ && isRosterPush e) = true
    · have htold := m.handleStanza_told e
      rw [if_pos hpush] at htold
      rw [if_pos hpush, itemsTrace_told, htold]
    · rw [if_neg hpush, htold]

theorem traceAll_told (m : XmppRosterModuleImpl) (ds : List RosterDelivery) :
    (m.traceAll ds).map Prod.fst = m.toldAll ds := by
  induction ds generalizing m with
  | nil => rfl
  | cons d ds ih =>
    unfold traceAll toldAll
    rw [List.map_append, trace_told, ih]

end XmppRosterModuleImpl

/-! ## 2. The observer -/

/-- The observer after a callback; `now` are the contacts of the module while it runs. -/
def replay (observed : List XmppRosterContactImpl) (cb : RosterCallback)
    (now : List XmppRosterContactImpl) : List XmppRosterContactImpl :=
  match cb with
  | .contactsAdded index number =>
    observed.take index ++ (now.drop index).take number ++ observed.drop index
  | .contactChanged _ index =>
    match now[index]? with
    | some contact => observed.set index contact
    | none => observed
  | .contactRemoved _ index => observed.eraseIdx index
  | _ => observed

/-- The contact a callback says was changed or removed is the observer's at that index. -/
def Fits (observed : List XmppRosterContactImpl) : RosterCallback → Prop
  | .contactChanged old_contact index => observed[index]? = some old_contact
  | .contactRemoved removed_contact index => observed[index]? = some removed_contact
  | _ => True

/-- An observer replays callbacks that fit when they come. -/
inductive Replays : List XmppRosterContactImpl → List Announced →
    List XmppRosterContactImpl → Prop
  | nil (observed : List XmppRosterContactImpl) : Replays observed [] observed
  | cons {observed observed' : List XmppRosterContactImpl} {e : Announced} {trace : List Announced}
      (hfits : Fits observed e.1) (hrest : Replays (replay observed e.1 e.2) trace observed') :
      Replays observed (e :: trace) observed'

theorem Replays.append {observed observed' observed'' : List XmppRosterContactImpl}
    {trace trace' : List Announced} (h : Replays observed trace observed')
    (h' : Replays observed' trace' observed'') : Replays observed (trace ++ trace') observed'' := by
  induction h with
  | nil observed => exact h'
  | cons hfits _ ih => exact .cons hfits (ih h')

theorem Replays.single {observed observed' : List XmppRosterContactImpl} {cb : RosterCallback}
    {now : List XmppRosterContactImpl} (hfits : Fits observed cb)
    (hreplay : replay observed cb now = observed') : Replays observed [(cb, now)] observed' := by
  refine .cons hfits ?_
  rw [hreplay]
  exact .nil _

/-- An item brings the observer from the contacts before it to those after it. -/
theorem ItemStep.replays {item : XmlElement} {contacts : List XmppRosterContactImpl}
    {r : List XmppRosterContactImpl × List RosterCallback} (h : ItemStep item contacts r) :
    Replays contacts (r.2.map fun cb => (cb, r.1)) r.1 := by
  cases h with
  | removed front contact back hfront hjid hremoves =>
    refine .single ?_ ?_
    · show (front ++ contact :: back)[front.length]? = some contact
      simp
    · show (front ++ contact :: back).eraseIdx front.length = front ++ back
      rw [List.eraseIdx_append_of_length_le (Nat.le_refl _), Nat.sub_self]
      rfl
  | changed front contact back hfront hjid hremoves =>
    refine .single ?_ ?_
    · show (front ++ contact :: back)[front.length]? = some contact
      simp
    · -- the contact at that index is the item
      have hnow : (front ++ (⟨item⟩ : XmppRosterContactImpl) :: back)[front.length]?
          = some ⟨item⟩ := by simp
      unfold replay
      simp only [hnow]
      rw [List.set_append_right _ _ (Nat.le_refl _), Nat.sub_self]
      rfl
  | added contacts hfree =>
    refine .single trivial ?_
    unfold replay
    simp

/-- The loop over searched contacts. -/
theorem loopTrace_replays (items : List XmlElement) (contacts : List XmppRosterContactImpl) :
    Replays contacts (loopTrace false items contacts) (rosterLoop false items contacts).1 := by
  induction items generalizing contacts with
  | nil => exact .nil contacts
  | cons item items ih => exact (rosterItem_step contacts item).replays.append (ih _)

/-- A first load tells nothing before its end. -/
theorem loopTrace_new (items : List XmlElement) (contacts : List XmppRosterContactImpl) :
    loopTrace true items contacts = [] := by
  induction items generalizing contacts with
  | nil => rfl
  | cons item items ih => exact ih (contacts ++ [⟨item⟩])

theorem itemsTrace_replays {m : XmppRosterModuleImpl} (hhandler : m.roster_handler_ = true)
    (stanza : XmlElement) :
    Replays m.contacts_ (m.itemsTrace stanza) (m.internalRosterItems stanza).1.contacts_ := by
  unfold itemsTrace internalRosterItems
  cases stanza.firstNamed QN_ROSTER_QUERY with
  | none => exact .nil _
  | some result_data =>
    dsimp only
    rw [if_pos hhandler]
    by_cases hnew : m.contacts_.isEmpty = true
    · -- the observer has nothing, and gets all contacts at once
      have hnil : m.contacts_ = [] := List.isEmpty_iff.1 hnew
      rw [if_pos hnew, hnew, hnil, loopTrace_new, List.nil_append]
      refine .single trivial ?_
      unfold replay
      simp
    · rw [if_neg hnew, Bool.eq_false_iff.2 hnew]
      exact loopTrace_replays _ _

/-! ## 3. Runs -/

theorem Replays.aside {told : List RosterCallback} (h : ∀ cb ∈ told, isAside cb = true)
    (observed now : List XmppRosterContactImpl) :
    Replays observed (told.map fun cb => (cb, now)) observed := by
  induction told with
  | nil => exact .nil observed
  | cons cb told ih =>
    have hcb := h cb List.mem_cons_self
    have hrest := ih fun x hx => h x (List.mem_cons_of_mem cb hx)
    cases cb with
    | subscriptionRequest | subscriptionError | rosterError | incomingPresenceChanged =>
      exact .cons trivial hrest
    | contactChanged | contactsAdded | contactRemoved => cases hcb

theorem deliver_replays {m : XmppRosterModuleImpl} (hhandler : m.roster_handler_ = true)
    (d : RosterDelivery) : Replays m.contacts_ (m.trace d) (m.deliver d).1.contacts_ := by
  cases d with
  | result e =>
    unfold trace deliver iqResponse
    dsimp only
    by_cases herror : e.attr QN_TYPE = str "error"
    · rw [if_pos herror, if_pos herror]
      exact .aside (tell_aside m rfl) _ _
    · rw [if_neg herror, if_neg herror]
      exact itemsTrace_replays hhandler e
  | stanza e =>
    have hcontacts : (m.deliver (.stanza e)).1.contacts_ = _ := m.handleStanza_contacts e
    rw [hcontacts]
    unfold trace pushTaken
    dsimp only
    -- only a push touches the contacts; anything else calls back about other things
    by_cases hpush : (e.name = QN_IQ && isRosterPush e) = true
    · rw [if_pos hpush, if_pos hpush, ← internalRosterItems_contacts]
      exact itemsTrace_replays hhandler e
    · have htold := m.handleStanza_told e
      rw [if_neg hpush] at htold
      rw [if_neg hpush, if_neg hpush]
      exact .aside htold _ _

theorem traceAll_replays {m : XmppRosterModuleImpl} (hhandler : m.roster_handler_ = true)
    (ds : List RosterDelivery) :
    Replays m.contacts_ (m.traceAll ds) (m.deliverAll ds).contacts_ := by
  induction ds generalizing m with
  | nil => exact .nil m.contacts_
  | cons d ds ih =>
    have hrest := ih ((deliver_handler m d).trans hhandler)
    exact (deliver_replays hhandler d).append hrest

/-- An observer that starts with no contacts and replays the callbacks holds the contacts of
the module after every stanza, and what it is told was changed or removed is what it holds
there. -/
theorem roster_observed (ds : List RosterDelivery) :
    ((start true).traceAll ds).map Prod.fst = (start true).toldAll ds
      ∧ Replays [] ((start true).traceAll ds) ((start true).deliverAll ds).contacts_ :=
  ⟨traceAll_told (start true) ds, traceAll_replays (m := start true) rfl ds⟩

end Gxmpp
