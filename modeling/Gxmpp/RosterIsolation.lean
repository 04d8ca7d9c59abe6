/-
Who can change the roster.

Roster updates come in two ways. The answer to a request of the module is matched by the
engine against the request, which has no destination, so only a stanza without a sender is
taken for it. A roster push is taken from anybody: `HandleStanza` does not look at the
sender. So a stranger cannot change the roster except by a roster push with a valid item,
and with one of those it can.

The argument is by projection. `RosterView` is what the contacts depend on: whether the
engine is closed, how often the module is registered, the requests without a destination,
and the contacts. What a stanza does to the view depends on the view alone
(`view_receive`), and a stanza of a stranger that is no such push does nothing to it
(`receive_stranger`); two runs that differ by such stanzas therefore end in the same view.
-/
import Gxmpp.IqAnswers
import Gxmpp.IqRouting
import Mathlib.Logic.Function.Iterate

set_option autoImplicit false

namespace Gxmpp

open World Reentrant

/-! ## 1. The contacts -/

/-- The contacts of a module, if it is a roster module. -/
def Module.contacts : Module → List XmppRosterContactImpl
  | .roster m => m.contacts_
  | _ => []

/-- What a stanza does to the contacts of the roster module. -/
theorem handleStanza_contacts {m : Module} (hm : m.isRoster = true) (stanza : XmlElement) :
    (m.handleStanza stanza).1.contacts = pushTaken stanza m.contacts := by
  cases m with
  | chatroom | application => cases hm
  | roster m =>
    exact m.handleStanza_contacts stanza

theorem iqResponse_contacts {m : Module} (hm : m.isRoster = true) (stanza : XmlElement) :
    (m.iqResponse stanza).contacts = answerTaken stanza m.contacts := by
  cases m with
  | chatroom | application => cases hm
  | roster m =>
    exact m.iqResponse_contacts stanza

theorem iqResponse_isRoster (m : Module) (stanza : XmlElement) :
    (m.iqResponse stanza).isRoster = m.isRoster := by
  cases m <;> rfl

/-! ## 2. The view -/

/-- What the contacts of the roster module depend on. -/
structure RosterView where
  closed : Bool
  registrations : Nat
  entries : List XmppIqEntry
  contacts : List XmppRosterContactImpl

/-- The view of a session: the entries are those without a destination. -/
def Session.view (h : Handler) (s : Session) : RosterView where
  closed := s.closed
  registrations := (s.handlers .peek).count h
  entries := s.entries.filter fun x => x.to_ = []
  contacts := (s.modules h).contacts

/-- The entry of the view that a stanza answers. -/
def RosterView.answered (v : RosterView) (stanza : XmlElement) : Option XmppIqEntry :=
  if stanza.name = QN_IQ
    && (stanza.attr QN_TYPE = str "result" || stanza.attr QN_TYPE = str "error")
      && stanza.hasAttr QN_ID then
    v.entries.find? fun x => answers x stanza
  else none

/-- What the parser reports, as the view sees it. -/
def RosterView.receive (h : Handler) (v : RosterView) (ev : StanzaEvent) : RosterView :=
  if v.closed then v
  else
    match ev with
    | .stanza stanza =>
      if stanza.name = QN_STREAM_ERROR then { v with closed := true }
      else
        match v.answered stanza with
        | some entry =>
          { v with
            entries := v.entries.eraseP fun x => answers x stanza
            contacts := if entry.iq_handler = h then answerTaken stanza v.contacts
              else v.contacts }
        | none => { v with contacts := (pushTaken stanza)^[v.registrations] v.contacts }
    | _ => { v with closed := true }

/-- The handler is a roster module, registered at the peek level only, and its requests have
no destination. -/
structure RosterSession (h : Handler) (s : Session) : Prop where
  roster : (s.modules h).isRoster = true
  peeking : h ∉ above s.handlers .peek
  requests : ∀ x ∈ s.entries, x.iq_handler = h → x.to_ = []

variable {h : Handler} {M : Modules} {s : Session} {v : RosterView} {me : Jid} {c : Conf}

theorem set_contacts (M : Modules) (k : Handler) (stanza : XmlElement)
    (hroster : (M h).isRoster = true) :
    (M.set k ((M k).handleStanza stanza).1 h).contacts
      = if k = h then pushTaken stanza (M h).contacts else (M h).contacts := by
  unfold Modules.set
  by_cases hk : h = k
  · rw [if_pos hk, if_pos hk.symm, ← hk]
    exact handleStanza_contacts hroster stanza
  · rw [if_neg hk, if_neg fun heq => hk heq.symm]

/-- The contacts after the peek level. -/
theorem tell_contacts (stanza : XmlElement) (hs : List Handler) (hroster : (M h).isRoster = true) :
    ((M.tell stanza hs).1 h).isRoster = true ∧
      ((M.tell stanza hs).1 h).contacts = (pushTaken stanza)^[hs.count h] (M h).contacts := by
  induction hs generalizing M with
  | nil => exact ⟨hroster, rfl⟩
  | cons k hs ih =>
    have hkind := (set_kind M k stanza h).1.trans hroster
    obtain ⟨hrest, hcontacts⟩ := ih hkind
    unfold Modules.tell
    dsimp only
    refine ⟨hrest, ?_⟩
    rw [hcontacts, set_contacts M k stanza hroster, List.count_cons]
    by_cases hk : k = h
    · simp only [hk, if_true, beq_self_eq_true, Function.iterate_succ_apply]
    · simp [hk]

/-- The levels above do not concern a module that is registered at the peek level only. -/
theorem offer_contacts (stanza : XmlElement) (hs : List Handler) (hmem : h ∉ hs) :
    (M.offer stanza hs).1 h = M h := by
  induction hs generalizing M with
  | nil => rfl
  | cons k hs ih =>
    have hne : h ≠ k := fun heq => hmem (heq ▸ List.mem_cons_self)
    have hset : M.set k ((M k).handleStanza stanza).1 h = M h := by
      unfold Modules.set
      rw [if_neg hne]
    by_cases hhandled : ((M k).handleStanza stanza).2.2 = true
    · rw [offer_taken hhandled]
      exact hset
    · rw [offer_left hhandled]
      exact (ih fun hx => hmem (List.mem_cons_of_mem _ hx)).trans hset

/-- The pushes of a roster module are no answers. -/
theorem pushTaken_answer {stanza : XmlElement}
    (ht : stanza.attr QN_TYPE = str "result" ∨ stanza.attr QN_TYPE = str "error")
    (contacts : List XmppRosterContactImpl) : pushTaken stanza contacts = contacts := by
  unfold pushTaken isRosterPush
  rw [if_neg]
  simp only [Bool.and_eq_true, decide_eq_true_eq]
  rintro ⟨-, -, hset⟩
  rcases ht with ht | ht <;> rw [ht] at hset <;> revert hset <;> decide

/-- Which entry a stanza answers, for the session and for the view. A stanza with a sender
answers none of the view. -/
theorem answered_cases (h : Handler) (s : Session) (stanza : XmlElement) :
    (stanza.attr QN_FROM = [] ∧ s.answered stanza = (s.view h).answered stanza) ∨
    (stanza.attr QN_FROM ≠ [] ∧ (s.view h).answered stanza = none) := by
  unfold Session.answered RosterView.answered Session.view
  dsimp only
  by_cases hfrom : stanza.attr QN_FROM = []
  · refine .inl ⟨hfrom, ?_⟩
    congr 1
    rw [List.find?_filter]
    congr 1
    funext x
    unfold answers
    rw [hfrom]
    by_cases hto : x.to_ = [] <;> simp [hto]
  · refine .inr ⟨hfrom, ?_⟩
    split
    · refine List.find?_eq_none.2 fun x hx => ?_
      have hto : x.to_ = [] := by simpa using (List.mem_filter.1 hx).2
      unfold answers
      rw [hto]
      simpa using fun _ => fun heq => hfrom heq
    · rfl

/-- What an answer takes out of the entries, for the view. -/
theorem filter_eraseP (stanza : XmlElement) (entries : List XmppIqEntry) :
    (entries.eraseP fun x => answers x stanza).filter (fun x => x.to_ = [])
      = if stanza.attr QN_FROM = [] then
          (entries.filter fun x => x.to_ = []).eraseP fun x => answers x stanza
        else entries.filter fun x => x.to_ = [] := by
  have hsender : ∀ x : XmppIqEntry, answers x stanza = true → x.to_ = stanza.attr QN_FROM := by
    intro x hx
    unfold answers at hx
    rw [Bool.and_eq_true] at hx
    exact of_decide_eq_true hx.2
  induction entries with
  | nil =>
    split <;> rfl
  | cons x entries ih =>
    by_cases hx : answers x stanza = true
    · rw [List.eraseP_cons_of_pos (p := fun x => answers x stanza) hx]
      by_cases hfrom : stanza.attr QN_FROM = []
      · rw [if_pos hfrom, List.filter_cons_of_pos (by simpa [hfrom] using hsender x hx),
          List.eraseP_cons_of_pos (p := fun x => answers x stanza) hx]
      · rw [if_neg hfrom, List.filter_cons_of_neg (by simpa [hsender x hx] using hfrom)]
    · rw [List.eraseP_cons_of_neg (p := fun x => answers x stanza) hx]
      by_cases hto : x.to_ = []
      · rw [List.filter_cons_of_pos (by simpa using hto), ih,
          List.filter_cons_of_pos (by simpa using hto)]
        split
        · rw [List.eraseP_cons_of_neg (p := fun x => answers x stanza) hx]
        · rfl
      · rw [List.filter_cons_of_neg (by simpa using hto), ih,
          List.filter_cons_of_neg (by simpa using hto)]

/-- The dispatch of a stanza, for the view. -/
theorem view_dispatch (hs : RosterSession h s) (stanza : XmlElement) :
    (s.dispatch stanza).1.view h
        = { s.view h with
            contacts := (pushTaken stanza)^[(s.view h).registrations] (s.view h).contacts }
      ∧ RosterSession h (s.dispatch stanza).1 := by
  obtain ⟨hroster, hcontacts⟩ := tell_contacts stanza (s.handlers .peek) hs.roster
  have hoffer := offer_contacts stanza (above s.handlers .peek)
    (M := (s.modules.tell stanza (s.handlers .peek)).1) hs.peeking
  have hmodule : (s.dispatch stanza).1.modules h
      = (s.modules.tell stanza (s.handlers .peek)).1 h := hoffer
  refine ⟨?_, ?_, hs.peeking, hs.requests⟩
  · have hview : (s.dispatch stanza).1.view h
        = { s.view h with contacts := ((s.dispatch stanza).1.modules h).contacts } := rfl
    rw [hview, hmodule, hcontacts]
    rfl
  · rw [hmodule]
    exact hroster

/-- An answer, for the view. -/
theorem view_respond (hs : RosterSession h s) (entry : XmppIqEntry) (stanza : XmlElement) :
    (s.respond entry stanza).view h = { s.view h with
        entries := if stanza.attr QN_FROM = [] then
            (s.view h).entries.eraseP fun x => answers x stanza else (s.view h).entries
        contacts := if entry.iq_handler = h then answerTaken stanza (s.view h).contacts
          else (s.view h).contacts } ∧ RosterSession h (s.respond entry stanza) := by
  have hmodule : (s.respond entry stanza).modules h
      = if h = entry.iq_handler then (s.modules entry.iq_handler).iqResponse stanza
        else s.modules h := rfl
  refine ⟨?_, ?_, hs.peeking, fun x hx => hs.requests x (List.mem_of_mem_eraseP hx)⟩
  · have hview : (s.respond entry stanza).view h = { s.view h with
        entries := (s.entries.eraseP fun x => answers x stanza).filter fun x => x.to_ = []
        contacts := ((s.respond entry stanza).modules h).contacts } := rfl
    have hcontacts : ((s.respond entry stanza).modules h).contacts
        = if entry.iq_handler = h then answerTaken stanza (s.view h).contacts
          else (s.view h).contacts := by
      rw [hmodule]
      by_cases hh : entry.iq_handler = h
      · rw [if_pos hh.symm, if_pos hh, hh]
        exact iqResponse_contacts hs.roster stanza
      · rw [if_neg fun heq => hh heq.symm, if_neg hh]
        rfl
    rw [hview, filter_eraseP, hcontacts]
    rfl
  · rw [hmodule]
    by_cases hh : h = entry.iq_handler
    · rw [if_pos hh, iqResponse_isRoster, ← hh]
      exact hs.roster
    · rw [if_neg hh]
      exact hs.roster

/-- The session does to its view what the view says, and stays one of a roster module. -/
theorem view_receive (hs : RosterSession h s) (ev : StanzaEvent) :
    (s.receive ev).1.view h = (s.view h).receive h ev ∧ RosterSession h (s.receive ev).1 := by
  have hclosed : (s.view h).closed = s.closed := rfl
  unfold Session.receive RosterView.receive
  rw [hclosed]
  by_cases hc : s.closed = true
  · rw [if_pos hc, if_pos hc]
    exact ⟨rfl, hs⟩
  · rw [if_neg hc, if_neg hc]
    cases ev with
    | startStream | endStream | xmlError => exact ⟨rfl, hs.roster, hs.peeking, hs.requests⟩
    | stanza stanza =>
      dsimp only
      by_cases hname : stanza.name = QN_STREAM_ERROR
      · rw [if_pos hname, if_pos hname]
        exact ⟨rfl, hs.roster, hs.peeking, hs.requests⟩
      · rw [if_neg hname, if_neg hname]
        rcases answered_cases h s stanza with ⟨hfrom, heq⟩ | ⟨hfrom, hnone⟩
        · -- without a sender, the two look for the same entry
          rw [← heq]
          cases hanswered : s.answered stanza with
          | none => exact view_dispatch hs stanza
          | some entry =>
            obtain ⟨hview, hsession⟩ := view_respond hs entry stanza
            rw [if_pos hfrom] at hview
            exact ⟨hview, hsession⟩
        · -- with a sender, the session may find one that is not of the view
          rw [hnone]
          cases hanswered : s.answered stanza with
          | none => exact view_dispatch hs stanza
          | some entry =>
            obtain ⟨hview, hsession⟩ := view_respond hs entry stanza
            rw [if_neg hfrom] at hview
            unfold Session.answered at hanswered
            split at hanswered
            · rename_i hiq
              simp only [Bool.and_eq_true, Bool.or_eq_true, decide_eq_true_eq] at hiq
              have hsender := List.find?_some (p := fun x => answers x stanza) hanswered
              unfold answers at hsender
              rw [Bool.and_eq_true] at hsender
              have hother : ¬ entry.iq_handler = h := fun hh => hfrom
                ((of_decide_eq_true hsender.2).symm.trans
                  (hs.requests entry (List.mem_of_find?_eq_some hanswered) hh))
              rw [if_neg hother] at hview
              have hkept : (pushTaken stanza)^[(s.view h).registrations] (s.view h).contacts
                  = (s.view h).contacts :=
                Function.iterate_fixed (pushTaken_answer hiq.1.2 _) _
              refine ⟨hview.trans ?_, hsession⟩
              rw [hkept]
              rfl
            · cases hanswered

/-! ## 3. Strangers -/

/-- A message, presence or iq with a sender that is neither the user nor its server. `me` is
the full JID of the user. -/
structure FromStranger (me : Jid) (e : XmlElement) : Prop where
  kind : e.name = QN_MESSAGE ∨ e.name = QN_PRESENCE ∨ e.name = QN_IQ
  present : e.hasAttr QN_FROM = true
  nonempty : e.attr QN_FROM ≠ []
  full : Jid.ofString (e.attr QN_FROM) ≠ me
  bare : Jid.ofString (e.attr QN_FROM) ≠ me.bareJid
  server : Jid.ofString (e.attr QN_FROM) ≠ Jid.ofString me.domain

/-- A roster push that has an item with a valid JID. -/
def intrudes (e : XmlElement) : Bool :=
  e.name = QN_IQ && isRosterPush e && match e.firstNamed QN_ROSTER_QUERY with
    | none => false
    | some result_data => !(XmppRosterModuleImpl.rosterItems result_data).isEmpty

/-- A stanza that is no such push leaves the contacts alone. -/
theorem pushTaken_quiet {e : XmlElement} (h : intrudes e = false)
    (contacts : List XmppRosterContactImpl) : pushTaken e contacts = contacts := by
  unfold pushTaken
  unfold intrudes at h
  by_cases hpush : (e.name = QN_IQ && isRosterPush e) = true
  · rw [if_pos hpush]
    rw [hpush, Bool.true_and] at h
    unfold itemsTaken
    cases hquery : e.firstNamed QN_ROSTER_QUERY with
    | none => rfl
    | some result_data =>
      rw [hquery] at h
      have hnone : XmppRosterModuleImpl.rosterItems result_data = [] := by simpa using h
      dsimp only
      rw [hnone]
      rfl
  · rw [if_neg hpush]

/-- What the strangers may send. -/
def Harmless (me : Jid) (ev : StanzaEvent) : Prop :=
  ∃ e, ev = .stanza e ∧ FromStranger me e ∧ intrudes e = false

/-- The requests in the view have no destination, so a stranger answers none of them. -/
def RosterView.Serverbound (v : RosterView) : Prop := ∀ x ∈ v.entries, x.to_ = []

theorem view_serverbound (h : Handler) (s : Session) : (s.view h).Serverbound :=
  fun _ hx => of_decide_eq_true (List.mem_filter.1 hx).2

theorem receive_serverbound (h : Handler) (hv : v.Serverbound) (ev : StanzaEvent) :
    (v.receive h ev).Serverbound := by
  unfold RosterView.receive
  by_cases hc : v.closed = true
  · rw [if_pos hc]
    exact hv
  · rw [if_neg hc]
    split
    · split
      · exact hv
      · split
        · exact fun x hx => hv x (List.mem_of_mem_eraseP hx)
        · exact hv
    · exact hv

/-- A stranger does nothing to the view. -/
theorem receive_stranger (h : Handler) (hv : v.Serverbound) {ev : StanzaEvent}
    (hev : Harmless me ev) : v.receive h ev = v := by
  obtain ⟨e, rfl, hfrom, hquiet⟩ := hev
  have hstream : ¬ e.name = QN_STREAM_ERROR := by
    rcases hfrom.kind with hk | hk | hk <;> rw [hk] <;> decide
  have hnone : v.answered e = none := by
    unfold RosterView.answered
    split
    · refine List.find?_eq_none.2 fun x hx hanswers => ?_
      unfold answers at hanswers
      rw [Bool.and_eq_true] at hanswers
      -- the sender of the answer would be empty
      exact hfrom.nonempty ((of_decide_eq_true hanswers.2).symm.trans (hv x hx))
    · rfl
  unfold RosterView.receive
  by_cases hc : v.closed = true
  · rw [if_pos hc]
  · rw [if_neg hc]
    dsimp only
    rw [if_neg hstream, hnone]
    dsimp only
    rw [Function.iterate_fixed (pushTaken_quiet hquiet _)]

/-- The second run has more, and what it has more is of this kind. -/
inductive Inserted {α : Type} (Q : α → Prop) : List α → List α → Prop where
  | nil : Inserted Q [] []
  | keep {l l' : List α} (a : α) (h : Inserted Q l l') : Inserted Q (a :: l) (a :: l')
  | insert {l l' : List α} (a : α) (ha : Q a) (h : Inserted Q l l') : Inserted Q l (a :: l')

/-- The view after several reports. -/
def RosterView.receiveAll (h : Handler) (v : RosterView) (evs : List StanzaEvent) : RosterView :=
  evs.foldl (RosterView.receive h) v

/-- The session does to its view what the view says, over a run. -/
theorem view_receiveAll (hs : RosterSession h s) (evs : List StanzaEvent) :
    (s.receiveAll evs).1.view h = (s.view h).receiveAll h evs := by
  induction evs generalizing s with
  | nil => rfl
  | cons ev evs ih =>
    obtain ⟨hview, hsession⟩ := view_receive hs ev
    have hrest : ((s.receive ev).1.receiveAll evs).1.view h
        = ((s.receive ev).1.view h).receiveAll h evs := ih hsession
    rw [hview] at hrest
    exact hrest

/-- Two runs that differ by what strangers send end in one view. -/
theorem receiveAll_inserted {evs evs' : List StanzaEvent} (hins : Inserted (Harmless me) evs evs')
    (h : Handler) (hv : v.Serverbound) : v.receiveAll h evs' = v.receiveAll h evs := by
  induction hins generalizing v with
  | nil => rfl
  | keep ev _ ih => exact ih (receive_serverbound h hv ev)
  | insert ev hev _ ih =>
    unfold RosterView.receiveAll at ih ⊢
    rw [List.foldl_cons, receive_stranger h hv hev]
    exact ih hv

/-! ## 4. The client of the engine -/

/-- A request of the roster module. -/
inductive RosterRequest where
  | update (id : Str)
  | change (id : Str) (contact_xml : XmlElement)
  | remove (id : Str) (jid : Jid)

/-- The iq it sends. -/
def RosterRequest.stanza : RosterRequest → XmlElement
  | update id => XmppRosterModuleImpl.updateRequest id
  | change id contact_xml => XmppRosterModuleImpl.changeRequest id contact_xml
  | remove id jid => XmppRosterModuleImpl.removeRequest id jid

/-- A request goes to the server. -/
theorem RosterRequest.destination (r : RosterRequest) : r.stanza.attr QN_TO = [] := by
  cases r <;> rfl

/-- Handler `h` is a roster module: `RegisterEngine` registers it at the peek level, and its
iqs are its requests. The rest of the application may call what it likes. -/
def RosterClient (h : Handler) (_ : Conf) (m : Call) : Prop :=
  match m with
  | .addStanzaHandler k level => k = h → level = .peek
  | .sendIq (some e) (some k) => k = h → ∃ r : RosterRequest, e = r.stanza
  | _ => True

/-- What the client may call is all that is called. -/
theorem called_reached {Q : Call → Prop} (h : engine.Reaches (fun _ => Q) Conf.init c) :
    ∀ m, Event.called m ∈ c.state.log → Q m := by
  refine Reaches.invariant (I := fun c : Conf => ∀ m, Event.called m ∈ c.state.log → Q m) h ?_ ?_
  · exact fun m hm => (nomatch hm)
  · intro c a c' _ hc ha hs
    rcases step_cases hs with ⟨s, rest, r, -, -, -, hr, rfl⟩ | ⟨m, rfl, -, rfl⟩ |
      ⟨v, s, rest, -, -, -, rfl⟩
    · obtain ⟨es, hes, hall⟩ := (exec_frame hr).grows
      intro m hm
      rw [hes] at hm
      rcases List.mem_append.1 hm with hm | hm
      · exact hc m hm
      · have hemit := hall _ hm
        cases s <;> cases hemit
    · obtain ⟨es, hes, hall⟩ := (entry_frame (enter_entry c.state m)).grows
      intro k hk
      have henter : ((engine.enter c.state m).1).log = (c.state.emit (.called m)).log ++ es := hes
      rw [henter] at hk
      rcases List.mem_append.1 hk with hk | hk
      · rcases List.mem_append.1 hk with hk | hk
        · exact hc k hk
        · rw [Event.called.inj (List.mem_singleton.1 hk)]
          exact ha m rfl
      · have hemit := hall _ hk
        cases m <;> cases hemit
    · exact hc

/-- An outstanding entry was made. -/
theorem created_of_outstanding (log : List Event) :
    ∀ x ∈ (desk log).outstanding, Event.iqCreated x ∈ log := by
  refine List.reverseRecOn log (fun x hx => (nomatch hx)) fun log ev ih x hx => ?_
  rw [desk_snoc] at hx
  unfold Desk.after at hx
  split at hx
  · rcases List.mem_append.1 hx with hx | hx
    · exact List.mem_append_left _ (ih x hx)
    · rw [List.mem_singleton.1 hx]
      exact List.mem_append_right _ List.mem_cons_self
  · exact List.mem_append_left _ (ih x (List.mem_of_mem_erase hx))
  · exact List.mem_append_left _ (ih x (List.mem_of_mem_erase hx))
  · exact List.mem_append_left _ (ih x hx)

/-- The entries of the roster module go to the server. -/
theorem requests_reached (hc : engine.Reaches (RosterClient h) Conf.init c) :
    ∀ x ∈ c.state.eng.iq_entries, x.iq_handler = h → x.to_ = [] := by
  have hrouted := routed_reachable (Reaches.any hc)
  intro x hx hh
  rw [← hrouted.outstanding] at hx
  obtain ⟨before, later, hlog⟩ := List.append_of_mem (created_of_outstanding _ x hx)
  obtain ⟨l, e, k, hbefore, -, hto, hk⟩ := ((iqRouting hrouted.lawful).created _ _ _ hlog).called
  have hcalled : Event.called (.sendIq (some e) (some k)) ∈ c.state.log := by
    rw [hlog, hbefore]
    exact List.mem_append_left _ (List.mem_append_right _ List.mem_cons_self)
  obtain ⟨r, rfl⟩ :=
    called_reached (Q := fun m => RosterClient h c m) hc _ hcalled (hk.symm.trans hh)
  exact hto.trans r.destination

/-- The roster module is at the peek level only. -/
theorem peeking_reached (hc : engine.Reaches (RosterClient h) Conf.init c) :
    ∀ level, level ≠ .peek → h ∉ c.state.eng.stanza_handlers level := by
  refine Reaches.invariant (I := fun c : Conf =>
    ∀ level, level ≠ .peek → h ∉ c.state.eng.stanza_handlers level) hc ?_ ?_
  · exact fun level _ hmem => (nomatch hmem)
  · intro c a c' _ hc ha hs level hlevel
    rcases step_cases hs with ⟨s, rest, r, -, -, -, hr, rfl⟩ | ⟨m, rfl, -, rfl⟩ |
      ⟨v, s, rest, -, -, -, rfl⟩
    · dsimp only
      rw [(exec_frame hr).stanza_handlers]
      exact hc level hlevel
    · have hrule : RosterClient h c m := ha m rfl
      have henter : (engine.enter c.state m).1.eng.stanza_handlers = m.handlersAfter c.state.eng :=
        enter_handlers c.state m
      dsimp only
      rw [henter]
      unfold Call.handlersAfter
      split
      · rename_i k lv
        by_cases hand : level = lv ∧ c.state.eng.state ≠ .closed
        · rw [if_pos hand]
          intro hmem
          rcases List.mem_append.1 hmem with hmem | hmem
          · exact hc level hlevel hmem
          · exact hlevel (hand.1.trans (hrule (List.mem_singleton.1 hmem).symm))
        · rw [if_neg hand]
          exact hc level hlevel
      · exact fun hmem => hc level hlevel (List.mem_of_mem_filter hmem)
      · exact hc level hlevel
    · exact hc level hlevel

/-- The session of an open engine with a roster module. -/
theorem rosterSession_reached (hc : engine.Reaches (RosterClient h) Conf.init c)
    (hroster : (M h).isRoster = true) : RosterSession h (sessionOf c.state M) where
  roster := hroster
  peeking := by
    intro hmem
    obtain ⟨level, hlater, hmem⟩ := List.mem_flatMap.1 hmem
    refine peeking_reached hc level (fun heq => ?_) hmem
    rw [heq] at hlater
    revert hlater
    decide
  requests := requests_reached hc

/-! ## 5. Two runs -/

/-- The calls that give the engine these buffers. -/
def inputs (i : List (List ExpatEvent × XmlErrorCode)) : List (Task Stmt Call Bool) :=
  i.map fun x => .call (.handleInput x.1 x.2)

/-- The contacts of a roster module after a run. -/
theorem contacts_run (hc : engine.Reaches (RosterClient h) Conf.init c)
    (hw : c.waiting engine = true) (hopen : c.state.eng.state = .open)
    (hroster : (M h).isRoster = true) (i : List (List ExpatEvent × XmlErrorCode)) :
    ∃ x, Does (c.state, M) (inputs i) x ∧ Reachable ⟨x.1, c.control⟩ ∧
      (x.2 h).contacts = (((sessionOf c.state M).view h).receiveAll h
        (c.state.eng.stanza_parser_.reports i)).contacts := by
  have hreach := Reaches.any hc
  have hrepresents := open_represents M hreach (waiting_atWork hw) hopen
  obtain ⟨x, hdoes, hx⟩ := inputs_represent i hrepresents fun _ => rfl
  refine ⟨x, hdoes, ?_, ?_⟩
  -- the calls are made where the machine waits, and they return there
  · have hplaced : Placed engine c.control (inputs i) := by
      have hnil : Placed engine c.control ([] : List (Task Stmt Call Bool)) := trivial
      have hcalls := hnil.calls (i.map fun x => Call.handleInput x.1 x.2) fun s hs => by
        rcases waiting_cases hw with hidle | ⟨s', rest, hcontrol, hf⟩
        · exact absurd (hidle ▸ hs) (by simp [controlOf])
        · have hhead : some s' = some s := by
            rw [← hs]
            exact congrArg List.head? hcontrol.symm
          exact Option.some.inj hhead ▸ hf
      rw [List.map_map, List.append_nil] at hcalls
      exact hcalls
    have hcontrol : controlOf c.control (inputs i) = c.control := by
      have hcalls := controlOf_calls c.control (i.map fun x => Call.handleInput x.1 x.2)
        ([] : List (Task Stmt Call Bool))
      rw [List.map_map, List.append_nil] at hcalls
      exact hcalls
    have hrun : engine.Reaches anyCall ⟨c.state, controlOf c.control (inputs i)⟩ ⟨x.1, c.control⟩ :=
      hdoes.reaches hplaced
    rw [hcontrol] at hrun
    exact hreach.trans hrun
  · rw [← view_receiveAll (rosterSession_reached hc hroster), hx.modules]
    rfl

/-- Only the user's own server can change the roster, as long as no stranger sends a roster
push with a valid item. -/
theorem roster_isolated {h : Handler} {c : Conf} {M : Modules}
    (hc : engine.Reaches (RosterClient h) Conf.init c) (hw : c.waiting engine = true)
    (hopen : c.state.eng.state = .open) (hroster : (M h).isRoster = true)
    {i i' : List (List ExpatEvent × XmlErrorCode)}
    (hins : Inserted (Harmless c.state.eng.bound_jid) (c.state.eng.stanza_parser_.reports i)
      (c.state.eng.stanza_parser_.reports i')) :
    ∃ x x', Does (c.state, M) (inputs i) x ∧ Does (c.state, M) (inputs i') x' ∧
      Reachable ⟨x.1, c.control⟩ ∧ Reachable ⟨x'.1, c.control⟩ ∧
      (x'.2 h).contacts = (x.2 h).contacts := by
  obtain ⟨x, hdoes, hx, hcontacts⟩ := contacts_run hc hw hopen hroster i
  obtain ⟨x', hdoes', hx', hcontacts'⟩ := contacts_run hc hw hopen hroster i'
  refine ⟨x, x', hdoes, hdoes', hx, hx', ?_⟩
  rw [hcontacts, hcontacts']
  exact congrArg RosterView.contacts (receiveAll_inserted hins h (view_serverbound h _))

/-! ## 6. A stranger -/

instance (me : Jid) (e : XmlElement) : Decidable (FromStranger me e) :=
  decidable_of_iff ((e.name = QN_MESSAGE ∨ e.name = QN_PRESENCE ∨ e.name = QN_IQ) ∧
      e.hasAttr QN_FROM = true ∧ e.attr QN_FROM ≠ [] ∧ Jid.ofString (e.attr QN_FROM) ≠ me ∧
      Jid.ofString (e.attr QN_FROM) ≠ me.bareJid ∧
      Jid.ofString (e.attr QN_FROM) ≠ Jid.ofString me.domain)
    ⟨fun ⟨kind, present, nonempty, full, bare, server⟩ =>
        ⟨kind, present, nonempty, full, bare, server⟩,
      fun h => ⟨h.kind, h.present, h.nonempty, h.full, h.bare, h.server⟩⟩

/-- The login registers the modules and makes no request. -/
def requestFree : Call → Bool
  | .addStanzaHandler _ level => level = .peek
  | .sendIq _ _ => false
  | _ => true

/-- The client of the runs below. -/
def RequestFree (_ : Conf) (m : Call) : Prop := requestFree m = true

instance (c : Conf) (m : Call) : Decidable (RequestFree c m) :=
    inferInstanceAs (Decidable (_ = true))

theorem RequestFree.rosterClient (h : Handler) (c : Conf) (m : Call) (hm : RequestFree c m) :
    RosterClient h c m := by
  unfold RosterClient
  split
  · exact fun _ => of_decide_eq_true hm
  · cases hm
  · trivial

/-- A roster push with one item. -/
def rosterPush (from' item : Str) : List ExpatEvent × XmlErrorCode :=
  ([.startElement (str "iq") [(str "type", str "set"), (str "from", from'), (str "id", str "q")]]
    ++ tagged (str "query") NS_ROSTER
      [.startElement (str "item") [(str "jid", item)], .endElement (str "item")]
    ++ [.endElement (str "iq")], .none)

/-- A message. -/
def messageFrom (from' : Str) : List ExpatEvent × XmlErrorCode :=
  ([.startElement (str "message") [(str "from", from')], .endElement (str "message")], .none)

/-- The stranger's stanza, if the parser reports just that. -/
def strangers (me : Jid) : List StanzaEvent → Option XmlElement
  | [.stanza e] => if FromStranger me e then some e else none
  | _ => none

theorem strangers_eq {evs : List StanzaEvent} {e : XmlElement} (h : strangers me evs = some e) :
    evs = [.stanza e] ∧ FromStranger me e := by
  unfold strangers at h
  split at h
  · split at h
    · obtain rfl := Option.some.inj h
      exact ⟨rfl, ‹_›⟩
    · cases h
  · cases h

/-- An engine after the login, for which a property holds. -/
theorem exists_opened {p : World → Bool}
    (h : ((engine.drive RequestFree 40 Conf.init loginWithModules).any fun c =>
      c.waiting engine && c.state.eng.state = .open && p c.state) = true) :
    ∃ c, engine.Reaches (RosterClient 7) Conf.init c ∧ c.waiting engine = true ∧
      c.state.eng.state = .open ∧ p c.state = true := by
  obtain ⟨c, hc, hp⟩ := exists_of_drive (P := engine) h
  rw [Bool.and_eq_true, Bool.and_eq_true] at hp
  exact ⟨c, Reaches.mono (RequestFree.rosterClient 7) hc, hp.1.1, of_decide_eq_true hp.1.2, hp.2⟩

theorem Inserted.last {α : Type} {Q : α → Prop} (l : List α) {a : α} (ha : Q a) :
    Inserted Q l (l ++ [a]) := by
  induction l with
  | nil => exact .insert a ha .nil
  | cons b l ih => exact .keep b ih

/-- The server pushes a contact; a stranger's message afterwards changes nothing. -/
theorem roster_isolated_message : ∃ (c : Conf) (x x' : World × Modules),
    Does (c.state, rosterAndChatroom) (inputs [rosterPush [] (str "m@y")]) x ∧
      Does (c.state, rosterAndChatroom)
        (inputs [rosterPush [] (str "m@y"), messageFrom (str "evil@x")]) x' ∧
      (x'.2 7).contacts = (x.2 7).contacts := by
  obtain ⟨c, hc, hw, hopen, hp⟩ := exists_opened (p := fun w =>
    let r := w.eng.stanza_parser_.input (rosterPush [] (str "m@y")).1 .none
    (strangers w.eng.bound_jid (r.1.input (messageFrom (str "evil@x")).1 .none).2).any fun e =>
      !intrudes e) (by decide +kernel)
  obtain ⟨e, he, hquiet⟩ := (Option.any_eq_true _ _).1 hp
  obtain ⟨hreports, hstranger⟩ := strangers_eq he
  have hins : Inserted (Harmless c.state.eng.bound_jid)
      (c.state.eng.stanza_parser_.reports [rosterPush [] (str "m@y")])
      (c.state.eng.stanza_parser_.reports
        [rosterPush [] (str "m@y"), messageFrom (str "evil@x")]) := by
    unfold XmppStanzaParser.reports XmppStanzaParser.reports XmppStanzaParser.reports
    rw [List.append_nil, List.append_nil]
    exact hreports ▸ Inserted.last _ ⟨e, rfl, hstranger, by simpa using hquiet⟩
  obtain ⟨x, x', hdoes, hdoes', -, -, hcontacts⟩ :=
    roster_isolated (M := rosterAndChatroom) hc hw hopen rfl hins
  exact ⟨c, x, x', hdoes, hdoes', hcontacts⟩

/-- A stranger pushes a contact. -/
theorem roster_push_of_stranger : ¬ ∀ (h : Handler) (c : Conf) (M : Modules)
    (i i' : List (List ExpatEvent × XmlErrorCode)) (x x' : World × Modules),
    engine.Reaches (RosterClient h) Conf.init c → c.waiting engine = true →
    c.state.eng.state = .open → (M h).isRoster = true →
    Inserted (fun ev => ∃ e, ev = .stanza e ∧ FromStranger c.state.eng.bound_jid e)
      (c.state.eng.stanza_parser_.reports i) (c.state.eng.stanza_parser_.reports i') →
    Does (c.state, M) (inputs i) x → Does (c.state, M) (inputs i') x' →
    (x'.2 h).contacts = (x.2 h).contacts := by
  intro hall
  obtain ⟨c, hc, hw, hopen, hp⟩ := exists_opened (p := fun w =>
    let reports := w.eng.stanza_parser_.reports [rosterPush (str "evil@x") (str "m@y")]
    (strangers w.eng.bound_jid reports).isSome &&
      (((sessionOf w rosterAndChatroom).view 7).receiveAll 7 reports).contacts.length = 1)
    (by decide +kernel)
  rw [Bool.and_eq_true] at hp
  obtain ⟨e, he⟩ := Option.isSome_iff_exists.1 hp.1
  obtain ⟨hreports, hstranger⟩ := strangers_eq he
  obtain ⟨x, hdoes, -, hcontacts⟩ := contacts_run (M := rosterAndChatroom) hc hw hopen rfl []
  obtain ⟨x', hdoes', -, hcontacts'⟩ := contacts_run (M := rosterAndChatroom) hc hw hopen rfl
    [rosterPush (str "evil@x") (str "m@y")]
  have heq := hall 7 c rosterAndChatroom [] [rosterPush (str "evil@x") (str "m@y")] x x' hc hw hopen
    rfl (hreports ▸ .insert _ ⟨e, rfl, hstranger⟩ .nil) hdoes hdoes'
  have hlength : (x'.2 7).contacts.length = 1 := hcontacts' ▸ of_decide_eq_true hp.2
  rw [heq, hcontacts] at hlength
  cases hlength

end Gxmpp
