/-
`talk/xmpp/xmpptask.cc`: how a task recognises the answer to its request, and how
that compares with the way the engine does.

`HandleIqResponse` compares the sender of a reply with the destination of the
request as text. `MatchStanzaFrom` parses both, and lets the server answer for
the empty destination under its own name or the user's. It takes the failure value
of the parser for a sender, and a sender it cannot parse may be equal to the
destination.
-/
import Gxmpp.JidNormal
import Gxmpp.EngineCases

set_option autoImplicit false

namespace Gxmpp

namespace XmppTask

/-- `XmppTask::MatchStanzaFrom`. `me` is the JID of the client. -/
def matchStanzaFrom (me : Jid) (stanza : XmlElement) (to_ : Jid) : Bool :=
  let from' := Jid.ofString (stanza.attr QN_FROM)
  if from' = to_ then true
  else if !to_.isEmpty then false
  else from' = Jid.ofString me.domain || from' = me.bareJid

/-- `XmppTask::MatchResponseIq`. -/
def matchResponseIq (me : Jid) (stanza : XmlElement) (to_ : Jid) (id : Str) : Bool :=
  if stanza.name ≠ QN_IQ then false
  else if stanza.attr QN_ID ≠ id then false
  else matchStanzaFrom me stanza to_

/-- What `IqTask::HandleStanza` and `PingTask::HandleStanza` take: a result or an error that
answers the request. -/
def takesResponse (me : Jid) (stanza : XmlElement) (to_ : Jid) (id : Str) : Bool :=
  matchResponseIq me stanza to_ id
    && (stanza.attr QN_TYPE = STR_RESULT || stanza.attr QN_TYPE = STR_ERROR)

/-- What `MatchStanzaFrom` accepts: the destination itself, or for the empty destination
the user's server or bare JID. -/
theorem matchStanzaFrom_iff (me : Jid) (stanza : XmlElement) (to_ : Jid) :
    matchStanzaFrom me stanza to_ = true ↔
      Jid.ofString (stanza.attr QN_FROM) = to_ ∨
      (to_.isEmpty = true ∧ (Jid.ofString (stanza.attr QN_FROM) = Jid.ofString me.domain
        ∨ Jid.ofString (stanza.attr QN_FROM) = me.bareJid)) := by
  unfold matchStanzaFrom
  by_cases heq : Jid.ofString (stanza.attr QN_FROM) = to_
  · simp [heq]
  · by_cases hempty : to_.isEmpty = true <;> simp [heq, hempty]

/-! ## The sender of a stanza -/

/-- What accepting a stanza is to mean: its sender is a valid JID, namely the
destination, or the empty destination is answered without a sender, by the user's
server or from the user's bare JID. -/
def SenderChecked (me to_ : Jid) (stanza : XmlElement) : Prop :=
  matchStanzaFrom me stanza to_ = true →
    ((Jid.ofString (stanza.attr QN_FROM)).isValid = true
      ∧ Jid.ofString (stanza.attr QN_FROM) = to_) ∨
    (to_.isEmpty = true ∧ stanza.attr QN_FROM = []) ∨
    (to_.isEmpty = true ∧ (Jid.ofString (stanza.attr QN_FROM)).isValid = true
      ∧ (Jid.ofString (stanza.attr QN_FROM) = Jid.ofString me.domain
        ∨ Jid.ofString (stanza.attr QN_FROM) = me.bareJid))

/-- The domain of a JID is parsed to a valid JID, if there is one. -/
theorem ofString_domain (a : Jid.Args) :
    Jid.ofString (Jid.make a).domain = Jid.empty
      ∨ (Jid.ofString (Jid.make a).domain).isValid = true := by
  by_cases hvalid : (Jid.make a).isValid = true
  · have h := Jid.Prepared.of_valid hvalid
    -- the JID of the domain alone is prepared, and prints as the domain
    have hserver : Jid.Prepared ⟨[], (Jid.make a).domain, []⟩ := ⟨rfl, h.domain, rfl⟩
    have hslices := hserver.slices_toStr hvalid
    have hprint : Jid.toStr ⟨[], (Jid.make a).domain, []⟩ = (Jid.make a).domain := by
      have hinvalid : ¬ (!(Jid.isValid ⟨[], (Jid.make a).domain, []⟩)) = true := by
        have hvalid' : Jid.isValid ⟨[], (Jid.make a).domain, []⟩ = true := hvalid
        rw [hvalid']
        decide
      unfold Jid.toStr
      rw [if_neg hinvalid]
      exact List.append_nil _
    rw [hprint] at hslices
    have hmake := Jid.make_eq (.text (Jid.make a).domain)
    rw [hslices] at hmake
    have heq : Jid.ofString (Jid.make a).domain = ⟨[], (Jid.make a).domain, []⟩ :=
      hmake.trans hserver.ofParts_eq
    refine Or.inr ?_
    rw [heq]
    exact hvalid
  · have hnil : (Jid.make a).domain = [] := by
      unfold Jid.isValid at hvalid
      simpa using hvalid
    rw [hnil]
    exact Or.inl rfl

/-- The bare JID of a JID is valid, if the JID is. -/
theorem bareJid_valid (a : Jid.Args) :
    (Jid.make a).bareJid = Jid.empty ∨ (Jid.make a).bareJid.isValid = true := by
  by_cases hvalid : (Jid.make a).isValid = true
  · refine Or.inr ?_
    rw [(Jid.Prepared.of_valid hvalid).bareJid_eq hvalid]
    exact hvalid
  · refine Or.inl ?_
    unfold Jid.bareJid
    rw [if_pos (by simpa using hvalid)]

theorem eq_empty_of_isEmpty {j : Jid} (h : j.isEmpty = true) : j = Jid.empty := by
  obtain ⟨node, domain, resource⟩ := j
  unfold Jid.isEmpty at h
  simp only [Bool.and_eq_true, List.isEmpty_iff] at h
  obtain ⟨⟨rfl, rfl⟩, rfl⟩ := h
  rfl

/-- The sender is checked exactly where it is absent or parses, or what is left of it
after the failure is not the destination. -/
theorem sender_checked_iff (own dest : Jid.Args) (stanza : XmlElement) :
    SenderChecked (Jid.make own) (Jid.make dest) stanza ↔
      stanza.attr QN_FROM = [] ∨ (Jid.ofString (stanza.attr QN_FROM)).isValid = true
        ∨ Jid.ofString (stanza.attr QN_FROM) ≠ Jid.make dest := by
  unfold SenderChecked
  rw [matchStanzaFrom_iff]
  by_cases habsent : stanza.attr QN_FROM = []
  · refine iff_of_true ?_ (Or.inl habsent)
    rintro (heq | ⟨hempty, -⟩)
    · -- an absent sender is parsed to the empty JID
      have hempty : (Jid.make dest).isEmpty = true := by
        rw [← heq, habsent]
        rfl
      exact Or.inr (Or.inl ⟨hempty, habsent⟩)
    · exact Or.inr (Or.inl ⟨hempty, habsent⟩)
  · by_cases hvalid : (Jid.ofString (stanza.attr QN_FROM)).isValid = true
    · refine iff_of_true ?_ (Or.inr (Or.inl hvalid))
      rintro (heq | ⟨hempty, hself⟩)
      · exact Or.inl ⟨hvalid, heq⟩
      · exact Or.inr (Or.inr ⟨hempty, hvalid, hself⟩)
    · constructor
      · intro h
        refine Or.inr (Or.inr fun heq => ?_)
        rcases h (Or.inl heq) with ⟨hv, -⟩ | ⟨-, ha⟩ | ⟨-, hv, -⟩
        · exact hvalid hv
        · exact habsent ha
        · exact hvalid hv
      · rintro (ha | hv | hne)
        · exact absurd ha habsent
        · exact absurd hv hvalid
        · rintro (heq | ⟨hempty, hself⟩)
          · exact absurd heq hne
          · -- the server's and the user's own JID are valid or empty, like the destination
            have hdest := eq_empty_of_isEmpty hempty
            rcases hself with hserver | hbare
            · rcases ofString_domain own with hnone | hv
              · exact absurd (hserver.trans (hnone.trans hdest.symm)) hne
              · rw [← hserver] at hv
                exact absurd hv hvalid
            · rcases bareJid_valid own with hnone | hv
              · exact absurd (hbare.trans (hnone.trans hdest.symm)) hne
              · rw [← hbare] at hv
                exact absurd hv hvalid

/-- A reply from "@" answers a request to the server. -/
theorem sender_unchecked :
    ¬ SenderChecked (Jid.make (.text (str "alice@example.com/desk"))) (Jid.make (.text []))
      ((XmlElement.new QN_IQ false).addAttr QN_FROM (str "@")) := by
  intro h
  rcases h (by decide) with ⟨hvalid, -⟩ | ⟨-, habsent⟩ | ⟨-, hvalid, -⟩
  · revert hvalid
    decide
  · revert habsent
    decide
  · revert hvalid
    decide

/-! ## The engine and the task -/

/-- A reply to the request: an iq of type result or error with its id. -/
structure IsReply (request reply : XmlElement) : Prop where
  name : reply.name = QN_IQ
  type : reply.attr QN_TYPE = str "result" ∨ reply.attr QN_TYPE = str "error"
  hasId : reply.hasAttr QN_ID = true
  id : reply.attr QN_ID = request.attr QN_ID

/-- The engine, with this entry, takes the reply for its answer. -/
def Delivers (w : World) (entry : XmppIqEntry) (reply : XmlElement) : Prop :=
  ((w.set { w.eng with iq_entries := [entry] }).handleIqResponse reply).isSome = true

/-- The entry `SendIq` makes keeps the id and the destination of the request, as text. -/
theorem sendIq_created {w : World} {e : XmlElement} {h : Handler} {entry : XmppIqEntry}
    (hsent : (w.sendIq (some e) (some h)).1.eng.iq_entries = w.eng.iq_entries ++ [entry]) :
    entry.id = e.attr QN_ID ∧ entry.to_ = e.attr QN_TO := by
  have hlength : (w.sendIq (some e) (some h)).1.eng.iq_entries ≠ w.eng.iq_entries := by
    intro heq
    rw [heq] at hsent
    have hlen := congrArg List.length hsent
    rw [List.length_append, List.length_singleton] at hlen
    omega
  by_cases hclosed : w.eng.state = .closed
  · have hrefused : w.sendIq (some e) (some h) = (w, [], .badState) := if_pos hclosed
    rw [hrefused] at hlength
    exact absurd rfl hlength
  · by_cases hbad : World.badIq (some e) (some h) = true
    · have hrefused : w.sendIq (some e) (some h) = (w, [], .badArgument) := by
        unfold World.sendIq
        rw [if_neg hclosed, if_pos hbad]
      rw [hrefused] at hlength
      exact absurd rfl hlength
    · have hregister : (w.sendIq (some e) (some h)).1
          = ((registerIq w (iqEntry w e h)).sendStanza e).1 := by
        unfold World.sendIq
        rw [if_neg hclosed, if_neg hbad]
        rfl
      rcases sendStanza_cases (registerIq w (iqEntry w e h)) e with
        ⟨hclosed', -⟩ | ⟨-, v, hv, hsend⟩
      · exact absurd hclosed' hclosed
      · -- sending leaves the entries alone
        have hentries : v.eng.iq_entries = w.eng.iq_entries ++ [iqEntry w e h] :=
          hv.frame.1.iq_entries
        rw [hregister, hsend, hentries] at hsent
        have hentry := List.append_cancel_left hsent
        rw [List.singleton_inj] at hentry
        rw [← hentry]
        exact ⟨rfl, rfl⟩

/-- The engine goes by the text of the two attributes. -/
theorem delivers_iff {w : World} {e reply : XmlElement} {h : Handler} {entry : XmppIqEntry}
    (hsent : (w.sendIq (some e) (some h)).1.eng.iq_entries = w.eng.iq_entries ++ [entry])
    (hreply : IsReply e reply) :
    Delivers w entry reply ↔ reply.attr QN_FROM = e.attr QN_TO := by
  obtain ⟨hid, hto⟩ := sendIq_created hsent
  unfold Delivers World.handleIqResponse
  have hname : ¬ reply.name ≠ QN_IQ := not_not_intro hreply.name
  have htype : ¬ reply.attr QN_TYPE = str "result" → reply.attr QN_TYPE = str "error" :=
    fun hne => hreply.type.resolve_left hne
  have hhas : ¬ (!reply.hasAttr QN_ID) = true := by simp [hreply.hasId]
  by_cases hfrom : reply.attr QN_FROM = e.attr QN_TO
  · have hanswers : World.answers entry reply = true := by
      unfold World.answers
      rw [hid, hto, hreply.id, hfrom]
      simp
    simp only [hfrom, iff_true]
    simpa [hname, hhas, hanswers] using htype
  · have hanswers : World.answers entry reply = false := by
      unfold World.answers
      rw [hto]
      simp [Ne.symm hfrom]
    simp [hname, hhas, hanswers, hfrom]

/-- The two ways to recognise the reply to a request agree on it: the engine delivers
it to the entry of the request exactly if a task waiting for the destination accepts
its sender. -/
def Agree (w : World) (me : Jid) (e reply : XmlElement) (entry : XmppIqEntry) : Prop :=
  Delivers w entry reply ↔ matchStanzaFrom me reply (Jid.ofString (e.attr QN_TO)) = true

/-- They agree exactly where sender and destination are the same text, or are different
JIDs and the sender does not speak for the empty destination. -/
theorem matchers_agree_iff {w : World} {e reply : XmlElement} {h : Handler} {entry : XmppIqEntry}
    (me : Jid)
    (hsent : (w.sendIq (some e) (some h)).1.eng.iq_entries = w.eng.iq_entries ++ [entry])
    (hreply : IsReply e reply) :
    Agree w me e reply entry ↔
      reply.attr QN_FROM = e.attr QN_TO ∨
      (Jid.ofString (reply.attr QN_FROM) ≠ Jid.ofString (e.attr QN_TO) ∧
        ((Jid.ofString (e.attr QN_TO)).isEmpty = false ∨
          (Jid.ofString (reply.attr QN_FROM) ≠ Jid.ofString me.domain
            ∧ Jid.ofString (reply.attr QN_FROM) ≠ me.bareJid))) := by
  unfold Agree
  rw [delivers_iff hsent hreply, matchStanzaFrom_iff]
  by_cases hfrom : reply.attr QN_FROM = e.attr QN_TO
  · refine iff_of_true ?_ (Or.inl hfrom)
    rw [hfrom]
    exact iff_of_true rfl (Or.inl rfl)
  · -- the engine does not deliver it, so the task is not to accept it
    constructor
    · intro hagree
      have hreject : ¬ _ := fun hmatch => hfrom (hagree.2 hmatch)
      rw [not_or, not_and_or, not_or, Bool.not_eq_true] at hreject
      exact Or.inr hreject
    · rintro (heq | hdiffer)
      · exact absurd heq hfrom
      · refine iff_of_false hfrom ?_
        rw [not_or, not_and_or, not_or, Bool.not_eq_true]
        exact hdiffer

/-- The roster request of the roster module: it has no destination. -/
def rosterGet : XmlElement :=
  (((XmlElement.new QN_IQ false).addAttr QN_TYPE (str "get")).addAttr QN_ID (str "0")).addElement
    (XmlElement.new QN_ROSTER_QUERY true)

/-- Its answer, with the sender `from'`. -/
def rosterResult (from' : Str) : XmlElement :=
  (((XmlElement.new QN_IQ false).addAttr QN_TYPE (str "result")).addAttr QN_ID (str "0")).addAttr
    QN_FROM from'

theorem matchers_agree_absent :
    Agree World.init ⟨str "bob", str "example.com", str "desk"⟩ rosterGet (rosterResult [])
        (iqEntry World.init rosterGet 0) ↔
      (rosterResult []).attr QN_FROM = rosterGet.attr QN_TO ∨
      (Jid.ofString ((rosterResult []).attr QN_FROM) ≠ Jid.ofString (rosterGet.attr QN_TO) ∧
        ((Jid.ofString (rosterGet.attr QN_TO)).isEmpty = false ∨
          (Jid.ofString ((rosterResult []).attr QN_FROM) ≠ Jid.ofString (str "example.com")
            ∧ Jid.ofString ((rosterResult []).attr QN_FROM)
              ≠ Jid.bareJid ⟨str "bob", str "example.com", str "desk"⟩))) :=
  matchers_agree_iff (h := 0) ⟨str "bob", str "example.com", str "desk"⟩ (by decide)
    ⟨by decide, by decide, by decide, by decide⟩

/-- The user's bare JID may answer the roster request, says the task; the engine does
not find the entry. -/
theorem matchers_disagree :
    ¬ Agree World.init ⟨str "bob", str "example.com", str "desk"⟩ rosterGet
      (rosterResult (str "bob@example.com")) (iqEntry World.init rosterGet 0) := by
  unfold Agree Delivers
  decide

end XmppTask

end Gxmpp
