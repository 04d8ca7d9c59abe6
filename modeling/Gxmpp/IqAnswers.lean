/-
What answers an incoming iq, when the handlers are the modules of the repository.

`RegisterEngine` registers a module at the peek level, whose results `IncomingStanza` does
not read. So a roster push, which the roster module answers with a result, also falls
through to the engine, which answers that the feature is not implemented: the server gets
one reply for each roster module and an error on top. Every other request gets the error
alone, and no answer is answered.

The replies are counted in `iq_replies`; `iq_answered` says for which stanzas the count is
the right one.
-/
import Gxmpp.HandlerDispatch
import Gxmpp.ModuleSession
import Gxmpp.RosterContacts

set_option autoImplicit false

namespace Gxmpp

open World Reentrant

/-! ## 1. Replies -/

/-- A reply to an iq: an iq of type result or error with its id. -/
def isReplyTo (e r : XmlElement) : Bool :=
  r.name = QN_IQ && (r.attr QN_TYPE = str "result" || r.attr QN_TYPE = str "error")
    && r.attr QN_ID = e.attr QN_ID

/-- The replies to an iq that were sent. -/
def replies (e : XmlElement) (log : List Event) : Nat := (printed log).countP (isReplyTo e)

/-- A request is answered once, and an answer is not answered. -/
def AnsweredOnce (e : XmlElement) (before after : List Event) : Prop :=
  (e.attr QN_TYPE = str "get" ∨ e.attr QN_TYPE = str "set" →
    replies e after = replies e before + 1) ∧
  (e.attr QN_TYPE = str "result" ∨ e.attr QN_TYPE = str "error" →
    replies e after = replies e before)

theorem aecImpl_members (e : XmlElement) (name type code : Str) :
    (aecImpl e name type code).name = e.name ∧ (aecImpl e name type code).attrs = e.attrs := by
  have hdepth : ∀ (f : XmlElement → XmlElement) (x : XmlElement),
      (XmlElement.atDepth f 1 x).name = x.name ∧ (XmlElement.atDepth f 1 x).attrs = x.attrs := by
    intro f x
    unfold XmlElement.atDepth
    split <;> exact ⟨rfl, rfl⟩
  unfold aecImpl
  dsimp only
  simp only [hdepth]
  exact ⟨rfl, rfl⟩

theorem addErrorCode_members (e : XmlElement) (code : XmppStanzaError) :
    (addErrorCode e code).name = e.name ∧ (addErrorCode e code).attrs = e.attrs := by
  cases code <;> exact aecImpl_members e _ _ _

theorem replyChildren_members (children : List XmlChild) (e : XmlElement) :
    (replyChildren e children).name = e.name ∧ (replyChildren e children).attrs = e.attrs := by
  induction children generalizing e with
  | nil => exact ⟨rfl, rfl⟩
  | cons c children ih =>
    have htext : ∀ t, (e.addText t).name = e.name ∧ (e.addText t).attrs = e.attrs := by
      intro t
      unfold XmlElement.addText
      split
      · exact ⟨rfl, rfl⟩
      · split <;> exact ⟨rfl, rfl⟩
    cases c with
    | text t => exact ⟨(ih _).1.trans (htext t).1, (ih _).2.trans (htext t).2⟩
    | element c => exact ih (e.addElement c)

/-- What becomes of one attribute in an error reply. -/
def replyAttr (a : XmlAttr) : Option XmlAttr :=
  if a.name = QN_TO then none
  else if a.name = QN_FROM then some ⟨QN_TO, a.value⟩
  else if a.name = QN_TYPE then none
  else some a

theorem replyAttrs_members (attrs : List XmlAttr) (e : XmlElement) :
    (replyAttrs e attrs).name = e.name ∧
      (replyAttrs e attrs).attrs = e.attrs ++ attrs.filterMap replyAttr := by
  induction attrs generalizing e with
  | nil => exact ⟨rfl, (List.append_nil _).symm⟩
  | cons a attrs ih =>
    unfold replyAttrs at ih ⊢
    rw [List.foldl_cons]
    by_cases hto : a.name = QN_TO
    · rw [if_pos hto, List.filterMap_cons_none (by unfold replyAttr; rw [if_pos hto])]
      exact ih e
    · rw [if_neg hto]
      by_cases hfrom : a.name = QN_FROM
      · rw [if_pos hfrom, List.filterMap_cons_some
          (by unfold replyAttr; rw [if_neg hto, if_pos hfrom])]
        refine ⟨(ih _).1, (ih _).2.trans ?_⟩
        exact List.append_assoc _ _ _
      · rw [if_neg hfrom]
        by_cases htype : a.name = QN_TYPE
        · rw [if_pos htype, List.filterMap_cons_none
            (by unfold replyAttr; rw [if_neg hto, if_neg hfrom, if_pos htype])]
          exact ih e
        · rw [if_neg htype, List.filterMap_cons_some
            (by unfold replyAttr; rw [if_neg hto, if_neg hfrom, if_neg htype])]
          refine ⟨(ih _).1, (ih _).2.trans ?_⟩
          exact List.append_assoc _ _ _

/-- The attributes that are not about the two ends and the type are copied. -/
theorem find_replyAttr {name : QName} (hto : name ≠ QN_TO) (hfrom : name ≠ QN_FROM)
    (htype : name ≠ QN_TYPE) (attrs : List XmlAttr) :
    (attrs.filterMap replyAttr).find? (fun a => a.name = name)
      = attrs.find? (fun a => a.name = name) := by
  induction attrs with
  | nil => rfl
  | cons a attrs ih =>
    by_cases hname : a.name = name
    · have hsame : replyAttr a = some a := by
        unfold replyAttr
        rw [hname, if_neg hto, if_neg hfrom, if_neg htype]
      rw [List.filterMap_cons_some hsame, List.find?_cons_of_pos (by simpa using hname),
        List.find?_cons_of_pos (by simpa using hname)]
    · rw [List.find?_cons_of_neg (by simpa using hname)]
      cases hreply : replyAttr a with
      | none => rw [List.filterMap_cons_none hreply, ih]
      | some b =>
        have hb : b.name ≠ name := by
          unfold replyAttr at hreply
          split at hreply
          · cases hreply
          · split at hreply
            · cases hreply
              exact hto.symm
            · split at hreply
              · cases hreply
              · cases hreply
                exact hname
        rw [List.filterMap_cons_some hreply, List.find?_cons_of_neg (by simpa using hb), ih]

variable {e : XmlElement} {M : Modules} {c : Conf}

/-- The reply to an iq that nobody took is a reply to it. -/
theorem errorReply_isReplyTo (hname : e.name = QN_IQ) (code : XmppStanzaError) :
    isReplyTo e (errorReply e code STR_EMPTY) = true := by
  let base := (XmlElement.new e.name false).addAttr QN_TYPE (str "error")
  have heq : errorReply e code STR_EMPTY
      = addErrorCode (replyChildren (replyAttrs base e.attrs) e.children) code := rfl
  have hmembers : (errorReply e code STR_EMPTY).name = QN_IQ ∧
      (errorReply e code STR_EMPTY).attrs
        = ⟨QN_TYPE, str "error"⟩ :: e.attrs.filterMap replyAttr := by
    obtain ⟨hn, ha⟩ :=
      addErrorCode_members (replyChildren (replyAttrs base e.attrs) e.children) code
    obtain ⟨hn', ha'⟩ := replyChildren_members e.children (replyAttrs base e.attrs)
    obtain ⟨hn'', ha''⟩ := replyAttrs_members e.attrs base
    rw [heq]
    exact ⟨(hn.trans (hn'.trans hn'')).trans hname, ha.trans (ha'.trans ha'')⟩
  have htype : (errorReply e code STR_EMPTY).attr QN_TYPE = str "error" := by
    unfold XmlElement.attr
    rw [hmembers.2, List.find?_cons_of_pos (by decide)]
  have hid : (errorReply e code STR_EMPTY).attr QN_ID = e.attr QN_ID := by
    unfold XmlElement.attr
    rw [hmembers.2, List.find?_cons_of_neg (by decide),
      find_replyAttr (by decide) (by decide) (by decide)]
  unfold isReplyTo
  rw [hmembers.1, htype, hid]
  simp

/-- So is the result of the roster module. -/
theorem pushResult_isReplyTo (e : XmlElement) :
    isReplyTo e (XmppRosterModuleImpl.pushResult e) = true := by
  have hid : (XmppRosterModuleImpl.pushResult e).attr QN_ID = e.attr QN_ID := rfl
  unfold isReplyTo
  rw [hid]
  have hname : (XmppRosterModuleImpl.pushResult e).name = QN_IQ := rfl
  have htype : (XmppRosterModuleImpl.pushResult e).attr QN_TYPE = str "result" := rfl
  rw [hname, htype]
  simp

/-! ## 2. The modules -/

/-- A roster module. -/
def Module.isRoster : Module → Bool
  | .roster _ => true
  | _ => false

/-- A module of the repository, and no handler of the application. -/
def Module.isRepository : Module → Bool
  | .application _ => false
  | _ => true

/-- `XmppModuleImpl::RegisterEngine` is the only way to a stanza handler: the default level
of `AddStanzaHandler` is the peek level. -/
def registersModules (M : Modules) : Call → Bool
  | .addStanzaHandler h level => level = .peek && (M h).isRepository
  | _ => true

/-- No other handler is registered. -/
def OnlyModules (M : Modules) (_ : Conf) (m : Call) : Prop := registersModules M m = true

instance (M : Modules) (c : Conf) (m : Call) : Decidable (OnlyModules M c m) :=
  inferInstanceAs (Decidable (_ = true))

/-- The handlers of a run in which only modules are registered. -/
theorem handlers_onlyModules (h : engine.Reaches (OnlyModules M) Conf.init c) :
    (∀ hd ∈ c.state.eng.stanza_handlers .peek, (M hd).isRepository = true) ∧
      ∀ level, level ≠ .peek → c.state.eng.stanza_handlers level = [] := by
  refine Reaches.invariant (I := fun c : Conf =>
    (∀ hd ∈ c.state.eng.stanza_handlers .peek, (M hd).isRepository = true) ∧
      ∀ level, level ≠ .peek → c.state.eng.stanza_handlers level = []) h ?_ ?_
  · exact ⟨fun hd hmem => (nomatch hmem), fun _ _ => rfl⟩
  · intro c a c' _ hc ha hs
    rcases step_cases hs with ⟨s, rest, r, -, -, -, hr, rfl⟩ | ⟨m, rfl, -, rfl⟩ |
      ⟨v, s, rest, -, -, -, rfl⟩
    · dsimp only
      rw [(exec_frame hr).stanza_handlers]
      exact hc
    · have hrule : registersModules M m = true := ha m rfl
      have henter : (engine.enter c.state m).1.eng.stanza_handlers = m.handlersAfter c.state.eng :=
        enter_handlers c.state m
      dsimp only
      rw [henter]
      unfold Call.handlersAfter
      split
      · rename_i hd level
        unfold registersModules at hrule
        rw [Bool.and_eq_true] at hrule
        have hlevel : level = .peek := of_decide_eq_true hrule.1
        refine ⟨fun x hx => ?_, fun l hl => ?_⟩
        · split at hx
          · rcases List.mem_append.1 hx with hx | hx
            · exact hc.1 x hx
            · rw [List.mem_singleton.1 hx]
              exact hrule.2
          · exact hc.1 x hx
        · rw [if_neg fun hand => hl (hand.1.trans hlevel)]
          exact hc.2 l hl
      · refine ⟨fun x hx => hc.1 x (List.mem_of_mem_filter hx), fun l hl => ?_⟩
        rw [hc.2 l hl]
        rfl
      · exact hc
    · exact hc

/-- A module stays what it is. -/
theorem handleStanza_kind (m : Module) (stanza : XmlElement) :
    (m.handleStanza stanza).1.isRoster = m.isRoster ∧
      (m.handleStanza stanza).1.isRepository = m.isRepository := by
  cases m <;> exact ⟨rfl, rfl⟩

theorem set_kind (M : Modules) (h : Handler) (stanza : XmlElement) (k : Handler) :
    (M.set h ((M h).handleStanza stanza).1 k).isRoster = (M k).isRoster ∧
      (M.set h ((M h).handleStanza stanza).1 k).isRepository = (M k).isRepository := by
  unfold Modules.set
  by_cases hk : k = h
  · rw [if_pos hk, hk]
    exact handleStanza_kind (M h) stanza
  · rw [if_neg hk]
    exact ⟨rfl, rfl⟩

/-- What one module sends at an iq: the roster module answers a push, and the chatroom
module says nothing. -/
theorem handleStanza_iq {m : Module} (hname : e.name = QN_IQ) (hm : m.isRepository = true) :
    (m.handleStanza e).2.1 = if m.isRoster && isRosterPush e then
      [XmppRosterModuleImpl.pushResult e] else [] := by
  have hpresence : ¬ e.name = QN_PRESENCE := by
    rw [hname]
    decide
  cases m with
  | application handles => cases hm
  | chatroom m =>
    have hmessage : ¬ e.name = QN_MESSAGE := by
      rw [hname]
      decide
    unfold Module.handleStanza XmppChatroomModuleImpl.handleStanza
    dsimp only
    rw [if_neg hpresence, if_neg hmessage]
    split <;> rfl
  | roster m =>
    unfold Module.handleStanza XmppRosterModuleImpl.handleStanza isRosterPush
    dsimp only [Module.isRoster]
    rw [if_neg hpresence, if_pos hname]
    by_cases hquery : (e.firstNamed QN_ROSTER_QUERY).isNone = true
    · simp [Option.isNone_iff_eq_none.1 hquery]
    · by_cases htype : e.attr QN_TYPE = str "set"
      · obtain ⟨q, hq⟩ := Option.ne_none_iff_exists'.1 fun hn =>
          hquery (Option.isNone_iff_eq_none.2 hn)
        simp [hq, htype]
      · simp [htype]

/-- What the modules send at an iq: one result for each roster module at a push. -/
theorem tell_iq (hname : e.name = QN_IQ) (hs : List Handler)
    (hm : ∀ h ∈ hs, (M h).isRepository = true) :
    (M.tell e hs).2 = if isRosterPush e then
      List.replicate (hs.countP fun h => (M h).isRoster) (XmppRosterModuleImpl.pushResult e)
      else [] := by
  induction hs generalizing M with
  | nil =>
    unfold Modules.tell
    split <;> rfl
  | cons h hs ih =>
    have hsent := handleStanza_iq hname (hm h List.mem_cons_self)
    have hrest := ih fun k hk => (set_kind M h e k).2.trans (hm k (List.mem_cons_of_mem _ hk))
    have hcount : (hs.countP fun k => (M.set h ((M h).handleStanza e).1 k).isRoster)
        = hs.countP fun k => (M k).isRoster :=
      List.countP_congr fun k _ => by rw [(set_kind M h e k).1]
    unfold Modules.tell
    dsimp only
    rw [hsent, hrest, hcount]
    by_cases hpush : isRosterPush e = true
    · rw [if_pos hpush, if_pos hpush, hpush, Bool.and_true]
      by_cases hroster : (M h).isRoster = true
      · rw [if_pos hroster,
          List.countP_cons_of_pos (p := fun k => (M k).isRoster) hroster, List.replicate_succ]
        rfl
      · rw [if_neg hroster, List.countP_cons_of_neg (p := fun k => (M k).isRoster) hroster]
        rfl
    · rw [if_neg hpush, if_neg hpush, Bool.eq_false_iff.2 hpush, Bool.and_false]
      rfl

/-! ## 3. The count -/

/-- A stanza that is no stream error is an answer, or is dispatched. -/
theorem receive_stanza {s : Session} (hclosed : ¬ s.closed = true)
    (hstream : ¬ e.name = QN_STREAM_ERROR) : s.receive (.stanza e) = match s.answered e with
      | some entry => (s.respond entry e, [])
      | none => s.dispatch e := by
  unfold Session.receive
  rw [if_neg hclosed]
  dsimp only
  refine (if_neg hstream).trans ?_
  cases s.answered e <;> rfl

/-- The replies to an iq in a session whose handlers are modules. -/
theorem receive_replies {s : Session} (hname : e.name = QN_IQ) (hopen : s.closed = false)
    (hpeek : ∀ h ∈ s.handlers .peek, (s.modules h).isRepository = true)
    (habove : ∀ level, level ≠ .peek → s.handlers level = []) :
    (e.attr QN_TYPE = str "result" ∨ e.attr QN_TYPE = str "error" →
      (s.receive (.stanza e)).2 = []) ∧
    (¬ (e.attr QN_TYPE = str "result" ∨ e.attr QN_TYPE = str "error") →
      (s.receive (.stanza e)).2.countP (isReplyTo e) = 1 +
        if isRosterPush e then
          (s.handlers .peek).countP fun h => (s.modules h).isRoster else 0) := by
  have hstream : ¬ e.name = QN_STREAM_ERROR := by
    rw [hname]
    decide
  have hclosed : ¬ s.closed = true := by
    rw [hopen]
    decide
  -- the dispatch goes through the modules at the peek level and nobody else
  have hnobody : above s.handlers .peek = [] := by
    unfold above
    rw [List.flatMap_eq_nil_iff]
    exact fun level hlevel => habove level fun heq => by
      rw [heq] at hlevel
      revert hlevel
      decide
  have hdispatch : (s.dispatch e).2
      = (s.modules.tell e (s.handlers .peek)).2 ++ unhandledReply e := by
    unfold Session.dispatch
    rw [hnobody]
    simp only [Modules.offer, Bool.false_eq_true, if_false, List.append_nil]
  rw [receive_stanza hclosed hstream]
  refine ⟨fun hanswer => ?_, fun hrequest => ?_⟩
  · -- an answer goes to the module that asked, or to modules that say nothing
    have hquiet : unhandledReply e = [] := by
      unfold unhandledReply
      rw [if_neg]
      rcases hanswer with h | h <;> simp [h]
    have hpush : ¬ isRosterPush e = true := by
      intro hp
      unfold isRosterPush at hp
      rw [Bool.and_eq_true] at hp
      have hset := of_decide_eq_true hp.2
      rcases hanswer with h | h <;> rw [h] at hset <;> revert hset <;> decide
    cases s.answered e with
    | some entry => rfl
    | none =>
      dsimp only
      rw [hdispatch, hquiet, tell_iq hname _ hpeek, if_neg hpush]
      rfl
  -- a request is answered by no entry: each roster module replies to a push, and then the engine
  · have hnone : s.answered e = none := by
      unfold Session.answered
      rw [if_neg]
      intro h
      simp only [Bool.and_eq_true, Bool.or_eq_true, decide_eq_true_eq] at h
      exact hrequest h.1.2
    have hreply : unhandledReply e = [errorReply e .featureNotImplemented STR_EMPTY] := by
      unfold unhandledReply
      rw [if_pos]
      simpa [hname, and_comm] using hrequest
    rw [hnone]
    dsimp only
    rw [hdispatch, hreply, List.countP_append, tell_iq hname _ hpeek,
      List.countP_singleton, if_pos (errorReply_isReplyTo hname _), Nat.add_comm]
    congr 1
    by_cases hpush : isRosterPush e = true
    · rw [if_pos hpush, if_pos hpush, List.countP_replicate, if_pos (pushResult_isReplyTo e)]
    · rw [if_neg hpush, if_neg hpush]
      rfl

/-- A stanza that an open engine is about to treat. -/
structure Treating (c : Conf) (e : XmlElement) (rest : List Stmt) : Prop where
  control : c.control = .incoming (.stanza e) :: rest
  state : c.state.eng.state = .open

theorem Treating.represents {rest : List Stmt} (M : Modules) (h : Reachable c)
    (ht : Treating c e rest) : Represents (c.state, M) (sessionOf c.state M) := by
  refine open_represents M h (fun s hs => ?_) ht.state
  rw [ht.control] at hs
  obtain rfl := Option.some.inj hs
  rfl

/-- How often an iq is answered. -/
theorem iq_replies {rest : List Stmt} (h : engine.Reaches (OnlyModules M) Conf.init c)
    (ht : Treating c e rest) (hname : e.name = QN_IQ) :
    ∃ x, Does (c.state, M) [.run (.incoming (.stanza e))] x ∧ Reachable ⟨x.1, rest⟩ ∧
      (e.attr QN_TYPE = str "result" ∨ e.attr QN_TYPE = str "error" →
        replies e x.1.log = replies e c.state.log) ∧
      (¬ (e.attr QN_TYPE = str "result" ∨ e.attr QN_TYPE = str "error") →
        replies e x.1.log = replies e c.state.log + (1 + if isRosterPush e then
          (c.state.eng.stanza_handlers .peek).countP fun h => (M h).isRoster else 0)) := by
  obtain ⟨hpeek, habove⟩ := handlers_onlyModules h
  obtain ⟨x, hdoes, -, hprinted, -⟩ :=
    incoming_represents (Treating.represents M (Reaches.any h) ht) (.stanza e)
  obtain ⟨hanswer, hrequest⟩ := receive_replies hname
    (show (sessionOf c.state M).closed = false from rfl) hpeek habove
  have hrun : Reachable ⟨x.1, rest⟩ := by
    have hreach : engine.Reaches anyCall ⟨c.state, .incoming (.stanza e) :: rest⟩ ⟨x.1, rest⟩ :=
      hdoes.reaches trivial
    have hcontrol : c = ⟨c.state, .incoming (.stanza e) :: rest⟩ := by
      rw [← ht.control]
    have hbefore : Reachable ⟨c.state, .incoming (.stanza e) :: rest⟩ := hcontrol ▸ Reaches.any h
    exact hbefore.trans hreach
  refine ⟨x, hdoes, hrun, fun ha => ?_, fun hr => ?_⟩
  · unfold replies
    rw [hprinted, hanswer ha, List.append_nil]
  · unfold replies
    rw [hprinted, List.countP_append, hrequest hr]
    rfl

/-! ## 4. Once -/

/-- With modules only, every iq that an open engine treats is answered as it should be,
unless it is a roster push and there is a roster module. -/
theorem iq_answered {M : Modules} {c : Conf} {e : XmlElement} {rest : List Stmt}
    (h : engine.Reaches (OnlyModules M) Conf.init c) (ht : Treating c e rest)
    (hname : e.name = QN_IQ) :
    (∃ x, Does (c.state, M) [.run (.incoming (.stanza e))] x) ∧
      ∀ x, Does (c.state, M) [.run (.incoming (.stanza e))] x → Reachable ⟨x.1, rest⟩ ∧
        (AnsweredOnce e c.state.log x.1.log ↔ ¬ (isRosterPush e = true ∧
          ∃ hd ∈ c.state.eng.stanza_handlers .peek, (M hd).isRoster = true)) := by
  obtain ⟨x, hdoes, hrun, hanswer, hrequest⟩ := iq_replies h ht hname
  refine ⟨⟨x, hdoes⟩, fun y hy => ?_⟩
  obtain rfl := hdoes.unique hy
  refine ⟨hrun, fun honce => ?_, fun hno => ⟨fun ht => ?_, hanswer⟩⟩
  · rintro ⟨hpush, hd, hmem, hroster⟩
    -- a push is a request, and the modules have answered it already
    have hset : e.attr QN_TYPE = str "set" := by
      unfold isRosterPush at hpush
      rw [Bool.and_eq_true] at hpush
      exact of_decide_eq_true hpush.2
    have hone := honce.1 (.inr hset)
    have hcount := hrequest (by rw [hset]; decide)
    have hpos : 0 < (c.state.eng.stanza_handlers .peek).countP fun h => (M h).isRoster :=
      List.countP_pos_iff.2 ⟨hd, hmem, hroster⟩
    rw [if_pos hpush] at hcount
    omega
  · have hcount := hrequest (by rcases ht with ht | ht <;> rw [ht] <;> decide)
    rw [hcount]
    by_cases hpush : isRosterPush e = true
    · have hzero : ((c.state.eng.stanza_handlers .peek).countP fun h => (M h).isRoster) = 0 :=
        List.countP_eq_zero.2 fun hd hmem hroster => hno ⟨hpush, hd, hmem, hroster⟩
      rw [if_pos hpush, hzero]
    · rw [if_neg hpush]

/-! ## 5. Two iqs -/

/-- The stanza that is about to be treated. -/
def treated (c : Conf) : Option XmlElement :=
  match c.control with
  | .incoming (.stanza e) :: _ => some e
  | _ => none

/-- An application whose handlers 7 and 8 are a roster and a chatroom module. -/
def rosterAndChatroom : Modules :=
  fun h => if h = 7 then .roster .init else .chatroom .init

/-- It registers them and logs in. -/
def loginWithModules : List Step :=
  [.call (.setSessionHandler true), .call (.setTls .disabled), plainUser true,
    .call (.addStanzaHandler 7 .peek), .call (.addStanzaHandler 8 .peek), .call .connect,
    .ret false] ++ plainLogin ++ [.ret false]

/-- An iq with a query. -/
def iqQuery (type ns : Str) : List ExpatEvent :=
  [.startElement (str "iq") [(str "type", type), (str "id", str "q")]]
    ++ tagged (str "query") ns [] ++ [.endElement (str "iq")]

/-- The run up to the treatment of the iq, which expat reports at the fourth callback. -/
theorem exists_treating (type ns : Str) (p : XmlElement → World → Bool)
    (h : ((engine.drive (OnlyModules rosterAndChatroom) 40 Conf.init loginWithModules).any fun c =>
      (engine.drive (OnlyModules rosterAndChatroom) 4 c [received (iqQuery type ns)]).any fun d =>
        d.state.eng.state = .open && (treated d).any fun e => p e d.state) = true) :
    ∃ c e rest, engine.Reaches (OnlyModules rosterAndChatroom) Conf.init c ∧ Treating c e rest ∧
      p e c.state = true := by
  obtain ⟨c₁, h₁, hp⟩ := exists_of_drive (P := engine) h
  obtain ⟨c, h₂, hp⟩ := exists_of_drive (P := engine) hp
  rw [Bool.and_eq_true] at hp
  obtain ⟨e, he, hp'⟩ := (Option.any_eq_true _ _).1 hp.2
  unfold treated at he
  split at he
  · rename_i hcontrol
    obtain rfl := Option.some.inj he
    exact ⟨c, _, _, h₁.trans h₂, ⟨hcontrol, of_decide_eq_true hp.1⟩, hp'⟩
  · cases he

/-- Two modules are registered, and an iq that asks for the version is answered once. -/
theorem iq_answered_version : ∃ (M : Modules) (c : Conf) (e : XmlElement) (x : World × Modules),
    c.state.eng.stanza_handlers .peek = [7, 8] ∧ e.attr QN_TYPE = str "get" ∧
      Does (c.state, M) [.run (.incoming (.stanza e))] x ∧
      replies e x.1.log = replies e c.state.log + 1 := by
  obtain ⟨c, e, rest, h, ht, hp⟩ := exists_treating (str "get") (str "jabber:iq:version")
    (fun e w => decide (e.name = QN_IQ ∧ e.attr QN_TYPE = str "get" ∧
      w.eng.stanza_handlers .peek = [7, 8])) (by decide +kernel)
  obtain ⟨hname, htype, hhandlers⟩ := of_decide_eq_true hp
  obtain ⟨⟨x, hdoes⟩, hall⟩ := iq_answered h ht hname
  have hpush : ¬ isRosterPush e = true := by
    unfold isRosterPush
    rw [htype, Bool.and_eq_true]
    exact fun hp => absurd (of_decide_eq_true hp.2) (by decide)
  have honce := ((hall x hdoes).2).2 fun hno => hpush hno.1
  exact ⟨_, c, e, x, hhandlers, htype, hdoes, honce.1 (.inl htype)⟩

/-- A roster push is answered by the roster module and by the engine. -/
theorem roster_push_answered_twice : ¬ ∀ (M : Modules) (c : Conf) (e : XmlElement)
    (rest : List Stmt) (x : World × Modules), engine.Reaches (OnlyModules M) Conf.init c →
      Treating c e rest → e.name = QN_IQ → Does (c.state, M) [.run (.incoming (.stanza e))] x →
      AnsweredOnce e c.state.log x.1.log := by
  intro hall
  obtain ⟨c, e, rest, h, ht, hp⟩ := exists_treating (str "set") NS_ROSTER
    (fun e w => decide (e.name = QN_IQ ∧ e.attr QN_TYPE = str "set" ∧ isRosterPush e = true ∧
      w.eng.stanza_handlers .peek = [7, 8])) (by decide +kernel)
  obtain ⟨hname, htype, hpush, hhandlers⟩ := of_decide_eq_true hp
  obtain ⟨x, hdoes, -, -, hrequest⟩ := iq_replies h ht hname
  have hcount := hrequest (by rw [htype]; decide)
  have honce := (hall _ c e rest x h ht hname hdoes).1 (.inr htype)
  rw [if_pos hpush, hhandlers, show ([7, 8].countP fun h => (rosterAndChatroom h).isRoster) = 1
    from rfl] at hcount
  omega

end Gxmpp
