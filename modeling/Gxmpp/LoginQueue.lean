/-
`XmppLoginTask::pvecQueuedStanzas_`: the stanzas sent while the login lasts.

`SendStanza` hands a stanza to the login task as long as there is one, and prints it
otherwise. The login task prints its queue in the round that takes the session result,
and is deleted at the end of that round. So the history falls in two: up to the session
result the engine prints nothing but the login task's own stanzas (`OwnWrites`), and from
there on it has printed exactly what was accepted, in the order of the calls. `QueuePhase`
is the invariant, and `login_queue` the conclusion. A closed engine has a third phase, in
which the queue is never printed: that is where `stopped_reachable` is used.
-/
import Gxmpp.ClosedLogin
import Gxmpp.LoginSafety
import Gxmpp.History

set_option autoImplicit false

namespace Gxmpp

open World Reentrant XmppLoginTask History

/-! ## 1. What the history says about stanzas -/

/-- The stanzas that `SendStanza` has accepted, in the order of the calls. -/
def acceptedStanzas (log : List Event) : List XmlElement :=
  log.filterMap fun
    | .accepted e => some e
    | _ => none

/-- The accepted stanzas that have been printed, in the order of their printing. -/
def printedStanzas (log : List Event) : List XmlElement :=
  log.filterMap fun
    | .printed e => some e
    | _ => none

/-- The login has succeeded. -/
def LoggedIn (log : List Event) : Prop := ∃ jid, Event.signalBound jid ∈ log

/-- The events that say something about stanzas and their bytes. -/
def Event.isQueue : Event → Bool
  | .accepted _ | .printed _ | .signalBound _ | .wrote _ _ => true
  | _ => false

/-- What may happen before the session result: bytes are written for the start of a
stream and for the login task's own stanzas, and nothing that was accepted is printed. -/
def OwnUntilOpened (before : List Event) : Event → Prop
  | .printed _ => Opened before
  | .wrote _ bytes => Opened before ∨ (∃ hostname lang, bytes = streamStart hostname lang) ∨
      ∃ s e stack, before.getLast? = some (.sentByLogin s e) ∧
        bytes = (XmlPrinter.printXml stack e).1
  | _ => True

/-- A history that grows by what the login task writes itself, and by events that say
nothing about stanzas. -/
inductive OwnWrites (l : List Event) : List Event → Prop
  | refl : OwnWrites l l
  | other {m : List Event} (ev : Event) (h : ev.isQueue = false) (hm : OwnWrites l m) :
      OwnWrites l (m ++ [ev])
  | stanza {m : List Event} (s : LoginTaskState) (t : EngineState) (e : XmlElement)
      (stack : XmlnsStack) (hm : OwnWrites l m) :
      OwnWrites l (m ++ [.sentByLogin s e] ++ [.wrote t (XmlPrinter.printXml stack e).1])
  | stream {m : List Event} (t : EngineState) (hostname lang : Str) (hm : OwnWrites l m) :
      OwnWrites l (m ++ [.wrote t (streamStart hostname lang)])

theorem acceptedStanzas_append (l m : List Event) :
    acceptedStanzas (l ++ m) = acceptedStanzas l ++ acceptedStanzas m := List.filterMap_append

theorem printedStanzas_append (l m : List Event) :
    printedStanzas (l ++ m) = printedStanzas l ++ printedStanzas m := List.filterMap_append

theorem loggedIn_append (l m : List Event) :
    LoggedIn (l ++ m) ↔ LoggedIn l ∨ LoggedIn m := by
  unfold LoggedIn
  simp only [List.mem_append, exists_or]

namespace OwnWrites

variable {l m : List Event}

theorem trans {k : List Event} (h : OwnWrites l m) (hk : OwnWrites m k) : OwnWrites l k := by
  induction hk with
  | refl => exact h
  | other ev hev hm ih => exact ih.other ev hev
  | stanza s t e stack hm ih => exact ih.stanza s t e stack
  | stream t hostname lang hm ih => exact ih.stream t hostname lang

theorem accepted (h : OwnWrites l m) : acceptedStanzas m = acceptedStanzas l := by
  induction h with
  | refl => rfl
  | other ev hev hm ih =>
    rw [acceptedStanzas_append, ih]
    cases ev <;> first | exact List.append_nil _ | cases hev
  | stanza s t e stack hm ih =>
    rw [acceptedStanzas_append, acceptedStanzas_append, ih]
    exact (List.append_nil _).trans (List.append_nil _)
  | stream t hostname lang hm ih =>
    rw [acceptedStanzas_append, ih]
    exact List.append_nil _

theorem printed (h : OwnWrites l m) : printedStanzas m = printedStanzas l := by
  induction h with
  | refl => rfl
  | other ev hev hm ih =>
    rw [printedStanzas_append, ih]
    cases ev <;> first | exact List.append_nil _ | cases hev
  | stanza s t e stack hm ih =>
    rw [printedStanzas_append, printedStanzas_append, ih]
    exact (List.append_nil _).trans (List.append_nil _)
  | stream t hostname lang hm ih =>
    rw [printedStanzas_append, ih]
    exact List.append_nil _

theorem loggedIn (h : OwnWrites l m) : LoggedIn m ↔ LoggedIn l := by
  -- the last events are no `SignalBound`
  have hdrop : ∀ (m : List Event) (ev : Event), (∀ jid, ev ≠ .signalBound jid) →
      (LoggedIn (m ++ [ev]) ↔ LoggedIn m) := by
    intro m ev hev
    rw [loggedIn_append]
    refine or_iff_left ?_
    rintro ⟨jid, hjid⟩
    exact hev jid (List.mem_singleton.1 hjid).symm
  induction h with
  | refl => exact Iff.rfl
  | other ev hev hm ih =>
    refine (hdrop _ ev ?_).trans ih
    rintro jid rfl
    cases hev
  | stanza s t e stack hm ih => exact ((hdrop _ _ (by simp)).trans (hdrop _ _ (by simp))).trans ih
  | stream t hostname lang hm ih => exact (hdrop _ _ (by simp)).trans ih

theorem lawful (h : OwnWrites l m) (hl : Lawful OwnUntilOpened l) : Lawful OwnUntilOpened m := by
  induction h with
  | refl => exact hl
  | other ev hev hm ih =>
    refine ih.snoc ?_
    cases ev <;> first | exact trivial | cases hev
  | @stanza m s t e stack hm ih =>
    refine Lawful.snoc (Lawful.snoc ih trivial) (.inr (.inr ⟨s, e, stack, ?_, rfl⟩))
    exact List.getLast?_concat
  | stream t hostname lang hm ih => exact ih.snoc (.inr (.inl ⟨hostname, lang, rfl⟩))

/-- A step that records nothing about stanzas. -/
theorem of_grows {w w' : World} (h : Grows (fun ev => ev.isQueue = false) w w') :
    OwnWrites w.log w'.log := by
  obtain ⟨evs, hlog, hevs⟩ := h
  rw [hlog]
  clear hlog
  induction evs using List.reverseRecOn with
  | nil =>
    rw [List.append_nil]
    exact .refl
  | append_singleton evs ev ih =>
    rw [← List.append_assoc]
    exact (ih fun x hx => hevs x (List.mem_append_left _ hx)).other ev
      (hevs ev (List.mem_append_right _ List.mem_cons_self))

end OwnWrites

/-- A history that grows by the printing of accepted stanzas, after the session result. -/
structure Prints (m m' : List Event) (l : List XmlElement) : Prop where
  accepted : acceptedStanzas m' = acceptedStanzas m
  printed : printedStanzas m' = printedStanzas m ++ l
  loggedIn : LoggedIn m → LoggedIn m'
  opened : Opened m → Opened m'
  lawful : Opened m → Lawful OwnUntilOpened m → Lawful OwnUntilOpened m'

namespace Prints

theorem trans {m m' m'' : List Event} {l l' : List XmlElement} (h : Prints m m' l)
    (h' : Prints m' m'' l') : Prints m m'' (l ++ l') where
  accepted := h'.accepted.trans h.accepted
  printed := by rw [h'.printed, h.printed, List.append_assoc]
  loggedIn hb := h'.loggedIn (h.loggedIn hb)
  opened ho := h'.opened (h.opened ho)
  lawful ho hl := h'.lawful (h.opened ho) (h.lawful ho hl)

/-- One stanza. -/
theorem one (w : World) (e : XmlElement) :
    Prints w.log ((w.emit (.printed e)).internalSendStanza e).log [e] := by
  obtain ⟨bytes, hlog⟩ : ∃ bytes, ((w.emit (.printed e)).internalSendStanza e).log
      = w.log ++ [.printed e] ++ [.wrote w.eng.state bytes] := ⟨_, rfl⟩
  rw [hlog]
  refine ⟨?_, ?_, fun hb => ?_, fun ho => ?_, fun ho hl => ?_⟩
  · rw [acceptedStanzas_append, acceptedStanzas_append]
    exact (List.append_nil _).trans (List.append_nil _)
  · rw [printedStanzas_append, printedStanzas_append]
    exact List.append_nil _
  · exact (loggedIn_append _ _).2 (.inl ((loggedIn_append _ _).2 (.inl hb)))
  · exact (ho.append _).append _
  · have hprinted : OwnUntilOpened w.log (.printed e) := ho
    have hwrote : OwnUntilOpened (w.log ++ [.printed e]) (.wrote w.eng.state bytes) :=
      .inl (ho.append _)
    exact (hl.snoc hprinted).snoc hwrote

/-- The whole queue. -/
theorem queue (l : List XmlElement) (w : World) :
    Prints w.log (l.foldl (fun w e => (w.emit (.printed e)).internalSendStanza e) w).log l := by
  induction l generalizing w with
  | nil => exact ⟨rfl, (List.append_nil _).symm, id, id, fun _ h => h⟩
  | cons e l ih => exact (one w e).trans (ih _)

end Prints

/-! ## 2. The rounds of the login task -/

/-- What becomes of the queue in a round. -/
inductive QueueRound (w : World) (lt : XmppLoginTask) (v : World) : Prop where
  /-- the login lasts, and so does the queue -/
  | lasting (lt' : XmppLoginTask) (hl : v.eng.login_task = some lt') (hd : lt'.state ≠ .done)
      (hq : lt'.pvecQueuedStanzas = lt.pvecQueuedStanzas) (ho : OwnWrites w.log v.log)
  /-- the login fails -/
  | failed (lt' : XmppLoginTask) (hl : v.eng.login_task = some lt') (hd : lt'.state = .done)
      (hc : v.eng.state = .closed) (ho : OwnWrites w.log v.log)
  /-- the session result is taken, the stream is bound and the queue printed -/
  | session (e : XmlElement) (lt' : XmppLoginTask) (u : World) (he : lt.pelStanza = some e)
      (hs : lt.state = .sessionRequested) (hg : granted lt.state e = true)
      (ha : notTheAnswer lt e = false) (hl : v.eng.login_task = some lt')
      (hd : lt'.state = .done)
      (hu : u.log = w.log ++ [.took lt.state lt.isStart e] ++ [.signalBound lt.fullJid])
      (hp : Prints u.log v.log lt.pvecQueuedStanzas)

variable {w : World} {r : World × List Stmt} {c c' : Conf}

theorem OwnWrites.send {m : List Event} (h : OwnWrites m w.log) (lt : XmppLoginTask)
    (e : XmlElement) : OwnWrites m (XmppLoginTask.send w lt e).log :=
  h.stanza lt.state w.eng.state e w.eng.xmlns_stack

theorem round_queue {lt : XmppLoginTask} (h : Round w lt r) (hl : w.eng.login_task = some lt)
    (hd : lt.state ≠ .done) : QueueRound w lt r.1 := by
  have htook : ∀ e, OwnWrites w.log (nextStanza w lt e).1.log := fun e => OwnWrites.refl.other _ rfl
  have hfail : ∀ {v : World} {lt' : XmppLoginTask} {reason : EngineError},
      OwnWrites w.log v.log → QueueRound w lt (failure v lt' reason).1 := by
    intro v lt' reason ho
    refine .failed { lt' with state := .done } (signalError_login _ _ _) rfl
      (failure_closed v lt' reason) ?_
    exact ho.trans (.of_grows (grows_failure v lt' reason))
  have hgoto : ∀ {v : World} {lt' : XmppLoginTask} {s : LoginTaskState}, OwnWrites w.log v.log →
      lt'.pvecQueuedStanzas = lt.pvecQueuedStanzas → s ≠ .done →
      QueueRound w lt (goto v lt' s).1 := fun ho hq hs => .lasting _ rfl hs hq ho
  cases h with
  | idle hs => exact .lasting lt hl hd rfl .refl
  | restart hs => exact hgoto (OwnWrites.refl.stream _ _ _) rfl (nomatch ·)
  | lacking reason hs => exact hfail .refl
  | refused e lt' reason => exact hfail (htook e)
  | streamStarted e hs => exact .lasting _ rfl (nomatch ·) rfl (htook e)
  | featuresTls e | featuresAuth e | featuresBind e | authenticated e =>
    exact hgoto (htook e) rfl (nomatch ·)
  | tlsAsked hs => exact hgoto (OwnWrites.refl.send _ _) rfl (nomatch ·)
  | proceed e domain hs =>
    have hcalled := (htook e).other (.callback (.startTls domain)) rfl
    exact .lasting _ rfl (fun hn => hd hn) rfl hcalled
  | proceedUnhandled e | ignored e => exact .lasting _ rfl (fun hn => hd hn) rfl (htook e)
  | unchosen sh mechanisms hs => exact hfail (OwnWrites.refl.other _ rfl)
  | unstarted sh mechanisms choice mech hs =>
    exact hfail ((OwnWrites.refl.other _ rfl).other _ rfl)
  | authSent sh mechanisms choice mech auth hs =>
    have hchosen : OwnWrites w.log ((w.emit (.chose mechanisms w.eng.encrypted choice)).emit
        (.gotMechanism choice)).log := (OwnWrites.refl.other _ rfl).other _ rfl
    exact hgoto (hchosen.send _ _) rfl (nomatch ·)
  | challenged e response hs => exact hgoto ((htook e).send _ _) rfl (nomatch ·)
  | bindAsked hs => exact hgoto (OwnWrites.send (w := w.nextId.1) .refl _ _) rfl (nomatch ·)
  | bound e bind hs =>
    have hsent := OwnWrites.send (w := (nextStanza w lt e).1.nextId.1) (htook e)
    exact hgoto (hsent _ _) rfl (nomatch ·)
  | sessionStarted e hs hg ha he =>
    refine .session e _ ((nextStanza w lt e).1.signalBound lt.fullJid) he hs hg ha rfl rfl ?_
      (Prints.queue lt.pvecQueuedStanzas _)
    unfold World.signalBound
    dsimp only
    split <;> rfl

/-! ## 3. The invariant -/

/-- Where the stanzas are that have been accepted. -/
inductive QueuePhase (w : World) : Prop where
  /-- the login lasts: they are in the queue -/
  | waiting (lt : XmppLoginTask) (hl : w.eng.login_task = some lt) (hd : lt.state ≠ .done)
      (hb : ¬ LoggedIn w.log) (hq : lt.pvecQueuedStanzas = acceptedStanzas w.log)
      (hp : printedStanzas w.log = [])
  /-- the login has succeeded: they are printed -/
  | through (hl : ∀ lt, w.eng.login_task = some lt → lt.state = .done) (hb : LoggedIn w.log)
      (ho : Opened w.log) (hp : printedStanzas w.log = acceptedStanzas w.log)
  /-- the login has failed: they are lost with the login task -/
  | failed (hl : ∀ lt, w.eng.login_task = some lt → lt.state = .done)
      (hc : w.eng.state = .closed) (hb : ¬ LoggedIn w.log) (hp : printedStanzas w.log = [])

/-- What is known of the queue and of the history. -/
structure QueueInv (w : World) : Prop where
  phase : QueuePhase w
  lawful : Lawful OwnUntilOpened w.log

/-- A round of the login task. -/
theorem QueueInv.round {lt : XmppLoginTask} (h : QueueInv w) (hl : w.eng.login_task = some lt)
    (hd : lt.state ≠ .done) (ht : HandshakeTask w.log lt) (hr : Round w lt r) : QueueInv r.1 := by
  obtain ⟨hphase, hlawful⟩ := h
  cases hphase with
  | through hl' | failed hl' => exact absurd (hl' lt hl) hd
  | waiting x hx hdx hb hq hp =>
    rw [hl] at hx
    obtain rfl := Option.some.inj hx
    cases round_queue hr hl hd with
    | lasting lt' hl' hd' hq' ho =>
      refine ⟨.waiting lt' hl' hd' (fun hn => hb (ho.loggedIn.1 hn)) ?_ (ho.printed.trans hp),
        ho.lawful hlawful⟩
      exact hq'.trans (hq.trans ho.accepted.symm)
    | failed lt' hl' hd' hc ho =>
      refine ⟨.failed (fun x hx => ?_) hc (fun hn => hb (ho.loggedIn.1 hn))
        (ho.printed.trans hp), ho.lawful hlawful⟩
      rw [hl'] at hx
      obtain rfl := Option.some.inj hx
      exact hd'
    | session e lt' u he hs hg ha hl' hd' hu hprints =>
      have hopened : Opened u.log := by
        rw [hu]
        exact (ht.opened hs hg ha).append _
      have hlogged : LoggedIn u.log := ⟨lt.fullJid, by rw [hu]; simp⟩
      have haccepted : acceptedStanzas u.log = acceptedStanzas w.log := by
        rw [hu, acceptedStanzas_append, acceptedStanzas_append]
        exact (List.append_nil _).trans (List.append_nil _)
      have hnone : printedStanzas u.log = [] := by
        rw [hu, printedStanzas_append, printedStanzas_append, hp]
        rfl
      have hulawful : Lawful OwnUntilOpened u.log := by
        rw [hu]
        have htook : OwnUntilOpened w.log (.took lt.state lt.isStart e) := trivial
        exact (hlawful.snoc htook).snoc trivial
      refine ⟨.through (fun x hx => ?_) (hprints.loggedIn hlogged) (hprints.opened hopened) ?_,
        hprints.lawful hopened hulawful⟩
      · rw [hl'] at hx
        obtain rfl := Option.some.inj hx
        exact hd'
      · rw [hprints.printed, hprints.accepted, hnone, haccepted, ← hq]
        rfl

/-! ## 4. The other steps -/

/-- The events that concern neither the login task nor a stanza. -/
def Event.isSilent (ev : Event) : Prop := ev.isTask = false ∧ ev.isQueue = false

/-- A step that records nothing about the login task sends nothing. -/
theorem TaskStep.change_of_grows {w' : World} (h : TaskStep w w')
    (hg : Grows (fun ev => ev.isTask = false) w w') : TaskChange w w' := by
  cases h with
  | change hc hs hg' => exact hc
  | sent v e hl hs hg' hv =>
    obtain ⟨evs, hlog, hevs⟩ := hg
    obtain ⟨evs', hlog', -⟩ := hg'
    -- what is sent has been accepted
    obtain ⟨tail, htail⟩ : ∃ tail, w'.log = v.log ++ .accepted e :: tail := by
      cases hv with
      | queued lt hlt => exact ⟨[], rfl⟩
      | through hlt =>
        refine ⟨[.printed e,
          .wrote v.eng.state (XmlPrinter.printXml v.eng.xmlns_stack e).1], ?_⟩
        simp [internalSendStanza, World.write, enterExit]
    rw [htail, hlog', List.append_assoc] at hlog
    have hmem : Event.accepted e ∈ evs := by
      rw [← List.append_cancel_left hlog]
      exact List.mem_append_right _ List.mem_cons_self
    exact absurd (hevs _ hmem) (by simp [Event.isTask])

namespace QueueInv

variable {w w' : World}

/-- A step that has nothing to do with stanzas. -/
theorem silent (h : QueueInv w) (hn : ∀ lt, w.eng.login_task = some lt → lt.state ≠ .done)
    (ht : TaskStep w w') (hf : Forward w w') (hg : Grows Event.isSilent w w') : QueueInv w' := by
  have hchange := ht.change_of_grows (hg.mono fun ev hev => hev.1)
  have ho : OwnWrites w.log w'.log := .of_grows (hg.mono fun ev hev => hev.2)
  obtain ⟨hphase, hlawful⟩ := h
  refine ⟨?_, ho.lawful hlawful⟩
  -- without a login task there is none after the step
  have hgone : (∀ lt, w.eng.login_task = some lt → lt.state = .done) →
      ∀ lt, w'.eng.login_task = some lt → lt.state = .done := by
    intro hl lt hl'
    have hnone : w.eng.login_task = none :=
      Option.eq_none_iff_forall_ne_some.2 fun x hx => hn x hx (hl x hx)
    rw [ht.none hnone] at hl'
    cases hl'
  cases hphase with
  | waiting lt hl hd hb hq hp =>
    have hb' : ¬ LoggedIn w'.log := fun hb' => hb (ho.loggedIn.1 hb')
    have hp' := ho.printed.trans hp
    have hq' := hq.trans ho.accepted.symm
    have hlt : ∀ x, w.eng.login_task = some x → x = lt := fun x hx =>
      Option.some.inj (hx.symm.trans hl)
    cases hchange with
    | kept hk => exact .waiting lt (hk.trans hl) hd hb' hq' hp'
    | given x element isStart hx hk =>
      rw [hlt x hx] at hk
      exact .waiting _ hk hd hb' hq' hp'
    | restarted x hx hk =>
      rw [hlt x hx] at hk
      exact .waiting _ hk (nomatch ·) hb' hq' hp'
    | dropped x hx hs hk =>
      rw [hlt x hx] at hs
      exact absurd hs hd
  | through hl hb hopened hp =>
    obtain ⟨evs, hlog, -⟩ := hg
    refine .through (hgone hl) (ho.loggedIn.2 hb) ?_
      ((ho.printed.trans hp).trans ho.accepted.symm)
    rw [hlog]
    exact hopened.append evs
  | failed hl hc hb hp =>
    exact .failed (hgone hl) (hf.closed hc) (fun hb' => hb (ho.loggedIn.1 hb'))
      (ho.printed.trans hp)

/-- A step after the login task is done. -/
theorem finished {lt : XmppLoginTask} (h : QueueInv w) (hl : w.eng.login_task = some lt)
    (hd : lt.state = .done) (hlog : w'.log = w.log) (hs : w'.eng.state = w.eng.state)
    (hl' : ∀ lt', w'.eng.login_task = some lt' → lt'.state = .done) : QueueInv w' := by
  obtain ⟨hphase, hlawful⟩ := h
  refine ⟨?_, hlog ▸ hlawful⟩
  cases hphase with
  | waiting x hx hdx =>
    rw [hl] at hx
    obtain rfl := Option.some.inj hx
    exact absurd hd hdx
  | through _ hb ho hp => exact .through hl' (hlog ▸ hb) (hlog ▸ ho) (hlog ▸ hp)
  | failed _ hc hb hp => exact .failed hl' (hs.trans hc) (hlog ▸ hb) (hlog ▸ hp)

/-- A stanza is sent. -/
theorem sent {e : XmlElement} (h : QueueInv w)
    (hn : ∀ lt, w.eng.login_task = some lt → lt.state ≠ .done) (hc : w.eng.state ≠ .closed)
    (hs : Sent w e w') : QueueInv w' := by
  obtain ⟨hphase, hlawful⟩ := h
  have haccept : acceptedStanzas (w.log ++ [.accepted e]) = acceptedStanzas w.log ++ [e] :=
    acceptedStanzas_append _ _
  have hprint : printedStanzas (w.log ++ [.accepted e]) = printedStanzas w.log := by
    rw [printedStanzas_append]
    exact List.append_nil _
  have hlogged : LoggedIn (w.log ++ [.accepted e]) ↔ LoggedIn w.log := by
    rw [loggedIn_append]
    refine or_iff_left ?_
    rintro ⟨jid, hjid⟩
    cases List.mem_singleton.1 hjid
  have hlawful' : Lawful OwnUntilOpened (w.log ++ [.accepted e]) := hlawful.snoc trivial
  cases hs with
  | queued lt hl =>
    refine ⟨?_, hlawful'⟩
    cases hphase with
    | waiting x hx hd hb hq hp =>
      rw [hl] at hx
      obtain rfl := Option.some.inj hx
      refine .waiting _ rfl hd (fun hb' => hb (hlogged.1 hb')) ?_ (hprint.trans hp)
      refine Eq.trans ?_ haccept.symm
      exact congrArg (· ++ [e]) hq
    | through hl' hb ho hp => exact absurd (hl' lt hl) (hn lt hl)
    | failed hl' hc' hb hp => exact absurd hc' hc
  | through hl =>
    have hprints := Prints.one (w.emit (.accepted e)).enterExit e
    cases hphase with
    | waiting x hx hd hb hq hp =>
      rw [hl] at hx
      cases hx
    | failed hl' hc' hb hp => exact absurd hc' hc
    | through hl' hb ho hp =>
      have ho' : Opened (w.log ++ [.accepted e]) := ho.append _
      refine ⟨.through (fun lt hlt => ?_) (hprints.loggedIn (hlogged.2 hb))
        (hprints.opened ho') ?_, hprints.lawful ho' hlawful'⟩
      · have hn : w.eng.login_task = some lt := hlt
        rw [hl] at hn
        cases hn
      · refine hprints.printed.trans (Eq.trans ?_ hprints.accepted.symm)
        refine Eq.trans ?_ haccept.symm
        exact congrArg (· ++ [e]) (hprint.trans hp)

/-- Bytes are written after the session result. -/
theorem written {s : EngineState} {bytes : Str} (h : QueueInv w) (ho : Opened w.log)
    (hlog : w'.log = w.log ++ [.wrote s bytes]) (hl : w'.eng.login_task = w.eng.login_task)
    (hc : w.eng.state = .closed → w'.eng.state = .closed) : QueueInv w' := by
  obtain ⟨hphase, hlawful⟩ := h
  have haccepted : acceptedStanzas w'.log = acceptedStanzas w.log := by
    rw [hlog, acceptedStanzas_append]
    exact List.append_nil _
  have hprinted : printedStanzas w'.log = printedStanzas w.log := by
    rw [hlog, printedStanzas_append]
    exact List.append_nil _
  have hlogged : LoggedIn w'.log ↔ LoggedIn w.log := by
    rw [hlog, loggedIn_append]
    refine or_iff_left ?_
    rintro ⟨jid, hjid⟩
    cases List.mem_singleton.1 hjid
  have hwrote : OwnUntilOpened w.log (.wrote s bytes) := .inl ho
  refine ⟨?_, hlog ▸ hlawful.snoc hwrote⟩
  cases hphase with
  | waiting lt hlt hd hb hq hp =>
    exact .waiting lt (hl.trans hlt) hd (fun hn => hb (hlogged.1 hn)) (hq.trans haccepted.symm)
      (hprinted.trans hp)
  | through hlt hb ho' hp =>
    exact .through (fun x hx => hlt x (hl ▸ hx)) (hlogged.2 hb) (hlog ▸ ho'.append _)
      ((hprinted.trans hp).trans haccepted.symm)
  | failed hlt hcl hb hp =>
    exact .failed (fun x hx => hlt x (hl ▸ hx)) (hc hcl) (fun hn => hb (hlogged.1 hn))
      (hprinted.trans hp)

end QueueInv

/-- The events of a statement that is no round and sends nothing. -/
theorem mayEmit_silent {s : Stmt} {ev : Event} (hs : s ≠ .advance)
    (hu : ∀ stanza, s ≠ .unhandled stanza) (h : s.mayEmit ev = true) : ev.isSilent := by
  refine ⟨mayEmit_task hs hu h, ?_⟩
  cases s with
  | advance => exact absurd rfl hs
  | unhandled stanza => exact absurd rfl (hu stanza)
  | _ => cases ev <;> first | rfl | exact absurd h Bool.false_ne_true

/-- A statement. -/
theorem exec_queueInv {s : Stmt} (h : QueueInv w)
    (hn : ∀ lt, w.eng.login_task = some lt → lt.state ≠ .done) (hsk : Handshake w)
    (hr : w.exec s = some r) : QueueInv r.1 := by
  by_cases hadv : s = .advance
  · subst hadv
    obtain ⟨lt, hl, hround⟩ := exec_advance hr
    exact h.round hl (hn lt hl) (hsk.login lt hl) hround
  · by_cases hu : ∃ stanza, s = .unhandled stanza
    · obtain ⟨stanza, rfl⟩ := hu
      obtain rfl := Option.some.inj hr
      rcases unhandled_cases w stanza with heq | ⟨hc, v, hv, heq⟩
      · rw [heq]
        exact h
      · rw [heq]
        exact h.sent hn hc hv
    · have hframe := exec_frame hr
      refine h.silent hn (exec_task hadv hr) hframe.forward (hframe.grows.mono fun ev hev => ?_)
      exact mayEmit_silent hadv (fun stanza hs => hu ⟨stanza, hs⟩) hev

/-- The entry of a function. -/
theorem entry_queueInv {m : Call} (h : QueueInv w)
    (hn : ∀ lt, w.eng.login_task = some lt → lt.state ≠ .done) (hsk : Handshake w)
    (he : Entry w m r) : QueueInv r.1 := by
  have hsilent : Grows Event.isSilent w r.1 → QueueInv r.1 :=
    h.silent hn (entry_task he) (entry_frame he).forward
  cases he with
  | refused m status hst => exact h
  | sent m e v hs hm hv => exact h.sent hn hs hv
  | sentIq e hd v hs hb hv =>
    have hentry : QueueInv (registerIq w (iqEntry w e hd)) :=
      h.silent hn (.of_kept rfl rfl ⟨[_], rfl, by simp [Event.isTask]⟩) (.of_eq rfl rfl)
        ⟨[_], rfl, by simp [Event.isSilent, Event.isTask, Event.isQueue]⟩
    exact hentry.sent hn hs hv
  | sendRaw text hs hl =>
    have ho : Opened w.log := by
      cases h.phase with
      | waiting lt hlt => exact absurd (hl.symm.trans hlt) (Option.some_ne_none lt).symm
      | through hlt hb ho hp => exact ho
      | failed hlt hc => exact absurd hc hs
    exact h.written ho rfl rfl id
  | disconnect hs =>
    dsimp only
    by_cases hopen : w.eng.state = .open
    · rw [if_pos hopen]
      exact h.written (hsk.opened hopen) rfl rfl (fun _ => rfl)
    · rw [if_neg hopen]
      have hclosed : Forward w (w.enterExit.set { w.enterExit.eng with state := .closed }) :=
        ⟨rank_le_closed _, .inl rfl⟩
      exact h.silent hn (.change (.kept rfl) (fun ho => by cases ho) (.of_eq rfl)) hclosed
        (.of_eq rfl)
  | connectionClosed subcode code sub hc hs =>
    exact hsilent (.of_eq (signalError_log w.enterExit code sub))
  | removed cookie entry hf =>
    exact hsilent ⟨[_], rfl, by simp [Event.isSilent, Event.isTask, Event.isQueue]⟩
  | _ => exact hsilent (.of_eq rfl)

/-- The invariant in every run. -/
theorem queue_reachable (h : Reachable c) : QueueInv c.state := by
  refine Reaches.invariant (I := fun c : Conf => QueueInv c.state) h ?_ ?_
  · refine ⟨.waiting _ rfl (nomatch ·) ?_ rfl rfl, Lawful.nil⟩
    rintro ⟨jid, hjid⟩
    cases hjid
  · intro c a c' hreach hc _ hs
    have hsk := handshake_reachable hreach
    have hdone := done_reachable hreach
    by_cases hn : ∀ lt, c.state.eng.login_task = some lt → lt.state ≠ .done
    · rcases step_cases hs with ⟨s, rest, r, -, -, -, hr, rfl⟩ | ⟨m, -, -, rfl⟩ |
        ⟨v, s, rest, -, -, -, rfl⟩
      · exact exec_queueInv hc hn hsk hr
      · have htask : TaskStep c.state (c.state.emit (.called m)) := .of_kept rfl rfl (.emit _ rfl)
        have hcalled : QueueInv (c.state.emit (.called m)) :=
          hc.silent hn htask (.of_eq rfl rfl) (.emit _ ⟨rfl, rfl⟩)
        exact entry_queueInv hcalled hn (htask.handshake hsk) (enter_entry c.state m)
      · exact hc
    · -- the login task is done: what is next is its end
      obtain ⟨lt, hn⟩ := not_forall.1 hn
      obtain ⟨hl, hn⟩ := Classical.not_imp.1 hn
      have hd := not_not.1 hn
      obtain ⟨below, hcontrol⟩ := hdone lt hl hd
      rcases step_cases hs with ⟨s, rest, r, -, hcontrol', -, hr, rfl⟩ | ⟨m, -, hw, rfl⟩ |
        ⟨v, s, rest, -, -, -, rfl⟩
      · rw [hcontrol'] at hcontrol
        rcases hcontrol with heq | heq
        · obtain ⟨rfl, rfl⟩ := List.cons.inj heq
          obtain ⟨x, hx, rfl⟩ := Option.map_eq_some_iff.1 hr
          refine hc.finished hl hd rfl rfl fun lt' hl' => ?_
          obtain rfl := Option.some.inj hl'
          rw [hl] at hx
          obtain rfl := Option.some.inj hx
          exact hd
        · obtain ⟨rfl, rfl⟩ := List.cons.inj heq
          obtain ⟨x, hx, rfl⟩ := Option.map_eq_some_iff.1 hr
          rw [hl] at hx
          obtain rfl := Option.some.inj hx
          dsimp only
          rw [if_pos hd]
          exact hc.finished hl hd rfl rfl fun lt' hl' => (nomatch hl')
      · have hhead := waiting_atWork hw
        rcases hcontrol with heq | heq
        · exact absurd (hhead .advanced (by rw [heq]; rfl)) (by decide)
        · exact absurd (hhead .resetLogin (by rw [heq]; rfl)) (by decide)
      · exact hc

/-! ## 5. Success and failure -/

/-- A closed engine does not log in. -/
theorem step_loggedIn {a : Step} (hreach : Reachable c) (hs : engine.step c a = some c')
    (hc : c.state.eng.state = .closed) (hb : ¬ LoggedIn c.state.log) : ¬ LoggedIn c'.state.log := by
  -- the events of the other steps
  have hgrow : ∀ {p : Event → Prop} {w : World}, (∀ jid, ¬ p (.signalBound jid)) →
      Grows p c.state w → ¬ LoggedIn w.log := by
    rintro p w hp ⟨evs, hlog, hevs⟩ ⟨jid, hjid⟩
    rw [hlog] at hjid
    rcases List.mem_append.1 hjid with hjid | hjid
    · exact hb ⟨jid, hjid⟩
    · exact hp jid (hevs _ hjid)
  rcases step_cases hs with ⟨s, rest, r, -, hcontrol, -, hr, rfl⟩ | ⟨m, -, -, rfl⟩ |
    ⟨v, s, rest, -, -, -, rfl⟩
  · by_cases hadv : s = .advance
    · subst hadv
      obtain ⟨lt, hl, hround⟩ := exec_advance hr
      have hd : lt.state ≠ .done := by
        intro hd
        obtain ⟨below, heq | heq⟩ := done_reachable hreach lt hl hd <;>
          exact nomatch hcontrol.symm.trans heq
      cases round_queue hround hl hd with
      | lasting lt' hl' hd' hq ho | failed lt' hl' hd' hcl ho =>
        exact fun hn => hb (ho.loggedIn.1 hn)
      | session e lt' u he =>
        -- the login task of a closed engine has no stanza
        have hnone := (stopped_reachable hreach hc lt hl hd).1
        rw [he] at hnone
        cases hnone
    · refine hgrow (fun jid hm => ?_) (exec_frame hr).grows
      cases s <;> first | exact hadv rfl | exact absurd hm Bool.false_ne_true
  · have hcalled : ¬ LoggedIn (c.state.emit (.called m)).log :=
      hgrow (p := fun ev => ev = .called m) (fun jid hm => nomatch hm) (.emit _ rfl)
    rintro ⟨jid, hjid⟩
    obtain ⟨evs, hlog, hevs⟩ := (entry_frame (enter_entry c.state m)).grows
    have hjid' : Event.signalBound jid ∈ (c.state.enter m).1.log := hjid
    rw [hlog] at hjid'
    rcases List.mem_append.1 hjid' with hjid' | hjid'
    · exact hcalled ⟨jid, hjid'⟩
    · have hm := hevs _ hjid'
      cases m <;> exact absurd hm Bool.false_ne_true
  · exact hb

/-- A login that has failed has failed for good. -/
theorem failed_forever (h : Reachable c) (hc : c.state.eng.state = .closed)
    (hb : ¬ LoggedIn c.state.log) (hr : engine.Reaches anyCall c c') : ¬ LoggedIn c'.state.log := by
  have hinv : Reachable c' ∧ c'.state.eng.state = .closed ∧ ¬ LoggedIn c'.state.log := by
    refine Reaches.invariant (I := fun c' : Conf => Reachable c' ∧ c'.state.eng.state = .closed ∧
      ¬ LoggedIn c'.state.log) hr ⟨h, hc, hb⟩ ?_
    rintro d a d' - ⟨hd, hdc, hdb⟩ ha hs
    exact ⟨hd.tail ⟨a, ha, hs⟩, (step_forward hs).closed hdc, step_loggedIn hd hs hdc hdb⟩
  exact hinv.2.2

/-- `SendStanza` accepts what it is given until the engine is closed. -/
theorem accepted_call {e : XmlElement} (hs : engine.step c (.call (.sendStanza e)) = some c') :
    acceptedStanzas c'.state.log
      = acceptedStanzas c.state.log ++ if c.state.eng.state = .closed then [] else [e] := by
  have hcalled : acceptedStanzas (c.state.emit (.called (.sendStanza e))).log
      = acceptedStanzas c.state.log := by
    rw [emit_log, acceptedStanzas_append]
    exact List.append_nil _
  have hstate : c'.state = ((c.state.emit (.called (.sendStanza e))).sendStanza e).1 := by
    rcases step_cases hs with ⟨s, rest, r, ha, -⟩ | ⟨m, ha, -, rfl⟩ | ⟨v, s, rest, ha, -⟩
    · cases ha
    · cases ha
      rfl
    · cases ha
  rw [hstate]
  rcases sendStanza_cases (c.state.emit (.called (.sendStanza e))) e with
    ⟨hc, heq⟩ | ⟨hc, v, hv, heq⟩
  · have hclosed : c.state.eng.state = .closed := hc
    rw [heq, if_pos hclosed, List.append_nil]
    exact hcalled
  · have hopen : ¬ c.state.eng.state = .closed := hc
    rw [heq, if_neg hopen, ← hcalled]
    cases hv with
    | queued lt hl => exact acceptedStanzas_append _ _
    | through hl =>
      exact (Prints.one ((c.state.emit (.called (.sendStanza e))).emit (.accepted e)).enterExit
        e).accepted.trans (acceptedStanzas_append _ _)

/-- The stanzas sent while the login lasts: until the session result is taken, the engine
writes nothing but the start of streams and the login task's own stanzas; once the login
has succeeded, what has been printed is what has been accepted, in the order of the calls;
and if the engine closes before, nothing that was accepted is ever printed. -/
theorem login_queue {c : Conf} (h : Reachable c) :
    Lawful OwnUntilOpened c.state.log ∧
    (LoggedIn c.state.log → printedStanzas c.state.log = acceptedStanzas c.state.log) ∧
    (¬ LoggedIn c.state.log → printedStanzas c.state.log = []) ∧
    (c.state.eng.state = .open → LoggedIn c.state.log) ∧
    (c.state.eng.state = .closed → ¬ LoggedIn c.state.log →
      ∀ c', engine.Reaches anyCall c c' → printedStanzas c'.state.log = []) ∧
    ∀ e c', engine.step c (.call (.sendStanza e)) = some c' →
      acceptedStanzas c'.state.log
        = acceptedStanzas c.state.log ++ if c.state.eng.state = .closed then [] else [e] := by
  have hunprinted : ∀ {c : Conf}, Reachable c → ¬ LoggedIn c.state.log →
      printedStanzas c.state.log = [] := by
    intro c h hb
    cases (queue_reachable h).phase with
    | waiting lt hl hd hb' hq hp | failed hl hc hb' hp => exact hp
    | through hl hb' => exact absurd hb' hb
  have hinv := queue_reachable h
  refine ⟨hinv.lawful, fun hb => ?_, hunprinted h, fun ho => ?_, fun hc hb c' hr => ?_,
    fun e c' hs => accepted_call hs⟩
  · cases hinv.phase with
    | waiting lt hl hd hb' | failed hl hc hb' => exact absurd hb hb'
    | through hl hb' ho hp => exact hp
  · cases hinv.phase with
    | waiting lt hl hd =>
      -- the login task of an open engine is done
      rcases (settled_reachable h).2.opened ho with hn | ⟨lt', below, hl', hd', -⟩
      · rw [hn] at hl
        cases hl
      · rw [hl] at hl'
        obtain rfl := Option.some.inj hl'
        exact absurd hd' hd
    | through hl hb => exact hb
    | failed hl hc =>
      rw [ho] at hc
      cases hc
  · exact hunprinted (h.trans hr) (failed_forever h hc hb hr)

theorem login_queue_printed : ∃ c : Conf, printedStanzas c.state.log =
    acceptedStanzas c.state.log ∧ (acceptedStanzas c.state.log).map XmlElement.name
      = [QN_MESSAGE, QN_PRESENCE] := by
  obtain ⟨c, h, hp⟩ := exists_of_drive (G := anyCall) (P := engine) (n := 40) (c := Conf.init)
    (l := [.call (.setTls .disabled), plainUser true, .call .connect,
      .call (.sendStanza (XmlElement.new QN_MESSAGE false)),
      .call (.sendStanza (XmlElement.new QN_PRESENCE false))] ++ plainLogin)
    (p := fun c => c.state.eng.state = .open &&
      (acceptedStanzas c.state.log).map XmlElement.name = [QN_MESSAGE, QN_PRESENCE])
    (by decide +kernel)
  simp only [Bool.and_eq_true, decide_eq_true_eq] at hp
  obtain ⟨-, hprinted, -, hopen, -⟩ := login_queue h
  exact ⟨c, hprinted (hopen hp.1), hp.2⟩

end Gxmpp
