/-
No wake-up is lost between posting and waiting.

A thread that has to look at something before it waits is awake: its `Signaler` is signaled, or
a thread is about to wake it up, or its stack leads it to look, before it comes to a `select`
(`covers`). Nested waits share `fWait_` and the pipe, and a `Send` that has waited wakes up its own
thread again.
-/
import Gxmpp.Rendezvous

set_option autoImplicit false

namespace Gxmpp.TalkBase

open Reentrant Interleaving

/-! ## 1. What a thread has to look at -/

/-- What a thread has to look at before it waits. -/
inductive Need where
  /-- the ready list -/
  | message
  /-- a delayed message that was posted since `Get` has last looked -/
  | delayed
  /-- `Quit` -/
  | stop
  /-- the send list -/
  | sends
  /-- a `ready` flag -/
  | reply (n : SendId)
deriving DecidableEq

/-- The thread has to look. -/
def Needs (s : SendState) (o : ThreadId) : Need → Prop
  | .message => (s.threads o).msgq_ ≠ []
  | .delayed => (s.threads o).unexamined = true
  | .stop => (s.threads o).fStop_ = true
  | .sends => (s.threads o).sendlist_ ≠ []
  | .reply n => s.ready n = true ∧ s.sender n = o

/-- What a statement comes to, when nothing is signaled. -/
inductive Glance where
  | looks
  /-- waits in a `select` that should not wait -/
  | blocks
  /-- leads to the statements below, with this `fWait_` -/
  | goesOn (fWait_ : Bool)

namespace Need

/-- A `Wait`. -/
def waits : Need → Waiter → Glance
  | .sends, _ => .blocks
  | .reply _, .get _ => .looks
  | .reply n, .send k => if n = k then .blocks else .goesOn true
  | _, .get _ => .blocks
  -- this `Send` will wake up its own thread when it returns
  | _, .send _ => .goesOn true

def glance (n : Need) (w : Bool) : SendStmt → Glance
  | .sendLoop _ true | .pass true _ _ | .getLoop _ _ _ | .getWaited _ _ => .looks
  | .onEvent => .goesOn false
  | .wait k | .select k => n.waits k
  | .waitLoop k | .pass false _ k => if w then n.waits k else .looks
  | .pull first_pass _ _ _ _ =>
    match n with
    | .sends => .blocks
    | .delayed => if first_pass then .looks else .blocks
    | _ => .looks
  | .checkStop _ _ _ _ =>
    match n with
    | .stop | .reply _ => .looks
    | _ => .blocks
  | .receiveSends | .receiveNext | .onMessage _ | .received _ =>
    match n with
    | .sends => .looks
    | _ => .goesOn w
  | _ => .goesOn w

end Need

/-- The stack leads to a look. -/
def covers (n : Need) : Bool → List SendStmt → Prop
  | _, [] => True
  | w, x :: rest =>
    match n.glance w x with
    | .looks => True
    | .blocks => False
    | .goesOn w' => covers n w' rest

section Covers

variable {n : Need} {w w' : Bool} {x : SendStmt} {rest push : List SendStmt}

theorem covers_looks (h : n.glance w x = .looks) : covers n w (x :: rest) := by
  rw [covers, h]
  trivial

theorem covers_goesOn (h : n.glance w x = .goesOn w') :
    covers n w (x :: rest) ↔ covers n w' rest := by
  rw [covers, h]

theorem not_covers (h : n.glance w x = .blocks) : ¬covers n w (x :: rest) := by
  rw [covers, h]
  exact id

/-- Only the first glance matters. -/
theorem covers_congr {y : SendStmt} (h : n.glance w x = n.glance w' y) :
    covers n w (x :: rest) ↔ covers n w' (y :: rest) := by
  rw [covers, covers, h]

end Covers

/-! ## 2. The order of the stacks -/

/-- What stands below a statement. -/
def After (rest : List SendStmt) : SendStmt → Prop
  | .wait (.send n) | .waitLoop (.send n) | .select (.send n) | .pass _ _ (.send n) =>
    rest.head? = some (.sendLoop n true)
  | .wait (.get _) | .waitLoop (.get _) | .select (.get _) | .pass _ _ (.get _) =>
    ∃ cmsWait msStart, rest = [.getWaited cmsWait msStart]
  | .getLoop _ _ _ | .pull _ _ _ _ _ | .checkStop _ _ _ _ | .getWaited _ _ => rest = []
  | .pushSend target _ => rest.head? = some (.wakeUp target)
  | _ => True

/-- Each statement stands above what it goes back to. -/
def Chained : List SendStmt → Prop
  | [] => True
  | x :: rest => After rest x ∧ Chained rest

section Chained

variable {c c' : SendConf} {t : ThreadId} {s s' : SendState} {x : SendStmt}
  {rest push : List SendStmt}

/-- Where a wait goes back to. -/
theorem After.waited {k : Waiter} (h : After rest (.waitLoop k)) (n : Need) (w : Bool) :
    covers n w rest := by
  cases k with
  | get cmsNext =>
    obtain ⟨cmsWait, msStart, rfl⟩ := h
    exact covers_looks rfl
  | send k =>
    cases rest with
    | nil => trivial
    | cons y rest =>
      obtain rfl := Option.some.inj h
      exact covers_looks rfl

/-- What a critical section of `Get` does to its thread. -/
structure Pulled (s s' : SendState) (t : ThreadId) (first_pass : Bool) : Prop where
  others : ∀ o, o ≠ t → s'.threads o = s.threads o
  ready : s'.ready = s.ready
  sender : s'.sender = s.sender
  fWait_ : (s'.threads t).fWait_ = (s.threads t).fWait_
  fSignaled_ : (s'.threads t).fSignaled_ = (s.threads t).fSignaled_
  fStop_ : (s'.threads t).fStop_ = (s.threads t).fStop_
  sendlist_ : (s'.threads t).sendlist_ = (s.threads t).sendlist_
  has_sends_ : (s'.threads t).has_sends_ = (s.threads t).has_sends_
  unexamined : (s'.threads t).unexamined = (!first_pass && (s.threads t).unexamined)

theorem pull_spec (s : SendState) (t : ThreadId) (first_pass : Bool) (cmsDelayNext cmsWait : Int)
    (msStart msCurrent : UInt32) :
    Pulled s (s.pull t first_pass cmsDelayNext cmsWait msStart msCurrent).1 t first_pass ∧
    ((∃ cms, (s.pull t first_pass cmsDelayNext cmsWait msStart msCurrent).2 =
        [.checkStop cms cmsWait msStart msCurrent] ∧
      ((s.pull t first_pass cmsDelayNext cmsWait msStart msCurrent).1.threads t).msgq_ = []) ∨
    (∃ cms, (s.pull t first_pass cmsDelayNext cmsWait msStart msCurrent).2 =
      [.pull false cms cmsWait msStart msCurrent]) ∨
    (s.pull t first_pass cmsDelayNext cmsWait msStart msCurrent).2 = []) := by
  unfold SendState.pull
  dsimp only
  generalize (if first_pass = true then _ else cmsDelayNext : Int) = cms
  generalize hs₁ : (if first_pass = true then _ else s : SendState) = s₁
  have hfirst : Pulled s s₁ t first_pass := by
    rw [← hs₁]
    cases first_pass with
    | true =>
      refine ⟨fun o ho => update_ne s (SendState.readyDelayed · msCurrent) ho, rfl, rfl, ?_, ?_,
        ?_, ?_, ?_, ?_⟩
      all_goals
        rw [if_pos rfl, update_self]
        rfl
    | false => exact ⟨fun _ _ => rfl, rfl, rfl, rfl, rfl, rfl, rfl, rfl, rfl⟩
  cases hq : (s₁.threads t).msgq_ with
  | nil => exact ⟨hfirst, Or.inl ⟨cms, rfl, hq⟩⟩
  | cons msg rest =>
    dsimp only
    refine ⟨⟨fun o ho => ?_, hfirst.ready, hfirst.sender, ?_, ?_, ?_, ?_, ?_, ?_⟩, ?_⟩
    · rw [update_ne s₁ _ ho, hfirst.others o ho]
    · rw [update_self, ← hfirst.fWait_]
    · rw [update_self, ← hfirst.fSignaled_]
    · rw [update_self, ← hfirst.fStop_]
    · rw [update_self, ← hfirst.sendlist_]
    · rw [update_self, ← hfirst.has_sends_]
    · rw [update_self, ← hfirst.unexamined]
    · split_ifs
      · exact Or.inr (Or.inl ⟨cms, rfl⟩)
      · exact Or.inr (Or.inr rfl)

theorem exec_chained (h : Chained (x :: rest)) (hs : SendState.exec t s x = some (s', push)) :
    Chained (push ++ rest) := by
  obtain ⟨hx, hrest⟩ := h
  cases SendState.exec_executes hs with
  | woken | receiveSends => exact ⟨trivial, hrest⟩
  | unready n waited hready => exact ⟨trivial, rfl, trivial, hrest⟩
  | receiveNext | received =>
    unfold SendState.receiveNext
    split
    · exact hrest
    · exact ⟨trivial, hrest⟩
  | getLoop cmsWait msStart msCurrent => exact ⟨trivial, hx, hrest⟩
  | pull first_pass cmsDelayNext cmsWait msStart msCurrent =>
    rcases (pull_spec s t first_pass cmsDelayNext cmsWait msStart msCurrent).2 with ⟨cms, hp, -⟩ |
      ⟨cms, hp⟩ | hp
    · rw [hp]
      exact ⟨hx, hrest⟩
    · rw [hp]
      exact ⟨hx, hrest⟩
    · rw [hp]
      exact hrest
  | running cmsDelayNext cmsWait msStart msCurrent cmsNext hstop =>
    obtain rfl : rest = [] := hx
    exact ⟨⟨cmsWait, msStart, rfl⟩, rfl, trivial⟩
  | again cmsWait msStart => exact ⟨hx, hrest⟩
  | wait k | waiting k | passed k => cases k <;> exact ⟨hx, hrest⟩
  | signaled sockets k | socket socket sockets k => cases k <;> exact ⟨trivial, hx, hrest⟩
  | _ => exact hrest

theorem resume_chained {v : SendAns} (h : Chained (x :: rest)) (hf : SendState.foreign x = true) :
    Chained ((SendState.resume t s x v).2 ++ rest) := by
  obtain ⟨hx, hrest⟩ := h
  cases x with
  | onMessage smsg => exact ⟨trivial, hrest⟩
  | select k =>
    cases v with
    | timeout => exact hrest
    | error eintr =>
      cases eintr with
      | false => exact hrest
      | true => cases k <;> exact ⟨hx, hrest⟩
    | _ => cases k <;> exact ⟨hx, hrest⟩
  | handler | socketEvent => exact hrest
  | _ => cases hf

theorem enter_chained {m : SendCall} {l : List SendStmt} (h : Chained l)
    (hget : ∀ cmsWait, m = .get cmsWait → l = []) :
    Chained ((SendState.enter t s m).2 ++ l) := by
  cases m with
  | post | postDelayed =>
    show Chained ((if _ then _ else _) ++ l)
    split
    · exact h
    · exact ⟨trivial, h⟩
  | send target phandler id pdata =>
    unfold SendState.enter
    dsimp only
    split_ifs
    · exact h
    · exact ⟨trivial, h⟩
    · exact ⟨rfl, trivial, trivial, h⟩
  | get cmsWait => exact ⟨hget cmsWait rfl, h⟩
  | clock now => exact h
  | _ => exact ⟨trivial, h⟩

end Chained

/-! ## 3. What a step asks of a thread -/

/-- The thread has nothing new to look at, and is not less awake. -/
structure Quiet (s s' : SendState) (o : ThreadId) (n : Need) : Prop where
  needs : Needs s' o n → Needs s o n
  fWait_ : (s'.threads o).fWait_ = (s.threads o).fWait_
  fSignaled_ : (s.threads o).fSignaled_ = true → (s'.threads o).fSignaled_ = true

/-- It is signaled, or has nothing new to look at. -/
def Calls (s s' : SendState) (o : ThreadId) (n : Need) : Prop :=
  (s'.threads o).fSignaled_ = true ∨ Quiet s s' o n

/-- A change of a thread that gives it nothing new to look at. -/
structure Eases (th th' : ThreadState) : Prop where
  msgq_ : th.msgq_ = [] → th'.msgq_ = []
  unexamined : th'.unexamined = true → th.unexamined = true
  fStop_ : th'.fStop_ = true → th.fStop_ = true
  sendlist_ : th.sendlist_ = [] → th'.sendlist_ = []
  fWait_ : th'.fWait_ = th.fWait_
  fSignaled_ : th.fSignaled_ = true → th'.fSignaled_ = true

/-- The statements in which a thread changes its own `fWait_` and `fSignaled_`, and pulls. -/
def SendStmt.settles : SendStmt → Bool
  | .pull _ _ _ _ _ | .wait _ | .waitLoop _ | .pass _ _ _ | .onEvent => true
  | _ => false

section Calls

variable {s s' s'' : SendState} {t u o : ThreadId} {n : Need} {x : SendStmt}
  {push : List SendStmt}

theorem Eases.refl (th : ThreadState) : Eases th th := ⟨id, id, id, id, rfl, id⟩

theorem Eases.quiet (h : Eases (s.threads o) (s'.threads o)) (hready : s'.ready = s.ready)
    (hsender : s'.sender = s.sender) : Quiet s s' o n := by
  refine ⟨fun hn => ?_, h.fWait_, h.fSignaled_⟩
  cases n with
  | message => exact fun hnil => hn (h.msgq_ hnil)
  | delayed => exact h.unexamined hn
  | stop => exact h.fStop_ hn
  | sends => exact fun hnil => hn (h.sendlist_ hnil)
  | reply k =>
    unfold Needs at hn
    rw [hready, hsender] at hn
    exact hn

theorem Quiet.refl (s : SendState) (o : ThreadId) (n : Need) : Quiet s s o n := ⟨id, rfl, id⟩

theorem Quiet.trans (h : Quiet s s' o n) (h' : Quiet s' s'' o n) : Quiet s s'' o n :=
  ⟨fun hn => h.needs (h'.needs hn), h'.fWait_.trans h.fWait_,
    fun hs => h'.fSignaled_ (h.fSignaled_ hs)⟩

theorem Calls.trans (h : Calls s s' o n) (h' : Calls s' s'' o n) : Calls s s'' o n := by
  rcases h' with h' | h'
  · exact Or.inl h'
  · rcases h with h | h
    · exact Or.inl (h'.fSignaled_ h)
    · exact Or.inr (h.trans h')

/-- Other threads notice nothing. -/
theorem update_quiet {f : ThreadState → ThreadState} (h : o ≠ u) : Quiet s (s.update u f) o n :=
  Eases.quiet (by rw [update_ne s f h]; exact Eases.refl _) rfl rfl

theorem eases_quiet {f : ThreadState → ThreadState} (h : Eases (s.threads u) (f (s.threads u))) :
    Quiet s (s.update u f) o n := by
  by_cases hu : o = u
  · refine Eases.quiet ?_ rfl rfl
    rw [hu, update_self]
    exact h
  · exact update_quiet hu

theorem wakeUp_calls (s : SendState) (u o : ThreadId) (n : Need) : Calls s (s.wakeUp u) o n := by
  by_cases hu : o = u
  · refine Or.inl ?_
    unfold SendState.wakeUp
    rw [hu, update_self]
  · exact Or.inr (update_quiet hu)

/-- A post to a thread wakes it up. -/
theorem post_calls {f : ThreadState → ThreadState} : Calls s ((s.update u f).wakeUp u) o n := by
  by_cases hu : o = u
  · refine Or.inl ?_
    unfold SendState.wakeUp
    rw [hu, update_self]
  · exact Calls.trans (Or.inr (update_quiet hu)) (wakeUp_calls _ u o n)

/-- A reply wakes up the thread that waits for it. -/
theorem reply_calls {smsg : SendMessage} (h : s.sender smsg.ready = smsg.thread) :
    Calls s (s.reply smsg) o n := by
  by_cases ho : o = smsg.thread
  · refine Or.inl ?_
    unfold SendState.reply SendState.wakeUp
    rw [ho, update_self]
  · have hflag : Quiet s { s with
        ready := Function.update s.ready smsg.ready true
        log := s.log ++ [SendEvent.readied smsg.ready] } o n := by
      refine ⟨fun hn => ?_, rfl, id⟩
      cases n with
      | reply k =>
        have hne : k ≠ smsg.ready := fun hk => ho (hn.2.symm.trans (hk ▸ h))
        exact ⟨(Function.update_of_ne hne true s.ready).symm.trans hn.1, hn.2⟩
      | _ => exact hn
    exact Calls.trans (Or.inr hflag) (wakeUp_calls _ _ _ _)

theorem clear_calls {target : ThreadId} (phandler : Handler) (id : UInt32)
    (h : ∀ smsg ∈ (s.threads target).sendlist_, Addressed s smsg target) :
    Calls s (s.clear target phandler id) o n := by
  have hfold : ∀ (l : List SendMessage) (s₁ : SendState),
      (∀ smsg ∈ l, s₁.sender smsg.ready = smsg.thread) →
      Calls s₁ (l.foldl SendState.clearSend s₁) o n := by
    intro l
    induction l with
    | nil => exact fun s₁ _ => Or.inr (Quiet.refl s₁ o n)
    | cons smsg l ih =>
      intro s₁ hl
      have hlog : Quiet s₁ { s₁ with log := s₁.log ++ [SendEvent.cleared smsg.ready] } o n :=
        ⟨fun hn => by cases n <;> exact hn, rfl, fun hs => hs⟩
      have hone : Calls s₁ (s₁.clearSend smsg) o n :=
        Calls.trans (Or.inr hlog) (reply_calls (hl smsg List.mem_cons_self))
      exact hone.trans (ih _ fun m hm => hl m (List.mem_cons_of_mem _ hm))
  unfold SendState.clear
  dsimp only
  refine Calls.trans (hfold _ s ?_) (Or.inr (eases_quiet ?_))
  · exact fun smsg hsmsg => (h smsg (List.mem_of_mem_filter hsmsg)).sender
  refine ⟨?_, fun hu => hu, fun hs => hs, ?_, rfl, fun hs => hs⟩
  · intro hnil
    dsimp only
    rw [hnil]
    rfl
  · intro hnil
    dsimp only
    rw [hnil]
    rfl

theorem receiveNext_quiet (s : SendState) (t o : ThreadId) (n : Need) :
    Quiet s (s.receiveNext t).1 o n := by
  unfold SendState.receiveNext
  cases hlist : (s.threads t).sendlist_ with
  | nil =>
    dsimp only
    refine eases_quiet ?_
    exact ⟨id, id, id, id, rfl, id⟩
  | cons smsg rest =>
    have hlist : Quiet s (s.update t fun th => { th with sendlist_ := rest }) o n := by
      refine eases_quiet ?_
      refine ⟨id, id, id, fun hnil => ?_, rfl, id⟩
      rw [hlist] at hnil
      cases hnil
    exact hlist.trans ⟨fun hn => by cases n <;> exact hn, rfl, id⟩

theorem pushSend_quiet {target : ThreadId} {smsg : SendMessage}
    (hs : SendState.exec t s (.pushSend target smsg) = some (s', push)) :
    Quiet s s' o n ∨ o = target ∧ n = .sends := by
  obtain ⟨rfl, rfl⟩ := Prod.mk.inj (Option.some.inj hs)
  have hlog : ∀ {s₁ : SendState} {log}, Quiet s₁ { s₁ with log } o n := fun {_ _} =>
    ⟨fun hneed => by cases n <;> exact hneed, rfl, id⟩
  by_cases hn : n = .sends
  · by_cases ho : o = target
    · exact Or.inr ⟨ho, hn⟩
    · exact Or.inl (Quiet.trans (update_quiet ho) hlog)
  · refine Or.inl (Quiet.trans ?_ hlog)
    by_cases ho : o = target
    · subst ho
      refine ⟨fun hneed => ?_, ?_, fun hsig => ?_⟩
      · cases n with
        | sends => exact absurd rfl hn
        | reply k => exact hneed
        | _ =>
          unfold Needs at hneed ⊢
          rw [update_self] at hneed
          exact hneed
      · rw [update_self]
      · rw [update_self]
        exact hsig
    · exact update_quiet ho

theorem exec_calls (hs : SendState.exec t s x = some (s', push)) (hx : Placed s t x)
    (hlist : ∀ u, ∀ smsg ∈ (s.threads u).sendlist_, Addressed s smsg u) (o : ThreadId) (n : Need) :
    Calls s s' o n ∨ (o = t ∧ x.settles = true) ∨
      (∃ smsg, x = .pushSend o smsg) ∧ n = .sends := by
  have hown : ∀ f : ThreadState → ThreadState, s' = s.update t f → x.settles = true →
      Calls s s' o n ∨ (o = t ∧ x.settles = true) ∨
        (∃ smsg, x = .pushSend o smsg) ∧ n = .sends := by
    rintro f rfl hsettles
    by_cases ho : o = t
    · exact Or.inr (Or.inl ⟨ho, hsettles⟩)
    · exact Or.inl (Or.inr (update_quiet ho))
  have hsame : s' = s → Calls s s' o n := by
    rintro rfl
    exact Or.inr (Quiet.refl s' o n)
  cases SendState.exec_executes hs with
  | post | doDelayPost => exact Or.inl post_calls
  | clear target phandler id => exact Or.inl (clear_calls phandler id (hlist target))
  | pushSend target smsg =>
    rcases pushSend_quiet (o := o) (n := n) hs with h | ⟨rfl, hn⟩
    · exact Or.inl (Or.inr h)
    · exact Or.inr (Or.inr ⟨⟨smsg, rfl⟩, hn⟩)
  | wakeUp target => exact Or.inl (wakeUp_calls s target o n)
  | returned | woken => exact Or.inl (Or.inr ⟨fun hneed => by cases n <;> exact hneed, rfl, id⟩)
  | receiveNext => exact Or.inl (Or.inr (receiveNext_quiet s t o n))
  | received smsg =>
    exact Or.inl (Calls.trans (reply_calls hx.sender) (Or.inr (receiveNext_quiet _ t o n)))
  | pull first_pass cmsDelayNext cmsWait msStart msCurrent =>
    by_cases ho : o = t
    · exact Or.inr (Or.inl ⟨ho, rfl⟩)
    · have hp := (pull_spec s t first_pass cmsDelayNext cmsWait msStart msCurrent).1
      refine Or.inl (Or.inr (Eases.quiet ?_ hp.ready hp.sender))
      rw [hp.others o ho]
      exact Eases.refl _
  | wait | waited | signaled | onEvent => exact hown _ rfl rfl
  | _ => exact Or.inl (hsame rfl)

end Calls

/-! ## 4. The own steps -/

section Own

variable {s s' : SendState} {t : ThreadId} {n : Need} {w : Bool} {x : SendStmt}
  {rest push : List SendStmt}

/-- After the loop of `ReceiveSends`, the send list is empty. -/
theorem receiveNext_covers (hn : Needs (s.receiveNext t).1 t n) (h : n = .sends ∨ covers n w rest) :
    covers n w ((s.receiveNext t).2 ++ rest) := by
  unfold SendState.receiveNext at hn ⊢
  cases hlist : (s.threads t).sendlist_ with
  | nil =>
    rw [hlist] at hn
    rcases h with rfl | h
    · unfold Needs at hn
      dsimp only at hn
      rw [update_self] at hn
      exact absurd hlist hn
    · exact h
  | cons smsg l =>
    rcases h with rfl | h
    · exact covers_looks rfl
    · cases n with
      | sends => exact covers_looks rfl
      | _ => exact (covers_goesOn rfl).2 h

/-- A statement that leaves `fWait_` and `fSignaled_` alone. -/
theorem plain_covers (hsettles : x.settles = false)
    (hs : SendState.exec t s x = some (s', push)) (hchained : Chained (x :: rest))
    (hsends : (s.threads t).sendlist_ ≠ [] → (s.threads t).has_sends_ = true)
    (hneed : Needs s' t n) (h : covers n w (x :: rest)) :
    (push ++ rest).head? = some (.wakeUp t) ∨ covers n w (push ++ rest) := by
  cases SendState.exec_executes hs with
  | returned k hready => exact Or.inr ((covers_goesOn rfl).1 h)
  | woken k hready => exact Or.inl rfl
  | unready k waited hready =>
    -- it waits, and then looks at its flag
    have hlast : covers n true (.sendLoop k true :: rest) := covers_looks rfl
    refine Or.inr ?_
    cases n with
    | sends => exact covers_looks rfl
    | reply j =>
      have hne : j ≠ k := fun hj => hready (hj ▸ hneed.1)
      have hwait : (Need.reply j).glance w (.wait (.send k)) = .goesOn true := if_neg hne
      exact (covers_goesOn rfl).2 ((covers_goesOn hwait).2 hlast)
    | _ => exact (covers_goesOn rfl).2 ((covers_goesOn rfl).2 hlast)
  | receiveSends hflag =>
    refine Or.inr ?_
    cases n with
    | sends => exact covers_looks rfl
    | _ => exact (covers_goesOn rfl).2 ((covers_goesOn rfl).1 h)
  | noSends hflag =>
    refine Or.inr ?_
    cases n with
    | sends => exact absurd (hsends hneed) hflag
    | _ => exact (covers_goesOn rfl).1 h
  | receiveNext | received =>
    refine Or.inr (receiveNext_covers hneed ?_)
    cases n with
    | sends => exact Or.inl rfl
    | _ => exact Or.inr ((covers_goesOn rfl).1 h)
  | getLoop cmsWait msStart msCurrent =>
    refine Or.inr ?_
    cases n with
    | sends => exact covers_looks rfl
    | _ => exact (covers_goesOn rfl).2 (covers_looks rfl)
  | stopped | gaveUp =>
    obtain ⟨rfl : rest = [], -⟩ := hchained
    exact Or.inr trivial
  | running cmsDelayNext cmsWait msStart msCurrent cmsNext hstop =>
    refine Or.inr ?_
    cases n with
    | stop => exact absurd hneed hstop
    | reply j => exact covers_looks rfl
    | _ => exact absurd h (not_covers rfl)
  | again cmsWait msStart => exact Or.inr (covers_looks rfl)
  | pull | wait | waiting | waited | signaled | socket | passed | onEvent => cases hsettles
  | _ => exact Or.inr ((covers_goesOn rfl).1 h)

/-- What a thread has to look at does not depend on how it waits. -/
theorem needs_fWait_ {u : ThreadId} {b : Bool}
    (h : Needs (s.update u fun th => { th with fWait_ := b }) t n) : Needs s t n := by
  by_cases hu : t = u
  · subst hu
    cases n with
    | reply j => exact h
    | _ =>
      unfold Needs at h ⊢
      rw [update_self] at h
      exact h
  · exact (update_quiet hu).needs h

/-- A statement that changes `fWait_` or `fSignaled_`, or pulls. -/
theorem settles_covers (hsettles : x.settles = true)
    (hs : SendState.exec t s x = some (s', push)) (hchained : Chained (x :: rest))
    (hneed : Needs s' t n) :
    covers n (s'.threads t).fWait_ (push ++ rest) ∨
      (Needs s t n ∧ ((s.threads t).fSignaled_ = true → (s'.threads t).fSignaled_ = true) ∧
        (covers n (s.threads t).fWait_ (x :: rest) →
          covers n (s'.threads t).fWait_ (push ++ rest))) := by
  cases SendState.exec_executes hs with
  | pull first_pass cmsDelayNext cmsWait msStart msCurrent =>
    obtain ⟨hp, hpush⟩ := pull_spec s t first_pass cmsDelayNext cmsWait msStart msCurrent
    generalize s.pull t first_pass cmsDelayNext cmsWait msStart msCurrent = r at hneed hp hpush ⊢
    obtain ⟨rfl : rest = [], -⟩ := hchained
    have hsignaled : (s.threads t).fSignaled_ = true → (r.1.threads t).fSignaled_ = true :=
      fun h => hp.fSignaled_.trans h
    cases n with
    | delayed =>
      have hun : (r.1.threads t).unexamined = true := hneed
      rw [hp.unexamined, Bool.and_eq_true, Bool.not_eq_true'] at hun
      obtain ⟨rfl, hun⟩ := hun
      exact Or.inr ⟨hun, hsignaled, fun h => absurd h (not_covers rfl)⟩
    | sends =>
      have hlist : (r.1.threads t).sendlist_ ≠ [] := hneed
      rw [hp.sendlist_] at hlist
      exact Or.inr ⟨hlist, hsignaled, fun h => absurd h (not_covers rfl)⟩
    | message =>
      rcases hpush with ⟨cms, -, hempty⟩ | ⟨cms, hpush⟩ | hpush
      · exact absurd hempty hneed
      · rw [hpush]
        exact Or.inl (covers_looks rfl)
      · rw [hpush]
        exact Or.inl trivial
    | _ =>
      rcases hpush with ⟨cms, hpush, -⟩ | ⟨cms, hpush⟩ | hpush
      · rw [hpush]
        exact Or.inl (covers_looks rfl)
      · rw [hpush]
        exact Or.inl (covers_looks rfl)
      · rw [hpush]
        exact Or.inl trivial
  | wait k =>
    refine Or.inr ⟨?_, fun h => ?_, fun h => ?_⟩
    · exact needs_fWait_ hneed
    · rw [update_self]
      exact h
    · rw [update_self]
      exact (covers_congr rfl).1 h
  | waiting k hwait =>
    refine Or.inr ⟨hneed, id, fun h => ?_⟩
    rw [hwait] at h ⊢
    exact (covers_congr rfl).1 h
  | waited k => exact Or.inl (hchained.1.waited n _)
  | signaled sockets k => exact Or.inl ((covers_goesOn rfl).2 (covers_looks rfl))
  | socket socket sockets k =>
    exact Or.inr ⟨hneed, id, fun h => (covers_goesOn rfl).2 ((covers_congr rfl).1 h)⟩
  | passed k => exact Or.inr ⟨hneed, id, fun h => (covers_congr rfl).1 h⟩
  | onEvent =>
    refine Or.inr ⟨needs_fWait_ hneed, fun h => ?_, fun h => ?_⟩
    · rw [update_self]
      exact h
    · rw [update_self]
      exact (covers_goesOn rfl).1 h
  | _ => cases hsettles

end Own

/-! ## 5. The runs -/

/-- When there is something on the send list, `has_sends_` says so. -/
def Flagged (s : SendState) : Prop :=
  ∀ o, (s.threads o).sendlist_ ≠ [] → (s.threads o).has_sends_ = true

/-- A thread is about to wake up the thread `o`; for posted messages and replies this is `o`
itself. -/
def Waking (c : SendConf) (o : ThreadId) (n : Need) : Prop :=
  ∃ u, (n = .stop ∨ n = .sends ∨ u = o) ∧ (c.control u).head? = some (.wakeUp o)

/-- The thread `o` will look. -/
def Awake (c : SendConf) (o : ThreadId) (n : Need) : Prop :=
  (c.state.threads o).fSignaled_ = true ∨ Waking c o n ∨
    covers n (c.state.threads o).fWait_ (c.control o)

/-- The invariant. -/
structure Attentive (c : SendConf) : Prop where
  chained : ∀ o, Chained (c.control o)
  flagged : Flagged c.state
  awake : ∀ o n, Needs c.state o n → Awake c o n

section Runs

variable {c c' : SendConf} {s s' : SendState} {t u o : ThreadId} {n : Need} {x : SendStmt}
  {rest push l' : List SendStmt}

theorem update_flagged {f : ThreadState → ThreadState} (h : Flagged s)
    (hf : ((f (s.threads u)).sendlist_ ≠ [] → (f (s.threads u)).has_sends_ = true)) :
    Flagged (s.update u f) := by
  intro o
  by_cases ho : o = u
  · rw [ho, update_self]
    exact hf
  · rw [update_ne s f ho]
    exact h o

theorem wakeUp_flagged (h : Flagged s) (u : ThreadId) : Flagged (s.wakeUp u) :=
  update_flagged h (h u)

theorem reply_flagged (h : Flagged s) (smsg : SendMessage) : Flagged (s.reply smsg) := by
  unfold SendState.reply
  refine wakeUp_flagged ?_ smsg.thread
  exact h

theorem receiveNext_flagged (h : Flagged s) (t : ThreadId) : Flagged (s.receiveNext t).1 := by
  unfold SendState.receiveNext
  cases hlist : (s.threads t).sendlist_ with
  | nil =>
    dsimp only
    refine update_flagged h ?_
    exact fun hne => absurd hlist hne
  | cons smsg rest =>
    have hflag : (s.threads t).has_sends_ = true := h t (by rw [hlist]; exact List.cons_ne_nil _ _)
    have hrest : Flagged (s.update t fun th => { th with sendlist_ := rest }) :=
      update_flagged h fun _ => hflag
    exact fun o => hrest o

theorem clear_flagged (h : Flagged s) (target : ThreadId) (phandler : Handler) (id : UInt32) :
    Flagged (s.clear target phandler id) := by
  have hfold : ∀ (l : List SendMessage) (s₁ : SendState), Flagged s₁ →
      Flagged (l.foldl SendState.clearSend s₁) := by
    intro l
    induction l with
    | nil => exact fun _ h => h
    | cons smsg l ih => exact fun s₁ h => ih _ (reply_flagged (fun o => h o) smsg)
  unfold SendState.clear
  dsimp only
  refine update_flagged (hfold _ s h) fun hne => hfold _ s h target fun hnil => hne ?_
  dsimp only
  rw [hnil]
  rfl

theorem exec_flagged (h : Flagged s) (hs : SendState.exec t s x = some (s', push)) :
    Flagged s' := by
  cases SendState.exec_executes hs with
  | post target | doDelayPost target => exact wakeUp_flagged (update_flagged h (h target)) target
  | clear target phandler id => exact clear_flagged h target phandler id
  | pushSend target smsg =>
    have hpush : Flagged (s.update target fun th => { th with
        sendlist_ := th.sendlist_ ++ [smsg]
        has_sends_ := true }) := update_flagged h fun _ => rfl
    exact fun o => hpush o
  | wakeUp target => exact wakeUp_flagged h target
  | returned | woken => exact fun o => h o
  | receiveNext => exact receiveNext_flagged h t
  | received smsg => exact receiveNext_flagged (reply_flagged h smsg) t
  | pull first_pass cmsDelayNext cmsWait msStart msCurrent =>
    have hp := (pull_spec s t first_pass cmsDelayNext cmsWait msStart msCurrent).1
    intro o
    by_cases ho : o = t
    · rw [ho, hp.sendlist_, hp.has_sends_]
      exact h t
    · rw [hp.others o ho]
      exact h o
  | wait | waited | signaled | onEvent => exact update_flagged h (h t)
  | _ => exact h

/-- A thread that does not wake up `o` now leaves those that will. -/
theorem Waking.put (h : Waking c o n) (ht : (c.control t).head? ≠ some (.wakeUp o)) :
    Waking (c.put t s' l') o n := by
  obtain ⟨u, hu, hhead⟩ := h
  have hne : u ≠ t := fun hut => ht (hut ▸ hhead)
  exact ⟨u, hu, by rw [Threads.put_ne c hne]; exact hhead⟩

/-- What is asked of another thread. -/
theorem Quiet.awake (hq : Quiet c.state s' o n) (ho : o ≠ t) (h : Awake c o n)
    (ht : (c.control t).head? ≠ some (.wakeUp o)) : Awake (c.put t s' l') o n := by
  rcases h with h | h | h
  · exact Or.inl (hq.fSignaled_ h)
  · exact Or.inr (Or.inl (h.put ht))
  · refine Or.inr (Or.inr ?_)
    rw [Threads.put_ne c ho, Threads.put_state, hq.fWait_]
    exact h

/-- What is asked of the thread itself. -/
theorem Awake.own (h : Awake c t n) (ht : (c.control t).head? ≠ some (.wakeUp t))
    (hsignaled : (c.state.threads t).fSignaled_ = true → (s'.threads t).fSignaled_ = true)
    (hcovers : covers n (c.state.threads t).fWait_ (c.control t) →
      l'.head? = some (.wakeUp t) ∨ covers n (s'.threads t).fWait_ l') :
    Awake (c.put t s' l') t n := by
  rcases h with h | h | h
  · exact Or.inl (hsignaled h)
  · exact Or.inr (Or.inl (h.put ht))
  · rcases hcovers h with h | h
    · exact Or.inr (Or.inl ⟨t, Or.inr (Or.inr rfl), by rw [Threads.put_self]; exact h⟩)
    · exact Or.inr (Or.inr (by rw [Threads.put_self]; exact h))

/-- `WakeUp` signals. -/
theorem exec_wakeUp (hs : SendState.exec t s (.wakeUp o) = some (s', push)) :
    (s'.threads o).fSignaled_ = true := by
  obtain ⟨rfl, rfl⟩ := Prod.mk.inj (Option.some.inj hs)
  unfold SendState.wakeUp
  rw [update_self]

theorem exec_awake (h : Attentive c) (hf : Following c) (hc : c.control t = x :: rest)
    (hs : SendState.exec t c.state x = some (s', push)) (o : ThreadId) (n : Need)
    (hneed : Needs s' o n) : Awake (c.put t s' (push ++ rest)) o n := by
  have hx : Placed c.state t x := hf.placed t x (by rw [hc]; exact List.mem_cons_self)
  have hchained : Chained (x :: rest) := hc ▸ h.chained t
  by_cases hwake : x = .wakeUp o
  · subst hwake
    exact Or.inl (exec_wakeUp hs)
  have hhead : (c.control t).head? ≠ some (.wakeUp o) := by
    rw [hc]
    exact fun he => hwake (Option.some.inj he)
  by_cases hsettles : o = t ∧ x.settles = true
  · obtain ⟨rfl, hsettles⟩ := hsettles
    rcases settles_covers hsettles hs hchained hneed with hcov | ⟨hold, hsignaled, hcov⟩
    · exact Or.inr (Or.inr (by rw [Threads.put_self]; exact hcov))
    · refine (h.awake o n hold).own hhead hsignaled fun hc' => Or.inr (hcov ?_)
      rw [hc] at hc'
      exact hc'
  rcases exec_calls hs hx hf.listed o n with hcalls | hown | ⟨⟨smsg, rfl⟩, rfl⟩
  · rcases hcalls with hsig | hq
    · exact Or.inl hsig
    have hold := h.awake o n (hq.needs hneed)
    by_cases ho : o = t
    · subst ho
      have hplain : x.settles = false := Bool.eq_false_iff.2 fun hx => hsettles ⟨rfl, hx⟩
      refine hold.own hhead hq.fSignaled_ fun hcov => ?_
      rw [hc] at hcov
      rw [hq.fWait_]
      exact plain_covers hplain hs hchained (h.flagged o) hneed hcov
    · exact hq.awake ho hold hhead
  · exact absurd hown hsettles
  · -- `Send` will wake it up
    obtain ⟨-, rfl⟩ := Prod.mk.inj (Option.some.inj hs)
    exact Or.inr (Or.inl ⟨t, Or.inr (Or.inl rfl), by rw [Threads.put_self]; exact hchained.1⟩)

theorem exec_attentive (h : Attentive c) (hf : Following c) (hc : c.control t = x :: rest)
    (hs : SendState.exec t c.state x = some (s', push)) :
    Attentive (c.put t s' (push ++ rest)) where
  chained o := by
    by_cases ho : o = t
    · rw [ho, Threads.put_self]
      exact exec_chained (hc ▸ h.chained t) hs
    · rw [Threads.put_ne c ho]
      exact h.chained o
  flagged := exec_flagged h.flagged hs
  awake := exec_awake h hf hc hs

theorem resume_quiet (t : ThreadId) (s : SendState) (x : SendStmt) (v : SendAns) (o : ThreadId)
    (n : Need) : Quiet s (SendState.resume t s x v).1 o n := by
  have hsame : Quiet s s o n := Quiet.refl s o n
  have hresult : ∀ b, Quiet s (s.update t fun th => { th with waitResult := b }) o n := by
    intro b
    refine eases_quiet ?_
    exact ⟨id, id, id, id, rfl, id⟩
  cases x with
  | onMessage smsg => exact ⟨fun hneed => by cases n <;> exact hneed, rfl, id⟩
  | select k =>
    cases v with
    | timeout => exact hresult true
    | error eintr =>
      cases eintr with
      | false => exact hresult false
      | true => exact hsame
    | _ => exact hsame
  | _ => exact hsame

theorem resume_flagged (h : Flagged s) (x : SendStmt) (v : SendAns) :
    Flagged (SendState.resume t s x v).1 := by
  cases x with
  | select k =>
    have hresult : ∀ b, Flagged (s.update t fun th => { th with waitResult := b }) := by
      intro b
      refine update_flagged h ?_
      exact h t
    cases v with
    | timeout => exact hresult true
    | error eintr =>
      cases eintr with
      | false => exact hresult false
      | true => exact h
    | _ => exact h
  | onMessage smsg => exact fun o => h o
  | _ => exact h

/-- A `select` that has returned leads to the loop of `Wait`. -/
theorem covers_select {k : Waiter} {w : Bool} (h : covers n w (.select k :: rest)) (y : SendStmt)
    (hy : n.glance w y = if w then n.waits k else .looks) : covers n w (y :: rest) := by
  cases w with
  | true =>
    have hglance : n.glance true (.select k) = n.glance true y := hy.symm
    exact (covers_congr hglance).1 h
  | false => exact covers_looks hy

theorem resume_covers {v : SendAns} {w : Bool} (hchained : Chained (x :: rest))
    (hf : SendState.foreign x = true) (h : covers n w (x :: rest)) :
    covers n w ((SendState.resume t s x v).2 ++ rest) := by
  cases x with
  | onMessage smsg => exact (covers_congr rfl).1 h
  | handler | socketEvent => exact (covers_goesOn rfl).1 h
  | select k =>
    have hrest : covers n w rest := by
      have hk : After rest (.waitLoop k) := by cases k <;> exact hchained.1
      exact hk.waited n w
    cases v with
    | timeout => exact hrest
    | error eintr =>
      cases eintr with
      | false => exact hrest
      | true => exact covers_select h _ rfl
    | done => exact h
    | ready sockets =>
      show covers n w (.pass (s.threads t).fSignaled_ sockets k :: rest)
      cases (s.threads t).fSignaled_ with
      | true => exact covers_looks rfl
      | false => exact covers_select h _ rfl
  | _ => cases hf

theorem foreign_head (hc : c.control t = x :: rest) (hf : SendState.foreign x = true)
    (o : ThreadId) : (c.control t).head? ≠ some (.wakeUp o) := by
  rw [hc]
  intro he
  rw [Option.some.inj he] at hf
  cases hf

theorem resume_attentive {v : SendAns} (h : Attentive c) (hc : c.control t = x :: rest)
    (hf : SendState.foreign x = true) :
    Attentive (c.put t (SendState.resume t c.state x v).1
      ((SendState.resume t c.state x v).2 ++ rest)) where
  chained o := by
    by_cases ho : o = t
    · rw [ho, Threads.put_self]
      exact resume_chained (hc ▸ h.chained t) hf
    · rw [Threads.put_ne c ho]
      exact h.chained o
  flagged := resume_flagged h.flagged x v
  awake o n hneed := by
    have hq := resume_quiet t c.state x v o n
    have hold := h.awake o n (hq.needs hneed)
    by_cases ho : o = t
    · subst ho
      refine hold.own (foreign_head hc hf o) hq.fSignaled_ fun hcov => Or.inr ?_
      rw [hq.fWait_]
      exact resume_covers (hc ▸ h.chained o) hf (hc ▸ hcov)
    · exact hq.awake ho hold (foreign_head hc hf o)

theorem enter_quiet (hf : Following c) (m : SendCall) (o : ThreadId) (n : Need) :
    Quiet c.state (SendState.enter t c.state m).1 o n ∨ m = .quit o ∧ n = .stop := by
  have hsame : Quiet c.state c.state o n := Quiet.refl _ o n
  cases m with
  | send target phandler id pdata =>
    refine Or.inl ?_
    unfold SendState.enter
    dsimp only
    split_ifs
    · exact hsame
    · exact hsame
    · refine ⟨fun hneed => ?_, rfl, fun hsig => hsig⟩
      cases n with
      | reply k =>
        -- the flag of a new `Send` is not set
        have hk : k < c.state.sends := hf.unready k hneed.1
        exact ⟨hneed.1, (Function.update_of_ne (Nat.ne_of_lt hk) t _).symm.trans hneed.2⟩
      | _ => exact hneed
  | quit target =>
    by_cases hq : o = target ∧ n = .stop
    · obtain ⟨rfl, rfl⟩ := hq
      exact Or.inr ⟨rfl, rfl⟩
    · refine Or.inl ?_
      by_cases ho : o = target
      · have hn : n ≠ .stop := fun h => hq ⟨ho, h⟩
        subst ho
        refine ⟨fun hneed => ?_, ?_, fun hsig => ?_⟩
        · cases n with
          | stop => exact absurd rfl hn
          | reply k => exact hneed
          | _ =>
            unfold SendState.enter Needs at hneed
            unfold Needs
            rw [update_self] at hneed
            exact hneed
        · unfold SendState.enter
          rw [update_self]
        · unfold SendState.enter
          rw [update_self]
          exact hsig
      · unfold SendState.enter
        dsimp only
        exact update_quiet ho
  | clock now => exact Or.inl ⟨fun hneed => by cases n <;> exact hneed, rfl, id⟩
  | _ => exact Or.inl hsame

theorem enter_flagged (h : Flagged s) (m : SendCall) : Flagged (SendState.enter t s m).1 := by
  cases m with
  | send target phandler id pdata =>
    unfold SendState.enter
    dsimp only
    split_ifs
    · exact h
    · exact h
    · exact fun o => h o
  | quit target =>
    unfold SendState.enter
    dsimp only
    refine update_flagged h ?_
    exact h target
  | clock now => exact fun o => h o
  | _ => exact h

theorem enter_covers {l : List SendStmt} {w : Bool} (m : SendCall) (h : covers n w l) :
    covers n w ((SendState.enter t s m).2 ++ l) := by
  have hone : ∀ {y}, n.glance w y = .goesOn w → covers n w (y :: l) := fun hy =>
    (covers_goesOn hy).2 h
  cases m with
  | post | postDelayed =>
    show covers n w ((if _ then _ else _) ++ l)
    split
    · exact h
    · exact hone rfl
  | send target phandler id pdata =>
    unfold SendState.enter
    dsimp only
    split_ifs
    · exact h
    · exact hone rfl
    · exact (covers_goesOn rfl).2 ((covers_goesOn rfl).2 (hone rfl))
  | clear | quit => exact hone rfl
  | get cmsWait => exact covers_looks rfl
  | clock now => exact h

theorem enter_attentive {m : SendCall} (h : Attentive c) (hf : Following c)
    (hhead : ∀ y ∈ (c.control t).head?, SendState.foreign y = true)
    (hget : ∀ cmsWait, m = .get cmsWait → c.control t = []) :
    Attentive (c.put t (SendState.enter t c.state m).1
      ((SendState.enter t c.state m).2 ++ c.control t)) where
  chained o := by
    by_cases ho : o = t
    · rw [ho, Threads.put_self]
      exact enter_chained (h.chained t) hget
    · rw [Threads.put_ne c ho]
      exact h.chained o
  flagged := enter_flagged h.flagged m
  awake o n hneed := by
    have hwake : (c.control t).head? ≠ some (.wakeUp o) := fun he => by
      cases hhead _ he
    rcases enter_quiet hf m o n with hq | ⟨rfl, rfl⟩
    · have hold := h.awake o n (hq.needs hneed)
      by_cases ho : o = t
      · subst ho
        refine hold.own hwake hq.fSignaled_ fun hcov => Or.inr ?_
        rw [hq.fWait_]
        exact enter_covers m hcov
      · exact hq.awake ho hold hwake
    · -- `Quit` will wake it up
      exact Or.inr (Or.inl ⟨t, Or.inl rfl, by rw [Threads.put_self]; rfl⟩)

end Runs

/-- `Get` is called by a thread that does nothing else, not by a handler. -/
def WakeUpRules (c : SendConf) (t : ThreadId) (a : Act SendCall SendAns) : Prop :=
  SendRules c t a ∧ match a with
    | .call (.get _) => c.control t = []
    | _ => True

theorem step_attentive {c c' : SendConf} {t : ThreadId} {a : Act SendCall SendAns}
    (h : Attentive c) (hf : Following c) (hK : WakeUpRules c t a)
    (hs : Interleaving.step sendThreads c t a = some c') : Attentive c' := by
  rcases Interleaving.step_cases hs with ⟨x, rest, r, -, hc, -, hr, rfl⟩ | ⟨m, rfl, hhead, rfl⟩ |
    ⟨v, x, rest, -, hc, hforeign, rfl⟩
  · exact exec_attentive h hf hc hr
  · refine enter_attentive h hf hhead fun cmsWait hm => ?_
    subst hm
    exact hK.2
  · exact resume_attentive h hc hforeign

theorem init_attentive : Attentive SendConf.init where
  chained _ := trivial
  flagged _ h := absurd rfl h
  awake o n h := by
    cases n with
    | message | sends => exact absurd rfl h
    | reply k => cases h.1
    | _ => cases h

theorem attentive_run {c : SendConf} (h : Reaches sendThreads WakeUpRules SendConf.init c) :
    Attentive c :=
  Reaches.invariant h init_attentive fun _ _ _ _ hreach hI hK hs =>
    step_attentive hI (following_run (hreach.mono fun _ _ _ hK => hK.1)) hK hs

/-! ## 6. No lost wake-up -/

/-- A thread waits in `select`, and its pipe is empty. -/
def Blocked (c : SendConf) (o : ThreadId) (k : Waiter) : Prop :=
  (c.control o).head? = some (.select k) ∧ (c.state.threads o).fSignaled_ = false

/-- A thread is about to wake it up. -/
def AboutToWake (c : SendConf) (o : ThreadId) : Prop :=
  ∃ u, (c.control u).head? = some (.wakeUp o)

/-- What a thread has left when it is blocked. -/
structure NothingLost (c : SendConf) (o : ThreadId) : Prop where
  get : ∀ cmsNext, Blocked c o (.get cmsNext) → (c.state.threads o).msgq_ = [] ∧
    (c.state.threads o).unexamined = false ∧
    ((c.state.threads o).sendlist_ ≠ [] ∨ (c.state.threads o).fStop_ = true → AboutToWake c o)
  send : ∀ n, Blocked c o (.send n) → c.state.ready n = false ∧
    ((c.state.threads o).sendlist_ ≠ [] → AboutToWake c o)

/-- A need that a blocked thread has leaves only a thread that is about to wake it up. -/
theorem Awake.waking {c : SendConf} {o : ThreadId} {n : Need} {k : Waiter} (h : Awake c o n)
    (hblocked : Blocked c o k) (hk : n.waits k = .blocks) :
    Waking c o n := by
  rcases h with h | h | h
  · rw [hblocked.2] at h
    cases h
  · exact h
  · obtain ⟨rest, hc⟩ := List.head?_eq_some_iff.1 hblocked.1
    rw [hc] at h
    exact absurd h (not_covers hk)

/-- A thread that waits in `select` does not wake up itself. -/
theorem Waking.about {c : SendConf} {o : ThreadId} {n : Need} {k : Waiter} (h : Waking c o n)
    (hblocked : Blocked c o k) : (n = .stop ∨ n = .sends) ∧ AboutToWake c o := by
  obtain ⟨u, hu, hhead⟩ := h
  rcases hu with hn | hn | rfl
  · exact ⟨Or.inl hn, u, hhead⟩
  · exact ⟨Or.inr hn, u, hhead⟩
  · rw [hblocked.1] at hhead
    cases hhead

/-- In every run, a thread that is blocked with an empty pipe in the `select` of `Get` has no
message that is ready, and no delayed message that it has not looked at; and one that is blocked so
in the `select` of a `Send` has no reply. When there is something on its send list, or it shall
stop, another thread is about to wake it up. -/
theorem no_lost_wake_up {c : SendConf} (h : Reaches sendThreads WakeUpRules SendConf.init c)
    (o : ThreadId) : NothingLost c o := by
  have hinv := attentive_run h
  have hf := following_run (h.mono fun _ _ _ hK => hK.1)
  have hwake : ∀ {k} (n : Need), Blocked c o k → n.waits k = .blocks → Needs c.state o n →
      (n = .stop ∨ n = .sends) ∧ AboutToWake c o := fun n hb hk hn =>
    ((hinv.awake o n hn).waking hb hk).about hb
  refine ⟨fun cmsNext hb => ⟨?_, ?_, ?_⟩, fun n hb => ⟨?_, ?_⟩⟩
  · by_contra hne
    rcases (hwake .message hb rfl hne).1 with he | he <;> cases he
  · by_contra hne
    rcases (hwake .delayed hb rfl (Bool.eq_true_of_not_eq_false hne)).1 with he | he <;> cases he
  · rintro (hlist | hstop)
    · exact (hwake .sends hb rfl hlist).2
    · exact (hwake .stop hb rfl hstop).2
  · by_contra hne
    -- the thread is the sender
    obtain ⟨rest, hc⟩ := List.head?_eq_some_iff.1 hb.1
    have hchained : Chained (.select (.send n) :: rest) := hc ▸ hinv.chained o
    obtain ⟨below, rfl⟩ := List.head?_eq_some_iff.1 hchained.1
    have hloop : Placed c.state o (.sendLoop n true) :=
      hf.placed o _ (by rw [hc]; exact List.mem_cons_of_mem _ List.mem_cons_self)
    have hneed : Needs c.state o (.reply n) := ⟨Bool.eq_true_of_not_eq_false hne, hloop.2⟩
    rcases (hwake (.reply n) hb (if_pos rfl) hneed).1 with he | he <;> cases he
  · exact fun hlist => (hwake .sends hb rfl hlist).2

instance (c : SendConf) (t : ThreadId) (a : Act SendCall SendAns) :
    Decidable (WakeUpRules c t a) :=
  @instDecidableAnd _ _ _ (match a with
    | .call (.get _) => inferInstanceAs (Decidable (c.control t = []))
    | .call (.post ..) | .call (.postDelayed ..) | .call (.send ..) | .call (.clear ..)
    | .call (.quit ..) | .call (.clock ..) | .tick | .ret _ => .isTrue trivial)

/-- Thread 1 is blocked in the `select` of `Get`, then thread 2 posts to it and sends to it: after
the post it is not blocked, and it is not when the message is on its send list. -/
theorem no_lost_wake_up_post : ∃ c, Reaches sendThreads WakeUpRules SendConf.init c ∧
    (c.control 1).head? = some (.select (.get kForever)) ∧ (c.state.threads 1).msgq_ ≠ [] ∧
    (c.state.threads 1).sendlist_ ≠ [] ∧ ¬Blocked c 1 (.get kForever) := by
  obtain ⟨c, hc, hp⟩ := exists_of_follow (P := sendThreads) (K := WakeUpRules)
    (c := SendConf.init)
    (l := [(1, .call (.get kForever)), (1, .tick), (1, .tick), (1, .tick), (1, .tick), (1, .tick),
      (1, .tick), (2, .call (.post 1 none 5 none false)), (2, .tick),
      (2, .call (.send 1 none 6 none)), (2, .tick)])
    (p := fun c => decide ((c.control 1).head? = some (.select (.get kForever))) &&
      (!(c.state.threads 1).msgq_.isEmpty && !(c.state.threads 1).sendlist_.isEmpty))
    (by decide +kernel)
  obtain ⟨hselect, hp⟩ := Bool.and_eq_true_iff.1 hp
  obtain ⟨hmsgq, hlist⟩ := Bool.and_eq_true_iff.1 hp
  have hnil : ∀ {α : Type} (l : List α), (!l.isEmpty) = true → l ≠ [] := by
    rintro α l hl rfl
    cases hl
  refine ⟨c, hc, of_decide_eq_true hselect, hnil _ hmsgq, hnil _ hlist, fun hb => ?_⟩
  exact hnil _ hmsgq ((no_lost_wake_up hc 1).get kForever hb).1

/-- Between the critical section of `Send` and its `WakeUp`, the other thread is blocked although
its send list is not empty. -/
theorem send_before_wake_up : ∃ c, Reaches sendThreads WakeUpRules SendConf.init c ∧
    Blocked c 1 (.get kForever) ∧ (c.state.threads 1).sendlist_ ≠ [] := by
  obtain ⟨c, hc, hp⟩ := exists_of_follow (P := sendThreads) (K := WakeUpRules)
    (c := SendConf.init)
    (l := [(1, .call (.get kForever)), (1, .tick), (1, .tick), (1, .tick), (1, .tick), (1, .tick),
      (1, .tick), (2, .call (.send 1 none 6 none)), (2, .tick)])
    (p := fun c => decide ((c.control 1).head? = some (.select (.get kForever))) &&
      (!(c.state.threads 1).fSignaled_ && !(c.state.threads 1).sendlist_.isEmpty))
    (by decide +kernel)
  obtain ⟨hselect, hp⟩ := Bool.and_eq_true_iff.1 hp
  obtain ⟨hsignaled, hlist⟩ := Bool.and_eq_true_iff.1 hp
  refine ⟨c, hc, ⟨of_decide_eq_true hselect, Bool.eq_false_of_not_eq_true' hsignaled⟩, fun hnil => ?_⟩
  rw [hnil] at hlist
  cases hlist

end Gxmpp.TalkBase
