/-
A `Send` to another thread is a rendezvous.

What happens to one message is followed by its tokens: it is about to be put on the send list,
on the list, with its handler, or about to be replied to, and its `Send` waits. In every run a
message has one of them at a time, and its history is a beginning of `served` or of `dismissed`.
-/
import Gxmpp.ThreadSend

set_option autoImplicit false

namespace Gxmpp.TalkBase

open Reentrant Interleaving

/-! ## 1. The history of a message -/

/-- The `Send` that an event is about. -/
def SendEvent.send : SendEvent → SendId
  | .queued n | .dispatched n | .completed n | .cleared n | .readied n | .returned n => n

/-- What has happened to a message. -/
def SendState.history (s : SendState) (n : SendId) : List SendEvent :=
  s.log.filter fun e => e.send = n

/-- The message is handled by the other thread. -/
def served (n : SendId) : List SendEvent :=
  [.queued n, .dispatched n, .completed n, .readied n, .returned n]

/-- The message is cleared. -/
def dismissed (n : SendId) : List SendEvent :=
  [.queued n, .cleared n, .readied n, .returned n]

/-- Where a message is, and where its `Send` is. -/
inductive Place where
  /-- about to be put on the send list -/
  | pushing
  | listed
  /-- its handler runs -/
  | handling
  /-- its handler has returned -/
  | replying
  /-- its `Send` waits -/
  | waiting
deriving DecidableEq

/-- The stages of a `Send`. -/
inductive Stage where
  | called
  | queued
  | dispatched
  | completed
  | replied
  | cleared
  | served
  | dismissed

/-- The steps from one stage to the next. -/
inductive Transfer where
  | push
  | dispatch
  | complete
  | reply
  | dismiss
  | leave

namespace Stage

/-- The number of tokens in a place. -/
def holds : Stage → Place → Nat
  | called, .pushing | queued, .listed | dispatched, .handling | completed, .replying => 1
  | served, .waiting | dismissed, .waiting => 0
  | _, .waiting => 1
  | _, _ => 0

/-- The `ready` flag. -/
def ready : Stage → Bool
  | replied | cleared | served | dismissed => true
  | _ => false

/-- What has happened so far. -/
def history (n : SendId) : Stage → List SendEvent
  | called => []
  | queued => [.queued n]
  | dispatched => [.queued n, .dispatched n]
  | completed => [.queued n, .dispatched n, .completed n]
  | replied => [.queued n, .dispatched n, .completed n, .readied n]
  | cleared => [.queued n, .cleared n, .readied n]
  | served => TalkBase.served n
  | dismissed => TalkBase.dismissed n

def next : Stage → Transfer → Option Stage
  | called, .push => some queued
  | queued, .dispatch => some dispatched
  | dispatched, .complete => some completed
  | completed, .reply => some replied
  | queued, .dismiss => some cleared
  | replied, .leave => some served
  | cleared, .leave => some dismissed
  | _, _ => none

theorem history_prefix (st : Stage) (n : SendId) :
    st.history n <+: TalkBase.served n ∨ st.history n <+: TalkBase.dismissed n := by
  cases st with
  | called => exact Or.inl List.nil_prefix
  | cleared => exact Or.inr ⟨_, rfl⟩
  | dismissed => exact Or.inr (List.prefix_refl _)
  | served => exact Or.inl (List.prefix_refl _)
  | _ => exact Or.inl ⟨_, rfl⟩

end Stage

namespace Transfer

def takes : Transfer → Place
  | push => .pushing
  | dispatch | dismiss => .listed
  | complete => .handling
  | reply => .replying
  | leave => .waiting

def gives : Transfer → Option Place
  | push => some .listed
  | dispatch => some .handling
  | complete => some .replying
  | reply | dismiss | leave => none

/-- It sets the flag. -/
def sets : Transfer → Bool
  | reply | dismiss => true
  | _ => false

def events (n : SendId) : Transfer → List SendEvent
  | push => [.queued n]
  | dispatch => [.dispatched n]
  | complete => [.completed n]
  | reply => [.readied n]
  | dismiss => [.cleared n, .readied n]
  | leave => [.returned n]

variable {m : Transfer} {st st' : Stage}

/-- A token that is there can be taken; a `Send` can leave when the flag is set. -/
theorem exists_next (h : 0 < st.holds m.takes) (hready : m = leave → st.ready = true) :
    ∃ st', st.next m = some st' := by
  cases m with
  | leave =>
    have hr := hready rfl
    cases st with
    | replied | cleared => exact ⟨_, rfl⟩
    | served | dismissed => exact absurd h (Nat.lt_irrefl 0)
    | _ => cases hr
  | _ => cases st <;> first | exact ⟨_, rfl⟩ | exact absurd h (Nat.lt_irrefl 0)

/-- What the next stage holds. -/
theorem next_spec (h : st.next m = some st') :
    (∀ p, st'.holds p + (if m.takes = p then 1 else 0) =
      st.holds p + if m.gives = some p then 1 else 0) ∧
    st'.ready = (st.ready || m.sets) ∧ ∀ n, st'.history n = st.history n ++ m.events n := by
  cases m <;> cases st <;> cases h
  all_goals
    refine ⟨fun p => ?_, rfl, fun n => rfl⟩
    cases p <;> rfl

end Transfer

/-! ## 2. Tokens -/

/-- The token that a statement holds. -/
def SendStmt.token? : SendStmt → Option (Place × SendId)
  | .pushSend _ smsg => some (.pushing, smsg.ready)
  | .onMessage smsg => some (.handling, smsg.ready)
  | .received smsg => some (.replying, smsg.ready)
  | .sendLoop n _ => some (.waiting, n)
  | _ => none

/-- The number of tokens of a message that a stack holds in a place. -/
def tally (l : List SendStmt) (p : Place) (n : SendId) : Nat :=
  (l.filterMap SendStmt.token?).count (p, n)

section Tally

variable {l m : List SendStmt} {p : Place} {n : SendId} {x : SendStmt}

theorem tally_append : tally (l ++ m) p n = tally l p n + tally m p n := by
  unfold tally
  rw [List.filterMap_append, List.count_append]

theorem tally_zero (h : ∀ x ∈ l, x.token? ≠ some (p, n)) : tally l p n = 0 :=
  List.count_eq_zero.2 fun hn => by
    obtain ⟨x, hx, hfx⟩ := List.mem_filterMap.1 hn
    exact h x hx hfx

@[simp] theorem tally_nil : tally [] p n = 0 := rfl

theorem tally_one {q : Place} {k : SendId} (h : x.token? = some (q, k)) :
    tally [x] p n = if q = p ∧ k = n then 1 else 0 := by
  unfold tally
  rw [List.filterMap_cons, h, List.filterMap_nil, List.count_cons, List.count_nil]
  simp

end Tally

/-- The thread whose statements hold the token. -/
def SendState.home (s : SendState) (n : SendId) : Place → ThreadId
  | .pushing | .waiting => s.sender n
  | .listed | .handling | .replying => s.target n

/-- The number of tokens in a place. -/
def tokens (c : SendConf) (n : SendId) : Place → Nat
  | .listed => ((c.state.threads (c.state.target n)).sendlist_.map SendMessage.ready).count n
  | p => tally (c.control (c.state.home n p)) p n

/-- The `Send` is at this stage. -/
structure AtStage (c : SendConf) (n : SendId) (st : Stage) : Prop where
  tokens : ∀ p, tokens c n p = st.holds p
  ready : c.state.ready n = st.ready
  history : c.state.history n = st.history n

/-- One message is transferred. -/
structure Transferred (c c' : SendConf) (n : SendId) (m : Transfer) : Prop where
  tokens : ∀ p, TalkBase.tokens c' n p + (if m.takes = p then 1 else 0) =
    TalkBase.tokens c n p + if m.gives = some p then 1 else 0
  ready : c'.state.ready n = (c.state.ready n || m.sets)
  history : c'.state.history n = c.state.history n ++ m.events n
  leave : m = .leave → c.state.ready n = true

/-- Nothing happens to the message. -/
structure Untouched (c c' : SendConf) (n : SendId) : Prop where
  tokens : ∀ p, TalkBase.tokens c' n p = TalkBase.tokens c n p
  ready : c'.state.ready n = c.state.ready n
  history : c'.state.history n = c.state.history n

theorem AtStage.transferred {c c' : SendConf} {n : SendId} {st : Stage} {m : Transfer}
    (h : AtStage c n st) (hm : Transferred c c' n m) : ∃ st', AtStage c' n st' := by
  have hpos : 0 < st.holds m.takes := by
    have htakes := hm.tokens m.takes
    rw [h.tokens, if_pos rfl] at htakes
    have hne : ¬m.gives = some m.takes := by cases m <;> decide
    rw [if_neg hne] at htakes
    omega
  obtain ⟨st', hst'⟩ := Transfer.exists_next hpos fun hleave => h.ready ▸ hm.leave hleave
  obtain ⟨hholds, hready, hhistory⟩ := Transfer.next_spec hst'
  refine ⟨st', fun p => ?_, ?_, ?_⟩
  · have hp := hm.tokens p
    rw [h.tokens p, ← hholds p] at hp
    exact Nat.add_right_cancel hp
  · rw [hm.ready, h.ready, hready]
  · rw [hm.history, h.history, hhistory]

theorem AtStage.untouched {c c' : SendConf} {n : SendId} {st : Stage} (h : AtStage c n st)
    (hm : Untouched c c' n) : AtStage c' n st :=
  ⟨fun p => (hm.tokens p).trans (h.tokens p), hm.ready.trans h.ready,
    hm.history.trans h.history⟩

/-! ## 3. The invariant -/

/-- A message that is on its way to a thread. -/
structure Addressed (s : SendState) (smsg : SendMessage) (t : ThreadId) : Prop where
  known : smsg.ready < s.sends
  sender : s.sender smsg.ready = smsg.thread
  target : s.target smsg.ready = t

/-- The statement is on the stack of the right thread. -/
def Placed (s : SendState) (t : ThreadId) : SendStmt → Prop
  | .pushSend target smsg => Addressed s smsg target ∧ smsg.thread = t
  | .onMessage smsg | .received smsg => Addressed s smsg t
  | .sendLoop n _ => n < s.sends ∧ s.sender n = t
  | _ => True

/-- The invariant. -/
structure Following (c : SendConf) : Prop where
  placed : ∀ t, ∀ x ∈ c.control t, Placed c.state t x
  listed : ∀ t, ∀ smsg ∈ (c.state.threads t).sendlist_, Addressed c.state smsg t
  logged : ∀ e ∈ c.state.log, e.send < c.state.sends
  unready : ∀ n, c.state.ready n = true → n < c.state.sends
  stage : ∀ n < c.state.sends, ∃ st, AtStage c n st

section Step

variable {c : SendConf} {t : ThreadId} {s' : SendState} {old rest push : List SendStmt} {n : SendId}

/-- Who sends what to whom does not change. -/
structure SameSends (s s' : SendState) : Prop where
  sends : s'.sends = s.sends
  sender : s'.sender = s.sender
  target : s'.target = s.target

theorem SameSends.addressed {s s' : SendState} (h : SameSends s s') {smsg : SendMessage}
    {u : ThreadId} (ha : Addressed s smsg u) : Addressed s' smsg u where
  known := by rw [h.sends]; exact ha.known
  sender := by rw [h.sender]; exact ha.sender
  target := by rw [h.target]; exact ha.target

theorem SameSends.placed {s s' : SendState} (h : SameSends s s') {y : SendStmt} {u : ThreadId}
    (hy : Placed s u y) : Placed s' u y := by
  cases y with
  | pushSend target smsg => exact ⟨h.addressed hy.1, hy.2⟩
  | onMessage | received => exact h.addressed hy
  | sendLoop n waited => exact ⟨by rw [h.sends]; exact hy.1, by rw [h.sender]; exact hy.2⟩
  | _ => trivial

/-- A placed statement holds tokens of its own thread only. -/
theorem Placed.home {s : SendState} {y : SendStmt} {u : ThreadId} (hy : Placed s u y) {p : Place}
    (hn : y.token? = some (p, n)) : s.home n p = u := by
  cases y with
  | pushSend target smsg =>
    obtain ⟨rfl, rfl⟩ := Prod.mk.inj (Option.some.inj hn)
    exact hy.1.sender.trans hy.2
  | onMessage | received =>
    obtain ⟨rfl, rfl⟩ := Prod.mk.inj (Option.some.inj hn)
    exact hy.target
  | sendLoop k waited =>
    obtain ⟨rfl, rfl⟩ := Prod.mk.inj (Option.some.inj hn)
    exact hy.2
  | _ => cases hn

/-- The tokens of the statements that go and come. -/
theorem tally_step {l' : List SendStmt} {p : Place} (hsame : SameSends c.state s')
    (hl : ∀ y ∈ c.control t, Placed c.state t y) (hl' : ∀ y ∈ l', Placed c.state t y) :
    tally ((c.put t s' l').control (s'.home n p)) p n + tally (c.control t) p n =
      tally (c.control (c.state.home n p)) p n + tally l' p n := by
  have hhome : s'.home n p = c.state.home n p := by
    unfold SendState.home
    rw [hsame.sender, hsame.target]
  rw [hhome]
  by_cases hu : c.state.home n p = t
  · rw [hu, Threads.put_self, Nat.add_comm]
  · have hzero : ∀ l : List SendStmt, (∀ y ∈ l, Placed c.state t y) → tally l p n = 0 :=
      fun l hl => tally_zero fun y hy hyn => hu ((hl y hy).home hyn)
    rw [Threads.put_ne c hu, hzero _ hl, hzero _ hl']

section Stack

variable (hsame : SameSends c.state s') (hc : c.control t = old ++ rest)
  (hl : ∀ y ∈ old ++ rest, Placed c.state t y) (hpush : ∀ y ∈ push, Placed c.state t y)

include hsame hc hl hpush

theorem tokens_step {p : Place} (hp : p ≠ .listed) :
    tokens (c.put t s' (push ++ rest)) n p + tally old p n =
      tokens c n p + tally push p n := by
  have hl' : ∀ y ∈ push ++ rest, Placed c.state t y := fun y hy =>
    (List.mem_append.1 hy).elim (hpush y) fun hy => hl y (List.mem_append_right old hy)
  have hstep := tally_step (n := n) (p := p) hsame (by rw [hc]; exact hl) hl'
  rw [hc, tally_append, tally_append] at hstep
  have htokens : ∀ d : SendConf, tokens d n p =
      tally (d.control (d.state.home n p)) p n := fun d => by
    cases p with
    | listed => exact absurd rfl hp
    | _ => rfl
  rw [htokens, htokens]
  have hstate : (c.put t s' (push ++ rest)).state = s' := rfl
  rw [hstate]
  omega

/-- What a step does to a message, in the state and on its own stack, of which `old` goes. -/
structure Deals (s s' : SendState) (old push : List SendStmt) (n : SendId)
    (takes gives : Option Place) (sets : Bool) (events : List SendEvent) : Prop where
  stack : ∀ p, p ≠ .listed → tally push p n + (if takes = some p then 1 else 0) =
    tally old p n + if gives = some p then 1 else 0
  listed : ((s'.threads (s.target n)).sendlist_.map SendMessage.ready).count n +
      (if takes = some .listed then 1 else 0) =
    ((s.threads (s.target n)).sendlist_.map SendMessage.ready).count n +
      if gives = some .listed then 1 else 0
  ready : s'.ready n = (s.ready n || sets)
  history : s'.history n = s.history n ++ events

variable {takes gives : Option Place} {sets : Bool} {events : List SendEvent}

theorem Deals.tokens (h : Deals c.state s' old push n takes gives sets events)
    (p : Place) :
    tokens (c.put t s' (push ++ rest)) n p + (if takes = some p then 1 else 0) =
      tokens c n p + if gives = some p then 1 else 0 := by
  by_cases hp : p = .listed
  · subst hp
    show ((s'.threads (s'.target n)).sendlist_.map SendMessage.ready).count n + _ = _
    rw [hsame.target]
    exact h.listed
  · have hstack := h.stack p hp
    have hstep := tokens_step (n := n) hsame hc hl hpush hp
    omega

theorem Deals.untouched (h : Deals c.state s' old push n none none false []) :
    Untouched c (c.put t s' (push ++ rest)) n where
  tokens p := h.tokens hsame hc hl hpush p
  ready := h.ready.trans (Bool.or_false _)
  history := h.history.trans (List.append_nil _)

theorem Deals.transferred {m : Transfer}
    (h : Deals c.state s' old push n (some m.takes) m.gives m.sets (m.events n))
    (hleave : m = .leave → c.state.ready n = true) :
    Transferred c (c.put t s' (push ++ rest)) n m where
  tokens p := by
    have hp := h.tokens hsame hc hl hpush p
    simpa only [Option.some.injEq] using hp
  ready := h.ready
  history := h.history
  leave := hleave

end Stack

/-- What a step of the thread `t` does to the messages. -/
structure Delivers (s : SendState) (t : ThreadId) (old : List SendStmt) (s' : SendState)
    (push : List SendStmt) : Prop where
  same : SameSends s s'
  placed : ∀ y ∈ push, Placed s t y
  listed : ∀ u, ∀ smsg ∈ (s'.threads u).sendlist_, smsg ∈ (s.threads u).sendlist_ ∨
    Addressed s smsg u
  logged : ∀ e ∈ s'.log, e ∈ s.log ∨ e.send < s.sends
  unready : ∀ n, s'.ready n = true → s.ready n = true ∨ n < s.sends
  deals : ∀ n, Deals s s' old push n none none false [] ∨
    ∃ m : Transfer, Deals s s' old push n (some m.takes) m.gives m.sets (m.events n) ∧
      (m = .leave → s.ready n = true)

/-- The rule for a step. -/
theorem Delivers.following (h : Delivers c.state t old s' push) (hf : Following c)
    (hc : c.control t = old ++ rest) : Following (c.put t s' (push ++ rest)) := by
  have hl : ∀ y ∈ old ++ rest, Placed c.state t y := by
    rw [← hc]
    exact hf.placed t
  refine ⟨fun u y hy => ?_, fun u smsg hsmsg => ?_, fun e he => ?_, fun n hn => ?_,
    fun n hn => ?_⟩
  · refine h.same.placed ?_
    by_cases hu : u = t
    · rw [hu] at hy ⊢
      rw [Threads.put_self] at hy
      exact (List.mem_append.1 hy).elim (h.placed y) fun hy => hl y (List.mem_append_right old hy)
    · rw [Threads.put_ne c hu] at hy
      exact hf.placed u y hy
  · exact h.same.addressed ((h.listed u smsg hsmsg).elim (hf.listed u smsg) id)
  · rw [Threads.put_state, h.same.sends]
    exact (h.logged e he).elim (hf.logged e) id
  · rw [Threads.put_state, h.same.sends]
    exact (h.unready n hn).elim (hf.unready n) id
  · rw [Threads.put_state, h.same.sends] at hn
    obtain ⟨st, hst⟩ := hf.stage n hn
    rcases h.deals n with hd | ⟨m, hd, hleave⟩
    · exact ⟨st, hst.untouched (hd.untouched h.same hc hl h.placed)⟩
    · exact hst.transferred (hd.transferred h.same hc hl h.placed hleave)

end Step

/-! ## 4. The statements -/

section Statements

variable {s s' : SendState} {t u : ThreadId} {old push : List SendStmt} {n : SendId}

theorem update_self (s : SendState) (t : ThreadId) (f : ThreadState → ThreadState) :
    (s.update t f).threads t = f (s.threads t) := Function.update_self t _ _

theorem update_ne (s : SendState) {t u : ThreadId} (f : ThreadState → ThreadState) (h : u ≠ t) :
    (s.update t f).threads u = s.threads u := Function.update_of_ne h _ _

theorem update_same (s : SendState) (t : ThreadId) (f : ThreadState → ThreadState) :
    SameSends s (s.update t f) := ⟨rfl, rfl, rfl⟩

/-- A change of a thread that leaves its send list alone. -/
theorem update_sendlist (s : SendState) (t : ThreadId) {f : ThreadState → ThreadState}
    (hf : ∀ th, (f th).sendlist_ = th.sendlist_) (u : ThreadId) :
    ((s.update t f).threads u).sendlist_ = (s.threads u).sendlist_ := by
  by_cases hu : u = t
  · rw [hu, update_self, hf]
  · rw [update_ne s f hu]

/-- A step that moves no token. -/
theorem quiet_delivers (hsame : SameSends s s') (hlog : s'.log = s.log)
    (hready : s'.ready = s.ready)
    (hlist : ∀ u, (s'.threads u).sendlist_ = (s.threads u).sendlist_)
    (hplaced : ∀ y ∈ push, Placed s t y)
    (hstack : ∀ p n, tally push p n = tally old p n) :
    Delivers s t old s' push where
  same := hsame
  placed := hplaced
  listed u smsg h := Or.inl (by rw [← hlist u]; exact h)
  logged e h := Or.inl (by rw [← hlog]; exact h)
  unready n h := Or.inl (by rw [← hready]; exact h)
  deals n := by
    refine Or.inl ⟨fun p _ => by rw [hstack p n], by rw [hlist], ?_, ?_⟩
    · rw [hready, Bool.or_false]
    · unfold SendState.history
      rw [hlog, List.append_nil]

/-- Statements that hold no token. -/
theorem tally_none {l : List SendStmt} (h : ∀ y ∈ l, y.token? = none) (p : Place) (n : SendId) :
    tally l p n = 0 :=
  tally_zero fun y hy => by rw [h y hy]; exact nofun

/-- A step between statements that hold no token, which changes one thread. -/
theorem plain_delivers {f : ThreadState → ThreadState}
    (hf : ∀ th, (f th).sendlist_ = th.sendlist_) (hold : ∀ y ∈ old, y.token? = none)
    (hpush : ∀ y ∈ push, y.token? = none) (hplaced : ∀ y ∈ push, Placed s t y) :
    Delivers s t old (s.update u f) push :=
  quiet_delivers (update_same s u f) rfl rfl (update_sendlist s u hf) hplaced fun p n => by
    rw [tally_none hold, tally_none hpush]

/-- A step between such statements that changes nothing. -/
theorem same_delivers (hold : ∀ y ∈ old, y.token? = none) (hpush : ∀ y ∈ push, y.token? = none)
    (hplaced : ∀ y ∈ push, Placed s t y) : Delivers s t old s push :=
  quiet_delivers ⟨rfl, rfl, rfl⟩ rfl rfl (fun _ => rfl) hplaced fun p n => by
    rw [tally_none hold, tally_none hpush]

/-- The history after some more events. -/
theorem history_append {events : List SendEvent} (hlog : s'.log = s.log ++ events) (n : SendId) :
    s'.history n = s.history n ++ events.filter fun e => e.send = n := by
  unfold SendState.history
  rw [hlog, List.filter_append]

theorem pushSend_delivers {target : ThreadId} {smsg : SendMessage}
    (hx : Placed s t (.pushSend target smsg))
    (hs : SendState.exec t s (.pushSend target smsg) = some (s', push)) :
    Delivers s t [.pushSend target smsg] s' push := by
  obtain ⟨rfl, rfl⟩ := Prod.mk.inj (Option.some.inj hs)
  refine ⟨⟨rfl, rfl, rfl⟩, List.forall_mem_nil _, fun u k hk => ?_, fun e he => ?_,
    fun n hn => Or.inl hn, fun n => ?_⟩
  · by_cases hu : u = target
    · rw [hu] at hk ⊢
      dsimp only at hk
      rw [update_self] at hk
      rcases List.mem_append.1 hk with hk | hk
      · exact Or.inl hk
      · rw [List.mem_singleton.1 hk]
        exact Or.inr hx.1
    · dsimp only at hk
      rw [update_ne s _ hu] at hk
      exact Or.inl hk
  · rcases List.mem_append.1 he with he | he
    · exact Or.inl he
    · rw [List.mem_singleton.1 he]
      exact Or.inr hx.1.known
  · by_cases hn : n = smsg.ready
    · subst hn
      refine Or.inr ⟨.push, ⟨fun p hp => ?_, ?_, (Bool.or_false _).symm, ?_⟩, nofun⟩
      · rw [tally_one rfl]
        cases p with
        | listed => exact absurd rfl hp
        | _ => simp [Transfer.takes, Transfer.gives]
      · dsimp only
        rw [hx.1.target, update_self]
        simp [Transfer.takes, Transfer.gives]
      · refine (history_append rfl _).trans (congrArg _ ?_)
        simp [SendEvent.send, Transfer.events]
    · refine Or.inl ⟨fun p hp => ?_, ?_, (Bool.or_false _).symm, ?_⟩
      · rw [tally_one rfl]
        simp [Ne.symm hn]
      · dsimp only
        by_cases hu : s.target n = target
        · rw [hu, update_self]
          simp [Ne.symm hn]
        · rw [update_ne s _ hu]
      · refine (history_append rfl n).trans (congrArg _ ?_)
        simp [SendEvent.send, Ne.symm hn]

theorem tally_receiveNext (p : Place) (n : SendId) : tally [.receiveNext] p n = 0 :=
  tally_none (List.forall_mem_singleton.2 rfl) p n

theorem receiveNext_delivers (hlisted : ∀ smsg ∈ (s.threads t).sendlist_, Addressed s smsg t) :
    Delivers s t [.receiveNext] (s.receiveNext t).1 (s.receiveNext t).2 := by
  unfold SendState.receiveNext
  cases hlist : (s.threads t).sendlist_ with
  | nil =>
    dsimp only
    refine plain_delivers ?_ (List.forall_mem_singleton.2 rfl) (List.forall_mem_nil _)
      (List.forall_mem_nil _)
    exact fun _ => rfl
  | cons smsg rest =>
    have haddressed := hlisted smsg (by rw [hlist]; exact List.mem_cons_self)
    dsimp only
    refine ⟨⟨rfl, rfl, rfl⟩, fun y hy => ?_, fun u k hk => Or.inl ?_, fun e he => ?_,
      fun n hn => Or.inl hn, fun n => ?_⟩
    · rw [List.mem_singleton.1 hy]
      exact haddressed
    · by_cases hu : u = t
      · rw [hu] at hk ⊢
        dsimp only at hk
        rw [update_self] at hk
        rw [hlist]
        exact List.mem_cons_of_mem smsg hk
      · dsimp only at hk
        rw [update_ne s _ hu] at hk
        exact hk
    · rcases List.mem_append.1 he with he | he
      · exact Or.inl he
      · rw [List.mem_singleton.1 he]
        exact Or.inr haddressed.known
    · by_cases hn : n = smsg.ready
      · subst hn
        refine Or.inr ⟨.dispatch, ⟨fun p hp => ?_, ?_, (Bool.or_false _).symm, ?_⟩, nofun⟩
        · rw [tally_receiveNext, tally_one rfl]
          cases p with
          | listed => exact absurd rfl hp
          | _ => simp [Transfer.takes, Transfer.gives]
        · dsimp only
          rw [haddressed.target, update_self, hlist]
          simp [Transfer.takes, Transfer.gives]
        · refine (history_append rfl _).trans (congrArg _ ?_)
          simp [SendEvent.send, Transfer.events]
      · refine Or.inl ⟨fun p hp => ?_, ?_, (Bool.or_false _).symm, ?_⟩
        · rw [tally_receiveNext, tally_one rfl]
          simp [Ne.symm hn]
        · dsimp only
          by_cases hu : s.target n = t
          · rw [hu, update_self, hlist]
            simp [Ne.symm hn]
          · rw [update_ne s _ hu]
        · refine (history_append rfl n).trans (congrArg _ ?_)
          simp [SendEvent.send, Ne.symm hn]

theorem reply_sendlist (s : SendState) (smsg : SendMessage) (u : ThreadId) :
    ((s.reply smsg).threads u).sendlist_ = (s.threads u).sendlist_ := by
  unfold SendState.reply SendState.wakeUp
  rw [update_sendlist]
  exact fun _ => rfl

/-- The reply, after which `ReceiveSends` goes on. -/
theorem reply_delivers {smsg : SendMessage} (hx : Placed s t (.received smsg)) :
    Delivers s t [.received smsg] (s.reply smsg) [.receiveNext] := by
  have hready : ∀ n, (s.reply smsg).ready n = true → s.ready n = true ∨ n = smsg.ready := by
    intro n hn
    by_cases hk : n = smsg.ready
    · exact Or.inr hk
    · refine Or.inl ?_
      have hne : (s.reply smsg).ready n = s.ready n := Function.update_of_ne hk _ _
      rw [← hne]
      exact hn
  refine ⟨⟨rfl, rfl, rfl⟩, by simp [Placed], fun u k hk => Or.inl ?_, fun e he => ?_,
    fun n hn => (hready n hn).imp_right fun h => ?_, fun n => ?_⟩
  · rw [← reply_sendlist s smsg u]
    exact hk
  · rcases List.mem_append.1 he with he | he
    · exact Or.inl he
    · rw [List.mem_singleton.1 he]
      exact Or.inr hx.known
  · rw [h]
    exact hx.known
  · have hlist : ((s.reply smsg).threads (s.target n)).sendlist_ =
        (s.threads (s.target n)).sendlist_ := reply_sendlist s smsg _
    by_cases hn : n = smsg.ready
    · subst hn
      refine Or.inr ⟨.reply, ⟨fun p hp => ?_, by rw [hlist]; rfl, ?_, ?_⟩, nofun⟩
      · rw [tally_receiveNext, tally_one rfl]
        simp [Transfer.takes, Transfer.gives]
      · rw [show (s.reply smsg).ready smsg.ready = true from Function.update_self _ _ _]
        exact (Bool.or_true _).symm
      · refine (history_append rfl _).trans (congrArg _ ?_)
        simp [SendEvent.send, Transfer.events]
    · refine Or.inl ⟨fun p hp => ?_, by rw [hlist], ?_, ?_⟩
      · rw [tally_receiveNext, tally_one rfl]
        simp [Ne.symm hn]
      · rw [show (s.reply smsg).ready n = s.ready n from Function.update_of_ne hn _ _,
          Bool.or_false]
      · refine (history_append rfl n).trans (congrArg _ ?_)
        simp [SendEvent.send, Ne.symm hn]

theorem sendLoop_delivers {k : SendId} {waited : Bool} (hx : Placed s t (.sendLoop k waited))
    (hs : SendState.exec t s (.sendLoop k waited) = some (s', push)) :
    Delivers s t [.sendLoop k waited] s' push := by
  have hleave : ∀ {waited push}, s.ready k = true →
      (∀ y ∈ push, y.token? = none ∧ Placed s t y) → Delivers s t [.sendLoop k waited]
        { s with log := s.log ++ [SendEvent.returned k] } push := by
    intro waited push hready hplain
    refine ⟨⟨rfl, rfl, rfl⟩, fun y hy => (hplain y hy).2, fun u m hm => Or.inl hm, fun e he => ?_,
      fun n hn => Or.inl hn, fun n => ?_⟩
    · rcases List.mem_append.1 he with he | he
      · exact Or.inl he
      · rw [List.mem_singleton.1 he]
        exact Or.inr hx.1
    · by_cases hn : n = k
      · subst hn
        refine Or.inr ⟨.leave, ⟨fun p hp => ?_, rfl, (Bool.or_false _).symm, ?_⟩, fun _ => hready⟩
        · rw [tally_one rfl, tally_none fun y hy => (hplain y hy).1]
          simp [Transfer.takes, Transfer.gives]
        · refine (history_append rfl _).trans (congrArg _ ?_)
          simp [SendEvent.send, Transfer.events]
      · refine Or.inl ⟨fun p hp => ?_, rfl, (Bool.or_false _).symm, ?_⟩
        · rw [tally_one rfl, tally_none fun y hy => (hplain y hy).1]
          simp [Ne.symm hn]
        · refine (history_append rfl n).trans (congrArg _ ?_)
          simp [SendEvent.send, Ne.symm hn]
  cases SendState.exec_executes hs with
  | returned _ hready => exact hleave hready (List.forall_mem_nil _)
  | woken _ hready => exact hleave hready (List.forall_mem_singleton.2 ⟨rfl, trivial⟩)
  | unready _ _ hready =>
    refine quiet_delivers ⟨rfl, rfl, rfl⟩ rfl rfl (fun _ => rfl) (fun y hy => ?_) fun p n => rfl
    simp only [List.mem_cons, List.not_mem_nil, or_false] at hy
    rcases hy with rfl | rfl | rfl
    · trivial
    · trivial
    · exact hx

/-- The handler returns. -/
theorem onMessage_delivers {smsg : SendMessage} (hx : Placed s t (.onMessage smsg)) :
    Delivers s t [.onMessage smsg] { s with log := s.log ++ [.completed smsg.ready] }
      [.received smsg] := by
  refine ⟨⟨rfl, rfl, rfl⟩, fun y hy => ?_, fun u m hm => Or.inl hm, fun e he => ?_,
    fun n hn => Or.inl hn, fun n => ?_⟩
  · rw [List.mem_singleton.1 hy]
    exact hx
  · rcases List.mem_append.1 he with he | he
    · exact Or.inl he
    · rw [List.mem_singleton.1 he]
      exact Or.inr hx.known
  · by_cases hn : n = smsg.ready
    · subst hn
      refine Or.inr ⟨.complete, ⟨fun p hp => ?_, rfl, (Bool.or_false _).symm, ?_⟩, nofun⟩
      · rw [tally_one rfl, tally_one rfl]
        simp [Transfer.takes, Transfer.gives, Nat.add_comm]
      · refine (history_append rfl _).trans (congrArg _ ?_)
        simp [SendEvent.send, Transfer.events]
    · refine Or.inl ⟨fun p hp => ?_, rfl, (Bool.or_false _).symm, ?_⟩
      · rw [tally_one rfl, tally_one rfl]
        simp [Ne.symm hn]
      · refine (history_append rfl n).trans (congrArg _ ?_)
        simp [SendEvent.send, Ne.symm hn]

/-- Messages that are taken off the list are replied to. -/
theorem clearSends_spec (l : List SendMessage) (s : SendState) :
    SameSends s (l.foldl SendState.clearSend s) ∧
    (∀ u, ((l.foldl SendState.clearSend s).threads u).sendlist_ = (s.threads u).sendlist_) ∧
    (∀ n, (l.foldl SendState.clearSend s).ready n =
      (s.ready n || decide (n ∈ l.map SendMessage.ready))) ∧
    (l.foldl SendState.clearSend s).log =
      s.log ++ l.flatMap fun smsg => [.cleared smsg.ready, .readied smsg.ready] := by
  induction l generalizing s with
  | nil => exact ⟨⟨rfl, rfl, rfl⟩, fun _ => rfl, by simp, by simp⟩
  | cons smsg rest ih =>
    obtain ⟨hsame, hlist, hready, hlog⟩ := ih (s.clearSend smsg)
    refine ⟨{ hsame with }, fun u => ?_, fun n => ?_, ?_⟩
    · rw [List.foldl_cons, hlist u]
      exact reply_sendlist _ smsg u
    · have hone : (s.clearSend smsg).ready n = (s.ready n || decide (n = smsg.ready)) := by
        show Function.update s.ready smsg.ready true n = _
        by_cases hn : n = smsg.ready
        · rw [hn, Function.update_self]
          simp
        · rw [Function.update_of_ne hn]
          simp [hn]
      rw [List.foldl_cons, hready n, hone, List.map_cons]
      simp [List.mem_cons, Bool.or_assoc]
    · rw [List.foldl_cons, hlog]
      show s.log ++ _ ++ _ ++ _ = _
      simp

/-- The events of one of several messages that are cleared. -/
theorem filter_cleared {l : List SendMessage} (hnodup : (l.map SendMessage.ready).Nodup)
    (n : SendId) :
    ((l.flatMap fun smsg => [SendEvent.cleared smsg.ready, .readied smsg.ready]).filter
      fun e => e.send = n) =
    if n ∈ l.map SendMessage.ready then [.cleared n, .readied n] else [] := by
  induction l with
  | nil => rfl
  | cons smsg rest ih =>
    rw [List.map_cons, List.nodup_cons] at hnodup
    rw [List.flatMap_cons, List.filter_append, ih hnodup.2, List.map_cons]
    by_cases hn : n = smsg.ready
    · rw [if_neg (by rw [hn]; exact hnodup.1), if_pos (by rw [hn]; exact List.mem_cons_self)]
      simp [SendEvent.send, hn]
    · simp [SendEvent.send, hn, Ne.symm hn]

theorem clear_delivers {target : ThreadId} (phandler : Handler) (id : UInt32)
    (hlisted : ∀ smsg ∈ (s.threads target).sendlist_, Addressed s smsg target)
    (hnodup : ((s.threads target).sendlist_.map SendMessage.ready).Nodup) :
    Delivers s t [.clear target phandler id] (s.clear target phandler id) [] := by
  unfold SendState.clear
  dsimp only
  generalize hcleared : ((s.threads target).sendlist_.filter fun smsg =>
    smsg.msg.Match phandler id) = cleared
  obtain ⟨hsame, hlist, hready, hlog⟩ := clearSends_spec cleared s
  generalize cleared.foldl SendState.clearSend s = s₁ at hsame hlist hready hlog
  have hmem : ∀ n, n ∈ cleared.map SendMessage.ready →
      n < s.sends ∧ s.target n = target ∧
        n ∈ (s.threads target).sendlist_.map SendMessage.ready := by
    intro n hn
    obtain ⟨smsg, hsmsg, rfl⟩ := List.mem_map.1 hn
    rw [← hcleared] at hsmsg
    have hin := (List.mem_filter.1 hsmsg).1
    exact ⟨(hlisted smsg hin).known, (hlisted smsg hin).target, List.mem_map_of_mem hin⟩
  -- the list of the target, without those that are cleared
  have hcount : ∀ n, (((s.threads target).sendlist_.filter fun smsg =>
        !smsg.msg.Match phandler id).map SendMessage.ready).count n +
        (cleared.map SendMessage.ready).count n =
      ((s.threads target).sendlist_.map SendMessage.ready).count n := by
    intro n
    rw [← hcleared, Nat.add_comm, ← List.count_append, ← List.map_append]
    exact ((List.filter_append_perm _ _).map SendMessage.ready).count_eq n
  have hcnodup : (cleared.map SendMessage.ready).Nodup := by
    rw [← hcleared]
    exact hnodup.sublist ((List.filter_sublist).map SendMessage.ready)
  have htarget : ∀ (f : ThreadState → ThreadState), ((s₁.update target f).threads target) =
      f (s₁.threads target) := fun f => update_self s₁ target f
  refine ⟨{ hsame with }, List.forall_mem_nil _, fun u k hk => Or.inl ?_,
    fun e he => ?_, fun n hn => ?_, fun n => ?_⟩
  · by_cases hu : u = target
    · rw [hu] at hk ⊢
      rw [htarget] at hk
      dsimp only at hk
      rw [hlist] at hk
      exact (List.mem_filter.1 hk).1
    · rw [update_ne s₁ _ hu, hlist] at hk
      exact hk
  · have he' : e ∈ s₁.log := he
    rw [hlog] at he'
    rcases List.mem_append.1 he' with he' | he'
    · exact Or.inl he'
    · obtain ⟨smsg, hsmsg, he'⟩ := List.mem_flatMap.1 he'
      have hknown := (hmem smsg.ready (List.mem_map_of_mem hsmsg)).1
      simp only [List.mem_cons, List.not_mem_nil, or_false] at he'
      rcases he' with rfl | rfl <;> exact Or.inr hknown
  · have hn' : s₁.ready n = true := hn
    rw [hready n, Bool.or_eq_true, decide_eq_true_eq] at hn'
    exact hn'.imp_right fun h => (hmem n h).1
  · have hhistory : ∀ f, (s₁.update target f).history n =
        s.history n ++
          if n ∈ cleared.map SendMessage.ready then [.cleared n, .readied n] else [] := by
      intro f
      rw [← filter_cleared hcnodup n]
      exact history_append hlog n
    by_cases hn : n ∈ cleared.map SendMessage.ready
    · obtain ⟨-, hto, -⟩ := hmem n hn
      refine Or.inr ⟨.dismiss, ⟨fun p hp => ?_, ?_, ?_, ?_⟩, nofun⟩
      · rw [tally_none (List.forall_mem_singleton.2 rfl)]
        cases p with
        | listed => exact absurd rfl hp
        | _ => simp [Transfer.takes, Transfer.gives]
      · rw [hto, htarget]
        dsimp only
        rw [hlist]
        have hone := List.count_eq_one_of_mem hcnodup hn
        have hsum := hcount n
        rw [hone] at hsum
        simpa [Transfer.takes, Transfer.gives] using hsum
      · show s₁.ready n = _
        rw [hready n, decide_eq_true hn]
        rfl
      · rw [hhistory, if_pos hn]
        rfl
    · refine Or.inl ⟨fun p hp => ?_, ?_, ?_, ?_⟩
      · rw [tally_none (List.forall_mem_singleton.2 rfl)]
        simp
      · by_cases hu : s.target n = target
        · rw [hu, htarget]
          dsimp only
          rw [hlist]
          have hzero := List.count_eq_zero.2 hn
          have hsum := hcount n
          rw [hzero] at hsum
          simpa using hsum
        · rw [update_ne s₁ _ hu, hlist]
      · show s₁.ready n = _
        rw [hready n, decide_eq_false hn]
      · rw [hhistory, if_neg hn]

end Statements

/-! ## 5. The runs -/

section Runs

variable {c c' : SendConf} {t : ThreadId} {s' : SendState} {x : SendStmt}
  {rest push : List SendStmt}

/-- A message is once on a send list. -/
theorem Following.nodup (h : Following c) (t : ThreadId) :
    ((c.state.threads t).sendlist_.map SendMessage.ready).Nodup := by
  refine List.nodup_iff_count_le_one.2 fun n => ?_
  by_cases hn : n ∈ (c.state.threads t).sendlist_.map SendMessage.ready
  · obtain ⟨smsg, hsmsg, rfl⟩ := List.mem_map.1 hn
    have hto := h.listed t smsg hsmsg
    obtain ⟨st, hst⟩ := h.stage smsg.ready hto.known
    have hlisted := hst.tokens .listed
    unfold tokens at hlisted
    dsimp only at hlisted
    rw [hto.target] at hlisted
    rw [hlisted]
    cases st <;> decide
  · rw [List.count_eq_zero.2 hn]
    exact Nat.zero_le 1

theorem wakeUp_sendlist (s : SendState) (t u : ThreadId) :
    ((s.wakeUp t).threads u).sendlist_ = (s.threads u).sendlist_ := by
  unfold SendState.wakeUp
  rw [update_sendlist]
  exact fun _ => rfl

/-- A post changes neither the send lists nor the flags of sends. -/
theorem post_delivers {s : SendState} {target : ThreadId} {f : ThreadState → ThreadState}
    (hf : ∀ th, (f th).sendlist_ = th.sendlist_) (hx : x.token? = none) :
    Delivers s t [x] ((s.update target f).wakeUp target) [] := by
  refine quiet_delivers ⟨rfl, rfl, rfl⟩ rfl rfl (fun u => ?_) (List.forall_mem_nil _) fun p n => ?_
  · rw [wakeUp_sendlist, update_sendlist s target hf]
  · rw [tally_none (List.forall_mem_singleton.2 hx)]
    rfl

theorem pull_delivers (s : SendState) (t : ThreadId) (first_pass : Bool)
    (cmsDelayNext cmsWait : Int) (msStart msCurrent : UInt32) :
    Delivers s t [.pull first_pass cmsDelayNext cmsWait msStart msCurrent]
      (s.pull t first_pass cmsDelayNext cmsWait msStart msCurrent).1
      (s.pull t first_pass cmsDelayNext cmsWait msStart msCurrent).2 := by
  have hold : ∀ y ∈ [SendStmt.pull first_pass cmsDelayNext cmsWait msStart msCurrent],
      y.token? = none := List.forall_mem_singleton.2 rfl
  unfold SendState.pull
  dsimp only
  generalize (if first_pass = true then _ else cmsDelayNext : Int) = cms
  generalize hs₁ : (if first_pass = true then _ else s : SendState) = s₁
  have hfirst : SameSends s s₁ ∧ s₁.log = s.log ∧ s₁.ready = s.ready ∧
      ∀ u, (s₁.threads u).sendlist_ = (s.threads u).sendlist_ := by
    rw [← hs₁]
    split_ifs
    · refine ⟨⟨rfl, rfl, rfl⟩, rfl, rfl, update_sendlist s t ?_⟩
      exact fun _ => rfl
    · exact ⟨⟨rfl, rfl, rfl⟩, rfl, rfl, fun _ => rfl⟩
  obtain ⟨hsame, hlog, hready, hlist⟩ := hfirst
  cases (s₁.threads t).msgq_ with
  | nil =>
    refine quiet_delivers hsame hlog hready hlist (List.forall_mem_singleton.2 trivial)
      fun p n => ?_
    rw [tally_none hold, tally_none (List.forall_mem_singleton.2 rfl)]
  | cons msg rest =>
    dsimp only
    refine quiet_delivers { hsame with } hlog hready (fun u => ?_)
      (fun y hy => ?_) fun p n => ?_
    · rw [update_sendlist, hlist]
      exact fun _ => rfl
    · split_ifs at hy
      · rw [List.mem_singleton.1 hy]
        trivial
      · cases hy
    · rw [tally_none hold]
      split_ifs
      · exact tally_none (List.forall_mem_singleton.2 rfl) p n
      · rfl

theorem exec_following (h : Following c) (hc : c.control t = x :: rest)
    (hs : SendState.exec t c.state x = some (s', push)) :
    Following (c.put t s' (push ++ rest)) := by
  have hx : Placed c.state t x := h.placed t x (by rw [hc]; exact List.mem_cons_self)
  have hplain : x.token? = none → s' = c.state →
      (∀ y ∈ push, y.token? = none ∧ Placed c.state t y) →
      Following (c.put t s' (push ++ rest)) := by
    rintro hnone rfl hpush
    exact (same_delivers (List.forall_mem_singleton.2 hnone) (fun y hy => (hpush y hy).1)
      fun y hy => (hpush y hy).2).following h hc
  have hone : ∀ {u : ThreadId} {f : ThreadState → ThreadState},
      (∀ th, (f th).sendlist_ = th.sendlist_) → x.token? = none → s' = c.state.update u f →
      (∀ y ∈ push, y.token? = none ∧ Placed c.state t y) →
      Following (c.put t s' (push ++ rest)) := by
    rintro u f hf hnone rfl hpush
    exact (plain_delivers hf (List.forall_mem_singleton.2 hnone) (fun y hy => (hpush y hy).1)
      fun y hy => (hpush y hy).2).following h hc
  cases SendState.exec_executes hs with
  | post | doDelayPost =>
    refine (post_delivers ?_ rfl).following h hc
    exact fun _ => rfl
  | clear target phandler id =>
    exact (clear_delivers phandler id (h.listed target) (h.nodup target)).following h hc
  | pushSend target smsg => exact (pushSend_delivers hx hs).following h hc
  | wakeUp | waited | onEvent =>
    refine hone ?_ rfl rfl (List.forall_mem_nil _)
    exact fun _ => rfl
  | returned | woken | unready => exact (sendLoop_delivers hx hs).following h hc
  | receiveSends | again | waiting | passed =>
    exact hplain rfl rfl (List.forall_mem_singleton.2 ⟨rfl, trivial⟩)
  | noSends | gaveUp => exact hplain rfl rfl (List.forall_mem_nil _)
  | receiveNext => exact (receiveNext_delivers (h.listed t)).following h hc
  | received smsg =>
    -- the reply, and then what is next
    have hreply := (reply_delivers hx).following h hc
    have hnext := (receiveNext_delivers (hreply.listed t)).following hreply
      (Threads.put_self c t _ _)
    rw [Threads.put_put] at hnext
    exact hnext
  | getLoop | socket => exact hplain rfl rfl (by simp [SendStmt.token?, Placed])
  | pull first_pass cmsDelayNext cmsWait msStart msCurrent =>
    exact (pull_delivers _ t first_pass cmsDelayNext cmsWait msStart msCurrent).following h hc
  | stopped cmsDelayNext cmsWait msStart msCurrent hstop =>
    exact hplain rfl rfl (List.forall_mem_nil _)
  | running cmsDelayNext cmsWait msStart msCurrent cmsNext hstop =>
    exact hplain rfl rfl (by simp [SendStmt.token?, Placed])
  | wait w =>
    refine hone ?_ rfl rfl (List.forall_mem_singleton.2 ⟨rfl, trivial⟩)
    exact fun _ => rfl
  | signaled sockets w =>
    refine hone ?_ rfl rfl (by simp [SendStmt.token?, Placed])
    exact fun _ => rfl

theorem resume_following {v : SendAns} (h : Following c) (hc : c.control t = x :: rest)
    (hf : SendState.foreign x = true) :
    Following (c.put t (SendState.resume t c.state x v).1
      ((SendState.resume t c.state x v).2 ++ rest)) := by
  have hx : Placed c.state t x := h.placed t x (by rw [hc]; exact List.mem_cons_self)
  have hplain : ∀ push, x.token? = none → (∀ y ∈ push, y.token? = none ∧ Placed c.state t y) →
      Following (c.put t c.state (push ++ rest)) := by
    intro push hnone hpush
    exact (same_delivers (List.forall_mem_singleton.2 hnone) (fun y hy => (hpush y hy).1)
      fun y hy => (hpush y hy).2).following h hc
  have hone : ∀ {f : ThreadState → ThreadState} {r : SendState × List SendStmt},
      (∀ th, (f th).sendlist_ = th.sendlist_) → x.token? = none →
      r = (c.state.update t f, []) → Following (c.put t r.1 (r.2 ++ rest)) := by
    rintro f r hf hnone rfl
    exact (plain_delivers hf (List.forall_mem_singleton.2 hnone) (List.forall_mem_nil _)
      (List.forall_mem_nil _)).following h hc
  cases x with
  | onMessage smsg => exact (onMessage_delivers hx).following h hc
  | select w =>
    cases v with
    | done | ready => exact hplain _ rfl (List.forall_mem_singleton.2 ⟨rfl, trivial⟩)
    | timeout =>
      refine hone ?_ rfl rfl
      exact fun _ => rfl
    | error eintr =>
      cases eintr with
      | false =>
        refine hone ?_ rfl rfl
        exact fun _ => rfl
      | true => exact hplain _ rfl (List.forall_mem_singleton.2 ⟨rfl, trivial⟩)
  | handler | socketEvent => exact hplain [] rfl (List.forall_mem_nil _)
  | _ => cases hf

/-- A new `Send`. -/
theorem send_following (target : ThreadId) (msg : Message) (h : Following c) :
    Following (c.put t { c.state with
      sends := c.state.sends + 1
      sender := Function.update c.state.sender c.state.sends t
      target := Function.update c.state.target c.state.sends target }
      ([.pushSend target ⟨t, msg, c.state.sends⟩, .wakeUp target,
        .sendLoop c.state.sends false] ++ c.control t)) := by
  generalize hs' : ({ c.state with
      sends := c.state.sends + 1
      sender := Function.update c.state.sender c.state.sends t
      target := Function.update c.state.target c.state.sends target } : SendState) = s'
  have hsends : s'.sends = c.state.sends + 1 := by rw [← hs']
  have hold : ∀ n < c.state.sends, s'.sender n = c.state.sender n ∧
      s'.target n = c.state.target n := by
    intro n hn
    rw [← hs']
    exact ⟨Function.update_of_ne (Nat.ne_of_lt hn) _ _, Function.update_of_ne (Nat.ne_of_lt hn) _ _⟩
  have hnew : s'.sender c.state.sends = t ∧ s'.target c.state.sends = target := by
    rw [← hs']
    exact ⟨Function.update_self _ _ _, Function.update_self _ _ _⟩
  have haddressed : ∀ {smsg u}, Addressed c.state smsg u → Addressed s' smsg u := fun ha =>
    ⟨by rw [hsends]; exact Nat.lt_succ_of_lt ha.known, by rw [(hold _ ha.known).1]; exact ha.sender,
      by rw [(hold _ ha.known).2]; exact ha.target⟩
  have hplaced : ∀ {u y}, Placed c.state u y → Placed s' u y := by
    intro u y hy
    cases y with
    | pushSend target smsg => exact ⟨haddressed hy.1, hy.2⟩
    | onMessage | received => exact haddressed hy
    | sendLoop n waited =>
      exact ⟨by rw [hsends]; exact Nat.lt_succ_of_lt hy.1, by rw [(hold n hy.1).1]; exact hy.2⟩
    | _ => trivial
  -- no statement is about the new message
  have hfresh : ∀ u p, tally (c.control u) p c.state.sends = 0 := by
    intro u p
    refine tally_zero fun y hy hn => ?_
    have hpy := h.placed u y hy
    cases y with
    | pushSend target smsg =>
      have hk := hpy.1.known
      rw [(Prod.mk.inj (Option.some.inj hn)).2] at hk
      exact Nat.lt_irrefl _ hk
    | onMessage | received =>
      have hk := hpy.known
      rw [(Prod.mk.inj (Option.some.inj hn)).2] at hk
      exact Nat.lt_irrefl _ hk
    | sendLoop n waited =>
      have hk := hpy.1
      rw [(Prod.mk.inj (Option.some.inj hn)).2] at hk
      exact Nat.lt_irrefl _ hk
    | _ => cases hn
  have hthreads : s'.threads = c.state.threads := by rw [← hs']
  have hlog : s'.log = c.state.log := by rw [← hs']
  have hready : s'.ready = c.state.ready := by rw [← hs']
  generalize hpush : [SendStmt.pushSend target ⟨t, msg, c.state.sends⟩, .wakeUp target,
    .sendLoop c.state.sends false] = push
  have hcontrol : ∀ u p n, tally ((c.put t s' (push ++ c.control t)).control u) p n =
      tally (c.control u) p n + if u = t then tally push p n else 0 := by
    intro u p n
    by_cases hu : u = t
    · rw [hu, Threads.put_self, tally_append, if_pos rfl, Nat.add_comm]
    · rw [Threads.put_ne c hu, if_neg hu]
      rfl
  have htally : ∀ p n, tally push p n =
      if n = c.state.sends ∧ (p = .pushing ∨ p = .waiting) then 1 else 0 := by
    intro p n
    rw [← hpush]
    by_cases hn : n = c.state.sends
    · cases p <;> simp [tally, List.filterMap_cons, SendStmt.token?, hn]
    · simp [tally, List.filterMap_cons, SendStmt.token?, hn, Ne.symm hn]
  refine ⟨fun u y hy => ?_, fun u smsg hsmsg => ?_, fun e he => ?_, fun n hn => ?_,
    fun n hn => ?_⟩
  · by_cases hu : u = t
    · rw [hu] at hy ⊢
      rw [Threads.put_self] at hy
      rcases List.mem_append.1 hy with hy | hy
      · rw [← hpush] at hy
        simp only [List.mem_cons, List.not_mem_nil, or_false] at hy
        have hlt : c.state.sends < s'.sends := by rw [hsends]; exact Nat.lt_succ_self _
        rcases hy with rfl | rfl | rfl
        · exact ⟨⟨hlt, hnew.1, hnew.2⟩, rfl⟩
        · trivial
        · exact ⟨hlt, hnew.1⟩
      · exact hplaced (h.placed t y hy)
    · rw [Threads.put_ne c hu] at hy
      exact hplaced (h.placed u y hy)
  · rw [Threads.put_state, hthreads] at hsmsg
    exact haddressed (h.listed u smsg hsmsg)
  · rw [Threads.put_state, hlog] at he
    rw [Threads.put_state, hsends]
    exact Nat.lt_succ_of_lt (h.logged e he)
  · rw [Threads.put_state, hready] at hn
    rw [Threads.put_state, hsends]
    exact Nat.lt_succ_of_lt (h.unready n hn)
  · rw [Threads.put_state, hsends] at hn
    rcases Nat.lt_succ_iff_lt_or_eq.1 hn with hn | rfl
    · -- the others are where they were
      obtain ⟨st, hst⟩ := h.stage n hn
      have hhome : ∀ p, s'.home n p = c.state.home n p := by
        intro p
        unfold SendState.home
        rw [(hold n hn).1, (hold n hn).2]
      refine ⟨st, hst.untouched ⟨fun p => ?_, by rw [Threads.put_state, hready], ?_⟩⟩
      · have hsame : tally ((c.put t s' (push ++ c.control t)).control (s'.home n p)) p n =
            tally (c.control (c.state.home n p)) p n := by
          rw [hcontrol, htally, hhome, if_neg (c := n = _ ∧ _) fun hp => Nat.ne_of_lt hn hp.1,
            ite_self, Nat.add_zero]
        cases p with
        | listed =>
          show ((s'.threads (s'.target n)).sendlist_.map SendMessage.ready).count n = _
          rw [hthreads, (hold n hn).2]
          rfl
        | _ => exact hsame
      · unfold SendState.history
        rw [Threads.put_state, hlog]
    · -- the new one is about to be put on the list
      have hcount : ∀ p, p ≠ .listed →
          tally ((c.put t s' (push ++ c.control t)).control (s'.home c.state.sends p)) p
            c.state.sends = Stage.called.holds p := by
        intro p hp
        rw [hcontrol, htally, hfresh, Nat.zero_add]
        cases p with
        | pushing =>
          rw [if_pos (show s'.home c.state.sends .pushing = t from hnew.1)]
          simp [Stage.holds]
        | waiting =>
          rw [if_pos (show s'.home c.state.sends .waiting = t from hnew.1)]
          simp [Stage.holds]
        | listed => exact absurd rfl hp
        | _ => simp [Stage.holds]
      refine ⟨.called, fun p => ?_, ?_, ?_⟩
      · cases p with
        | listed =>
          refine List.count_eq_zero.2 fun hmem => ?_
          obtain ⟨smsg, hsmsg, hk⟩ := List.mem_map.1 hmem
          rw [Threads.put_state, hthreads] at hsmsg
          have hknown := (h.listed _ smsg hsmsg).known
          rw [hk] at hknown
          exact Nat.lt_irrefl _ hknown
        | _ => exact hcount _ (by decide)
      · rw [Threads.put_state, hready]
        exact Bool.eq_false_iff.2 fun hr => Nat.lt_irrefl _ (h.unready _ hr)
      · unfold SendState.history
        rw [Threads.put_state, hlog]
        refine List.filter_eq_nil_iff.2 ?_
        exact fun e he hk => Nat.ne_of_lt (h.logged e he) (of_decide_eq_true hk)

/-- The entries of functions. -/
theorem enter_following (m : SendCall) (h : Following c) :
    Following (c.put t (SendState.enter t c.state m).1
      ((SendState.enter t c.state m).2 ++ c.control t)) := by
  have hplain : ∀ {push}, (∀ y ∈ push, y.token? = none ∧ Placed c.state t y) →
      Following (c.put t c.state (push ++ c.control t)) := by
    intro push hpush
    have hd : Delivers c.state t [] c.state push :=
      same_delivers (List.forall_mem_nil _) (fun y hy => (hpush y hy).1) fun y hy => (hpush y hy).2
    exact hd.following h rfl
  have hnil : ∀ y ∈ ([] : List SendStmt), y.token? = none ∧ Placed c.state t y :=
    fun _ => by exact nofun
  cases m with
  | post target phandler id pdata time_sensitive =>
    refine hplain ?_
    unfold SendState.enter
    dsimp only
    generalize Message.make _ _ _ _ = msg
    split_ifs
    · exact hnil
    · exact List.forall_mem_singleton.2 ⟨rfl, trivial⟩
  | postDelayed target cmsDelay phandler id pdata =>
    refine hplain ?_
    unfold SendState.enter
    dsimp only
    split_ifs
    · exact hnil
    · exact List.forall_mem_singleton.2 ⟨rfl, trivial⟩
  | send target phandler id pdata =>
    unfold SendState.enter
    dsimp only
    split_ifs
    · exact hplain hnil
    · exact hplain (List.forall_mem_singleton.2 ⟨rfl, trivial⟩)
    · exact send_following target _ h
  | clear | get => exact hplain (List.forall_mem_singleton.2 ⟨rfl, trivial⟩)
  | quit target =>
    have hd : Delivers c.state t [] (c.state.update target fun th => { th with fStop_ := true })
        [.wakeUp target] := by
      refine plain_delivers ?_ (List.forall_mem_nil _) (List.forall_mem_singleton.2 rfl)
        (List.forall_mem_singleton.2 trivial)
      exact fun _ => rfl
    exact hd.following h rfl
  | clock now =>
    have hd : Delivers c.state t [] { c.state with now } [] :=
      quiet_delivers ⟨rfl, rfl, rfl⟩ rfl rfl (fun _ => rfl) (List.forall_mem_nil _) fun _ _ => rfl
    exact hd.following h rfl

theorem step_following {a : Act SendCall SendAns} (h : Following c)
    (hs : Interleaving.step sendThreads c t a = some c') : Following c' := by
  rcases Interleaving.step_cases hs with ⟨x, rest, r, -, hc, -, hr, rfl⟩ | ⟨m, -, -, rfl⟩ |
    ⟨v, x, rest, -, hc, hf, rfl⟩
  · exact exec_following h hc hr
  · exact enter_following m h
  · exact resume_following h hc hf

theorem init_following : Following SendConf.init where
  placed _ := List.forall_mem_nil _
  listed _ := List.forall_mem_nil _
  logged := List.forall_mem_nil _
  unready _ := by exact nofun
  stage _ h := absurd h (Nat.not_lt_zero _)

theorem following_run (h : Reaches sendThreads SendRules SendConf.init c) : Following c :=
  h.invariant init_following fun _ _ _ _ _ hI _ hs => step_following hI hs

end Runs

/-! ## 6. The rendezvous -/

/-- What a `Send` to another thread does. -/
structure Exchange (c : SendConf) (n : SendId) : Prop where
  /-- the message is handled once or cleared, and `Send` returns afterwards -/
  order : c.state.history n <+: served n ∨ c.state.history n <+: dismissed n
  ready : c.state.ready n = true ↔ .readied n ∈ c.state.history n
  /-- `Send` is in its loop, or about to enter it, until it returns -/
  waits : (∃ waited, .sendLoop n waited ∈ c.control (c.state.sender n)) ↔
    n < c.state.sends ∧ .returned n ∉ c.state.history n

theorem tally_waiting_pos {l : List SendStmt} {n : SendId} :
    0 < tally l .waiting n ↔ ∃ waited, .sendLoop n waited ∈ l := by
  unfold tally
  rw [List.count_pos_iff, List.mem_filterMap]
  refine ⟨fun ⟨x, hx, hn⟩ => ?_, fun ⟨waited, h⟩ => ⟨_, h, rfl⟩⟩
  cases x with
  | sendLoop k waited =>
    rw [(Prod.mk.inj (Option.some.inj hn)).2] at hx
    exact ⟨waited, hx⟩
  | _ => cases hn

/-- The flag and the wait, at a stage. -/
theorem Stage.readied_iff (st : Stage) (n : SendId) :
    (st.ready = true ↔ .readied n ∈ st.history n) ∧
    (0 < st.holds .waiting ↔ .returned n ∉ st.history n) := by
  cases st <;> simp [Stage.ready, Stage.holds, Stage.history, TalkBase.served, TalkBase.dismissed]

/-- In every run, a message that is sent to another thread is dispatched at most once, and not when
`Clear` has removed it. Its flag is set once, when it has been handled or cleared, and while its
`Send` waits, and then `Send` returns. -/
theorem send_rendezvous {c : SendConf} (h : Reaches sendThreads SendRules SendConf.init c)
    (n : SendId) : Exchange c n := by
  have hinv := following_run h
  by_cases hn : n < c.state.sends
  · obtain ⟨st, hst⟩ := hinv.stage n hn
    obtain ⟨hready, hwaits⟩ := st.readied_iff n
    refine ⟨?_, ?_, ?_⟩
    · rw [hst.history]
      exact st.history_prefix n
    · rw [hst.ready, hst.history, hready]
    · rw [hst.history, ← hwaits, ← hst.tokens .waiting, and_iff_right hn]
      exact tally_waiting_pos.symm
  · have hnil : c.state.history n = [] := List.filter_eq_nil_iff.2 fun e he hk =>
      hn (of_decide_eq_true hk ▸ hinv.logged e he)
    refine ⟨?_, ?_, ?_⟩
    · rw [hnil]
      exact Or.inl List.nil_prefix
    · rw [hnil]
      exact iff_of_false (fun hr => hn (hinv.unready n hr)) List.not_mem_nil
    · refine iff_of_false (fun ⟨waited, hw⟩ => ?_) fun hlt => hn hlt.1
      exact hn (hinv.placed _ _ hw).1

/-- Thread 1 sends to thread 2, whose handler sends to thread 1: this message is handled in the
`Send` that waits. Both have returned. -/
theorem send_rendezvous_mutual : ∃ c, Reaches sendThreads SendRules SendConf.init c ∧
    c.state.history 0 = served 0 ∧ c.state.history 1 = served 1 ∧ Exchange c 0 ∧ Exchange c 1 := by
  obtain ⟨c, hc, hp⟩ := exists_of_follow (P := sendThreads) (K := SendRules)
    (c := SendConf.init)
    (l := [(1, .call (.send 2 none 5 none)), (1, .tick), (1, .tick), (1, .tick),
      (2, .call (.get kForever)), (2, .tick), (2, .tick), (2, .tick),
      (2, .call (.send 1 none 6 none)), (2, .tick), (2, .tick), (2, .tick),
      -- thread 1 handles the message of thread 2
      (1, .tick), (1, .tick), (1, .ret .done), (1, .tick),
      (1, .tick), (1, .tick), (1, .ret (.ready [])),
      -- the second `Send` returns, and the handler of thread 2
      (2, .tick), (2, .tick), (2, .tick), (2, .tick), (2, .ret (.ready [])), (2, .tick), (2, .tick),
      (2, .tick), (2, .tick), (2, .tick), (2, .tick), (2, .ret .done), (2, .tick),
      (1, .tick), (1, .tick), (1, .tick), (1, .tick), (1, .tick)])
    (p := fun c => decide (c.state.history 0 = served 0) && decide (c.state.history 1 = served 1))
    (by decide +kernel)
  obtain ⟨h₀, h₁⟩ := Bool.and_eq_true_iff.1 hp
  exact ⟨c, hc, of_decide_eq_true h₀, of_decide_eq_true h₁, send_rendezvous hc 0,
    send_rendezvous hc 1⟩

end Gxmpp.TalkBase
