/-
What becomes of the data of the messages.

The data of a message is returned with it by `Get`, handed over in a list by `Clear`, or deleted
by `Clear`, which the destructor calls too. For a dispose message that `Get` meets, none of these
happens: the `delete` in its branch is commented out, and the message is overwritten.
-/
import Gxmpp.QueueConservation

set_option autoImplicit false

namespace Gxmpp.TalkBase

open Reentrant

/-! ## 1. Where data goes -/

/-- The data that `Get` returns. -/
def QueueEvent.gotten? : QueueEvent → Option MessageData
  | .returned m => m.pdata
  | _ => none

/-- The data that `Clear` hands over in the removed list. -/
def QueueEvent.handed? : QueueEvent → Option MessageData
  | .removed m _ _ true => m.pdata
  | _ => none

/-- The data that `Clear` deletes. -/
def QueueEvent.deleted? : QueueEvent → Option MessageData
  | .removed m _ _ false => m.pdata
  | _ => none

namespace MessageQueue

variable {q q' : MessageQueue} {C : Clock}

/-- The data of the messages that were posted. -/
def data (q : MessageQueue) : List MessageData := q.posted.filterMap Message.pdata

def gotten (q : MessageQueue) : List MessageData := q.log.filterMap QueueEvent.gotten?
def handed (q : MessageQueue) : List MessageData := q.log.filterMap QueueEvent.handed?
def deleted (q : MessageQueue) : List MessageData := q.log.filterMap QueueEvent.deleted?

/-- The data that was posted is returned, handed over or deleted, once; what was to be disposed
of is deleted, once. -/
structure Released (q : MessageQueue) : Prop where
  data : ∀ d ∈ q.data, (q.gotten ++ q.handed ++ q.deleted).count d = 1
  disposed : ∀ m ∈ q.posted, m.message_id = MQID_DISPOSE →
    ∀ doomed, m.pdata = some (.disposeData doomed) → q.deleted.count (.disposeData doomed) = 1

/-- No dispose message was skipped, and none was handed over. -/
structure Kept (q : MessageQueue) : Prop where
  dropped : ∀ m, .dropped m ∉ q.log
  handed : ∀ m phandler id, .removed m phandler id true ∈ q.log → m.message_id ≠ MQID_DISPOSE

/-- Of what left the queue, all the data went somewhere. -/
theorem count_log {log : List QueueEvent} (h : ∀ m, .dropped m ∉ log) (d : MessageData) :
    ((log.filterMap QueueEvent.gone?).filterMap Message.pdata).count d =
      (log.filterMap QueueEvent.gotten? ++ log.filterMap QueueEvent.handed? ++
        log.filterMap QueueEvent.deleted?).count d := by
  induction log with
  | nil => rfl
  | cons ev rest ih =>
    have hrest := ih fun m hm => h m (List.mem_cons_of_mem ev hm)
    simp only [List.count_append, List.filterMap_cons] at hrest ⊢
    cases ev with
    | returned m =>
      cases hm : m.pdata with
      | none => simpa [QueueEvent.gone?, QueueEvent.gotten?, QueueEvent.handed?,
          QueueEvent.deleted?, hm] using hrest
      | some x =>
        simp only [QueueEvent.gone?, QueueEvent.gotten?, QueueEvent.handed?, QueueEvent.deleted?,
          List.filterMap_cons, hm, List.count_cons]
        omega
    | removed m phandler id handed =>
      cases hm : m.pdata with
      | none => cases handed <;> simpa [QueueEvent.gone?, QueueEvent.gotten?, QueueEvent.handed?,
          QueueEvent.deleted?, hm] using hrest
      | some x =>
        cases handed <;> simp only [QueueEvent.gone?, QueueEvent.gotten?, QueueEvent.handed?,
          QueueEvent.deleted?, List.filterMap_cons, hm, List.count_cons] <;> omega
    | dropped m => exact absurd List.mem_cons_self (h m)
    | posted | readied | cleared => exact hrest

/-- When all the messages are gone, so is their data. -/
theorem Kept.released (hkept : Kept q) (hcounted : Counted q) (hrecorded : Recorded q)
    (hempty : q.pending = []) (hown : q.data.Nodup) : Released q := by
  have hperm : q.posted.Perm q.gone := by
    refine List.perm_iff_count.2 fun m => ?_
    rw [hcounted.count m, hempty, List.count_nil, Nat.zero_add]
  have hdata : ∀ d ∈ q.data, (q.gotten ++ q.handed ++ q.deleted).count d = 1 := by
    intro d hd
    have hcount := (hperm.filterMap Message.pdata).count_eq d
    rw [gone, count_log hkept.dropped d] at hcount
    exact hcount.symm.trans (List.count_eq_one_of_mem hown hd)
  refine ⟨hdata, fun m hm hdispose doomed hpdata => ?_⟩
  have hd : .disposeData doomed ∈ q.data := List.mem_filterMap.2 ⟨m, hm, hpdata⟩
  have hone := hdata _ hd
  obtain ⟨ev, hev, hgone⟩ := List.mem_filterMap.1 (hperm.subset hm)
  have hdeleted : .disposeData doomed ∈ q.deleted := by
    cases ev with
    | returned m' =>
      obtain rfl := Option.some.inj hgone
      exact absurd hdispose (hrecorded.returned _ hev)
    | dropped m' => exact absurd hev (hkept.dropped m')
    | removed m' phandler id handed =>
      obtain rfl := Option.some.inj hgone
      cases handed with
      | true => exact absurd hdispose (hkept.handed _ _ _ hev)
      | false => exact List.mem_filterMap.2 ⟨_, hev, hpdata⟩
    | posted | readied | cleared => cases hgone
  have hpos := List.count_pos_iff.2 hdeleted
  rw [List.count_append] at hone
  omega

/-! ## 2. The functions -/

/-- The messages that `Get` has to choose from at the time `msCurrent`. -/
def upcoming (q : MessageQueue) (msCurrent : UInt32) : List Message :=
  q.msgq_ ++ (q.dmsgq_.takeWhile fun (d : DelayedMessage) =>
    !TimeIsLater msCurrent d.msTrigger_).map DelayedMessage.msg_

/-- Nothing is recorded but messages that become ready. -/
theorem readyDelayed_log (l : List DelayedMessage) (q : MessageQueue) (msCurrent : UInt32) :
    ∃ evs, (q.readyDelayed msCurrent l).1.log = q.log ++ evs ∧
      ∀ ev ∈ evs, ∃ m n, ev = .readied m msCurrent n := by
  induction l generalizing q with
  | nil => exact ⟨[], (List.append_nil _).symm, nofun⟩
  | cons d rest ih =>
    unfold readyDelayed
    split_ifs
    · exact ⟨[], (List.append_nil _).symm, nofun⟩
    · obtain ⟨evs, hlog, hevs⟩ := ih
        ({ q with msgq_ := q.msgq_ ++ [d.msg_] }.emit (.readied d.msg_ msCurrent q.posts))
      refine ⟨.readied d.msg_ msCurrent q.posts :: evs, ?_, fun ev hev => ?_⟩
      · rw [hlog]
        simp [emit]
      · rcases List.mem_cons.1 hev with rfl | hev
        · exact ⟨_, _, rfl⟩
        · exact hevs ev hev

theorem readyDelayed_flags (l : List DelayedMessage) (q : MessageQueue) (msCurrent : UInt32) :
    (q.readyDelayed msCurrent l).1.active_ = q.active_ ∧
      (q.readyDelayed msCurrent l).1.destroyed = q.destroyed ∧
      (q.readyDelayed msCurrent l).1.posts = q.posts := by
  induction l generalizing q with
  | nil => exact ⟨rfl, rfl, rfl⟩
  | cons d rest ih =>
    unfold readyDelayed
    split_ifs
    · exact ⟨rfl, rfl, rfl⟩
    · exact ih _

theorem pull_flags (l : List Message) (q : MessageQueue) :
    (q.pull l).2.active_ = q.active_ ∧ (q.pull l).2.destroyed = q.destroyed ∧
      (q.pull l).2.posts = q.posts := by
  induction l generalizing q with
  | nil => exact ⟨rfl, rfl, rfl⟩
  | cons m rest ih =>
    unfold pull
    split_ifs
    · exact ih _
    · exact ⟨rfl, rfl, rfl⟩

/-- The loop stops at the first message, unless it is a dispose message. -/
theorem pull_log {l : List Message} (h : ∀ m ∈ l.take 1, m.message_id ≠ MQID_DISPOSE)
    (q : MessageQueue) : (q.pull l).2.log = q.log := by
  cases l with
  | nil => rfl
  | cons m rest =>
    unfold pull
    rw [if_neg (h m List.mem_cons_self)]

/-- What is recorded besides: that a message was returned. -/
theorem getLoop_log (peek : Bool) (cmsWait : Int) (msStart : UInt32) {msCurrent : UInt32}
    (h : ∀ m ∈ (q.upcoming msCurrent).take 1, m.message_id ≠ MQID_DISPOSE) :
    ∃ evs, (q.getLoop peek cmsWait msStart msCurrent).1.log = q.log ++ evs ∧
      ∀ ev ∈ evs, (∃ m n, ev = .readied m msCurrent n) ∨ ∃ m, ev = .returned m := by
  obtain ⟨evs, hlog, hevs⟩ := readyDelayed_log q.dmsgq_ q msCurrent
  have hmsgq := readyDelayed_msgq q.dmsgq_ q msCurrent
  unfold upcoming at h
  rw [← hmsgq] at h
  have hpull := pull_log h (q.readyDelayed msCurrent q.dmsgq_).1
  rw [hlog] at hpull
  unfold getLoop
  dsimp only
  generalize (q.readyDelayed msCurrent q.dmsgq_).1.pull
    (q.readyDelayed msCurrent q.dmsgq_).1.msgq_ = u at hpull
  obtain ⟨o, r⟩ := u
  have hreadied : ∀ ev ∈ evs, (∃ m n, ev = .readied m msCurrent n) ∨ ∃ m, ev = .returned m :=
    fun ev hev => Or.inl (hevs ev hev)
  cases o with
  | none =>
    dsimp only
    split_ifs <;> exact ⟨evs, hpull, hreadied⟩
  | some m =>
    cases peek with
    | true => exact ⟨evs, hpull, hreadied⟩
    | false =>
      refine ⟨evs ++ [.returned m], ?_, fun ev hev => ?_⟩
      · show r.log ++ [.returned m] = _
        rw [hpull, List.append_assoc]
      · rcases List.mem_append.1 hev with hev | hev
        · exact hreadied ev hev
        · exact Or.inr ⟨m, List.mem_singleton.1 hev⟩

theorem getLoop_flags (q : MessageQueue) (peek : Bool) (cmsWait : Int)
    (msStart msCurrent : UInt32) :
    (q.getLoop peek cmsWait msStart msCurrent).1.active_ = q.active_ ∧
      (q.getLoop peek cmsWait msStart msCurrent).1.destroyed = q.destroyed ∧
      (q.getLoop peek cmsWait msStart msCurrent).1.posts = q.posts := by
  have hready := readyDelayed_flags q.dmsgq_ q msCurrent
  have hpull := pull_flags (q.readyDelayed msCurrent q.dmsgq_).1.msgq_
    (q.readyDelayed msCurrent q.dmsgq_).1
  rw [hready.1, hready.2.1, hready.2.2] at hpull
  unfold getLoop
  dsimp only
  generalize (q.readyDelayed msCurrent q.dmsgq_).1.pull
    (q.readyDelayed msCurrent q.dmsgq_).1.msgq_ = u at hpull
  obtain ⟨o, r⟩ := u
  cases o with
  | none =>
    dsimp only
    split_ifs <;> exact hpull
  | some m => cases peek <;> exact hpull

/-- The destructor clears every message, when there ever was one. -/
theorem destroy_pending (h : q.active_ = false → q.pending = []) : q.destroy.pending = [] := by
  unfold destroy
  dsimp only
  by_cases hactive : q.active_ = true
  · rw [if_pos hactive]
    show (q.clear none MQID_ANY false).pending = []
    rw [clear_pending]
    exact List.filter_eq_nil_iff.2 fun m _ => by simp [Message.Match]
  · rw [if_neg hactive]
    exact h (Bool.eq_false_iff.2 hactive)

/-- A function records what `Kept` does not mind. -/
theorem Kept.extend {evs : List QueueEvent} (h : Kept q) (hlog : q'.log = q.log ++ evs)
    (hdropped : ∀ m, .dropped m ∉ evs)
    (hhanded : ∀ m phandler id, .removed m phandler id true ∈ evs → m.message_id ≠ MQID_DISPOSE) :
    Kept q' := by
  constructor
  · intro m hm
    rw [hlog] at hm
    exact (List.mem_append.1 hm).elim (h.dropped m) (hdropped m)
  · intro m phandler id hm
    rw [hlog] at hm
    exact (List.mem_append.1 hm).elim (h.handed m phandler id) (hhanded m phandler id)

theorem Kept.clear (h : Kept q) (phandler : Handler) (id : UInt32) (removed : Bool)
    (hclear : removed = true → ∀ m ∈ q.pending, m.Match phandler id = true →
      m.message_id ≠ MQID_DISPOSE) : Kept (q.clear phandler id removed) := by
  have hlog : (q.clear phandler id removed).log = q.log ++
      ((q.pending.filter fun m => m.Match phandler id).map
        (fun m => .removed m phandler id removed) ++ [.cleared phandler id q.posts]) := by
    rw [(clear_eq q phandler id removed).2]
  refine h.extend hlog (fun m hm => ?_) fun m hd id' hm => ?_
  · simp at hm
  · simp only [List.mem_append, List.mem_map, List.mem_filter, List.mem_singleton,
      reduceCtorEq, or_false] at hm
    obtain ⟨x, ⟨hx, hmatch⟩, heq⟩ := hm
    obtain ⟨rfl, -, -, hremoved⟩ := QueueEvent.removed.inj heq
    exact hclear hremoved x hx hmatch

end MessageQueue

/-! ## 3. The runs -/

open MessageQueue

/-- The message that `Get` takes off the queue next, and those that `Clear` hands over. -/
def QueueConf.taken (c : QueueConf) : Act QueueCall Bool → List Message
  | .tick =>
    match c.control with
    | .get _ _ _ msCurrent :: _ => (c.state.upcoming msCurrent).take 1
    | _ => []
  | .call (.clear phandler id true) => c.state.pending.filter fun m => m.Match phandler id
  | _ => []

/-- The step takes no dispose message. -/
def KeepsDisposed (c : QueueConf) (a : Act QueueCall Bool) : Prop :=
  a.Allowed (QueueRules AnyClock) c ∧ ∀ m ∈ c.taken a, m.message_id ≠ MQID_DISPOSE

instance (c : QueueConf) (a : Act QueueCall Bool) : Decidable (KeepsDisposed c a) :=
  inferInstanceAs (Decidable (_ ∧ ∀ m ∈ c.taken a, _))

/-- A queue that was never active has had no messages, and one that was destroyed has none. -/
structure Ending (c : QueueConf) : Prop where
  idle : c.state.active_ = false → c.state.posts = 0
  gone : c.state.destroyed = true → c.control = [] ∧ c.state.pending = []

theorem enter_kept {c : QueueConf} {m : QueueCall} (hK : KeepsDisposed c (.call m))
    (h : Kept c.state) : Kept (c.state.enter m).1 := by
  obtain ⟨hG, hclear⟩ := hK
  have hposted : ∀ x : Message, (∀ m, QueueEvent.dropped m ∉ [QueueEvent.posted x]) ∧
      ∀ m phandler id, QueueEvent.removed m phandler id true ∈ [QueueEvent.posted x] →
        m.message_id ≠ MQID_DISPOSE := fun x => ⟨by simp, by simp⟩
  have hpost : ∀ phandler id pdata time_sensitive,
      Kept (c.state.post phandler id pdata time_sensitive) := by
    intro phandler id pdata time_sensitive
    unfold post
    by_cases hstop : c.state.fStop_ = true
    · rw [if_pos hstop]
      exact h
    · rw [if_neg hstop]
      exact h.extend rfl (hposted _).1 (hposted _).2
  have hdelay : ∀ tstamp phandler id pdata posting,
      Kept (c.state.doDelayPost tstamp phandler id pdata posting) := by
    intro tstamp phandler id pdata posting
    unfold doDelayPost
    split_ifs
    · exact h
    · exact h.extend rfl (hposted _).1 (hposted _).2
  cases m with
  | post phandler id pdata time_sensitive => exact hpost phandler id pdata time_sensitive
  | postDelayed cmsDelay phandler id pdata => exact hdelay _ phandler id pdata _
  | postAt tstamp phandler id pdata => exact hdelay tstamp phandler id pdata _
  | dispose doomed => exact hpost _ _ _ _
  | get cmsWait =>
    unfold enter
    dsimp only
    split_ifs
    · exact Kept.extend h rfl (by simp) (by simp)
    · exact h
  | peek cmsWait =>
    unfold enter
    dsimp only
    split_ifs <;> exact h
  | clear phandler id removed =>
    refine h.clear phandler id removed fun hremoved => ?_
    cases hremoved
    exact fun m hm hmatch => hclear m (List.mem_filter.2 ⟨hm, hmatch⟩)
  | quit | restart | clock => exact ⟨h.dropped, h.handed⟩
  | destroy =>
    show Kept c.state.destroy
    unfold destroy
    dsimp only
    split_ifs
    · have hcleared := h.clear none MQID_ANY false nofun
      exact ⟨hcleared.dropped, hcleared.handed⟩
    · exact ⟨h.dropped, h.handed⟩

theorem kept_run {c : QueueConf} (h : messageQueue.ReachesWhen KeepsDisposed QueueConf.init c) :
    Kept c.state := by
  refine ReachesWhen.invariant (I := fun c => Kept c.state) h ⟨nofun, nofun⟩
    fun c a c' _ hI hK hs => ?_
  rcases step_cases hs with ⟨x, rest, r, rfl, hc, hf, hr, rfl⟩ | ⟨m, rfl, hw, rfl⟩ |
    ⟨ok, x, rest, rfl, hc, hf, rfl⟩
  · cases x with
    | wait peek cmsWait msStart next => cases hf
    | get peek cmsWait msStart msCurrent =>
      obtain rfl := Option.some.inj hr
      have hnext := hK.2
      unfold QueueConf.taken at hnext
      rw [hc] at hnext
      dsimp only at hnext
      obtain ⟨evs, hlog, hevs⟩ := getLoop_log peek cmsWait msStart hnext
      refine hI.extend hlog (fun m hm => ?_) fun m phandler id hm => ?_
      · rcases hevs _ hm with ⟨_, _, heq⟩ | ⟨_, heq⟩ <;> cases heq
      · rcases hevs _ hm with ⟨_, _, heq⟩ | ⟨_, heq⟩ <;> cases heq
  · exact enter_kept hK hI
  · have hsame : (messageQueue.resume c.state x ok).1 = c.state := resume_moves c.state x ok
    rw [hsame]
    exact hI

/-- Nothing is destroyed, and a queue that was never active has had no messages. -/
def Stays (q q' : MessageQueue) : Prop :=
  q'.destroyed = q.destroyed ∧
    ((q.active_ = false → q.posts = 0) → q'.active_ = false → q'.posts = 0)

/-- No call but the destructor destroys. -/
theorem enter_flags (q : MessageQueue) {m : QueueCall} (hm : m ≠ .destroy) :
    Stays q (q.enter m).1 := by
  have hpost : ∀ phandler id pdata time_sensitive,
      Stays q (q.post phandler id pdata time_sensitive) := by
    intro phandler id pdata time_sensitive
    unfold post
    by_cases hstop : q.fStop_ = true
    · rw [if_pos hstop]
      exact ⟨rfl, fun h => h⟩
    · rw [if_neg hstop]
      exact ⟨rfl, nofun⟩
  have hdelay : ∀ tstamp phandler id pdata posting,
      Stays q (q.doDelayPost tstamp phandler id pdata posting) := by
    intro tstamp phandler id pdata posting
    unfold doDelayPost
    split_ifs
    · exact ⟨rfl, fun h => h⟩
    · exact ⟨rfl, nofun⟩
  cases m with
  | post phandler id pdata time_sensitive => exact hpost phandler id pdata time_sensitive
  | postDelayed cmsDelay phandler id pdata => exact hdelay _ phandler id pdata _
  | postAt tstamp phandler id pdata => exact hdelay tstamp phandler id pdata _
  | dispose doomed => exact hpost _ _ _ _
  | get | peek =>
    unfold enter
    dsimp only
    split_ifs <;> exact ⟨rfl, fun h => h⟩
  | clear phandler id removed =>
    show Stays q (q.clear phandler id removed)
    rw [(clear_eq q phandler id removed).2]
    exact ⟨rfl, fun h => h⟩
  | quit | restart | clock => exact ⟨rfl, fun h => h⟩
  | destroy => exact absurd rfl hm

theorem destroy_flags (q : MessageQueue) :
    q.destroy.active_ = q.active_ ∧ q.destroy.posts = q.posts := by
  unfold destroy
  dsimp only
  split_ifs
  · rw [(clear_eq q none MQID_ANY false).2]
    exact ⟨rfl, rfl⟩
  · exact ⟨rfl, rfl⟩

theorem moves_counted {C : Clock} {q : MessageQueue} (h : Moves C MessageQueue.init q) :
    Counted q ∧ Recorded q := by
  induction h with
  | refl => exact ⟨⟨fun _ => rfl, rfl⟩, ⟨nofun, nofun, nofun, nofun⟩⟩
  | tail _ hmove ih => exact ⟨hmove.counted ih.1, hmove.recorded ih.2⟩

theorem ending_run {c : QueueConf}
    (h : messageQueue.Reaches (QueueRules AnyClock) QueueConf.init c) : Ending c := by
  refine Reaches.invariant h ⟨fun _ => rfl, nofun⟩ fun c a c' hreach hI hG hs => ?_
  rcases step_cases hs with ⟨x, rest, r, rfl, hc, hf, hr, rfl⟩ | ⟨m, rfl, hw, rfl⟩ |
    ⟨ok, x, rest, rfl, hc, hf, rfl⟩
  · cases x with
    | wait peek cmsWait msStart next => cases hf
    | get peek cmsWait msStart msCurrent =>
      obtain rfl := Option.some.inj hr
      obtain ⟨hactive, hdestroyed, hposts⟩ := getLoop_flags c.state peek cmsWait msStart msCurrent
      refine ⟨?_, fun hd => ?_⟩
      · rw [hactive, hposts]
        exact hI.idle
      · have hnil := (hI.gone (hdestroyed.symm.trans hd)).1
        rw [hc] at hnil
        cases hnil
  · obtain ⟨halive, hexclusive, -⟩ := hG m rfl
    by_cases hm : m = .destroy
    · subst hm
      have hpending : c.state.active_ = false → c.state.pending = [] := by
        intro hactive
        have hcounted := (moves_counted (reaches_moves hreach).2).1
        refine List.eq_nil_iff_forall_not_mem.2 fun x hx => ?_
        have hbound := hcounted.bound (Or.inl hx)
        rw [hI.idle hactive] at hbound
        exact Nat.not_lt_zero _ hbound
      obtain ⟨hactive, hposts⟩ := destroy_flags c.state
      refine ⟨?_, fun _ => ⟨?_, destroy_pending hpending⟩⟩
      · show c.state.destroy.active_ = false → c.state.destroy.posts = 0
        rw [hactive, hposts]
        exact hI.idle
      · show [] ++ c.control = []
        rw [hexclusive rfl]
        rfl
    · obtain ⟨hdestroyed, hidle⟩ := enter_flags c.state hm
      refine ⟨hidle hI.idle, fun hd => ?_⟩
      have hd' := hdestroyed.symm.trans hd
      rw [halive] at hd'
      cases hd'
  · have hsame : (messageQueue.resume c.state x ok).1 = c.state := resume_moves c.state x ok
    refine ⟨by rw [hsame]; exact hI.idle, fun hd => ?_⟩
    rw [hsame] at hd
    have hnil := (hI.gone hd).1
    rw [hc] at hnil
    cases hnil

/-- In every run in which no dispose message comes to `Get` or into a removed list, all the data
is released by the end of the destructor. -/
theorem data_release {c : QueueConf}
    (h : messageQueue.ReachesWhen KeepsDisposed QueueConf.init c)
    (hown : c.state.data.Nodup) (hdestroyed : c.state.destroyed = true) : Released c.state := by
  have hreach := ReachesWhen.reaches (fun _ _ hK => hK.1) h
  obtain ⟨hcounted, hrecorded⟩ := moves_counted (reaches_moves hreach).2
  exact (kept_run h).released hcounted hrecorded ((ending_run hreach).gone hdestroyed).2 hown

/-- Of four objects with a message one is returned, one handed over, and two are deleted by the
destructor, with the doomed one. -/
theorem data_release_four : ∃ c, messageQueue.ReachesWhen KeepsDisposed QueueConf.init c ∧
    c.state.deleted = [.disposeData 7, .plain 3] ∧ Released c.state := by
  obtain ⟨c, hc, hp⟩ := exists_of_follow (P := messageQueue) (K := KeepsDisposed)
    (c := QueueConf.init)
    (l := [.call (.post (some 1) 1 (some (.plain 1)) false), .call (.dispose 7),
      .call (.postDelayed 50 (some 2) 2 (some (.plain 2))),
      .call (.postDelayed 60 (some 3) 3 (some (.plain 3))), .call (.peek 0), .tick,
      .call (.clear (some 2) MQID_ANY true), .call (.get 0), .call .destroy])
    (p := fun c => decide (c.state.deleted = [.disposeData 7, .plain 3]) &&
      (decide c.state.data.Nodup && c.state.destroyed)) (by decide +kernel)
  simp only [Bool.and_eq_true, decide_eq_true_eq] at hp
  exact ⟨c, hc, hp.1, data_release hc hp.2.1 hp.2.2⟩

/-- An object is to be disposed of, and `Get` is called once. It is not deleted. -/
theorem data_release_leak : ¬∀ c,
    messageQueue.Reaches (QueueRules AnyClock) QueueConf.init c → c.state.data.Nodup →
      c.state.destroyed = true → Released c.state := by
  intro hall
  obtain ⟨c, hc, hp⟩ := exists_of_drive (G := QueueRules AnyClock) (P := messageQueue)
    (n := 10) (c := QueueConf.init)
    (l := [.call (.dispose 7), .call (.get 0), .ret true, .call .destroy])
    (p := fun c => c.state.destroyed && (decide (c.state.data = [.disposeData 7]) &&
      (c.state.gotten ++ c.state.handed ++ c.state.deleted).isEmpty)) (by decide +kernel)
  simp only [Bool.and_eq_true, decide_eq_true_eq, List.isEmpty_iff] at hp
  obtain ⟨hdestroyed, hdata, hnone⟩ := hp
  have hreleased := hall c hc (by rw [hdata]; exact List.nodup_singleton _) hdestroyed
  have hone := hreleased.data (.disposeData 7) (by rw [hdata]; exact List.mem_singleton_self _)
  rw [hnone] at hone
  cases hone

end Gxmpp.TalkBase
