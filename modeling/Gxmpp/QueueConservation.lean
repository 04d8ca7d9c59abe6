/-
Every message that was posted is in the queue, or it was returned, cleared or skipped, once.

Messages that are ready leave in the order in which they became ready: at the post, or, for a
delayed message, in the first `Get` that finds it due. So a message posted by `PostAt` with a
time that is past comes after those that have become ready, whatever their times were.
-/
import Gxmpp.QueueMoves

set_option autoImplicit false

namespace Gxmpp.TalkBase

open Reentrant

/-- The message of a post. -/
def QueueEvent.posted? : QueueEvent → Option Message
  | .posted m => some m
  | _ => none

/-- The message that leaves the queue. -/
def QueueEvent.gone? : QueueEvent → Option Message
  | .returned m | .removed m _ _ _ | .dropped m => some m
  | _ => none

def QueueEvent.returned? : QueueEvent → Option Message
  | .returned m => some m
  | _ => none

def QueueEvent.readied? : QueueEvent → Option Message
  | .readied m _ _ => some m
  | _ => none

/-- `a` is to be returned before `b`: its trigger time is earlier, or the same and it was
posted earlier. -/
def Message.Before (a b : Message) : Prop :=
  a.posting.trigger < b.posting.trigger ∨
    (a.posting.trigger = b.posting.trigger ∧ a.seq < b.seq)

namespace MessageQueue

variable {q q' : MessageQueue} {C : Clock}

def posted (q : MessageQueue) : List Message := q.log.filterMap QueueEvent.posted?
def gone (q : MessageQueue) : List Message := q.log.filterMap QueueEvent.gone?
def returned (q : MessageQueue) : List Message := q.log.filterMap QueueEvent.returned?
def readied (q : MessageQueue) : List Message := q.log.filterMap QueueEvent.readied?

/-- The messages that were returned or are ready, in their order. -/
def line (q : MessageQueue) : List Message := q.returned ++ q.peeked ++ q.msgq_

/-! ## 1. Every message is somewhere -/

/-- The posted messages, numbered, are those that are pending and those that are gone. -/
structure Counted (q : MessageQueue) : Prop where
  count : ∀ m, q.posted.count m = q.pending.count m + q.gone.count m
  seqs : q.posted.map Message.seq = List.range q.posts

theorem Counted.bound (h : Counted q) {m : Message} (hm : m ∈ q.pending ∨ m ∈ q.gone) :
    m.seq < q.posts := by
  have hcount := h.count m
  have hpos : 0 < q.posted.count m := by
    rcases hm with hm | hm
    · have := List.count_pos_iff.2 hm
      omega
    · have := List.count_pos_iff.2 hm
      omega
  have hmem := List.mem_map_of_mem (f := Message.seq) (List.count_pos_iff.1 hpos)
  rw [h.seqs, List.mem_range] at hmem
  exact hmem

/-- A move records one message that is posted, and pending then; or those that leave, which were
pending, and the end of a `Clear`, after which nothing is left that it matches. -/
inductive Books (q q' : MessageQueue) : List QueueEvent → Prop where
  | posts (m : Message) (hseq : m.seq = q.posts) (hposts : q'.posts = q.posts + 1)
      (hpending : q'.pending.Perm (m :: q.pending)) : Books q q' [.posted m]
  | passes (evs : List QueueEvent) (hposts : q'.posts = q.posts)
      (hpending : q.pending.Perm (q'.pending ++ evs.filterMap QueueEvent.gone?))
      (hposted : ∀ ev ∈ evs, ev.posted? = none)
      (hknown : ∀ phandler id n, .cleared phandler id n ∈ evs → n = q.posts ∧
        ∀ m ∈ q'.pending, m.Match phandler id = false)
      (honce : evs.Pairwise fun a _ => ∀ phandler id n, a ≠ .cleared phandler id n) :
      Books q q' evs

/-- A record that is neither that of a post nor that of a `Clear`. -/
theorem Books.one {ev : QueueEvent} (hposts : q'.posts = q.posts)
    (hpending : ∀ m, q.pending.count m = q'.pending.count m + (ev.gone?.toList).count m)
    (hposted : ev.posted? = none) (hcleared : ∀ phandler id n, ev ≠ .cleared phandler id n) :
    Books q q' [ev] := by
  refine .passes [ev] hposts (List.perm_iff_count.2 fun m => ?_)
    (List.forall_mem_singleton.2 hposted) (fun hd id n hmem => ?_) (List.pairwise_singleton _ _)
  · rw [List.count_append, hpending m]
    cases ev <;> rfl
  · exact absurd (List.mem_singleton.1 hmem).symm (hcleared hd id n)

theorem Move.books (h : Move C q q') : ∃ evs, q'.log = q.log ++ evs ∧ Books q q' evs := by
  -- nothing is recorded
  have hquiet : q'.log = q.log → q'.posts = q.posts → q.pending.Perm q'.pending →
      ∃ evs, q'.log = q.log ++ evs ∧ Books q q' evs := fun hlog hposts hpending =>
    ⟨[], hlog.trans (List.append_nil _).symm, .passes [] hposts
      (hpending.trans (List.Perm.of_eq (List.append_nil _).symm)) nofun nofun .nil⟩
  cases h with
  | flags fStop_ active_ destroyed now h => exact hquiet rfl rfl (List.Perm.refl _)
  | posts m hseq himmediate =>
    refine ⟨_, rfl, .posts m hseq rfl (List.perm_iff_count.2 fun x => ?_)⟩
    simp only [pending, peeked, List.count_append, List.count_cons, List.count_nil]
    omega
  | delays d hseq hnum hposting htrigger hdelay =>
    refine ⟨_, rfl, .posts d.msg_ hseq rfl (List.perm_iff_count.2 fun x => ?_)⟩
    have hperm := ((List.perm_orderedInsert above d q.dmsgq_).map DelayedMessage.msg_).count_eq x
    simp only [pending, peeked, List.count_append, hperm, List.map_cons, List.count_cons]
    omega
  | readies d rest h hdue =>
    refine ⟨_, rfl, .one rfl (fun x => ?_) rfl nofun⟩
    simp only [pending, peeked, List.count_append, h, List.map_cons, List.count_cons,
      List.count_nil, QueueEvent.gone?, Option.toList]
    omega
  | drops m rest h | returns m rest h =>
    refine ⟨_, rfl, .one rfl (fun x => ?_) rfl nofun⟩
    simp only [pending, peeked, List.count_append, h, List.count_cons, List.count_nil,
      QueueEvent.gone?, Option.toList]
    omega
  | peeks m rest h hpeek hdispose =>
    refine hquiet rfl rfl (List.Perm.of_eq ?_)
    simp [pending, peeked, hpeek, h]
  | returnsPeek hpeek =>
    refine ⟨_, rfl, .one rfl (fun x => ?_) rfl nofun⟩
    simp only [pending, peeked, hpeek, Bool.false_eq_true, if_false, if_true, List.count_append,
      List.count_nil, QueueEvent.gone?, Option.toList]
    omega
  | clears phandler id removed =>
    obtain ⟨-, heq⟩ := clear_eq q phandler id removed
    have hpending := clear_pending q phandler id removed
    refine ⟨_, by rw [heq], .passes _ (by rw [heq]) ?_ ?_ (fun hd id' n hmem => ?_) ?_⟩
    · rw [hpending]
      simp only [List.filterMap_append, List.filterMap_map, Function.comp_def, QueueEvent.gone?,
        List.filterMap_some, List.filterMap_cons, List.filterMap_nil, List.append_nil]
      refine (List.filter_append_perm (fun m : Message => m.Match phandler id) _).symm.trans ?_
      exact List.perm_append_comm
    · exact List.forall_mem_append.2
        ⟨List.forall_mem_map.2 fun _ _ => rfl, List.forall_mem_singleton.2 rfl⟩
    · obtain ⟨rfl, rfl, rfl⟩ : hd = phandler ∧ id' = id ∧ n = q.posts := by simpa using hmem
      refine ⟨rfl, fun m hm => ?_⟩
      rw [hpending] at hm
      exact Bool.not_eq_true' _ ▸ (List.mem_filter.1 hm).2
    · rw [List.pairwise_append]
      have hfirst : ∀ ev ∈ (q.pending.filter fun m => m.Match phandler id).map
          (fun m => QueueEvent.removed m phandler id removed),
          ∀ hd id n, ev ≠ .cleared hd id n := List.forall_mem_map.2 fun _ _ => nofun
      exact ⟨List.pairwise_of_forall_mem_list fun a ha _ _ => hfirst a ha,
        List.pairwise_singleton _ _, fun a ha _ _ => hfirst a ha⟩

theorem Move.counted (h : Move C q q') (hq : Counted q) : Counted q' := by
  obtain ⟨evs, hlog, hbooks⟩ := h.books
  have hposted : q'.posted = q.posted ++ evs.filterMap QueueEvent.posted? := by
    rw [posted, hlog, List.filterMap_append]
    rfl
  have hgone : q'.gone = q.gone ++ evs.filterMap QueueEvent.gone? := by
    rw [gone, hlog, List.filterMap_append]
    rfl
  cases hbooks with
  | posts m hseq hposts hpending =>
    refine ⟨fun x => ?_, ?_⟩
    · have hx := hq.count x
      have hperm := hpending.count_eq x
      rw [hposted, hgone, List.count_append, List.count_append, hperm, hx]
      simp only [List.filterMap_cons, List.filterMap_nil, QueueEvent.posted?, QueueEvent.gone?,
        List.count_cons, List.count_nil]
      omega
    · rw [hposted, hposts, List.map_append, hq.seqs, List.range_succ, ← hseq]
      rfl
  | passes _ hposts hpending hnone hknown honce =>
    rw [List.filterMap_eq_nil_iff.2 hnone, List.append_nil] at hposted
    refine ⟨fun x => ?_, ?_⟩
    · have hx := hq.count x
      have hperm := hpending.count_eq x
      rw [List.count_append] at hperm
      rw [hposted, hgone, List.count_append]
      omega
    · rw [hposted, hposts]
      exact hq.seqs

/-! ## 2. The line -/

/-- What a move does to the line and to the delayed messages that have become ready. -/
theorem Move.line_cases (h : Move C q q') :
    (q'.line.Sublist q.line ∧ q'.readied = q.readied) ∨
    (∃ m, m.seq = q.posts ∧ m.posting = .immediate ∧ q'.line = q.line ++ [m] ∧
      q'.readied = q.readied) ∨
    (∃ d, d ∈ q.dmsgq_ ∧ q'.line = q.line ++ [d.msg_] ∧
      q'.readied = q.readied ++ [d.msg_]) := by
  cases h with
  | flags fStop_ active_ destroyed now h => exact Or.inl ⟨List.Sublist.refl _, rfl⟩
  | posts m hseq himmediate =>
    refine Or.inr (Or.inl ⟨m, hseq, himmediate, ?_, ?_⟩)
    · simp [line, returned, peeked, List.filterMap_cons, QueueEvent.returned?]
    · simp [readied, List.filterMap_cons, QueueEvent.readied?]
  | delays d hseq hnum hposting htrigger hdelay =>
    refine Or.inl ⟨?_, ?_⟩
    · simp [line, returned, peeked, List.filterMap_cons, QueueEvent.returned?]
    · simp [readied, List.filterMap_cons, QueueEvent.readied?]
  | readies d rest h hdue =>
    refine Or.inr (Or.inr ⟨d, by rw [h]; exact List.mem_cons_self, ?_, ?_⟩)
    · simp [line, returned, peeked, List.filterMap_cons, QueueEvent.returned?]
    · simp [readied, QueueEvent.readied?]
  | drops m rest h hdispose =>
    refine Or.inl ⟨?_, ?_⟩
    · simp [line, returned, peeked, List.filterMap_cons, QueueEvent.returned?, h]
    · simp [readied, List.filterMap_cons, QueueEvent.readied?]
  | returns m rest h hpeek hdispose =>
    refine Or.inl ⟨?_, ?_⟩
    · simp [line, returned, peeked, QueueEvent.returned?, h, hpeek]
    · simp [readied, List.filterMap_cons, QueueEvent.readied?]
  | peeks m rest h hpeek hdispose =>
    refine Or.inl ⟨?_, rfl⟩
    simp [line, returned, peeked, h, hpeek]
  | returnsPeek hpeek =>
    refine Or.inl ⟨?_, ?_⟩
    · simp [line, returned, peeked, QueueEvent.returned?, hpeek]
    · simp [readied, List.filterMap_cons, QueueEvent.readied?]
  | clears phandler id removed =>
    obtain ⟨hpeeked, heq⟩ := clear_eq q phandler id removed
    refine Or.inl ⟨?_, ?_⟩
    · have hreturned : (q.clear phandler id removed).returned = q.returned := by
        rw [heq]
        simp [returned, QueueEvent.returned?, List.filterMap_map, Function.comp_def]
      have hmsgq : (q.clear phandler id removed).msgq_ =
        q.msgq_.filter fun (m : Message) => !m.Match phandler id := by rw [heq]
      unfold line
      rw [hreturned, hpeeked, hmsgq]
      exact ((List.Sublist.refl _).append List.filter_sublist).append List.filter_sublist
    · rw [heq]
      simp [readied, QueueEvent.readied?, List.filterMap_map, Function.comp_def]

/-- The line is in order: the messages posted at once by their numbers, the delayed ones as
they became ready. -/
structure Lined (q : MessageQueue) : Prop where
  immediate : (q.line.filter fun m => !m.isDelayed).Pairwise fun a b => a.seq < b.seq
  delayed : (q.line.filter Message.isDelayed).Sublist q.readied

theorem Counted.line_bound (h : Counted q) {m : Message} (hm : m ∈ q.line) : m.seq < q.posts := by
  refine h.bound ?_
  unfold line at hm
  rcases List.mem_append.1 hm with hm | hm
  · rcases List.mem_append.1 hm with hm | hm
    · refine Or.inr ?_
      unfold returned at hm
      obtain ⟨ev, hev, hret⟩ := List.mem_filterMap.1 hm
      refine List.mem_filterMap.2 ⟨ev, hev, ?_⟩
      cases ev <;> first | exact hret | cases hret
    · exact Or.inl (List.mem_append_left _ (List.mem_append_left _ hm))
  · exact Or.inl (List.mem_append_left _ (List.mem_append_right _ hm))

theorem Move.lined (h : Move C q q') (hc : Counted q)
    (hwaiting : ∀ d ∈ q.dmsgq_, d.msg_.posting ≠ .immediate) (hq : Lined q) : Lined q' := by
  rcases h.line_cases with ⟨hline, hreadied⟩ | ⟨m, hseq, himmediate, hline, hreadied⟩ |
    ⟨d, hd, hline, hreadied⟩
  · exact ⟨hq.immediate.sublist (hline.filter _), hreadied ▸ (hline.filter _).trans hq.delayed⟩
  · have hnot : m.isDelayed = false := by simp [Message.isDelayed, himmediate]
    refine ⟨?_, ?_⟩
    · rw [hline, List.filter_append, List.filter_cons_of_pos (by rw [hnot]; rfl), List.filter_nil]
      refine List.pairwise_append.2 ⟨hq.immediate, List.pairwise_singleton _ _, fun a ha b hb => ?_⟩
      rw [List.mem_singleton.1 hb, hseq]
      exact hc.line_bound (List.mem_filter.1 ha).1
    · rw [hline, List.filter_append, List.filter_cons_of_neg (by rw [hnot]; exact
        Bool.false_ne_true), List.filter_nil, List.append_nil, hreadied]
      exact hq.delayed
  · have hdelayed : d.msg_.isDelayed = true := by simp [Message.isDelayed, hwaiting d hd]
    refine ⟨?_, ?_⟩
    · rw [hline, List.filter_append, List.filter_cons_of_neg (by rw [hdelayed]; decide),
        List.filter_nil, List.append_nil]
      exact hq.immediate
    · rw [hline, hreadied, List.filter_append, List.filter_cons_of_pos hdelayed, List.filter_nil]
      exact hq.delayed.append (List.Sublist.refl _)

/-! ## 3. The delayed messages -/

/-- The priority queue is in the order of the trigger times. -/
structure Heaped (q : MessageQueue) : Prop where
  waiting : ∀ d ∈ q.dmsgq_, d.msg_.posting ≠ .immediate ∧
    d.msTrigger_ = d.msg_.posting.trigger ∧ d.num_ < q.dmsgq_next_num_ ∧ d.msg_.seq < q.posts
  sorted : q.dmsgq_.Pairwise fun d e => d.msg_.Before e.msg_

/-- A new message goes behind those with its trigger time. -/
theorem orderedInsert_sorted {d : DelayedMessage} {l : List DelayedMessage}
    (htrigger : d.msTrigger_ = d.msg_.posting.trigger)
    (hl : ∀ e ∈ l, e.msTrigger_ = e.msg_.posting.trigger ∧ e.num_ < d.num_ ∧
      e.msg_.seq < d.msg_.seq)
    (hsorted : l.Pairwise fun d e => d.msg_.Before e.msg_) :
    (l.orderedInsert above d).Pairwise fun d e => d.msg_.Before e.msg_ := by
  induction l with
  | nil => exact List.pairwise_singleton _ _
  | cons e rest ih =>
    obtain ⟨hfirst, hrest⟩ := List.pairwise_cons.1 hsorted
    obtain ⟨hetrigger, hnum, hseq⟩ := hl e List.mem_cons_self
    by_cases habove : above d e
    · rw [List.orderedInsert_cons_of_le _ _ habove]
      -- `e` does not come before it, so its trigger time is earlier
      have hbefore : d.msg_.Before e.msg_ := by
        refine Or.inl ?_
        rw [← htrigger, ← hetrigger]
        have hlt : ¬e.msTrigger_ < d.msTrigger_ ∧ ¬(e.msTrigger_ = d.msTrigger_ ∧ e.num_ < d.num_) := by
          simpa [DelayedMessage.lt, not_or] using habove
        refine UInt32.lt_of_le_of_ne (UInt32.not_lt.1 hlt.1) fun heq => hlt.2 ⟨heq.symm, hnum⟩
      refine List.pairwise_cons.2 ⟨fun x hx => ?_, hsorted⟩
      rcases List.mem_cons.1 hx with rfl | hx
      · exact hbefore
      · have hex := hfirst x hx
        rcases hbefore with hlt | ⟨-, hlt⟩
        · rcases hex with hex | ⟨hex, -⟩
          · exact Or.inl (UInt32.lt_trans hlt hex)
          · exact Or.inl (hex ▸ hlt)
        · exact absurd hlt (Nat.lt_asymm hseq)
    · rw [List.orderedInsert_of_not_le _ _ habove]
      have hbefore : e.msg_.Before d.msg_ := by
        unfold Message.Before
        rw [← htrigger, ← hetrigger]
        have hlt := not_not.1 habove
        simp only [DelayedMessage.lt, Bool.or_eq_true, Bool.and_eq_true, decide_eq_true_eq] at hlt
        exact hlt.imp_right fun heq => ⟨heq.1, hseq⟩
      refine List.pairwise_cons.2 ⟨fun x hx => ?_, ih (fun x hx =>
        hl x (List.mem_cons_of_mem _ hx)) hrest⟩
      rcases (List.mem_orderedInsert above).1 hx with rfl | hx
      · exact hbefore
      · exact hfirst x hx

theorem Move.heaped (h : Move C q q') (hq : Heaped q) : Heaped q' := by
  cases h with
  | posts m hseq himmediate =>
    refine ⟨fun d hd => ?_, hq.sorted⟩
    obtain ⟨h1, h2, h3, h4⟩ := hq.waiting d hd
    exact ⟨h1, h2, h3, Nat.lt_succ_of_lt h4⟩
  | delays d hseq hnum hposting htrigger hdelay =>
    refine ⟨fun e he => ?_, orderedInsert_sorted htrigger (fun e he => ?_) hq.sorted⟩
    · rcases (List.mem_orderedInsert above).1 he with rfl | he
      · exact ⟨hposting, htrigger, hnum ▸ Nat.lt_succ_self _, hseq ▸ Nat.lt_succ_self _⟩
      · obtain ⟨h1, h2, h3, h4⟩ := hq.waiting e he
        exact ⟨h1, h2, Nat.lt_succ_of_lt h3, Nat.lt_succ_of_lt h4⟩
    · obtain ⟨-, h2, h3, h4⟩ := hq.waiting e he
      exact ⟨h2, hnum ▸ h3, hseq ▸ h4⟩
  | readies d rest h hdue =>
    have hsorted := hq.sorted
    rw [h] at hsorted
    exact ⟨fun e he => hq.waiting e (by rw [h]; exact List.mem_cons_of_mem d he),
      (List.pairwise_cons.1 hsorted).2⟩
  | clears phandler id removed =>
    obtain ⟨-, heq⟩ := clear_eq q phandler id removed
    rw [heq]
    exact ⟨fun e he => hq.waiting e (List.mem_filter.1 he).1, hq.sorted.sublist List.filter_sublist⟩
  | _ => exact ⟨hq.waiting, hq.sorted⟩

/-- Delayed messages become ready when they are due, and in their order; but a message that is
posted when another one has become ready comes after that. -/
structure Due (q : MessageQueue) : Prop where
  due : ∀ m msCurrent posts, .readied m msCurrent posts ∈ q.log →
    m.posting ≠ .immediate ∧ TimeIsLater msCurrent m.posting.trigger = false ∧ posts ≤ q.posts
  order : q.log.Pairwise fun a b => ∀ m msCurrent posts m' msCurrent' posts',
    a = .readied m msCurrent posts → b = .readied m' msCurrent' posts' →
      m.Before m' ∨ posts ≤ m'.seq
  later : ∀ m msCurrent posts, .readied m msCurrent posts ∈ q.log →
    ∀ d ∈ q.dmsgq_, m.Before d.msg_ ∨ posts ≤ d.msg_.seq

/-- Nothing that is recorded has become ready. -/
theorem Due.quiet (h : Due q) {evs : List QueueEvent} (hlog : q'.log = q.log ++ evs)
    (hevs : ∀ m msCurrent posts, .readied m msCurrent posts ∉ evs) (hposts : q.posts ≤ q'.posts)
    (hdmsgq : ∀ d ∈ q'.dmsgq_, d ∈ q.dmsgq_ ∨ q.posts ≤ d.msg_.seq) : Due q' := by
  have hold : ∀ {m msCurrent posts}, .readied m msCurrent posts ∈ q'.log →
      .readied m msCurrent posts ∈ q.log := by
    intro m msCurrent posts hm
    rw [hlog] at hm
    exact (List.mem_append.1 hm).resolve_right (hevs m msCurrent posts)
  refine ⟨fun m t n hm => ?_, ?_, fun m t n hm d hd => ?_⟩
  · obtain ⟨h1, h2, h3⟩ := h.due m t n (hold hm)
    exact ⟨h1, h2, Nat.le_trans h3 hposts⟩
  · rw [hlog]
    refine List.pairwise_append.2 ⟨h.order, ?_, fun a ha b hb m t n m' t' n' _ hb' => ?_⟩
    · refine List.Pairwise.imp_of_mem (R := fun _ _ => True) ?_
        (List.pairwise_of_forall fun _ _ => trivial)
      rintro a b ha - - m t n m' t' n' rfl
      exact absurd ha (hevs m t n)
    · rw [hb'] at hb
      exact absurd hb (hevs m' t' n')
  · rcases hdmsgq d hd with hd | hseq
    · exact h.later m t n (hold hm) d hd
    · exact Or.inr (Nat.le_trans (h.due m t n (hold hm)).2.2 hseq)

theorem Move.due (h : Move C q q') (hheap : Heaped q) (hq : Due q) : Due q' := by
  cases h with
  | flags | peeks => exact { hq with }
  | posts m hseq himmediate =>
    exact hq.quiet rfl (by simp) (Nat.le_succ _) fun d hd => Or.inl hd
  | delays d hseq hnum hposting htrigger hdelay =>
    refine hq.quiet rfl (by simp) (Nat.le_succ _) fun e he => ?_
    rcases (List.mem_orderedInsert above).1 he with rfl | he
    · exact Or.inr (Nat.le_of_eq hseq.symm)
    · exact Or.inl he
  | drops | returns | returnsPeek =>
    exact hq.quiet rfl (by simp) (Nat.le_refl _) fun d hd => Or.inl hd
  | clears phandler id removed =>
    obtain ⟨-, heq⟩ := clear_eq q phandler id removed
    refine hq.quiet (by rw [heq]) (by simp) (Nat.le_of_eq (by rw [heq])) fun d hd => ?_
    rw [heq] at hd
    exact Or.inl (List.mem_filter.1 hd).1
  | readies d rest h hdue =>
    have hd : d ∈ q.dmsgq_ := by rw [h]; exact List.mem_cons_self
    obtain ⟨hposting, htrigger, -, -⟩ := hheap.waiting d hd
    have hsorted := hheap.sorted
    rw [h] at hsorted
    refine ⟨fun m t n hm => ?_, ?_, fun m t n hm e he => ?_⟩
    · rcases List.mem_append.1 hm with hm | hm
      · exact hq.due m t n hm
      · obtain ⟨rfl, rfl, rfl⟩ := QueueEvent.readied.inj (List.mem_singleton.1 hm)
        exact ⟨hposting, htrigger ▸ hdue, Nat.le_refl _⟩
    · refine List.pairwise_append.2 ⟨hq.order, List.pairwise_singleton _ _,
        fun a ha b hb m t n m' t' n' ha' hb' => ?_⟩
      rw [ha'] at ha
      rw [List.mem_singleton.1 hb] at hb'
      obtain ⟨rfl, -, -⟩ := QueueEvent.readied.inj hb'
      exact hq.later m t n ha d hd
    · rcases List.mem_append.1 hm with hm | hm
      · exact hq.later m t n hm e (by rw [h]; exact List.mem_cons_of_mem d he)
      · obtain ⟨rfl, -, -⟩ := QueueEvent.readied.inj (List.mem_singleton.1 hm)
        exact Or.inl ((List.pairwise_cons.1 hsorted).1 e he)

/-- What a message posted by `PostDelayed` has waited when it becomes ready. -/
structure Timely (q : MessageQueue) : Prop where
  clock : ∀ d ∈ q.dmsgq_, ∀ cmsDelay now, d.msg_.posting = .delayed cmsDelay now →
    cmsDelay < HALF ∧ now ≤ q.now
  waited : ∀ m msCurrent posts, .readied m msCurrent posts ∈ q.log → msCurrent ≤ q.now ∧
    ∀ cmsDelay now, m.posting = .delayed cmsDelay now →
      now.toNat + cmsDelay.toNat ≤ msCurrent.toNat

/-- If the clock has not gone back, a trigger time that is not later has been reached. -/
theorem reached_of_not_later {now cmsDelay msCurrent : UInt32} (hdelay : cmsDelay < HALF)
    (hnow : now ≤ msCurrent) (hlater : TimeIsLater msCurrent (now + cmsDelay) = false) :
    now.toNat + cmsDelay.toNat ≤ msCurrent.toNat := by
  have hnot : ¬(0 < (now + cmsDelay - msCurrent).toNat ∧
      (now + cmsDelay - msCurrent).toNat < 2 ^ 31) := by
    rw [← TimeIsLater_iff, hlater]
    exact Bool.false_ne_true
  have hdelay' : cmsDelay.toNat < 2 ^ 31 := UInt32.lt_iff_toNat_lt.1 hdelay
  have hnow' : now.toNat ≤ msCurrent.toNat := UInt32.le_iff_toNat_le.1 hnow
  have hlt := msCurrent.toNat_lt
  rw [UInt32.toNat_sub, UInt32.toNat_add] at hnot
  omega

theorem Move.timely (h : Move ForwardClock q q') (hheap : Heaped q) (hq : Timely q) :
    Timely q' := by
  have hevs : ∀ {evs : List QueueEvent}, q'.log = q.log ++ evs → q'.now = q.now →
      (∀ m msCurrent posts, .readied m msCurrent posts ∉ evs) →
      ∀ m msCurrent posts, .readied m msCurrent posts ∈ q'.log → msCurrent ≤ q'.now ∧
        ∀ cmsDelay now, m.posting = .delayed cmsDelay now →
          now.toNat + cmsDelay.toNat ≤ msCurrent.toNat := by
    intro evs hlog hnow hnot m t n hm
    rw [hlog] at hm
    rw [hnow]
    exact hq.waited m t n ((List.mem_append.1 hm).resolve_right (hnot m t n))
  cases h with
  | flags fStop_ active_ destroyed now h =>
    have hle : q.now ≤ now := h.elim (fun he => he ▸ UInt32.le_refl _) id
    refine ⟨fun d hd cms p hp => ?_, fun m t n hm => ?_⟩
    · obtain ⟨h1, h2⟩ := hq.clock d hd cms p hp
      exact ⟨h1, UInt32.le_trans h2 hle⟩
    · obtain ⟨h1, h2⟩ := hq.waited m t n hm
      exact ⟨UInt32.le_trans h1 hle, h2⟩
  | peeks m rest h hpeek hdispose => exact ⟨hq.clock, hq.waited⟩
  | posts | drops | returns | returnsPeek => exact ⟨hq.clock, hevs rfl rfl (by simp)⟩
  | delays d hseq hnum hposting htrigger hdelay =>
    refine ⟨fun e he cms p hp => ?_, hevs rfl rfl (by simp)⟩
    rcases (List.mem_orderedInsert above).1 he with rfl | he
    · obtain ⟨h1, rfl⟩ := hdelay cms p hp
      exact ⟨h1, UInt32.le_refl _⟩
    · exact hq.clock e he cms p hp
  | clears phandler id removed =>
    obtain ⟨-, heq⟩ := clear_eq q phandler id removed
    refine ⟨fun e he cms p hp => ?_, hevs (by rw [heq]) (by rw [heq]) (by simp)⟩
    rw [heq] at he ⊢
    exact hq.clock e (List.mem_filter.1 he).1 cms p hp
  | readies d rest h hdue =>
    have hd : d ∈ q.dmsgq_ := by rw [h]; exact List.mem_cons_self
    refine ⟨fun e he => hq.clock e (by rw [h]; exact List.mem_cons_of_mem d he),
      fun m t n hm => ?_⟩
    rcases List.mem_append.1 hm with hm | hm
    · exact hq.waited m t n hm
    · obtain ⟨rfl, rfl, rfl⟩ := QueueEvent.readied.inj (List.mem_singleton.1 hm)
      refine ⟨UInt32.le_refl _, fun cms p hp => ?_⟩
      obtain ⟨hdelay, hnow⟩ := hq.clock d hd cms p hp
      refine reached_of_not_later hdelay hnow ?_
      rw [(hheap.waiting d hd).2.1, hp] at hdue
      exact hdue

/-! ## 4. Clearing -/

/-- What a `Clear` matched is out of the queue from then on. -/
structure Cleared (q : MessageQueue) : Prop where
  known : ∀ phandler id posts, .cleared phandler id posts ∈ q.log → posts ≤ q.posts ∧
    ∀ m ∈ q.pending, m.seq < posts → m.Match phandler id = false
  once : q.log.Pairwise fun a b => ∀ phandler id posts m, a = .cleared phandler id posts →
    b.gone? = some m → m.seq < posts → m.Match phandler id = false

theorem Move.cleared (h : Move C q q') (hq : Cleared q) : Cleared q' := by
  obtain ⟨evs, hlog, hbooks⟩ := h.books
  have hpending : ∀ m ∈ q'.pending, m ∈ q.pending ∨ q.posts ≤ m.seq := by
    intro m hm
    cases hbooks with
    | posts m' hseq hposts hpending =>
      rcases List.mem_cons.1 (hpending.mem_iff.1 hm) with rfl | hm
      · exact Or.inr (Nat.le_of_eq hseq.symm)
      · exact Or.inl hm
    | passes _ hposts hpending => exact Or.inl (hpending.mem_iff.2 (List.mem_append_left _ hm))
  have hgone : ∀ ev ∈ evs, ∀ m, ev.gone? = some m → m ∈ q.pending := by
    intro ev hev m hm
    cases hbooks with
    | posts m' => rw [List.mem_singleton.1 hev] at hm; cases hm
    | passes _ hposts hpending =>
      exact hpending.mem_iff.2 (List.mem_append_right _ (List.mem_filterMap.2 ⟨ev, hev, hm⟩))
  have hposts : q.posts ≤ q'.posts := by
    cases hbooks with
    | posts | passes => omega
  have hknown : ∀ phandler id n, .cleared phandler id n ∈ evs → n = q.posts ∧
      ∀ m ∈ q'.pending, m.Match phandler id = false := by
    cases hbooks with
    | posts m => exact fun hd id n hmem => absurd (List.mem_singleton.1 hmem) nofun
    | passes _ _ _ _ hknown => exact hknown
  have honce : evs.Pairwise fun a _ => ∀ phandler id n, a ≠ .cleared phandler id n := by
    cases hbooks with
    | posts m => exact List.pairwise_singleton _ _
    | passes _ _ _ _ _ honce => exact honce
  refine ⟨fun hd id n hmem => ?_, ?_⟩
  · rw [hlog] at hmem
    rcases List.mem_append.1 hmem with hmem | hmem
    · obtain ⟨hle, hall⟩ := hq.known hd id n hmem
      refine ⟨Nat.le_trans hle hposts, fun m hm hlt => ?_⟩
      rcases hpending m hm with hm | hge
      · exact hall m hm hlt
      · exact absurd (Nat.lt_of_lt_of_le hlt hle) (Nat.not_lt.2 hge)
    · obtain ⟨rfl, hall⟩ := hknown hd id n hmem
      exact ⟨hposts, fun m hm _ => hall m hm⟩
  · rw [hlog]
    refine List.pairwise_append.2 ⟨hq.once, ?_, fun a ha b hb hd id n m hcl hg hlt => ?_⟩
    · exact honce.imp fun hab hd id n m hcl => absurd hcl (hab hd id n)
    · rw [hcl] at ha
      exact (hq.known hd id n ha).2 m (hgone b hb m hg) hlt

/-- What is recorded of a message fits it. -/
structure Recorded (q : MessageQueue) : Prop where
  removed : ∀ m phandler id handed, .removed m phandler id handed ∈ q.log →
    m.Match phandler id = true
  returned : ∀ m, .returned m ∈ q.log → m.message_id ≠ MQID_DISPOSE
  dropped : ∀ m, .dropped m ∈ q.log → m.message_id = MQID_DISPOSE
  peeked : ∀ m ∈ q.peeked, m.message_id ≠ MQID_DISPOSE

/-- A record that fits its message. -/
def Fits : QueueEvent → Prop
  | .removed m phandler id _ => m.Match phandler id = true
  | .returned m => m.message_id ≠ MQID_DISPOSE
  | .dropped m => m.message_id = MQID_DISPOSE
  | _ => True

theorem recorded_iff : Recorded q ↔
    (∀ ev ∈ q.log, Fits ev) ∧ ∀ m ∈ q.peeked, m.message_id ≠ MQID_DISPOSE := by
  constructor
  · intro h
    refine ⟨fun ev hev => ?_, h.peeked⟩
    cases ev with
    | removed m phandler id handed => exact h.removed m phandler id handed hev
    | returned m => exact h.returned m hev
    | dropped m => exact h.dropped m hev
    | _ => trivial
  · rintro ⟨hlog, hpeeked⟩
    exact ⟨fun _ _ _ _ hm => hlog _ hm, fun _ hm => hlog _ hm, fun _ hm => hlog _ hm, hpeeked⟩

theorem Move.recorded (h : Move C q q') (hq : Recorded q) : Recorded q' := by
  obtain ⟨hold, hpeeked⟩ := recorded_iff.1 hq
  refine recorded_iff.2 ?_
  have hlog : ∀ {ev : QueueEvent}, Fits ev → ∀ x ∈ q.log ++ [ev], Fits x := fun hev =>
    List.forall_mem_append.2 ⟨hold, List.forall_mem_singleton.2 hev⟩
  cases h with
  | flags fStop_ active_ destroyed now h => exact ⟨hold, hpeeked⟩
  | posts | delays | readies => exact ⟨hlog trivial, hpeeked⟩
  | drops m rest h hdispose | returns m rest h hpeek hdispose => exact ⟨hlog hdispose, hpeeked⟩
  | peeks m rest h hpeek hdispose => exact ⟨hold, List.forall_mem_singleton.2 hdispose⟩
  | returnsPeek hpeek =>
    refine ⟨hlog (hpeeked _ ?_), nofun⟩
    rw [MessageQueue.peeked, if_pos hpeek]
    exact List.mem_singleton_self _
  | clears phandler id removed =>
    obtain ⟨hpeek, heq⟩ := clear_eq q phandler id removed
    refine ⟨?_, fun m hm => hpeeked m (List.mem_filter.1 (hpeek ▸ hm)).1⟩
    rw [heq]
    exact List.forall_mem_append.2 ⟨hold, List.forall_mem_append.2
      ⟨List.forall_mem_map.2 fun m hm => (List.mem_filter.1 hm).2,
        List.forall_mem_singleton.2 trivial⟩⟩

/-! ## 5. Getting -/

/-- The messages that `Get` would return now, one after the other. -/
def ready (q : MessageQueue) : List Message :=
  q.peeked ++ (q.msgq_ ++ (q.dmsgq_.takeWhile fun (d : DelayedMessage) =>
    !TimeIsLater q.now d.msTrigger_).map DelayedMessage.msg_).filter
      fun (m : Message) => m.message_id ≠ MQID_DISPOSE

theorem readyDelayed_msgq (l : List DelayedMessage) (q : MessageQueue) (msCurrent : UInt32) :
    (q.readyDelayed msCurrent l).1.msgq_ = q.msgq_ ++
      (l.takeWhile fun (d : DelayedMessage) => !TimeIsLater msCurrent d.msTrigger_).map
        DelayedMessage.msg_ := by
  induction l generalizing q with
  | nil => exact (List.append_nil _).symm
  | cons d rest ih =>
    unfold readyDelayed
    by_cases hlater : TimeIsLater msCurrent d.msTrigger_ = true
    · rw [if_pos hlater, List.takeWhile_cons_of_neg (by rw [hlater]; decide)]
      exact (List.append_nil _).symm
    · rw [if_neg hlater, List.takeWhile_cons_of_pos (by rw [Bool.eq_false_iff.2 hlater]; rfl), ih]
      simp [emit]

theorem pull_fst (l : List Message) (q : MessageQueue) :
    (q.pull l).1 = (l.filter fun (m : Message) => m.message_id ≠ MQID_DISPOSE).head? := by
  induction l generalizing q with
  | nil => rfl
  | cons m rest ih =>
    unfold pull
    by_cases hdispose : m.message_id = MQID_DISPOSE
    · rw [if_pos hdispose, ih, List.filter_cons_of_neg (by simp [hdispose])]
    · rw [if_neg hdispose, List.filter_cons_of_pos (by simp [hdispose])]
      rfl

theorem readyDelayed_returned (l : List DelayedMessage) (q : MessageQueue) (msCurrent : UInt32) :
    (q.readyDelayed msCurrent l).1.returned = q.returned := by
  induction l generalizing q with
  | nil => rfl
  | cons d rest ih =>
    unfold readyDelayed
    split_ifs
    · rfl
    · rw [ih]
      simp [returned, emit, QueueEvent.returned?]

theorem pull_returned (l : List Message) (q : MessageQueue) :
    (q.pull l).2.returned = q.returned := by
  induction l generalizing q with
  | nil => rfl
  | cons m rest ih =>
    unfold pull
    split_ifs
    · rw [ih]
      simp [returned, emit, QueueEvent.returned?]
    · rfl

/-- What a `Get` does at once: it returns the first message that is ready, or none. -/
theorem settle_get (q : MessageQueue) (hpeek : q.fPeekKeep_ = false) (cmsWait : Int) :
    ∃ r control, r.returned = q.returned ∧
      messageQueue.settle 1 ⟨q, [.get false cmsWait q.now q.now]⟩ =
        match q.ready.head? with
        | some m => ⟨r.emit (.returned m), []⟩
        | none => ⟨r, control⟩ := by
  have hsettle : messageQueue.settle 1 ⟨q, [.get false cmsWait q.now q.now]⟩ =
      ⟨(q.getLoop false cmsWait q.now q.now).1,
        (q.getLoop false cmsWait q.now q.now).2 ++ []⟩ := rfl
  have hpull := pull_fst (q.readyDelayed q.now q.dmsgq_).1.msgq_ (q.readyDelayed q.now q.dmsgq_).1
  have hreturned := pull_returned (q.readyDelayed q.now q.dmsgq_).1.msgq_
    (q.readyDelayed q.now q.dmsgq_).1
  rw [readyDelayed_returned] at hreturned
  rw [hsettle, ready, peeked, hpeek, if_neg Bool.false_ne_true, List.nil_append,
    ← readyDelayed_msgq, ← hpull]
  unfold getLoop
  dsimp only
  generalize (q.readyDelayed q.now q.dmsgq_).1.pull (q.readyDelayed q.now q.dmsgq_).1.msgq_ = u
    at hreturned
  obtain ⟨o, r⟩ := u
  cases o with
  | none =>
    dsimp only
    split_ifs <;> exact ⟨r, _, hreturned, rfl⟩
  | some m => exact ⟨r, [], hreturned, rfl⟩

/-- `Get` returns the first message that is ready, without waiting, also after `Quit`. -/
theorem get_ready (q : MessageQueue) {m : Message} (h : q.ready.head? = some m) (cmsWait : Int) :
    ∃ q', messageQueue.settle 1 ⟨(q.enter (.get cmsWait)).1, (q.enter (.get cmsWait)).2⟩ =
      ⟨q', []⟩ ∧ q'.log.getLast? = some (.returned m) := by
  unfold enter
  dsimp only
  cases hpeek : q.fPeekKeep_ with
  | true =>
    rw [ready, peeked, hpeek] at h
    obtain rfl : q.msgPeek_ = m := Option.some.inj h
    exact ⟨_, rfl, List.getLast?_concat⟩
  | false =>
    obtain ⟨r, control, -, hsettle⟩ := settle_get q hpeek cmsWait
    rw [h] at hsettle
    exact ⟨_, hsettle, List.getLast?_concat⟩

end MessageQueue

/-! ## 6. The runs -/

open MessageQueue

/-- What is true of the messages of a queue. -/
structure Conservation (q : MessageQueue) : Prop where
  counted : Counted q
  lined : Lined q
  due : Due q
  timely : Timely q
  cleared : Cleared q
  recorded : Recorded q

theorem moves_conserve {q : MessageQueue} (h : Moves ForwardClock MessageQueue.init q) :
    Conservation q ∧ Heaped q := by
  induction h with
  | refl =>
    have hlog : ∀ {ev}, ev ∉ MessageQueue.init.log := nofun
    exact
      ⟨{ counted := ⟨fun _ => rfl, rfl⟩
         lined := ⟨List.Pairwise.nil, List.Sublist.refl _⟩
         due := ⟨nofun, List.Pairwise.nil, nofun⟩
         timely := ⟨nofun, nofun⟩
         cleared := ⟨nofun, List.Pairwise.nil⟩
         recorded := ⟨nofun, nofun, nofun, nofun⟩ }, ⟨nofun, List.Pairwise.nil⟩⟩
  | tail _ hmove ih =>
    obtain ⟨hq, hheap⟩ := ih
    exact
      ⟨{ counted := hmove.counted hq.counted
         lined := hmove.lined hq.counted (fun d hd => (hheap.waiting d hd).1) hq.lined
         due := hmove.due hheap hq.due
         timely := hmove.timely hheap hq.timely
         cleared := hmove.cleared hq.cleared
         recorded := hmove.recorded hq.recorded }, hmove.heaped hheap⟩

instance (a b : Message) : Decidable (a.Before b) := inferInstanceAs (Decidable (_ ∨ _))

end Gxmpp.TalkBase
