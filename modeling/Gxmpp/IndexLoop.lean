/-
A loop by index over a list that is changed while it runs.

`for (i = 0; i < v.size(); i += 1) use(v[i]);` is the usual way to serve a list
whose owner may be called back from `use`. Entries appended meanwhile are served
too. Entries removed meanwhile are not, but the removal of an entry at or before
the index moves those behind it by one, and the loop steps over one of them.

`Progress` says where such a loop is: which of the initial entries it has passed,
which were given out, and what the current list holds from the index on. It is
kept by each step of the loop and by each change of the list that does not move
what is ahead (`Spared`). `Offers` is what remains when the position no longer
matters.
-/
import Mathlib.Data.List.Basic

set_option autoImplicit false

namespace IndexLoop

variable {α : Type*} [DecidableEq α]

/-! ## 1. Entries that were not removed -/

/-- The entries of `l` that are not in `removed`. -/
def kept (removed l : List α) : List α := l.filter fun x => x ∉ removed

theorem kept_append (removed l m : List α) :
    kept removed (l ++ m) = kept removed l ++ kept removed m :=
  List.filter_append l m

/-- One more entry is removed. -/
theorem kept_cons_removed (x : α) (removed l : List α) :
    kept (x :: removed) l = (kept removed l).filter fun y => y ≠ x := by
  unfold kept
  rw [List.filter_filter]
  refine List.filter_congr fun y _ => ?_
  rw [← Bool.decide_and]
  refine decide_eq_decide.2 ?_
  rw [List.mem_cons, not_or]

/-- Up to the first entry that was not removed. -/
theorem kept_eq_cons {removed l m : List α} {x : α} (h : kept removed l = x :: m) :
    ∃ skipped behind, l = skipped ++ x :: behind ∧ kept removed skipped = [] ∧
      x ∉ removed ∧ kept removed behind = m := by
  obtain ⟨skipped, behind, heq, hskip, hx, hm⟩ := List.filter_eq_cons_iff.1 h
  refine ⟨skipped, behind, heq, List.filter_eq_nil_iff.2 hskip, of_decide_eq_true hx, hm⟩

/-! ## 2. What was given out -/

/-- Of a loop over the list that was `initial`: what it gave out are entries of
`initial`, in their order and each at most once, and then entries that were added. No
entry that was not removed has been stepped over, and once the loop is `ended`, or gave
out an added entry, none is missing. -/
def Offers (initial removed added offered : List α) (ended : Prop) : Prop :=
  ∃ own extra, offered = own ++ extra ∧ own.Sublist initial ∧ extra.Sublist added ∧
    kept removed own <+: kept removed initial ∧
    (ended ∨ extra ≠ [] → kept removed own = kept removed initial)

namespace Offers

variable {initial removed added offered : List α} {ended : Prop}

/-- An entry is removed, wherever it is. -/
theorem remove (h : Offers initial removed added offered ended) (x : α) :
    Offers initial (x :: removed) added offered ended := by
  obtain ⟨own, extra, heq, hown, hextra, hpre, hover⟩ := h
  refine ⟨own, extra, heq, hown, hextra, ?_, fun ho => ?_⟩
  · rw [kept_cons_removed, kept_cons_removed]
    exact hpre.filter _
  · rw [kept_cons_removed, kept_cons_removed, hover ho]

/-- Entries are added. -/
theorem add (h : Offers initial removed added offered ended) (more : List α) :
    Offers initial removed (added ++ more) offered ended := by
  obtain ⟨own, extra, heq, hown, hextra, hrest⟩ := h
  exact ⟨own, extra, heq, hown, hextra.trans (List.sublist_append_left _ _), hrest⟩

theorem mono {ended' : Prop} (h : Offers initial removed added offered ended)
    (himp : ended' → ended) : Offers initial removed added offered ended' := by
  obtain ⟨own, extra, heq, hown, hextra, hpre, hover⟩ := h
  exact ⟨own, extra, heq, hown, hextra, hpre, fun ho => hover (ho.imp_left himp)⟩

/-- An entry that is neither removed nor added is given out as often as it was there. -/
theorem count (h : Offers initial removed added offered ended) (ho : ended) {x : α}
    (hr : x ∉ removed) (ha : x ∉ added) : offered.count x = initial.count x := by
  obtain ⟨own, extra, rfl, -, hextra, -, hover⟩ := h
  have hcount : ∀ l : List α, (kept removed l).count x = l.count x := fun l =>
    List.count_filter (decide_eq_true hr)
  have hnone : extra.count x = 0 := List.count_eq_zero.2 fun hx => ha (hextra.subset hx)
  rw [List.count_append, hnone, Nat.add_zero, ← hcount own, hover (Or.inl ho), hcount]

end Offers

/-! ## 3. Where the loop is -/

/-- The removal of `x` does not move what lies at `next` and behind: `x` does not occur
before, or there is nothing else behind. -/
def Spared (x : α) (current : List α) (next : ℕ) : Prop :=
  x ∉ current.take next ∨ ∀ y ∈ current.drop next, y = x

instance (x : α) (current : List α) (next : ℕ) : Decidable (Spared x current next) :=
  inferInstanceAs (Decidable (_ ∨ _))

/-- What lies ahead after such a removal. -/
theorem Spared.drop_filter {x : α} {current : List α} {next : ℕ} (h : Spared x current next) :
    (current.filter fun y => y ≠ x).drop next = (current.drop next).filter fun y => y ≠ x := by
  have hsplit : current.filter (fun y => y ≠ x)
      = (current.take next).filter (fun y => y ≠ x)
        ++ (current.drop next).filter fun y => y ≠ x := by
    rw [← List.filter_append, List.take_append_drop]
  rcases h with hnot | hall
  · have hsame : (current.take next).filter (fun y => y ≠ x) = current.take next :=
      List.filter_eq_self.2 fun y hy => decide_eq_true fun heq => hnot (heq ▸ hy)
    rw [hsplit, hsame]
    by_cases hlen : next ≤ current.length
    · have hl : (current.take next).length = next := by
        rw [List.length_take]
        omega
      exact List.drop_left' hl
    · have hnil : current.drop next = [] := List.drop_eq_nil_of_le (by omega)
      rw [hnil, List.filter_nil, List.append_nil]
      refine List.drop_eq_nil_of_le ?_
      rw [List.length_take]
      omega
  · have hnil : (current.drop next).filter (fun y => y ≠ x) = [] := by
      refine List.filter_eq_nil_iff.2 fun y hy => ?_
      rw [hall y hy]
      simp
    rw [hsplit, hnil, List.append_nil]
    refine List.drop_eq_nil_of_le ?_
    have hle := List.length_filter_le (fun y => decide (y ≠ x)) (current.take next)
    rw [List.length_take] at hle
    omega

/-- The initial entries are `passed` and `ahead`, those given out are `own` and then
`extra`, and the current list continues at `next` with what is left of `ahead` and then
with `late`, entries that were added. -/
structure Split (initial removed added offered current : List α) (next : ℕ)
    (passed ahead own extra late : List α) : Prop where
  initial_eq : initial = passed ++ ahead
  offered_eq : offered = own ++ extra
  own_sublist : own.Sublist passed
  own_kept : kept removed own = kept removed passed
  current_eq : current.drop next = kept removed ahead ++ late
  added_sublist : (extra ++ late).Sublist added
  ahead_nil : extra ≠ [] → kept removed ahead = []

/-- The loop is at `next` and has stepped over nothing. -/
def Progress (initial removed added offered current : List α) (next : ℕ) : Prop :=
  ∃ passed ahead own extra late,
    Split initial removed added offered current next passed ahead own extra late

namespace Progress

variable {initial removed added offered current : List α} {next : ℕ}

/-- Before the loop, when nothing has changed. -/
theorem start (initial : List α) : Progress initial [] [] [] initial 0 := by
  refine ⟨[], initial, [], [], [], rfl, rfl, List.Sublist.refl _, rfl, ?_, List.Sublist.refl _,
    fun h => absurd rfl h⟩
  have hall : kept [] initial = initial :=
    List.filter_eq_self.2 fun x _ => decide_eq_true List.not_mem_nil
  rw [hall, List.drop_zero, List.append_nil]

/-- An entry is removed. -/
theorem remove (h : Progress initial removed added offered current next) {x : α}
    (hx : Spared x current next) :
    Progress initial (x :: removed) added offered (current.filter fun y => y ≠ x) next := by
  obtain ⟨passed, ahead, own, extra, late, hs⟩ := h
  refine ⟨passed, ahead, own, extra, late.filter fun y => y ≠ x, hs.initial_eq, hs.offered_eq,
    hs.own_sublist, ?_, ?_, ?_, fun hne => ?_⟩
  · rw [kept_cons_removed, kept_cons_removed, hs.own_kept]
  · rw [hx.drop_filter, hs.current_eq, List.filter_append, kept_cons_removed]
  · exact ((List.Sublist.refl extra).append List.filter_sublist).trans hs.added_sublist
  · rw [kept_cons_removed, hs.ahead_nil hne]
    rfl

/-- More entries are added than the list gets. -/
theorem add (h : Progress initial removed added offered current next) (more : List α) :
    Progress initial removed (added ++ more) offered current next := by
  obtain ⟨passed, ahead, own, extra, late, hs⟩ := h
  exact ⟨passed, ahead, own, extra, late, { hs with
    added_sublist := hs.added_sublist.trans (List.sublist_append_left _ _) }⟩

/-- Entries are appended to the list. -/
theorem append (h : Progress initial removed added offered current next) (more : List α) :
    Progress initial removed (added ++ more) offered (current ++ more) next := by
  obtain ⟨passed, ahead, own, extra, late, hs⟩ := h
  refine ⟨passed, ahead, own, extra, late ++ more.drop (next - current.length), { hs with
    current_eq := ?_, added_sublist := ?_ }⟩
  · rw [List.drop_append, hs.current_eq, List.append_assoc]
  · rw [← List.append_assoc]
    exact hs.added_sublist.append (List.drop_sublist _ _)

/-- The entry at the index is given out. -/
theorem offer (h : Progress initial removed added offered current next) {x : α}
    (hx : current[next]? = some x) :
    Progress initial removed added (offered ++ [x]) current (next + 1) := by
  obtain ⟨passed, ahead, own, extra, late, hs⟩ := h
  have hdrop : current.drop next = x :: current.drop (next + 1) := by
    obtain ⟨hlt, rfl⟩ := List.getElem?_eq_some_iff.1 hx
    exact List.drop_eq_getElem_cons hlt
  have hcur := hs.current_eq
  rw [hdrop] at hcur
  rcases hk : kept removed ahead with _ | ⟨y, rest⟩
  · -- the initial entries are served: an added one
    rw [hk, List.nil_append] at hcur
    refine ⟨passed, ahead, own, extra ++ [x], current.drop (next + 1), hs.initial_eq, ?_,
      hs.own_sublist, hs.own_kept, ?_, ?_, fun _ => hk⟩
    · rw [hs.offered_eq, List.append_assoc]
    · rw [hk, List.nil_append]
    · rw [List.append_assoc, List.singleton_append, hcur]
      exact hs.added_sublist
  · -- the next initial entry that was not removed
    rw [hk, List.cons_append, List.cons.injEq] at hcur
    obtain ⟨rfl, hcur⟩ := hcur
    have hextra : extra = [] := by
      by_contra hne
      rw [hs.ahead_nil hne] at hk
      cases hk
    subst hextra
    obtain ⟨skipped, behind, heq, hskip, hnot, hrest⟩ := kept_eq_cons hk
    refine ⟨passed ++ skipped ++ [x], behind, own ++ [x], [], late, ?_, ?_, ?_, ?_, ?_,
      hs.added_sublist, fun hne => absurd rfl hne⟩
    · rw [hs.initial_eq, heq, List.append_assoc, List.append_assoc]
      rfl
    · rw [hs.offered_eq, List.append_nil, List.append_nil]
    · exact (hs.own_sublist.trans (List.sublist_append_left _ _)).append (List.Sublist.refl _)
    · rw [kept_append, kept_append, kept_append, hs.own_kept, hskip, List.append_nil]
    · rw [hcur, hrest]

/-- What was given out, once it is known when the list is used up. -/
theorem offers_of (h : Progress initial removed added offered current next) {finished : Prop}
    (hend : finished → current[next]? = none) : Offers initial removed added offered finished := by
  obtain ⟨passed, ahead, own, extra, late, hs⟩ := h
  have hnil : finished → kept removed ahead = [] := by
    intro hfinished
    have hdrop : current.drop next = [] :=
      List.drop_eq_nil_of_le (List.getElem?_eq_none_iff.1 (hend hfinished))
    rw [hs.current_eq] at hdrop
    exact (List.append_eq_nil_iff.1 hdrop).1
  refine ⟨own, extra, hs.offered_eq, ?_, ?_, ?_, fun hfinished => ?_⟩
  · rw [hs.initial_eq]
    exact hs.own_sublist.trans (List.sublist_append_left _ _)
  · exact (List.sublist_append_left _ _).trans hs.added_sublist
  · rw [hs.initial_eq, kept_append, hs.own_kept]
    exact List.prefix_append _ _
  · rw [hs.initial_eq, kept_append, hs.own_kept, hfinished.elim hnil hs.ahead_nil, List.append_nil]

/-- Wherever the loop is. -/
theorem offers (h : Progress initial removed added offered current next) :
    Offers initial removed added offered False := h.offers_of False.elim

/-- At the end of the list the loop is over. -/
theorem finish (h : Progress initial removed added offered current next)
    (hend : current[next]? = none) : Offers initial removed added offered True :=
  h.offers_of fun _ => hend

end Progress

end IndexLoop
