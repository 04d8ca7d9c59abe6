/-
A map as the list of its entries in the order of the keys, and a walk along it.

This is what `std::map` shows of itself. The list is sorted after every insertion, change and
removal (`Sorted.insert`, `Sorted.replace`, `Sorted.erase`), and each of them is an update of the
map at one key (`lookup_insert`, `lookup_replace`, `lookup_erase`).

An iterator is the key of the entry that it is at; none is the end. A walk has one more place, in
front of the first entry, so its places are numbered `0`, ..., `length + 1`, and `entryAt` is what
is there. For an iterator and a flag the number is what `At` says.
-/
import Mathlib.Data.List.Nodup
import Mathlib.Logic.Function.Basic

set_option autoImplicit false

namespace SortedMap

variable {κ ν : Type*}

/-! ## 1. The entries -/

section Entries

variable (lt : κ → κ → Bool)

/-- An entry for a key that is not there yet. -/
def insert (k : κ) (v : ν) : List (κ × ν) → List (κ × ν)
  | [] => [(k, v)]
  | e :: l => if lt k e.1 then (k, v) :: e :: l else e :: insert k v l

/-- The entries are in the order of their keys. -/
def Sorted (l : List (κ × ν)) : Prop := l.Pairwise fun a b => lt a.1 b.1 = true

theorem mem_insert {k : κ} {v : ν} {l : List (κ × ν)} {e : κ × ν} :
    e ∈ insert lt k v l ↔ e = (k, v) ∨ e ∈ l := by
  induction l with
  | nil => simp [insert]
  | cons d l ih =>
    unfold insert
    split
    · simp
    · rw [List.mem_cons, ih, List.mem_cons]
      tauto

section Order

variable {lt} [IsStrictTotalOrder κ fun a b => lt a b = true]

/-- No key is there twice. -/
theorem Sorted.nodup {l : List (κ × ν)} (h : Sorted lt l) : (l.map Prod.fst).Nodup := by
  unfold List.Nodup
  rw [List.pairwise_map]
  refine h.imp fun hlt heq => ?_
  rw [heq] at hlt
  exact irrefl_of (fun a b => lt a b = true) _ hlt

theorem Sorted.insert {l : List (κ × ν)} (h : Sorted lt l) {k : κ} (hfree : ∀ e ∈ l, e.1 ≠ k)
    (v : ν) : Sorted lt (SortedMap.insert lt k v l) := by
  induction l with
  | nil => exact List.pairwise_singleton _ _
  | cons d l ih =>
    obtain ⟨hd, hl⟩ := List.pairwise_cons.1 h
    unfold SortedMap.insert
    split
    · next hlt =>
        refine List.pairwise_cons.2 ⟨fun e he => ?_, h⟩
        rcases List.mem_cons.1 he with rfl | he
        · exact hlt
        · exact trans_of (fun a b => lt a b = true) hlt (hd e he)
    · next hnot =>
        -- the new key is not in front of this one, and not the same
        have hlt : lt d.1 k = true := by
          rcases trichotomous_of (fun a b => lt a b = true) d.1 k with hlt | heq | hgt
          · exact hlt
          · exact absurd heq (hfree d List.mem_cons_self)
          · exact absurd hgt hnot
        refine List.pairwise_cons.2
          ⟨fun e he => ?_, ih hl fun e he => hfree e (List.mem_cons_of_mem _ he)⟩
        rcases (mem_insert lt).1 he with rfl | he
        · exact hlt
        · exact hd e he

end Order

variable [DecidableEq κ]

/-- A change of what stands at a key. -/
def replace (k : κ) (v : ν) (l : List (κ × ν)) : List (κ × ν) :=
  l.map fun e => if e.1 = k then (e.1, v) else e

/-- The removal of the entry for a key. -/
def erase (k : κ) (l : List (κ × ν)) : List (κ × ν) := l.eraseP fun e => e.1 = k

theorem keys_replace (k : κ) (v : ν) (l : List (κ × ν)) :
    (replace k v l).map Prod.fst = l.map Prod.fst := by
  unfold replace
  rw [List.map_map]
  refine List.map_congr_left fun e _ => ?_
  rw [Function.comp_apply]
  split <;> rfl

variable {lt}

theorem Sorted.replace {l : List (κ × ν)} (h : Sorted lt l) (k : κ) (v : ν) :
    Sorted lt (SortedMap.replace k v l) := by
  have hkeys : ∀ m : List (κ × ν), Sorted lt m ↔
      (m.map Prod.fst).Pairwise fun a b => lt a b = true := by
    intro m
    rw [List.pairwise_map]
    exact Iff.rfl
  rw [hkeys, keys_replace, ← hkeys]
  exact h

theorem Sorted.erase {l : List (κ × ν)} (h : Sorted lt l) (k : κ) :
    Sorted lt (SortedMap.erase k l) := h.sublist List.eraseP_sublist

end Entries

/-! ## 2. The map -/

section Map

variable [DecidableEq κ]

/-- What stands at a key. -/
def lookup (l : List (κ × ν)) (k : κ) : Option ν := (l.find? fun e => e.1 = k).map Prod.snd

theorem lookup_nil (k : κ) : lookup ([] : List (κ × ν)) k = none := rfl

theorem lookup_cons (e : κ × ν) (l : List (κ × ν)) (k : κ) :
    lookup (e :: l) k = if e.1 = k then some e.2 else lookup l k := by
  unfold lookup
  rw [List.find?_cons]
  by_cases h : e.1 = k
  · rw [if_pos h, decide_eq_true h]
    rfl
  · rw [if_neg h, decide_eq_false h]

theorem lookup_eq_none {l : List (κ × ν)} {k : κ} (h : ∀ e ∈ l, e.1 ≠ k) : lookup l k = none := by
  unfold lookup
  rw [Option.map_eq_none_iff, List.find?_eq_none]
  intro e he
  simpa using h e he

theorem lookup_insert (lt : κ → κ → Bool) {l : List (κ × ν)} {k : κ} (hfree : ∀ e ∈ l, e.1 ≠ k)
    (v : ν) : lookup (insert lt k v l) = Function.update (lookup l) k (some v) := by
  funext j
  rw [Function.update_apply]
  induction l with
  | nil =>
    unfold insert
    rw [lookup_cons, lookup_nil]
    simp only [eq_comm]
  | cons d l ih =>
    have hd := hfree d List.mem_cons_self
    have hl := ih fun e he => hfree e (List.mem_cons_of_mem _ he)
    unfold insert
    split
    · rw [lookup_cons]
      simp only [eq_comm]
    · rw [lookup_cons, hl, lookup_cons]
      by_cases hj : j = k
      · rw [if_pos hj, if_pos hj, if_neg (by rw [hj]; exact hd)]
      · rw [if_neg hj, if_neg hj]

theorem lookup_replace {l : List (κ × ν)} {k : κ} (hfound : ∃ e ∈ l, e.1 = k) (v : ν) :
    lookup (replace k v l) = Function.update (lookup l) k (some v) := by
  funext j
  rw [Function.update_apply]
  by_cases hj : j = k
  · rw [if_pos hj, hj]
    induction l with
    | nil => obtain ⟨e, he, -⟩ := hfound; cases he
    | cons d l ih =>
      rw [replace, List.map_cons, lookup_cons]
      by_cases hd : d.1 = k
      · rw [if_pos hd, if_pos hd]
      · rw [if_neg hd, if_neg hd]
        refine ih ?_
        obtain ⟨e, he, hek⟩ := hfound
        rcases List.mem_cons.1 he with rfl | he
        · exact absurd hek hd
        · exact ⟨e, he, hek⟩
  · rw [if_neg hj]
    clear hfound
    induction l with
    | nil => rfl
    | cons d l ih =>
      rw [replace, List.map_cons, lookup_cons, lookup_cons]
      by_cases hd : d.1 = k
      · have hdj : ¬ d.1 = j := by rw [hd]; exact Ne.symm hj
        rw [if_pos hd, if_neg hdj, if_neg hdj]
        exact ih
      · rw [if_neg hd]
        congr 1

theorem lookup_erase {l : List (κ × ν)} (h : (l.map Prod.fst).Nodup) (k : κ) :
    lookup (erase k l) = Function.update (lookup l) k none := by
  funext j
  rw [Function.update_apply]
  induction l with
  | nil => simp [erase, lookup_nil]
  | cons d l ih =>
    rw [List.map_cons, List.nodup_cons] at h
    unfold erase at ih ⊢
    by_cases hd : d.1 = k
    · rw [List.eraseP_cons_of_pos (by simpa using hd), lookup_cons]
      by_cases hj : j = k
      · rw [if_pos hj, hj]
        -- the key was only there
        refine lookup_eq_none fun e he heq => h.1 ?_
        rw [hd, ← heq]
        exact List.mem_map_of_mem he
      · rw [if_neg hj, if_neg (by rw [hd]; exact Ne.symm hj)]
    · rw [List.eraseP_cons_of_neg (by simpa using hd), lookup_cons, lookup_cons, ih h.2]
      by_cases hj : j = k
      · rw [if_pos hj, if_pos hj, if_neg (by rw [hj]; exact hd)]
      · rw [if_neg hj, if_neg hj]

end Map

/-! ## 3. Iterators -/

section Iterators

variable [DecidableEq κ]

/-- The first entry. -/
def first (l : List (κ × ν)) : Option κ := l.head?.map Prod.fst

/-- The entry after one. -/
def after (l : List (κ × ν)) (k : κ) : Option κ :=
  (l.dropWhile fun e => e.1 ≠ k).tail.head?.map Prod.fst

/-- The entry before one, or before the end. -/
def before (l : List (κ × ν)) : Option κ → Option κ
  | none => l.getLast?.map Prod.fst
  | some k => (l.takeWhile fun e => e.1 ≠ k).getLast?.map Prod.fst

/-- A list is split at the entry for a key. -/
theorem split_at {l : List (κ × ν)} (h : (l.map Prod.fst).Nodup) {i : ℕ} {e : κ × ν}
    (hi : l[i]? = some e) :
    (l.takeWhile fun d => d.1 ≠ e.1) = l.take i ∧
      (l.dropWhile fun d => d.1 ≠ e.1) = e :: l.drop (i + 1) := by
  induction l generalizing i with
  | nil => cases hi
  | cons d l ih =>
    rw [List.map_cons, List.nodup_cons] at h
    cases i with
    | zero =>
      obtain rfl := Option.some.inj hi
      rw [List.takeWhile_cons_of_neg (by simp), List.dropWhile_cons_of_neg (by simp)]
      exact ⟨rfl, rfl⟩
    | succ i =>
      rw [List.getElem?_cons_succ] at hi
      have hne : d.1 ≠ e.1 := by
        intro heq
        refine h.1 ?_
        rw [heq]
        exact List.mem_map_of_mem (List.mem_of_getElem? hi)
      obtain ⟨htake, hdrop⟩ := ih h.2 hi
      rw [List.takeWhile_cons_of_pos (by simpa using hne),
        List.dropWhile_cons_of_pos (by simpa using hne), htake, hdrop]
      exact ⟨rfl, rfl⟩

theorem find_at {l : List (κ × ν)} (h : (l.map Prod.fst).Nodup) {i : ℕ} {e : κ × ν}
    (hi : l[i]? = some e) : (l.find? fun d => d.1 = e.1) = some e := by
  obtain ⟨htake, hdrop⟩ := split_at h hi
  refine List.find?_eq_some_iff_append.2 ⟨decide_eq_true rfl, l.take i, l.drop (i + 1), ?_, ?_⟩
  · rw [← htake, ← hdrop, List.takeWhile_append_dropWhile]
  · intro d hd
    rw [← htake] at hd
    simpa using List.all_eq_true.1 List.all_takeWhile d hd

theorem after_at {l : List (κ × ν)} (h : (l.map Prod.fst).Nodup) {i : ℕ} {e : κ × ν}
    (hi : l[i]? = some e) : after l e.1 = l[i + 1]?.map Prod.fst := by
  unfold after
  rw [(split_at h hi).2, List.tail_cons, List.head?_drop]

theorem before_at {l : List (κ × ν)} (h : (l.map Prod.fst).Nodup) {i : ℕ} (hi : i < l.length) :
    before l (l[i + 1]?.map Prod.fst) = l[i]?.map Prod.fst := by
  by_cases hlast : i + 1 < l.length
  · rw [List.getElem?_eq_getElem hlast]
    show ((l.takeWhile _).getLast?).map _ = _
    rw [(split_at h (List.getElem?_eq_getElem hlast)).1, List.getLast?_eq_getElem?,
      List.length_take, List.getElem?_take_of_lt (by omega)]
    congr 2
    omega
  · rw [List.getElem?_eq_none (by omega)]
    show l.getLast?.map _ = _
    rw [List.getLast?_eq_getElem?]
    congr 2
    omega

end Iterators

/-! ## 4. Walks -/

section Walks

/-- What is at a place of a walk. -/
def entryAt (l : List (κ × ν)) : ℕ → Option (κ × ν)
  | 0 => none
  | p + 1 => l[p]?

/-- One place on, up to the place after the last entry. -/
def forward (l : List (κ × ν)) (p : ℕ) : ℕ := if p ≤ l.length then p + 1 else p

/-- One place back, down to the place before the first entry. -/
def backward (p : ℕ) : ℕ := p - 1

/-- A flag and an iterator are at a place. In front of the first entry the iterator is at the
first entry too. -/
structure At (l : List (κ × ν)) (inFront : Bool) (it : Option κ) (p : ℕ) : Prop where
  place : p ≤ l.length + 1
  front : inFront = true ↔ p = 0
  iterator : it = l[p - 1]?.map Prod.fst

theorem At.start (l : List (κ × ν)) : At l true (first l) 0 :=
  ⟨Nat.zero_le _, by simp, by rw [first, List.head?_eq_getElem?]⟩

/-- The iterator is at the end after the last entry, or in front of no entry. -/
theorem At.end_iff {l : List (κ × ν)} {inFront : Bool} {it : Option κ} {p : ℕ}
    (h : At l inFront it p) : it.isNone = true ↔ p = l.length + 1 ∨ p = 0 ∧ l = [] := by
  have hplace := h.place
  rw [h.iterator, Option.isNone_iff_eq_none, Option.map_eq_none_iff, List.getElem?_eq_none_iff,
    ← List.length_eq_zero_iff]
  omega

end Walks

end SortedMap
