/-
`replace_substrs` of `talk/base/stringutils.cc`.

The loop moves its position by what it has put in, which is behind the replacement where it has
also taken something out. There is no `max_size` of a string here: one that grows in every round
does so without end.
-/
import Gxmpp.Walking
import Gxmpp.XmlElement
import Mathlib.Data.List.Infix

set_option autoImplicit false

namespace Gxmpp.TalkBase

open Walking

/-! ## 1. The function -/

/-- The first place of `search`. -/
def firstPlace (search : Str) : Str → Option ℕ
  | [] => if search <+: [] then some 0 else none
  | c :: s => if search <+: c :: s then some 0 else (firstPlace search s).map Nat.succ

/-- `s->find(search, pos, search_len)`; `npos` is `none`. -/
def findSubstr (s search : Str) (pos : ℕ) : Option ℕ :=
  if pos ≤ s.length then (firstPlace search (s.drop pos)).map (pos + ·) else none

/-- The loop, over `pos` and `*s`. -/
def replaceRound (search replace : Str) : Walking.Round (ℕ × Str) Str
  | (pos, s) =>
    match findSubstr s search pos with
    | none => .inr s
    | some pos =>
      .inl (pos + replace.length, s.take pos ++ replace ++ s.drop (pos + search.length))

/-- `replace_substrs` returns, and has made `s'` of `s`. -/
def replace_substrs (search replace s s' : Str) : Prop :=
  Ends (replaceRound search replace) (0, s) s'

/-! ## 2. Occurrences -/

/-- The first occurrence of `search` in `s` is behind `before`. -/
def FirstAt (search before s : Str) : Prop :=
  before ++ search <+: s ∧ ∀ b, b ++ search <+: s → before.length ≤ b.length

/-- Each of the leftmost occurrences that do not overlap is replaced, and nothing else. -/
inductive Replaced (search replace : Str) : Str → Str → Prop where
  | none {s : Str} (h : ∀ b, ¬b ++ search <+: s) : Replaced search replace s s
  | first {before rest t : Str} (hfirst : FirstAt search before (before ++ search ++ rest))
      (h : Replaced search replace rest t) :
      Replaced search replace (before ++ search ++ rest) (before ++ replace ++ t)

variable {search replace : Str}

theorem firstPlace_none {s : Str} (h : firstPlace search s = none) : ∀ b, ¬b ++ search <+: s := by
  induction s with
  | nil =>
    intro b hb
    obtain ⟨-, rfl⟩ := List.append_eq_nil_iff.1 (List.prefix_nil.1 hb)
    simp [firstPlace] at h
  | cons c s ih =>
    rw [firstPlace] at h
    split at h
    · cases h
    · rename_i hhead
      intro b hb
      cases b with
      | nil => exact hhead hb
      | cons c' b => exact ih (Option.map_eq_none_iff.1 h) b (List.cons_prefix_cons.1 hb).2

theorem firstPlace_some {s : Str} {i : ℕ} (h : firstPlace search s = some i) :
    ∃ before, before.length = i ∧ FirstAt search before s := by
  induction s generalizing i with
  | nil =>
    rw [firstPlace] at h
    split at h
    · rename_i hhead
      exact ⟨[], Option.some.inj h, hhead, fun b _ => Nat.zero_le _⟩
    · cases h
  | cons c s ih =>
    rw [firstPlace] at h
    split at h
    · rename_i hhead
      exact ⟨[], Option.some.inj h, hhead, fun b _ => Nat.zero_le _⟩
    · rename_i hhead
      obtain ⟨j, hj, rfl⟩ := Option.map_eq_some_iff.1 h
      obtain ⟨before, rfl, hprefix, hleast⟩ := ih hj
      refine ⟨c :: before, rfl, List.cons_prefix_cons.2 ⟨rfl, hprefix⟩, ?_⟩
      intro b hb
      cases b with
      | nil => exact absurd hb hhead
      | cons c' b => exact Nat.succ_le_succ (hleast b (List.cons_prefix_cons.1 hb).2)

/-! ## 3. The loop -/

theorem findSubstr_append (done rest : Str) :
    findSubstr (done ++ rest) search done.length =
      (firstPlace search rest).map (done.length + ·) := by
  rw [findSubstr, if_pos (by simp), List.drop_left]

/-- What a round does, to what is left of the string. -/
theorem replaceRound_cases (done rest : Str) :
    (replaceRound search replace (done.length, done ++ rest) = .inr (done ++ rest) ∧
      ∀ b, ¬b ++ search <+: rest) ∨
    ∃ before rest', rest = before ++ search ++ rest' ∧ FirstAt search before rest ∧
      replaceRound search replace (done.length, done ++ rest) =
        .inl ((done ++ before ++ replace).length, done ++ before ++ replace ++ rest') := by
  simp only [replaceRound, findSubstr_append]
  cases hplace : firstPlace search rest with
  | none => exact .inl ⟨rfl, firstPlace_none hplace⟩
  | some i =>
    obtain ⟨before, rfl, hfirst⟩ := firstPlace_some hplace
    obtain ⟨rest', hrest⟩ := hfirst.1
    refine .inr ⟨before, rest', hrest.symm, hfirst, ?_⟩
    subst hrest
    have htake : (done ++ (before ++ search ++ rest')).take (done.length + before.length)
        = done ++ before := by
      rw [← List.length_append, List.append_assoc before, ← List.append_assoc done, List.take_left]
    have hdrop : (done ++ (before ++ search ++ rest')).drop
        (done.length + before.length + search.length) = rest' := by
      rw [← List.length_append, ← List.length_append, ← List.append_assoc done,
        ← List.append_assoc done, List.drop_left]
    simp only [Option.map_some, htake, hdrop]
    simp [Nat.add_assoc]

/-- The measure is what is left of the string. -/
theorem ends_replaced (hsearch : search ≠ []) (done rest : Str) :
    ∃ t, Ends (replaceRound search replace) (done.length, done ++ rest) (done ++ t) ∧
      Replaced search replace rest t := by
  induction hlen : rest.length using Nat.strong_induction_on generalizing done rest with
  | _ n ih =>
    rcases @replaceRound_cases search replace done rest with
      ⟨hround, hnone⟩ | ⟨before, rest', hrest, hfirst, hround⟩
    · exact ⟨rest, ends_of_left hround, .none hnone⟩
    · subst hrest
      have hpos := List.length_pos_iff.2 hsearch
      simp only [List.length_append] at hlen
      obtain ⟨t, hends, ht⟩ := ih rest'.length (by omega) (done ++ before ++ replace) rest' rfl
      refine ⟨before ++ replace ++ t, (ends_of_next hround).2 ?_, .first hfirst ht⟩
      simpa using hends

/-- The empty string is found wherever the loop stands, and at the end. -/
theorem not_ends_nil (s s' : Str) : ¬replace_substrs [] replace s s' := by
  refine not_ends (I := fun st => st.1 ≤ st.2.length) (Nat.zero_le _) ?_
  rintro ⟨pos, s⟩ (hpos : pos ≤ s.length)
  have hplace : firstPlace [] (s.drop pos) = some 0 := by
    cases s.drop pos <;> simp [firstPlace]
  have hfind : findSubstr s [] pos = some pos := by
    rw [findSubstr, if_pos hpos, hplace]
    rfl
  refine ⟨_, by rw [replaceRound, hfind], ?_⟩
  simp only [List.length_append, List.length_take, List.length_drop, List.length_nil]
  omega

/-- `replace_substrs` returns, and right, exactly if there is something to search for. -/
theorem replace_substrs_iff (search replace s : Str) :
    (∃ s', replace_substrs search replace s s' ∧ (search ≠ [] → Replaced search replace s s')) ↔
      search ≠ [] := by
  constructor
  · rintro ⟨s', hends, -⟩ rfl
    exact not_ends_nil s s' hends
  · intro hsearch
    obtain ⟨t, hends, ht⟩ := @ends_replaced search replace hsearch [] s
    exact ⟨t, hends, fun _ => ht⟩

theorem replace_nothing_runs : ¬∀ search replace s : Str,
    ∃ s', replace_substrs search replace s s' ∧ (search ≠ [] → Replaced search replace s s') := by
  intro hall
  obtain ⟨s', hends, -⟩ := hall [] [] []
  exact not_ends_nil [] s' hends

end Gxmpp.TalkBase
