/-
`string_match` of `talk/base/stringutils.cc`.

A C string is the list of its characters, and its NUL is the end of the list. By the header an
asterisk matches "0 or more characters" (`glob`). The function looks for the character behind an
asterisk in the target, also where that one is an asterisk itself (`asRead`).
-/
import Gxmpp.XmlElement
import Mathlib.Data.List.Basic

set_option autoImplicit false

namespace Gxmpp.TalkBase.StringMatch

/-! ## 1. Patterns -/

section Patterns

variable {α : Type*}

inductive Piece (α : Type*) where
  /-- any text, also none -/
  | any
  | char (c : α)
deriving DecidableEq

/-- The text is obtained from the pattern: a text for each `any`, and for each character one that
is the same. -/
inductive Matches (same : α → α → Prop) : List (Piece α) → List α → Prop where
  | nil : Matches same [] []
  | any (w : List α) {ps : List (Piece α)} {t : List α} (h : Matches same ps t) :
      Matches same (.any :: ps) (w ++ t)
  | char {c x : α} {ps : List (Piece α)} {t : List α} (hsame : same c x) (h : Matches same ps t) :
      Matches same (.char c :: ps) (x :: t)

variable {same : α → α → Prop} {c : α} {ps qs : List (Piece α)} {t : List α}

theorem matches_nil : Matches same [] t ↔ t = [] := by
  constructor
  · rintro ⟨⟩
    rfl
  · rintro rfl
    exact .nil

theorem matches_char : Matches same (.char c :: ps) t ↔
    ∃ x t', t = x :: t' ∧ same c x ∧ Matches same ps t' := by
  constructor
  · rintro (_ | _ | ⟨hsame, h⟩)
    exact ⟨_, _, rfl, hsame, h⟩
  · rintro ⟨x, t', rfl, hsame, h⟩
    exact .char hsame h

theorem matches_any : Matches same (.any :: ps) t ↔
    Matches same ps t ∨ ∃ x t', t = x :: t' ∧ Matches same (.any :: ps) t' := by
  constructor
  · rintro (_ | ⟨w, h⟩)
    cases w with
    | nil => exact .inl h
    | cons x w => exact .inr ⟨x, _, rfl, .any w h⟩
  · rintro (h | ⟨x, t', rfl, h⟩)
    · exact .any [] h
    · cases h with
      | any w h => exact .any (x :: w) h

/-- A pattern matches more where some of its characters are made `any`. -/
theorem Matches.weaken (h : Matches same ps t)
    (hps : List.Forall₂ (fun p q => p = q ∨ q = .any) ps qs) : Matches same qs t := by
  induction h generalizing qs with
  | nil =>
    cases hps
    exact .nil
  | any w _ ih =>
    obtain _ | ⟨rfl | rfl, hps⟩ := hps
    · exact .any w (ih hps)
    · exact .any w (ih hps)
  | @char c x _ _ hsame _ ih =>
    obtain _ | ⟨rfl | rfl, hps⟩ := hps
    · exact .char hsame (ih hps)
    · exact .any [x] (ih hps)

end Patterns

/-! ## 2. The function -/

def asterisk : UInt8 := 0x2A

/-- `toupper` in the C locale. -/
def toupper (ch : UInt8) : UInt8 := if 0x61 ≤ ch && ch ≤ 0x7A then ch - 0x20 else ch

/-- The loop over the target, after an asterisk that `next` follows. -/
def skipTo (next : UInt8) (string_match : Str → Bool) : Str → Bool
  | [] => false
  | x :: target =>
    if toupper next = toupper x && string_match target then true
    else skipTo next string_match target

def string_match : Str → Str → Bool
  | target, [] => target.isEmpty
  | target, c :: pattern =>
    if c = asterisk then
      match pattern with
      | [] => true
      | next :: pattern => skipTo next (fun target => string_match target pattern) target
    else
      match target with
      | [] => false
      | x :: target => if toupper c ≠ toupper x then false else string_match target pattern

example (target : Str) : string_match target [] = target.isEmpty := by unfold string_match; rfl

/-! ## 3. What is matched -/

/-- Case-insensitively. -/
def Same (c x : UInt8) : Prop := toupper c = toupper x

/-- The pattern where each asterisk stands for any text. -/
def glob (pattern : Str) : List (Piece UInt8) :=
  pattern.map fun c => if c = asterisk then .any else .char c

/-- The pattern as the function reads it: what follows an asterisk is a character. -/
def asRead : Str → List (Piece UInt8)
  | [] => []
  | c :: pattern =>
    if c = asterisk then
      match pattern with
      | [] => [.any]
      | next :: pattern => .any :: .char next :: asRead pattern
    else .char c :: asRead pattern

theorem skipTo_iff {next : UInt8} {f : Str → Bool} {ps : List (Piece UInt8)}
    (hf : ∀ t, f t = true ↔ Matches Same ps t) (target : Str) :
    skipTo next f target = true ↔ Matches Same (.any :: .char next :: ps) target := by
  induction target with
  | nil =>
    rw [matches_any, matches_char]
    simp [skipTo]
  | cons x target ih =>
    rw [matches_any, matches_char, skipTo]
    simp [ih, ← hf, Same]

theorem string_match_iff (target pattern : Str) :
    string_match target pattern = true ↔ Matches Same (asRead pattern) target := by
  fun_induction asRead pattern generalizing target with
  | case1 => rw [string_match, matches_nil, List.isEmpty_iff]
  | case2 =>
    have hall : Matches Same [.any] target := by
      rw [← List.append_nil target]
      exact .any target .nil
    simp [string_match, hall]
  | case3 next pattern ih =>
    simp only [string_match, if_pos]
    exact skipTo_iff ih target
  | case4 c pattern hc ih =>
    rw [matches_char]
    cases target with
    | nil =>
      unfold string_match
      simp [hc]
    | cons x target =>
      unfold string_match
      simp [hc, ← ih, Same]

/-- No two asterisks are next to each other. -/
def Separate (pattern : Str) : Prop := pattern.IsChain fun a b => ¬(a = asterisk ∧ b = asterisk)

theorem asRead_weaken (pattern : Str) :
    List.Forall₂ (fun p q => p = q ∨ q = .any) (asRead pattern) (glob pattern) := by
  fun_induction asRead pattern with
  | case1 => exact .nil
  | case2 => exact .cons (.inl rfl) .nil
  | case3 next pattern ih =>
    refine .cons (.inl rfl) (.cons ?_ ih)
    by_cases hnext : next = asterisk
    · exact .inr (if_pos hnext)
    · exact .inl (if_neg hnext).symm
  | case4 c pattern hc ih => exact .cons (.inl (if_neg hc).symm) ih

theorem separate_cons {c : UInt8} {pattern : Str} (hc : c ≠ asterisk) :
    Separate (c :: pattern) ↔ Separate pattern := by
  cases pattern <;> simp [Separate, hc]

theorem asRead_of_separate {pattern : Str} (h : Separate pattern) :
    asRead pattern = glob pattern := by
  fun_induction asRead pattern with
  | case1 => rfl
  | case2 => rfl
  | case3 next pattern ih =>
    obtain ⟨hnext, hrest⟩ := List.isChain_cons_cons.1 h
    have hnext : next ≠ asterisk := fun hn => hnext ⟨rfl, hn⟩
    rw [ih ((separate_cons hnext).1 hrest)]
    simp [glob, hnext]
  | case4 c pattern hc ih =>
    rw [ih ((separate_cons hc).1 h)]
    simp [glob, hc]

/-- Of two asterisks next to each other one is read as a character. -/
theorem asterisk_mem_asRead {pattern : Str} (h : ¬Separate pattern) :
    .char asterisk ∈ asRead pattern := by
  fun_induction asRead pattern with
  | case1 => exact absurd .nil h
  | case2 => exact absurd (.singleton _) h
  | case3 next pattern ih =>
    by_cases hnext : next = asterisk
    · simp [hnext]
    · have hrest : ¬Separate pattern := by
        intro hrest
        exact h (List.isChain_cons_cons.2 ⟨fun hn => hnext hn.2, (separate_cons hnext).2 hrest⟩)
      simp [ih hrest]
  | case4 c pattern hc ih =>
    rw [separate_cons hc] at h
    simp [ih h]

/-- Each character of a pattern needs one in the text. -/
theorem Matches.mem {ps : List (Piece UInt8)} {c : UInt8} {t : Str} (h : Matches Same ps t)
    (hc : .char c ∈ ps) : ∃ x ∈ t, Same c x := by
  induction h with
  | nil => cases hc
  | any w _ ih =>
    obtain ⟨x, hx, hsame⟩ := ih (by simpa using hc)
    exact ⟨x, List.mem_append_right w hx, hsame⟩
  | @char c' x _ _ hsame _ ih =>
    rcases List.mem_cons.1 hc with heq | hc
    · cases heq
      exact ⟨x, List.mem_cons_self, hsame⟩
    · obtain ⟨y, hy, hsame⟩ := ih hc
      exact ⟨y, List.mem_cons_of_mem x hy, hsame⟩

theorem glob_matches_filter (pattern : Str) :
    Matches Same (glob pattern) (pattern.filter (· ≠ asterisk)) := by
  induction pattern with
  | nil => exact .nil
  | cons c pattern ih =>
    by_cases hc : c = asterisk
    · have := Matches.any [] ih
      simpa [glob, hc] using this
    · have := Matches.char (show Same c c from rfl) ih
      simpa [glob, hc] using this

theorem same_asterisk {x : UInt8} (h : Same asterisk x) : x = asterisk := by
  grind [Same, toupper, asterisk]

/-- The target that is the pattern without its asterisks is refused where two are adjacent. -/
theorem string_match_adjacent {pattern : Str} (h : ¬Separate pattern) :
    string_match (pattern.filter (· ≠ asterisk)) pattern = false := by
  rw [← Bool.not_eq_true, string_match_iff]
  intro hmatch
  obtain ⟨x, hx, hsame⟩ := hmatch.mem (asterisk_mem_asRead h)
  simp [same_asterisk hsame] at hx

/-- `string_match` is right about a target exactly if it does not need a text of its own for the
second of two asterisks, and about all targets exactly if there are no two. -/
theorem string_match_glob_iff (pattern : Str) :
    (∀ target, (string_match target pattern = true ↔ Matches Same (glob pattern) target) ↔
      (Matches Same (glob pattern) target → Matches Same (asRead pattern) target)) ∧
    ((∀ target, string_match target pattern = true ↔ Matches Same (glob pattern) target) ↔
      Separate pattern) := by
  have hone : ∀ target, (string_match target pattern = true ↔ Matches Same (glob pattern) target) ↔
      (Matches Same (glob pattern) target → Matches Same (asRead pattern) target) := by
    intro target
    rw [string_match_iff]
    exact ⟨fun h => h.2, fun h => ⟨fun hread => hread.weaken (asRead_weaken pattern), h⟩⟩
  refine ⟨hone, ?_, ?_⟩
  · intro hall
    by_contra hadjacent
    have hright := (hall (pattern.filter (· ≠ asterisk))).2 (glob_matches_filter pattern)
    rw [string_match_adjacent hadjacent] at hright
    cases hright
  · intro hseparate target
    rw [hone, asRead_of_separate hseparate]
    exact id

/-- `"**"` against `"a"`. -/
theorem two_asterisks_refuse : ¬∀ target pattern : Str,
    string_match target pattern = true ↔ Matches Same (glob pattern) target := by
  intro hall
  have hmatch : Matches Same (glob [asterisk, asterisk]) [0x61] := .any [0x61] (.any [] .nil)
  have hcode := (hall [0x61] [asterisk, asterisk]).2 hmatch
  revert hcode
  decide

end Gxmpp.TalkBase.StringMatch
