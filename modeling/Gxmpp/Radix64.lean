/-
Bytes as digits of six bits, four for every three bytes, and padding.

A last group of one or two bytes has two or three digits and is filled up with padding; the bits
of its last digit that stand for nothing are zero. `digits` writes this form and `bytes` reads
it and nothing else, so each undoes the other (`bytes_digits`, `digits_bytes`): every list of
bytes has one form. A digit is a number, and padding is none.
-/
import Mathlib.Data.List.Basic

set_option autoImplicit false

namespace Radix64

/-- The digits of some bytes. -/
def digits : List ℕ → List (Option ℕ)
  | [] => []
  | [a] => [some (a / 4), some (a % 4 * 16), none, none]
  | [a, b] => [some (a / 4), some (a % 4 * 16 + b / 16), some (b % 16 * 4), none]
  | a :: b :: c :: l =>
    some (a / 4) :: some (a % 4 * 16 + b / 16) :: some (b % 16 * 4 + c / 64) ::
      some (c % 64) :: digits l

/-- The bytes of some digits, if these are the digits of any. -/
def bytes : List (Option ℕ) → Option (List ℕ)
  | [] => some []
  | [some p, some q, none, none] => if q % 16 = 0 then some [p * 4 + q / 16] else none
  | [some p, some q, some r, none] =>
    if r % 4 = 0 then some [p * 4 + q / 16, q % 16 * 16 + r / 4] else none
  | some p :: some q :: some r :: some s :: l =>
    (bytes l).map fun bs => (p * 4 + q / 16) :: (q % 16 * 16 + r / 4) :: (r % 4 * 64 + s) :: bs
  | _ => none

/-- A digit has six bits. -/
theorem digits_lt {l : List ℕ} (h : ∀ a ∈ l, a < 256) : ∀ d, some d ∈ digits l → d < 64 := by
  induction l using digits.induct with
  | case1 => simp [digits]
  | case2 a =>
    have ha := h a (by simp)
    intro d hd
    simp only [digits, List.mem_cons, Option.some.injEq, reduceCtorEq, List.not_mem_nil,
      or_false] at hd
    omega
  | case3 a b =>
    have ha := h a (by simp)
    have hb := h b (by simp)
    intro d hd
    simp only [digits, List.mem_cons, Option.some.injEq, reduceCtorEq, List.not_mem_nil,
      or_false] at hd
    omega
  | case4 a b c l ih =>
    have ha := h a (by simp)
    have hb := h b (by simp)
    have hc := h c (by simp)
    intro d hd
    simp only [digits, List.mem_cons, Option.some.injEq] at hd
    rcases hd with hd | hd | hd | hd | hd
    · omega
    · omega
    · omega
    · omega
    · exact ih (fun e he => h e (by simp [he])) d hd

/-- Reading what is written. -/
theorem bytes_digits {l : List ℕ} (h : ∀ a ∈ l, a < 256) : bytes (digits l) = some l := by
  induction l using digits.induct with
  | case1 => rfl
  | case2 a =>
    have ha := h a (by simp)
    rw [digits, bytes, if_pos (by omega)]
    congr 2
    omega
  | case3 a b =>
    have ha := h a (by simp)
    have hb := h b (by simp)
    rw [digits, bytes, if_pos (by omega)]
    congr 2
    · omega
    · congr 1
      omega
  | case4 a b c l ih =>
    have ha := h a (by simp)
    have hb := h b (by simp)
    have hc := h c (by simp)
    rw [digits, bytes, ih fun d hd => h d (by simp [hd]), Option.map_some]
    congr 2
    · omega
    · congr 1
      · omega
      · congr 1
        omega

/-- What can be read is what would be written. -/
theorem digits_bytes {s : List (Option ℕ)} (h : ∀ d, some d ∈ s → d < 64) {l : List ℕ}
    (hl : bytes s = some l) : digits l = s ∧ ∀ a ∈ l, a < 256 := by
  induction s using bytes.induct generalizing l with
  | case1 =>
    obtain rfl := Option.some.inj hl
    exact ⟨rfl, by simp⟩
  | case2 p q hq =>
    have hp := h p (by simp)
    have hq' := h q (by simp)
    rw [bytes, if_pos hq] at hl
    obtain rfl := Option.some.inj hl
    refine ⟨?_, ?_⟩
    · rw [digits, show (p * 4 + q / 16) / 4 = p by omega,
        show (p * 4 + q / 16) % 4 * 16 = q by omega]
    · simp only [List.mem_singleton, forall_eq]
      omega
  | case3 p q hq | case5 p q r hq =>
    rw [bytes, if_neg hq] at hl
    cases hl
  | case4 p q r hr =>
    have hp := h p (by simp)
    have hq := h q (by simp)
    have hr' := h r (by simp)
    rw [bytes, if_pos hr] at hl
    obtain rfl := Option.some.inj hl
    refine ⟨?_, ?_⟩
    · rw [digits, show (p * 4 + q / 16) / 4 = p by omega,
        show (p * 4 + q / 16) % 4 * 16 + (q % 16 * 16 + r / 4) / 16 = q by omega,
        show (q % 16 * 16 + r / 4) % 16 * 4 = r by omega]
    · simp only [List.mem_cons, List.not_mem_nil, or_false, forall_eq_or_imp, forall_eq]
      omega
  | case6 p q r t s ih =>
    have hp := h p (by simp)
    have hq := h q (by simp)
    have hr := h r (by simp)
    have ht := h t (by simp)
    rw [bytes] at hl
    obtain ⟨bs, hbs, rfl⟩ := Option.map_eq_some_iff.1 hl
    obtain ⟨hdigits, hbytes⟩ := ih (fun d hd => h d (by simp [hd])) hbs
    refine ⟨?_, ?_⟩
    · rw [digits, hdigits, show (p * 4 + q / 16) / 4 = p by omega,
        show (p * 4 + q / 16) % 4 * 16 + (q % 16 * 16 + r / 4) / 16 = q by omega,
        show (q % 16 * 16 + r / 4) % 16 * 4 + (r % 4 * 64 + t) / 64 = r by omega,
        show (r % 4 * 64 + t) % 64 = t by omega]
    · intro a ha
      simp only [List.mem_cons] at ha
      rcases ha with rfl | rfl | rfl | ha
      · omega
      · omega
      · omega
      · exact hbytes a ha
  | case7 s h1 h2 h3 h4 =>
    rw [bytes] at hl
    · cases hl
    · exact h1
    · exact h2
    · exact h3
    · exact h4

end Radix64
