/-
`xml_encode`, `html_encode` and what reads them.

`html_encode` reads its source as UTF-8 and writes what is not ASCII as a reference in decimal;
`xml_decode` writes the number of a reference as UTF-8. Both go through the shortest form of a
value (`shortestForm`): it is what `utf8_encode` writes and what `utf8_decode` reads back. A
reference is one of the characters that `xml_decode` reads, whatever follows it.

What is written for a character has neither quotes nor angle brackets, and an ampersand only as
its first byte; so it is with all of the output, of any source and for any buffer.
-/
import Gxmpp.CodecRoundTrips
import Gxmpp.PresenceSetters

set_option autoImplicit false

namespace Gxmpp.TalkBase.StringEncode

open Filling (pieces fitting)

/-! ## 1. The shortest form -/

/-- The bytes of a value below `2 ^ 21` in as few bytes as UTF-8 has for it. -/
def shortestForm (v : ℕ) : Str :=
  if v < 0x80 then [UInt8.ofNat v]
  else if v < 0x800 then [UInt8.ofNat (0xC0 + v / 2 ^ 6), UInt8.ofNat (0x80 + v % 2 ^ 6)]
  else if v < 0x10000 then
    [UInt8.ofNat (0xE0 + v / 2 ^ 12), UInt8.ofNat (0x80 + v / 2 ^ 6 % 2 ^ 6),
      UInt8.ofNat (0x80 + v % 2 ^ 6)]
  else
    [UInt8.ofNat (0xF0 + v / 2 ^ 18), UInt8.ofNat (0x80 + v / 2 ^ 12 % 2 ^ 6),
      UInt8.ofNat (0x80 + v / 2 ^ 6 % 2 ^ 6), UInt8.ofNat (0x80 + v % 2 ^ 6)]

/-- The bytes `10xxxxxx`. -/
theorem trailer_bits : ∀ a < 64, 0x80 ||| a = 0x80 + a ∧ (0x80 + a) &&& 0xC0 = 0x80
    ∧ (0x80 + a) &&& 0x3F = a := by
  decide

/-- The bytes `110xxxxx`. -/
theorem two_bits : ∀ a < 32, 0xC0 ||| a = 0xC0 + a ∧ (0xC0 + a) &&& 0x80 ≠ 0
    ∧ (0xC0 + a) &&& 0xE0 = 0xC0 ∧ (0xC0 + a) &&& 0x1F = a := by
  decide

/-- The bytes `1110xxxx`. -/
theorem three_bits : ∀ a < 16, 0xE0 ||| a = 0xE0 + a ∧ (0xE0 + a) &&& 0x80 ≠ 0
    ∧ (0xE0 + a) &&& 0xE0 ≠ 0xC0 ∧ (0xE0 + a) &&& 0xF0 = 0xE0 ∧ (0xE0 + a) &&& 0x0F = a := by
  decide

/-- The bytes `11110xxx`. -/
theorem four_bits : ∀ a < 8, 0xF0 ||| a = 0xF0 + a ∧ (0xF0 + a) &&& 0x80 ≠ 0
    ∧ (0xF0 + a) &&& 0xE0 ≠ 0xC0 ∧ (0xF0 + a) &&& 0xF0 ≠ 0xE0 ∧ (0xF0 + a) &&& 0xF8 = 0xF0
    ∧ (0xF0 + a) &&& 0x07 = a := by
  decide

theorem trailer_eq (v : ℕ) : trailer v = UInt8.ofNat (0x80 + v % 2 ^ 6) := by
  have hlow : v &&& 0x3F = v % 2 ^ 6 := Nat.and_two_pow_sub_one_eq_mod v 6
  unfold trailer
  rw [hlow, (trailer_bits (v % 2 ^ 6) (Nat.mod_lt _ (by decide))).1]

variable {v n a : ℕ} {entity : Str → Prop}

/-- What `utf8_encode` writes. -/
theorem utf8_eq (hv : v ≤ 0x1FFFFF) : utf8 v = shortestForm v := by
  unfold utf8 utf8_encode shortestForm
  rw [trailer_eq, trailer_eq, trailer_eq, Nat.shiftRight_eq_div_pow, Nat.shiftRight_eq_div_pow,
    Nat.shiftRight_eq_div_pow]
  by_cases h1 : v < 0x80
  · rw [if_pos h1, if_pos ⟨by omega, by omega⟩]
  rw [if_neg h1, if_neg (by omega)]
  by_cases h2 : v < 0x800
  · have hlead := two_bits (v / 2 ^ 6) (by omega)
    rw [if_pos h2, if_pos ⟨by omega, by omega⟩, hlead.1]
  rw [if_neg h2, if_neg (by omega)]
  by_cases h3 : v < 0x10000
  · have hlead := three_bits (v / 2 ^ 12) (by omega)
    rw [if_pos h3, if_pos ⟨by omega, by omega⟩, hlead.1]
  have hlead := four_bits (v / 2 ^ 18) (by omega)
  rw [if_neg h3, if_neg (by omega), if_pos ⟨hv, by omega⟩, hlead.1]

theorem toNat_ofNat (hn : n < 256) : (UInt8.ofNat n).toNat = n := by
  rw [UInt8.toNat_ofNat']
  exact Nat.mod_eq_of_lt hn

theorem isTrailer_ofNat (ha : a < 64) : isTrailer (UInt8.ofNat (0x80 + a)) = true := by
  unfold isTrailer
  rw [toNat_ofNat (by omega), (trailer_bits a ha).2.1]
  rfl

/-- High bits and the low ones that are shifted in. -/
theorem shift_or (k : ℕ) {w : ℕ} (ha : a < 2 ^ w) : k <<< w ||| a = k * 2 ^ w + a := by
  rw [Nat.shiftLeft_eq, Nat.mul_comm, Nat.two_pow_add_eq_or_of_lt ha]

section Sequences

variable {b0 b1 b2 b3 : UInt8} {n : ℕ} (t : Str)

theorem not_short {k : ℕ} (hn : k ≤ n) (h : isTrailer b0 = true) :
    ¬ (n < k ∨ ¬ isTrailer b0 = true) := by
  rintro (hlt | hb)
  · omega
  · exact hb h

theorem utf8_decode_one (h0 : b0.toNat &&& 0x80 = 0x00) :
    utf8_decode (b0 :: t) n = some (b0.toNat, 1) :=
  if_pos h0

theorem utf8_decode_two (hn : 2 ≤ n) (h0 : b0.toNat &&& 0x80 ≠ 0x00)
    (h1 : isTrailer b1 = true) (htwo : b0.toNat &&& 0xE0 = 0xC0) :
    utf8_decode (b0 :: b1 :: t) n
      = some ((b0.toNat &&& 0x1F) <<< 6 ||| b1.toNat &&& 0x3F, 2) := by
  unfold utf8_decode
  simp only [List.getD_cons_zero, List.getD_cons_succ]
  rw [if_neg h0, if_neg (not_short hn h1), if_pos htwo]

theorem utf8_decode_three (hn : 3 ≤ n) (h0 : b0.toNat &&& 0x80 ≠ 0x00)
    (h1 : isTrailer b1 = true) (htwo : b0.toNat &&& 0xE0 ≠ 0xC0) (h2 : isTrailer b2 = true)
    (hthree : b0.toNat &&& 0xF0 = 0xE0) :
    utf8_decode (b0 :: b1 :: b2 :: t) n
      = some ((b0.toNat &&& 0x0F) <<< 12
        ||| ((b1.toNat &&& 0x3F) <<< 6 ||| b2.toNat &&& 0x3F), 3) := by
  unfold utf8_decode
  simp only [List.getD_cons_zero, List.getD_cons_succ]
  rw [if_neg h0, if_neg (not_short (by omega) h1), if_neg htwo, if_neg (not_short hn h2),
    if_pos hthree]

theorem utf8_decode_four (hn : 4 ≤ n) (h0 : b0.toNat &&& 0x80 ≠ 0x00)
    (h1 : isTrailer b1 = true) (htwo : b0.toNat &&& 0xE0 ≠ 0xC0) (h2 : isTrailer b2 = true)
    (hthree : b0.toNat &&& 0xF0 ≠ 0xE0) (h3 : isTrailer b3 = true)
    (hfour : b0.toNat &&& 0xF8 = 0xF0) :
    utf8_decode (b0 :: b1 :: b2 :: b3 :: t) n
      = some ((b0.toNat &&& 0x07) <<< 18
        ||| (((b1.toNat &&& 0x3F) <<< 6 ||| b2.toNat &&& 0x3F) <<< 6 ||| b3.toNat &&& 0x3F),
        4) := by
  unfold utf8_decode
  simp only [List.getD_cons_zero, List.getD_cons_succ]
  rw [if_neg h0, if_neg (not_short (by omega) h1), if_neg htwo, if_neg (not_short (by omega) h2),
    if_neg hthree, if_neg (not_short hn h3), if_pos hfour]

end Sequences

/-- What `utf8_decode` reads, in front of anything. -/
theorem utf8_decode_shortestForm (hv : v ≤ 0x1FFFFF) (t : Str) :
    utf8_decode (shortestForm v ++ t) (shortestForm v ++ t).length
      = some (v, (shortestForm v).length) := by
  have hlow : ∀ a, a < 64 → isTrailer (UInt8.ofNat (0x80 + a)) = true
      ∧ (UInt8.ofNat (0x80 + a)).toNat &&& 0x3F = a := by
    intro a ha
    refine ⟨isTrailer_ofNat ha, ?_⟩
    rw [toNat_ofNat (by omega), (trailer_bits a ha).2.2]
  have hlow0 := hlow (v % 2 ^ 6) (by omega)
  have hlow1 := hlow (v / 2 ^ 6 % 2 ^ 6) (by omega)
  have hlow2 := hlow (v / 2 ^ 12 % 2 ^ 6) (by omega)
  unfold shortestForm
  by_cases h1 : v < 0x80
  · have hone : ∀ v < 0x80, v &&& 0x80 = 0 := by decide +kernel
    rw [if_pos h1]
    rw [List.singleton_append, utf8_decode_one t (by rw [toNat_ofNat (by omega), hone v h1]),
      toNat_ofNat (by omega)]
    rfl
  rw [if_neg h1]
  by_cases h2 : v < 0x800
  · obtain ⟨-, hascii, htwo, hhigh⟩ := two_bits (v / 2 ^ 6) (by omega)
    rw [← toNat_ofNat (n := 0xC0 + v / 2 ^ 6) (by omega)] at hascii htwo hhigh
    rw [if_pos h2]
    simp only [List.cons_append, List.nil_append]
    rw [utf8_decode_two t (by simp) hascii hlow0.1 htwo, hhigh, hlow0.2, shift_or _ (by omega)]
    simp
    omega
  rw [if_neg h2]
  by_cases h3 : v < 0x10000
  · obtain ⟨-, hascii, htwo, hthree, hhigh⟩ := three_bits (v / 2 ^ 12) (by omega)
    rw [← toNat_ofNat (n := 0xE0 + v / 2 ^ 12) (by omega)] at hascii htwo hthree hhigh
    rw [if_pos h3]
    simp only [List.cons_append, List.nil_append]
    rw [utf8_decode_three t (by simp) hascii hlow1.1 htwo hlow0.1 hthree, hhigh, hlow1.2,
      hlow0.2, shift_or (v / 2 ^ 6 % 2 ^ 6) (by omega), shift_or _ (by omega)]
    simp
    omega
  rw [if_neg h3]
  obtain ⟨-, hascii, htwo, hthree, hfour, hhigh⟩ := four_bits (v / 2 ^ 18) (by omega)
  rw [← toNat_ofNat (n := 0xF0 + v / 2 ^ 18) (by omega)] at hascii htwo hthree hfour hhigh
  simp only [List.cons_append, List.nil_append]
  rw [utf8_decode_four t (by simp) hascii hlow2.1 htwo hlow1.1 hthree hlow0.1 hfour, hhigh,
    hlow2.2, hlow1.2, hlow0.2, shift_or (v / 2 ^ 12 % 2 ^ 6) (by omega),
    shift_or (v / 2 ^ 12 % 2 ^ 6 * 2 ^ 6 + v / 2 ^ 6 % 2 ^ 6) (by omega), shift_or _ (by omega)]
  simp
  omega

theorem shift_or_lt {k w : ℕ} (hk : k < 2 ^ n) (ha : a < 2 ^ w) : k <<< w ||| a < 2 ^ (n + w) := by
  rw [shift_or k ha, Nat.pow_add]
  calc k * 2 ^ w + a < k * 2 ^ w + 2 ^ w := Nat.add_lt_add_left ha _
    _ = (k + 1) * 2 ^ w := (Nat.succ_mul k (2 ^ w)).symm
    _ ≤ 2 ^ n * 2 ^ w := Nat.mul_le_mul_right _ hk

/-- A value that is read has 21 bits. -/
theorem utf8_decode_lt {s : Str} {srclen value : ℕ} (h : utf8_decode s srclen = some (value, n)) :
    value < 2 ^ 21 := by
  have hlow : ∀ a : ℕ, a &&& 0x3F < 2 ^ 6 := fun a => Nat.and_lt_two_pow a (by decide)
  have hone : (s.getD 0 0).toNat < 2 ^ 21 := Nat.lt_trans (UInt8.toNat_lt _) (by decide)
  have htwo : ∀ a b : ℕ, (a &&& 0x1F) <<< 6 ||| b &&& 0x3F < 2 ^ (5 + 6) := fun a b =>
    shift_or_lt (Nat.and_lt_two_pow a (by decide)) (hlow b)
  have hmiddle : ∀ a b : ℕ, (a &&& 0x3F) <<< 6 ||| b &&& 0x3F < 2 ^ (6 + 6) := fun a b =>
    shift_or_lt (hlow a) (hlow b)
  have hthree : ∀ a b c : ℕ,
      (a &&& 0x0F) <<< 12 ||| ((b &&& 0x3F) <<< 6 ||| c &&& 0x3F) < 2 ^ (4 + 12) :=
    fun a b c => shift_or_lt (Nat.and_lt_two_pow a (by decide)) (hmiddle b c)
  have hfour : ∀ a b c d : ℕ, (a &&& 0x07) <<< 18
      ||| (((b &&& 0x3F) <<< 6 ||| c &&& 0x3F) <<< 6 ||| d &&& 0x3F) < 2 ^ (3 + 18) :=
    fun a b c d =>
      shift_or_lt (Nat.and_lt_two_pow a (by decide)) (shift_or_lt (hmiddle b c) (hlow d))
  unfold utf8_decode at h
  dsimp only at h
  split_ifs at h <;> simp only [Option.some.injEq, Prod.mk.injEq] at h <;> rw [← h.1]
  · exact hone
  · exact Nat.lt_trans (htwo _ _) (by decide)
  · exact Nat.lt_trans (hthree _ _ _) (by decide)
  · exact hfour _ _ _ _

/-! ## 2. References -/

/-- The digits that are printed are read as the number. -/
theorem strtoul_decimal (hv : v ≤ ULONG_MAX) :
    strtoul (XmlnsStack.decimal v) 10 = (v, (XmlnsStack.decimal v).length) := by
  have hdigits : ∀ ch ∈ XmlnsStack.decimal v, 0x30 ≤ ch ∧ ch ≤ 0x39 := fun ch hch => by
    simpa [XmlnsStack.isDigit] using XmlnsStack.isDigit_decimal v ch hch
  have hdigit : ∀ ch : UInt8, 0x30 ≤ ch ∧ ch ≤ 0x39 → digit ch = some (ch.toNat - 0x30) :=
    fun ch hch => if_pos hch
  have hfirst : ∃ ch s, XmlnsStack.decimal v = ch :: s ∧ isspace ch = false ∧ ch ≠ 0x2D
      ∧ ch ≠ 0x2B := by
    obtain ⟨ch, s, hs⟩ := List.exists_cons_of_ne_nil (XmlnsStack.decimal_ne_nil v)
    exact ⟨ch, s, hs, plain_of_isDigit (XmlnsStack.isDigit_decimal v ch (hs ▸ List.mem_cons_self))⟩
  have hspace : (XmlnsStack.decimal v).dropWhile isspace = XmlnsStack.decimal v := by
    obtain ⟨ch, s, hs, hch, -⟩ := hfirst
    rw [hs, List.dropWhile_cons_of_neg (by simp [hch])]
  have hsign : strtoulSign (XmlnsStack.decimal v) = (false, XmlnsStack.decimal v) := by
    obtain ⟨ch, s, hs, -, hminus, hplus⟩ := hfirst
    rw [hs]
    exact (if_neg hminus).trans (if_neg hplus)
  have hnumber : strtoulPrefix 10 (XmlnsStack.decimal v) = XmlnsStack.decimal v := by
    rcases XmlnsStack.decimal v with _ | ⟨a, _ | ⟨b, _ | ⟨c, s⟩⟩⟩ <;> simp [strtoulPrefix]
  have htake : (XmlnsStack.decimal v).takeWhile (isDigit 10) = XmlnsStack.decimal v := by
    rw [List.takeWhile_eq_self_iff]
    intro ch hch
    obtain ⟨hlo, hhi⟩ := hdigits ch hch
    have hlt : ch.toNat - 0x30 < 10 := by
      have hle : ch.toNat ≤ 0x39 := hhi
      omega
    unfold isDigit
    rw [hdigit ch (hdigits ch hch)]
    simpa using hlt
  have hvalue : (XmlnsStack.decimal v).foldl (fun n ch => 10 * n + (digit ch).getD 0) 0 = v := by
    refine Eq.trans ?_ (atoiDigits_decimal v)
    unfold atoiDigits
    rw [takeWhile_decimal]
    refine List.foldl_ext _ _ 0 fun n ch hch => ?_
    rw [hdigit ch (hdigits ch hch), Option.getD_some]
  unfold strtoul
  rw [hspace, hsign]
  dsimp only
  rw [hnumber, htake, if_neg (by simpa using XmlnsStack.decimal_ne_nil v)]
  unfold strtoulValue
  dsimp only
  rw [hvalue, if_neg (Nat.not_lt_of_le hv)]
  simp

theorem numeral_decimal (hv : v ≤ 0x1FFFFF) : Numeral 10 (XmlnsStack.decimal v) := by
  unfold Numeral
  rw [strtoul_decimal (Nat.le_trans hv (by decide))]
  exact ⟨rfl, hv⟩

/-- Ten characters are enough. -/
theorem reference_eq (hv : v ≤ 0x1FFFFF) :
    reference v = (Token.decimal (XmlnsStack.decimal v)).text := by
  have hlength : (XmlnsStack.decimal v).length ≤ 7 := by
    unfold XmlnsStack.decimal
    rw [List.length_map, Nat.length_toDigits_le_iff (by decide) (by decide)]
    omega
  unfold reference
  apply List.take_of_length_le
  simp [str]
  omega

/-! ## 3. Round trips -/

/-- What `html_encode` writes for a value. -/
def htmlPiece (v : ℕ) : Str :=
  if v < 128 then
    if isUnsafe HTML_UNSAFE (UInt8.ofNat v) then htmlEscseq (UInt8.ofNat v) else [UInt8.ofNat v]
  else reference v

/-- The bytes that have an entity. -/
theorem isUnsafe_iff (ch : UInt8) :
    isUnsafe XML_UNSAFE ch = true
      ↔ ch = 0x3C ∨ ch = 0x3E ∨ ch = 0x27 ∨ ch = 0x22 ∨ ch = 0x26 := by
  have hall := byte_forall (fun ch => isUnsafe XML_UNSAFE ch
    == (ch = 0x3C || ch = 0x3E || ch = 0x27 || ch = 0x22 || ch = 0x26)) (by decide +kernel) ch
  rw [beq_iff_eq] at hall
  rw [hall]
  simp [or_assoc]

/-- A byte is written as a character that stands for it. -/
theorem xmlPiece_token (ch : UInt8) :
    ∃ tok : Token, tok.Proper ∧ tok.text = xmlPiece ch ∧ tok.bytes = [ch] := by
  unfold xmlPiece
  by_cases h : isUnsafe XML_UNSAFE ch = true
  · rw [if_pos h]
    rcases (isUnsafe_iff ch).1 h with rfl | rfl | rfl | rfl | rfl
    · exact ⟨.lt, trivial, rfl, rfl⟩
    · exact ⟨.gt, trivial, rfl, rfl⟩
    · exact ⟨.apos, trivial, rfl, rfl⟩
    · exact ⟨.quot, trivial, rfl, rfl⟩
    · exact ⟨.amp, trivial, rfl, rfl⟩
  · rw [if_neg h]
    exact ⟨.plain ch, fun hch => h ((isUnsafe_iff ch).2 (by simp [hch])), rfl, rfl⟩

theorem numeral_apos : Numeral 10 (str "39") := by
  unfold Numeral
  decide +kernel

/-- A value is written as a character that stands for its bytes. -/
theorem htmlPiece_token (hv : v ≤ 0x1FFFFF) :
    ∃ tok : Token, tok.Proper ∧ tok.text = htmlPiece v ∧ tok.bytes = shortestForm v := by
  unfold htmlPiece
  by_cases hascii : v < 128
  · have hbytes : shortestForm v = [UInt8.ofNat v] := if_pos hascii
    rw [if_pos hascii, hbytes]
    by_cases h : isUnsafe HTML_UNSAFE (UInt8.ofNat v) = true
    · rw [if_pos h]
      rcases (isUnsafe_iff _).1 h with h | h | h | h | h <;> rw [h]
      · exact ⟨.lt, trivial, rfl, rfl⟩
      · exact ⟨.gt, trivial, rfl, rfl⟩
      · exact ⟨.decimal (str "39"), numeral_apos, rfl, by decide +kernel⟩
      · exact ⟨.quot, trivial, rfl, rfl⟩
      · exact ⟨.amp, trivial, rfl, rfl⟩
    · rw [if_neg h]
      exact ⟨.plain _, fun hch => h ((isUnsafe_iff _).2 (by simp [hch])), rfl, rfl⟩
  · rw [if_neg hascii, reference_eq hv]
    refine ⟨.decimal (XmlnsStack.decimal v), numeral_decimal hv, rfl, ?_⟩
    show utf8 (strtoul (XmlnsStack.decimal v) 10).1 = shortestForm v
    rw [strtoul_decimal (Nat.le_trans hv (by decide)), utf8_eq hv]

/-- The first byte tells whether a value is ASCII. -/
theorem shortestForm_head (hv : v ≤ 0x1FFFFF) :
    ∃ ch rest, shortestForm v = ch :: rest ∧ (ch < 128 ↔ v < 128)
      ∧ (v < 128 → ch = UInt8.ofNat v ∧ rest = []) := by
  have hlead : ∀ n, n < 256 → (UInt8.ofNat n < 128 ↔ n < 128) := by
    intro n hn
    rw [UInt8.lt_iff_toNat_lt, toNat_ofNat hn]
    rfl
  unfold shortestForm
  by_cases h1 : v < 0x80
  · rw [if_pos h1]
    exact ⟨_, _, rfl, hlead v (by omega), fun _ => ⟨rfl, rfl⟩⟩
  · rw [if_neg h1]
    split_ifs <;> exact ⟨_, _, rfl, (hlead _ (by omega)).trans (by omega), fun h => absurd h h1⟩

theorem htmlNext_shortestForm (hv : v ≤ 0x1FFFFF) (t : Str) :
    htmlNext (shortestForm v ++ t) = some (htmlPiece v, (shortestForm v).length) := by
  obtain ⟨ch, rest, hform, hiff, hascii⟩ := shortestForm_head hv
  have hnext : htmlNext (shortestForm v ++ t) = if ch < 128 then
      some (if isUnsafe HTML_UNSAFE ch then htmlEscseq ch else [ch], 1)
    else some (reference (htmlSequence (shortestForm v ++ t)).1,
      (htmlSequence (shortestForm v ++ t)).2) := by
    rw [hform]
    rfl
  rw [hnext]
  unfold htmlPiece
  by_cases hv128 : v < 128
  · obtain ⟨rfl, rfl⟩ := hascii hv128
    rw [if_pos (hiff.2 hv128), if_pos hv128, hform]
    rfl
  · have hsequence : htmlSequence (shortestForm v ++ t) = (v, (shortestForm v).length) := by
      unfold htmlSequence
      rw [utf8_decode_shortestForm hv]
      rfl
    rw [if_neg (fun h => hv128 (hiff.1 h)), if_neg hv128, hsequence]

theorem length_htmlPiece (hv : v ≤ 0x1FFFFF) :
    0 < (htmlPiece v).length ∧ (htmlPiece v).length ≤ 10 := by
  have hescape : ∀ ch, isUnsafe HTML_UNSAFE ch = true →
      0 < (htmlEscseq ch).length ∧ (htmlEscseq ch).length ≤ 10 := by
    intro ch h
    rcases (isUnsafe_iff ch).1 h with rfl | rfl | rfl | rfl | rfl <;> decide
  unfold htmlPiece
  split_ifs with hascii hunsafe
  · exact hescape _ hunsafe
  · exact ⟨Nat.one_pos, by simp⟩
  · refine ⟨?_, ?_⟩
    · rw [reference_eq hv]
      exact List.length_pos_of_ne_nil (text_ne_nil _)
    · exact List.length_take_le _ _

theorem length_xmlPiece (ch : UInt8) : 0 < (xmlPiece ch).length ∧ (xmlPiece ch).length ≤ 10 := by
  unfold xmlPiece
  split
  · next hunsafe =>
      rcases (isUnsafe_iff ch).1 hunsafe with rfl | rfl | rfl | rfl | rfl <;> decide
  · exact ⟨Nat.one_pos, by simp⟩

/-- Text in UTF-8 that takes as few bytes as there are for each value. -/
def ShortestForm (s : Str) : Prop :=
  ∃ values : List ℕ, (∀ v ∈ values, v ≤ 0x1FFFFF) ∧ s = values.flatMap shortestForm

/-- With buffers that are large enough the decoder gives back what was encoded. -/
def RoundTrips (enc dec : Codec) (s : Str) : Prop :=
  ∀ n m, 10 * s.length < n → s.length < m →
    ∃ out back, enc.run n s s.length = some out
      ∧ dec.run m out.text out.text.length = some back ∧ back.text = s

theorem roundTrips_of {ι : Type} {enc dec : Codec} {part piece : ι → Str} {l : List ι}
    (hpart : ∀ i ∈ l, 0 < (part i).length)
    (hpiece : ∀ i ∈ l, 0 < (piece i).length ∧ (piece i).length ≤ 10)
    (henc : ∀ i ∈ l, ∀ t, enc.next (part i ++ t) = some (piece i, (part i).length))
    (hdec : ∀ i ∈ l, ∀ t, dec.next (piece i ++ t) = some (part i, (piece i).length)) :
    RoundTrips enc dec (l.flatMap part) := by
  intro n m hn hm
  have hlength : (l.flatMap piece).length ≤ 10 * (l.flatMap part).length := by
    apply length_flatMap_le
    intro i hi
    have hi' := hpart i hi
    have hi'' := (hpiece i hi).2
    omega
  obtain ⟨out, k, hrun, hall, hback⟩ := reads_back enc dec
    (fun i hi => List.ne_nil_of_length_pos (hpart i hi))
    (fun i hi => List.ne_nil_of_length_pos (hpiece i hi).1) henc hdec n
  rw [hall (Nat.lt_of_le_of_lt hlength hn)] at hback
  obtain ⟨back, hdecode, htext⟩ := hback m hm
  exact ⟨out, back, hrun, hdecode, htext⟩

theorem xml_roundTrips (s : Str) : RoundTrips .xml_encode .xml_decode s := by
  have htrip : RoundTrips .xml_encode .xml_decode (s.flatMap fun ch => [ch]) := by
    refine roundTrips_of (fun _ _ => Nat.one_pos) (fun ch _ => length_xmlPiece ch)
      (fun ch _ t => rfl) ?_
    intro ch _ t
    obtain ⟨tok, hproper, htext, hbytes⟩ := xmlPiece_token ch
    rw [← htext, ← hbytes]
    exact xmlDecodeNext_text hproper t
  rwa [flatMap_byte] at htrip

theorem html_roundTrips {s : Str} (h : ShortestForm s) :
    RoundTrips .html_encode .html_decode s := by
  obtain ⟨values, hvalues, rfl⟩ := h
  refine roundTrips_of ?_ (fun v hv => length_htmlPiece (hvalues v hv))
    (fun v hv t => htmlNext_shortestForm (hvalues v hv) t) ?_
  · intro v hv
    obtain ⟨ch, rest, hform, -, -⟩ := shortestForm_head (hvalues v hv)
    rw [hform]
    exact Nat.succ_pos _
  · intro v hv t
    obtain ⟨tok, hproper, htext, hbytes⟩ := htmlPiece_token (hvalues v hv)
    rw [← htext, ← hbytes]
    exact xmlDecodeNext_text hproper t

/-! ## 4. No markup -/

/-- Neither an angle bracket nor a quote nor an ampersand. -/
def plainByte (ch : UInt8) : Bool :=
  ch ≠ 0x3C && ch ≠ 0x3E && ch ≠ 0x27 && ch ≠ 0x22 && ch ≠ 0x26

/-- The entity references that the encoders write. -/
def xmlEntities : List Str :=
  [str "&lt;", str "&gt;", str "&apos;", str "&quot;", str "&amp;"]

def htmlEntities : List Str :=
  [str "&lt;", str "&gt;", str "&#39;", str "&quot;", str "&amp;"]

/-- The references of `html_encode`: an entity, or the number of a value in decimal. -/
def HtmlEntity (e : Str) : Prop :=
  e ∈ htmlEntities ∨ ∃ v ≤ 0x1FFFFF, e = str "&#" ++ XmlnsStack.decimal v ++ str ";"

/-- There are no angle brackets and no quotes, and each ampersand begins an entity. -/
structure NoMarkup (entity : Str → Prop) (out : Str) : Prop where
  bytes : ∀ ch ∈ out, ch ≠ 0x3C ∧ ch ≠ 0x3E ∧ ch ≠ 0x27 ∧ ch ≠ 0x22
  ampersands : ∀ rest, 0x26 :: rest <:+ out → ∃ e, entity e ∧ e <+: 0x26 :: rest

/-- A plain byte, or an entity that is plain behind its ampersand. -/
def SafePiece (entity : Str → Prop) (p : Str) : Prop :=
  (∃ ch, p = [ch] ∧ plainByte ch = true)
    ∨ (entity p ∧ ∃ body, p = 0x26 :: body ∧ ∀ ch ∈ body, plainByte ch = true)

theorem noMarkup_flatten {ps : List Str} (h : ∀ p ∈ ps, SafePiece entity p) :
    NoMarkup entity ps.flatten := by
  constructor
  · intro ch hch
    obtain ⟨p, hp, hch⟩ := List.mem_flatten.1 hch
    have hplain : plainByte ch = true → ch ≠ 0x3C ∧ ch ≠ 0x3E ∧ ch ≠ 0x27 ∧ ch ≠ 0x22 := by
      intro h
      simp only [plainByte, Bool.and_eq_true, decide_eq_true_eq] at h
      exact ⟨h.1.1.1.1, h.1.1.1.2, h.1.1.2, h.1.2⟩
    rcases h p hp with ⟨c, rfl, hc⟩ | ⟨-, body, rfl, hbody⟩
    · obtain rfl := List.mem_singleton.1 hch
      exact hplain hc
    · rcases List.mem_cons.1 hch with rfl | hch
      · decide
      · exact hplain (hbody ch hch)
  · have hamp : ¬ plainByte 0x26 = true := by decide
    induction ps with
    | nil =>
      intro rest hrest
      exact absurd (List.suffix_nil.1 hrest) (List.cons_ne_nil _ _)
    | cons p ps ih =>
      have hps := ih fun q hq => h q (List.mem_cons_of_mem _ hq)
      rintro rest ⟨u, hu⟩
      rw [List.flatten_cons, List.append_eq_append_iff] at hu
      rcases hu with ⟨a, hp, ha⟩ | ⟨c, -, hc⟩
      · rcases a with _ | ⟨amp, a⟩
        · exact hps rest ⟨[], ha⟩
        -- it is in this piece, and then it begins it
        obtain ⟨rfl, -⟩ := List.cons_eq_cons.1 ha
        rcases h p List.mem_cons_self with ⟨ch, hone, hch⟩ | ⟨hentity, body, hbody, hplain⟩
        · have hmem : (0x26 : UInt8) ∈ [ch] := by
            rw [← hone, hp]
            simp
          rw [List.mem_singleton.1 hmem] at hamp
          exact absurd hch hamp
        · rcases u with _ | ⟨x, u⟩
          · refine ⟨p, hentity, ?_⟩
            rw [ha, hp]
            exact List.prefix_append _ _
          · rw [hbody, List.cons_append] at hp
            obtain ⟨-, rfl⟩ := List.cons_eq_cons.1 hp
            exact absurd (hplain 0x26 (by simp)) hamp
      · exact hps rest ⟨c, hc.symm⟩

theorem safePiece_entity {body : Str} (he : entity (0x26 :: body))
    (hbody : body.all plainByte = true) : SafePiece entity (0x26 :: body) :=
  Or.inr ⟨he, body, rfl, List.all_eq_true.1 hbody⟩

theorem plainByte_of_safe {ch : UInt8} (h : ¬ isUnsafe XML_UNSAFE ch = true) :
    plainByte ch = true := by
  rw [isUnsafe_iff] at h
  simp only [plainByte, Bool.and_eq_true, decide_eq_true_eq]
  grind

theorem xmlPiece_safe (ch : UInt8) : SafePiece (· ∈ xmlEntities) (xmlPiece ch) := by
  unfold xmlPiece
  by_cases h : isUnsafe XML_UNSAFE ch = true
  · rw [if_pos h]
    rcases (isUnsafe_iff ch).1 h with rfl | rfl | rfl | rfl | rfl <;>
      exact safePiece_entity (by decide) (by decide)
  · rw [if_neg h]
    exact Or.inl ⟨ch, rfl, plainByte_of_safe h⟩

theorem reference_safe (hv : v ≤ 0x1FFFFF) : SafePiece HtmlEntity (reference v) := by
  have hshape : reference v = 0x26 :: (0x23 :: (XmlnsStack.decimal v ++ [0x3B])) := by
    rw [reference_eq hv]
    simp [Token.text, str]
  have hdigit : ∀ ch ∈ XmlnsStack.decimal v, plainByte ch = true := by
    intro ch hch
    have hall := byte_forall (fun ch => !XmlnsStack.isDigit ch || plainByte ch)
      (by decide +kernel) ch
    rw [XmlnsStack.isDigit_decimal v ch hch] at hall
    simpa using hall
  rw [hshape]
  apply safePiece_entity
  · refine Or.inr ⟨v, hv, ?_⟩
    simp [str]
  · have hhash : plainByte 0x23 = true := by decide
    have hsemicolon : plainByte 0x3B = true := by decide
    rw [List.all_cons, List.all_append, hhash, List.all_eq_true.2 hdigit]
    simp [hsemicolon]

theorem htmlNext_safe (s p : Str) (k : ℕ) (h : htmlNext s = some (p, k)) :
    SafePiece HtmlEntity p := by
  rcases s with _ | ⟨ch, rest⟩
  · cases h
  unfold htmlNext at h
  dsimp only at h
  split at h
  · obtain ⟨rfl, -⟩ := Prod.mk.inj (Option.some.inj h)
    by_cases hunsafe : isUnsafe HTML_UNSAFE ch = true
    · rw [if_pos hunsafe]
      rcases (isUnsafe_iff ch).1 hunsafe with rfl | rfl | rfl | rfl | rfl <;>
        exact safePiece_entity (Or.inl (by decide)) (by decide)
    · rw [if_neg hunsafe]
      exact Or.inl ⟨ch, rfl, plainByte_of_safe hunsafe⟩
  · obtain ⟨rfl, -⟩ := Prod.mk.inj (Option.some.inj h)
    apply reference_safe
    unfold htmlSequence
    cases hdecode : utf8_decode (ch :: rest) (ch :: rest).length with
    | none =>
      have hbyte := UInt8.toNat_lt ((ch :: rest).getD 0 0)
      rw [Option.getD_none]
      omega
    | some value =>
      have hvalue := utf8_decode_lt hdecode
      rw [Option.getD_some]
      omega

/-- The output of an encoder has no markup, for any source and in any buffer. -/
theorem noMarkup_output (enc : Codec) (h : ∀ s p k, enc.next s = some (p, k) → SafePiece entity p)
    (s : Str) (n : ℕ) : ∃ out, enc.run n s s.length = some out ∧ NoMarkup entity out.text := by
  rcases Nat.eq_zero_or_pos n with rfl | hn
  · have hnil : NoMarkup entity ([] : List Str).flatten := noMarkup_flatten (by simp)
    exact ⟨_, run_zero enc s _, hnil⟩
  · have hrun := run_eq enc s [] hn
    rw [List.append_nil] at hrun
    refine ⟨_, hrun, ?_⟩
    unfold Codec.output
    rw [text_written]
    apply noMarkup_flatten
    intro p hp
    exact Filling.forall_pieces h s.length s p ((Filling.fitting_prefix _ 0 _).subset hp)

/-- `xml_decode` and `html_decode` give back what was encoded, and what was encoded has no
markup. -/
theorem markup_codecs (s : Str) :
    RoundTrips .xml_encode .xml_decode s
      ∧ (ShortestForm s → RoundTrips .html_encode .html_decode s)
      ∧ ∀ n,
        (∃ out, Codec.xml_encode.run n s s.length = some out
          ∧ NoMarkup (· ∈ xmlEntities) out.text)
        ∧ ∃ out, Codec.html_encode.run n s s.length = some out ∧ NoMarkup HtmlEntity out.text := by
  refine ⟨xml_roundTrips s, html_roundTrips, fun n => ⟨?_, ?_⟩⟩
  · apply noMarkup_output .xml_encode
    intro s p k h
    rcases s with _ | ⟨ch, rest⟩
    · cases h
    · obtain ⟨rfl, -⟩ := Prod.mk.inj (Option.some.inj h)
      exact xmlPiece_safe ch
  · exact noMarkup_output .html_encode htmlNext_safe s n

end Gxmpp.TalkBase.StringEncode
