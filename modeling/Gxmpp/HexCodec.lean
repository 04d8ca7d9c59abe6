/-
Bytes as pairs of hexadecimal digits, with a delimiter between them or without.

What `hex_encode_with_delimiter` writes is the pairs of the bytes (`hex_encode_eq`), and
`hex_decode_with_delimiter` reads pairs of digits with single delimiters between them and nothing
else (`hexParse_iff`), so the two are inverse. The classifier of a digit lets more pass than
there are: the letters from `G` to `Z` have values too. A source is wrongly read if and only if
it is pairs of letters and figures one of which is such a letter, and so it is with the sequences
that `decode` and `url_decode` read.
-/
import Gxmpp.MarkupCodecs
import Mathlib.Logic.Relation

set_option autoImplicit false

namespace Gxmpp.TalkBase.StringEncode

open Filling (Output)

/-! ## 1. Pairs -/

/-- Texts with a separator between them. -/
def delimited (separator : Str) : List Str → Str
  | [] => []
  | [p] => p
  | p :: q :: ps => p ++ separator ++ delimited separator (q :: ps)

/-- No delimiter is `'\0'`. -/
def separator (delimiter : UInt8) : Str := if delimiter ≠ 0 then [delimiter] else []

def pairText (pair : UInt8 × UInt8) : Str := [pair.1, pair.2]

theorem delimited_cons (separator : Str) (pair next : UInt8 × UInt8)
    (pairs : List (UInt8 × UInt8)) :
    delimited separator ((pair :: next :: pairs).map pairText)
      = pair.1 :: pair.2 :: (separator ++ delimited separator ((next :: pairs).map pairText)) :=
  rfl

theorem length_delimited (separator : Str) (pair : UInt8 × UInt8)
    (pairs : List (UInt8 × UInt8)) :
    1 < (delimited separator ((pair :: pairs).map pairText)).length := by
  rcases pairs with _ | ⟨next, pairs⟩
  · exact Nat.one_lt_two
  · rw [delimited_cons]
    simp

/-- The value of a hexadecimal digit. -/
def hexValue (ch : UInt8) : Option ℕ :=
  if 0x30 ≤ ch ∧ ch ≤ 0x39 then some (ch.toNat - 0x30)
  else if 0x41 ≤ ch ∧ ch ≤ 0x46 then some (ch.toNat - 0x41 + 10)
  else if 0x61 ≤ ch ∧ ch ≤ 0x66 then some (ch.toNat - 0x61 + 10)
  else none

/-- The byte of a pair of hexadecimal digits. -/
def pairValue (pair : UInt8 × UInt8) : Option UInt8 :=
  (hexValue pair.1).bind fun v1 => (hexValue pair.2).map fun v2 => UInt8.ofNat (16 * v1 + v2)

/-! ## 2. `hex_encode_with_delimiter` -/

/-- What the turns put, one after the other. -/
theorem hexEncode_fold (source : Str) (srclen : ℕ) (delimiter : UInt8) (is : List ℕ) (done : Str) :
    is.foldl (hexEncodeTurn source srclen delimiter) (.of done)
      = .of (done ++ is.flatMap fun i => hexPair (source.getD i 0)
        ++ if i + 1 < srclen then separator delimiter else []) := by
  induction is generalizing done with
  | nil => simp
  | cons i is ih =>
    have hturn : hexEncodeTurn source srclen delimiter (.of done) i
        = .of (done ++ (hexPair (source.getD i 0)
          ++ if i + 1 < srclen then separator delimiter else [])) := by
      unfold hexEncodeTurn separator
      rw [Filling.append_of]
      by_cases hd : delimiter ≠ 0
      · by_cases hi : i + 1 < srclen
        · simp [hd, hi, Filling.put_of]
        · simp [hi]
      · simp [hd]
    rw [List.foldl_cons, hturn, ih, List.flatMap_cons, List.append_assoc]

/-- The turns over all places. -/
theorem flatMap_range (source : Str) (separator : Str) :
    ((List.range source.length).flatMap fun i => hexPair (source.getD i 0)
        ++ if i + 1 < source.length then separator else [])
      = delimited separator (source.map hexPair) := by
  induction source with
  | nil => rfl
  | cons ch rest ih =>
    rw [List.length_cons, List.range_succ_eq_map, List.flatMap_cons, List.flatMap_map]
    have hrest : ∀ i, (hexPair ((ch :: rest).getD (i + 1) 0)
          ++ if i + 1 + 1 < rest.length + 1 then separator else [])
        = hexPair (rest.getD i 0) ++ if i + 1 < rest.length then separator else [] := by
      intro i
      rw [List.getD_cons_succ]
      simp only [Nat.add_lt_add_iff_right]
    simp only [Nat.succ_eq_add_one, hrest, ih]
    rcases rest with _ | ⟨next, rest⟩ <;> simp [delimited]

variable {n m : ℕ} {pairs : List (UInt8 × UInt8)} {pair : UInt8 × UInt8}

/-- The pairs of the bytes are written, if there is room for them. -/
theorem hex_encode_eq (source : Str) (delimiter : UInt8)
    (hn : hexEncodeNeeded source.length delimiter ≤ n) :
    (hex_encode_with_delimiter n source source.length delimiter).text
      = delimited (separator delimiter) (source.map hexPair) := by
  unfold hex_encode_with_delimiter
  dsimp only
  by_cases hzero : n = 0
  · -- then there is nothing to encode
    have hnil : source = [] := by
      unfold hexEncodeNeeded at hn
      rw [← List.length_eq_zero_iff]
      split at hn <;> omega
    rw [if_pos (Or.inl hzero), hnil]
    rfl
  · have hroom : ¬ (n = 0 ∨ n < hexEncodeNeeded source.length delimiter) := by omega
    rw [if_neg hroom]
    have hempty : (Output.empty : Output UInt8) = .of [] := rfl
    rw [hempty, hexEncode_fold, flatMap_range, List.nil_append]
    exact Filling.contents_of _ 0

/-! ## 3. `hex_decode_with_delimiter` -/

/-- What the loop makes of the rest of its source: nothing if it is left with `0`. -/
def hexParse (delimiter : UInt8) : Str → Option Str
  | [] => some []
  | [_] => none
  | h1 :: h2 :: rest =>
    (hexHead [h1, h2]).bind fun byte =>
      if delimiter ≠ 0 ∧ rest.length > 1 then
        if rest.head? = some delimiter then (hexParse delimiter rest.tail).map (byte :: ·)
        else none
      else (hexParse delimiter rest).map (byte :: ·)
termination_by s => s.length
decreasing_by all_goals simp only [List.length_cons, List.length_tail]; omega

/-- Pairs of letters and figures, with single separators between them, are read. -/
theorem hexParse_delimited (delimiter : UInt8) {bytes : Str}
    (h : pairs.map (fun pair => hexHead (pairText pair)) = bytes.map some) :
    hexParse delimiter (delimited (separator delimiter) (pairs.map pairText)) = some bytes := by
  induction pairs generalizing bytes with
  | nil =>
    have hnil : bytes = [] := by simpa using h.symm
    rw [hnil, List.map_nil, delimited, hexParse]
  | cons pair pairs ih =>
    rcases bytes with _ | ⟨byte, bytes⟩
    · cases h
    rw [List.map_cons, List.map_cons, List.cons_eq_cons] at h
    obtain ⟨hbyte, hbytes⟩ := h
    have hhead : hexHead [pair.1, pair.2] = some byte := hbyte
    have hmore := ih hbytes
    rcases pairs with _ | ⟨next, pairs⟩
    · have hnil : bytes = [] := by simpa using hbytes.symm
      rw [hnil]
      simp [delimited, pairText, hexParse, hhead]
    · rw [delimited_cons, hexParse, hhead, Option.bind_some]
      by_cases hd : delimiter ≠ 0
      · have hlength := length_delimited [delimiter] next pairs
        rw [separator, if_pos hd] at hmore ⊢
        rw [List.singleton_append, if_pos ⟨hd, Nat.lt_succ_of_lt hlength⟩, List.head?_cons,
          if_pos rfl, List.tail_cons, hmore]
        rfl
      · rw [separator, if_neg hd] at hmore ⊢
        rw [if_neg (fun h => hd h.1), List.nil_append, hmore]
        rfl

/-- What is read is pairs of letters and figures, with single separators between them. -/
theorem exists_pairs {delimiter : UInt8} {s bytes : Str} (h : hexParse delimiter s = some bytes) :
    ∃ pairs : List (UInt8 × UInt8), s = delimited (separator delimiter) (pairs.map pairText)
      ∧ pairs.map (fun pair => hexHead (pairText pair)) = bytes.map some := by
  induction s using hexParse.induct delimiter generalizing bytes with
  | case1 =>
    rw [hexParse] at h
    exact ⟨[], rfl, by simp [← Option.some.inj h]⟩
  | case2 ch =>
    rw [hexParse] at h
    cases h
  | case3 h1 h2 rest ih1 ih2 =>
    rw [hexParse] at h
    obtain ⟨byte, hhead, h⟩ := Option.bind_eq_some_iff.1 h
    split at h
    · next hdelimiter =>
        split at h
        · next hfirst =>
            obtain ⟨bytes, hparse, rfl⟩ := Option.map_eq_some_iff.1 h
            obtain ⟨pairs, htail, hpairs⟩ := ih1 hdelimiter hparse
            obtain ⟨rest, rfl⟩ := List.head?_eq_some_iff.1 hfirst
            rw [List.tail_cons] at htail
            rcases pairs with _ | ⟨next, pairs⟩
            · rw [htail] at hdelimiter
              exact absurd hdelimiter.2 (by simp [delimited])
            refine ⟨(h1, h2) :: next :: pairs, ?_, ?_⟩
            · rw [delimited_cons, ← htail, separator, if_pos hdelimiter.1]
              rfl
            · rw [List.map_cons, hpairs]
              exact congrArg (· :: _) hhead
        · cases h
    · next hdelimiter =>
        obtain ⟨bytes, hparse, rfl⟩ := Option.map_eq_some_iff.1 h
        obtain ⟨pairs, hrest, hpairs⟩ := ih2 hparse
        refine ⟨(h1, h2) :: pairs, ?_, ?_⟩
        · rcases pairs with _ | ⟨next, pairs⟩
          · rw [hrest]
            rfl
          · have hlength := length_delimited (separator delimiter) next pairs
            have hd : ¬ delimiter ≠ 0 := fun hd => hdelimiter ⟨hd, hrest ▸ hlength⟩
            rw [delimited_cons, ← hrest, separator, if_neg hd]
            rfl
        · rw [List.map_cons, hpairs]
          exact congrArg (· :: _) hhead

theorem read_drop {source rest : Str} {srcpos : ℕ} (h : source.drop srcpos = rest) (k : ℕ) :
    source.getD (srcpos + k) 0 = rest.getD k 0 := by
  rw [List.getD_eq_getElem?_getD, List.getD_eq_getElem?_getD, ← h, List.getElem?_drop]

/-- What `hex_decode_with_delimiter` leaves if it reads its source to the end. -/
def decoded (bytes : Str) : Written := ⟨(Output.of bytes).writes, bytes.length⟩

theorem text_decoded (bytes : Str) : (decoded bytes).text = bytes := by
  have hstands : ∀ i ∈ List.range bytes.length, Filling.stands bytes.zipIdx i = bytes[i]? :=
    fun i _ => Filling.stands_zipIdx bytes i
  show (List.range bytes.length).filterMap (Filling.stands bytes.zipIdx) = bytes
  rw [List.filterMap_congr hstands, Filling.filterMap_getElem]

/-- The loop parses the rest of the source, and is left with `0` if that has no parse. -/
theorem rounds_hex (source : Str) (delimiter : UInt8) {srcpos : ℕ} (done : Str)
    (hn : (source.drop srcpos).length < n) :
    ∃ w, Walking.rounds (hexDecodeRound source source.length delimiter) n (srcpos, .of done)
        = some w
      ∧ (∀ bytes, hexParse delimiter (source.drop srcpos) = some bytes →
        w = decoded (done ++ bytes))
      ∧ (hexParse delimiter (source.drop srcpos) = none → w.result = 0) := by
  induction n generalizing srcpos done with
  | zero => exact absurd hn (Nat.not_lt_zero _)
  | succ n ih =>
    rw [Walking.rounds]
    have hlength := List.length_drop (i := srcpos) (l := source)
    rcases hrest : source.drop srcpos with _ | ⟨h1, _ | ⟨h2, rest⟩⟩
    · rw [hrest, List.length_nil] at hlength
      have hround : hexDecodeRound source source.length delimiter (srcpos, .of done)
          = .inr (decoded done) := if_neg (by omega)
      rw [hround]
      refine ⟨_, rfl, ?_, ?_⟩
      · intro bytes hparse
        rw [hexParse] at hparse
        rw [← Option.some.inj hparse, List.append_nil]
      · intro hparse
        rw [hexParse] at hparse
        cases hparse
    · rw [hrest, List.length_singleton] at hlength
      have hround : hexDecodeRound source source.length delimiter (srcpos, .of done)
          = .inr ⟨(Output.of done).writes, 0⟩ :=
        (if_pos (by omega)).trans (if_pos (by omega))
      rw [hround]
      refine ⟨_, rfl, ?_, fun _ => rfl⟩
      intro bytes hparse
      rw [hexParse] at hparse
      cases hparse
    · rw [hrest, List.length_cons, List.length_cons] at hlength
      have hat : hexAt source srcpos = hexHead [h1, h2] := by
        have hfirst := read_drop hrest 0
        have hsecond := read_drop hrest 1
        unfold hexAt
        rw [← Nat.add_zero srcpos, hfirst]
        rw [Nat.add_zero, hsecond]
        rfl
      have hround : hexDecodeRound source source.length delimiter (srcpos, .of done)
          = (hexHead [h1, h2]).elim (.inr ⟨(Output.of done).writes, 0⟩) fun byte =>
              if delimiter ≠ 0 ∧ rest.length > 1 then
                if rest.head? = some delimiter then
                  .inl (srcpos + 2 + 1, .of (done ++ [byte]))
                else .inr ⟨(Output.of (done ++ [byte])).writes, 0⟩
              else .inl (srcpos + 2, .of (done ++ [byte])) := by
        have hleft : source.length - (srcpos + 2) = rest.length := by omega
        unfold hexDecodeRound
        dsimp only
        rw [if_pos (by omega), if_neg (by omega), hat]
        cases hexHead [h1, h2] with
        | none => rfl
        | some byte =>
          dsimp only [Option.elim]
          rw [hleft, Filling.put_of]
          by_cases hdelimiter : delimiter ≠ 0 ∧ rest.length > 1
          · rw [if_pos hdelimiter, if_pos hdelimiter]
            have hthird := read_drop hrest 2
            obtain ⟨ch, rest, rfl⟩ := List.exists_cons_of_length_pos
              (Nat.lt_trans Nat.zero_lt_one hdelimiter.2)
            rw [hthird]
            by_cases hch : ch = delimiter
            · rw [if_neg (by simpa using hch), if_pos (by simp [hch])]
            · rw [if_pos (by simpa using hch), if_neg (by simpa using hch)]
          · rw [if_neg hdelimiter, if_neg hdelimiter]
      have htwo : source.drop (srcpos + 2) = rest := by
        rw [← List.drop_drop, hrest]
        rfl
      have hthree : source.drop (srcpos + 2 + 1) = rest.tail := by
        rw [← List.drop_drop, htwo, List.drop_one]
      have hgo : ∀ next rest', source.drop next = rest' → rest'.length < n → ∀ byte,
          ∃ w, Walking.rounds (hexDecodeRound source source.length delimiter) n
              (next, .of (done ++ [byte])) = some w
            ∧ (∀ bytes, (hexParse delimiter rest').map (byte :: ·) = some bytes →
              w = decoded (done ++ bytes))
            ∧ ((hexParse delimiter rest').map (byte :: ·) = none → w.result = 0) := by
        rintro next _ rfl hlt byte
        obtain ⟨w, hw, hsome, hnone⟩ := ih (done ++ [byte]) hlt
        refine ⟨w, hw, ?_, ?_⟩
        · intro bytes h
          obtain ⟨bytes, hparse, rfl⟩ := Option.map_eq_some_iff.1 h
          rw [hsome bytes hparse, List.append_assoc, List.singleton_append]
        · intro h
          exact hnone (Option.map_eq_none_iff.1 h)
      rw [hrest, List.length_cons, List.length_cons] at hn
      rw [hround, hexParse]
      cases hexHead [h1, h2] with
      | none =>
        refine ⟨_, rfl, ?_, fun _ => rfl⟩
        intro bytes hparse
        cases hparse
      | some byte =>
        dsimp only [Option.elim]
        rw [Option.bind_some]
        by_cases hdelimiter : delimiter ≠ 0 ∧ rest.length > 1
        · rw [if_pos hdelimiter, if_pos hdelimiter]
          by_cases hfirst : rest.head? = some delimiter
          · rw [if_pos hfirst, if_pos hfirst]
            exact hgo _ _ hthree (by rw [List.length_tail]; omega) byte
          · rw [if_neg hfirst, if_neg hfirst]
            refine ⟨_, rfl, ?_, fun _ => rfl⟩
            intro bytes hparse
            cases hparse
        · rw [if_neg hdelimiter, if_neg hdelimiter]
          exact hgo _ _ htwo (by omega) byte

/-- The parse of the source is what is decoded, and without one the result is `0`. -/
theorem hex_decode_some (source : Str) (delimiter : UInt8)
    (hm : hexDecodeNeeded source.length delimiter ≤ m) :
    ∃ w, hex_decode_with_delimiter m source source.length delimiter = some w
      ∧ (∀ bytes, hexParse delimiter source = some bytes → w = ⟨w.writes, bytes.length⟩
        ∧ w.text = bytes)
      ∧ (hexParse delimiter source = none → w.result = 0) := by
  unfold hex_decode_with_delimiter
  by_cases hzero : m = 0
  · -- no room is needed for less than a pair
    rw [if_pos (Or.inl hzero)]
    refine ⟨_, rfl, ?_, fun _ => rfl⟩
    intro bytes hparse
    rcases source with _ | ⟨h1, _ | ⟨h2, rest⟩⟩
    · rw [hexParse] at hparse
      rw [← Option.some.inj hparse]
      exact ⟨rfl, rfl⟩
    · rw [hexParse] at hparse
      cases hparse
    · unfold hexDecodeNeeded at hm
      rw [List.length_cons, List.length_cons] at hm
      split at hm <;> omega
  · rw [if_neg (by omega)]
    have hfuel : (source.drop 0).length < source.length + 1 := Nat.lt_succ_self _
    obtain ⟨w, hw, hsome, hnone⟩ := rounds_hex source delimiter [] hfuel
    refine ⟨w, hw, ?_, hnone⟩
    intro bytes hparse
    have hdecoded := hsome bytes hparse
    rw [List.nil_append] at hdecoded
    rw [hdecoded]
    exact ⟨rfl, text_decoded bytes⟩

/-! ## 4. Digits -/

/-- A figure or a letter. -/
def Alnum (ch : UInt8) : Prop :=
  0x30 ≤ ch ∧ ch ≤ 0x39 ∨ 0x41 ≤ ch ∧ ch ≤ 0x5A ∨ 0x61 ≤ ch ∧ ch ≤ 0x7A

/-- A hexadecimal digit. -/
def IsHex (ch : UInt8) : Prop := (hexValue ch).isSome = true

theorem hex_decode_isSome (ch : UInt8) : (hex_decode ch).isSome = true ↔ Alnum ch := by
  unfold hex_decode Alnum
  split_ifs with h1 h2 h3 <;> simp_all

/-- A hexadecimal digit is read as its value. -/
theorem hex_decode_hexValue {ch : UInt8} {v : ℕ} (h : hexValue ch = some v) :
    hex_decode ch = some v ∧ v < 16 := by
  have hall := byte_forall (fun ch => (hexValue ch).all fun v => hex_decode ch = some v && v < 16)
    (by decide +kernel) ch
  rw [h] at hall
  simpa using hall

theorem hexHead_pair : (hexHead (pairText pair)).isSome = true ↔ Alnum pair.1 ∧ Alnum pair.2 := by
  rw [← hex_decode_isSome, ← hex_decode_isSome]
  show ((hex_decode pair.1).bind fun v1 => (hex_decode pair.2).map fun v2 =>
    hexByte v1 v2).isSome = true ↔ _
  cases hex_decode pair.1 <;> cases hex_decode pair.2 <;> simp

/-- The byte of a pair of hexadecimal digits is its value. -/
theorem hexHead_value (h1 : IsHex pair.1) (h2 : IsHex pair.2) :
    hexHead (pairText pair) = pairValue pair := by
  obtain ⟨v1, hv1⟩ := Option.isSome_iff_exists.1 h1
  obtain ⟨v2, hv2⟩ := Option.isSome_iff_exists.1 h2
  obtain ⟨hd1, -⟩ := hex_decode_hexValue hv1
  obtain ⟨hd2, hlt⟩ := hex_decode_hexValue hv2
  show ((hex_decode pair.1).bind fun v1 => (hex_decode pair.2).map fun v2 => hexByte v1 v2) = _
  unfold pairValue
  rw [hd1, hd2, hv1, hv2]
  show some (hexByte v1 v2) = some (UInt8.ofNat (16 * v1 + v2))
  unfold hexByte
  rw [shift_or v1 (w := 4) hlt, Nat.mul_comm v1]
  rfl

theorem isHex_of_value {byte : UInt8} (h : pairValue pair = some byte) :
    IsHex pair.1 ∧ IsHex pair.2 := by
  obtain ⟨v1, h1, h⟩ := Option.bind_eq_some_iff.1 h
  obtain ⟨v2, h2, -⟩ := Option.map_eq_some_iff.1 h
  exact ⟨Option.isSome_iff_exists.2 ⟨v1, h1⟩, Option.isSome_iff_exists.2 ⟨v2, h2⟩⟩

/-! ## 5. What is wrongly read -/

theorem length_delimited_add (separator : Str) (pair : UInt8 × UInt8)
    (pairs : List (UInt8 × UInt8)) :
    (delimited separator ((pair :: pairs).map pairText)).length + separator.length
      = (pairs.length + 1) * (2 + separator.length) := by
  induction pairs generalizing pair with
  | nil => simp [delimited, pairText]
  | cons next pairs ih =>
    have hmore := ih next
    rw [delimited_cons, List.length_cons, List.length_cons, List.length_append,
      List.length_cons, Nat.succ_mul]
    omega

theorem delimited_inj {separator : Str} {pairs' : List (UInt8 × UInt8)}
    (h : delimited separator (pairs.map pairText) = delimited separator (pairs'.map pairText)) :
    pairs = pairs' := by
  induction pairs generalizing pairs' with
  | nil =>
    rcases pairs' with _ | ⟨q, qs⟩
    · rfl
    · have hlength := length_delimited separator q qs
      rw [← h] at hlength
      exact absurd hlength (by simp [delimited])
  | cons p ps ih =>
    rcases pairs' with _ | ⟨q, qs⟩
    · have hlength := length_delimited separator p ps
      rw [h] at hlength
      exact absurd hlength (by simp [delimited])
    have hsplit : ∀ (pair : UInt8 × UInt8) rest, ∃ t,
        delimited separator ((pair :: rest).map pairText) = pair.1 :: pair.2 :: t
          ∧ (rest = [] → t = [])
          ∧ (rest ≠ [] → t = separator ++ delimited separator (rest.map pairText)) := by
      intro pair rest
      rcases rest with _ | ⟨next, rest⟩
      · exact ⟨[], rfl, fun _ => rfl, fun h => absurd rfl h⟩
      · exact ⟨_, delimited_cons separator pair next rest,
          fun h => absurd h (List.cons_ne_nil _ _), fun _ => rfl⟩
    have hmore : ∀ (next : UInt8 × UInt8) rest,
        separator ++ delimited separator ((next :: rest).map pairText) ≠ [] := by
      intro next rest hnil
      have hlength := length_delimited separator next rest
      rw [(List.append_eq_nil_iff.1 hnil).2] at hlength
      exact absurd hlength (by decide)
    obtain ⟨t, hp, hp0, hp1⟩ := hsplit p ps
    obtain ⟨t', hq, hq0, hq1⟩ := hsplit q qs
    rw [hp, hq, List.cons_eq_cons, List.cons_eq_cons] at h
    obtain ⟨h1, h2, rfl⟩ := h
    have hpq : p = q := Prod.ext h1 h2
    rcases ps with _ | ⟨p', ps⟩
    · rcases qs with _ | ⟨q', qs⟩
      · rw [hpq]
      · exact absurd ((hq1 (by simp)).symm.trans (hp0 rfl)) (hmore q' qs)
    · rcases qs with _ | ⟨q', qs⟩
      · exact absurd ((hp1 (by simp)).symm.trans (hq0 rfl)) (hmore p' ps)
      · have hrest := (hp1 (by simp)).symm.trans (hq1 (by simp))
        rw [hpq, ih (List.append_cancel_left hrest)]

/-- The result is not `0` only for pairs of hexadecimal digits with single delimiters between
them, and then each byte is the value of its pair. -/
def DecodesHex (m : ℕ) (source : Str) (delimiter : UInt8) : Prop :=
  ∃ w, hex_decode_with_delimiter m source source.length delimiter = some w
    ∧ (w.result ≠ 0 → ∃ pairs : List (UInt8 × UInt8),
      source = delimited (separator delimiter) (pairs.map pairText)
        ∧ pairs.map pairValue = w.text.map some)

/-- Pairs of figures and letters, and one that is not hexadecimal. -/
def Overwide (source : Str) (delimiter : UInt8) : Prop :=
  ∃ pairs : List (UInt8 × UInt8), source = delimited (separator delimiter) (pairs.map pairText)
    ∧ (∀ pair ∈ pairs, Alnum pair.1 ∧ Alnum pair.2)
    ∧ ∃ pair ∈ pairs, ¬ (IsHex pair.1 ∧ IsHex pair.2)

/-- Pairs of figures and letters have a byte each. -/
theorem exists_bytes (h : ∀ pair ∈ pairs, Alnum pair.1 ∧ Alnum pair.2) :
    ∃ bytes : Str, pairs.map (fun pair => hexHead (pairText pair)) = bytes.map some := by
  induction pairs with
  | nil => exact ⟨[], rfl⟩
  | cons pair pairs ih =>
    obtain ⟨bytes, hbytes⟩ := ih fun p hp => h p (List.mem_cons_of_mem _ hp)
    obtain ⟨byte, hbyte⟩ := Option.isSome_iff_exists.1
      (hexHead_pair.2 (h pair List.mem_cons_self))
    exact ⟨byte :: bytes, by rw [List.map_cons, hbytes, hbyte, List.map_cons]⟩

theorem decodesHex_iff (source : Str) (delimiter : UInt8)
    (hm : hexDecodeNeeded source.length delimiter ≤ m) :
    DecodesHex m source delimiter ↔ ¬ Overwide source delimiter := by
  obtain ⟨w, hw, hsome, hnone⟩ := hex_decode_some source delimiter hm
  constructor
  · rintro ⟨w', hw', hdecodes⟩ ⟨pairs, hsource, halnum, pair, hpair, hnot⟩
    obtain rfl := Option.some.inj (hw.symm.trans hw')
    obtain ⟨bytes, hbytes⟩ := exists_bytes halnum
    have hparse := hexParse_delimited delimiter hbytes
    rw [← hsource] at hparse
    have hlength : pairs.length = bytes.length := by simpa using congrArg List.length hbytes
    have hresult : w.result ≠ 0 := by
      rw [(hsome bytes hparse).1]
      have hpos := List.length_pos_of_mem hpair
      show bytes.length ≠ 0
      omega
    obtain ⟨pairs', hsource', hvalues⟩ := hdecodes hresult
    obtain rfl := delimited_inj (hsource.symm.trans hsource')
    have hmem : pairValue pair ∈ w.text.map some := by
      rw [← hvalues]
      exact List.mem_map_of_mem hpair
    obtain ⟨byte, -, hbyte⟩ := List.mem_map.1 hmem
    exact hnot (isHex_of_value hbyte.symm)
  · intro hnot
    refine ⟨w, hw, ?_⟩
    intro hresult
    rcases hparse : hexParse delimiter source with _ | bytes
    · exact absurd (hnone hparse) hresult
    obtain ⟨pairs, hsource, hpairs⟩ := exists_pairs hparse
    refine ⟨pairs, hsource, ?_⟩
    rw [(hsome bytes hparse).2, ← hpairs]
    have halnum : ∀ pair ∈ pairs, Alnum pair.1 ∧ Alnum pair.2 := by
      intro pair hpair
      have hmem : hexHead (pairText pair) ∈ bytes.map some := by
        rw [← hpairs]
        exact List.mem_map_of_mem (f := fun pair => hexHead (pairText pair)) hpair
      obtain ⟨byte, -, hbyte⟩ := List.mem_map.1 hmem
      exact hexHead_pair.1 (by rw [← hbyte]; rfl)
    apply List.map_congr_left
    intro pair hpair
    by_cases hhex : IsHex pair.1 ∧ IsHex pair.2
    · exact (hexHead_value hhex.1 hhex.2).symm
    · exact absurd ⟨pairs, hsource, halnum, pair, hpair, hhex⟩ hnot

/-- What is encoded is decoded. -/
theorem hex_round_trip (source : Str) (delimiter : UInt8)
    (hn : hexEncodeNeeded source.length delimiter ≤ n) (hm : source.length ≤ m) :
    ∃ back, hex_decode_with_delimiter m
        (hex_encode_with_delimiter n source source.length delimiter).text
        (hex_encode_with_delimiter n source source.length delimiter).text.length delimiter
          = some back
      ∧ back.text = source := by
  have hpairs : source.map hexPair
      = (source.map fun ch => (hex_encode ((ch.toNat >>> 4) &&& 0xF),
        hex_encode (ch.toNat &&& 0xF))).map pairText := by
    rw [List.map_map]
    rfl
  rw [hex_encode_eq source delimiter hn, hpairs]
  generalize hdigits : (source.map fun ch => (hex_encode ((ch.toNat >>> 4) &&& 0xF),
    hex_encode (ch.toNat &&& 0xF))) = pairs
  have hread : pairs.map (fun pair => hexHead (pairText pair)) = source.map some := by
    rw [← hdigits, List.map_map]
    exact List.map_congr_left fun ch _ => hexHead_hexPair ch []
  have hlength : pairs.length = source.length := by
    rw [← hdigits, List.length_map]
  have hneeded : hexDecodeNeeded
      (delimited (separator delimiter) (pairs.map pairText)).length delimiter ≤ m := by
    rcases pairs with _ | ⟨pair, pairs⟩
    · unfold hexDecodeNeeded
      split <;> simp [delimited]
    · have hadd := length_delimited_add (separator delimiter) pair pairs
      rw [List.length_cons] at hlength
      unfold hexDecodeNeeded
      unfold separator at hadd ⊢
      split
      · next hd =>
          simp only [if_pos hd, List.length_singleton] at hadd ⊢
          omega
      · next hd =>
          simp only [if_neg hd, List.length_nil] at hadd ⊢
          omega
  obtain ⟨w, hw, hsome, -⟩ := hex_decode_some _ delimiter hneeded
  exact ⟨w, hw, (hsome source (hexParse_delimited delimiter hread)).2⟩

/-! ## 6. Sequences of two digits -/

/-- A rest of the source that is reached reading it. -/
def Reaches (c : Codec) : Str → Str → Prop :=
  Relation.ReflTransGen fun s t => ∃ p k, c.next s = some (p, k) ∧ t = s.drop k

/-- Every sequence of three that is read for one byte is the escape character and two hexadecimal
digits, and the byte is their value. -/
def SequencesHex (c : Codec) (esc : UInt8) (source : Str) : Prop :=
  ∀ rest p, Reaches c source rest → c.next rest = some (p, 3) →
    ∃ pair t byte, rest = esc :: (pairText pair ++ t) ∧ p = [byte] ∧ pairValue pair = some byte

/-- No escape character that is reached has two figures or letters behind it one of which is not
hexadecimal. -/
def NoOverwide (c : Codec) (esc : UInt8) (source : Str) : Prop :=
  ∀ (pair : UInt8 × UInt8) t, Reaches c source (esc :: (pairText pair ++ t)) →
    Alnum pair.1 → Alnum pair.2 → IsHex pair.1 ∧ IsHex pair.2

theorem hexHead_eq_some {rest : Str} {byte : UInt8} :
    hexHead rest = some byte
      ↔ ∃ pair t, rest = pairText pair ++ t ∧ hexHead (pairText pair) = some byte := by
  constructor
  · intro h
    rcases rest with _ | ⟨h1, _ | ⟨h2, t⟩⟩
    · cases h
    · cases h
    · exact ⟨(h1, h2), t, rfl, h⟩
  · rintro ⟨pair, t, rfl, h⟩
    exact h

theorem decodeNext_three (esc : UInt8) (rest p : Str) :
    decodeNext esc rest = some (p, 3)
      ↔ ∃ pair t byte, rest = esc :: (pairText pair ++ t)
        ∧ hexHead (pairText pair) = some byte ∧ p = [byte] := by
  constructor
  · intro h
    rcases rest with _ | ⟨ch, rest⟩
    · cases h
    unfold decodeNext at h
    dsimp only at h
    split at h
    · next byte hbyte =>
        split at hbyte
        · next hch =>
            obtain ⟨pair, t, rfl, hpair⟩ := hexHead_eq_some.1 hbyte
            obtain ⟨rfl, -⟩ := Prod.mk.inj (Option.some.inj h)
            exact ⟨pair, t, byte, by rw [hch], hpair, rfl⟩
        · cases hbyte
    · obtain ⟨-, hone⟩ := Prod.mk.inj (Option.some.inj h)
      exact absurd hone (by decide)
  · rintro ⟨pair, t, byte, rfl, hpair, rfl⟩
    have hhead : hexHead (pairText pair ++ t) = some byte := hpair
    unfold decodeNext
    dsimp only
    rw [if_pos rfl, hhead]

theorem urlDecodeNext_three (rest p : Str) :
    urlDecodeNext rest = some (p, 3)
      ↔ ∃ pair t byte, rest = 0x25 :: (pairText pair ++ t)
        ∧ hexHead (pairText pair) = some byte ∧ p = [byte] := by
  rw [← decodeNext_three]
  rcases rest with _ | ⟨ch, rest⟩
  · exact Iff.rfl
  by_cases hch : ch = 0x2B
  · have hplus : urlDecodeNext (ch :: rest) = some ([0x20], 1) := if_pos hch
    have hplain : decodeNext 0x25 (ch :: rest) = some ([ch], 1) := by
      unfold decodeNext
      dsimp only
      rw [if_neg (by rw [hch]; decide)]
    rw [hplus, hplain]
    simp
  · have hdecode : urlDecodeNext (ch :: rest) = decodeNext 0x25 (ch :: rest) := if_neg hch
    rw [hdecode]

theorem sequencesHex_iff {c : Codec} {esc : UInt8} (source : Str)
    (hnext : ∀ rest p, c.next rest = some (p, 3)
      ↔ ∃ pair t byte, rest = esc :: (pairText pair ++ t)
        ∧ hexHead (pairText pair) = some byte ∧ p = [byte]) :
    SequencesHex c esc source ↔ NoOverwide c esc source := by
  constructor
  · intro h pair t hreach h1 h2
    obtain ⟨byte, hbyte⟩ := Option.isSome_iff_exists.1 (hexHead_pair.2 ⟨h1, h2⟩)
    obtain ⟨pair', t', byte', hrest, -, hvalue⟩ := h _ [byte] hreach
      ((hnext _ _).2 ⟨pair, t, byte, rfl, hbyte, rfl⟩)
    have hpair : pair = pair' := by
      simp only [pairText, List.cons_append, List.cons_eq_cons] at hrest
      exact Prod.ext hrest.2.1 hrest.2.2.1
    rw [hpair]
    exact isHex_of_value hvalue
  · intro h rest p hreach hread
    obtain ⟨pair, t, byte, rfl, hbyte, rfl⟩ := (hnext _ _).1 hread
    obtain ⟨h1, h2⟩ := hexHead_pair.1 (Option.isSome_iff_exists.2 ⟨byte, hbyte⟩)
    obtain ⟨hex1, hex2⟩ := h pair t hreach h1 h2
    exact ⟨pair, t, byte, rfl, rfl, (hexHead_value hex1 hex2).symm.trans hbyte⟩

/-- Bytes go through hexadecimal digits with just the buffers that are asked for, and nothing
but hexadecimal digits is read for bytes: not by `hex_decode_with_delimiter`, and not behind the
escape characters of `decode` and `url_decode`. -/
structure ExactlyHex (source : Str) (delimiter esc : UInt8) : Prop where
  round_trip : ∀ n m, hexEncodeNeeded source.length delimiter ≤ n → source.length ≤ m →
    ∃ back, hex_decode_with_delimiter m
        (hex_encode_with_delimiter n source source.length delimiter).text
        (hex_encode_with_delimiter n source source.length delimiter).text.length delimiter
          = some back
      ∧ back.text = source
  decodes : ∀ m, hexDecodeNeeded source.length delimiter ≤ m → DecodesHex m source delimiter
  sequences : SequencesHex (.decode esc) esc source
  url_sequences : SequencesHex .url_decode 0x25 source

/-- That is so if there are no letters beyond `F` where digits are read. -/
theorem exactlyHex_iff (source : Str) (delimiter esc : UInt8) :
    ExactlyHex source delimiter esc
      ↔ ¬ Overwide source delimiter ∧ NoOverwide (.decode esc) esc source
        ∧ NoOverwide .url_decode 0x25 source := by
  have hsequences := sequencesHex_iff (c := .decode esc) source (decodeNext_three esc)
  have hurl := sequencesHex_iff (c := .url_decode) source urlDecodeNext_three
  constructor
  · rintro ⟨-, hdecodes, hdecode, hurl'⟩
    refine ⟨?_, hsequences.1 hdecode, hurl.1 hurl'⟩
    exact (decodesHex_iff source delimiter (Nat.le_refl _)).1 (hdecodes _ (Nat.le_refl _))
  · rintro ⟨hoverwide, hdecode, hurl'⟩
    refine ⟨fun n m hn hm => hex_round_trip source delimiter hn hm, ?_, hsequences.2 hdecode,
      hurl.2 hurl'⟩
    intro m hm
    exact (decodesHex_iff source delimiter hm).2 hoverwide

/-- `GG` is decoded. -/
theorem letters_decoded :
    ¬ ∀ (source : Str) (delimiter esc : UInt8), ExactlyHex source delimiter esc := by
  intro h
  obtain ⟨w, hw, hdecodes⟩ := (h (str "GG") 0 0x25).decodes 1 (by decide)
  have hrun : hex_decode_with_delimiter 1 (str "GG") 2 0 = some ⟨[(0x10, 0)], 1⟩ := by
    decide +kernel
  obtain rfl := Option.some.inj (hw.symm.trans hrun)
  obtain ⟨pairs, hsource, hvalues⟩ := hdecodes (by decide)
  have htext : (⟨[(0x10, 0)], 1⟩ : Written).text = [0x10] := by decide
  rw [htext] at hvalues
  obtain ⟨pair, rfl, hvalue⟩ := List.map_eq_singleton_iff.1 hvalues
  obtain ⟨h1, h2⟩ : 0x47 = pair.1 ∧ 0x47 = pair.2 := by
    have hpair : [0x47, 0x47] = pairText pair := hsource
    simpa [pairText] using hpair
  have hnone : pairValue (0x47, 0x47) = none := by decide
  rw [show pair = (0x47, 0x47) from Prod.ext h1.symm h2.symm, hnone] at hvalue
  cases hvalue

end Gxmpp.TalkBase.StringEncode
