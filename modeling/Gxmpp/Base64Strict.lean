/-
The strict decoder reads what the encoder writes, and nothing else.

Both are compared with the digits of `Radix64`: the encoder writes the digits of its bytes
(`encode_eq`), and the strict decoder succeeds with the bytes that the characters are the digits
of, if they are (`decode_strict`). A quantum of the decoder is full, or ends in one or two pads,
or nothing can be read from there (`quantum_strict`).
-/
import Gxmpp.Base64
import Gxmpp.Radix64
import Mathlib.Algebra.Group.Nat.Defs

set_option autoImplicit false

namespace Gxmpp.TalkBase.Base64

open Radix64

/-! ## 1. Digits and characters -/

/-- The character of a digit. -/
def text : Option Nat → UInt8
  | none => kPad
  | some v => encodeChar v

/-- The digit of a character, if it is one. -/
def digitOf (ch : UInt8) : Option (Option Nat) :=
  if decodeChar ch = pd then some none
  else if decodeChar ch = sp ∨ decodeChar ch = il then none
  else some (some (decodeChar ch))

variable {d : Option Nat} {ch : UInt8} {ds : List (Option Nat)} {t : Str} {data : List UInt8}
  {i dpos : Nat}

/-- A test passed by all entries of the table is passed by the value of every character. -/
theorem entry_forall (p : UInt8 → Nat → Bool)
    (h : (DecodeTable.zipIdx.all fun e => p (UInt8.ofNat e.2) e.1) = true) (ch : UInt8) :
    p ch (decodeChar ch) = true := by
  have hlength : DecodeTable.length = 256 := by
    rw [DecodeTable, List.length_append, List.length_replicate]
    rfl
  have hlt : ch.toNat < DecodeTable.length := hlength ▸ UInt8.toNat_lt ch
  have hmem : (decodeChar ch, ch.toNat) ∈ DecodeTable.zipIdx := by
    rw [List.mem_zipIdx_iff_getElem?, decodeChar, List.getD_eq_getElem?_getD,
      List.getElem?_eq_getElem hlt]
    rfl
  have hentry := List.all_eq_true.1 h _ hmem
  rwa [UInt8.ofNat_toNat] at hentry

theorem digitOf_text (h : ∀ v, d = some v → v < 64) : digitOf (text d) = some d := by
  cases d with
  | none => decide
  | some v =>
    have htable : (Base64Table.zipIdx.all fun e => decodeChar e.1 = e.2) = true := by
      decide +kernel
    have hlength : Base64Table.length = 64 := by decide
    have hv : v < 64 := h v rfl
    have hmem : (encodeChar v, v) ∈ Base64Table.zipIdx := by
      rw [List.mem_zipIdx_iff_getElem?, encodeChar, List.getD_eq_getElem?_getD,
        List.getElem?_eq_getElem (hlength.symm ▸ hv)]
      rfl
    have hentry : decodeChar (encodeChar v) = v :=
      of_decide_eq_true (List.all_eq_true.1 htable _ hmem)
    unfold text digitOf
    rw [hentry, if_neg (by unfold pd; omega), if_neg (by unfold sp il; omega)]

/-- A character is the character of its digit. -/
theorem text_digitOf (h : digitOf ch = some d) : text d = ch ∧ ∀ v, d = some v → v < 64 := by
  have hentry := entry_forall (fun ch v => v = sp ∨ v = il ∨ (v = pd ∧ kPad = ch)
    ∨ (encodeChar v = ch ∧ v < 64)) (by decide +kernel) ch
  rw [decide_eq_true_iff] at hentry
  unfold digitOf at h
  by_cases hpad : decodeChar ch = pd
  · rw [if_pos hpad] at h
    obtain rfl := Option.some.inj h
    rw [hpad] at hentry
    have hch : kPad = ch := by simpa [pd, sp, il] using hentry
    exact ⟨hch, nofun⟩
  · rw [if_neg hpad] at h
    by_cases hnone : decodeChar ch = sp ∨ decodeChar ch = il
    · rw [if_pos hnone] at h
      cases h
    · rw [if_neg hnone] at h
      obtain rfl := Option.some.inj h
      have hdigit : encodeChar (decodeChar ch) = ch ∧ decodeChar ch < 64 := by
        simpa [hpad, not_or.1 hnone] using hentry
      exact ⟨hdigit.1, fun v hv => Option.some.inj hv ▸ hdigit.2⟩

theorem mapM_text (h : ∀ v, some v ∈ ds → v < 64) : (ds.map text).mapM digitOf = some ds := by
  induction ds with
  | nil => rfl
  | cons d ds ih =>
    have hd : digitOf (text d) = some d := digitOf_text fun v hv => h v (by simp [hv])
    rw [List.map_cons, List.mapM_cons, hd, ih fun v hv => h v (List.mem_cons_of_mem _ hv)]
    rfl

theorem mapM_digitOf (h : t.mapM digitOf = some ds) :
    (∀ v, some v ∈ ds → v < 64) ∧ ds.map text = t := by
  induction t generalizing ds with
  | nil =>
    obtain rfl := Option.some.inj h
    exact ⟨by simp, rfl⟩
  | cons ch t ih =>
    rw [List.mapM_cons] at h
    obtain ⟨d, hd, hrest⟩ := Option.bind_eq_some_iff.1 h
    obtain ⟨es, hes, hds⟩ := Option.bind_eq_some_iff.1 hrest
    obtain rfl := Option.some.inj hds
    obtain ⟨htext, hlt⟩ := text_digitOf hd
    obtain ⟨hlts, htexts⟩ := ih hes
    refine ⟨fun v hv => ?_, by rw [List.map_cons, htext, htexts]⟩
    rcases List.mem_cons.1 hv with hv | hv
    · exact hlt v hv.symm
    · exact hlts v hv

/-! ## 2. Bits -/

section Bits

variable {a b c p q r s : Nat}

/-- A shift and a mask of low ones are a division and a remainder. -/
theorem shiftRight_low (x m w : Nat) : x >>> m &&& 2 ^ w - 1 = x / 2 ^ m % 2 ^ w := by
  rw [Nat.and_two_pow_sub_one_eq_mod, Nat.shiftRight_eq_div_pow]

theorem shiftLeft_low (x m w : Nat) : x <<< m &&& 2 ^ w - 1 = x * 2 ^ m % 2 ^ w := by
  rw [Nat.and_two_pow_sub_one_eq_mod, Nat.shiftLeft_eq]

/-- A mask of ones that is shifted as well takes the low bits before the shift. -/
theorem shiftLeft_high (x m w : Nat) :
    x <<< m &&& (2 ^ w - 1) <<< m = x % 2 ^ w * 2 ^ m := by
  rw [← Nat.shiftLeft_and_distrib, Nat.and_two_pow_sub_one_eq_mod, Nat.shiftLeft_eq]

/-- A sum of high bits and low ones is their `|||`. -/
theorem or_low {k m : Nat} (w : Nat) (hm : m < 2 ^ w) : k * 2 ^ w ||| m = k * 2 ^ w + m := by
  rw [Nat.mul_comm, Nat.two_pow_add_eq_or_of_lt hm]

theorem first_digit (ha : a < 256) : a >>> 2 &&& 0x3f = a / 4 := by
  have hlow : a >>> 2 &&& 0x3f = a / 2 ^ 2 % 2 ^ 6 := shiftRight_low a 2 6
  omega

theorem second_high (a : Nat) : a <<< 4 &&& 0x3f = a % 4 * 16 := by
  have hlow : a <<< 4 &&& 0x3f = a * 2 ^ 4 % 2 ^ 6 := shiftLeft_low a 4 6
  omega

theorem second_digit (hb : b < 256) :
    (a <<< 4 &&& 0x3f) ||| (b >>> 4 &&& 0x0f) = a % 4 * 16 + b / 16 := by
  have hlow : b >>> 4 &&& 0x0f = b / 2 ^ 4 % 2 ^ 4 := shiftRight_low b 4 4
  have hb4 : b / 2 ^ 4 % 2 ^ 4 = b / 16 := by omega
  rw [second_high, hlow, hb4]
  exact or_low 4 (by omega)

theorem third_high (b : Nat) : b <<< 2 &&& 0x3f = b % 16 * 4 := by
  have hlow : b <<< 2 &&& 0x3f = b * 2 ^ 2 % 2 ^ 6 := shiftLeft_low b 2 6
  omega

theorem third_digit (hc : c < 256) :
    (b <<< 2 &&& 0x3f) ||| (c >>> 6 &&& 0x03) = b % 16 * 4 + c / 64 := by
  have hlow : c >>> 6 &&& 0x03 = c / 2 ^ 6 % 2 ^ 2 := shiftRight_low c 6 2
  have hc6 : c / 2 ^ 6 % 2 ^ 2 = c / 64 := by omega
  rw [third_high, hlow, hc6]
  exact or_low 2 (by omega)

theorem fourth_digit (c : Nat) : c &&& 0x3f = c % 64 := Nat.and_two_pow_sub_one_eq_mod c 6

theorem first_byte (hq : q < 64) : p <<< 2 ||| (q >>> 4 &&& 0x3) = p * 4 + q / 16 := by
  have hlow : q >>> 4 &&& 0x3 = q / 2 ^ 4 % 2 ^ 2 := shiftRight_low q 4 2
  have hq4 : q / 2 ^ 4 % 2 ^ 2 = q / 16 := by omega
  rw [hlow, hq4, Nat.shiftLeft_eq]
  exact or_low 2 (by omega)

theorem second_byte (hr : r < 64) :
    (q <<< 4 &&& 0xf0) ||| (r >>> 2 &&& 0xf) = q % 16 * 16 + r / 4 := by
  have hhigh : q <<< 4 &&& 0xf0 = q % 2 ^ 4 * 2 ^ 4 := shiftLeft_high q 4 4
  have hlow : r >>> 2 &&& 0xf = r / 2 ^ 2 % 2 ^ 4 := shiftRight_low r 2 4
  have hr2 : r / 2 ^ 2 % 2 ^ 4 = r / 4 := by omega
  rw [hhigh, hlow, hr2]
  exact or_low 4 (by omega)

theorem third_byte (hs : s < 64) : (r <<< 6 &&& 0xc0) ||| s = r % 4 * 64 + s := by
  have hhigh : r <<< 6 &&& 0xc0 = r % 2 ^ 2 * 2 ^ 6 := shiftLeft_high r 6 2
  rw [hhigh]
  exact or_low 6 hs

end Bits

/-! ## 3. The encoder -/

/-- What the encoder has written stands before what it has not. -/
def Encoding.at (i : Nat) (done : Str) (room : Nat) : Encoding :=
  ⟨i, done.length, done ++ List.replicate room 0⟩

theorem Encoding.put_at (i : Nat) (done : Str) (room : Nat) (ch : UInt8) :
    (Encoding.at i done (room + 1)).put ch = Encoding.at i (done ++ [ch]) room := by
  simp [Encoding.at, Encoding.put, List.replicate_succ]

theorem getD_drop {rest : List UInt8} {a : UInt8} (h : data.drop i = a :: rest) :
    data.getD i 0 = a ∧ i < data.length ∧ data.drop (i + 1) = rest := by
  have hget : (data.drop i)[0]? = some a := by rw [h]; rfl
  rw [List.getElem?_drop, Nat.add_zero] at hget
  refine ⟨?_, (List.getElem?_eq_some_iff.1 hget).1, ?_⟩
  · rw [List.getD_eq_getElem?_getD, hget]
    rfl
  · rw [← List.drop_drop, h]
    rfl

theorem not_lt_of_drop (h : data.drop i = []) : ¬ i < data.length :=
  Nat.not_lt.2 (List.drop_eq_nil_iff.1 h)

@[simp] theorem Encoding.at_i (i : Nat) (done : Str) (room : Nat) :
    (Encoding.at i done room).i = i := rfl

theorem Encoding.mk_at (i : Nat) (done : Str) (room j : Nat) :
    Encoding.mk j (Encoding.at i done room).dest_ix (Encoding.at i done room).result
      = Encoding.at j done room := rfl

section Round

variable {data rest : List UInt8} {i : Nat} {a b c : UInt8}

theorem round_one (h : data.drop i = [a]) (done : Str) (room : Nat) :
    encodeRound data (.at i done (room + 4)) = .inl
      (.at (i + 1) (done ++ (digits [a.toNat]).map text) room) := by
  obtain ⟨ha, hi, hrest⟩ := getD_drop h
  have hend := not_lt_of_drop hrest
  have hlt := UInt8.toNat_lt a
  unfold encodeRound
  simp only [Encoding.at_i, Encoding.mk_at, Encoding.put_at, hi, hend, ha, ↓reduceIte,
    first_digit hlt, second_high]
  simp [digits, text]

theorem round_two (h : data.drop i = [a, b]) (done : Str) (room : Nat) :
    encodeRound data (.at i done (room + 4)) = .inl
      (.at (i + 2) (done ++ (digits [a.toNat, b.toNat]).map text) room) := by
  obtain ⟨ha, hi, hrest⟩ := getD_drop h
  obtain ⟨hb, hi', hrest'⟩ := getD_drop hrest
  have hend := not_lt_of_drop hrest'
  have hlta := UInt8.toNat_lt a
  have hltb := UInt8.toNat_lt b
  unfold encodeRound
  simp only [Encoding.at_i, Encoding.mk_at, Encoding.put_at, hi, hi', hend, ha, hb, ↓reduceIte,
    first_digit hlta, second_digit hltb, third_high]
  simp [digits, text]

theorem round_three (h : data.drop i = a :: b :: c :: rest) (done : Str) (room : Nat) :
    encodeRound data (.at i done (room + 4)) = .inl
      (.at (i + 3) (done ++ [text (some (a.toNat / 4)),
        text (some (a.toNat % 4 * 16 + b.toNat / 16)),
        text (some (b.toNat % 16 * 4 + c.toNat / 64)), text (some (c.toNat % 64))]) room) := by
  obtain ⟨ha, hi, hrest⟩ := getD_drop h
  obtain ⟨hb, hi', hrest'⟩ := getD_drop hrest
  obtain ⟨hc, hi'', -⟩ := getD_drop hrest'
  have hlta := UInt8.toNat_lt a
  have hltb := UInt8.toNat_lt b
  have hltc := UInt8.toNat_lt c
  unfold encodeRound
  simp only [Encoding.at_i, Encoding.mk_at, Encoding.put_at, hi, hi', hi'', ha, hb, hc, ↓reduceIte,
    first_digit hlta, second_digit hltb, third_digit hltc, fourth_digit c.toNat]
  simp [text]

end Round

theorem encode_end (h : data.drop i = []) (n : Nat) (done : Str) :
    Walking.rounds (encodeRound data) (n + 1) (.at i done 0) = some done := by
  have hround : encodeRound data (.at i done 0) = .inr done := by
    unfold encodeRound
    simp only [Encoding.at_i, not_lt_of_drop h, ↓reduceIte]
    exact congrArg _ (List.append_nil done)
  rw [Walking.rounds, hround]

/-- The loop writes the digits of the bytes that are left into the room that is left. -/
theorem encode_loop (n : Nat) {rest : List UInt8} (h : data.drop i = rest) (hn : rest.length ≤ n)
    (done : Str) :
    Walking.rounds (encodeRound data) (n + 1) (.at i done ((rest.length + 2) / 3 * 4))
      = some (done ++ (digits (rest.map UInt8.toNat)).map text) := by
  induction n generalizing i rest done with
  | zero =>
    obtain rfl := List.length_eq_zero_iff.1 (Nat.le_zero.1 hn)
    rw [List.map_nil, digits, List.map_nil, List.append_nil]
    exact encode_end h 0 done
  | succ n ih =>
    -- the cases are those of `digits`
    rcases rest with _ | ⟨a, _ | ⟨b, _ | ⟨c, rest⟩⟩⟩
    · rw [List.map_nil, digits, List.map_nil, List.append_nil]
      exact encode_end h (n + 1) done
    · have hroom : ([a].length + 2) / 3 * 4 = 0 + 4 := by simp
      rw [hroom, Walking.rounds, round_one h done 0]
      exact encode_end (getD_drop h).2.2 n _
    · have hroom : ([a, b].length + 2) / 3 * 4 = 0 + 4 := by simp
      rw [hroom, Walking.rounds, round_two h done 0]
      exact encode_end (getD_drop (getD_drop h).2.2).2.2 n _
    · have hroom : ((a :: b :: c :: rest).length + 2) / 3 * 4
          = (rest.length + 2) / 3 * 4 + 4 := by
        simp only [List.length_cons]
        omega
      have hrest := (getD_drop (getD_drop (getD_drop h).2.2).2.2).2.2
      simp only [List.length_cons] at hn
      rw [hroom, Walking.rounds, round_three h]
      dsimp only
      rw [ih hrest (by omega)]
      simp [digits]

/-- The encoder writes the digits of its bytes. -/
theorem encode_eq (data : List UInt8) :
    encodeFromArray data = some ((digits (data.map UInt8.toNat)).map text) :=
  encode_loop data.length rfl (Nat.le_refl _) []

/-! ## 4. A quantum of the strict decoder -/

/-- The bytes of some digits and the characters after them. -/
def readFrom (ds : List (Option Nat)) (t : Str) : Option (List Nat) :=
  (t.mapM digitOf).bind fun es => bytes (ds ++ es)

theorem readFrom_nil (ds : List (Option Nat)) : readFrom ds [] = bytes ds := by
  unfold readFrom
  rw [List.mapM_nil]
  exact congrArg bytes (List.append_nil ds)

theorem readFrom_digit (h : digitOf ch = some d) (ds : List (Option Nat)) (t : Str) :
    readFrom ds (ch :: t) = readFrom (ds ++ [d]) t := by
  unfold readFrom
  rw [List.mapM_cons, h]
  cases t.mapM digitOf with
  | none => rfl
  | some es => simp

theorem readFrom_illegal (h : digitOf ch = none) (ds : List (Option Nat)) (t : Str) :
    readFrom ds (ch :: t) = none := by
  unfold readFrom
  rw [List.mapM_cons, h]
  rfl

/-- Some digits that no bytes have at the start. -/
theorem readFrom_none (h : ∀ es, bytes (ds ++ es) = none) (t : Str) : readFrom ds t = none := by
  unfold readFrom
  cases t.mapM digitOf with
  | none => rfl
  | some es => exact h es

section Loop

variable {ch : UInt8} {rest : Str} {q : Quantum} {v flags : Nat} {pads : Bool}

theorem decodeChar_digit (h : digitOf ch = some (some v)) :
    decodeChar ch = v ∧ v ≠ pd ∧ v ≠ sp ∧ v ≠ il := by
  unfold digitOf at h
  split at h
  · cases h
  · next hpd =>
      split at h
      · cases h
      · next hother =>
          obtain rfl := Option.some.inj (Option.some.inj h)
          exact ⟨rfl, hpd, fun hsp => hother (Or.inl hsp), fun hil => hother (Or.inr hil)⟩

theorem decodeChar_pad (h : digitOf ch = some none) : decodeChar ch = pd := by
  unfold digitOf at h
  split at h
  · assumption
  · split at h <;> cases h

theorem decodeChar_illegal (h : digitOf ch = none) : decodeChar ch = sp ∨ decodeChar ch = il := by
  unfold digitOf at h
  split at h
  · cases h
  · split at h
    · assumption
    · cases h

/-- A digit is taken, whatever the flags are. -/
theorem loop_digit (h : digitOf ch = some (some v)) (hlen : q.byte_len < 4)
    (hpad : q.pad_len = 0) :
    quantumLoop flags pads (ch :: rest) q = quantumLoop flags pads rest
      { q with
        qbuf := q.qbuf.set q.byte_len v
        dpos := q.dpos + 1
        byte_len := q.byte_len + 1 } := by
  obtain ⟨hvalue, hpd, hsp, hil⟩ := decodeChar_digit h
  rw [quantumLoop, if_pos hlen]
  simp only [hvalue, Ne.symm hpd, Ne.symm hsp, Ne.symm hil, hpad]
  simp

/-- A pad is counted, where pads are legal. -/
theorem loop_pad (h : digitOf ch = some none) (hlen : 2 ≤ q.byte_len)
    (hroom : q.byte_len + q.pad_len < 4) :
    quantumLoop flags false (ch :: rest) q = quantumLoop flags false rest
      { q with
        qbuf := q.qbuf.set q.byte_len pd
        dpos := q.dpos + 1
        pad_len := q.pad_len + 1
        pad_start := if q.pad_len = 0 then q.dpos else q.pad_start } := by
  have hvalue := decodeChar_pad h
  rw [quantumLoop, if_pos (by omega)]
  simp only [hvalue, Nat.not_lt.2 hlen, Nat.not_le.2 hroom]
  simp [pd, il, sp]

/-- The strict decoder stops at a character that is illegal, at a pad too early or too many, and
at a digit after a pad. -/
theorem loop_stop (hlen : q.byte_len < 4)
    (h : digitOf ch = none ∨
      (digitOf ch = some none ∧ (q.byte_len < 2 ∨ 4 ≤ q.byte_len + q.pad_len)) ∨
      (∃ v, digitOf ch = some (some v)) ∧ 0 < q.pad_len) :
    quantumLoop DO_PARSE_STRICT false (ch :: rest) q
      = { q with qbuf := q.qbuf.set q.byte_len (decodeChar ch) } := by
  rw [quantumLoop, if_pos hlen]
  rcases h with h | ⟨h, hpad⟩ | ⟨⟨v, h⟩, hpad⟩
  · rcases decodeChar_illegal h with hvalue | hvalue
    · simp [hvalue, sp, il]
    · simp [hvalue, il, DO_PARSE_STRICT, DO_PARSE_ANY]
  · have hvalue := decodeChar_pad h
    rcases hpad with hearly | hmany
    · simp [hvalue, hearly, sp, il, pd, DO_PARSE_STRICT, DO_PARSE_ANY]
    · simp [hvalue, hmany, sp, il, pd, DO_PARSE_STRICT, DO_PARSE_ANY]
  · obtain ⟨hvalue, hpd, hsp, hil⟩ := decodeChar_digit h
    simp [hvalue, Ne.symm hpd, Ne.symm hsp, Ne.symm hil, hpad, DO_PARSE_STRICT, DO_PARSE_ANY]

theorem loop_full (h : q.byte_len = 4) (t : Str) : quantumLoop flags pads t q = q := by
  cases t with
  | nil => rfl
  | cons ch t => rw [quantumLoop, if_neg (by omega)]

end Loop

/-- What stands at the start of some characters, as `GetNextQuantum` gives it back. -/
inductive Strict (t : Str) (dpos : Nat) : NextQuantum → Prop
  | full {p q r s : Nat} (rest : Str) (hp : p < 64) (hq : q < 64) (hr : r < 64) (hs : s < 64)
      (hdrop : t.drop 4 = rest) (hlen : t.length = 4 + rest.length)
      (hread : readFrom [] t = readFrom [some p, some q, some r, some s] rest) :
      Strict t dpos ⟨4, dpos + 4, [p, q, r, s], true⟩
  | twoPads {p q : Nat} (rest : Str) (hp : p < 64) (hq : q < 64)
      (hlen : t.length = 4 + rest.length)
      (hread : readFrom [] t = readFrom [some p, some q, none, none] rest) :
      Strict t dpos ⟨2, dpos + 4, [p, q, 0, 0], true⟩
  | onePad {p q r : Nat} (rest : Str) (hp : p < 64) (hq : q < 64) (hr : r < 64)
      (hlen : t.length = 4 + rest.length)
      (hread : readFrom [] t = readFrom [some p, some q, some r, none] rest) :
      Strict t dpos ⟨3, dpos + 4, [p, q, r, 0], true⟩
  | broken {qlen pos : Nat} {qbuf : List Nat} (hqlen : qlen < 4)
      (hread : readFrom [] t = none) : Strict t dpos ⟨qlen, pos, qbuf, false⟩

/-- The loop stopped before the quantum was full. -/
theorem broken_next {data : Str} {q : Quantum} (ht : data.drop dpos = t)
    (hloop : quantumLoop DO_PARSE_STRICT false t ⟨dpos, 0, 0, 0, [0, 0, 0, 0]⟩ = q)
    (hfew : q.byte_len + q.pad_len < 4) (hread : readFrom [] t = none) :
    Strict t dpos (getNextQuantum DO_PARSE_STRICT false data dpos) := by
  unfold getNextQuantum
  rw [ht, hloop]
  dsimp only
  rw [if_neg (by omega)]
  split <;> exact .broken (by omega) hread

/-- The loop stopped after a full quantum. -/
theorem padded_next {data : Str} {q : Quantum} (ht : data.drop dpos = t)
    (hloop : quantumLoop DO_PARSE_STRICT false t ⟨dpos, 0, 0, 0, [0, 0, 0, 0]⟩ = q)
    (hfull : q.byte_len + q.pad_len = 4) :
    getNextQuantum DO_PARSE_STRICT false data dpos
      = ⟨q.byte_len, q.dpos, q.qbuf.take q.byte_len ++ List.replicate (4 - q.byte_len) 0,
        true⟩ := by
  unfold getNextQuantum
  rw [ht, hloop]
  exact if_pos hfull.symm

/-- The variables of the loop, and the digits that have been read, at some characters. -/
structure Reading (dpos : Nat) (whole t : Str) (q : Quantum) (ds : List (Option Nat)) : Prop where
  loop : quantumLoop DO_PARSE_STRICT false whole ⟨dpos, 0, 0, 0, [0, 0, 0, 0]⟩
    = quantumLoop DO_PARSE_STRICT false t q
  read : readFrom [] whole = readFrom ds t

section Reading

variable {data whole t : Str} {dpos : Nat} {q : Quantum} {ds : List (Option Nat)} {ch : UInt8}

theorem Reading.digit {v : Nat} (h : Reading dpos whole (ch :: t) q ds)
    (hch : digitOf ch = some (some v)) (hlen : q.byte_len < 4) (hpad : q.pad_len = 0) :
    Reading dpos whole t { q with
      qbuf := q.qbuf.set q.byte_len v
      dpos := q.dpos + 1
      byte_len := q.byte_len + 1 } (ds ++ [some v]) :=
  ⟨h.loop.trans (loop_digit hch hlen hpad), h.read.trans (readFrom_digit hch ds t)⟩

theorem Reading.pad (h : Reading dpos whole (ch :: t) q ds) (hch : digitOf ch = some none)
    (hlen : 2 ≤ q.byte_len) (hroom : q.byte_len + q.pad_len < 4) :
    Reading dpos whole t { q with
      qbuf := q.qbuf.set q.byte_len pd
      dpos := q.dpos + 1
      pad_len := q.pad_len + 1
      pad_start := if q.pad_len = 0 then q.dpos else q.pad_start } (ds ++ [none]) :=
  ⟨h.loop.trans (loop_pad hch hlen hroom), h.read.trans (readFrom_digit hch ds t)⟩

/-- The characters end before the quantum is full. -/
theorem Reading.ended (h : Reading dpos whole [] q ds) (ht : data.drop dpos = whole)
    (hfew : q.byte_len + q.pad_len < 4) (hread : bytes ds = none) :
    Strict whole dpos (getNextQuantum DO_PARSE_STRICT false data dpos) :=
  broken_next ht h.loop hfew (h.read.trans ((readFrom_nil ds).trans hread))

/-- The next character is illegal. -/
theorem Reading.illegal (h : Reading dpos whole (ch :: t) q ds) (ht : data.drop dpos = whole)
    (hch : digitOf ch = none) (hfew : q.byte_len + q.pad_len < 4) :
    Strict whole dpos (getNextQuantum DO_PARSE_STRICT false data dpos) :=
  broken_next ht (h.loop.trans (loop_stop (by omega) (.inl hch))) hfew
    (h.read.trans (readFrom_illegal hch ds t))

/-- The next character is a pad too early. -/
theorem Reading.early (h : Reading dpos whole (ch :: t) q ds) (ht : data.drop dpos = whole)
    (hch : digitOf ch = some none) (hlen : q.byte_len < 2) (hfew : q.byte_len + q.pad_len < 4)
    (hread : ∀ es, bytes (ds ++ [none] ++ es) = none) :
    Strict whole dpos (getNextQuantum DO_PARSE_STRICT false data dpos) :=
  broken_next ht (h.loop.trans (loop_stop (by omega) (.inr (.inl ⟨hch, .inl hlen⟩)))) hfew
    (h.read.trans ((readFrom_digit hch ds t).trans (readFrom_none hread t)))

/-- The next character is a digit after a pad. -/
theorem Reading.late {v : Nat} (h : Reading dpos whole (ch :: t) q ds)
    (ht : data.drop dpos = whole) (hch : digitOf ch = some (some v)) (hpad : 0 < q.pad_len)
    (hfew : q.byte_len + q.pad_len < 4) (hread : ∀ es, bytes (ds ++ [some v] ++ es) = none) :
    Strict whole dpos (getNextQuantum DO_PARSE_STRICT false data dpos) :=
  broken_next ht (h.loop.trans (loop_stop (by omega) (.inr (.inr ⟨⟨v, hch⟩, hpad⟩)))) hfew
    (h.read.trans ((readFrom_digit hch ds t).trans (readFrom_none hread t)))

/-- The quantum is full, with its pads: the loop stops whatever comes. -/
theorem Reading.padded (h : Reading dpos whole t q ds) (ht : data.drop dpos = whole)
    (hpad : 0 < q.pad_len) (hfull : q.byte_len + q.pad_len = 4) :
    getNextQuantum DO_PARSE_STRICT false data dpos
      = ⟨q.byte_len, q.dpos, q.qbuf.take q.byte_len ++ List.replicate (4 - q.byte_len) 0,
        true⟩ := by
  cases t with
  | nil => exact padded_next ht h.loop hfull
  | cons ch t =>
    have hstop : quantumLoop DO_PARSE_STRICT false (ch :: t) q
        = { q with qbuf := q.qbuf.set q.byte_len (decodeChar ch) } := by
      refine loop_stop (by omega) ?_
      rcases hch : digitOf ch with _ | _ | v
      · exact .inl rfl
      · exact .inr (.inl ⟨rfl, .inr (by omega)⟩)
      · exact .inr (.inr ⟨⟨v, rfl⟩, hpad⟩)
    rw [padded_next ht (h.loop.trans hstop) hfull]
    -- the character at which it stops is behind those that count
    rw [List.take_set_of_le (Nat.le_refl _)]

end Reading

/-- The strict decoder takes a full quantum, or one with one or two pads, or nothing can be read
from there. -/
theorem quantum_strict {data whole : Str} (ht : data.drop dpos = whole) (hne : whole ≠ []) :
    Strict whole dpos (getNextQuantum DO_PARSE_STRICT false data dpos) := by
  obtain ⟨c0, t0, hwhole⟩ := List.exists_cons_of_ne_nil hne
  have r0 : Reading dpos whole (c0 :: t0) ⟨dpos, 0, 0, 0, [0, 0, 0, 0]⟩ [] :=
    ⟨by rw [← hwhole], by rw [← hwhole]⟩
  rcases h0 : digitOf c0 with _ | _ | p
  · exact r0.illegal ht h0 (by simp)
  · exact r0.early ht h0 (by simp) (by simp) fun es => by simp [bytes]
  have hp := (text_digitOf h0).2 p rfl
  have r1 := r0.digit h0 (by simp) rfl
  rcases t0 with _ | ⟨c1, t1⟩
  · exact r1.ended ht (by simp) (by simp [bytes])
  rcases h1 : digitOf c1 with _ | _ | q
  · exact r1.illegal ht h1 (by simp)
  · exact r1.early ht h1 (by simp) (by simp) fun es => by simp [bytes]
  have hq := (text_digitOf h1).2 q rfl
  have r2 := r1.digit h1 (by simp) rfl
  rcases t1 with _ | ⟨c2, t2⟩
  · exact r2.ended ht (by simp) (by simp [bytes])
  rcases h2 : digitOf c2 with _ | _ | r
  · exact r2.illegal ht h2 (by simp)
  · -- a pad after two digits: another one has to follow
    have r3 := r2.pad h2 (by simp) (by simp)
    rcases t2 with _ | ⟨c3, t3⟩
    · exact r3.ended ht (by simp) (by simp [bytes])
    rcases h3 : digitOf c3 with _ | _ | s
    · exact r3.illegal ht h3 (by simp)
    · have r4 := r3.pad h3 (by simp) (by simp)
      rw [r4.padded ht (by simp) (by simp)]
      refine .twoPads t3 hp hq ?_ r4.read
      rw [hwhole]
      simp only [List.length_cons]
      omega
    · exact r3.late ht h3 (by simp) (by simp) fun es => by simp [bytes]
  · have hr := (text_digitOf h2).2 r rfl
    have r3 := r2.digit h2 (by simp) rfl
    rcases t2 with _ | ⟨c3, t3⟩
    · exact r3.ended ht (by simp) (by simp [bytes])
    have hlen : whole.length = 4 + t3.length := by
      rw [hwhole]
      simp only [List.length_cons]
      omega
    rcases h3 : digitOf c3 with _ | _ | s
    · exact r3.illegal ht h3 (by simp)
    · have r4 := r3.pad h3 (by simp) (by simp)
      rw [r4.padded ht (by simp) (by simp)]
      exact .onePad t3 hp hq hr hlen r4.read
    · have hs := (text_digitOf h3).2 s rfl
      have r4 := r3.digit h3 (by simp) rfl
      rw [padded_next ht (r4.loop.trans (loop_full rfl t3)) rfl]
      exact .full t3 hp hq hr hs (by rw [hwhole]; rfl) hlen r4.read

/-! ## 5. The strict decoder -/

section Pushed

variable {p q r s : Nat}

theorem push_full (hq : q < 64) (hr : r < 64) (hs : s < 64) (result : Str) :
    pushBytes [p, q, r, s] 4 result = (result ++ [UInt8.ofNat (p * 4 + q / 16),
      UInt8.ofNat (q % 16 * 16 + r / 4), UInt8.ofNat (r % 4 * 64 + s)], 0) := by
  rw [← first_byte hq, ← second_byte hr, ← third_byte hs]
  simp [pushBytes]

theorem push_one (hq : q < 64) (result : Str) :
    pushBytes [p, q, 0, 0] 2 result
      = (result ++ [UInt8.ofNat (p * 4 + q / 16)], UInt8.ofNat (q % 16 * 16)) := by
  have hsecond : (q <<< 4 &&& 0xf0) ||| (0 >>> 2 &&& 0xf) = q % 16 * 16 :=
    second_byte (by decide)
  rw [← first_byte hq, ← hsecond]
  simp [pushBytes]

theorem push_two (hq : q < 64) (hr : r < 64) (result : Str) :
    pushBytes [p, q, r, 0] 3 result
      = (result ++ [UInt8.ofNat (p * 4 + q / 16), UInt8.ofNat (q % 16 * 16 + r / 4)],
        UInt8.ofNat (r % 4 * 64)) := by
  have hthird : (r <<< 6 &&& 0xc0) ||| 0 = r % 4 * 64 := third_byte (by decide)
  rw [← first_byte hq, ← second_byte hr, ← hthird]
  simp [pushBytes]

/-- The bits that are left are zero. -/
theorem left_zero_iff {x k : Nat} (h : x * k < 256) (hk : 0 < k) :
    UInt8.ofNat (x * k) = 0 ↔ x = 0 := by
  rw [← UInt8.toNat_inj, UInt8.toNat_ofNat', Nat.mod_eq_of_lt h]
  simp [Nat.mul_eq_zero, Nat.pos_iff_ne_zero.1 hk]

end Pushed

section Decoder

variable {data t : Str} {d : Decoding} {nq : NextQuantum}

/-- A round of a decoder that requires padding and ends at the end of the buffer. -/
theorem round_padded {flags parse : Nat} (hparse : flags &&& DO_PARSE_MASK = parse)
    (hpad : flags &&& DO_PAD_MASK = DO_PAD_YES) (hterm : flags &&& DO_TERM_MASK = DO_TERM_BUFFER)
    (h : d.dpos < data.length) (hnq : getNextQuantum parse false data d.dpos = nq) :
    decodeRound flags data d =
      if nq.qlen < 4 then
        .inr ⟨nq.dpos, d.success && decide ((pushBytes nq.qbuf nq.qlen d.result).2 = 0) &&
          nq.padded, (pushBytes nq.qbuf nq.qlen d.result).1⟩
      else .inl ⟨nq.dpos, d.success, (pushBytes nq.qbuf nq.qlen d.result).1⟩ := by
  have hno : decide (DO_PAD_NO = DO_PAD_YES) = false := by decide
  have hyes : decide (DO_PAD_YES = DO_PAD_YES) = true := by decide
  have hany : decide (DO_TERM_ANY ≠ DO_TERM_BUFFER) = true := by decide
  unfold decodeRound
  rw [if_pos h, hparse, hpad, hterm, hno, hyes, hany]
  simp only [hnq, Bool.true_and, Bool.not_not]
  congr 4
  simp [eq_comm]

/-- A round of the strict decoder. -/
theorem round_strict (h : d.dpos < data.length)
    (hnq : getNextQuantum DO_PARSE_STRICT false data d.dpos = nq) :
    decodeRound DO_STRICT data d =
      if nq.qlen < 4 then
        .inr ⟨nq.dpos, d.success && decide ((pushBytes nq.qbuf nq.qlen d.result).2 = 0) &&
          nq.padded, (pushBytes nq.qbuf nq.qlen d.result).1⟩
      else .inl ⟨nq.dpos, d.success, (pushBytes nq.qbuf nq.qlen d.result).1⟩ :=
  round_padded (by decide) (by decide) (by decide) h hnq

/-- The bytes that some characters are the digits of. -/
def strictBytes (t : Str) : Option (List Nat) := readFrom [] t

/-- A full quantum, and what comes after it. -/
theorem readFrom_full (p q r s : Nat) (t : Str) :
    readFrom [some p, some q, some r, some s] t = (strictBytes t).map fun bs =>
      (p * 4 + q / 16) :: (q % 16 * 16 + r / 4) :: (r % 4 * 64 + s) :: bs := by
  unfold strictBytes readFrom
  cases t.mapM digitOf with
  | none => rfl
  | some es => simp [bytes]

/-- Nothing comes after some digits. -/
theorem readFrom_last {ds : List (Option Nat)} (h : ∀ d es, bytes (ds ++ [d] ++ es) = none)
    (t : Str) : readFrom ds t = if t = [] then bytes ds else none := by
  cases t with
  | nil => exact readFrom_nil ds
  | cons ch t =>
    rw [if_neg (List.cons_ne_nil ch t)]
    cases hch : digitOf ch with
    | none => exact readFrom_illegal hch ds t
    | some d => rw [readFrom_digit hch, readFrom_none (h d)]

/-- What the loop has to leave behind. -/
def Decoded (data result : Str) (d : Decoding) : Option (List Nat) → Prop
  | some bs => d = ⟨data.length, true, result ++ bs.map UInt8.ofNat⟩
  | none => ¬ (d.success = true ∧ d.dpos = data.length)

/-- At the end of the characters the loop stops, whatever the flags are. -/
theorem decode_end {flags dpos : Nat} (h : dpos = data.length) (n : Nat) (result : Str) :
    ∃ d, Walking.rounds (decodeRound flags data) (n + 1) ⟨dpos, true, result⟩ = some d ∧
      Decoded data result d (some []) := by
  have hround : decodeRound flags data ⟨dpos, true, result⟩ = .inr ⟨dpos, true, result⟩ :=
    if_neg (by rw [h]; exact Nat.lt_irrefl _)
  refine ⟨⟨dpos, true, result⟩, by rw [Walking.rounds, hround], ?_⟩
  show _ = _
  rw [h, List.map_nil, List.append_nil]

/-- A quantum that is not full is the last one. -/
theorem decoded_last {ds : List (Option Nat)} {dpos : Nat} {rest result : Str} {left : UInt8}
    (bs : List Nat) (hlen : dpos + rest.length = data.length)
    (hread : strictBytes t = readFrom ds rest)
    (hlast : ∀ d es, bytes (ds ++ [d] ++ es) = none)
    (hbytes : bytes ds = if left = 0 then some bs else none) :
    Decoded data result
      ⟨dpos, true && decide (left = 0) && true, result ++ bs.map UInt8.ofNat⟩ (strictBytes t) := by
  rw [hread, readFrom_last hlast]
  by_cases hrest : rest = []
  · rw [if_pos hrest, hbytes]
    rw [hrest, List.length_nil, Nat.add_zero] at hlen
    by_cases hleft : left = 0
    · rw [if_pos hleft, decide_eq_true hleft, hlen]
      rfl
    · rw [if_neg hleft, decide_eq_false hleft]
      exact fun h => Bool.false_ne_true h.1
  · rw [if_neg hrest]
    rintro ⟨-, hend⟩
    have hpos := List.length_pos_of_ne_nil hrest
    dsimp only at hend
    omega

/-- From a place on, the loop reads the bytes that the characters there are the digits of. -/
theorem decode_loop (n : Nat) {dpos : Nat} (ht : data.drop dpos = t)
    (hlen : dpos + t.length = data.length) (hn : t.length ≤ n) (result : Str) :
    ∃ d, Walking.rounds (decodeRound DO_STRICT data) (n + 1) ⟨dpos, true, result⟩ = some d ∧
      Decoded data result d (strictBytes t) := by
  induction n generalizing dpos t result with
  | zero =>
    obtain rfl := List.length_eq_zero_iff.1 (Nat.le_zero.1 hn)
    exact decode_end hlen 0 result
  | succ n ih =>
    by_cases hne : t = []
    · subst hne
      exact decode_end hlen (n + 1) result
    have hpos := List.length_pos_of_ne_nil hne
    have hlt : (⟨dpos, true, result⟩ : Decoding).dpos < data.length := by
      show dpos < data.length
      omega
    have hquantum := quantum_strict ht hne
    rw [Walking.rounds, round_strict hlt rfl]
    generalize getNextQuantum DO_PARSE_STRICT false data dpos = nq at hquantum ⊢
    cases hquantum with
    | @full p q r s rest hp hq hr hs hdrop hfour hread =>
      have hrest : data.drop (dpos + 4) = rest := by rw [← List.drop_drop, ht, hdrop]
      obtain ⟨d, hd, hdecoded⟩ := ih hrest (by omega) (by omega)
        (pushBytes [p, q, r, s] 4 result).1
      refine ⟨d, hd, ?_⟩
      rw [show strictBytes t = _ from hread, readFrom_full]
      rw [push_full hq hr hs] at hdecoded
      cases hmore : strictBytes rest with
      | none =>
        rw [hmore] at hdecoded
        exact hdecoded
      | some bs =>
        rw [hmore] at hdecoded
        refine hdecoded.trans ?_
        simp
    | @twoPads p q rest hp hq hfour hread =>
      have hbytes : bytes [some p, some q, none, none]
          = if UInt8.ofNat (q % 16 * 16) = 0 then some [p * 4 + q / 16] else none := by
        rw [bytes]
        simp only [left_zero_iff (show q % 16 * 16 < 256 by omega) (by decide)]
      dsimp only
      rw [if_pos (by decide), push_one hq]
      exact ⟨_, rfl, decoded_last _ (by omega) hread (fun d es => by simp [bytes]) hbytes⟩
    | @onePad p q r rest hp hq hr hfour hread =>
      have hbytes : bytes [some p, some q, some r, none]
          = if UInt8.ofNat (r % 4 * 64) = 0 then
              some [p * 4 + q / 16, q % 16 * 16 + r / 4] else none := by
        rw [bytes]
        simp only [left_zero_iff (show r % 4 * 64 < 256 by omega) (by decide)]
      dsimp only
      rw [if_pos (by decide), push_two hq hr]
      exact ⟨_, rfl, decoded_last _ (by omega) hread (fun d es => by simp [bytes]) hbytes⟩
    | @broken qlen pos qbuf hqlen hread =>
      dsimp only
      rw [if_pos hqlen]
      refine ⟨_, rfl, ?_⟩
      rw [show strictBytes t = _ from hread]
      simp [Decoded]

/-- A decoder whose loop reads some bytes, or fails, does so. -/
theorem decode_of_loop {flags : Nat} (hbuffer : DO_TERM_BUFFER = flags &&& DO_TERM_MASK)
    {read : Option (List Nat)} (hloop : ∃ d, Walking.rounds (decodeRound flags data)
      (data.length + 1) ⟨0, true, []⟩ = some d ∧ Decoded data [] d read) :
    ∃ d, decodeFromArray data flags = some d ∧ (d.success = true ↔ ∃ bs, read = some bs) ∧
      ∀ bs, read = some bs → d = ⟨data.length, true, bs.map UInt8.ofNat⟩ := by
  obtain ⟨d, hd, hdecoded⟩ := hloop
  unfold decodeFromArray
  rw [hd, Option.map_some, decide_eq_true hbuffer]
  refine ⟨_, rfl, ?_⟩
  cases read with
  | none =>
    refine ⟨?_, fun bs hbs => absurd hbs (by simp)⟩
    have hfails : ¬ (d.success = true ∧ d.dpos = data.length) := hdecoded
    simpa using hfails
  | some bs =>
    obtain rfl : d = ⟨data.length, true, [] ++ bs.map UInt8.ofNat⟩ := hdecoded
    simp

/-- The strict decoder reads the bytes that the characters are the digits of, or fails. -/
theorem decode_strict (data : Str) : ∃ d, decodeFromArray data DO_STRICT = some d ∧
    (d.success = true ↔ ∃ bs, strictBytes data = some bs) ∧
    ∀ bs, strictBytes data = some bs → d = ⟨data.length, true, bs.map UInt8.ofNat⟩ :=
  decode_of_loop (by decide) (decode_loop data.length (show data.drop 0 = data from rfl)
    (Nat.zero_add _) (Nat.le_refl _) [])

end Decoder

/-- The strict decoder reads what the encoder writes, to the end. -/
theorem decode_encode (data : List UInt8) : ∃ s, encodeFromArray data = some s ∧
    decodeFromArray s DO_STRICT = some ⟨s.length, true, data⟩ := by
  have hbytes : (data.map UInt8.toNat).map UInt8.ofNat = data := by
    rw [List.map_map]
    exact (List.map_congr_left fun b _ => UInt8.ofNat_toNat).trans (List.map_id data)
  have hlt : ∀ a ∈ data.map UInt8.toNat, a < 256 := by
    intro a ha
    obtain ⟨b, -, rfl⟩ := List.mem_map.1 ha
    exact UInt8.toNat_lt b
  refine ⟨_, encode_eq data, ?_⟩
  obtain ⟨d, hd, -, hresult⟩ := decode_strict ((digits (data.map UInt8.toNat)).map text)
  have hread : strictBytes ((digits (data.map UInt8.toNat)).map text)
      = some (data.map UInt8.toNat) := by
    unfold strictBytes readFrom
    rw [mapM_text (digits_lt hlt)]
    exact bytes_digits hlt
  rw [hd, hresult _ hread, hbytes]

/-- What the strict decoder reads is also what the encoder writes of its result. -/
theorem strict_bijection :
    (∀ data : List UInt8, ∃ s, encodeFromArray data = some s ∧
      decodeFromArray s DO_STRICT = some ⟨s.length, true, data⟩) ∧
    ∀ (s : Str) (d : Decoding), decodeFromArray s DO_STRICT = some d → d.success = true →
      encodeFromArray d.result = some s := by
  constructor
  · exact decode_encode
  · intro s d hd hsuccess
    obtain ⟨d', hd', hiff, hresult⟩ := decode_strict s
    obtain rfl := Option.some.inj (hd'.symm.trans hd)
    obtain ⟨bs, hbs⟩ := hiff.1 hsuccess
    obtain ⟨ds, hds, hread⟩ := Option.bind_eq_some_iff.1 hbs
    obtain ⟨hlt, htext⟩ := mapM_digitOf hds
    obtain ⟨hdigits, hbs256⟩ := digits_bytes hlt hread
    have htoNat : (bs.map UInt8.ofNat).map UInt8.toNat = bs := by
      rw [List.map_map]
      refine (List.map_congr_left fun a ha => ?_).trans (List.map_id bs)
      exact UInt8.toNat_ofNat_of_lt (hbs256 a ha)
    rw [hresult bs hbs, encode_eq, htoNat, hdigits, htext]

end Gxmpp.TalkBase.Base64
