/-
The strict decoder without padding reads the digits that it finds, up to four for a quantum.

It takes a quantum of one digit when the digit is zero: no byte comes of it and no bit is left.
So it succeeds with what the encoder writes less the padding, and also where an `A` follows whole
quanta (`unpadded_iff`). What it does with other strings is compared with the digits of
`Radix64`, as for the decoder with padding.
-/
import Gxmpp.Base64Strict
import Mathlib.Data.List.DropRight
import Mathlib.Data.List.ReduceOption

set_option autoImplicit false

namespace Gxmpp.TalkBase.Base64

open Radix64

/-- Strict, with padding disallowed. -/
def unpadded : Nat := DO_PARSE_STRICT ||| DO_PAD_NO ||| DO_TERM_BUFFER

/-- `Base64::IsBase64Char`. -/
def isBase64Char (ch : UInt8) : Bool :=
  (0x41 ≤ ch && ch ≤ 0x5A) || (0x61 ≤ ch && ch ≤ 0x7A) || (0x30 ≤ ch && ch ≤ 0x39) ||
    ch = 0x2B || ch = 0x2F

/-! ## 1. Digits without padding -/

/-- The digit of a character. -/
def valueOf (ch : UInt8) : Option Nat := (digitOf ch).join

variable {v : Nat} {ds l : List Nat} {s : Str}

theorem valueOf_eq_some {ch : UInt8} : valueOf ch = some v ↔ digitOf ch = some (some v) := by
  unfold valueOf
  rw [Option.join_eq_some_iff]

theorem valueOf_isSome (ch : UInt8) : (valueOf ch).isSome = isBase64Char ch := by
  have hentry := entry_forall
    (fun ch v => decide (v ≠ pd ∧ v ≠ sp ∧ v ≠ il) == isBase64Char ch) (by decide +kernel) ch
  rw [← beq_iff_eq.1 hentry]
  unfold valueOf digitOf
  by_cases hpad : decodeChar ch = pd
  · simp [hpad]
  · by_cases hnone : decodeChar ch = sp ∨ decodeChar ch = il
    · rw [if_neg hpad, if_pos hnone]
      rcases hnone with hnone | hnone <;> simp [hnone]
    · rw [if_neg hpad, if_neg hnone]
      simp [hpad, not_or.1 hnone]

theorem valueOf_lt {ch : UInt8} (h : valueOf ch = some v) : v < 64 :=
  (text_digitOf (valueOf_eq_some.1 h)).2 v rfl

/-- The digits at the start, at most `n`. -/
def leading : Nat → Str → List Nat
  | 0, _ | _ + 1, [] => []
  | n + 1, ch :: t =>
    match valueOf ch with
    | some v => v :: leading n t
    | none => []

theorem leading_length_le (n : Nat) (t : Str) : (leading n t).length ≤ n := by
  induction n generalizing t with
  | zero => simp [leading]
  | succ n ih =>
    cases t with
    | nil => simp [leading]
    | cons ch t =>
      unfold leading
      cases valueOf ch with
      | none => simp
      | some v => simpa using ih t

/-- Behind the digits at the start are others only if there were enough. -/
theorem leading_spec (n : Nat) (t : Str) :
    ∃ rest, t.drop (leading n t).length = rest ∧ t.length = (leading n t).length + rest.length ∧
      (∀ v ∈ leading n t, v < 64) ∧
      t.mapM valueOf = (rest.mapM valueOf).map (leading n t ++ ·) ∧
      ((leading n t).length = n ∨ ∀ ch ∈ rest.head?, valueOf ch = none) := by
  induction n generalizing t with
  | zero => exact ⟨t, rfl, by simp [leading], by simp [leading], by simp [leading], .inl rfl⟩
  | succ n ih =>
    cases t with
    | nil => exact ⟨[], rfl, rfl, by simp [leading], rfl, .inr (by simp)⟩
    | cons ch t =>
      unfold leading
      cases hch : valueOf ch with
      | none =>
        refine ⟨ch :: t, rfl, by simp, by simp, by simp, .inr ?_⟩
        intro c hc
        obtain rfl := Option.some.inj hc
        exact hch
      | some v =>
        obtain ⟨rest, hdrop, hlen, hlt, hmap, hnext⟩ := ih t
        refine ⟨rest, hdrop, ?_, ?_, ?_, ?_⟩
        · simp only [List.length_cons]
          omega
        · intro w hw
          rcases List.mem_cons.1 hw with rfl | hw
          · exact valueOf_lt hch
          · exact hlt w hw
        · rw [List.mapM_cons, hch, hmap]
          cases rest.mapM valueOf <;> rfl
        · exact hnext.imp_left fun h => by rw [List.length_cons, h]

/-! ## 2. A quantum -/

section Loop

variable {ch : UInt8} {rest : Str} {q : Quantum}

/-- Without padding the loop stops at whatever is no digit. -/
theorem unpadded_stop (h : valueOf ch = none) (hlen : q.byte_len < 4) :
    quantumLoop DO_PARSE_STRICT true (ch :: rest) q
      = { q with qbuf := q.qbuf.set q.byte_len (decodeChar ch) } := by
  rw [quantumLoop, if_pos hlen]
  rcases hdigit : digitOf ch with _ | _ | v
  · rcases decodeChar_illegal hdigit with hvalue | hvalue
    · simp [hvalue, sp, il, pd]
    · simp [hvalue, il, DO_PARSE_STRICT, DO_PARSE_ANY]
  · simp [decodeChar_pad hdigit, DO_PARSE_STRICT, DO_PARSE_ANY]
  · rw [valueOf_eq_some.2 hdigit] at h
    cases h

/-- The loop takes the digits that are there. -/
theorem loop_leading {n : Nat} (t : Str) (q : Quantum) (hlen : q.byte_len + n = 4)
    (hpad : q.pad_len = 0) (hbuf : q.qbuf.length = 4) :
    ∃ qbuf, quantumLoop DO_PARSE_STRICT true t q = { q with
        dpos := q.dpos + (leading n t).length
        byte_len := q.byte_len + (leading n t).length
        qbuf := qbuf } ∧
      qbuf.take (q.byte_len + (leading n t).length)
        = q.qbuf.take q.byte_len ++ leading n t := by
  induction n generalizing t q with
  | zero =>
    refine ⟨q.qbuf, loop_full hlen t, ?_⟩
    simp [leading]
  | succ n ih =>
    cases t with
    | nil => exact ⟨q.qbuf, rfl, by simp [leading]⟩
    | cons ch t =>
      unfold leading
      cases hch : valueOf ch with
      | none =>
        refine ⟨_, unpadded_stop hch (by omega), ?_⟩
        rw [List.length_nil, Nat.add_zero, List.append_nil]
        exact List.take_set_of_le (Nat.le_refl _)
      | some v =>
        rw [loop_digit (valueOf_eq_some.1 hch) (by omega) hpad]
        obtain ⟨qbuf, hloop, htake⟩ := ih t { q with
          qbuf := q.qbuf.set q.byte_len v
          dpos := q.dpos + 1
          byte_len := q.byte_len + 1 } (by dsimp only; omega) hpad
          (by rw [List.length_set, hbuf])
        refine ⟨qbuf, ?_, ?_⟩
        · rw [hloop, List.length_cons, Nat.add_comm (leading n t).length 1, ← Nat.add_assoc,
            ← Nat.add_assoc]
        · dsimp only at htake
          rw [List.length_cons, Nat.add_comm (leading n t).length 1, ← Nat.add_assoc, htake,
            List.take_add_one, List.take_set_of_le (Nat.le_refl _),
            List.getElem?_set_self (by omega)]
          simp

end Loop

theorem quantum_unpadded {data t : Str} {dpos : Nat} (ht : data.drop dpos = t) :
    getNextQuantum DO_PARSE_STRICT true data dpos = ⟨(leading 4 t).length,
      dpos + (leading 4 t).length,
      leading 4 t ++ List.replicate (4 - (leading 4 t).length) 0,
      decide ((leading 4 t).length = 4)⟩ := by
  obtain ⟨qbuf, hloop, htake⟩ := loop_leading (n := 4) t ⟨dpos, 0, 0, 0, [0, 0, 0, 0]⟩ rfl rfl rfl
  simp only [Nat.zero_add, List.take_zero, List.nil_append] at hloop htake
  unfold getNextQuantum
  rw [ht, hloop]
  dsimp only
  rw [htake, Nat.add_zero]
  by_cases hfull : 4 = (leading 4 t).length
  · rw [if_pos hfull, decide_eq_true hfull.symm]
  · rw [if_neg hfull, if_neg (fun h => h rfl), decide_eq_false (Ne.symm hfull)]

/-! ## 3. The decoder -/

/-- The bytes of some digits without padding, as the decoder reads them. -/
def plainBytes : List Nat → Option (List Nat)
  | [] => some []
  | [p] => if p = 0 then some [] else none
  | [p, q] => if q % 16 = 0 then some [p * 4 + q / 16] else none
  | [p, q, r] => if r % 4 = 0 then some [p * 4 + q / 16, q % 16 * 16 + r / 4] else none
  | p :: q :: r :: s :: l =>
    (plainBytes l).map fun bs =>
      (p * 4 + q / 16) :: (q % 16 * 16 + r / 4) :: (r % 4 * 64 + s) :: bs

/-- The bytes of some characters. -/
def readPlain (t : Str) : Option (List Nat) := (t.mapM valueOf).bind plainBytes

/-- What is pushed for a quantum that is not full, and the bits that are left. -/
theorem push_short (hlen : ds.length < 4) (hds : ∀ v ∈ ds, v < 64) (result : Str) :
    ∃ bs left, pushBytes (ds ++ List.replicate (4 - ds.length) 0) ds.length result
        = (result ++ bs.map UInt8.ofNat, left) ∧
      plainBytes ds = if left = 0 then some bs else none := by
  rcases ds with _ | ⟨p, _ | ⟨q, _ | ⟨r, _ | ⟨s, ds⟩⟩⟩⟩
  · exact ⟨[], 0, by simp [pushBytes], rfl⟩
  · have hp := hds p (by simp)
    refine ⟨[], UInt8.ofNat (p * 4), ?_, ?_⟩
    · have hbyte : p <<< 2 ||| (0 >>> 4 &&& 0x3) = p * 4 := first_byte (by decide)
      rw [← hbyte]
      simp [pushBytes]
    · simp only [left_zero_iff (show p * 4 < 256 by omega) (by decide)]
      rfl
  · have hq := hds q (by simp)
    refine ⟨[p * 4 + q / 16], UInt8.ofNat (q % 16 * 16), push_one hq result, ?_⟩
    simp only [left_zero_iff (show q % 16 * 16 < 256 by omega) (by decide)]
    rfl
  · have hq := hds q (by simp)
    have hr := hds r (by simp)
    refine ⟨[p * 4 + q / 16, q % 16 * 16 + r / 4], UInt8.ofNat (r % 4 * 64),
      push_two hq hr result, ?_⟩
    simp only [left_zero_iff (show r % 4 * 64 < 256 by omega) (by decide)]
    rfl
  · simp at hlen
    omega

section Decoder

variable {data t : Str} {d : Decoding} {nq : NextQuantum}

theorem round_unpadded (h : d.dpos < data.length)
    (hnq : getNextQuantum DO_PARSE_STRICT true data d.dpos = nq) :
    decodeRound unpadded data d =
      if nq.qlen < 4 then
        .inr ⟨nq.dpos, d.success && decide ((pushBytes nq.qbuf nq.qlen d.result).2 = 0),
          (pushBytes nq.qbuf nq.qlen d.result).1⟩
      else .inl ⟨nq.dpos, d.success, (pushBytes nq.qbuf nq.qlen d.result).1⟩ := by
  have hparse : unpadded &&& DO_PARSE_MASK = DO_PARSE_STRICT := by decide
  have hpad : decide (DO_PAD_NO = unpadded &&& DO_PAD_MASK) = true := by decide
  have hyes : decide (DO_PAD_YES = unpadded &&& DO_PAD_MASK) = false := by decide
  have hterm : decide (DO_TERM_ANY ≠ unpadded &&& DO_TERM_MASK) = true := by decide
  unfold decodeRound
  rw [if_pos h, hparse, hpad, hyes, hterm]
  simp only [hnq, Bool.true_and, Bool.false_and, Bool.not_false, Bool.and_true]
  congr 3
  simp [eq_comm]

/-- A quantum that is not full is the last one: behind it is nothing, or something that is no
digit. -/
theorem decoded_short {ds : List Nat} {dpos : Nat} {rest result bs : Str} {left : UInt8}
    {ns : List Nat} (hbs : bs = ns.map UInt8.ofNat)
    (hlen : dpos + ds.length + rest.length = data.length)
    (hnext : ∀ ch ∈ rest.head?, valueOf ch = none)
    (hread : readPlain t = (rest.mapM valueOf).bind fun es => plainBytes (ds ++ es))
    (hbytes : plainBytes ds = if left = 0 then some ns else none) :
    Decoded data result ⟨dpos + ds.length, true && decide (left = 0), result ++ bs⟩
      (readPlain t) := by
  rcases rest with _ | ⟨ch, rest⟩
  · have hall : readPlain t = if left = 0 then some ns else none := by
      rw [hread, ← hbytes]
      exact congrArg plainBytes (List.append_nil ds)
    rw [hall, show dpos + ds.length = data.length from hlen, Bool.true_and, hbs]
    by_cases hleft : left = 0
    · rw [if_pos hleft, decide_eq_true hleft]
      rfl
    · rw [if_neg hleft, decide_eq_false hleft]
      exact fun h => Bool.false_ne_true h.1
  · have hnone : readPlain t = none := by
      rw [hread, List.mapM_cons, hnext ch rfl]
      rfl
    rw [hnone]
    rintro ⟨-, hused⟩
    dsimp only at hused
    rw [List.length_cons] at hlen
    omega

/-- From a place on, the loop reads the bytes of the characters there. -/
theorem decode_loop_unpadded (n : Nat) {dpos : Nat} (ht : data.drop dpos = t)
    (hlen : dpos + t.length = data.length) (hn : t.length ≤ n) (result : Str) :
    ∃ d, Walking.rounds (decodeRound unpadded data) (n + 1) ⟨dpos, true, result⟩ = some d ∧
      Decoded data result d (readPlain t) := by
  induction n generalizing dpos t result with
  | zero =>
    obtain rfl := List.length_eq_zero_iff.1 (Nat.le_zero.1 hn)
    exact decode_end hlen 0 result
  | succ n ih =>
    by_cases hne : t = []
    · subst hne
      exact decode_end hlen (n + 1) result
    have hpos := List.length_pos_of_ne_nil hne
    have hlt : (⟨dpos, true, result⟩ : Decoding).dpos < data.length := by
      show dpos < data.length
      omega
    rw [Walking.rounds, round_unpadded hlt (quantum_unpadded ht)]
    obtain ⟨rest, hdrop, htlen, hds, hmap, hnext⟩ := leading_spec 4 t
    have hmany := leading_length_le 4 t
    have hread : readPlain t = (rest.mapM valueOf).bind
        fun es => plainBytes (leading 4 t ++ es) := by
      unfold readPlain
      rw [hmap]
      cases rest.mapM valueOf <;> rfl
    generalize leading 4 t = ds at hdrop htlen hds hnext hread hmany ⊢
    dsimp only
    rcases Nat.lt_or_eq_of_le hmany with hshort | hfull
    · rw [if_pos hshort]
      obtain ⟨ns, left, hpush, hbytes⟩ := push_short hshort hds result
      rw [hpush]
      exact ⟨_, rfl, decoded_short rfl (by omega) (hnext.resolve_left (Nat.ne_of_lt hshort))
        hread hbytes⟩
    · rw [if_neg (by omega)]
      obtain ⟨p, q, r, s, rfl⟩ : ∃ p q r s, ds = [p, q, r, s] := by
        rcases ds with _ | ⟨p, _ | ⟨q, _ | ⟨r, _ | ⟨s, _ | ⟨x, ds⟩⟩⟩⟩⟩ <;> simp at hfull
        exact ⟨p, q, r, s, rfl⟩
      have hrest : data.drop (dpos + 4) = rest := by
        rw [← List.drop_drop, ht]
        exact hdrop
      have htlen' : t.length = 4 + rest.length := htlen
      obtain ⟨d, hd, hdecoded⟩ := ih hrest (by omega) (by omega)
        (pushBytes [p, q, r, s] 4 result).1
      refine ⟨d, hd, ?_⟩
      have hgroup : readPlain t = (readPlain rest).map fun bs =>
          (p * 4 + q / 16) :: (q % 16 * 16 + r / 4) :: (r % 4 * 64 + s) :: bs := by
        rw [hread]
        unfold readPlain
        cases rest.mapM valueOf <;> rfl
      rw [hgroup]
      rw [push_full (hds q (by simp)) (hds r (by simp)) (hds s (by simp))] at hdecoded
      cases hmore : readPlain rest with
      | none =>
        rw [hmore] at hdecoded
        exact hdecoded
      | some bs =>
        rw [hmore] at hdecoded
        refine hdecoded.trans ?_
        simp

/-- The decoder reads the bytes of the characters, or fails. -/
theorem decode_unpadded (data : Str) : ∃ d, decodeFromArray data unpadded = some d ∧
    (d.success = true ↔ ∃ bs, readPlain data = some bs) ∧
    ∀ bs, readPlain data = some bs → d = ⟨data.length, true, bs.map UInt8.ofNat⟩ :=
  decode_of_loop (by decide) (decode_loop_unpadded data.length (show data.drop 0 = data from rfl)
    (Nat.zero_add _) (Nat.le_refl _) [])

end Decoder

/-! ## 4. Digits and bytes -/

/-- The digits of some bytes, without the padding. -/
def plainDigits (l : List Nat) : List Nat := (digits l).reduceOption

theorem digits_plain (l : List Nat) :
    ∃ k, digits l = (plainDigits l).map some ++ List.replicate k none := by
  unfold plainDigits
  induction l using digits.induct with
  | case1 => exact ⟨0, rfl⟩
  | case2 a => exact ⟨2, rfl⟩
  | case3 a b => exact ⟨1, rfl⟩
  | case4 a b c l ih =>
    obtain ⟨k, hk⟩ := ih
    refine ⟨k, ?_⟩
    rw [digits]
    simp only [List.reduceOption_cons_of_some, List.map_cons, List.cons_append]
    rw [← hk]

theorem plainDigits_lt (h : ∀ a ∈ l, a < 256) : ∀ v ∈ plainDigits l, v < 64 :=
  fun v hv => digits_lt h v (List.reduceOption_mem_iff.1 hv)

theorem plainBytes_digits (h : ∀ a ∈ l, a < 256) : plainBytes (plainDigits l) = some l := by
  unfold plainDigits
  induction l using digits.induct with
  | case1 => rfl
  | case2 a =>
    have ha := h a (by simp)
    simp only [digits, List.reduceOption_cons_of_some, List.reduceOption_cons_of_none,
      List.reduceOption_nil]
    rw [plainBytes, if_pos (by omega)]
    congr 2
    omega
  | case3 a b =>
    have ha := h a (by simp)
    have hb := h b (by simp)
    simp only [digits, List.reduceOption_cons_of_some, List.reduceOption_cons_of_none,
      List.reduceOption_nil]
    rw [plainBytes, if_pos (by omega)]
    congr 2
    · omega
    · congr 1
      omega
  | case4 a b c l ih =>
    have ha := h a (by simp)
    have hb := h b (by simp)
    have hc := h c (by simp)
    simp only [digits, List.reduceOption_cons_of_some]
    rw [plainBytes, ih fun d hd => h d (by simp [hd]), Option.map_some]
    congr 2
    · omega
    · congr 1
      · omega
      · congr 1
        omega

theorem getLast_group (p q r t : Nat) (h : ds ≠ []) :
    (p :: q :: r :: t :: ds).getLast? = ds.getLast? := by
  obtain ⟨x, hx⟩ := Option.ne_none_iff_exists'.1 fun hnil => h (List.getLast?_eq_none_iff.1 hnil)
  simp [List.getLast?_cons, hx]

/-- What can be read is what would be written, but for a digit zero that stands alone. -/
theorem digits_plainBytes (h : ∀ v ∈ ds, v < 64) (hl : plainBytes ds = some l) :
    (ds.length % 4 = 1 ∧ ds.getLast? = some 0) ∨
      (ds.length % 4 ≠ 1 ∧ plainDigits l = ds ∧ ∀ a ∈ l, a < 256) := by
  unfold plainDigits
  induction ds using plainBytes.induct generalizing l with
  | case1 =>
    obtain rfl := Option.some.inj hl
    exact .inr ⟨by simp, rfl, by simp⟩
  | case2 => exact .inl ⟨rfl, rfl⟩
  | case3 p hp | case5 p q hp | case7 p q r hp =>
    rw [plainBytes, if_neg hp] at hl
    cases hl
  | case4 p q hq =>
    have hp := h p (by simp)
    have hq' := h q (by simp)
    rw [plainBytes, if_pos hq] at hl
    obtain rfl := Option.some.inj hl
    refine .inr ⟨by simp, ?_, ?_⟩
    · simp only [digits, List.reduceOption_cons_of_some, List.reduceOption_cons_of_none,
        List.reduceOption_nil]
      rw [show (p * 4 + q / 16) / 4 = p by omega, show (p * 4 + q / 16) % 4 * 16 = q by omega]
    · simp only [List.mem_singleton, forall_eq]
      omega
  | case6 p q r hr =>
    have hp := h p (by simp)
    have hq := h q (by simp)
    have hr' := h r (by simp)
    rw [plainBytes, if_pos hr] at hl
    obtain rfl := Option.some.inj hl
    refine .inr ⟨by simp, ?_, ?_⟩
    · simp only [digits, List.reduceOption_cons_of_some, List.reduceOption_cons_of_none,
        List.reduceOption_nil]
      rw [show (p * 4 + q / 16) / 4 = p by omega,
        show (p * 4 + q / 16) % 4 * 16 + (q % 16 * 16 + r / 4) / 16 = q by omega,
        show (q % 16 * 16 + r / 4) % 16 * 4 = r by omega]
    · simp only [List.mem_cons, List.not_mem_nil, or_false, forall_eq_or_imp, forall_eq]
      omega
  | case8 p q r t ds ih =>
    have hp := h p (by simp)
    have hq := h q (by simp)
    have hr := h r (by simp)
    have ht := h t (by simp)
    rw [plainBytes] at hl
    obtain ⟨bs, hbs, rfl⟩ := Option.map_eq_some_iff.1 hl
    have hlen : (p :: q :: r :: t :: ds).length % 4 = ds.length % 4 := by
      simp only [List.length_cons]
      omega
    rcases ih (fun v hv => h v (by simp [hv])) hbs with ⟨hone, hlast⟩ | ⟨hnot, hdigits, hbytes⟩
    · refine .inl ⟨hlen.trans hone, ?_⟩
      have hne : ds ≠ [] := by
        rintro rfl
        simp at hone
      rw [getLast_group p q r t hne, hlast]
    · refine .inr ⟨by rwa [hlen], ?_, ?_⟩
      · simp only [digits, List.reduceOption_cons_of_some]
        rw [hdigits, show (p * 4 + q / 16) / 4 = p by omega,
          show (p * 4 + q / 16) % 4 * 16 + (q % 16 * 16 + r / 4) / 16 = q by omega,
          show (q % 16 * 16 + r / 4) % 16 * 4 + (r % 4 * 64 + t) / 64 = r by omega,
          show (r % 4 * 64 + t) % 64 = t by omega]
      · intro a ha
        simp only [List.mem_cons] at ha
        rcases ha with rfl | rfl | rfl | ha
        · omega
        · omega
        · omega
        · exact hbytes a ha

/-- A digit zero behind whole quanta is read, as nothing. -/
theorem plainBytes_stray (hlen : ds.length % 4 = 1) (hlast : ds.getLast? = some 0) :
    ∃ l, plainBytes ds = some l := by
  induction ds using plainBytes.induct with
  | case1 => cases hlast
  | case2 => exact ⟨[], rfl⟩
  | case3 p hp => exact absurd (Option.some.inj hlast) hp
  | case4 | case5 | case6 | case7 => simp at hlen
  | case8 p q r t ds ih =>
    have hds : ds.length % 4 = 1 := by
      simp only [List.length_cons] at hlen
      omega
    have hne : ds ≠ [] := by
      rintro rfl
      simp at hds
    rw [getLast_group p q r t hne] at hlast
    obtain ⟨l, hl⟩ := ih hds hlast
    exact ⟨_, by rw [plainBytes, hl, Option.map_some]⟩

/-! ## 5. What is accepted -/

/-- The decoder succeeds with these bytes. -/
def DecodesTo (s : Str) (b : List UInt8) : Prop :=
  ∃ d, decodeFromArray s unpadded = some d ∧ d.success = true ∧ d.result = b

/-- What the encoder writes, with its trailing pads removed. -/
def unpaddedForm (b : List UInt8) : Option Str :=
  (encodeFromArray b).map fun s => s.rdropWhile (· = kPad)

/-- Of the strings the decoder succeeds with this one only if it is to. -/
structure CanonicalOnly (s : Str) : Prop where
  accepts : ∀ b, DecodesTo s b ↔ unpaddedForm b = some s
  length : s.length % 4 = 1 → ∀ b, ¬ DecodesTo s b

/-- Whole quanta of base64 characters, and an `A` behind them. -/
def StrayA (s : Str) : Prop :=
  s.length % 4 = 1 ∧ s.getLast? = some 0x41 ∧ ∀ ch ∈ s, isBase64Char ch = true

theorem decodesTo_iff (s : Str) (b : List UInt8) :
    DecodesTo s b ↔ ∃ bs, readPlain s = some bs ∧ bs.map UInt8.ofNat = b := by
  obtain ⟨d, hd, hiff, hresult⟩ := decode_unpadded s
  constructor
  · rintro ⟨d', hd', hsuccess, rfl⟩
    obtain rfl := Option.some.inj (hd.symm.trans hd')
    obtain ⟨bs, hbs⟩ := hiff.1 hsuccess
    exact ⟨bs, hbs, by rw [hresult bs hbs]⟩
  · rintro ⟨bs, hbs, rfl⟩
    exact ⟨d, hd, hiff.2 ⟨bs, hbs⟩, by rw [hresult bs hbs]⟩

theorem rdropWhile_pads (u : Str) (h : ∀ ch ∈ u, ch ≠ kPad) (k : Nat) :
    (u ++ List.replicate k kPad).rdropWhile (· = kPad) = u := by
  induction k with
  | zero =>
    rw [List.replicate_zero, List.append_nil, List.rdropWhile_eq_self_iff]
    intro hne
    simpa using h _ (List.getLast_mem hne)
  | succ k ih =>
    rw [List.replicate_succ', ← List.append_assoc, List.rdropWhile_concat_pos _ _ _ (by simp)]
    exact ih

theorem text_ne_kPad (h : v < 64) : text (some v) ≠ kPad := by
  have hdigit : digitOf (text (some v)) = some (some v) :=
    digitOf_text fun w hw => Option.some.inj hw ▸ h
  intro hpad
  rw [hpad, show digitOf kPad = some none from by decide] at hdigit
  cases hdigit

/-- The characters of some digits. -/
def plainText (ds : List Nat) : Str := ds.map fun v => text (some v)

theorem mapM_plainText (h : ∀ v ∈ ds, v < 64) : (plainText ds).mapM valueOf = some ds := by
  unfold plainText
  induction ds with
  | nil => rfl
  | cons v ds ih =>
    have hv : valueOf (text (some v)) = some v :=
      valueOf_eq_some.2 (digitOf_text fun w hw => Option.some.inj hw ▸ h v (by simp))
    rw [List.map_cons, List.mapM_cons, hv, ih fun w hw => h w (List.mem_cons_of_mem _ hw)]
    rfl

theorem mapM_valueOf (h : s.mapM valueOf = some ds) : plainText ds = s ∧ ∀ v ∈ ds, v < 64 := by
  unfold plainText
  induction s generalizing ds with
  | nil =>
    obtain rfl := Option.some.inj h
    exact ⟨rfl, by simp⟩
  | cons ch s ih =>
    rw [List.mapM_cons] at h
    obtain ⟨v, hv, hrest⟩ := Option.bind_eq_some_iff.1 h
    obtain ⟨es, hes, hds⟩ := Option.bind_eq_some_iff.1 hrest
    obtain rfl := Option.some.inj hds
    obtain ⟨htext, hlt⟩ := ih hes
    refine ⟨by rw [List.map_cons, (text_digitOf (valueOf_eq_some.1 hv)).1, htext], ?_⟩
    intro w hw
    rcases List.mem_cons.1 hw with rfl | hw
    · exact valueOf_lt hv
    · exact hlt w hw

theorem toNat_lt (b : List UInt8) : ∀ a ∈ b.map UInt8.toNat, a < 256 := by
  intro a ha
  obtain ⟨c, -, rfl⟩ := List.mem_map.1 ha
  exact UInt8.toNat_lt c

theorem unpaddedForm_eq (b : List UInt8) :
    unpaddedForm b = some (plainText (plainDigits (b.map UInt8.toNat))) := by
  obtain ⟨k, hk⟩ := digits_plain (b.map UInt8.toNat)
  have htext : (digits (b.map UInt8.toNat)).map text
      = plainText (plainDigits (b.map UInt8.toNat)) ++ List.replicate k kPad := by
    rw [hk, List.map_append, List.map_map, List.map_replicate]
    rfl
  unfold unpaddedForm
  rw [encode_eq, Option.map_some, htext, rdropWhile_pads]
  intro ch hch
  obtain ⟨v, hv, rfl⟩ := List.mem_map.1 hch
  exact text_ne_kPad (plainDigits_lt (toNat_lt b) v hv)

/-- What is written without the padding is read. -/
theorem decodesTo_of_form {b : List UInt8} (h : unpaddedForm b = some s) : DecodesTo s b := by
  rw [unpaddedForm_eq] at h
  obtain rfl := Option.some.inj h
  refine (decodesTo_iff _ b).2 ⟨b.map UInt8.toNat, ?_, ?_⟩
  · unfold readPlain
    rw [mapM_plainText (plainDigits_lt (toNat_lt b))]
    exact plainBytes_digits (toNat_lt b)
  · rw [List.map_map]
    exact (List.map_congr_left fun c _ => UInt8.ofNat_toNat).trans (List.map_id b)

/-- What is read is written so, or an `A` stands alone at its end. -/
theorem form_of_decodesTo {b : List UInt8} (h : DecodesTo s b) :
    StrayA s ∨ (s.length % 4 ≠ 1 ∧ unpaddedForm b = some s) := by
  obtain ⟨bs, hread, rfl⟩ := (decodesTo_iff s b).1 h
  obtain ⟨ds, hds, hbytes⟩ := Option.bind_eq_some_iff.1 hread
  obtain ⟨rfl, hlt⟩ := mapM_valueOf hds
  have hlen : (plainText ds).length = ds.length := List.length_map _
  rcases digits_plainBytes hlt hbytes with ⟨hone, hlast⟩ | ⟨hnot, hdigits, hbs⟩
  · refine .inl ⟨by rw [hlen]; exact hone, ?_, ?_⟩
    · unfold plainText
      rw [List.getLast?_map, hlast]
      rfl
    · intro ch hch
      obtain ⟨v, hv, rfl⟩ := List.mem_map.1 hch
      rw [← valueOf_isSome, valueOf_eq_some.2 (digitOf_text fun w hw =>
        Option.some.inj hw ▸ hlt v hv)]
      rfl
  · refine .inr ⟨by rwa [hlen], ?_⟩
    have htoNat : (bs.map UInt8.ofNat).map UInt8.toNat = bs := by
      rw [List.map_map]
      exact (List.map_congr_left fun a ha => UInt8.toNat_ofNat_of_lt (hbs a ha)).trans
        (List.map_id bs)
    rw [unpaddedForm_eq, htoNat, hdigits]

/-- A stray `A` is accepted. -/
theorem StrayA.accepted (h : StrayA s) : ∃ b, DecodesTo s b := by
  obtain ⟨hlen, hlast, hchars⟩ := h
  obtain ⟨ds, hds⟩ : ∃ ds, s.mapM valueOf = some ds := by
    clear hlen hlast
    induction s with
    | nil => exact ⟨[], rfl⟩
    | cons ch s ih =>
      obtain ⟨ds, hds⟩ := ih fun c hc => hchars c (List.mem_cons_of_mem _ hc)
      obtain ⟨v, hv⟩ := Option.isSome_iff_exists.1
        ((valueOf_isSome ch).trans (hchars ch (by simp)))
      exact ⟨v :: ds, by rw [List.mapM_cons, hv, hds]; rfl⟩
  obtain ⟨rfl, hlt⟩ := mapM_valueOf hds
  unfold plainText at hlen hlast
  rw [List.length_map] at hlen
  rw [List.getLast?_map] at hlast
  obtain ⟨v, hv, htext⟩ := Option.map_eq_some_iff.1 hlast
  -- the digit of an `A` is zero
  have hzero : v = 0 := by
    have hdigit : digitOf (text (some v)) = some (some v) :=
      digitOf_text fun w hw => Option.some.inj hw ▸ hlt v (List.mem_of_getLast? hv)
    rw [htext, show digitOf 0x41 = some (some 0) from by decide] at hdigit
    exact (Option.some.inj (Option.some.inj hdigit)).symm
  obtain ⟨l, hl⟩ := plainBytes_stray hlen (hzero ▸ hv)
  exact ⟨_, (decodesTo_iff _ _).2 ⟨l, by unfold readPlain; rw [hds]; exact hl, rfl⟩⟩

/-- Without padding the strict decoder accepts just what the encoder writes less its pads, but
where an `A` stands behind whole quanta; and it reads no two such strings alike. -/
theorem unpadded_iff (s : Str) :
    (CanonicalOnly s ↔ ¬ StrayA s) ∧
      (¬ StrayA s → ∀ s' b, ¬ StrayA s' → DecodesTo s b → DecodesTo s' b → s = s') := by
  refine ⟨⟨fun h hstray => ?_, fun hstray => ⟨fun b => ⟨fun h => ?_, decodesTo_of_form⟩, ?_⟩⟩, ?_⟩
  · obtain ⟨b, hb⟩ := hstray.accepted
    exact h.length hstray.1 b hb
  · exact ((form_of_decodesTo h).resolve_left hstray).2
  · intro hone b h
    exact ((form_of_decodesTo h).resolve_left hstray).1 hone
  · intro hstray s' b hstray' h h'
    have hform := ((form_of_decodesTo h).resolve_left hstray).2
    have hform' := ((form_of_decodesTo h').resolve_left hstray').2
    exact Option.some.inj (hform.symm.trans hform')

/-- The string `A` is accepted, with no bytes. -/
theorem lone_A_accepted : ¬ ∀ s, CanonicalOnly s := by
  intro h
  have hdecoded : DecodesTo [0x41] [] := by
    refine ⟨⟨1, true, []⟩, ?_, rfl, rfl⟩
    rfl
  exact (h [0x41]).length rfl [] hdecoded

end Gxmpp.TalkBase.Base64
