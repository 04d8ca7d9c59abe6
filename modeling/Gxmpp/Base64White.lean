/-
The decoder that skips whitespace, on what the encoder writes with whitespace put anywhere into it.

Whitespace is skipped while a quantum is not full. So it is skipped wherever digits or pads are
still to come, and behind the pads of a last quantum; but behind the last of whole quanta it
starts a quantum of its own, which is not padded. The bytes are read in any case (`white_iff`).
-/
import Gxmpp.Base64Strict

set_option autoImplicit false

namespace Gxmpp.TalkBase.Base64

open Radix64

/-- Whitespace is skipped, padding is required. -/
def tolerant : Nat := DO_PARSE_WHITE ||| DO_PAD_YES ||| DO_TERM_BUFFER

/-- Tab, LF, VT, FF, CR and space. -/
def isWhite (ch : UInt8) : Bool := (0x09 ≤ ch && ch ≤ 0x0D) || ch = 0x20

/-- The characters that are no whitespace. -/
def bare (t : Str) : Str := t.filter fun ch => !isWhite ch

theorem decodeChar_white (ch : UInt8) : decodeChar ch = sp ↔ isWhite ch = true := by
  have hentry := entry_forall (fun ch v => decide (v = sp) == isWhite ch) (by decide +kernel) ch
  rw [← beq_iff_eq.1 hentry, decide_eq_true_iff]

/-! ## 1. A quantum -/

section Loop

variable {ch : UInt8} {rest t u : Str} {q : Quantum}

/-- Whitespace is skipped in a quantum that is not full. -/
theorem loop_white (h : isWhite ch = true) (hlen : q.byte_len < 4) :
    quantumLoop DO_PARSE_WHITE false (ch :: rest) q = quantumLoop DO_PARSE_WHITE false rest
      { q with qbuf := q.qbuf.set q.byte_len sp, dpos := q.dpos + 1 } := by
  rw [quantumLoop, if_pos hlen]
  simp [(decodeChar_white ch).2 h, sp, il, pd, DO_PARSE_WHITE, DO_PARSE_STRICT]

/-- The loop has come to some characters, with these digits and pads behind it. -/
structure Skipping (data : Str) (dpos : Nat) (ds : List Nat) (pads : Nat) (t : Str)
    (q : Quantum) : Prop where
  loop : quantumLoop DO_PARSE_WHITE false (data.drop dpos) ⟨dpos, 0, 0, 0, [0, 0, 0, 0]⟩
    = quantumLoop DO_PARSE_WHITE false t q
  here : data.drop q.dpos = t
  byte_len : q.byte_len = ds.length
  pad_len : q.pad_len = pads
  ge : dpos + ds.length ≤ q.dpos
  le : q.dpos ≤ data.length
  room : q.qbuf.length = 4
  taken : q.qbuf.take ds.length = ds

theorem Skipping.start {data : Str} {dpos : Nat} (h : dpos ≤ data.length) :
    Skipping data dpos [] 0 (data.drop dpos) ⟨dpos, 0, 0, 0, [0, 0, 0, 0]⟩ :=
  ⟨rfl, rfl, rfl, rfl, Nat.le_refl _, h, rfl, rfl⟩

section Steps

variable {data : Str} {dpos pads v : Nat} {ds : List Nat}

theorem Skipping.white (h : Skipping data dpos ds pads (ch :: t) q) (hch : isWhite ch = true)
    (hlen : ds.length < 4) : ∃ q', Skipping data dpos ds pads t q' := by
  obtain ⟨-, hlt, hrest⟩ := getD_drop h.here
  refine ⟨_, h.loop.trans (loop_white hch (by rw [h.byte_len]; exact hlen)), hrest,
    h.byte_len, h.pad_len, Nat.le_succ_of_le h.ge, hlt, by rw [List.length_set, h.room], ?_⟩
  rw [h.byte_len, List.take_set_of_le (Nat.le_refl _)]
  exact h.taken

theorem Skipping.digit (h : Skipping data dpos ds 0 (ch :: t) q)
    (hch : digitOf ch = some (some v)) (hlen : ds.length < 4) :
    ∃ q', Skipping data dpos (ds ++ [v]) 0 t q' ∧ data.getD (q'.dpos - 1) 0 = ch := by
  obtain ⟨hget, hlt, hrest⟩ := getD_drop h.here
  have hfew : q.byte_len < 4 := by rw [h.byte_len]; exact hlen
  refine ⟨_, ⟨h.loop.trans (loop_digit hch hfew h.pad_len), hrest, ?_, h.pad_len, ?_, hlt,
    by rw [List.length_set, h.room], ?_⟩, hget⟩
  · rw [List.length_append, h.byte_len]
    rfl
  · rw [List.length_append]
    exact Nat.succ_le_succ h.ge
  · rw [List.length_append, List.length_singleton, h.byte_len, List.take_add_one,
      List.take_set_of_le (Nat.le_refl _), h.taken,
      List.getElem?_set_self (by rw [h.room]; exact hlen)]
    rfl

theorem Skipping.pad (h : Skipping data dpos ds pads (ch :: t) q) (hch : digitOf ch = some none)
    (hlen : 2 ≤ ds.length) (hroom : ds.length + pads < 4) :
    ∃ q', Skipping data dpos ds (pads + 1) t q' := by
  obtain ⟨-, hlt, hrest⟩ := getD_drop h.here
  refine ⟨_, h.loop.trans (loop_pad hch (by rw [h.byte_len]; exact hlen)
    (by rw [h.byte_len, h.pad_len]; exact hroom)), hrest, h.byte_len,
    by rw [h.pad_len], Nat.le_succ_of_le h.ge, hlt, by rw [List.length_set, h.room], ?_⟩
  rw [h.byte_len, List.take_set_of_le (Nat.le_refl _)]
  exact h.taken

/-- The whitespace in front of the next character that is none. -/
theorem Skipping.toBare (h : Skipping data dpos ds pads t q) (hlen : ds.length < 4)
    (hu : bare t = ch :: u) :
    ∃ t' q', Skipping data dpos ds pads (ch :: t') q' ∧ bare t' = u := by
  induction t generalizing q with
  | nil => cases hu
  | cons c t ih =>
    cases hc : isWhite c with
    | true =>
      obtain ⟨q', h'⟩ := h.white hc hlen
      refine ih h' ?_
      simpa [bare, hc] using hu
    | false =>
      have hcons : c :: bare t = ch :: u := by simpa [bare, hc] using hu
      obtain ⟨rfl, hrest⟩ := List.cons.inj hcons
      exact ⟨t, q, h, hrest⟩

/-- Whitespace to the end. -/
theorem Skipping.toEnd (h : Skipping data dpos ds pads t q) (hlen : ds.length < 4)
    (hu : bare t = []) : ∃ q', Skipping data dpos ds pads [] q' := by
  induction t generalizing q with
  | nil => exact ⟨q, h⟩
  | cons c t ih =>
    have hc : isWhite c = true := by
      by_contra hnot
      simp [bare, hnot] at hu
    obtain ⟨q', h'⟩ := h.white hc hlen
    refine ih h' ?_
    simpa [bare, hc] using hu

/-- The next digit. -/
theorem Skipping.nextDigit (h : Skipping data dpos ds 0 t q) (hv : v < 64) (hlen : ds.length < 4)
    (hu : bare t = text (some v) :: u) :
    ∃ t' q', Skipping data dpos (ds ++ [v]) 0 t' q' ∧ bare t' = u ∧
      data.getD (q'.dpos - 1) 0 = text (some v) := by
  obtain ⟨t', q', h', hrest⟩ := h.toBare hlen hu
  obtain ⟨q'', h'', hget⟩ := h'.digit (digitOf_text fun w hw => Option.some.inj hw ▸ hv) hlen
  exact ⟨t', q'', h'', hrest, hget⟩

/-- The next pad. -/
theorem Skipping.nextPad (h : Skipping data dpos ds pads t q) (hlen : 2 ≤ ds.length)
    (hroom : ds.length + pads < 4) (hu : bare t = text none :: u) :
    ∃ t' q', Skipping data dpos ds (pads + 1) t' q' ∧ bare t' = u := by
  obtain ⟨t', q', h', hrest⟩ := h.toBare (by omega) hu
  obtain ⟨q'', h''⟩ := h'.pad (by decide) hlen hroom
  exact ⟨t', q'', h'', hrest⟩

/-- The quantum where the loop stops. -/
theorem Skipping.next (h : Skipping data dpos ds pads t q)
    (hstop : quantumLoop DO_PARSE_WHITE false t q = q) (hpads : pads = 0 ∨ ds.length + pads = 4) :
    getNextQuantum DO_PARSE_WHITE false data dpos
      = ⟨ds.length, q.dpos, ds ++ List.replicate (4 - ds.length) 0,
        decide (ds.length + pads = 4)⟩ := by
  unfold getNextQuantum
  rw [h.loop, hstop]
  dsimp only
  rw [h.byte_len, h.pad_len, h.taken]
  by_cases hfull : 4 = ds.length + pads
  · rw [if_pos hfull, decide_eq_true hfull.symm]
  · have hzero := hpads.resolve_right fun h => hfull h.symm
    rw [if_neg hfull, if_neg (fun h => h hzero), decide_eq_false (Ne.symm hfull)]

theorem Skipping.next_end (h : Skipping data dpos ds pads [] q)
    (hpads : pads = 0 ∨ ds.length + pads = 4) :
    getNextQuantum DO_PARSE_WHITE false data dpos
      = ⟨ds.length, data.length, ds ++ List.replicate (4 - ds.length) 0,
        decide (ds.length + pads = 4)⟩ := by
  have hend : q.dpos = data.length := Nat.le_antisymm h.le (List.drop_eq_nil_iff.1 h.here)
  rw [h.next rfl hpads, hend]

end Steps

end Loop

section Quantum

variable {data t u : Str} {dpos p q r s : Nat}

/-- Whitespace to the end is a quantum that is not padded. -/
theorem quantum_white (ht : data.drop dpos = t) (hdpos : dpos ≤ data.length) (hbare : bare t = []) :
    getNextQuantum DO_PARSE_WHITE false data dpos
      = ⟨0, data.length, [0, 0, 0, 0], false⟩ := by
  obtain ⟨q, h⟩ := (Skipping.start hdpos).toEnd (by simp) (by rw [ht, hbare])
  exact h.next_end (.inl rfl)

theorem quantum_twoPads (ht : data.drop dpos = t) (hdpos : dpos ≤ data.length) (hp : p < 64)
    (hq : q < 64) (hbare : bare t = [some p, some q, none, none].map text) :
    getNextQuantum DO_PARSE_WHITE false data dpos = ⟨2, data.length, [p, q, 0, 0], true⟩ := by
  rw [← ht] at hbare
  obtain ⟨t1, q1, h1, ht1, -⟩ := (Skipping.start hdpos).nextDigit hp (by simp) hbare
  obtain ⟨t2, q2, h2, ht2, -⟩ := h1.nextDigit hq (by simp) ht1
  obtain ⟨t3, q3, h3, ht3⟩ := h2.nextPad (by simp) (by simp) ht2
  obtain ⟨t4, q4, h4, ht4⟩ := h3.nextPad (by simp) (by simp) ht3
  obtain ⟨q5, h5⟩ := h4.toEnd (by simp) ht4
  exact h5.next_end (.inr rfl)

theorem quantum_onePad (ht : data.drop dpos = t) (hdpos : dpos ≤ data.length) (hp : p < 64)
    (hq : q < 64) (hr : r < 64) (hbare : bare t = [some p, some q, some r, none].map text) :
    getNextQuantum DO_PARSE_WHITE false data dpos = ⟨3, data.length, [p, q, r, 0], true⟩ := by
  rw [← ht] at hbare
  obtain ⟨t1, q1, h1, ht1, -⟩ := (Skipping.start hdpos).nextDigit hp (by simp) hbare
  obtain ⟨t2, q2, h2, ht2, -⟩ := h1.nextDigit hq (by simp) ht1
  obtain ⟨t3, q3, h3, ht3, -⟩ := h2.nextDigit hr (by simp) ht2
  obtain ⟨t4, q4, h4, ht4⟩ := h3.nextPad (by simp) (by simp) ht3
  obtain ⟨q5, h5⟩ := h4.toEnd (by simp) ht4
  exact h5.next_end (.inr rfl)

/-- A full quantum ends with its last digit. -/
theorem quantum_full (ht : data.drop dpos = t) (hdpos : dpos ≤ data.length) (hp : p < 64)
    (hq : q < 64) (hr : r < 64) (hs : s < 64)
    (hbare : bare t = text (some p) :: text (some q) :: text (some r) :: text (some s) :: u) :
    ∃ n, getNextQuantum DO_PARSE_WHITE false data dpos = ⟨4, n, [p, q, r, s], true⟩ ∧
      dpos + 4 ≤ n ∧ n ≤ data.length ∧ bare (data.drop n) = u ∧
      data.getD (n - 1) 0 = text (some s) := by
  rw [← ht] at hbare
  obtain ⟨t1, q1, h1, ht1, -⟩ := (Skipping.start hdpos).nextDigit hp (by simp) hbare
  obtain ⟨t2, q2, h2, ht2, -⟩ := h1.nextDigit hq (by simp) ht1
  obtain ⟨t3, q3, h3, ht3, -⟩ := h2.nextDigit hr (by simp) ht2
  obtain ⟨t4, q4, h4, ht4, hlast⟩ := h3.nextDigit hs (by simp) ht3
  exact ⟨q4.dpos, h4.next (loop_full h4.byte_len t4) (.inl rfl), h4.ge, h4.le,
    by rw [h4.here, ht4], hlast⟩

end Quantum

/-! ## 2. The decoder -/

/-- The last character is no whitespace. -/
def EndsBare (data : Str) : Prop := ∀ ch ∈ data.getLast?, isWhite ch = false

theorem endsBare_iff (data : Str) :
    (data.getLast?.all fun ch => !isWhite ch) = true ↔ EndsBare data := by
  unfold EndsBare
  cases data.getLast? <;> simp

instance (data : Str) : Decidable (EndsBare data) := decidable_of_iff _ (endsBare_iff data)

section Decoder

variable {data t : Str} {dpos : Nat}

theorem not_endsBare (ht : data.drop dpos = t) (hne : t ≠ []) (hbare : bare t = []) :
    ¬ EndsBare data := by
  intro hends
  have hlen : ¬ data.length ≤ dpos := fun h => hne (ht ▸ List.drop_eq_nil_of_le h)
  have hlast : t.getLast? = data.getLast? := by rw [← ht, List.getLast?_drop, if_neg hlen]
  have hmem := List.getLast_mem hne
  have hwhite : isWhite (t.getLast hne) = true := by
    have hall := List.filter_eq_nil_iff.1 hbare _ hmem
    simpa using hall
  rw [List.getLast?_eq_some_getLast hne] at hlast
  rw [hends _ hlast.symm] at hwhite
  cases hwhite

theorem endsBare_of_text {v : Nat} (hv : v < 64) (hdpos : dpos ≤ data.length)
    (hlast : data.getD (dpos - 1) 0 = text (some v)) (hend : data.drop dpos = []) :
    EndsBare data := by
  have hdpos' : dpos = data.length := Nat.le_antisymm hdpos (List.drop_eq_nil_iff.1 hend)
  intro ch hch
  rw [List.getLast?_eq_getElem?] at hch
  rw [hdpos', List.getD_eq_getElem?_getD, hch, Option.getD_some] at hlast
  have hnot : ¬ isWhite ch = true := by
    intro hwhite
    have hdigit : digitOf ch = some (some v) := by
      rw [hlast]
      exact digitOf_text fun w hw => Option.some.inj hw ▸ hv
    obtain ⟨hvalue, -, hsp, -⟩ := decodeChar_digit hdigit
    exact hsp (hvalue.symm.trans ((decodeChar_white ch).2 hwhite))
  simpa using hnot

theorem round_tolerant {nq : NextQuantum} (ht : data.drop dpos = t) (hne : t ≠ [])
    (hnq : getNextQuantum DO_PARSE_WHITE false data dpos = nq) (result : Str) :
    decodeRound tolerant data ⟨dpos, true, result⟩ =
      if nq.qlen < 4 then
        .inr ⟨nq.dpos, true && decide ((pushBytes nq.qbuf nq.qlen result).2 = 0) && nq.padded,
          (pushBytes nq.qbuf nq.qlen result).1⟩
      else .inl ⟨nq.dpos, true, (pushBytes nq.qbuf nq.qlen result).1⟩ := by
  have hlt : dpos < data.length := by
    by_contra h
    exact hne (ht ▸ List.drop_eq_nil_of_le (Nat.le_of_not_lt h))
  exact round_padded (d := ⟨dpos, true, result⟩) (by decide) (by decide) (by decide) hlt hnq

theorem ne_nil_of_bare {d : Option Nat} {ds : List (Option Nat)}
    (h : bare t = (d :: ds).map text) : t ≠ [] := by
  rintro rfl
  cases h

/-- The bytes are read; that is a success but where whitespace follows whole quanta. -/
theorem decode_loop_white (bs : List Nat) (hbs : ∀ a ∈ bs, a < 256) {n : Nat}
    (ht : data.drop dpos = t) (hdpos : dpos ≤ data.length) (hn : t.length ≤ n)
    (hbare : bare t = (digits bs).map text) (hend : t = [] → EndsBare data) (result : Str) :
    ∃ d, Walking.rounds (decodeRound tolerant data) (n + 1) ⟨dpos, true, result⟩ = some d ∧
      d.dpos = data.length ∧ d.result = result ++ bs.map UInt8.ofNat ∧
      (d.success = true ↔ (bs.length % 3 = 0 → EndsBare data)) := by
  induction bs using digits.induct generalizing dpos t n result with
  | case1 =>
    by_cases hnil : t = []
    · have hused : dpos = data.length :=
        Nat.le_antisymm hdpos (List.drop_eq_nil_iff.1 (ht.trans hnil))
      have hstop : decodeRound tolerant data ⟨dpos, true, result⟩ = .inr ⟨dpos, true, result⟩ :=
        if_neg (by rw [hused]; exact Nat.lt_irrefl _)
      exact ⟨⟨dpos, true, result⟩, by rw [Walking.rounds, hstop], hused, by simp,
        by simp [hend hnil]⟩
    · rw [Walking.rounds, round_tolerant ht hnil (quantum_white ht hdpos hbare)]
      refine ⟨_, rfl, rfl, by simp [pushBytes], ?_⟩
      simpa using not_endsBare ht hnil hbare
  | case2 a =>
    have ha := hbs a (by simp)
    rw [Walking.rounds, round_tolerant ht (ne_nil_of_bare hbare) (quantum_twoPads ht hdpos
      (show a / 4 < 64 by omega) (show a % 4 * 16 < 64 by omega) hbare)]
    dsimp only
    rw [if_pos (by decide), push_one (by omega), show a % 4 * 16 % 16 * 16 = 0 by omega,
      show a / 4 * 4 + a % 4 * 16 / 16 = a by omega]
    exact ⟨_, rfl, rfl, rfl, by simp⟩
  | case3 a b =>
    have ha := hbs a (by simp)
    have hb := hbs b (by simp)
    rw [Walking.rounds, round_tolerant ht (ne_nil_of_bare hbare) (quantum_onePad ht hdpos
      (show a / 4 < 64 by omega) (show a % 4 * 16 + b / 16 < 64 by omega)
      (show b % 16 * 4 < 64 by omega) hbare)]
    dsimp only
    rw [if_pos (by decide), push_two (by omega) (by omega), show b % 16 * 4 % 4 * 64 = 0 by omega,
      show a / 4 * 4 + (a % 4 * 16 + b / 16) / 16 = a by omega,
      show (a % 4 * 16 + b / 16) % 16 * 16 + b % 16 * 4 / 4 = b by omega]
    exact ⟨_, rfl, rfl, rfl, by simp⟩
  | case4 a b c bs ih =>
    have ha := hbs a (by simp)
    have hb := hbs b (by simp)
    have hc := hbs c (by simp)
    have hs : c % 64 < 64 := Nat.mod_lt _ (by decide)
    obtain ⟨m, hquantum, hge, hm, hrest, hlast⟩ := quantum_full ht hdpos
      (show a / 4 < 64 by omega) (show a % 4 * 16 + b / 16 < 64 by omega)
      (show b % 16 * 4 + c / 64 < 64 by omega)
      hs hbare
    have hlen : t.length = data.length - dpos := by rw [← ht, List.length_drop]
    have hlen' : (data.drop m).length = data.length - m := List.length_drop
    obtain ⟨k, rfl⟩ : ∃ k, n = k + 1 := ⟨n - 1, by omega⟩
    obtain ⟨d, hd, hused, hresult, hsuccess⟩ := ih (fun e he => hbs e (by simp [he])) rfl hm
      (n := k) (by omega) hrest (endsBare_of_text hs hm hlast)
      (result ++ [UInt8.ofNat a, UInt8.ofNat b, UInt8.ofNat c])
    refine ⟨d, ?_, hused, ?_, ?_⟩
    · rw [Walking.rounds, round_tolerant ht (ne_nil_of_bare hbare) hquantum]
      dsimp only
      rw [if_neg (by decide), push_full (by omega) (by omega) hs,
        show a / 4 * 4 + (a % 4 * 16 + b / 16) / 16 = a by omega,
        show (a % 4 * 16 + b / 16) % 16 * 16 + (b % 16 * 4 + c / 64) / 4 = b by omega,
        show (b % 16 * 4 + c / 64) % 4 * 64 + c % 64 = c by omega]
      exact hd
    · rw [hresult]
      simp
    · rw [hsuccess]
      simp only [List.length_cons]
      rw [show (bs.length + 1 + 1 + 1) % 3 = bs.length % 3 by omega]

end Decoder

/-- The string is what the encoder writes, with whitespace put into it. -/
def Spaced (b : List UInt8) (s : Str) : Prop := encodeFromArray b = some (bare s)

/-- The decoder succeeds with these bytes. -/
def TolerantlyDecodesTo (s : Str) (b : List UInt8) : Prop :=
  ∃ d, decodeFromArray s tolerant = some d ∧ d.success = true ∧ d.result = b

/-- With whitespace put anywhere the decoder succeeds with the bytes, if and only if there are
pads at the end or no whitespace is. -/
theorem white_iff (b : List UInt8) (s : Str) (h : Spaced b s) :
    TolerantlyDecodesTo s b ↔ (b.length % 3 = 0 → EndsBare s) := by
  have hbare : bare s = (digits (b.map UInt8.toNat)).map text :=
    (Option.some.inj ((encode_eq b).symm.trans h)).symm
  have hlt : ∀ a ∈ b.map UInt8.toNat, a < 256 := by
    intro a ha
    obtain ⟨c, -, rfl⟩ := List.mem_map.1 ha
    exact UInt8.toNat_lt c
  have hnil : s = [] → EndsBare s := by
    rintro rfl ch hch
    cases hch
  obtain ⟨d, hd, hused, hresult, hsuccess⟩ := decode_loop_white (b.map UInt8.toNat) hlt
    (List.drop_zero) (Nat.zero_le _) (Nat.le_refl _) hbare hnil []
  have hbytes : d.result = b := by
    rw [hresult, List.nil_append, List.map_map]
    exact (List.map_congr_left fun c _ => UInt8.ofNat_toNat).trans (List.map_id b)
  rw [List.length_map] at hsuccess
  unfold TolerantlyDecodesTo decodeFromArray
  rw [hd, Option.map_some, ← hsuccess]
  constructor
  · rintro ⟨d', hd', hsuccess', -⟩
    obtain rfl := Option.some.inj hd'
    exact (Bool.and_eq_true_iff.1 hsuccess').1
  · intro hsuccess'
    refine ⟨_, rfl, ?_, hbytes⟩
    simp [hsuccess', hused]

/-- `"Q Q = =\n"` is read. -/
theorem white_between : TolerantlyDecodesTo (str "Q Q = =\n") [0x41] :=
  (white_iff [0x41] (str "Q Q = =\n") (by unfold Spaced; decide)).2 (by decide)

/-- A line feed behind whole quanta: `"QUFB\n"` is not read. -/
theorem white_behind : ¬ ∀ b s, Spaced b s → TolerantlyDecodesTo s b := by
  intro h
  obtain ⟨d, hd, hsuccess, -⟩ := h [0x41, 0x41, 0x41] (str "QUFB\n") (by unfold Spaced; decide)
  have hfails : (decodeFromArray (str "QUFB\n") tolerant).map Decoding.success = some false := by
    decide
  rw [hd, Option.map_some, hsuccess] at hfails
  cases hfails

end Gxmpp.TalkBase.Base64
