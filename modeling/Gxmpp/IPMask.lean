/-
Addresses as rows of bits: what `TruncateIP` keeps, and what `CountIPMaskBits` counts.

The first bit of an address is the highest one of its first byte. All the masks and words of the
source are seen through `bit`, which tells an address of its family (`ext_bit`).
-/
import Gxmpp.IPAddress

set_option autoImplicit false

namespace Gxmpp.TalkBase

/-! ## 1. The bits of an address -/

section Bits

variable (host : Host)

/-- Word number `i`, in the order of the host. -/
def In6Addr.word (addr : In6Addr) (i : ℕ) : BitVec 32 :=
  if h : i < 4 then NetworkToHost32 host (addr.v6_as_ints ⟨i, h⟩) else 0

namespace IPAddress

/-- How many bits there are. -/
def width : IPAddress → ℕ
  | .unspec => 0
  | .inet _ => 32
  | .inet6 _ => 128

/-- Bit number `j`, and zeroes behind the last one. -/
def bit : IPAddress → ℕ → Bool
  | .unspec, _ => false
  | .inet ip4, j => (NetworkToHost32 host ip4.s_addr).getMsbD j
  | .inet6 ip6, j => (ip6.word host (j / 32)).getMsbD (j % 32)

end IPAddress

variable {host}

theorem getMsbD_of_le {w j : ℕ} (x : BitVec w) (h : w ≤ j) : x.getMsbD j = false := by
  rw [BitVec.getMsbD_eq_getLsbD, decide_eq_false (Nat.not_lt_of_le h), Bool.false_and]

theorem In6Addr.word_of_lt (addr : In6Addr) {i : ℕ} (h : i < 4) :
    addr.word host i = NetworkToHost32 host (addr.v6_as_ints ⟨i, h⟩) := dif_pos h

theorem In6Addr.word_of_le (addr : In6Addr) {i : ℕ} (h : 4 ≤ i) : addr.word host i = 0 :=
  dif_neg (Nat.not_lt_of_le h)

namespace IPAddress

theorem bit_of_le (ip : IPAddress) {j : ℕ} (h : ip.width ≤ j) : ip.bit host j = false := by
  cases ip with
  | unspec => rfl
  | inet ip4 => exact getMsbD_of_le _ h
  | inet6 ip6 =>
    have hword : 4 ≤ j / 32 := (Nat.le_div_iff_mul_le (by decide)).2 h
    rw [bit, ip6.word_of_le hword]
    exact BitVec.getMsbD_zero

/-- Addresses of one family with the same bits are the same. -/
theorem ext_bit (host : Host) {a b : IPAddress} (hfamily : a.family = b.family)
    (h : ∀ j, a.bit host j = b.bit host j) : a = b := by
  cases a with
  | unspec =>
    cases b with
    | unspec => rfl
    | inet | inet6 => cases hfamily
  | inet a =>
    cases b with
    | unspec | inet6 => cases hfamily
    | inet b =>
      have hword : NetworkToHost32 host a.s_addr = NetworkToHost32 host b.s_addr :=
        BitVec.eq_of_getMsbD_eq fun j _ => h j
      obtain ⟨a⟩ := a
      obtain rfl : a = b.s_addr := networkToHost32_inj host hword
      rfl
  | inet6 a =>
    cases b with
    | unspec | inet => cases hfamily
    | inet6 b =>
      have hword : ∀ i : Fin 4, a.v6_as_ints i = b.v6_as_ints i := by
        intro i
        apply networkToHost32_inj host
        apply BitVec.eq_of_getMsbD_eq
        intro j hj
        have hbit := h (32 * i.val + j)
        have hdiv : (32 * i.val + j) / 32 = i.val := by omega
        have hmod : (32 * i.val + j) % 32 = j := by omega
        rw [bit, bit, hdiv, hmod, a.word_of_lt i.isLt, b.word_of_lt i.isLt] at hbit
        exact hbit
      obtain ⟨a⟩ := a
      obtain rfl : a = b.v6_as_ints := funext hword
      rfl

end IPAddress

end Bits

/-! ## 2. `TruncateIP` -/

section Truncate

variable {host : Host}

theorem getMsbD_mask (length j : ℕ) (h : length ≤ 32) :
    (0xFFFFFFFF#32 <<< (32 - length)).getMsbD j = decide (j < length) := by
  have hones : 0xFFFFFFFF#32 = BitVec.allOnes 32 := by decide
  rw [hones, BitVec.getMsbD_shiftLeft, BitVec.getMsbD_allOnes]
  apply decide_eq_decide.2
  omega

/-- The mask of a word, made with 64 bits. -/
theorem inner_mask_eq (l : Fin 33) :
    (0xFFFFFFFF#64 <<< l.val).setWidth 32 = 0xFFFFFFFF#32 <<< l.val := by
  revert l
  decide

theorem family_truncate (ip : IPAddress) (n : ℕ) : (TruncateIP host ip n).family = ip.family := by
  cases ip with
  | unspec => simp [TruncateIP]
  | inet | inet6 =>
    simp only [TruncateIP]
    split
    · omega
    · split
      · rfl
      · split <;> rfl

/-- The words of a truncated address: those before the last one are kept, and of that one the first
bits. -/
theorem word_truncate (ip6 : In6Addr) {n : ℕ} (hpos : 0 < n) (hle : n ≤ 127) :
    ∃ t : In6Addr, TruncateIP host (.inet6 ip6) n = .inet6 t
      ∧ ∀ i, t.word host i = if i = n / 32
        then ip6.word host i &&& 0xFFFFFFFF#32 <<< (32 - n % 32)
        else if n / 32 < i then 0 else ip6.word host i := by
  have hneg : ¬(n : ℤ) < 0 := by omega
  have hall : ¬(n : ℤ) > 127 := by omega
  have hzero : ¬(n : ℤ) = 0 := by omega
  have hinner : (32 - ((n : ℤ) - (n : ℤ) / 32 * 32)).toNat = 32 - n % 32 := by omega
  have hmask := inner_mask_eq ⟨32 - n % 32, by omega⟩
  refine ⟨_, by simp only [TruncateIP, if_neg hneg, if_neg hall, if_neg hzero]; rfl, ?_⟩
  intro i
  by_cases hi : i < 4
  · rw [In6Addr.word_of_lt _ hi, ip6.word_of_lt hi]
    by_cases heq : i = n / 32
    · have heq' : (i : ℤ) = (n : ℤ) / 32 := by omega
      rw [if_pos heq]
      simp only [if_pos heq']
      rw [networkToHost32_hostToNetwork32, hinner]
      exact congrArg _ hmask
    · have heq' : ¬(i : ℤ) = (n : ℤ) / 32 := by omega
      rw [if_neg heq]
      simp only [if_neg heq']
      by_cases hgt : n / 32 < i
      · have hgt' : (i : ℤ) > (n : ℤ) / 32 := by omega
        simp only [if_pos hgt']
        rw [if_pos hgt]
        exact networkToHost32_zero host
      · have hgt' : ¬(i : ℤ) > (n : ℤ) / 32 := by omega
        simp only [if_neg hgt']
        rw [if_neg hgt]
  · have hi' : 4 ≤ i := Nat.le_of_not_lt hi
    have hbeyond : n / 32 < i := by omega
    rw [In6Addr.word_of_le _ hi', if_neg (by omega), if_pos hbeyond]

/-- `TruncateIP` keeps the first bits. -/
theorem bit_truncate (ip : IPAddress) (n j : ℕ) :
    (TruncateIP host ip n).bit host j = (decide (j < n) && ip.bit host j) := by
  have hneg : ¬(n : ℤ) < 0 := by omega
  cases ip with
  | unspec =>
    unfold TruncateIP
    rw [if_neg hneg]
    exact (Bool.and_false _).symm
  | inet ip4 =>
    simp only [TruncateIP, if_neg hneg]
    by_cases hall : (n : ℤ) > 31
    · rw [if_pos hall]
      by_cases hj : j < n
      · rw [decide_eq_true hj, Bool.true_and]
      · rw [decide_eq_false hj, Bool.false_and]
        exact IPAddress.bit_of_le _ (by change 32 ≤ j; omega)
    · rw [if_neg hall]
      by_cases hzero : (n : ℤ) = 0
      · obtain rfl : n = 0 := by omega
        rw [if_pos hzero]
        change (NetworkToHost32 host (HostToNetwork32 host INADDR_ANY)).getMsbD j = _
        rw [networkToHost32_hostToNetwork32]
        exact BitVec.getMsbD_zero
      · rw [if_neg hzero]
        change (NetworkToHost32 host (HostToNetwork32 host
          (NetworkToHost32 host ip4.s_addr &&& 0xFFFFFFFF#32 <<< (32 - (n : ℤ)).toNat))).getMsbD j
          = _
        have hshift : (32 - (n : ℤ)).toNat = 32 - n := by omega
        rw [networkToHost32_hostToNetwork32, BitVec.getMsbD_and, hshift,
          getMsbD_mask n j (by omega), Bool.and_comm]
        rfl
  | inet6 ip6 =>
    by_cases hall : 127 < n
    · have hsame : TruncateIP host (.inet6 ip6) n = .inet6 ip6 := by
        simp only [TruncateIP, if_neg hneg]
        exact if_pos (by omega)
      rw [hsame]
      by_cases hj : j < n
      · rw [decide_eq_true hj, Bool.true_and]
      · rw [decide_eq_false hj, Bool.false_and]
        exact IPAddress.bit_of_le _ (by change 128 ≤ j; omega)
    · by_cases hzero : n = 0
      · obtain rfl := hzero
        have hword : ∀ i, in6addr_any.word host i = 0 := by
          intro i
          by_cases hi : i < 4
          · rw [In6Addr.word_of_lt _ hi]
            exact networkToHost32_zero host
          · exact In6Addr.word_of_le _ (Nat.le_of_not_lt hi)
        change (in6addr_any.word host (j / 32)).getMsbD (j % 32) = false
        rw [hword]
        exact BitVec.getMsbD_zero
      · obtain ⟨t, ht, hword⟩ := word_truncate ip6 (Nat.pos_of_ne_zero hzero) (by omega)
        rw [ht, IPAddress.bit, IPAddress.bit, hword]
        by_cases heq : j / 32 = n / 32
        · have hj : decide (j % 32 < n % 32) = decide (j < n) :=
            decide_eq_decide.2 (by omega)
          rw [if_pos heq, BitVec.getMsbD_and, getMsbD_mask _ _ (by omega), hj, Bool.and_comm]
        · rw [if_neg heq]
          by_cases hgt : n / 32 < j / 32
          · rw [if_pos hgt, decide_eq_false (by omega), Bool.false_and]
            exact BitVec.getMsbD_zero
          · rw [if_neg hgt, decide_eq_true (by omega), Bool.true_and]

end Truncate

/-! ## 3. The lowest bit of a word -/

section Words

/-- `x & -x` is the lowest bit of `x`. -/
theorem and_neg_eq_twoPow {w : ℕ} {x : BitVec w} (h : x ≠ 0) :
    x &&& -x = BitVec.twoPow w x.ctz.toNat := by
  have hlast : x.getLsbD x.ctz.toNat = true := BitVec.getLsbD_true_ctz_of_ne_zero h
  have hwidth : x.ctz.toNat < w := BitVec.lt_of_getLsbD hlast
  apply BitVec.eq_of_getLsbD_eq
  intro i hi
  -- the bits of `-x` are those of `x` up to its lowest one, and the others behind it
  rw [BitVec.getLsbD_and, BitVec.getLsbD_neg, BitVec.getLsbD_twoPow, decide_eq_true hi,
    decide_eq_true hwidth, Bool.true_and, Bool.true_and]
  rcases Nat.lt_trichotomy i x.ctz.toNat with hlow | heq | hhigh
  · rw [BitVec.getLsbD_false_of_lt_ctz hlow, decide_eq_false (Nat.ne_of_gt hlow), Bool.false_and]
  · have hnone : ¬∃ j < i, x.getLsbD j = true := by
      rintro ⟨j, hj, hbit⟩
      rw [BitVec.getLsbD_false_of_lt_ctz (heq ▸ hj)] at hbit
      cases hbit
    rw [decide_eq_false hnone, heq, hlast, decide_eq_true rfl]
    rfl
  · have hsome : ∃ j < i, x.getLsbD j = true := ⟨_, hhigh, hlast⟩
    rw [decide_eq_true hsome, decide_eq_false (Nat.ne_of_lt hhigh)]
    cases x.getLsbD i <;> rfl

theorem countWord_add (bits : ℕ) (x : BitVec 32) : countWord bits x = bits + countWord 0 x := by
  unfold countWord
  by_cases hzero : x = 0
  · rw [if_pos hzero, if_pos hzero, Nat.add_zero]
  · rw [if_neg hzero, if_neg hzero, Nat.zero_add]

theorem twoPow_and_neg (k : Fin 32) :
    BitVec.twoPow 32 k.val &&& -BitVec.twoPow 32 k.val = BitVec.twoPow 32 k.val := by
  revert k
  decide

/-- Only the lowest bit is looked at. -/
theorem countWord_lowest {x : BitVec 32} (h : x ≠ 0) :
    countWord 0 x = countWord 0 (BitVec.twoPow 32 x.ctz.toNat) := by
  have hlast : x.getLsbD x.ctz.toNat = true := BitVec.getLsbD_true_ctz_of_ne_zero h
  have hlt : x.ctz.toNat < 32 := BitVec.lt_of_getLsbD hlast
  have hnonzero : BitVec.twoPow 32 x.ctz.toNat ≠ 0 := by
    intro hzero
    have hbit := congrArg (fun y => y.getLsbD x.ctz.toNat) hzero
    simp [hlt] at hbit
  have htwice : BitVec.twoPow 32 x.ctz.toNat &&& -BitVec.twoPow 32 x.ctz.toNat
      = BitVec.twoPow 32 x.ctz.toNat := twoPow_and_neg ⟨_, hlt⟩
  unfold countWord
  rw [if_neg h, if_neg hnonzero, and_neg_eq_twoPow h, htwice]

theorem countWord_twoPow (k : Fin 32) : countWord 0 (BitVec.twoPow 32 k.val) = 32 - k.val := by
  revert k
  decide

/-- The count of a word ends behind its last one. -/
theorem countWord_spec (bits : ℕ) (x : BitVec 32) :
    ∃ m ≤ 32, countWord bits x = bits + m ∧ (∀ j, m ≤ j → x.getMsbD j = false)
      ∧ (0 < m → x.getMsbD (m - 1) = true) := by
  by_cases hzero : x = 0
  · subst hzero
    exact ⟨0, Nat.zero_le _, rfl, fun j _ => BitVec.getMsbD_zero,
      fun h => absurd h (Nat.lt_irrefl 0)⟩
  · have hlast : x.getLsbD x.ctz.toNat = true := BitVec.getLsbD_true_ctz_of_ne_zero hzero
    have hlt : x.ctz.toNat < 32 := BitVec.lt_of_getLsbD hlast
    refine ⟨32 - x.ctz.toNat, Nat.sub_le _ _, ?_, ?_, ?_⟩
    · rw [countWord_add, countWord_lowest hzero, countWord_twoPow ⟨_, hlt⟩]
    · intro j hj
      rw [BitVec.getMsbD_eq_getLsbD]
      by_cases hwidth : j < 32
      · have hlow : 32 - 1 - j < x.ctz.toNat := by omega
        rw [BitVec.getLsbD_false_of_lt_ctz hlow, Bool.and_false]
      · rw [decide_eq_false hwidth, Bool.false_and]
    · intro _
      have hplace : 32 - 1 - (32 - x.ctz.toNat - 1) = x.ctz.toNat := by omega
      rw [BitVec.getMsbD_eq_getLsbD, hplace, hlast, decide_eq_true (by omega)]
      rfl

end Words

/-! ## 4. `CountIPMaskBits` -/

section Count

variable {host : Host}

/-- What the code counts, word by word: whole words of ones, and then up to the last one of the
word behind them, in which there is a zero if it is not the last word. -/
structure Counted (host : Host) (ip : IPAddress) (i m : ℕ) : Prop where
  count : CountIPMaskBits host ip = 32 * i + m
  le : m ≤ 32
  ones : ∀ j, j < 32 * i → ip.bit host j = true
  rest : ∀ j, 32 * i + m ≤ j → j < 32 * (i + 1) → ip.bit host j = false
  last : 0 < m → ip.bit host (32 * i + m - 1) = true
  zero : ip.width ≤ 32 * (i + 1) ∨ ∃ j, 32 * i ≤ j ∧ j < 32 * (i + 1) ∧ ip.bit host j = false

theorem counted_inet (ip4 : InAddr) : ∃ m, Counted host (.inet ip4) 0 m := by
  obtain ⟨m, hm, hcount, hrest, hlast⟩ := countWord_spec 0 (NetworkToHost32 host ip4.s_addr)
  refine ⟨m, hcount, hm, fun j hj => absurd hj (by omega), ?_, ?_, .inl (Nat.le_refl 32)⟩
  · intro j hj _
    exact hrest j (by omega)
  · intro hpos
    have hplace : 32 * 0 + m - 1 = m - 1 := by omega
    rw [hplace]
    exact hlast hpos

/-- The loop over the words stops at the first that is not all ones. -/
theorem stops_spec {α : Type} (p : α → Bool) (l : List α) :
    (∀ k (h : k < l.length), k < (l.takeWhile p).length → p l[k] = true)
      ∧ ∀ h : (l.takeWhile p).length < l.length, p l[(l.takeWhile p).length] = false := by
  induction l with
  | nil => exact ⟨fun _ h => absurd h (Nat.not_lt_zero _), fun h => absurd h (Nat.not_lt_zero _)⟩
  | cons a l ih =>
    by_cases ha : p a = true
    · simp only [List.takeWhile_cons_of_pos ha, List.length_cons, List.getElem_cons_succ,
        Nat.succ_lt_succ_iff]
      refine ⟨?_, ih.2⟩
      intro k hk hlt
      cases k with
      | zero => exact ha
      | succ k => exact ih.1 k (Nat.lt_of_succ_lt_succ hk) (Nat.lt_of_succ_lt_succ hlt)
    · simp only [List.takeWhile_cons_of_neg ha, List.length_nil, List.getElem_cons_zero]
      exact ⟨fun k _ h => absurd h (Nat.not_lt_zero k), fun _ => Bool.eq_false_iff.2 ha⟩

theorem counted_inet6 (ip6 : In6Addr) : ∃ i m, Counted host (.inet6 ip6) i m := by
  obtain ⟨hbefore, hstop⟩ := stops_spec (fun i => decide (ip6.v6_as_ints i = 0xFFFFFFFF))
    (List.finRange 4)
  have hcount : CountIPMaskBits host (.inet6 ip6) = countWord
      (((List.finRange 4).takeWhile fun i => ip6.v6_as_ints i = 0xFFFFFFFF).length * 32)
      (ip6.word host
        ((List.finRange 4).takeWhile fun i => ip6.v6_as_ints i = 0xFFFFFFFF).length) := rfl
  have hle : ((List.finRange 4).takeWhile fun i => ip6.v6_as_ints i = 0xFFFFFFFF).length ≤ 4 :=
    (List.takeWhile_prefix _).length_le
  generalize ((List.finRange 4).takeWhile fun i => ip6.v6_as_ints i = 0xFFFFFFFF).length = i
    at hbefore hstop hcount hle
  obtain ⟨m, hm, hword, hrest, hlast⟩ := countWord_spec (i * 32) (ip6.word host i)
  have hbit : ∀ j, j < 32 → (IPAddress.inet6 ip6).bit host (32 * i + j)
      = (ip6.word host i).getMsbD j := by
    intro j hj
    have hdiv : (32 * i + j) / 32 = i := by omega
    have hmod : (32 * i + j) % 32 = j := by omega
    rw [IPAddress.bit, hdiv, hmod]
  refine ⟨i, m, ?_, hm, ?_, ?_, ?_, ?_⟩
  · rw [hcount, hword, Nat.mul_comm]
  · intro j hj
    have hlt : j / 32 < i := by omega
    have hones : ip6.v6_as_ints ⟨j / 32, by omega⟩ = 0xFFFFFFFF := by
      have hlength : j / 32 < (List.finRange 4).length := List.length_finRange.symm ▸ (by omega)
      have h := hbefore (j / 32) hlength hlt
      rw [List.getElem_finRange] at h
      exact of_decide_eq_true h
    rw [IPAddress.bit, ip6.word_of_lt (by omega), hones, networkToHost32_ones,
      BitVec.getMsbD_allOnes]
    exact decide_eq_true (by omega)
  · intro j hj hlt
    obtain ⟨k, rfl⟩ := Nat.exists_eq_add_of_le (show 32 * i ≤ j by omega)
    rw [hbit k (by omega)]
    exact hrest k (by omega)
  · intro hpos
    have hplace : 32 * i + m - 1 = 32 * i + (m - 1) := by omega
    rw [hplace, hbit _ (by omega)]
    exact hlast hpos
  · by_cases hlt : i < 4
    · -- a word that is not all ones has a zero
      right
      have hother : NetworkToHost32 host (ip6.v6_as_ints ⟨i, hlt⟩) ≠ BitVec.allOnes 32 := by
        intro hones
        rw [← networkToHost32_ones host] at hones
        have hlength : i < (List.finRange 4).length := List.length_finRange.symm ▸ hlt
        have h := hstop hlength
        rw [List.getElem_finRange] at h
        exact of_decide_eq_false h (networkToHost32_inj host hones)
      by_contra hnone
      apply hother
      apply BitVec.eq_of_getMsbD_eq
      intro j hj
      rw [BitVec.getMsbD_allOnes, decide_eq_true hj, ← ip6.word_of_lt hlt, ← hbit j hj]
      apply Bool.not_eq_false _ |>.mp
      intro hzero
      exact hnone ⟨32 * i + j, by omega, by omega, hzero⟩
    · left
      change 128 ≤ 32 * (i + 1)
      omega

theorem exists_counted (host : Host) (ip : IPAddress) (h : ip.family ≠ .AF_UNSPEC) :
    ∃ i m, Counted host ip i m := by
  cases ip with
  | unspec => exact absurd rfl h
  | inet ip4 => exact ⟨0, counted_inet ip4⟩
  | inet6 ip6 => exact counted_inet6 ip6

variable {ip : IPAddress} {i m : ℕ}

/-- The code has counted the first ones exactly if, in the word of the first zero, there is no one
behind it. -/
theorem Counted.leading_iff (h : Counted host ip i m) {n : ℕ}
    (hones : ∀ j, j < n → ip.bit host j = true) (hzero : ip.bit host n = false) :
    CountIPMaskBits host ip = n
      ↔ ∀ j, n < j → j / 32 = n / 32 → ip.bit host j = false := by
  have hle := h.le
  -- all whole words of ones are before the first zero
  have hwords : 32 * i ≤ n := by
    by_contra hlt
    rw [h.ones n (by omega)] at hzero
    cases hzero
  -- and the first zero is not behind what was counted
  have hcounted : n ≤ 32 * i + m := by
    by_contra hlt
    have hone : ip.bit host (32 * i + m) = true := hones _ (by omega)
    by_cases hfull : m = 32
    · rcases h.zero with hwidth | ⟨j, -, hj, hbit⟩
      · rw [ip.bit_of_le (by omega)] at hone
        cases hone
      · rw [hones j (by omega)] at hbit
        cases hbit
    · rw [h.rest _ (Nat.le_refl _) (by omega)] at hone
      cases hone
  rw [h.count]
  constructor
  · -- nothing behind what is counted is a one, up to the end of the word
    rintro rfl j hj hword
    by_cases hfull : m = 32
    · rcases h.zero with hwidth | ⟨k, -, hk, hbit⟩
      · exact ip.bit_of_le (by omega)
      · rw [hones k (by omega)] at hbit
        cases hbit
    · exact h.rest j (by omega) (by omega)
  · -- the last bit that is counted is a one, and there is none behind the first zero
    intro hrest
    by_contra hne
    have hlast := h.last (by omega)
    by_cases hlatest : 32 * i + m - 1 = n
    · rw [hlatest, hzero] at hlast
      cases hlast
    · rw [hrest _ (by omega) (by omega)] at hlast
      cases hlast

end Count

/-! ## 5. The laws -/

variable (host : Host)

/-- The address of the family that has ones only. -/
def IPAddress.allOnes : AddressFamily → IPAddress
  | .AF_UNSPEC => .unspec
  | .AF_INET => .inet ⟨0xFFFFFFFF⟩
  | .AF_INET6 => .inet6 ⟨fun _ => 0xFFFFFFFF⟩

theorem bit_allOnes {family : AddressFamily} {j : ℕ}
    (h : j < (IPAddress.allOnes family).width) :
    (IPAddress.allOnes family).bit host j = true := by
  cases family with
  | AF_UNSPEC => exact absurd h (Nat.not_lt_zero j)
  | AF_INET =>
    change (NetworkToHost32 host 0xFFFFFFFF).getMsbD j = true
    rw [networkToHost32_ones, BitVec.getMsbD_allOnes]
    exact decide_eq_true h
  | AF_INET6 =>
    have hlt : j < 128 := h
    have hword : (⟨fun _ => 0xFFFFFFFF⟩ : In6Addr).word host (j / 32)
        = NetworkToHost32 host 0xFFFFFFFF := In6Addr.word_of_lt _ (by omega)
    change ((⟨fun _ => 0xFFFFFFFF⟩ : In6Addr).word host (j / 32)).getMsbD (j % 32) = true
    rw [hword, networkToHost32_ones, BitVec.getMsbD_allOnes]
    exact decide_eq_true (by omega)

theorem truncate_truncate (ip : IPAddress) (a b : ℕ) :
    TruncateIP host (TruncateIP host ip a) b = TruncateIP host ip (min a b : ℕ) := by
  apply IPAddress.ext_bit host
  · rw [family_truncate, family_truncate, family_truncate]
  · intro j
    have hmin : decide (j < min a b) = (decide (j < b) && decide (j < a)) := by
      rw [← Bool.decide_and]
      exact decide_eq_decide.2 (by omega)
    rw [bit_truncate, bit_truncate, bit_truncate, hmin, Bool.and_assoc]

theorem count_truncate_allOnes (family : AddressFamily) {n : ℕ}
    (h : n ≤ (IPAddress.allOnes family).width) :
    CountIPMaskBits host (TruncateIP host (IPAddress.allOnes family) n) = n := by
  by_cases hfamily : family = .AF_UNSPEC
  · subst hfamily
    obtain rfl : n = 0 := Nat.le_zero.1 h
    rfl
  · have hfamily' : (TruncateIP host (IPAddress.allOnes family) n).family ≠ .AF_UNSPEC := by
      rw [family_truncate]
      cases family with
      | AF_UNSPEC => exact absurd rfl hfamily
      | AF_INET | AF_INET6 => exact nofun
    obtain ⟨i, m, hcounted⟩ := exists_counted host _ hfamily'
    have hones : ∀ j, j < n →
        (TruncateIP host (IPAddress.allOnes family) n).bit host j = true := by
      intro j hj
      rw [bit_truncate, decide_eq_true hj, bit_allOnes host (by omega)]
      rfl
    have hzeroes : ∀ j, n ≤ j →
        (TruncateIP host (IPAddress.allOnes family) n).bit host j = false := by
      intro j hj
      rw [bit_truncate, decide_eq_false (by omega), Bool.false_and]
    exact (hcounted.leading_iff hones (hzeroes n (Nat.le_refl n))).2 fun j hj _ =>
      hzeroes j (by omega)

theorem width_allOnes (ip : IPAddress) : (IPAddress.allOnes ip.family).width = ip.width := by
  cases ip <;> rfl

/-- `TruncateIP` is a projection on the first bits, and the ones of a prefix are counted. -/
theorem truncate_projects (ip : IPAddress) :
    (∀ a : ℕ, (TruncateIP host ip a).family = ip.family
      ∧ (∀ j, (TruncateIP host ip a).bit host j = (decide (j < a) && ip.bit host j))
      ∧ (ip.width ≤ a → TruncateIP host ip a = ip))
    ∧ (∀ a b : ℕ,
      TruncateIP host (TruncateIP host ip a) b = TruncateIP host ip (min a b : ℕ))
    ∧ ∀ n : ℕ, n ≤ ip.width →
      CountIPMaskBits host (TruncateIP host (IPAddress.allOnes ip.family) n) = n := by
  refine ⟨fun a => ⟨family_truncate ip a, bit_truncate ip a, ?_⟩, truncate_truncate host ip, ?_⟩
  · intro hwidth
    apply IPAddress.ext_bit host (family_truncate ip a)
    intro j
    rw [bit_truncate]
    by_cases hj : j < a
    · rw [decide_eq_true hj, Bool.true_and]
    · rw [decide_eq_false hj, Bool.false_and, ip.bit_of_le (by omega)]
  · intro n hn
    exact count_truncate_allOnes host ip.family (width_allOnes ip ▸ hn)

/-- The number of consecutive ones, counted from the first bit. -/
def IPAddress.leadingOnes (ip : IPAddress) : ℕ :=
  Nat.find (⟨ip.width, ip.bit_of_le (Nat.le_refl _)⟩ : ∃ j, ip.bit host j = false)

/-- `CountIPMaskBits` counts the leading ones exactly if, in the word of the first zero, there is no
one behind it. -/
theorem count_iff (ip : IPAddress) :
    CountIPMaskBits host ip = ip.leadingOnes host
      ↔ ∀ j, ip.leadingOnes host < j → j / 32 = ip.leadingOnes host / 32 →
        ip.bit host j = false := by
  have hzero : ip.bit host (ip.leadingOnes host) = false :=
    Nat.find_spec (⟨ip.width, ip.bit_of_le (Nat.le_refl _)⟩ : ∃ j, ip.bit host j = false)
  have hones : ∀ j, j < ip.leadingOnes host → ip.bit host j = true := fun j hj =>
    (Bool.not_eq_false _).mp (Nat.find_min _ hj)
  by_cases hfamily : ip.family = .AF_UNSPEC
  · cases ip with
    | unspec =>
      refine iff_of_true ?_ fun _ _ _ => rfl
      have hle : IPAddress.leadingOnes host .unspec ≤ 0 := Nat.find_min' _ rfl
      exact (Nat.le_zero.1 hle).symm
    | inet | inet6 => cases hfamily
  · obtain ⟨i, m, hcounted⟩ := exists_counted host ip hfamily
    exact hcounted.leading_iff hones hzero

/-- The mask 255.0.255.0. -/
theorem counts_behind_zero :
    CountIPMaskBits ⟨false⟩ (.ofHostOrder ⟨false⟩ 0xFF00FF00) = 24
      ∧ (IPAddress.ofHostOrder ⟨false⟩ 0xFF00FF00).leadingOnes ⟨false⟩ = 8 := by
  refine ⟨by decide, ?_⟩
  exact (Nat.find_eq_iff _).2 (by decide)

end Gxmpp.TalkBase
