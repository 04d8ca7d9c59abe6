/-
Text in UTF-8, as a list of bytes, and where its characters end.

A text is valid if it is the encoding of some characters. The first byte of a character is no
continuation byte and all its other bytes are (`encode_char`), so in a valid text the boundaries
of its characters can be told from single bytes (`boundary_iff`). The place where a text is to
be cut is the last boundary that is not too far: it is found by going back over continuation
bytes (`greatest_boundary`).
-/
import Mathlib.Data.List.Induction
import Mathlib.Order.Bounds.Basic

set_option autoImplicit false

namespace Utf8

/-! ## 1. Characters -/

/-- The bytes of some characters. -/
def encode (cs : List Char) : List UInt8 := cs.flatMap String.utf8EncodeChar

/-- The text is the encoding of some characters. -/
def Valid (s : List UInt8) : Prop := ∃ cs, s = encode cs

/-- The bytes `10xxxxxx`. -/
def Continuation (b : UInt8) : Prop := 0x80 ≤ b ∧ b < 0xC0

instance (b : UInt8) : Decidable (Continuation b) := inferInstanceAs (Decidable (_ ∧ _))

/-- The bytes that a character starts with. -/
def Lead (b : UInt8) : Prop := b < 0x80 ∨ (0xC0 ≤ b ∧ b < 0xF8)

instance (b : UInt8) : Decidable (Lead b) := inferInstanceAs (Decidable (_ ∨ _))

theorem Lead.not_continuation {b : UInt8} (h : Lead b) : ¬ Continuation b := by
  unfold Lead at h
  unfold Continuation
  simp only [UInt8.lt_iff_toNat_lt, UInt8.le_iff_toNat_le, UInt8.reduceToNat] at h ⊢
  omega

/-- What is tested for each of the 256 bytes holds for every byte. -/
theorem forall_byte {P : UInt8 → Prop} [DecidablePred P]
    (h : ∀ n < 256, P (UInt8.ofNat n)) (b : UInt8) : P b := by
  have hb := h b.toNat b.toNat_lt
  rwa [UInt8.ofNat_toNat] at hb

/-- The low bits of a byte, marked as a continuation and as the three kinds of a first byte. -/
theorem marked_byte (b : UInt8) : Continuation (b &&& 0x3f ||| 0x80) ∧ Lead (b &&& 0x1f ||| 0xc0)
    ∧ Lead (b &&& 0x0f ||| 0xe0) ∧ Lead (b &&& 0x07 ||| 0xf0) :=
  forall_byte (P := fun b => Continuation (b &&& 0x3f ||| 0x80) ∧ Lead (b &&& 0x1f ||| 0xc0)
    ∧ Lead (b &&& 0x0f ||| 0xe0) ∧ Lead (b &&& 0x07 ||| 0xf0)) (by decide +kernel) b

/-- A character is a first byte and continuation bytes. -/
theorem encode_char (c : Char) : ∃ b t, String.utf8EncodeChar c = b :: t ∧ Lead b ∧
    ∀ x ∈ t, Continuation x := by
  rw [String.utf8EncodeChar_eq_utf8EncodeCharFast]
  unfold String.utf8EncodeCharFast
  dsimp only
  split
  · next hone =>
      refine ⟨_, _, rfl, Or.inl ?_, nofun⟩
      rw [UInt32.le_iff_toNat_le] at hone
      rw [UInt8.lt_iff_toNat_lt, UInt32.toNat_toUInt8]
      simp only [UInt32.reduceToNat, UInt8.reduceToNat] at hone ⊢
      omega
  · split
    · refine ⟨_, _, rfl, (marked_byte _).2.1, fun x hx => ?_⟩
      obtain rfl := List.mem_singleton.1 hx
      exact (marked_byte _).1
    · split
      · refine ⟨_, _, rfl, (marked_byte _).2.2.1, fun x hx => ?_⟩
        simp only [List.mem_cons, List.not_mem_nil, or_false] at hx
        rcases hx with rfl | rfl <;> exact (marked_byte _).1
      · refine ⟨_, _, rfl, (marked_byte _).2.2.2, fun x hx => ?_⟩
        simp only [List.mem_cons, List.not_mem_nil, or_false] at hx
        rcases hx with rfl | rfl | rfl <;> exact (marked_byte _).1

theorem encode_nil : encode [] = [] := rfl

theorem encode_cons (c : Char) (cs : List Char) :
    encode (c :: cs) = String.utf8EncodeChar c ++ encode cs := List.flatMap_cons

theorem encode_append (cs ds : List Char) : encode (cs ++ ds) = encode cs ++ encode ds :=
  List.flatMap_append

theorem Valid.nil : Valid [] := ⟨[], rfl⟩

theorem Valid.append {s t : List UInt8} (hs : Valid s) (ht : Valid t) : Valid (s ++ t) := by
  obtain ⟨cs, rfl⟩ := hs
  obtain ⟨ds, rfl⟩ := ht
  exact ⟨cs ++ ds, (encode_append cs ds).symm⟩

/-- In a valid text every byte is a first byte or a continuation byte. -/
theorem Valid.lead_or {s : List UInt8} (h : Valid s) : ∀ b ∈ s, Lead b ∨ Continuation b := by
  obtain ⟨cs, rfl⟩ := h
  intro x hx
  obtain ⟨c, -, hc⟩ := List.mem_flatMap.1 hx
  obtain ⟨b, t, heq, hb, ht⟩ := encode_char c
  rw [heq] at hc
  rcases List.mem_cons.1 hc with rfl | hc
  · exact Or.inl hb
  · exact Or.inr (ht x hc)

/-- A valid text starts with a first byte. -/
theorem Valid.head {s : List UInt8} (h : Valid s) : ∀ b ∈ s.head?, Lead b := by
  obtain ⟨cs, rfl⟩ := h
  cases cs with
  | nil => nofun
  | cons c cs =>
    obtain ⟨b, t, heq, hb, -⟩ := encode_char c
    rw [encode_cons, heq]
    intro x hx
    obtain rfl := Option.some.inj hx
    exact hb

/-! ## 2. Boundaries -/

/-- The text can be cut there: what is before and what is after are texts. -/
def Boundary (s : List UInt8) (k : ℕ) : Prop :=
  k ≤ s.length ∧ Valid (s.take k) ∧ Valid (s.drop k)

theorem Boundary.zero {s : List UInt8} (h : Valid s) : Boundary s 0 :=
  ⟨Nat.zero_le _, .nil, h⟩

/-- Inside of a valid text, the boundaries are before the first bytes. -/
theorem boundary_iff {s : List UInt8} (h : Valid s) {k : ℕ} (hk : k < s.length) :
    Boundary s k ↔ ¬ Continuation s[k] := by
  constructor
  · rintro ⟨-, -, hdrop⟩
    refine (hdrop.head s[k] ?_).not_continuation
    rw [List.head?_drop, List.getElem?_eq_getElem hk]
    rfl
  · intro hfirst
    obtain ⟨cs, rfl⟩ := h
    induction cs generalizing k with
    | nil => cases hk
    | cons c cs ih =>
      obtain ⟨b, t, heq, hb, ht⟩ := encode_char c
      have hwhole : encode (c :: cs) = (b :: t) ++ encode cs := by rw [encode_cons, heq]
      have hchar : Valid (b :: t) := ⟨[c], by rw [encode_cons, heq, encode_nil, List.append_nil]⟩
      simp only [hwhole] at hk hfirst ⊢
      rcases Nat.eq_zero_or_pos k with rfl | hpos
      · exact .zero ⟨c :: cs, hwhole.symm⟩
      rcases Nat.lt_or_ge k (b :: t).length with hin | hout
      · -- inside of the character there are only continuation bytes
        rw [List.getElem_append_left hin] at hfirst
        refine absurd (ht _ ?_) hfirst
        obtain ⟨j, rfl⟩ := Nat.exists_eq_add_of_le' hpos
        rw [List.getElem_cons_succ]
        exact List.getElem_mem _
      · rw [List.getElem_append_right hout] at hfirst
        rw [List.length_append] at hk
        obtain ⟨hle, htake, hdrop⟩ := ih (by omega) hfirst
        refine ⟨by rw [List.length_append]; omega, ?_, ?_⟩
        · rw [List.take_append, List.take_of_length_le hout]
          exact hchar.append htake
        · rw [List.drop_append, List.drop_of_length_le hout, List.nil_append]
          exact hdrop

/-- The last boundary that is not beyond `n`, when only continuation bytes come after it. -/
theorem greatest_boundary {s : List UInt8} (h : Valid s) {n k : ℕ} (hn : n < s.length)
    (hkn : k ≤ n) (hfirst : Boundary s k)
    (hback : ∀ m, k < m → (hm : m ≤ n) → Continuation (s.get ⟨m, by omega⟩)) :
    IsGreatest {m | m ≤ n ∧ Boundary s m} k := by
  refine ⟨⟨hkn, hfirst⟩, fun m ⟨hm, hboundary⟩ => ?_⟩
  by_contra hlt
  have hmlt : m < s.length := by omega
  exact (boundary_iff h hmlt).1 hboundary (hback m (not_le.1 hlt) hm)

end Utf8
