/-
A block of memory, used as a ring.

A ring begins at some place of the block and goes on from the start of the block when its end is
reached: read from its first place on it is the block, rotated. Bytes that are put somewhere into
the ring are put into the block at a place that is counted round, in two pieces where they go over
its end (`rotate_put_two`), and bytes of the ring are got from it in two pieces likewise
(`take_two`). A ring begins further on when its first bytes become its last ones
(`rotate_advance`).
-/
import Mathlib.Data.List.Rotate

set_option autoImplicit false

namespace Ring

variable {α : Type*}

/-- A block in which some memory is replaced, `s` being copied to the place `i`. -/
def put (memory : List α) (i : ℕ) (s : List α) : List α :=
  memory.take i ++ s ++ memory.drop (i + s.length)

/-! ## 1. Copying into a block -/

theorem put_nil (m : List α) (i : ℕ) : put m i [] = m := by
  unfold put
  simp

theorem put_zero (m s : List α) : put m 0 s = s ++ m.drop s.length := by
  unfold put
  rw [List.take_zero, List.nil_append, Nat.zero_add]

variable {i n k p : ℕ}

theorem length_put {m : List α} {s : List α} (h : i + s.length ≤ m.length) :
    (put m i s).length = m.length := by
  unfold put
  rw [List.length_append, List.length_append, List.length_take, List.length_drop]
  omega

/-- What stands in a block behind `put`. -/
theorem getElem?_put {m : List α} {s : List α} (h : i + s.length ≤ m.length) (j : ℕ) :
    (put m i s)[j]? = if i ≤ j ∧ j < i + s.length then s[j - i]? else m[j]? := by
  have htake : (m.take i).length = i := by
    rw [List.length_take]
    omega
  have hboth : (m.take i ++ s).length = i + s.length := by
    rw [List.length_append, htake]
  unfold put
  by_cases hlt : j < i + s.length
  · rw [List.getElem?_append_left (hboth.symm ▸ hlt)]
    by_cases hle : i ≤ j
    · rw [if_pos ⟨hle, hlt⟩, List.getElem?_append_right (htake.symm ▸ hle), htake]
    · rw [if_neg (fun hj => hle hj.1), List.getElem?_append_left (by omega),
        List.getElem?_take_of_lt (by omega)]
  · rw [if_neg (fun hj => hlt hj.2), List.getElem?_append_right (by omega), hboth,
      List.getElem?_drop, Nat.add_sub_cancel' (by omega)]

/-- Two pieces that are put one behind the other, over the end of the block or not. -/
theorem put_put {m : List α} {s t : List α} (h : i ≤ m.length) :
    put (put m i s) (i + s.length) t = put m i (s ++ t) := by
  have htake : (m.take i ++ s).length = i + s.length := by
    rw [List.length_append, List.length_take_of_le h]
  unfold put
  rw [List.take_left' htake, List.length_append, ← Nat.add_assoc, ← htake,
    List.drop_append, List.drop_eq_nil_of_le (Nat.le_add_right _ _), List.nil_append,
    Nat.add_sub_cancel_left, List.drop_drop, List.append_assoc (m.take i)]

/-- The start of a block, up to the end of what is put there or further. -/
theorem take_put {m : List α} {s : List α} (hi : i ≤ n) (hn : n ≤ m.length) :
    (put m i s).take (max n (i + s.length)) = put (m.take n) i s := by
  have htake : (m.take i ++ s).length = i + s.length := by
    rw [List.length_append, List.length_take_of_le (hi.trans hn)]
  have hrest : max n (i + s.length) - (i + s.length) = n - (i + s.length) := by omega
  unfold put
  rw [List.take_append, htake, List.take_of_length_le (by omega), hrest, List.take_take,
    Nat.min_eq_left hi, List.drop_take]

/-- What is put behind the first bytes leaves these as they are. -/
theorem put_add {m : List α} {s : List α} (hn : n ≤ m.length) :
    (put m (n + k) s).take n = m.take n
      ∧ (put m (n + k) s).drop n = put (m.drop n) k s := by
  have hsplit : put m (n + k) s = m.take n ++ put (m.drop n) k s := by
    unfold put
    rw [List.take_add, List.drop_drop, List.append_assoc, List.append_assoc, List.append_assoc,
      Nat.add_assoc]
  have htake : (m.take n).length = n := List.length_take_of_le hn
  rw [hsplit]
  exact ⟨List.take_left' htake, List.drop_left' htake⟩

/-! ## 2. The ring -/

/-- A place that is counted round once at most. -/
theorem mod_of_lt_two {a : ℕ} (h : a < n + n) : a % n = if a < n then a else a - n := by
  split
  · next hlt => exact Nat.mod_eq_of_lt hlt
  · next hge =>
      rw [Nat.mod_eq_sub_mod (Nat.le_of_not_lt hge)]
      exact Nat.mod_eq_of_lt (by omega)

/-- What is put into the block, not over its end, is put into the ring. -/
theorem rotate_put {m s : List α} (hp : p < m.length) (hring : k + s.length ≤ m.length)
    (hblock : (p + k) % m.length + s.length ≤ m.length) :
    (put m ((p + k) % m.length) s).rotate p = put (m.rotate p) k s := by
  by_cases hnil : s = []
  · rw [hnil, put_nil, put_nil]
  have hpos := List.length_pos_iff.2 hnil
  apply List.ext_getElem?
  intro i
  have hlength : (m.rotate p).length = m.length := List.length_rotate m p
  by_cases hi : i < m.length
  · have hplace := mod_of_lt_two (show p + k < m.length + m.length by omega)
    have hround := mod_of_lt_two (show i + p < m.length + m.length by omega)
    rw [List.getElem?_rotate (by rw [length_put hblock]; exact hi), length_put hblock,
      getElem?_put hblock, getElem?_put (by rw [hlength]; exact hring), List.getElem?_rotate hi]
    -- both places are counted from the first one, or both from the start of the block
    generalize (i + p) % m.length = j at hround
    generalize (p + k) % m.length = w at hplace hblock
    by_cases hin : k ≤ i ∧ i < k + s.length
    · have hsame : j - w = i - k ∧ w ≤ j ∧ j < w + s.length := by
        split at hplace <;> split at hround <;> omega
      rw [if_pos hin, if_pos hsame.2, hsame.1]
    · have hout : ¬(w ≤ j ∧ j < w + s.length) := by
        split at hplace <;> split at hround <;> omega
      rw [if_neg hin, if_neg hout]
  · rw [List.getElem?_eq_none (by rw [List.length_rotate, length_put hblock]; omega),
      List.getElem?_eq_none (by rw [length_put (by omega), hlength]; omega)]

/-- What is put into the block in two pieces, up to its end and from its start on. -/
theorem rotate_put_two {m s : List α} (hp : p < m.length) (hring : k + s.length ≤ m.length) :
    let tail := min s.length (m.length - (p + k) % m.length)
    (put (put m ((p + k) % m.length) (s.take tail)) 0 (s.drop tail)).rotate p
        = put (m.rotate p) k s
      ∧ (put (put m ((p + k) % m.length) (s.take tail)) 0 (s.drop tail)).length = m.length := by
  intro tail
  have hpos : 0 < m.length := by omega
  have hplace := Nat.mod_lt (p + k) hpos
  have htail : (s.take tail).length = tail := List.length_take_of_le (Nat.min_le_left _ _)
  have hrest : (s.drop tail).length = s.length - tail := List.length_drop
  have hone : (p + k) % m.length + (s.take tail).length ≤ m.length := by omega
  have hput := length_put hone
  have hfit : 0 + (s.drop tail).length ≤ m.length := by omega
  have hboth := length_put (m := put m ((p + k) % m.length) (s.take tail))
    (i := 0) (s := s.drop tail) (by rw [hput]; exact hfit)
  refine ⟨?_, hboth.trans hput⟩
  have hfirst := rotate_put hp (s := s.take tail) (by omega) hone
  by_cases hall : s.length ≤ tail
  · -- nothing is left for the second piece
    rw [List.drop_of_length_le hall, put_nil, hfirst, List.take_of_length_le hall]
  · -- the first piece has reached the end of the block
    have hround := mod_of_lt_two (show p + k < m.length + m.length by omega)
    have hstart : (p + (k + tail)) % m.length = 0 := by
      have hsum : p + (k + tail) = m.length := by
        split at hround <;> omega
      rw [hsum, Nat.mod_self]
    have hsecond := rotate_put (m := put m ((p + k) % m.length) (s.take tail))
      (s := s.drop tail) (k := k + tail) (hput.symm ▸ hp) (by omega) (by
        rw [hput, hstart]
        exact hfit)
    rw [hput, hstart, hfirst] at hsecond
    have hpieces := put_put (m := m.rotate p) (i := k) (s := s.take tail)
      (t := s.drop tail) (by rw [List.length_rotate]; omega)
    rw [htail, List.take_append_drop] at hpieces
    rw [hsecond, hpieces]

/-- What is got from the block in two pieces, up to its end and from its start on. -/
theorem take_two {m : List α} (hp : p < m.length) (hn : n ≤ m.length) :
    let tail := min n (m.length - p)
    (m.drop p).take tail ++ m.take (n - tail) = (m.rotate p).take n := by
  intro tail
  have hlength : (m.drop p).length = m.length - p := List.length_drop
  rw [List.rotate_eq_drop_append_take (Nat.le_of_lt hp), List.take_append, hlength]
  by_cases hall : n ≤ m.length - p
  · have htail : tail = n := Nat.min_eq_left hall
    rw [htail, Nat.sub_self, Nat.sub_eq_zero_of_le hall, List.take_zero, List.take_zero]
  · have htail : tail = m.length - p := Nat.min_eq_right (Nat.le_of_not_le hall)
    have hwhole : ∀ k, m.length - p ≤ k → (m.drop p).take k = m.drop p := by
      intro k hk
      exact List.take_of_length_le (hlength.symm ▸ hk)
    rw [htail, hwhole _ (Nat.le_refl _), hwhole n (by omega), List.take_take,
      Nat.min_eq_left (show n - (m.length - p) ≤ p by omega)]

/-- The first bytes of the ring become its last ones. -/
theorem rotate_advance {m : List α} (hn : n ≤ m.length) :
    m.rotate ((p + n) % m.length) = (m.rotate p).drop n ++ (m.rotate p).take n := by
  rw [List.rotate_mod, ← List.rotate_rotate]
  apply List.rotate_eq_drop_append_take
  rw [List.length_rotate]
  exact hn

end Ring
