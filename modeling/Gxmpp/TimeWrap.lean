/-
The comparisons of times in `talk/base/timeutils.cc`, in both of their implementations.

`EFFICIENT_IMPLEMENTATION` is what is compiled; the functions of `Portable` are those of the other
branch, that goes by `TimeIsBetween`. Both are read as conditions on the distance from one time to
the other, which is counted around the circle of the 32-bit numbers.
-/
import Gxmpp.MessageQueue
import Mathlib.Algebra.Group.Int.Defs

set_option autoImplicit false

namespace Gxmpp.TalkBase

/-! ## 1. The functions -/

def LAST : UInt32 := 0xFFFFFFFF

/-- `TimeIsBetween`, inclusive. -/
def TimeIsBetween (earlier middle later : UInt32) : Bool :=
  if earlier ≤ later then
    decide (earlier ≤ middle) && decide (middle ≤ later)
  else
    !(decide (later < middle) && decide (middle < earlier))

/-- `TimeIsLaterOrEqual`. -/
def TimeIsLaterOrEqual (earlier later : UInt32) : Bool :=
  let diff : Int32 := (later - earlier).toInt32
  diff ≥ 0 && diff.toUInt32 < HALF

/-! The branch without `EFFICIENT_IMPLEMENTATION`. -/

namespace Portable

def TimeIsLaterOrEqual (earlier later : UInt32) : Bool :=
  let later_or_equal := TimeIsBetween earlier later (earlier + HALF)
  later_or_equal

def TimeIsLater (earlier later : UInt32) : Bool :=
  let earlier_or_equal := TimeIsBetween later earlier (later + HALF)
  !earlier_or_equal

/-- What is returned is a `long` made an `int32`. -/
def TimeDiff (later earlier : UInt32) : Int :=
  let later_or_equal := TimeIsBetween earlier later (earlier + HALF)
  let diff : Int :=
    if later_or_equal then
      if earlier ≤ later then (later - earlier).toNat
      else (later + (LAST - earlier) + 1).toNat
    else
      if later ≤ earlier then -(earlier - later).toNat
      else -(earlier + (LAST - later) + 1).toNat
  (Int32.ofInt diff).toInt

end Portable

/-! ## 2. The distance from one time to another -/

variable {earlier middle later : UInt32}

theorem sub_toNat (a b : UInt32) :
    (a - b).toNat = if b ≤ a then a.toNat - b.toNat else 2 ^ 32 + a.toNat - b.toNat := by
  have ha := a.toNat_lt
  have hb := b.toNat_lt
  rw [UInt32.toNat_sub]
  split_ifs with hle
  · have hle' := UInt32.le_iff_toNat_le.mp hle
    omega
  · have hle' := mt UInt32.le_iff_toNat_le.mpr hle
    omega

/-- On the circle of the times, what is between two of them is not further from the first one than
the second one is. -/
theorem TimeIsBetween_iff : TimeIsBetween earlier middle later = true ↔
    (middle - earlier).toNat ≤ (later - earlier).toNat := by
  have he := earlier.toNat_lt
  have hm := middle.toNat_lt
  have hl := later.toNat_lt
  rw [TimeIsBetween, sub_toNat, sub_toNat]
  simp only [UInt32.le_iff_toNat_le, UInt32.lt_iff_toNat_lt]
  -- the range wraps around or not, and so does each of the distances
  split_ifs <;> simp <;> omega

theorem add_sub_self (a d : UInt32) : a + d - a = d := by
  rw [UInt32.add_comm, UInt32.add_sub_cancel]

theorem sub_comm_toNat (a b : UInt32) : (b - a).toNat = (2 ^ 32 - (a - b).toNat) % 2 ^ 32 := by
  have ha := a.toNat_lt
  have hb := b.toNat_lt
  rw [sub_toNat, sub_toNat]
  simp only [UInt32.le_iff_toNat_le]
  split_ifs <;> omega

theorem TimeIsLaterOrEqual_iff :
    TimeIsLaterOrEqual earlier later = true ↔ (later - earlier).toNat < 2 ^ 31 := by
  unfold TimeIsLaterOrEqual
  generalize later - earlier = d
  have hpos : (0 : Int32) ≤ d.toInt32 ↔ 0 ≤ d.toInt32.toInt := Int32.le_iff_toInt_le
  have hint : d.toInt32.toInt = (d.toNat : Int).bmod (2 ^ 32) := by
    rw [← UInt32.toNat_toBitVec, ← BitVec.toInt_eq_toNat_bmod]
    rfl
  have hhalf : d < HALF ↔ d.toNat < 2 ^ 31 := UInt32.lt_iff_toNat_lt
  have hlt := d.toNat_lt
  simp only [ge_iff_le, UInt32.toUInt32_toInt32, Bool.and_eq_true, decide_eq_true_eq, hpos, hhalf,
    hint, Int.bmod_def]
  split_ifs <;> omega

/-! ## 3. Two implementations -/

theorem portable_laterOrEqual :
    Portable.TimeIsLaterOrEqual earlier later = true ↔ (later - earlier).toNat ≤ 2 ^ 31 := by
  have hhalf : earlier + HALF - earlier = HALF := add_sub_self earlier HALF
  rw [Portable.TimeIsLaterOrEqual, TimeIsBetween_iff, hhalf]
  rfl

theorem portable_later : Portable.TimeIsLater earlier later = TimeIsLater earlier later := by
  have hhalf : later + HALF - later = HALF := add_sub_self later HALF
  have hlt := (later - earlier).toNat_lt
  have hback : TimeIsBetween later earlier (later + HALF) = true ↔
      (2 ^ 32 - (later - earlier).toNat) % 2 ^ 32 ≤ 2 ^ 31 := by
    rw [TimeIsBetween_iff, hhalf, sub_comm_toNat later earlier]
    rfl
  rw [Bool.eq_iff_iff, TimeIsLater_iff, Portable.TimeIsLater, Bool.not_eq_true', ← Bool.not_eq_true,
    hback]
  omega

/-- The number of a difference is taken modulo `2 ^ 32`, from whichever side it is counted. -/
theorem toInt_eq_TimeDiff {diff : Int} (hdiff : diff % 2 ^ 32 = ((later - earlier).toNat : Int)) :
    (Int32.ofInt diff).toInt = TimeDiff later earlier := by
  have hint : (later - earlier).toInt32.toInt = ((later - earlier).toNat : Int).bmod (2 ^ 32) := by
    rw [← UInt32.toNat_toBitVec, ← BitVec.toInt_eq_toNat_bmod]
    rfl
  rw [TimeDiff, hint, ← hdiff, Int32.toInt_ofInt]
  exact (Int.emod_bmod diff (2 ^ 32)).symm

theorem portable_diff : Portable.TimeDiff later earlier = TimeDiff later earlier := by
  have he := earlier.toNat_lt
  have hl := later.toNat_lt
  have hlast : LAST.toNat = 2 ^ 32 - 1 := rfl
  have hone : (1 : UInt32).toNat = 1 := rfl
  apply toInt_eq_TimeDiff
  -- no branch is wrong modulo `2 ^ 32`, whatever `TimeIsBetween` says
  simp only [sub_toNat, UInt32.toNat_add, UInt32.le_iff_toNat_le, hlast, hone]
  split_ifs <;> omega

/-- They differ at half of the circle, where each of two times is later for `Portable`. -/
theorem laterOrEqual_agree_iff :
    Portable.TimeIsLaterOrEqual earlier later = TimeIsLaterOrEqual earlier later ↔
      later - earlier ≠ HALF := by
  have hhalf : later - earlier = HALF ↔ (later - earlier).toNat = 2 ^ 31 := UInt32.toNat_inj.symm
  rw [Bool.eq_iff_iff, portable_laterOrEqual, TimeIsLaterOrEqual_iff, ne_eq, hhalf]
  omega

/-! ## 4. Times that are less than half of the circle apart -/

variable {a d : UInt32}

/-- A number of milliseconds that fits is what `TimeDiff` returns. -/
theorem TimeDiff_eq_of_emod {diff : Int} (hlow : -2 ^ 31 ≤ diff) (hhigh : diff < 2 ^ 31)
    (hdiff : diff % 2 ^ 32 = ((later - earlier).toNat : Int)) : TimeDiff later earlier = diff := by
  have hsize : Int32.size = 2 ^ 32 := rfl
  rw [← toInt_eq_TimeDiff hdiff, Int32.toInt_ofInt, hsize, Int.bmod_def]
  split_ifs <;> omega

theorem TimeDiff_of_later (h : TimeIsLater earlier later = true) :
    TimeDiff later earlier = (later - earlier).toNat := by
  rw [TimeIsLater_iff] at h
  apply TimeDiff_eq_of_emod <;> omega

theorem TimeDiff_of_not_later (h : TimeIsLater earlier later = false) :
    TimeDiff later earlier ≤ 0 := by
  have hlt := (later - earlier).toNat_lt
  rw [← Bool.not_eq_true, TimeIsLater_iff] at h
  by_cases hzero : (later - earlier).toNat = 0
  · have hdiff : TimeDiff later earlier = 0 := by apply TimeDiff_eq_of_emod <;> omega
    exact hdiff.le
  · have hdiff : TimeDiff later earlier = (later - earlier).toNat - 2 ^ 32 := by
      apply TimeDiff_eq_of_emod <;> omega
    omega

theorem laterOrEqual_add (hd : d.toNat < 2 ^ 31) : TimeIsLaterOrEqual a (a + d) = true := by
  rwa [TimeIsLaterOrEqual_iff, add_sub_self]

theorem later_add (hd : d.toNat < 2 ^ 31) : TimeIsLater a (a + d) = true ↔ 0 < d.toNat := by
  rw [TimeIsLater_iff, add_sub_self]
  omega

theorem later_add_left (hd : d.toNat < 2 ^ 31) : TimeIsLater (a + d) a = false := by
  rw [← Bool.not_eq_true, TimeIsLater_iff, sub_comm_toNat, add_sub_self]
  omega

theorem diff_add (hd : d.toNat < 2 ^ 31) : TimeDiff (a + d) a = d.toNat := by
  apply TimeDiff_eq_of_emod
  · omega
  · omega
  · rw [add_sub_self]
    omega

theorem diff_add_left (hd : d.toNat < 2 ^ 31) : TimeDiff a (a + d) = -d.toNat := by
  apply TimeDiff_eq_of_emod
  · omega
  · omega
  · rw [sub_comm_toNat, add_sub_self]
    omega

/-- A pair of times in one order or the other. -/
def EitherOrder (a d earlier later : UInt32) : Prop :=
  (earlier = a ∧ later = a + d) ∨ (earlier = a + d ∧ later = a)

theorem eitherOrder_ne_HALF (hd : d.toNat < 2 ^ 31) (horder : EitherOrder a d earlier later) :
    later - earlier ≠ HALF := by
  intro heq
  have hhalf : (later - earlier).toNat = 2 ^ 31 := by
    rw [heq]
    rfl
  obtain ⟨rfl, rfl⟩ | ⟨rfl, rfl⟩ := horder
  · rw [add_sub_self] at hhalf
    omega
  · rw [sub_comm_toNat, add_sub_self] at hhalf
    omega

/-- Between times that are less than half of the circle apart the comparisons are those of the
distance, and both implementations make the same ones. -/
theorem times_in_order (a d : UInt32) (hd : d.toNat < 2 ^ 31) :
    TimeIsLaterOrEqual a (a + d) = true ∧ (TimeIsLater a (a + d) = true ↔ 0 < d.toNat) ∧
      TimeIsLater (a + d) a = false ∧
      TimeDiff (a + d) a = d.toNat ∧ TimeDiff a (a + d) = -d.toNat ∧
      ∀ x y, EitherOrder a d x y →
        Portable.TimeIsLaterOrEqual x y = TimeIsLaterOrEqual x y ∧
        Portable.TimeIsLater x y = TimeIsLater x y ∧
        Portable.TimeDiff x y = TimeDiff x y := by
  refine ⟨laterOrEqual_add hd, later_add hd, later_add_left hd, diff_add hd, diff_add_left hd, ?_⟩
  intro x y horder
  exact ⟨laterOrEqual_agree_iff.mpr (eitherOrder_ne_HALF hd horder), portable_later, portable_diff⟩

/-- Over the end of the numbers. -/
theorem times_in_order_wrapped :
    TimeIsLaterOrEqual 0xFFFFFFF0 0x10 = true ∧ TimeDiff 0x10 0xFFFFFFF0 = 0x20 := by
  have hall := times_in_order 0xFFFFFFF0 0x20 (by decide)
  exact ⟨hall.1, hall.2.2.2.1⟩

end Gxmpp.TalkBase
