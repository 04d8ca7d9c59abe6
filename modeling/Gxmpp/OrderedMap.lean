/-
A map whose keys are in the order in which they were put in.

To set a key that is there changes its value and not its place; a new key goes behind the others.
`Lists` says that a list of entries is the map. A key is in such a list at one place, so a change
there is the change of the map (`Lists.set`, `Lists.erase`), and the first entry with a key is
its value (`Lists.find`).
-/
import Mathlib.Data.List.Nodup

set_option autoImplicit false

/-- The keys in their order, and what they stand for. -/
structure OrderedMap (κ ν : Type*) where
  keys : List κ
  value : κ → Option ν
  nodup : keys.Nodup
  mem_keys : ∀ k, k ∈ keys ↔ (value k).isSome = true

namespace OrderedMap

variable {κ ν : Type*}

def empty : OrderedMap κ ν where
  keys := []
  value _ := none
  nodup := List.nodup_nil
  mem_keys k := by simp

def set [DecidableEq κ] (m : OrderedMap κ ν) (k : κ) (v : ν) : OrderedMap κ ν where
  keys := if k ∈ m.keys then m.keys else m.keys ++ [k]
  value := Function.update m.value k (some v)
  nodup := by
    split
    · exact m.nodup
    · next hk => exact m.nodup.append (List.nodup_singleton k) (by simpa using hk)
  mem_keys j := by
    rw [Function.update_apply]
    by_cases hj : j = k
    · rw [if_pos hj, hj]
      split
      · next hk => simp [hk]
      · simp
    · rw [if_neg hj, ← m.mem_keys]
      split
      · rfl
      · simp [hj]

def erase [DecidableEq κ] (m : OrderedMap κ ν) (k : κ) : OrderedMap κ ν where
  keys := m.keys.erase k
  value := Function.update m.value k none
  nodup := m.nodup.erase k
  mem_keys j := by
    rw [m.nodup.mem_erase_iff, Function.update_apply]
    by_cases hj : j = k
    · simp [hj]
    · rw [if_neg hj, m.mem_keys]
      simp [hj]

/-- The entries of the map, in the order of the keys. -/
structure Lists (m : OrderedMap κ ν) (l : List (κ × ν)) : Prop where
  keys : l.map Prod.fst = m.keys
  value : ∀ x ∈ l, m.value x.1 = some x.2

namespace Lists

variable {m : OrderedMap κ ν} {l : List (κ × ν)}

theorem nodup (h : m.Lists l) : (l.map Prod.fst).Nodup := by
  rw [h.keys]
  exact m.nodup

theorem empty : (empty : OrderedMap κ ν).Lists [] := ⟨rfl, by simp⟩

/-- A key that no entry has stands for nothing. -/
theorem value_eq_none (h : m.Lists l) {k : κ} (hk : ∀ x ∈ l, x.1 ≠ k) : m.value k = none := by
  have hnot : k ∉ m.keys := by
    rw [← h.keys]
    intro hmem
    obtain ⟨x, hx, rfl⟩ := List.mem_map.1 hmem
    exact hk x hx rfl
  rw [m.mem_keys] at hnot
  simpa using hnot

/-- A key is at one place. -/
theorem ne_of_split {before after : List (κ × ν)} {x : κ × ν} (h : m.Lists (before ++ x :: after)) :
    ∀ y ∈ before ++ after, y.1 ≠ x.1 := by
  have hnodup := h.nodup
  rw [List.map_append, List.map_cons, List.nodup_middle, ← List.map_append, List.nodup_cons]
    at hnodup
  intro y hy heq
  exact hnodup.1 (List.mem_map.2 ⟨y, hy, heq⟩)

variable [DecidableEq κ]

theorem set_new (h : m.Lists l) {k : κ} (hk : ∀ x ∈ l, x.1 ≠ k) (v : ν) :
    (m.set k v).Lists (l ++ [(k, v)]) := by
  have hnot : k ∉ m.keys := by
    rw [m.mem_keys, h.value_eq_none hk]
    exact Bool.false_ne_true
  constructor
  · rw [List.map_append, h.keys]
    exact (if_neg hnot).symm
  · intro x hx
    rcases List.mem_append.1 hx with hx | hx
    · exact (Function.update_of_ne (hk x hx) _ _).trans (h.value x hx)
    · rw [List.mem_singleton.1 hx]
      exact Function.update_self _ _ _

theorem set_old {before after : List (κ × ν)} {k : κ} {w : ν}
    (h : m.Lists (before ++ (k, w) :: after)) (v : ν) :
    (m.set k v).Lists (before ++ (k, v) :: after) := by
  have hk : k ∈ m.keys := by
    rw [← h.keys]
    simp
  have hne := h.ne_of_split
  constructor
  · refine Eq.trans ?_ (if_pos hk).symm
    rw [← h.keys]
    simp
  · intro x hx
    rw [List.mem_append, List.mem_cons, or_left_comm] at hx
    rcases hx with rfl | hx
    · exact Function.update_self _ _ _
    · have hx := List.mem_append.2 hx
      refine (Function.update_of_ne (hne x hx) _ _).trans (h.value x ?_)
      rw [List.mem_append, List.mem_cons, or_left_comm]
      exact .inr (List.mem_append.1 hx)

theorem erase_new (h : m.Lists l) {k : κ} (hk : ∀ x ∈ l, x.1 ≠ k) : (m.erase k).Lists l := by
  have hnot : k ∉ m.keys := by
    rw [m.mem_keys, h.value_eq_none hk]
    exact Bool.false_ne_true
  constructor
  · rw [h.keys]
    exact (List.erase_of_not_mem hnot).symm
  · intro x hx
    exact (Function.update_of_ne (hk x hx) _ _).trans (h.value x hx)

theorem erase_old {before after : List (κ × ν)} {x : κ × ν}
    (h : m.Lists (before ++ x :: after)) : (m.erase x.1).Lists (before ++ after) := by
  have hne := h.ne_of_split
  constructor
  · have hbefore : x.1 ∉ before.map Prod.fst := by
      intro hmem
      obtain ⟨y, hy, heq⟩ := List.mem_map.1 hmem
      exact hne y (List.mem_append.2 (.inl hy)) heq
    change _ = m.keys.erase x.1
    rw [← h.keys, List.map_append, List.map_append, List.map_cons,
      List.erase_append_right _ hbefore, List.erase_cons_head]
  · intro y hy
    refine (Function.update_of_ne (hne y hy) _ _).trans (h.value y ?_)
    rw [List.mem_append, List.mem_cons, or_left_comm]
    exact .inr (List.mem_append.1 hy)

end Lists

end OrderedMap
