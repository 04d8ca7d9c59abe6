/-
Walking along a list by the elements that match.

A linked list is walked by "the first that matches" and "the next that matches after this
one", and a place in it is kept while things are appended. What is needed of such a walk is
the number of the match (`nth`), and that the two functions count (`next_zero`, `next_nth`).
A list that is walked twice, once for each of two kinds, is seen in its own order only where
the kinds are apart (`two_walks_iff`), or, where all that counts is what was written last, where
nothing is set after its removal (`writes_two_walks_iff`).

A loop that moves its cursor by hand may not end. `Ends` says that it does, and with what.
-/
import Mathlib.Data.List.Basic
import Mathlib.Data.List.Induction

set_option autoImplicit false

namespace Walking

section Places

variable {α : Type*} (p : α → Bool)

/-! ## 1. The next match -/

/-- The place of the first match at `start` or after it. -/
def next : List α → ℕ → Option ℕ
  | [], _ => none
  | a :: l, 0 => if p a then some 0 else (next l 0).map Nat.succ
  | _ :: l, start + 1 => (next l start).map Nat.succ

/-- The place of match number `k`. -/
def nth : List α → ℕ → Option ℕ
  | [], _ => none
  | a :: l, 0 => if p a then some 0 else (nth l 0).map Nat.succ
  | a :: l, k + 1 => (if p a then nth l k else nth l (k + 1)).map Nat.succ

/-- The place that is `k` matches after the first one. -/
def walk (l : List α) : ℕ → Option ℕ
  | 0 => next p l 0
  | k + 1 => (walk l k).bind fun i => next p l (i + 1)

example : walk (· = 1) [1, 0, 1] 1 = some 2 := by simp [walk, next]

example : nth (· = 1) [1, 0, 1] 1 = some 2 := by simp [nth]

theorem next_zero (l : List α) : next p l 0 = nth p l 0 := by
  induction l with
  | nil => rfl
  | cons a l ih => rw [next, nth, ih]

theorem nth_cons_true {a : α} (l : List α) (k : ℕ) (hp : p a = true) :
    nth p (a :: l) (k + 1) = (nth p l k).map Nat.succ := by
  rw [nth, hp, if_pos rfl]

theorem nth_cons_false {a : α} (l : List α) (k : ℕ) (hp : p a = false) :
    nth p (a :: l) k = (nth p l k).map Nat.succ := by
  cases k <;> simp [nth, hp]

/-- A match is the head, or a match of the tail. -/
theorem nth_cons_cases {a : α} {l : List α} {k i : ℕ} (h : nth p (a :: l) k = some i) :
    (p a = true ∧ k = 0 ∧ i = 0) ∨
    (∃ k' j, p a = true ∧ k = k' + 1 ∧ nth p l k' = some j ∧ i = j + 1) ∨
    ∃ j, p a = false ∧ nth p l k = some j ∧ i = j + 1 := by
  cases hp : p a with
  | true =>
    cases k with
    | zero =>
      rw [nth, hp, if_pos rfl] at h
      exact .inl ⟨rfl, rfl, (Option.some.inj h).symm⟩
    | succ k =>
      rw [nth_cons_true p l k hp] at h
      obtain ⟨j, hj, rfl⟩ := Option.map_eq_some_iff.1 h
      exact .inr (.inl ⟨k, j, rfl, rfl, hj, rfl⟩)
  | false =>
    rw [nth_cons_false p l k hp] at h
    obtain ⟨j, hj, rfl⟩ := Option.map_eq_some_iff.1 h
    exact .inr (.inr ⟨j, rfl, hj, rfl⟩)

/-- After match number `k` comes match number `k + 1`. -/
theorem next_nth {l : List α} {k i : ℕ} (h : nth p l k = some i) :
    next p l (i + 1) = nth p l (k + 1) := by
  induction l generalizing k i with
  | nil => cases h
  | cons a l ih =>
    rcases nth_cons_cases p h with ⟨hp, rfl, rfl⟩ | ⟨k, j, hp, rfl, hj, rfl⟩ | ⟨j, hp, hj, rfl⟩
    · rw [next, nth_cons_true p l 0 hp, next_zero]
    · rw [next, nth_cons_true p l (k + 1) hp, ih hj]
    · rw [next, nth_cons_false p l (k + 1) hp, ih hj]

/-- Where there is no match number `k`, there is none after it. -/
theorem nth_succ_eq_none {l : List α} {k : ℕ} (h : nth p l k = none) : nth p l (k + 1) = none := by
  induction l generalizing k with
  | nil => rfl
  | cons a l ih =>
    cases hp : p a with
    | true =>
      cases k with
      | zero => simp [nth, hp] at h
      | succ k =>
        rw [nth_cons_true p l k hp, Option.map_eq_none_iff] at h
        rw [nth_cons_true p l (k + 1) hp, ih h]
        rfl
    | false =>
      rw [nth_cons_false p l k hp, Option.map_eq_none_iff] at h
      rw [nth_cons_false p l (k + 1) hp, ih h]
      rfl

theorem walk_eq_nth (l : List α) (k : ℕ) : walk p l k = nth p l k := by
  induction k with
  | zero => exact next_zero p l
  | succ k ih =>
    rw [walk, ih]
    cases hk : nth p l k with
    | some i => exact next_nth p hk
    | none => exact (nth_succ_eq_none p hk).symm

/-! ## 2. Matches and the list of them -/

/-- What stands at match number `k`. -/
theorem get_nth {l : List α} {k i : ℕ} (h : nth p l k = some i) : l[i]? = (l.filter p)[k]? := by
  induction l generalizing k i with
  | nil => cases h
  | cons a l ih =>
    rcases nth_cons_cases p h with ⟨hp, rfl, rfl⟩ | ⟨k, j, hp, rfl, hj, rfl⟩ | ⟨j, hp, hj, rfl⟩
    · rw [List.filter_cons_of_pos hp]
      rfl
    · rw [List.filter_cons_of_pos hp, List.getElem?_cons_succ]
      exact ih hj
    · rw [List.filter_cons_of_neg (by simp [hp])]
      exact ih hj

/-- There are as many places as there are matches. -/
theorem nth_isSome_iff (l : List α) (k : ℕ) :
    (nth p l k).isSome = true ↔ k < (l.filter p).length := by
  induction l generalizing k with
  | nil => simp [nth]
  | cons a l ih =>
    cases hp : p a with
    | true =>
      rw [List.filter_cons_of_pos hp, List.length_cons]
      cases k with
      | zero => simp [nth, hp]
      | succ k =>
        rw [nth_cons_true p l k hp, Option.isSome_map, ih]
        omega
    | false =>
      rw [List.filter_cons_of_neg (by simp [hp]), ← ih, nth_cons_false p l k hp, Option.isSome_map]

/-- What is appended moves no match. -/
theorem nth_append {l : List α} {k i : ℕ} (h : nth p l k = some i) (m : List α) :
    nth p (l ++ m) k = some i := by
  induction l generalizing k i with
  | nil => cases h
  | cons a l ih =>
    rw [List.cons_append]
    rcases nth_cons_cases p h with ⟨hp, rfl, rfl⟩ | ⟨k, j, hp, rfl, hj, rfl⟩ | ⟨j, hp, hj, rfl⟩
    · rw [nth, hp, if_pos rfl]
    · rw [nth_cons_true p _ k hp, ih hj]
      rfl
    · rw [nth_cons_false p _ k hp, ih hj]
      rfl

end Places

/-! ## 3. Two walks, one after the other -/

section TwoWalks

variable {α : Type*} {p q : α → Bool}

/-- No element of the second kind stands before one of the first. -/
def Apart (p q : α → Bool) (l : List α) : Prop := l.Pairwise fun a b => ¬(q a = true ∧ p b = true)

theorem filter_first {l : List α} (h : ∀ b ∈ l, p b = false) :
    l.filter (fun a => p a || q a) = l.filter q := by
  refine List.filter_congr fun a ha => ?_
  rw [h a ha, Bool.false_or]

/-- Walking for the first kind and then for the second gives what one walk for both gives
exactly where the kinds are apart. -/
theorem two_walks_iff (hpq : ∀ a, p a = true → q a = false) (l : List α) :
    l.filter p ++ l.filter q = l.filter (fun a => p a || q a) ↔ Apart p q l := by
  induction l with
  | nil => exact iff_of_true rfl List.Pairwise.nil
  | cons a l ih =>
    unfold Apart at ih ⊢
    rw [List.pairwise_cons]
    cases hp : p a with
    | true =>
      -- it is the first of both
      have hq := hpq a hp
      rw [List.filter_cons_of_pos hp, List.filter_cons_of_neg (by simp [hq]),
        List.filter_cons_of_pos (by simp [hp]), List.cons_append, List.cons_inj_right, ih]
      refine ⟨fun h => ⟨fun b _ hb => ?_, h⟩, fun h => h.2⟩
      rw [hq] at hb
      exact absurd hb.1 Bool.false_ne_true
    | false =>
      cases hq : q a with
      | false =>
        rw [List.filter_cons_of_neg (by simp [hp]), List.filter_cons_of_neg (by simp [hq]),
          List.filter_cons_of_neg (by simp [hp, hq]), ih]
        exact ⟨fun h => ⟨fun b _ hb => absurd hb.1 Bool.false_ne_true, h⟩, fun h => h.2⟩
      | true =>
        rw [List.filter_cons_of_neg (by simp [hp]), List.filter_cons_of_pos hq,
          List.filter_cons_of_pos (by simp [hq])]
        constructor
        · intro heq
          -- the walk for the first kind found nothing, or it would come before `a`
          have hnone : l.filter p = [] := by
            cases hfirst : l.filter p with
            | nil => rfl
            | cons b first =>
              rw [hfirst, List.cons_append] at heq
              have hb : p b = true :=
                (List.mem_filter.1 (hfirst ▸ List.mem_cons_self : b ∈ l.filter p)).2
              rw [(List.cons.inj heq).1, hp] at hb
              exact absurd hb Bool.false_ne_true
          have hall : ∀ b ∈ l, p b = false := fun b hb =>
            Bool.eq_false_iff.2 (List.filter_eq_nil_iff.1 hnone b hb)
          refine ⟨fun b hb hab => ?_, ih.1 ?_⟩
          · rw [hall b hb] at hab
            exact Bool.false_ne_true hab.2
          · rw [hnone, List.nil_append, filter_first hall]
        · rintro ⟨hbefore, -⟩
          have hall : ∀ b ∈ l, p b = false := fun b hb =>
            Bool.eq_false_iff.2 fun h => hbefore b hb ⟨rfl, h⟩
          rw [List.filter_eq_nil_iff.2 fun b hb => Bool.eq_false_iff.1 (hall b hb),
            List.nil_append, filter_first hall]

end TwoWalks

/-! ## 4. Writes along a walk -/

section Writes

variable {α κ β : Type*} [DecidableEq κ] (key : α → κ) (val : α → Option β)

/-- Along the list, each element sets its key, or removes it. -/
def writes (m : κ → Option β) (l : List α) : κ → Option β :=
  l.foldl (fun m a => Function.update m (key a) (val a)) m

theorem writes_concat (m : κ → Option β) (l : List α) (a : α) :
    writes key val m (l ++ [a]) = Function.update (writes key val m l) (key a) (val a) := by
  unfold writes
  rw [List.foldl_append, List.foldl_cons, List.foldl_nil]

/-- The last element of a key has written it. -/
theorem writes_apply (m : κ → Option β) (l : List α) (k : κ) :
    writes key val m l k = match (l.filter fun a => key a = k).getLast? with
      | some a => val a
      | none => m k := by
  induction l using List.reverseRecOn with
  | nil => rfl
  | append_singleton l a ih =>
    rw [writes_concat, List.filter_append]
    by_cases hk : key a = k
    · rw [List.filter_cons_of_pos (by simpa using hk), List.filter_nil, List.getLast?_concat,
        ← hk, Function.update_self]
    · rw [List.filter_cons_of_neg (by simpa using hk), List.filter_nil, List.append_nil,
        Function.update_of_ne (Ne.symm hk)]
      exact ih

variable {p q : α → Bool}

/-- A key that some element of the second kind has is removed by two walks. -/
theorem writes_two_walks_removed (hremove : ∀ a, q a = true → val a = none) (m : κ → Option β)
    {l : List α} {a : α} (ha : a ∈ l) (hq : q a = true) :
    writes key val m (l.filter p ++ l.filter q) (key a) = none := by
  have hmem : a ∈ (l.filter q).filter fun c => key c = key a :=
    List.mem_filter.2 ⟨List.mem_filter.2 ⟨ha, hq⟩, by simp⟩
  rw [writes_apply, List.filter_append, List.getLast?_append]
  cases hlast : ((l.filter q).filter fun c => key c = key a).getLast? with
  | none =>
    rw [List.getLast?_eq_none_iff.1 hlast] at hmem
    cases hmem
  | some b =>
    have hb : q b = true :=
      (List.mem_filter.1 (List.mem_filter.1 (List.mem_of_getLast? hlast)).1).2
    exact hremove b hb

/-- For a key that no element of the second kind has, it does not matter how it is walked. -/
theorem writes_two_walks_kept (m : κ → Option β) {l : List α} {k : κ}
    (h : ∀ a ∈ l, q a = true → key a ≠ k) :
    writes key val m (l.filter p ++ l.filter q) k
      = writes key val m (l.filter fun a => p a || q a) k := by
  have hnone : (l.filter q).filter (fun a => key a = k) = [] := by
    rw [List.filter_eq_nil_iff]
    intro a ha
    obtain ⟨hmem, hq⟩ := List.mem_filter.1 ha
    simpa using h a hmem hq
  have hsame : (l.filter fun a => p a || q a).filter (fun a => key a = k)
      = (l.filter p).filter fun a => key a = k := by
    rw [List.filter_filter, List.filter_filter]
    refine List.filter_congr ?_
    intro a ha
    by_cases hk : key a = k
    · have hq : q a = false := Bool.eq_false_iff.2 fun hq => h a ha hq hk
      rw [hq, Bool.or_false]
    · rw [decide_eq_false hk, Bool.false_and, Bool.false_and]
  rw [writes_apply, writes_apply, List.filter_append, hnone, List.append_nil, hsame]

/-- Where the first kind sets and the second removes, two walks write what one walk for both
writes exactly if the last element of a key that was removed is of the second kind. -/
theorem writes_two_walks_iff (hset : ∀ a, p a = true → (val a).isSome = true)
    (hremove : ∀ a, q a = true → val a = none) (m : κ → Option β) (l : List α) :
    writes key val m (l.filter p ++ l.filter q)
        = writes key val m (l.filter fun a => p a || q a) ↔
      ∀ a ∈ l, q a = true → ∀ b,
        ((l.filter fun a => p a || q a).filter fun c => key c = key a).getLast? = some b →
          q b = true := by
  constructor
  · intro h a ha hq b hb
    -- the key of `a` is removed by the two walks, and written by `b` in the one
    have hone : writes key val m (l.filter fun a => p a || q a) (key a) = val b := by
      rw [writes_apply, hb]
    have hvalb : val b = none := by
      rw [← hone, ← congrFun h (key a)]
      exact writes_two_walks_removed key val hremove m ha hq
    have hkind := (List.mem_filter.1 (List.mem_filter.1 (List.mem_of_getLast? hb)).1).2
    rcases Bool.or_eq_true_iff.1 hkind with hp | hq
    · have hsome := hset b hp
      rw [hvalb] at hsome
      cases hsome
    · exact hq
  · intro h
    funext k
    by_cases hk : ∃ a ∈ l, q a = true ∧ key a = k
    · obtain ⟨a, ha, hq, rfl⟩ := hk
      have hmem : a ∈ (l.filter fun a => p a || q a).filter fun c => key c = key a :=
        List.mem_filter.2 ⟨List.mem_filter.2 ⟨ha, by rw [hq, Bool.or_true]⟩, by simp⟩
      rw [writes_two_walks_removed key val hremove m ha hq, writes_apply]
      cases hb : ((l.filter fun a => p a || q a).filter fun c => key c = key a).getLast? with
      | none =>
        rw [List.getLast?_eq_none_iff.1 hb] at hmem
        cases hmem
      | some b => exact (hremove b (h a ha hq b hb)).symm
    · refine writes_two_walks_kept key val m ?_
      intro a ha hq hak
      exact hk ⟨a, ha, hq, hak⟩

end Writes

/-! ## 5. Loops -/

section Loops

variable {σ ρ : Type*}

/-- A loop, given by one round of it: it goes on, or it is left with a result. -/
abbrev Round (σ ρ : Type*) := σ → σ ⊕ ρ

/-- At most `n` rounds. -/
def rounds (round : Round σ ρ) : ℕ → σ → Option ρ
  | 0, _ => none
  | n + 1, s =>
    match round s with
    | .inl s' => rounds round n s'
    | .inr r => some r

/-- The loop is left, with `r`. -/
def Ends (round : Round σ ρ) (s : σ) (r : ρ) : Prop := ∃ n, rounds round n s = some r

variable {round : Round σ ρ} {s s' : σ} {r r' : ρ}

example (s : σ) : rounds round 0 s = none := by rw [rounds]

theorem ends_of_left (h : round s = .inr r) : Ends round s r := ⟨1, by rw [rounds, h]⟩

theorem ends_of_next (h : round s = .inl s') : Ends round s r ↔ Ends round s' r := by
  constructor
  · rintro ⟨n, hn⟩
    cases n with
    | zero => cases hn
    | succ n =>
      rw [rounds, h] at hn
      exact ⟨n, hn⟩
  · rintro ⟨n, hn⟩
    exact ⟨n + 1, by rw [rounds, h]; exact hn⟩

/-- A loop that is left is left from a state in which what every round keeps still holds. -/
theorem Ends.left {I : σ → Prop} (h : Ends round s r) (hs : I s)
    (hI : ∀ s s', I s → round s = .inl s' → I s') : ∃ s', I s' ∧ round s' = .inr r := by
  obtain ⟨n, hn⟩ := h
  induction n generalizing s with
  | zero => cases hn
  | succ n ih =>
    rw [rounds] at hn
    cases hround : round s with
    | inl s' =>
      rw [hround] at hn
      exact ih (hI s s' hs hround) hn
    | inr r' =>
      rw [hround] at hn
      obtain rfl := Option.some.inj hn
      exact ⟨s, hs, hround⟩

/-- From a state with `I` a round goes on to another one, or leaves the loop with `J`. -/
def Keeps (round : Round σ ρ) (I : σ → Prop) (J : ρ → Prop) : Prop :=
  ∀ s, I s → (∃ s', round s = .inl s' ∧ I s') ∨ ∃ r, round s = .inr r ∧ J r

/-- What a loop is left with. -/
theorem Keeps.rounds {I : σ → Prop} {J : ρ → Prop} (h : Keeps round I J) {n : ℕ} (hs : I s)
    (hn : rounds round n s = some r) : J r := by
  induction n generalizing s with
  | zero => cases hn
  | succ n ih =>
    rw [Walking.rounds] at hn
    rcases h s hs with ⟨s', hround, hs'⟩ | ⟨r', hround, hr'⟩
    · rw [hround] at hn
      exact ih hs' hn
    · rw [hround] at hn
      rw [← Option.some.inj hn]
      exact hr'

/-- A loop with a measure that every round lowers is left after so many rounds. -/
theorem rounds_of_measure {I : σ → Prop} (μ : σ → ℕ)
    (hI : ∀ s s', I s → round s = .inl s' → I s' ∧ μ s' < μ s) {n : ℕ} (hs : I s) (hn : μ s < n) :
    ∃ r, rounds round n s = some r := by
  induction n generalizing s with
  | zero => exact absurd hn (Nat.not_lt_zero _)
  | succ n ih =>
    rw [rounds]
    cases hround : round s with
    | inl s' =>
      obtain ⟨hs', hlower⟩ := hI s s' hs hround
      exact ih hs' (by omega)
    | inr r => exact ⟨r, rfl⟩

/-- A loop whose rounds lower a measure, or leave it with `J`, is left with `J`. -/
theorem rounds_total {I : σ → Prop} {J : ρ → Prop} (μ : σ → ℕ)
    (h : ∀ s, I s → (∃ s', round s = .inl s' ∧ I s' ∧ μ s' < μ s) ∨ ∃ r, round s = .inr r ∧ J r)
    {n : ℕ} (hs : I s) (hn : μ s < n) : ∃ r, rounds round n s = some r ∧ J r := by
  induction n generalizing s with
  | zero => exact absurd hn (Nat.not_lt_zero _)
  | succ n ih =>
    rw [rounds]
    rcases h s hs with ⟨s', hround, hs', hless⟩ | ⟨r, hround, hr⟩
    · rw [hround]
      exact ih hs' (by omega)
    · rw [hround]
      exact ⟨r, rfl, hr⟩

/-- A loop that goes on with more than another one, and does with the rest of it what that one
does. -/
theorem rounds_map {σ' ρ' : Type*} {round' : Round σ' ρ'} (f : σ → σ') (g : ρ → ρ')
    (h : ∀ s, round' (f s) = (round s).map f g) (n : ℕ) (s : σ) :
    rounds round' n (f s) = (rounds round n s).map g := by
  induction n generalizing s with
  | zero => rfl
  | succ n ih =>
    rw [rounds, rounds, h]
    cases round s with
    | inl s' => exact ih s'
    | inr r => rfl

/-- A loop that can only go on is not left. -/
theorem not_ends {I : σ → Prop} (hs : I s) (hI : ∀ s, I s → ∃ s', round s = .inl s' ∧ I s') :
    ¬Ends round s r := by
  rintro ⟨n, hn⟩
  induction n generalizing s with
  | zero => cases hn
  | succ n ih =>
    obtain ⟨s', hround, hs'⟩ := hI s hs
    rw [rounds, hround] at hn
    exact ih hs' hn

end Loops

end Walking
