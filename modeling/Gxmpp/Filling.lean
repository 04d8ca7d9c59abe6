/-
Filling a buffer from a source, piece by piece, for as long as the pieces fit.

The loop reads its source by position and writes its buffer by position: a turn stops it, or
puts a piece and says where to read on. What is written is kept with its places, so that what
lies outside of a buffer can be seen. `loop_eq` says what the loop writes: the pieces of the
source, which do not depend on the buffer, up to the first that does not fit (`fitting`). A code
is then a way to cut a source into pieces, and two codes are inverse if the pieces of the one
are cut into what they came from by the other (`pieces_flatMap`).
-/
import Gxmpp.Walking

set_option autoImplicit false

namespace Filling

variable {α β ι : Type*}

/-! ## 1. What is written -/

/-- What was written at which place, and the place of the next. -/
structure Output (α : Type*) where
  writes : List (α × ℕ)
  pos : ℕ

def Output.empty : Output α := ⟨[], 0⟩

def Output.put (o : Output α) (a : α) : Output α := ⟨o.writes ++ [(a, o.pos)], o.pos + 1⟩

def Output.append (o : Output α) (l : List α) : Output α := l.foldl Output.put o

/-- What stands at a place after some writes. -/
def stands (writes : List (α × ℕ)) (i : ℕ) : Option α :=
  (writes.reverse.find? fun w => w.2 = i).map Prod.fst

/-- What stands at the first places. -/
def contents (writes : List (α × ℕ)) (n : ℕ) : List α := (List.range n).filterMap (stands writes)

/-- One after the other. -/
def Output.of (l : List α) : Output α := ⟨l.zipIdx, l.length⟩

theorem put_of (l : List α) (a : α) : (Output.of l).put a = Output.of (l ++ [a]) := by
  simp [Output.of, Output.put, List.zipIdx_append]

theorem append_of (l m : List α) : (Output.of l).append m = Output.of (l ++ m) := by
  induction m generalizing l with
  | nil => rw [List.append_nil]; rfl
  | cons a m ih =>
    have hstep : (Output.of l).append (a :: m) = ((Output.of l).put a).append m := rfl
    rw [hstep, put_of, ih, List.append_assoc, List.singleton_append]

theorem stands_concat_ne (writes : List (α × ℕ)) (a : α) {i j : ℕ} (h : j ≠ i) :
    stands (writes ++ [(a, j)]) i = stands writes i := by
  unfold stands
  rw [List.reverse_append, List.reverse_singleton, List.singleton_append, List.find?_cons_of_neg]
  simpa using h

theorem stands_concat_self (writes : List (α × ℕ)) (a : α) (i : ℕ) :
    stands (writes ++ [(a, i)]) i = some a := by
  unfold stands
  rw [List.reverse_append, List.reverse_singleton, List.singleton_append,
    List.find?_cons_of_pos (by simp)]
  rfl

theorem stands_zipIdx (l : List α) (i : ℕ) : stands l.zipIdx i = l[i]? := by
  induction l using List.reverseRecOn with
  | nil => rfl
  | append_singleton l a ih =>
    rw [List.zipIdx_append, Nat.zero_add, List.zipIdx_singleton]
    by_cases hi : l.length = i
    · rw [hi, stands_concat_self, ← hi, List.getElem?_concat_length]
    · rw [stands_concat_ne _ _ hi, ih]
      rcases Nat.lt_or_gt_of_ne hi with hlt | hgt
      · have hbeyond : (l ++ [a]).length ≤ i := by
          rw [List.length_append, List.length_singleton]
          exact hlt
        rw [List.getElem?_eq_none (Nat.le_of_lt hlt), List.getElem?_eq_none hbeyond]
      · rw [List.getElem?_append_left hgt]

theorem filterMap_getElem (l : List α) : (List.range l.length).filterMap (l[·]?) = l := by
  induction l using List.reverseRecOn with
  | nil => rfl
  | append_singleton l a ih =>
    have hleft : ∀ i ∈ List.range l.length, (l ++ [a])[i]? = l[i]? := fun i hi =>
      List.getElem?_append_left (List.mem_range.1 hi)
    rw [List.length_append, List.length_singleton, List.range_succ, List.filterMap_append,
      List.filterMap_congr hleft, ih]
    simp

/-- What was written one after the other, with a last write behind it. -/
theorem contents_of (l : List α) (z : α) :
    contents ((Output.of l).put z).writes (Output.of l).pos = l := by
  have hstands : ∀ i ∈ List.range l.length, stands (l.zipIdx ++ [(z, l.length)]) i = l[i]? := by
    intro i hi
    rw [stands_concat_ne _ _ (Nat.ne_of_gt (List.mem_range.1 hi)), stands_zipIdx]
  show (List.range l.length).filterMap (stands (l.zipIdx ++ [(z, l.length)])) = l
  rw [List.filterMap_congr hstands, filterMap_getElem]

/-! ## 2. Pieces -/

/-- The pieces of a source: `next` gives the first one and how much of the source it takes. -/
def pieces (next : List β → Option (List α × ℕ)) : ℕ → List β → List (List α)
  | 0, _ | _ + 1, [] => []
  | n + 1, b :: s =>
    match next (b :: s) with
    | some (p, k) => p :: pieces next n ((b :: s).drop k)
    | none => []

/-- The pieces up to the first that does not fit. -/
def fitting (fits : ℕ → List α → Bool) : ℕ → List (List α) → List (List α)
  | _, [] => []
  | pos, p :: ps => if fits pos p then p :: fitting fits (pos + p.length) ps else []

/-- A piece with a place behind it. -/
def strictly (buflen pos : ℕ) (p : List α) : Bool := pos + 1 < buflen && pos + p.length < buflen

section Pieces

variable {next : List β → Option (List α × ℕ)} {fits : ℕ → List α → Bool}

theorem pieces_nil (n : ℕ) : pieces next n [] = [] := by
  cases n <;> rfl

variable {n buflen pos : ℕ}

theorem pieces_of_some {s : List β} {p : List α} {k : ℕ} (hs : s ≠ []) (h : next s = some (p, k)) :
    pieces next (n + 1) s = p :: pieces next n (s.drop k) := by
  obtain ⟨b, s, rfl⟩ := List.exists_cons_of_ne_nil hs
  rw [pieces, h]

theorem pieces_of_none {s : List β} (h : next s = none) : pieces next n s = [] := by
  rcases n with _ | n
  · rfl
  · rcases s with _ | ⟨b, s⟩
    · rfl
    · rw [pieces, h]

/-- Enough turns are enough. -/
theorem pieces_fuel (hnext : ∀ s p k, next s = some (p, k) → 0 < k) {m : ℕ} {s : List β}
    (hn : s.length ≤ n) (hm : s.length ≤ m) : pieces next n s = pieces next m s := by
  induction n generalizing m s with
  | zero =>
    obtain rfl := List.length_eq_zero_iff.1 (Nat.le_zero.1 hn)
    rw [pieces_nil, pieces_nil]
  | succ n ih =>
    rcases s with _ | ⟨b, s⟩
    · rw [pieces_nil, pieces_nil]
    obtain ⟨m, rfl⟩ := Nat.exists_eq_succ_of_ne_zero
      (Nat.ne_of_gt (Nat.lt_of_lt_of_le (Nat.succ_pos _) hm))
    cases h : next (b :: s) with
    | none => rw [pieces_of_none h, pieces_of_none h]
    | some pk =>
      obtain ⟨p, k⟩ := pk
      have hk := hnext _ _ _ h
      rw [pieces_of_some (by simp) h, pieces_of_some (by simp) h]
      rw [List.length_cons] at hn hm
      rw [ih (m := m) (by rw [List.length_drop, List.length_cons]; omega)
        (by rw [List.length_drop, List.length_cons]; omega)]

/-- The pieces of what a list is written as, one part for each element, and of what follows. -/
theorem pieces_flatMap_append (hpos : ∀ s p k, next s = some (p, k) → 0 < k)
    {written : ι → List β} {piece : ι → List α} {l : List ι} (hne : ∀ i ∈ l, written i ≠ [])
    (hnext : ∀ i ∈ l, ∀ t, next (written i ++ t) = some (piece i, (written i).length))
    {t : List β} (hn : (l.flatMap written ++ t).length ≤ n) :
    pieces next n (l.flatMap written ++ t) = l.map piece ++ pieces next t.length t := by
  induction l generalizing n with
  | nil => exact pieces_fuel hpos hn (Nat.le_refl _)
  | cons i l ih =>
    have hi := hne i List.mem_cons_self
    have hlength := List.length_pos_of_ne_nil hi
    rw [List.flatMap_cons, List.append_assoc, List.length_append] at hn
    obtain ⟨n, rfl⟩ := Nat.exists_eq_succ_of_ne_zero (show n ≠ 0 by omega)
    rw [List.flatMap_cons, List.append_assoc,
      pieces_of_some (List.append_ne_nil_of_left_ne_nil hi _) (hnext i List.mem_cons_self _),
      List.drop_left, List.map_cons, List.cons_append,
      ih (fun j hj => hne j (List.mem_cons_of_mem _ hj))
        (fun j hj => hnext j (List.mem_cons_of_mem _ hj)) (by omega)]

theorem pieces_flatMap (hpos : ∀ s p k, next s = some (p, k) → 0 < k) {written : ι → List β}
    {piece : ι → List α} {l : List ι} (hne : ∀ i ∈ l, written i ≠ [])
    (hnext : ∀ i ∈ l, ∀ t, next (written i ++ t) = some (piece i, (written i).length))
    (hn : (l.flatMap written).length ≤ n) : pieces next n (l.flatMap written) = l.map piece := by
  have hlength : (l.flatMap written ++ []).length ≤ n := (List.append_nil _).symm ▸ hn
  have hall := pieces_flatMap_append hpos hne hnext hlength
  rwa [List.append_nil, pieces_nil, List.append_nil] at hall

/-- The first pieces come from the first parts of the source. -/
theorem exists_parts (written : ι → List β) {piece : ι → List α} {ok : ι → Prop}
    (hnext : ∀ s p k, next s = some (p, k) →
      ∃ i, ok i ∧ s = written i ++ s.drop k ∧ piece i = p) {s : List β} {ps : List (List α)}
    (h : ps <+: pieces next n s) :
    ∃ (l : List ι) (t : List β), (∀ i ∈ l, ok i) ∧
      s = l.flatMap written ++ t ∧ l.map piece = ps := by
  induction ps generalizing n s with
  | nil => exact ⟨[], s, by simp, rfl, rfl⟩
  | cons p ps ih =>
    rcases n with _ | n
    · exact absurd (List.prefix_nil.1 h) (List.cons_ne_nil _ _)
    rcases s with _ | ⟨b, s⟩
    · exact absurd (List.prefix_nil.1 h) (List.cons_ne_nil _ _)
    cases hn : next (b :: s) with
    | none =>
      rw [pieces_of_none hn] at h
      exact absurd (List.prefix_nil.1 h) (List.cons_ne_nil _ _)
    | some pk =>
      obtain ⟨q, k⟩ := pk
      rw [pieces_of_some (by simp) hn] at h
      obtain ⟨rfl, hrest⟩ := List.cons_prefix_cons.1 h
      obtain ⟨i, hok, hs, hi⟩ := hnext _ _ _ hn
      obtain ⟨l, t, hl, hdrop, hmap⟩ := ih hrest
      refine ⟨i :: l, t, ?_, ?_, ?_⟩
      · intro j hj
        rcases List.mem_cons.1 hj with rfl | hj
        · exact hok
        · exact hl j hj
      · rw [List.flatMap_cons, List.append_assoc, ← hdrop]
        exact hs
      · rw [List.map_cons, hi, hmap]

/-- What holds of every piece that may come. -/
theorem forall_pieces {P : List α → Prop} (h : ∀ s p k, next s = some (p, k) → P p) (n : ℕ)
    (s : List β) : ∀ p ∈ pieces next n s, P p := by
  induction n generalizing s with
  | zero => exact fun p hp => absurd hp List.not_mem_nil
  | succ n ih =>
    rcases s with _ | ⟨b, s⟩
    · exact fun p hp => absurd hp List.not_mem_nil
    intro p hp
    unfold pieces at hp
    split at hp
    · next q k hnext =>
        rcases List.mem_cons.1 hp with rfl | hp
        · exact h _ _ _ hnext
        · exact ih _ p hp
    · cases hp

theorem fitting_prefix (fits : ℕ → List α → Bool) (pos : ℕ) (ps : List (List α)) : fitting fits pos ps <+: ps := by
  induction ps generalizing pos with
  | nil => exact List.prefix_refl []
  | cons p ps ih =>
    unfold fitting
    split
    · exact List.prefix_cons_inj p |>.2 (ih _)
    · exact List.nil_prefix

theorem strictly_iff {p : List α} :
    strictly buflen pos p = true ↔ pos + 1 < buflen ∧ pos + p.length < buflen := by
  unfold strictly
  rw [Bool.and_eq_true, decide_eq_true_eq, decide_eq_true_eq]

theorem length_fitting_lt (h : pos < buflen) (ps : List (List α)) :
    pos + (fitting (strictly buflen) pos ps).flatten.length < buflen := by
  induction ps generalizing pos with
  | nil => exact h
  | cons p ps ih =>
    unfold fitting
    split
    · next hfits =>
        have hmore := ih (strictly_iff.1 hfits).2
        rw [List.flatten_cons, List.length_append]
        omega
    · exact h

/-- A piece that may fill the buffer, though there has to be a place more when it is started. -/
def loosely (buflen pos : ℕ) (p : List α) : Bool := pos + 1 < buflen && pos + p.length ≤ buflen

theorem loosely_iff {p : List α} :
    loosely buflen pos p = true ↔ pos + 1 < buflen ∧ pos + p.length ≤ buflen := by
  unfold loosely
  rw [Bool.and_eq_true, decide_eq_true_eq, decide_eq_true_eq]

theorem loosely_of_strictly {p : List α} (h : strictly buflen pos p = true) :
    loosely buflen pos p = true :=
  loosely_iff.2 ⟨(strictly_iff.1 h).1, Nat.le_of_lt (strictly_iff.1 h).2⟩

/-- In a buffer with a place more than enough all pieces fit. -/
theorem fitting_all (hfits : ∀ pos p, strictly buflen pos p = true → fits pos p = true)
    {ps : List (List α)} (hne : ∀ p ∈ ps, p ≠ []) (h : pos + ps.flatten.length < buflen) :
    fitting fits pos ps = ps := by
  induction ps generalizing pos with
  | nil => rfl
  | cons p ps ih =>
    have hp := List.length_pos_of_ne_nil (hne p List.mem_cons_self)
    rw [List.flatten_cons, List.length_append] at h
    rw [fitting, if_pos (hfits _ _ (strictly_iff.2 ⟨by omega, by omega⟩)),
      ih (fun q hq => hne q (List.mem_cons_of_mem _ hq)) (by omega)]

theorem length_fitting_le (h : pos ≤ buflen) (ps : List (List α)) :
    pos + (fitting (loosely buflen) pos ps).flatten.length ≤ buflen := by
  induction ps generalizing pos with
  | nil => exact h
  | cons p ps ih =>
    unfold fitting
    split
    · next hfits =>
        have hmore := ih (loosely_iff.1 hfits).2
        rw [List.flatten_cons, List.length_append]
        omega
    · exact h

/-- The buffer is filled to its end by a piece of more than one. -/
theorem full_iff (h : pos < buflen) (ps : List (List α)) :
    pos + (fitting (loosely buflen) pos ps).flatten.length = buflen
      ↔ ∃ qs q, qs ++ [q] <+: ps ∧ pos + (qs ++ [q]).flatten.length = buflen ∧ 2 ≤ q.length := by
  induction ps generalizing pos with
  | nil =>
    constructor
    · intro hfull
      exact absurd hfull (Nat.ne_of_lt h)
    · rintro ⟨qs, q, hpre, -, -⟩
      exact absurd (List.prefix_nil.1 hpre) (by simp)
  | cons p ps ih =>
    unfold fitting
    by_cases hfits : loosely buflen pos p = true
    · obtain ⟨hroom, hle⟩ := loosely_iff.1 hfits
      rw [if_pos hfits, List.flatten_cons, List.length_append, ← Nat.add_assoc]
      rcases Nat.lt_or_eq_of_le hle with hlt | heq
      · rw [ih hlt]
        constructor
        · rintro ⟨qs, q, hpre, hlength, hq⟩
          refine ⟨p :: qs, q, List.prefix_cons_inj p |>.2 hpre, ?_, hq⟩
          rw [List.cons_append, List.flatten_cons, List.length_append]
          omega
        · rintro ⟨qs, q, hpre, hlength, hq⟩
          rcases qs with _ | ⟨r, qs⟩
          · obtain ⟨rfl, -⟩ := List.cons_prefix_cons.1 hpre
            simp only [List.nil_append, List.flatten_cons, List.flatten_nil,
              List.append_nil] at hlength
            omega
          · obtain ⟨rfl, hmore⟩ := List.cons_prefix_cons.1 hpre
            refine ⟨qs, q, hmore, ?_, hq⟩
            rw [List.cons_append, List.flatten_cons, List.length_append] at hlength
            omega
      · -- this piece fills it
        have hmost := length_fitting_le (Nat.le_of_eq heq) ps
        have hfull :
            pos + p.length + (fitting (loosely buflen) (pos + p.length) ps).flatten.length
              = buflen := by omega
        refine iff_of_true hfull ⟨[], p, List.prefix_cons_inj p |>.2 List.nil_prefix, ?_, ?_⟩
        · simpa using heq
        · omega
    · rw [if_neg hfits]
      refine iff_of_false (Nat.ne_of_lt h) ?_
      rintro ⟨qs, q, hpre, hlength, hq⟩
      apply hfits
      rw [loosely_iff]
      rcases qs with _ | ⟨r, qs⟩
      · obtain ⟨rfl, -⟩ := List.cons_prefix_cons.1 hpre
        simp only [List.nil_append, List.flatten_cons, List.flatten_nil,
          List.append_nil] at hlength
        omega
      · obtain ⟨rfl, -⟩ := List.cons_prefix_cons.1 hpre
        simp only [List.cons_append, List.flatten_cons, List.flatten_append, List.flatten_nil,
          List.append_nil, List.length_append] at hlength
        omega

end Pieces

/-! ## 3. The loop -/

/-- A turn of the loop: it is left, or a piece is put and the source is read on from there. -/
inductive Turn (α : Type*) where
  | stop
  | put (piece : List α) (srcpos : ℕ)

/-- A round, at a place of the source. -/
def round (srclen buflen : ℕ) (turn : ℕ → ℕ → Turn α) :
    Walking.Round (ℕ × Output α) (Output α) := fun (srcpos, out) =>
  if srcpos < srclen ∧ out.pos + 1 < buflen then
    match turn srcpos out.pos with
    | .stop => .inr out
    | .put piece srcpos' => .inl (srcpos', out.append piece)
  else .inr out

/-- The loop; a turn reads on, so there are no more than there are places in the source. -/
def loop (srclen buflen : ℕ) (turn : ℕ → ℕ → Turn α) : Option (Output α) :=
  Walking.rounds (round srclen buflen turn) (srclen + 1) (0, .empty)

/-- The turn that puts a piece, if there is one and it fits. -/
def turnOf (fits : ℕ → List α → Bool) (srcpos pos : ℕ) : Option (List α × ℕ) → Turn α
  | some (p, k) => if fits pos p then .put p (srcpos + k) else .stop
  | none => .stop

/-- The turn is the next piece, if that fits. -/
def Cuts (source : List β) (buflen : ℕ) (turn : ℕ → ℕ → Turn α)
    (next : List β → Option (List α × ℕ)) (fits : ℕ → List α → Bool) : Prop :=
  ∀ srcpos pos, srcpos < source.length → pos + 1 < buflen →
    turn srcpos pos = turnOf fits srcpos pos (next (source.drop srcpos))

/-- The loop writes the pieces of its source for as long as they fit. -/
theorem loop_eq {source : List β} {buflen : ℕ} {turn : ℕ → ℕ → Turn α}
    {next : List β → Option (List α × ℕ)} {fits : ℕ → List α → Bool}
    (hnext : ∀ s p k, next s = some (p, k) → 0 < k)
    (hfits : ∀ pos p, fits pos p = true → pos + 1 < buflen)
    (hturn : Cuts source buflen turn next fits) :
    loop source.length buflen turn
      = some (.of (fitting fits 0 (pieces next source.length source)).flatten) := by
  have hrun : ∀ n srcpos (done : List α), (source.drop srcpos).length ≤ n →
      Walking.rounds (round source.length buflen turn) (n + 1) (srcpos, .of done)
        = some (.of (done ++
          (fitting fits done.length (pieces next n (source.drop srcpos))).flatten)) := by
    intro n
    induction n with
    | zero =>
      intro srcpos done hn
      rw [List.length_drop] at hn
      have hround : round source.length buflen turn (srcpos, .of done) = .inr (.of done) :=
        if_neg (by omega)
      rw [Walking.rounds, hround]
      simp [pieces, fitting]
    | succ n ih =>
      intro srcpos done hn
      rw [Walking.rounds]
      by_cases hgoes : srcpos < source.length ∧ done.length + 1 < buflen
      · have hne : source.drop srcpos ≠ [] := by
          rw [Ne, List.drop_eq_nil_iff]
          omega
        have hround : round source.length buflen turn (srcpos, .of done)
            = match turn srcpos done.length with
              | .stop => .inr (.of done)
              | .put piece srcpos' => .inl (srcpos', (Output.of done).append piece) :=
          if_pos hgoes
        rw [hround, hturn srcpos done.length hgoes.1 hgoes.2]
        cases h : next (source.drop srcpos) with
        | none =>
          rw [pieces_of_none h]
          simp [fitting, turnOf]
        | some pk =>
          obtain ⟨p, k⟩ := pk
          have hk := hnext _ _ _ h
          rw [pieces_of_some hne h, fitting, turnOf]
          by_cases hfit : fits done.length p = true
          · rw [if_pos hfit, if_pos hfit]
            dsimp only
            rw [append_of, ih (srcpos + k) (done ++ p)
              (by rw [List.length_drop] at hn ⊢; omega), List.length_append, List.flatten_cons,
              List.append_assoc, List.drop_drop]
          · rw [if_neg hfit, if_neg hfit]
            simp
      · have hround : round source.length buflen turn (srcpos, .of done) = .inr (.of done) :=
          if_neg hgoes
        rw [hround]
        dsimp only
        rcases hp : pieces next (n + 1) (source.drop srcpos) with _ | ⟨p, ps⟩
        · simp [fitting]
        · have hfull : ¬ fits done.length p = true := by
            intro hfit
            have hroom := hfits _ _ hfit
            have hend : source.drop srcpos = [] := List.drop_eq_nil_of_le (by omega)
            rw [hend, pieces_nil] at hp
            cases hp
          rw [fitting, if_neg hfull]
          simp
  exact hrun source.length 0 [] (by simp)

end Filling
