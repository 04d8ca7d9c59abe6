/-
The words of a list, and the pass that squeezes the blanks between them.

A word is a maximal run of elements that are not blank. `squeeze` goes over the list once: it
keeps every element that is not blank, puts one separator in the place of each run of blanks,
and drops the separator at the start and the one at the end. What it leaves is the words with
single separators between them (`squeeze_eq`), and to squeeze that again changes nothing
(`squeeze_squeeze`).

The pass is a fold whose state is what was kept and whether the last element was blank, so a
loop that does the same in place needs to be compared with one step of it.
-/
import Mathlib.Data.List.Infix
import Mathlib.Data.List.Chain

set_option autoImplicit false

namespace Words

section

variable {α : Type*} (p : α → Bool) (z : α)

/-! ## 1. Words -/

/-- The maximal runs of elements that are not blank. -/
noncomputable def words (l : List α) : List (List α) :=
  (l.splitOnP p).filter fun w => !w.isEmpty

/-- Words with single separators between them. -/
noncomputable def unwords (ws : List (List α)) : List α := [z].intercalate ws

/-- Words with a separator after each. -/
def terminated (ws : List (List α)) : List α := ws.flatMap fun w => w ++ [z]

/-- Runs that are not empty, of elements that are not blank. -/
def Proper (ws : List (List α)) : Prop := ∀ w ∈ ws, w ≠ [] ∧ ∀ a ∈ w, p a = false

variable {p z}

theorem words_nil : words p ([] : List α) = [] := by
  unfold words
  rw [List.splitOnP_nil]
  rfl

/-- A run alone is one word. -/
theorem words_run {w : List α} (hne : w ≠ []) (hw : ∀ a ∈ w, p a = false) :
    words p w = [w] := by
  unfold words
  rw [List.splitOnP_eq_singleton hw, List.filter_cons_of_pos (by simpa using hne),
    List.filter_nil]

/-- A blank parts the words before it from those after it. -/
theorem words_append_cons (l m : List α) {b : α} (hb : p b = true) :
    words p (l ++ b :: m) = words p l ++ words p m := by
  unfold words
  rw [List.splitOnP_append_cons l m hb, List.filter_append]

/-- A list starts with a run and then ends, or has a blank there. -/
theorem run_cases (l : List α) : (∀ a ∈ l, p a = false) ∨
    ∃ w b m, l = w ++ b :: m ∧ (∀ a ∈ w, p a = false) ∧ p b = true := by
  induction l with
  | nil => exact Or.inl nofun
  | cons a l ih =>
    cases ha : p a with
    | true => exact Or.inr ⟨[], a, l, rfl, nofun, ha⟩
    | false =>
      rcases ih with hall | ⟨w, b, m, rfl, hw, hb⟩
      · refine Or.inl fun x hx => ?_
        rcases List.mem_cons.1 hx with rfl | hx
        · exact ha
        · exact hall x hx
      · refine Or.inr ⟨a :: w, b, m, rfl, fun x hx => ?_, hb⟩
        rcases List.mem_cons.1 hx with rfl | hx
        · exact ha
        · exact hw x hx

theorem words_proper (l : List α) : Proper p (words p l) := by
  induction hn : l.length using Nat.strong_induction_on generalizing l with
  | _ n ih =>
    rcases run_cases (p := p) l with hall | ⟨w, b, m, rfl, hw, hb⟩
    · by_cases hne : l = []
      · rw [hne, words_nil]
        nofun
      · rw [words_run hne hall]
        intro w hw
        obtain rfl := List.mem_singleton.1 hw
        exact ⟨hne, hall⟩
    · have hm := ih m.length (by simp only [← hn, List.length_append, List.length_cons]; omega)
        m rfl
      have hrun : Proper p (words p w) := by
        by_cases hne : w = []
        · rw [hne, words_nil]
          nofun
        · rw [words_run hne hw]
          intro v hv
          obtain rfl := List.mem_singleton.1 hv
          exact ⟨hne, hw⟩
      rw [words_append_cons w m hb]
      intro v hv
      rcases List.mem_append.1 hv with hv | hv
      · exact hrun v hv
      · exact hm v hv

/-! ## 2. Separators -/

theorem terminated_append (ws vs : List (List α)) :
    terminated z (ws ++ vs) = terminated z ws ++ terminated z vs := List.flatMap_append

theorem terminated_singleton (w : List α) : terminated z [w] = w ++ [z] :=
  List.flatMap_singleton _ _

/-- The last word has no separator after it. -/
theorem unwords_concat (ws : List (List α)) (w : List α) :
    unwords z (ws ++ [w]) = terminated z ws ++ w := by
  unfold unwords terminated
  induction ws with
  | nil => exact List.intercalate_singleton
  | cons v ws ih =>
    rw [List.cons_append, List.intercalate_cons_of_ne_nil (by simp), ih, List.flatMap_cons]
    simp only [List.append_assoc]

theorem terminated_eq (ws : List (List α)) (hws : ws ≠ []) :
    terminated z ws = unwords z ws ++ [z] := by
  have hsplit := List.dropLast_append_getLast hws
  rw [← hsplit, unwords_concat, terminated_append, terminated_singleton, List.append_assoc]

/-- Without the separator at the end. -/
theorem dropLast_terminated (ws : List (List α)) :
    (terminated z ws).dropLast = unwords z ws := by
  by_cases hws : ws = []
  · rw [hws]
    rfl
  · rw [terminated_eq ws hws, List.dropLast_concat]

/-- Induction over words with separators between them. -/
theorem unwords_induction {motive : List (List α) → List α → Prop} (nil : motive [] [])
    (one : ∀ w, w ≠ [] → (∀ a ∈ w, p a = false) → motive [w] w)
    (cons : ∀ w ws, w ≠ [] → (∀ a ∈ w, p a = false) → Proper p ws → motive ws (unwords z ws) →
      motive (w :: ws) (w ++ z :: unwords z ws)) {ws : List (List α)} (h : Proper p ws) :
    motive ws (unwords z ws) := by
  induction ws with
  | nil => exact nil
  | cons w ws ih =>
    have hw := h w List.mem_cons_self
    have hws : Proper p ws := fun v hv => h v (List.mem_cons_of_mem _ hv)
    unfold unwords
    by_cases hne : ws = []
    · rw [hne, List.intercalate_singleton]
      exact one w hw.1 hw.2
    · rw [List.intercalate_cons_of_ne_nil hne, List.append_assoc, List.singleton_append]
      exact cons w ws hw.1 hw.2 hws (ih hws)

/-- The words of words with separators are those words. -/
theorem words_unwords (hsep : p z = true) {ws : List (List α)} (h : Proper p ws) :
    words p (unwords z ws) = ws := by
  refine unwords_induction (motive := fun ws l => words p l = ws) words_nil ?_ ?_ h
  · exact fun w hne hw => words_run hne hw
  · intro w ws hne hw _ ih
    rw [words_append_cons _ _ hsep, words_run hne hw, ih]
    rfl

/-- What stands in words with separators. -/
theorem mem_unwords {ws : List (List α)} (h : Proper p ws) {a : α}
    (ha : a ∈ unwords z ws) : a = z ∨ p a = false := by
  refine unwords_induction (motive := fun _ l => a ∈ l → a = z ∨ p a = false) nofun ?_ ?_ h ha
  · exact fun w _ hw ha => Or.inr (hw a ha)
  · intro w ws _ hw _ ih ha
    rcases List.mem_append.1 ha with ha | ha
    · exact Or.inr (hw a ha)
    · rcases List.mem_cons.1 ha with ha | ha
      · exact Or.inl ha
      · exact ih ha

/-- It starts with no blank. -/
theorem head_unwords {ws : List (List α)} (h : Proper p ws) :
    ∀ a ∈ (unwords z ws).head?, p a = false := by
  refine unwords_induction (motive := fun _ l => ∀ a ∈ l.head?, p a = false) nofun ?_ ?_ h
  · exact fun w _ hw a ha => hw a (List.mem_of_mem_head? ha)
  · intro w ws hne hw _ _ a ha
    rw [List.head?_append_of_ne_nil _ hne] at ha
    exact hw a (List.mem_of_mem_head? ha)

/-- It ends with no blank. -/
theorem getLast_unwords {ws : List (List α)} (h : Proper p ws) :
    ∀ a ∈ (unwords z ws).getLast?, p a = false := by
  by_cases hne : ws = []
  · rw [hne]
    nofun
  · have hsplit := List.dropLast_append_getLast hne
    have hlast := h _ (List.getLast_mem hne)
    rw [← hsplit, unwords_concat, List.getLast?_append_of_ne_nil _ hlast.1]
    exact fun a ha => hlast.2 a (List.mem_of_mem_getLast? ha)

/-- A run has no two blanks side by side. -/
theorem chain_of_run {w : List α} (hw : ∀ a ∈ w, p a = false) :
    w.IsChain fun a b => ¬(p a = true ∧ p b = true) := by
  induction w with
  | nil => exact List.IsChain.nil
  | cons a w ih =>
    rw [List.isChain_cons]
    refine ⟨fun b _ hab => ?_, ih fun x hx => hw x (List.mem_cons_of_mem _ hx)⟩
    rw [hw a List.mem_cons_self] at hab
    exact Bool.false_ne_true hab.1

/-- It has no two blanks side by side. -/
theorem chain_unwords {ws : List (List α)} (h : Proper p ws) :
    (unwords z ws).IsChain fun a b => ¬(p a = true ∧ p b = true) := by
  refine unwords_induction (motive := fun _ l => l.IsChain fun a b => ¬(p a = true ∧ p b = true))
    List.IsChain.nil ?_ ?_ h
  · exact fun w _ hw => chain_of_run hw
  · intro w ws _ hw hws ih
    rw [List.isChain_append]
    refine ⟨chain_of_run hw, ?_, fun a ha b _ hab => ?_⟩
    · -- what follows the separator is the start of the next word
      rw [List.isChain_cons]
      refine ⟨fun b hb hab => ?_, ih⟩
      rw [head_unwords (z := z) hws b hb] at hab
      exact Bool.false_ne_true hab.2
    · rw [hw a (List.mem_of_mem_getLast? ha)] at hab
      exact Bool.false_ne_true hab.1

/-! ## 3. The pass -/

variable (p z)

/-- One element: what was kept so far, and whether blanks are being dropped. -/
def pass (r : List α × Bool) (a : α) : List α × Bool :=
  if p a then (if r.2 then r else (r.1 ++ [z], true)) else (r.1 ++ [a], false)

/-- What is kept of a list, and whether blanks are being dropped at its end. -/
def kept (l : List α) : List α × Bool := l.foldl (pass p z) ([], true)

/-- The pass, and the separator at the end dropped. -/
def squeeze (l : List α) : List α :=
  if (kept p z l).2 then (kept p z l).1.dropLast else (kept p z l).1

variable {p z}

theorem kept_concat (l : List α) (a : α) :
    kept p z (l ++ [a]) = pass p z (kept p z l) a := by
  unfold kept
  rw [List.foldl_concat]

/-- The list ends with a blank, or it is empty. -/
def Parted (p : α → Bool) (m : List α) : Prop := ∀ b ∈ m.getLast?, p b = true

theorem parted_concat {l : List α} {b : α} (hb : p b = true) : Parted p (l ++ [b]) := by
  intro x hx
  rw [List.getLast?_concat] at hx
  obtain rfl := Option.some.inj hx
  exact hb

theorem words_concat_blank (l : List α) {b : α} (hb : p b = true) :
    words p (l ++ [b]) = words p l := by
  rw [words_append_cons l [] hb, words_nil, List.append_nil]

/-- After a blank there starts a new word. -/
theorem words_append_run {m w : List α} (hm : Parted p m) (hne : w ≠ [])
    (hw : ∀ a ∈ w, p a = false) : words p (m ++ w) = words p m ++ [w] := by
  rcases List.eq_nil_or_concat m with rfl | ⟨m, b, rfl⟩
  · rw [List.nil_append, words_nil, words_run hne hw]
    rfl
  · rw [List.concat_eq_append] at hm ⊢
    have hb : p b = true := hm b (by rw [List.getLast?_concat]; rfl)
    rw [words_concat_blank m hb, List.append_assoc, List.singleton_append,
      words_append_cons m w hb, words_run hne hw]

/-- Either every word has its separator, or the list ends with a word that has none. -/
theorem kept_cases (l : List α) :
    (Parted p l ∧ kept p z l = (terminated z (words p l), true)) ∨
    ∃ m w, l = m ++ w ∧ Parted p m ∧ w ≠ [] ∧ (∀ a ∈ w, p a = false) ∧
      kept p z l = (terminated z (words p m) ++ w, false) := by
  induction l using List.reverseRecOn with
  | nil =>
    refine Or.inl ⟨nofun, ?_⟩
    rw [words_nil]
    rfl
  | append_singleton l a ih =>
    rw [kept_concat]
    cases ha : p a with
    | true =>
      refine Or.inl ⟨parted_concat ha, ?_⟩
      rw [words_concat_blank l ha]
      rcases ih with ⟨-, heq⟩ | ⟨m, w, rfl, hm, hne, hw, heq⟩
      · rw [heq]
        simp only [pass, ha, if_true]
      · -- the word that ends here gets its separator
        rw [heq, words_append_run hm hne hw, terminated_append, terminated_singleton]
        simp only [pass, ha, if_true, Bool.false_eq_true, if_false, List.append_assoc]
    | false =>
      have hone : ∀ x ∈ [a], p x = false := fun x hx => List.mem_singleton.1 hx ▸ ha
      rcases ih with ⟨hl, heq⟩ | ⟨m, w, rfl, hm, hne, hw, heq⟩
      · refine Or.inr ⟨l, [a], rfl, hl, List.cons_ne_nil _ _, hone, ?_⟩
        rw [heq]
        simp only [pass, ha, Bool.false_eq_true, if_false]
      · refine Or.inr ⟨m, w ++ [a], by rw [List.append_assoc], hm, by simp, ?_, ?_⟩
        · intro x hx
          rcases List.mem_append.1 hx with hx | hx
          · exact hw x hx
          · exact hone x hx
        · rw [heq]
          simp only [pass, ha, Bool.false_eq_true, if_false, List.append_assoc]

/-- What the pass leaves is the words with single separators between them. -/
theorem squeeze_eq (l : List α) : squeeze p z l = unwords z (words p l) := by
  unfold squeeze
  rcases kept_cases (p := p) (z := z) l with ⟨-, heq⟩ | ⟨m, w, rfl, hm, hne, hw, heq⟩
  · simp only [heq, if_true]
    exact dropLast_terminated _
  · simp only [heq, Bool.false_eq_true, if_false]
    rw [words_append_run hm hne hw, unwords_concat]

/-- To squeeze again changes nothing. -/
theorem squeeze_squeeze (hsep : p z = true) (l : List α) :
    squeeze p z (squeeze p z l) = squeeze p z l := by
  rw [squeeze_eq, squeeze_eq, words_unwords hsep (words_proper l)]

/-! ## 4. Lengths -/

/-- One element adds one element at most. -/
theorem length_pass_le (r : List α × Bool) (a : α) :
    (pass p z r a).1.length ≤ r.1.length + 1 := by
  unfold pass
  split
  · split
    · omega
    · simp
  · simp

theorem length_le_pass (r : List α × Bool) (a : α) :
    r.1.length ≤ (pass p z r a).1.length := by
  unfold pass
  split
  · split
    · exact le_rfl
    · simp
  · simp

/-- No more is kept than there is. -/
theorem length_kept_le (l : List α) : (kept p z l).1.length ≤ l.length := by
  induction l using List.reverseRecOn with
  | nil => exact le_rfl
  | append_singleton l a ih =>
    rw [kept_concat, List.length_append, List.length_singleton]
    have hpass := length_pass_le (p := p) (z := z) (kept p z l) a
    omega

/-- What is kept grows. -/
theorem length_kept_mono (l m : List α) :
    (kept p z l).1.length ≤ (kept p z (l ++ m)).1.length := by
  induction m using List.reverseRecOn with
  | nil => rw [List.append_nil]
  | append_singleton m a ih =>
    rw [← List.append_assoc, kept_concat]
    exact ih.trans (length_le_pass _ a)

/-- What the pass leaves is what it kept, or less. -/
theorem length_squeeze_le (l : List α) :
    (squeeze p z l).length ≤ (kept p z l).1.length := by
  unfold squeeze
  split
  · rw [List.length_dropLast]
    omega
  · exact le_rfl

/-- Of a squeezed list all is kept. -/
theorem kept_squeeze (hsep : p z = true) (l : List α) :
    (kept p z (squeeze p z l)).1 = squeeze p z l := by
  have hagain := squeeze_squeeze hsep l
  have hlast := getLast_unwords (z := z) (words_proper (p := p) l)
  rw [← squeeze_eq] at hlast
  generalize squeeze p z l = r at hagain hlast ⊢
  rcases kept_cases (p := p) (z := z) r with ⟨hr, -⟩ | ⟨m, w, -, -, -, -, heq⟩
  · -- only the empty list ends with a p and with none
    cases hlast? : r.getLast? with
    | none =>
      rw [List.getLast?_eq_none_iff] at hlast?
      rw [hlast?]
      rfl
    | some b =>
      have htrue := hr b hlast?
      rw [hlast b hlast?] at htrue
      cases htrue
  · unfold squeeze at hagain
    rwa [heq, if_neg Bool.false_ne_true, ← heq] at hagain

end

end Words
