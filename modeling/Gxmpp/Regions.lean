/-
Regions of a store: cells whose pointers do not lead out of them.

A program that is given pointers into a region changes no cell outside it, and the region with
the cells that were taken since is one again (`Within`). Nothing is asked of the shape of what is
in the region, so this holds of chains that are in no order as well.

So two regions that have no cell in common have none in common whatever is done in either, and
what is done in one leaves the cells of the other as they are (`Apart.step`).
-/
import Gxmpp.Linked

set_option autoImplicit false

namespace Linked

section

variable {α β γ : Type} (ptrs : α → List ℕ)

/-! ## 1. Regions -/

/-- The pointers in a cell. -/
def Node.pointers (n : Node α) : List ℕ := n.next.toList ++ ptrs n.value

/-- Cells whose pointers do not lead out of them. -/
structure Closed (h : Store α) (A : Set ℕ) : Prop where
  lt : ∀ a ∈ A, a < h.length
  pointers : ∀ a ∈ A, ∀ n, h.read a = some n → ∀ p ∈ n.pointers ptrs, p ∈ A

/-- A region with the cells that were taken since. -/
def grown (A : Set ℕ) (h h' : Store α) : Set ℕ := {a | a ∈ A ∨ h.length ≤ a ∧ a < h'.length}

/-- What was done was done in the region. -/
structure Confined (A : Set ℕ) (h h' : Store α) : Prop where
  le : h.length ≤ h'.length
  outside : ∀ a < h.length, a ∉ A → h'.read a = h.read a
  closed : Closed ptrs h' (grown A h h')

/-- A program that stays in a region; `Q` is about its result and the region after it. -/
def Within (A : Set ℕ) (m : Mem α β) (Q : β → Set ℕ → Prop) : Prop :=
  ∀ h v h', Closed ptrs h A → m h = some (v, h') → Confined ptrs A h h' ∧ Q v (grown A h h')

theorem grown_self (A : Set ℕ) (h : Store α) : grown A h h = A := by
  ext a
  constructor
  · rintro (ha | ⟨hle, hlt⟩)
    · exact ha
    · omega
  · exact .inl

theorem grown_grown (A : Set ℕ) {h h' h'' : Store α} (hle : h.length ≤ h'.length)
    (hle' : h'.length ≤ h''.length) : grown (grown A h h') h' h'' = grown A h h'' := by
  ext a
  constructor
  · rintro ((ha | ⟨hge, hlt⟩) | ⟨hge, hlt⟩)
    · exact .inl ha
    · exact .inr ⟨hge, by omega⟩
    · exact .inr ⟨by omega, hlt⟩
  · rintro (ha | ⟨hge, hlt⟩)
    · exact .inl (.inl ha)
    · rcases Nat.lt_or_ge a h'.length with hlt' | hge'
      · exact .inl (.inr ⟨hge, hlt'⟩)
      · exact .inr ⟨hge', hlt⟩

variable {ptrs}

theorem Confined.refl {A : Set ℕ} {h : Store α} (hA : Closed ptrs h A) : Confined ptrs A h h :=
  ⟨le_rfl, fun _ _ _ => rfl, by rwa [grown_self]⟩

theorem Confined.trans {A : Set ℕ} {h h' h'' : Store α} (hc : Confined ptrs A h h')
    (hc' : Confined ptrs (grown A h h') h' h'') : Confined ptrs A h h'' := by
  refine ⟨hc.le.trans hc'.le, fun a ha hnot => ?_, ?_⟩
  · rw [hc'.outside a (lt_of_lt_of_le ha hc.le), hc.outside a ha hnot]
    rintro (hmem | ⟨hge, -⟩)
    · exact hnot hmem
    · omega
  · rw [← grown_grown A hc.le hc'.le]
    exact hc'.closed

/-- A change of one cell of a region. -/
theorem Confined.set {A : Set ℕ} {h : Store α} (hA : Closed ptrs h A) {a : ℕ} (ha : a ∈ A)
    {c : Option (Node α)} (hc : ∀ n, c = some n → ∀ p ∈ n.pointers ptrs, p ∈ A) :
    Confined ptrs A h (h.set a c) := by
  have hlen : (h.set a c).length = h.length := List.length_set
  have hread := Store.read_set h (hA.lt a ha) c
  refine ⟨hlen.ge, fun b _ hb => ?_, ?_⟩
  · rw [hread, if_neg]
    rintro rfl
    exact hb ha
  · have hgrown : grown A h (h.set a c) = A := by
      rw [grown, hlen]
      exact grown_self A h
    rw [hgrown]
    refine ⟨fun b hb => hlen ▸ hA.lt b hb, fun b hb n hn => ?_⟩
    rw [hread] at hn
    by_cases hba : b = a
    · rw [if_pos hba] at hn
      exact hc n hn
    · rw [if_neg hba] at hn
      exact hA.pointers b hb n hn

/-- A new cell. -/
theorem Confined.push {A : Set ℕ} {h : Store α} (hA : Closed ptrs h A) {n : Node α}
    (hn : ∀ p ∈ n.pointers ptrs, p ∈ A) : Confined ptrs A h (h ++ [some n]) := by
  have hlen : (h ++ [some n]).length = h.length + 1 := by simp
  refine ⟨by omega, fun a ha _ => Store.read_append_of_lt h _ ha, ⟨?_, ?_⟩⟩
  · rintro a (ha | ⟨-, ha⟩)
    · exact hlen ▸ Nat.lt_succ_of_lt (hA.lt a ha)
    · exact ha
  · rintro a (ha | ⟨hge, hlt⟩) m hm p hp
    · rw [Store.read_append_of_lt h _ (hA.lt a ha)] at hm
      exact .inl (hA.pointers a ha m hm p hp)
    · obtain rfl : a = h.length := by omega
      rw [Store.read_append_length] at hm
      obtain rfl := Option.some_inj.1 hm
      exact .inl (hn p hp)

/-! ## 2. Programs in a region -/

namespace Within

variable {A : Set ℕ} {m : Mem α β} {Q Q' : β → Set ℕ → Prop} {a : ℕ} {p : Option ℕ}

theorem pure {v : β} (hv : Q v A) : Within ptrs A (Pure.pure v : Mem α β) Q := by
  intro h v' h' hA hrun
  have hpair : (v, h) = (v', h') := Option.some.inj hrun
  obtain ⟨rfl, rfl⟩ := Prod.mk.inj hpair
  exact ⟨.refl hA, by rwa [grown_self]⟩

theorem failure : Within ptrs A (failure : Mem α β) Q := by
  intro h v h' _ hrun
  cases hrun

theorem bind {f : β → Mem α γ} {R : γ → Set ℕ → Prop} (hm : Within ptrs A m Q)
    (hf : ∀ v B, A ⊆ B → Q v B → Within ptrs B (f v) R) : Within ptrs A (m >>= f) R := by
  intro h w h'' hA hrun
  obtain ⟨⟨v, h'⟩, hv, hw⟩ : ∃ x, m h = some x ∧ f x.1 x.2 = some (w, h'') := by
    simpa [Bind.bind, StateT.bind, Option.bind_eq_some_iff] using hrun
  obtain ⟨hc, hQ⟩ := hm h v h' hA hv
  obtain ⟨hc', hR⟩ := hf v _ (fun _ => .inl) hQ h' w h'' hc.closed hw
  rw [grown_grown A hc.le hc'.le] at hR
  exact ⟨hc.trans hc', hR⟩

/-- To read is allowed everywhere. -/
theorem peek (a : ℕ) : Within ptrs A (load a) fun _ _ => True := by
  intro h n h' hA hrun
  obtain ⟨_, -, ⟨-, rfl⟩⟩ : ∃ x, h.read a = some x ∧ x = n ∧ h = h' := by
    simpa [load] using hrun
  exact ⟨.refl hA, trivial⟩

theorem load (ha : a ∈ A) :
    Within ptrs A (load a) fun n B => ∀ p ∈ n.pointers ptrs, p ∈ B := by
  intro h n h' hA hrun
  obtain ⟨_, hn, ⟨rfl, rfl⟩⟩ : ∃ x, h.read a = some x ∧ x = n ∧ h = h' := by
    simpa [Linked.load] using hrun
  rw [grown_self]
  exact ⟨.refl hA, hA.pointers a ha _ hn⟩

theorem save (ha : a ∈ A) {n : Node α} (hn : ∀ p ∈ n.pointers ptrs, p ∈ A) :
    Within ptrs A (save a n) fun _ _ => True := by
  intro h _ h' hA hrun
  obtain ⟨_, -, rfl⟩ : ∃ x, h.read a = some x ∧ h.set a (some n) = h' := by
    simpa [Linked.save] using hrun
  refine ⟨.set hA ha fun n' hn' => ?_, trivial⟩
  obtain rfl := Option.some_inj.1 hn'
  exact hn

theorem delete (ha : a ∈ A) : Within ptrs A (delete a : Mem α Unit) fun _ _ => True := by
  intro h _ h' hA hrun
  obtain ⟨_, -, rfl⟩ : ∃ x, h.read a = some x ∧ h.set a none = h' := by
    simpa [Linked.delete] using hrun
  exact ⟨.set hA ha fun _ hn => (Option.some_ne_none _ hn.symm).elim, trivial⟩

theorem new {v : α} (hv : ∀ p ∈ ptrs v, p ∈ A) : Within ptrs A (new v) fun a B => a ∈ B := by
  intro h a h' hA hrun
  obtain ⟨rfl, rfl⟩ : h.length = a ∧ h ++ [some ⟨v, none⟩] = h' := by
    simpa [Linked.new] using hrun
  refine ⟨.push hA hv, .inr ⟨le_rfl, ?_⟩⟩
  rw [List.length_append]
  exact Nat.lt_succ_self _

theorem size : Within ptrs A (size : Mem α ℕ) fun _ _ => True := by
  intro h _ h' hA hrun
  obtain ⟨-, rfl⟩ : h.length = _ ∧ h = h' := by simpa [Linked.size] using hrun
  exact ⟨.refl hA, trivial⟩

theorem deref (hp : ∀ a ∈ p, a ∈ A) : Within ptrs A (deref p : Mem α ℕ) fun a B => a ∈ B := by
  cases p with
  | none => exact failure
  | some a => exact pure (hp a rfl)

theorem setNext (ha : a ∈ A) (hp : ∀ b ∈ p, b ∈ A) :
    Within ptrs A (setNext a p : Mem α Unit) fun _ _ => True := by
  refine bind (load ha) fun n B hAB hn => save (hAB ha) fun b hb => ?_
  rcases List.mem_append.1 hb with hb | hb
  · exact hAB (hp b (Option.mem_toList.1 hb))
  · exact hn b (List.mem_append.2 (.inr hb))

/-- A change of a value that brings in no pointers from outside. -/
theorem modifyValue (ha : a ∈ A) {f : α → Option α}
    (hf : ∀ v w, f v = some w → ∀ b ∈ ptrs w, b ∈ ptrs v ∨ b ∈ A) :
    Within ptrs A (modifyValue a f) fun _ _ => True := by
  refine bind (load ha) fun n B hAB hn => ?_
  cases hw : f n.value with
  | none => exact failure
  | some w =>
    refine save (hAB ha) fun b hb => ?_
    rcases List.mem_append.1 hb with hb | hb
    · exact hn b (List.mem_append.2 (.inl hb))
    · rcases hf _ _ hw b hb with hv | hv
      · exact hn b (List.mem_append.2 (.inr hv))
      · exact hAB hv

end Within

/-! ## 3. Chains in a region -/

/-- The two pointers of a chain are among the pointers of its owner. -/
structure Ends.Traced (ptrs : α → List ℕ) (E : Ends α) : Prop where
  get : ∀ {v q}, E.get v = some q → ∀ p, p ∈ q.1 ∨ p ∈ q.2 → p ∈ ptrs v
  set : ∀ q v, ∀ p ∈ ptrs (E.set q v), p ∈ q.1 ∨ p ∈ q.2 ∨ p ∈ ptrs v

/-- The cell that a pointer of a chain is in. -/
def Place.cell : Place → ℕ
  | .first this => this
  | .next a => a

namespace Within

variable {E : Ends α} (hE : E.Traced ptrs) {A : Set ℕ} {this : ℕ} {p : Option ℕ}

variable {x n : ℕ} {place : Place} {cur : Option ℕ}

theorem mem_some (hx : x ∈ A) : ∀ a ∈ some x, a ∈ A := by
  intro a ha
  rwa [← Option.mem_some_iff.1 ha]

theorem after_cell (ht : this ∈ A) (hp : ∀ a ∈ p, a ∈ A) : (Place.after this p).cell ∈ A := by
  cases p with
  | none => exact ht
  | some a => exact hp a rfl

include hE

theorem loadEnds (ht : this ∈ A) :
    Within ptrs A (E.load this) fun ends B =>
      (∀ a ∈ ends.1, a ∈ B) ∧ ∀ a ∈ ends.2, a ∈ B := by
  refine bind (load ht) fun n B _ hn => ?_
  cases hq : E.get n.value with
  | none => exact failure
  | some q =>
    refine pure ⟨fun a ha => ?_, fun a ha => ?_⟩
    · exact hn a (List.mem_append.2 (.inr (hE.get hq a (.inl ha))))
    · exact hn a (List.mem_append.2 (.inr (hE.get hq a (.inr ha))))

theorem setEnds (ht : this ∈ A) (f : Option ℕ × Option ℕ → Option ℕ × Option ℕ)
    (hf : ∀ q a, a ∈ (f q).1 ∨ a ∈ (f q).2 → a ∈ q.1 ∨ a ∈ q.2 ∨ a ∈ A) :
    Within ptrs A (Linked.modifyValue this fun v => (E.get v).map fun q => E.set (f q) v)
      fun _ _ => True := by
  refine modifyValue ht fun v w hw b hb => ?_
  obtain ⟨q, hq, rfl⟩ := Option.map_eq_some_iff.1 hw
  have hpart : ∀ a, a ∈ (f q).1 ∨ a ∈ (f q).2 → a ∈ ptrs v ∨ a ∈ A := by
    intro a ha
    rcases hf q a ha with h | h | h
    · exact .inl (hE.get hq a (.inl h))
    · exact .inl (hE.get hq a (.inr h))
    · exact .inr h
  rcases hE.set _ _ b hb with h | h | h
  · exact hpart b (.inl h)
  · exact hpart b (.inr h)
  · exact .inl h

theorem setFirst (ht : this ∈ A) (hp : ∀ a ∈ p, a ∈ A) :
    Within ptrs A (E.setFirst this p) fun _ _ => True := by
  refine setEnds hE ht (fun q => (p, q.2)) ?_
  rintro q a (h | h)
  · exact .inr (.inr (hp a h))
  · exact .inr (.inl h)

theorem setLast (ht : this ∈ A) (hp : ∀ a ∈ p, a ∈ A) :
    Within ptrs A (E.setLast this p) fun _ _ => True := by
  refine setEnds hE ht (fun q => (q.1, p)) ?_
  rintro q a (h | h)
  · exact .inl h
  · exact .inr (.inr (hp a h))

theorem peekPlace (ht : place.cell ∈ A) :
    Within ptrs A (E.peek place) fun p B => ∀ a ∈ p, a ∈ B := by
  cases place with
  | first this => exact bind (loadEnds hE ht) fun ends B _ h => pure h.1
  | next a =>
    refine bind (load ht) fun n B _ hn => pure fun b hb => ?_
    exact hn b (List.mem_append.2 (.inl (Option.mem_toList.2 hb)))

theorem put (ht : place.cell ∈ A) (hp : ∀ a ∈ p, a ∈ A) :
    Within ptrs A (E.put place p) fun _ _ => True := by
  cases place with
  | first this => exact setFirst hE ht hp
  | next a => exact setNext ht hp

theorem append (ht : this ∈ A) (hx : x ∈ A) : Within ptrs A (E.append this x) fun _ _ => True := by
  refine bind (loadEnds hE ht) fun ends B hAB hends => ?_
  refine bind (put hE (after_cell (hAB ht) hends.2) (mem_some (hAB hx))) fun _ C hBC _ => ?_
  exact setLast hE (hBC (hAB ht)) (mem_some (hBC (hAB hx)))

theorem insertAfter (ht : this ∈ A) (hp : ∀ a ∈ p, a ∈ A) (hx : x ∈ A) :
    Within ptrs A (E.insertAfter this p x) fun _ _ => True := by
  have hcell := after_cell ht hp
  refine bind (peekPlace hE hcell) fun q B hAB hq => ?_
  refine bind (setNext (hAB hx) hq) fun _ C hBC _ => ?_
  exact put hE (hBC (hAB hcell)) (mem_some (hBC (hAB hx)))

theorem unlink (ht : this ∈ A) (hp : ∀ a ∈ p, a ∈ A) (hx : x ∈ A) :
    Within ptrs A (E.unlink this p x) fun _ _ => True := by
  refine bind (load hx) fun n B hAB hn => ?_
  refine bind (put hE (hAB (after_cell ht hp)) fun a ha => ?_) fun _ C hBC _ => ?_
  · exact hn a (List.mem_append.2 (.inl (Option.mem_toList.2 ha)))
  refine bind (loadEnds hE (hBC (hAB ht))) fun ends D hCD _ => ?_
  by_cases hlast : ends.2 = some x
  · rw [if_pos hlast]
    exact setLast hE (hCD (hBC (hAB ht))) fun a ha => hCD (hBC (hAB (hp a ha)))
  · rw [if_neg hlast]
    exact pure trivial

/-- Only what is copied may be outside. -/
theorem copyFrom {copy : ℕ → Mem α ℕ}
    (hcopy : ∀ a B, A ⊆ B → Within ptrs B (copy a) fun x C => x ∈ C) {newest : Option ℕ}
    (ht : place.cell ∈ A) (hnewest : ∀ a ∈ newest, a ∈ A) :
    Within ptrs A (E.copyFrom copy n cur place newest) fun p B => ∀ a ∈ p, a ∈ B := by
  induction n generalizing A cur place newest with
  | zero =>
    cases cur with
    | none => exact pure hnewest
    | some a => exact failure
  | succ n ih =>
    cases cur with
    | none => exact pure hnewest
    | some a =>
      refine bind (hcopy a A subset_rfl) fun x B hAB hx => ?_
      refine bind (put hE (hAB ht) (mem_some hx)) fun _ C hBC _ => ?_
      refine bind (peek a) fun c D hCD _ => ?_
      have hxD : x ∈ D := hCD (hBC hx)
      exact ih (fun a B' hB' => hcopy a B' fun b hb => hB' (hCD (hBC (hAB hb)))) hxD
        (mem_some hxD)

omit hE

theorem search {f : α → Bool} {prev : Option ℕ} (hprev : ∀ a ∈ prev, a ∈ A)
    (hcur : ∀ a ∈ cur, a ∈ A) :
    Within ptrs A (search f n prev cur) fun v B =>
      (∀ a ∈ v.1, a ∈ B) ∧ ∀ a ∈ v.2, a ∈ B := by
  induction n generalizing A prev cur with
  | zero =>
    cases cur with
    | none => exact pure ⟨hprev, hcur⟩
    | some a => exact failure
  | succ n ih =>
    cases cur with
    | none => exact pure ⟨hprev, hcur⟩
    | some a =>
      refine bind (load (hcur a rfl)) fun c B hAB hc => ?_
      cases hf : f c.value with
      | true =>
        rw [if_pos rfl]
        exact pure ⟨fun b hb => hAB (hprev b hb), fun b hb => hAB (hcur b hb)⟩
      | false =>
        rw [if_neg Bool.false_ne_true]
        refine ih (fun b hb => hAB (hcur b hb)) fun b hb => ?_
        exact hc b (List.mem_append.2 (.inl (Option.mem_toList.2 hb)))

theorem clearFrom {del : ℕ → Mem α Unit}
    (hdel : ∀ a B, A ⊆ B → a ∈ B → Within ptrs B (del a) fun _ _ => True)
    (hcur : ∀ a ∈ cur, a ∈ A) : Within ptrs A (clearFrom del n cur) fun _ _ => True := by
  induction n generalizing A cur with
  | zero =>
    cases cur with
    | none => exact pure trivial
    | some a => exact failure
  | succ n ih =>
    cases cur with
    | none => exact pure trivial
    | some a =>
      refine bind (load (hcur a rfl)) fun c B hAB hc => ?_
      refine bind (hdel a B hAB (hAB (hcur a rfl))) fun _ C hBC _ => ?_
      refine ih (fun a B' hB' => hdel a B' fun b hb => hB' (hBC (hAB hb))) fun b hb => ?_
      exact hBC (hc b (List.mem_append.2 (.inl (Option.mem_toList.2 hb))))

end Within

/-! ## 4. What hangs together -/

/-- What hangs below a cell is where its pointers lead. -/
def Item.Rooted (ptrs : α → List ℕ) (x : Item α) : Prop :=
  ∀ S : Set ℕ, (∀ q ∈ x.inner, q.1 ∈ S → ∀ p ∈ q.2.pointers ptrs, p ∈ S) →
    (∀ p ∈ ptrs x.value, p ∈ S) → ∀ q ∈ x.inner, q.1 ∈ S

/-- A chain is where its first pointer leads. -/
theorem chain_subset {l : List (Item α)} {stop : Option ℕ} (hl : ∀ x ∈ l, x.Rooted ptrs)
    {S : Set ℕ} (hS : ∀ q ∈ chain l stop, q.1 ∈ S → ∀ p ∈ q.2.pointers ptrs, p ∈ S)
    (hfirst : ∀ a ∈ first stop l, a ∈ S) : ∀ q ∈ chain l stop, q.1 ∈ S := by
  induction l with
  | nil =>
    intro q hq
    exact absurd hq (Multiset.notMem_zero q)
  | cons x l ih =>
    rw [chain_cons] at hS ⊢
    have hx : x.addr ∈ S := hfirst x.addr rfl
    have hpointers := hS (x.addr, ⟨x.value, first stop l⟩) (by simp) hx
    intro q hq
    rcases Multiset.mem_add.1 hq with hq | hq
    · rcases Multiset.mem_add.1 hq with hq | hq
      · rw [Multiset.mem_singleton.1 hq]
        exact hx
      · refine hl x List.mem_cons_self S (fun q hq => hS q (by simp [hq])) ?_ q hq
        exact fun p hp => hpointers p (List.mem_append.2 (.inr hp))
    · refine ih (fun y hy => hl y (List.mem_cons_of_mem _ hy)) (fun q hq => hS q (by simp [hq]))
        (fun a ha => ?_) q hq
      exact hpointers a (List.mem_append.2 (.inl (Option.mem_toList.2 ha)))

/-! ## 5. Two regions -/

/-- Two regions with no cell in common. -/
structure Apart (ptrs : α → List ℕ) (h : Store α) (A B : Set ℕ) : Prop where
  left : Closed ptrs h A
  right : Closed ptrs h B
  disjoint : ∀ a ∈ A, a ∉ B

theorem Apart.symm {h : Store α} {A B : Set ℕ} (hAB : Apart ptrs h A B) : Apart ptrs h B A :=
  ⟨hAB.right, hAB.left, fun a ha hb => hAB.disjoint a hb ha⟩

/-- What is done in one region leaves the other as it is. -/
theorem Apart.step {h h' : Store α} {A B : Set ℕ} (hAB : Apart ptrs h A B)
    (hc : Confined ptrs A h h') :
    Apart ptrs h' (grown A h h') B ∧ ∀ a ∈ B, h'.read a = h.read a := by
  have hsame : ∀ a ∈ B, h'.read a = h.read a := fun a ha =>
    hc.outside a (hAB.right.lt a ha) fun hA => hAB.disjoint a hA ha
  refine ⟨⟨hc.closed, ⟨fun a ha => lt_of_lt_of_le (hAB.right.lt a ha) hc.le, ?_⟩, ?_⟩, hsame⟩
  · intro a ha n hn
    rw [hsame a ha] at hn
    exact hAB.right.pointers a ha n hn
  · rintro a (ha | ⟨hge, -⟩) hb
    · exact hAB.disjoint a ha hb
    · exact absurd (hAB.right.lt a hb) (by omega)

end

end Linked
