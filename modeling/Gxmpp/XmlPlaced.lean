/-
The trees that stand in the cells, and what making, copying and deleting does to them.

A placed tree says where each part of a tree is. What an element keeps as its last attribute and
its last child is a part of it, since the functions that change a tree do not all keep it right;
in a tidy tree it is right. `tree` forgets the places.
-/
import Gxmpp.XmlCells
import Gxmpp.Regions

set_option autoImplicit false

namespace Gxmpp.XmlCells

open Linked

/-! ## 1. Trees with their places -/

/-- A child with the addresses of its parts. -/
inductive Placed where
  | text (addr : ℕ) (text : Str)
  | element (addr : ℕ) (name : QName) (attrs : List (ℕ × XmlAttr)) (lastAttr : Option ℕ)
      (children : List Placed) (lastChild : Option ℕ) (cdata : Bool)

/-- An attribute as a cell of its chain. -/
def attrItem (a : ℕ × XmlAttr) : Item Cell := ⟨a.1, .attr a.2, 0⟩

mutual

/-- A child as a cell of its chain, with the tree below it. -/
def Placed.item : Placed → Item Cell
  | .text addr text => ⟨addr, .text text, 0⟩
  | .element addr name attrs lastAttr children lastChild cdata =>
    ⟨addr, .element ⟨name, first none (attrs.map attrItem), lastAttr,
        first none (itemList children), lastChild, cdata⟩,
      chain (attrs.map attrItem) none + chain (itemList children) none⟩

def itemList : List Placed → List (Item Cell)
  | [] => []
  | c :: l => c.item :: itemList l

end

mutual

/-- The value of a tree. -/
def Placed.tree : Placed → XmlChild
  | .text _ text => .text text
  | .element _ name attrs _ children _ cdata =>
    .element ⟨name, attrs.map Prod.snd, treeList children, cdata⟩

def treeList : List Placed → List XmlChild
  | [] => []
  | c :: l => c.tree :: treeList l

end

/-- Every element knows its last attribute and its last child. -/
inductive Placed.Tidy : Placed → Prop where
  | text (addr : ℕ) (text : Str) : Tidy (.text addr text)
  | element (addr : ℕ) (name : QName) (attrs : List (ℕ × XmlAttr)) (children : List Placed)
      (cdata : Bool) (h : ∀ c ∈ children, Tidy c) :
      Tidy (.element addr name attrs (last none (attrs.map attrItem)) children
        (last none (itemList children)) cdata)

theorem itemList_eq (l : List Placed) : itemList l = l.map Placed.item := by
  induction l with
  | nil => rfl
  | cons c l ih => rw [itemList, ih, List.map_cons]

theorem treeList_eq (l : List Placed) : treeList l = l.map Placed.tree := by
  induction l with
  | nil => rfl
  | cons c l ih => rw [treeList, ih, List.map_cons]

theorem modifyAttr_spec {s r : Multiset (ℕ × Node Cell)} {a : ℕ} {x : XmlAttr} {next : Option ℕ}
    (hs : s = {(a, ⟨.attr x, next⟩)} + r) (f : XmlAttr → XmlAttr) :
    Spec s (modifyAttr a f) fun _ u => u = {(a, ⟨.attr (f x), next⟩)} + r :=
  .modifyValue hs rfl

theorem modifyText_spec {s r : Multiset (ℕ × Node Cell)} {a : ℕ} {t : Str} {next : Option ℕ}
    (hs : s = {(a, ⟨.text t, next⟩)} + r) (f : Str → Str) :
    Spec s (modifyText a f) fun _ u => u = {(a, ⟨.text (f t), next⟩)} + r :=
  .modifyValue hs rfl

/-! ## 2. Deleting -/

theorem deleteAttr_spec (a : ℕ × XmlAttr) (p : Option ℕ) :
    Spec ((attrItem a).cells p) (delete a.1) fun _ t => t = 0 :=
  .delete rfl

theorem deleteFrom_spec {n : ℕ} (c : Placed) (p : Option ℕ) (hn : (c.item.cells p).card ≤ n) :
    Spec (c.item.cells p) (deleteFrom n c.item.addr) fun _ t => t = 0 := by
  induction n generalizing c p with
  | zero =>
    rw [Item.card_cells] at hn
    omega
  | succ n ih =>
    refine .bind (.load rfl) ?_
    rintro _ _ ⟨rfl, rfl⟩
    rw [Item.card_cells] at hn
    cases c with
    | text addr text => exact .delete rfl
    | element addr name attrs lastAttr children lastChild cdata =>
      unfold Placed.item at hn ⊢
      dsimp only at hn ⊢
      rw [Multiset.card_add] at hn
      have hattrs := length_le_card (attrs.map attrItem) none
      have hchildren := length_le_card (itemList children) none
      refine .frame_bind (u := 0) (clearFrom_spec delete (l := attrs.map attrItem)
        (by omega) ?_) (r := {(addr, ⟨.element ⟨name, first none (attrs.map attrItem), lastAttr,
          first none (itemList children), lastChild, cdata⟩, p⟩)} +
          chain (itemList children) none) (by dsimp only [Item.cells]; abel) ?_
      · intro x hx q
        obtain ⟨a, -, rfl⟩ := List.mem_map.1 hx
        exact deleteAttr_spec a q
      intro _
      refine .frame_bind (u := 0) (clearFrom_spec (deleteFrom n)
        (l := itemList children) (by omega) ?_) (r := {(addr, ⟨.element ⟨name,
          first none (attrs.map attrItem), lastAttr, first none (itemList children), lastChild,
          cdata⟩, p⟩)}) (by abel) ?_
      · intro x hx q
        have hcard := card_cells_le hx q none
        rw [itemList_eq] at hx
        obtain ⟨d, -, rfl⟩ := List.mem_map.1 hx
        exact ih d q (by omega)
      intro _
      exact .delete (by abel)

/-- The cells of a tree go, and no others. -/
theorem deleteChild_spec (c : Placed) (p : Option ℕ) :
    Spec (c.item.cells p) (deleteChild c.item.addr) fun _ t => t = 0 := by
  refine .bind .size ?_
  rintro n _ ⟨hn, rfl⟩
  exact deleteFrom_spec c p hn

/-! ## 3. Copying -/

theorem copyAttr_spec (a : ℕ × XmlAttr) (p : Option ℕ) :
    Spec ((attrItem a).cells p) (copyAttr a.1) fun b t =>
      ∃ y, b = y.addr ∧ (∃ b', y = attrItem b' ∧ b'.2 = a.2) ∧
        t = (attrItem a).cells p + y.cells none := by
  refine .bind (.load rfl) ?_
  rintro _ _ ⟨rfl, rfl⟩
  refine (Spec.new _).mono ?_
  rintro b _ rfl
  refine ⟨attrItem (b, a.2), rfl, ⟨_, rfl, rfl⟩, ?_⟩
  rw [Item.cells, Item.cells, attrItem, attrItem]
  abel

/-- What is known of each member of a list is known of a list. -/
theorem exists_list {ι κ μ : Type} {P : ι → κ → Prop} {f : κ → μ} {l : List ι} {m : List μ}
    (h : List.Forall₂ (fun x y => ∃ z, y = f z ∧ P x z) l m) :
    ∃ k, m = k.map f ∧ List.Forall₂ P l k := by
  induction h with
  | nil => exact ⟨[], rfl, .nil⟩
  | cons hx _ ih =>
    obtain ⟨z, rfl, hz⟩ := hx
    obtain ⟨k, rfl, hk⟩ := ih
    exact ⟨z :: k, rfl, .cons hz hk⟩

theorem map_eq_of_forall₂ {ι κ μ : Type} {P : ι → κ → Prop} {l : List ι} {k : List κ}
    (h : List.Forall₂ P l k) (f : ι → μ) (g : κ → μ) (hP : ∀ x z, P x z → g z = f x) :
    k.map g = l.map f := by
  induction h with
  | nil => rfl
  | cons hx _ ih => rw [List.map_cons, List.map_cons, hP _ _ hx, ih]

theorem copyFrom_spec {n : ℕ} (c : Placed) (p : Option ℕ) (hn : (c.item.cells p).card ≤ n) :
    Spec (c.item.cells p) (copyFrom n c.item.addr) fun a t => ∃ y, a = y.addr ∧
      (∃ d : Placed, y = d.item ∧ d.tree = c.tree ∧ d.Tidy) ∧
      t = c.item.cells p + y.cells none := by
  induction n generalizing c p with
  | zero =>
    rw [Item.card_cells] at hn
    omega
  | succ n ih =>
    refine .bind (.load rfl) ?_
    rintro _ _ ⟨rfl, rfl⟩
    rw [Item.card_cells] at hn
    cases c with
    | text addr text =>
      refine (Spec.new _).mono ?_
      rintro a _ rfl
      refine ⟨⟨a, .text text, 0⟩, rfl, ⟨.text a text, rfl, rfl, .text a text⟩, ?_⟩
      dsimp only [Placed.item, Item.cells]
      abel
    | element addr name attrs lastAttr children lastChild cdata =>
      unfold Placed.item at hn ⊢
      dsimp only at hn ⊢
      rw [itemList_eq] at hn ⊢
      rw [Multiset.card_add] at hn
      have hattrs := length_le_card (attrs.map attrItem) none
      have hchildren := length_le_card (children.map Placed.item) none
      rw [List.length_map] at hattrs hchildren
      -- the cell of the original, which stays as it is
      obtain ⟨old, hold⟩ : ∃ old : ℕ × Node Cell, old = (addr, ⟨.element ⟨name,
        first none (attrs.map attrItem), lastAttr, first none (children.map Placed.item),
        lastChild, cdata⟩, p⟩) := ⟨_, rfl⟩
      simp only [Item.cells, ← hold]
      refine .bind (.new _) ?_
      rintro this _ rfl
      -- the attributes
      refine Ends.copyAll_bind (E := attrEnds) this
        (.element ⟨name, none, none, none, none, false⟩) none rfl attrItem
        (fun a y => ∃ b, y = attrItem b ∧ b.2 = a.2) (by omega) (fun a _ => copyAttr_spec a)
        (r := {old} + chain (children.map Placed.item) none) ?_ ?_
      · dsimp only [Ends.owned, first_nil, chain_nil, attrEnds]
        abel
      intro m hm
      obtain ⟨attrs', rfl, hattrs'⟩ := exists_list hm
      -- the children; the bound is enough for each of them, which is smaller
      refine Ends.copyAll_bind (E := childEnds) this (.element ⟨name,
          first none (attrs'.map attrItem), last none (attrs'.map attrItem), none, none,
          false⟩) none rfl Placed.item
        (fun c y => ∃ d : Placed, y = d.item ∧ d.tree = c.tree ∧ d.Tidy) (by omega)
        (fun c hc q => ih c q ?_) (r := {old} + chain (attrs.map attrItem) none +
          chain (attrs'.map attrItem) none) ?_ ?_
      · have hcard := card_cells_le (List.mem_map_of_mem (f := Placed.item) hc) q none
        omega
      · dsimp only [Ends.owned, first_nil, chain_nil, attrEnds, childEnds]
        abel
      intro m hm
      obtain ⟨children', rfl, hchildren'⟩ := exists_list hm
      refine .bind (.modifyValue (a := this) ((add_assoc _ _ _).trans (add_assoc _ _ _)) rfl) ?_
      rintro - _ rfl
      refine .pure ⟨(Placed.element this name attrs' (last none (attrs'.map attrItem)) children'
        (last none (itemList children')) cdata).item, rfl,
        ⟨_, rfl, ?_, .element _ _ _ _ _ ?_⟩, ?_⟩
      · -- the parts have the values of the parts
        have hnames := map_eq_of_forall₂ hattrs' Prod.snd Prod.snd fun _ _ h => h
        have htrees := map_eq_of_forall₂ hchildren' Placed.tree Placed.tree fun _ _ h => h.1
        rw [Placed.tree, Placed.tree, treeList_eq, treeList_eq, hnames, htrees]
      · intro c hc
        obtain ⟨i, hi, rfl⟩ := List.mem_iff_getElem.1 hc
        exact (hchildren'.get (hchildren'.length_eq ▸ hi) hi).2
      · dsimp only [Placed.item, Item.cells, attrEnds, childEnds, Ends.owned]
        rw [itemList_eq]
        abel

/-- The copy of a tree is a tidy tree of the same value, in cells of its own. -/
theorem copyChild_spec (c : Placed) (p : Option ℕ) :
    Spec (c.item.cells p) (copyChild c.item.addr) fun a t => ∃ d : Placed,
      a = d.item.addr ∧ d.tree = c.tree ∧ d.Tidy ∧ t = c.item.cells p + d.item.cells none := by
  refine .bind .size ?_
  rintro n _ ⟨hn, rfl⟩
  refine (copyFrom_spec c p hn).mono ?_
  rintro _ _ ⟨_, rfl, ⟨d, rfl, htree, htidy⟩, rfl⟩
  exact ⟨d, rfl, htree, htidy, rfl⟩

/-! ## 4. Where a tree is -/

/-- The pointers of an object, but the one to the next. -/
def Cell.pointers : Cell → List ℕ
  | .element e =>
    e.firstAttr.toList ++ e.lastAttr.toList ++ (e.firstChild.toList ++ e.lastChild.toList)
  | _ => []

theorem attrItem_rooted (a : ℕ × XmlAttr) : (attrItem a).Rooted Cell.pointers := by
  intro S _ _ q hq
  exact absurd hq (Multiset.notMem_zero q)

mutual

/-- A tree is where the pointers of its root lead. -/
theorem Placed.rooted : ∀ c : Placed, c.item.Rooted Cell.pointers
  | .text _ _ => by
      intro S _ _ q hq
      exact absurd hq (Multiset.notMem_zero q)
  | .element addr name attrs lastAttr children lastChild cdata => by
      intro S hS hroot q hq
      unfold Placed.item at hS hroot hq
      have hfirst : ∀ a, a ∈ first none (attrs.map attrItem) ∨
          a ∈ first none (itemList children) → a ∈ S := by
        intro a ha
        apply hroot
        rcases ha with ha | ha <;> simp [Cell.pointers, Option.mem_toList.2 ha]
      rcases Multiset.mem_add.1 hq with hq | hq
      · refine chain_subset (fun x hx => ?_) (fun r hr => hS r (Multiset.mem_add.2 (.inl hr)))
          (fun a ha => hfirst a (.inl ha)) q hq
        obtain ⟨a, -, rfl⟩ := List.mem_map.1 hx
        exact attrItem_rooted a
      · exact chain_subset (rootedList children)
          (fun r hr => hS r (Multiset.mem_add.2 (.inr hr))) (fun a ha => hfirst a (.inr ha)) q hq

theorem rootedList : ∀ (l : List Placed), ∀ x ∈ itemList l, x.Rooted Cell.pointers
  | [], _, hx => absurd hx List.not_mem_nil
  | c :: l, x, hx => by
      rcases List.mem_cons.1 hx with rfl | hx
      · exact c.rooted
      · exact rootedList l x hx

end

/-- The child that stands at an address. -/
def TreeAt (h : Store Cell) (this : ℕ) (t : XmlChild) : Prop :=
  ∃ (c : Placed) (next : Option ℕ), c.item.addr = this ∧ c.tree = t ∧ Has h (c.item.cells next)

/-- The same for a tidy tree. -/
def TidyAt (h : Store Cell) (this : ℕ) (t : XmlChild) : Prop :=
  ∃ (c : Placed) (next : Option ℕ), c.item.addr = this ∧ c.tree = t ∧ c.Tidy ∧
    Has h (c.item.cells next)

variable {h : Store Cell} {t : XmlChild} {this : ℕ}

theorem TidyAt.treeAt (ht : TidyAt h this t) : TreeAt h this t := by
  obtain ⟨c, next, haddr, htree, -, hh⟩ := ht
  exact ⟨c, next, haddr, htree, hh⟩

/-- A tree in a region is what it was as long as the region is. -/
theorem TreeAt.keep {h' : Store Cell} {A : Set ℕ} (ht : TreeAt h this t)
    (hA : Closed Cell.pointers h A) (hthis : this ∈ A) (hsame : ∀ a ∈ A, h'.read a = h.read a) :
    TreeAt h' this t := by
  obtain ⟨c, next, rfl, rfl, hh⟩ := ht
  refine ⟨c, next, rfl, rfl, hh.mono fun q hq => hsame q.1 ?_⟩
  rcases Multiset.mem_add.1 hq with hq | hq
  · rw [Multiset.mem_singleton.1 hq]
    exact hthis
  · refine c.rooted A (fun r hr hrA p hp => ?_) (fun p hp => ?_) q hq
    · exact hA.pointers r.1 hrA r.2 (hh.right.read r hr) p hp
    · exact hA.pointers _ hthis _ hh.mem_read p (List.mem_append.2 (.inr hp))

/-- A tidy element, taken apart. -/
theorem TidyAt.element {e : XmlElement} (ht : TidyAt h this (.element e)) :
    ∃ (f : Fields) (next : Option ℕ)
      (attrs : List (ℕ × XmlAttr)) (children : List Placed), attrs.map Prod.snd = e.attrs ∧
      children.map Placed.tree = e.children ∧
      Has h (attrEnds.owned this (.element f) next (attrs.map attrItem) none
        (last none (attrs.map attrItem))) ∧
      Has h (childEnds.owned this (.element f) next (children.map Placed.item) none
        (last none (children.map Placed.item))) := by
  obtain ⟨c, next, rfl, htree, htidy, hh⟩ := ht
  cases htidy with
  | text addr text => cases htree
  | element addr name attrs children cdata hchildren =>
    unfold Placed.tree at htree
    injection htree with htree
    subst htree
    rw [treeList_eq]
    unfold Placed.item Item.cells at hh
    rw [itemList_eq] at hh
    refine ⟨⟨name, first none (attrs.map attrItem), last none (attrs.map attrItem),
      first none (children.map Placed.item), last none (children.map Placed.item), cdata⟩,
      next, attrs, children, rfl, rfl, ?_, ?_⟩
    · rw [← add_assoc] at hh
      exact hh.left
    · rw [add_comm (chain _ _), ← add_assoc] at hh
      exact hh.left

end Gxmpp.XmlCells
