/-
Programs over cells that point at each other, and chains of cells.

A store is a list of cells, and an address is a place in it. A cell is a value and the address of
the next one; a cell that was given back is `none`, and to touch it, or to follow a null pointer,
is a failure. New cells come at the end, so no address is used twice.

`Spec` is total correctness with the frame in it: on the cells `s`, and whatever else there is,
the program has a result and leaves the cells that the postcondition says; all others are as they
were. Cells are a multiset of addresses and nodes, so what is beside what needs no order.

A chain is a list of items, each a cell and the cells that hang below it. Its owner keeps the
addresses of the first and of the last one (`Ends`). `append_spec`, `insertAfter_spec`,
`unlink_spec`, `search_spec`, `clearFrom_spec` and `copyFrom_spec` are the operations.
-/
import Mathlib.Data.Multiset.Bind
import Mathlib.Data.Finset.Card
import Mathlib.Tactic.Abel

set_option autoImplicit false

namespace Linked

/-- A cell: a value and a pointer to the next cell. -/
structure Node (α : Type) where
  value : α
  next : Option ℕ

/-- The cells that were ever taken; `none` is one that was given back. -/
abbrev Store (α : Type) := List (Option (Node α))

variable {α β γ : Type}

/-! ## 1. Programs -/

namespace Store

def read (h : Store α) (a : ℕ) : Option (Node α) := h[a]?.join

theorem lt_of_read {h : Store α} {a : ℕ} {n : Node α} (hr : h.read a = some n) : a < h.length := by
  by_contra hge
  rw [read, List.getElem?_eq_none (not_lt.1 hge)] at hr
  cases hr

theorem read_set (h : Store α) {a : ℕ} (ha : a < h.length) (c : Option (Node α)) (b : ℕ) :
    read (h.set a c) b = if b = a then c else h.read b := by
  unfold read
  by_cases hb : b = a
  · rw [if_pos hb, hb, List.getElem?_set_self ha]
    rfl
  · rw [if_neg hb, List.getElem?_set_ne (Ne.symm hb)]

theorem read_append_of_lt (h k : Store α) {a : ℕ} (ha : a < h.length) :
    read (h ++ k) a = h.read a := by
  rw [read, List.getElem?_append_left ha]
  rfl

theorem read_append_length (h : Store α) (n : Node α) : read (h ++ [some n]) h.length = some n := by
  rw [read, List.getElem?_append_right le_rfl, Nat.sub_self]
  rfl

end Store

/-- A program over a store; `none` is a failure. -/
abbrev Mem (α β : Type) := StateT (Store α) Option β

/-- The cell at an address. -/
def load (a : ℕ) : Mem α (Node α) := fun h => (h.read a).map fun n => (n, h)

/-- Puts a node in the cell at an address. -/
def save (a : ℕ) (n : Node α) : Mem α Unit :=
  fun h => (h.read a).map fun _ => ((), h.set a (some n))

/-- A new cell. -/
def new (v : α) : Mem α ℕ := fun h => some (h.length, h ++ [some ⟨v, none⟩])

/-- Gives a cell back. -/
def delete (a : ℕ) : Mem α Unit := fun h => (h.read a).map fun _ => ((), h.set a none)

/-- How many cells were taken: no chain is longer. -/
def size : Mem α ℕ := fun h => some (h.length, h)

/-- A pointer that has to be there. -/
def deref : Option ℕ → Mem α ℕ
  | some a => pure a
  | none => failure

def setNext (a : ℕ) (p : Option ℕ) : Mem α Unit := do
  let n ← load a
  save a { n with next := p }

/-- Changes the value of a cell that is of the right kind. -/
def modifyValue (a : ℕ) (f : α → Option α) : Mem α Unit := do
  let n ← load a
  match f n.value with
  | some v => save a { n with value := v }
  | none => failure

/-! ## 2. Cells and what programs make of them -/

/-- The cells are there, each once. -/
structure Has (h : Store α) (s : Multiset (ℕ × Node α)) : Prop where
  nodup : (s.map Prod.fst).Nodup
  read : ∀ q ∈ s, h.read q.1 = some q.2

namespace Has

variable {h : Store α} {s t : Multiset (ℕ × Node α)} {a : ℕ} {n : Node α}

theorem mem_read (hs : Has h ({(a, n)} + s)) : h.read a = some n :=
  hs.read (a, n) (Multiset.mem_add.2 (.inl (Multiset.mem_singleton_self _)))

theorem ne_of_mem (hs : Has h ({(a, n)} + s)) {q : ℕ × Node α} (hq : q ∈ s) : q.1 ≠ a := by
  intro heq
  have hnodup := hs.nodup
  rw [Multiset.map_add, Multiset.map_singleton, Multiset.singleton_add, Multiset.nodup_cons]
    at hnodup
  exact hnodup.1 (Multiset.mem_map.2 ⟨q, hq, heq⟩)

theorem left (hs : Has h (s + t)) : Has h s := by
  refine ⟨?_, fun q hq => hs.read q (Multiset.mem_add.2 (.inl hq))⟩
  have hnodup := hs.nodup
  rw [Multiset.map_add] at hnodup
  exact Multiset.nodup_of_le (Multiset.le_add_right _ _) hnodup

theorem right (hs : Has h (s + t)) : Has h t := by
  rw [add_comm] at hs
  exact hs.left

theorem add (hs : Has h s) (ht : Has h t) (hst : ∀ q ∈ s, ∀ r ∈ t, q.1 ≠ r.1) :
    Has h (s + t) := by
  constructor
  · rw [Multiset.map_add, Multiset.nodup_add]
    refine ⟨hs.nodup, ht.nodup, Multiset.disjoint_left.2 fun {a} ha hb => ?_⟩
    obtain ⟨q, hq, rfl⟩ := Multiset.mem_map.1 ha
    obtain ⟨r, hr, heq⟩ := Multiset.mem_map.1 hb
    exact hst q hq r hr heq.symm
  · intro q hq
    rcases Multiset.mem_add.1 hq with hq | hq
    · exact hs.read q hq
    · exact ht.read q hq

theorem lt_length (hs : Has h s) {q : ℕ × Node α} (hq : q ∈ s) : q.1 < h.length :=
  Store.lt_of_read (hs.read q hq)

theorem card_le (hs : Has h s) : s.card ≤ h.length := by
  have hle : s.map Prod.fst ≤ Multiset.range h.length := by
    rw [Multiset.le_iff_subset hs.nodup]
    intro a ha
    obtain ⟨q, hq, rfl⟩ := Multiset.mem_map.1 ha
    exact Multiset.mem_range.2 (hs.lt_length hq)
  have hcard := Multiset.card_le_card hle
  rwa [Multiset.card_map, Multiset.card_range] at hcard

/-- Cells that stay where they are. -/
theorem mono (hs : Has h s) {h' : Store α} (hsame : ∀ q ∈ s, h'.read q.1 = h.read q.1) :
    Has h' s :=
  ⟨hs.nodup, fun q hq => (hsame q hq).trans (hs.read q hq)⟩

theorem save (hs : Has h ({(a, n)} + s)) (n' : Node α) :
    Has (h.set a (some n')) ({(a, n')} + s) := by
  have ha := Store.lt_of_read hs.mem_read
  constructor
  · have hnodup := hs.nodup
    rwa [Multiset.map_add, Multiset.map_singleton] at hnodup ⊢
  · intro q hq
    rw [Store.read_set h ha]
    rcases Multiset.mem_add.1 hq with hq | hq
    · rw [Multiset.mem_singleton.1 hq, if_pos rfl]
    · rw [if_neg (hs.ne_of_mem hq)]
      exact hs.right.read q hq

theorem delete (hs : Has h ({(a, n)} + s)) : Has (h.set a none) s := by
  have ha := Store.lt_of_read hs.mem_read
  refine hs.right.mono fun q hq => ?_
  rw [Store.read_set h ha, if_neg (hs.ne_of_mem hq)]

theorem new (hs : Has h s) (v : α) : Has (h ++ [some ⟨v, none⟩]) ({(h.length, ⟨v, none⟩)} + s) := by
  constructor
  · rw [Multiset.map_add, Multiset.map_singleton, Multiset.singleton_add, Multiset.nodup_cons]
    refine ⟨fun hmem => ?_, hs.nodup⟩
    obtain ⟨q, hq, hlen⟩ := Multiset.mem_map.1 hmem
    exact absurd (hs.lt_length hq) (by omega)
  · intro q hq
    rcases Multiset.mem_add.1 hq with hq | hq
    · rw [Multiset.mem_singleton.1 hq]
      exact Store.read_append_length h _
    · rw [Store.read_append_of_lt h _ (hs.lt_length hq)]
      exact hs.read q hq

end Has

/-- On the cells `s` the program has a result and leaves cells with `Q`; all others stay. -/
def Spec (s : Multiset (ℕ × Node α)) (m : Mem α β)
    (Q : β → Multiset (ℕ × Node α) → Prop) : Prop :=
  ∀ h frame, Has h (s + frame) → ∃ v h' t, m h = some (v, h') ∧ Q v t ∧ Has h' (t + frame)

namespace Spec

variable {s t r : Multiset (ℕ × Node α)} {a : ℕ} {n : Node α} {m : Mem α β}
  {Q Q' : β → Multiset (ℕ × Node α) → Prop}

theorem pure {v : β} (hv : Q v s) : Spec s (Pure.pure v : Mem α β) Q := by
  intro h frame hs
  exact ⟨v, h, s, rfl, hv, hs⟩

theorem bind {f : β → Mem α γ} {R : γ → Multiset (ℕ × Node α) → Prop} (hm : Spec s m Q)
    (hf : ∀ v t, Q v t → Spec t (f v) R) : Spec s (m >>= f) R := by
  intro h frame hs
  obtain ⟨v, h', t, hrun, hv, ht⟩ := hm h frame hs
  obtain ⟨w, h'', u, hrun', hw, hu⟩ := hf v t hv h' frame ht
  refine ⟨w, h'', u, ?_, hw, hu⟩
  simp only [Bind.bind, StateT.bind, hrun, Option.bind_some, hrun']

theorem mono (hm : Spec s m Q) (h : ∀ v t, Q v t → Q' v t) : Spec s m Q' := by
  intro st frame hs
  obtain ⟨v, h', t, hrun, hv, ht⟩ := hm st frame hs
  exact ⟨v, h', t, hrun, h v t hv, ht⟩

/-- With no other cells. -/
theorem run (hm : Spec s m Q) {h : Store α} (hs : Has h s) :
    ∃ v h' t, m h = some (v, h') ∧ Q v t ∧ Has h' t := by
  rw [← add_zero s] at hs
  obtain ⟨v, h', t, hrun, hv, ht⟩ := hm h 0 hs
  exact ⟨v, h', t, hrun, hv, by rwa [add_zero] at ht⟩

/-- The cells that the program needs are there, each once. -/
theorem of_nodup (hm : (s.map Prod.fst).Nodup → Spec s m Q) : Spec s m Q := by
  intro h frame hs
  exact hm hs.left.nodup h frame hs

/-- The cells, in another order. -/
theorem of_eq (hm : Spec t m Q) (hst : s = t) : Spec s m Q := by
  rwa [hst]

/-- Cells that the program does not need. -/
theorem frame (hm : Spec s m Q) (r : Multiset (ℕ × Node α)) :
    Spec (s + r) m fun v t => ∃ u, Q v u ∧ t = u + r := by
  intro h frame hs
  rw [add_assoc] at hs
  obtain ⟨v, h', t, hrun, hv, ht⟩ := hm h (r + frame) hs
  exact ⟨v, h', t + r, hrun, ⟨t, hv, rfl⟩, by rwa [add_assoc]⟩

/-- The rule for a program that leaves cells which are known. -/
theorem frame_bind {f : β → Mem α γ} {R : γ → Multiset (ℕ × Node α) → Prop}
    {u : Multiset (ℕ × Node α)} (hm : Spec s m fun _ t => t = u) (hs : t = s + r)
    (hf : ∀ v, Spec (u + r) (f v) R) : Spec t (m >>= f) R := by
  refine bind ((hm.frame r).of_eq hs) ?_
  rintro v _ ⟨_, rfl, rfl⟩
  exact hf v

theorem load (hs : s = {(a, n)} + r) : Spec s (load a) fun v t => v = n ∧ t = s := by
  intro h frame hh
  have hread : h.read a = some n := by
    rw [hs, add_assoc] at hh
    exact hh.mem_read
  refine ⟨n, h, s, ?_, ⟨rfl, rfl⟩, hh⟩
  rw [Linked.load, hread]
  rfl

theorem save (hs : s = {(a, n)} + r) (n' : Node α) :
    Spec s (save a n') fun _ t => t = {(a, n')} + r := by
  intro h frame hh
  rw [hs, add_assoc] at hh
  refine ⟨(), _, _, ?_, rfl, by rw [add_assoc]; exact hh.save n'⟩
  rw [Linked.save, hh.mem_read]
  rfl

theorem delete (hs : s = {(a, n)} + r) : Spec s (delete a) fun _ t => t = r := by
  intro h frame hh
  rw [hs, add_assoc] at hh
  refine ⟨(), _, _, ?_, rfl, hh.delete⟩
  rw [Linked.delete, hh.mem_read]
  rfl

theorem new (v : α) : Spec s (new v) fun a t => t = {(a, ⟨v, none⟩)} + s := by
  intro h frame hh
  exact ⟨h.length, _, _, rfl, rfl, by rw [add_assoc]; exact hh.new v⟩

theorem size : Spec s (size : Mem α ℕ) fun n t => s.card ≤ n ∧ t = s := by
  intro h frame hh
  exact ⟨h.length, h, s, rfl, ⟨hh.left.card_le, rfl⟩, hh⟩

theorem deref (a : ℕ) : Spec s (deref (some a) : Mem α ℕ) fun v t => v = a ∧ t = s :=
  pure ⟨rfl, rfl⟩

theorem setNext (hs : s = {(a, n)} + r) (p : Option ℕ) :
    Spec s (setNext a p) fun _ t => t = {(a, { n with next := p })} + r := by
  refine bind (load hs) ?_
  rintro _ _ ⟨rfl, rfl⟩
  exact save hs _

theorem modifyValue {f : α → Option α} {v : α} (hs : s = {(a, n)} + r) (hf : f n.value = some v) :
    Spec s (modifyValue a f) fun _ t => t = {(a, { n with value := v })} + r := by
  refine bind (load hs) ?_
  rintro _ _ ⟨rfl, rfl⟩
  rw [hf]
  exact save hs _

end Spec

/-! ## 3. Chains -/

/-- A cell of a chain: its address, its value and the cells that hang below it. -/
structure Item (α : Type) where
  addr : ℕ
  value : α
  inner : Multiset (ℕ × Node α)

/-- The cells of an item that is followed by `next`. -/
def Item.cells (x : Item α) (next : Option ℕ) : Multiset (ℕ × Node α) :=
  {(x.addr, ⟨x.value, next⟩)} + x.inner

/-- Where a chain begins; an empty one is what comes after it. -/
def first (stop : Option ℕ) : List (Item α) → Option ℕ
  | [] => stop
  | x :: _ => some x.addr

/-- The last cell of a chain; in an empty one it is what comes before it. -/
def last (start : Option ℕ) : List (Item α) → Option ℕ
  | [] => start
  | x :: l => last (some x.addr) l

/-- The cells of a chain. -/
def chain : List (Item α) → Option ℕ → Multiset (ℕ × Node α)
  | [], _ => 0
  | x :: l, stop => x.cells (first stop l) + chain l stop

section

variable (x : Item α) (l : List (Item α)) (stop start : Option ℕ)

@[simp] theorem first_nil : first stop ([] : List (Item α)) = stop := rfl
@[simp] theorem first_cons : first stop (x :: l) = some x.addr := rfl
@[simp] theorem last_nil : last start ([] : List (Item α)) = start := rfl
@[simp] theorem last_cons : last start (x :: l) = last (some x.addr) l := rfl
@[simp] theorem chain_nil : chain ([] : List (Item α)) stop = 0 := rfl
@[simp] theorem chain_cons :
    chain (x :: l) stop = {(x.addr, ⟨x.value, first stop l⟩)} + x.inner + chain l stop := rfl

end

@[simp] theorem first_append (stop : Option ℕ) (k l : List (Item α)) :
    first stop (k ++ l) = first (first stop l) k := by
  cases k with
  | nil | cons => rfl

@[simp] theorem last_append (start : Option ℕ) (k l : List (Item α)) :
    last start (k ++ l) = last (last start k) l := by
  induction k generalizing start with
  | nil => rfl
  | cons x k ih => exact ih (some x.addr)

@[simp] theorem chain_append (k l : List (Item α)) (stop : Option ℕ) :
    chain (k ++ l) stop = chain k (first stop l) + chain l stop := by
  induction k with
  | nil => exact (zero_add _).symm
  | cons x k ih =>
    simp only [List.cons_append, chain_cons, ih, first_append]
    abel

theorem length_le_card (l : List (Item α)) (stop : Option ℕ) : l.length ≤ (chain l stop).card := by
  induction l with
  | nil => exact Nat.zero_le _
  | cons x l ih =>
    simp only [chain_cons, Multiset.card_add, Multiset.card_singleton, List.length_cons]
    omega

theorem Item.card_cells (x : Item α) (next : Option ℕ) :
    (x.cells next).card = x.inner.card + 1 := by
  rw [cells, Multiset.card_add, Multiset.card_singleton, Nat.add_comm]

theorem card_cells_le {l : List (Item α)} {x : Item α} (hx : x ∈ l) (next stop : Option ℕ) :
    (x.cells next).card ≤ (chain l stop).card := by
  rw [Item.card_cells]
  induction l with
  | nil => cases hx
  | cons y l ih =>
    rw [chain_cons, Multiset.card_add, Multiset.card_add, Multiset.card_singleton]
    rcases List.mem_cons.1 hx with rfl | hx
    · omega
    · have := ih hx
      omega

theorem mem_chain {l : List (Item α)} {x : Item α} (hx : x ∈ l) (stop : Option ℕ) :
    ∃ next, (x.addr, ⟨x.value, next⟩) ∈ chain l stop := by
  induction l with
  | nil => cases hx
  | cons y l ih =>
    rcases List.mem_cons.1 hx with rfl | hx
    · refine ⟨first stop l, ?_⟩
      simp
    · obtain ⟨next, hnext⟩ := ih hx
      exact ⟨next, Multiset.mem_add.2 (.inr hnext)⟩

/-- The last cell of a chain that is not empty is in it. -/
theorem last_mem {l : List (Item α)} (start : Option ℕ) (hl : l ≠ []) :
    ∃ x ∈ l, last start l = some x.addr := by
  obtain ⟨k, x, rfl⟩ := List.eq_nil_or_concat l |>.resolve_left hl
  exact ⟨x, by simp, by simp⟩

/-- The first cell of a chain is the last one if it is the only one. -/
theorem last_eq_iff {x : Item α} {l : List (Item α)} {stop : Option ℕ}
    (h : ((chain (x :: l) stop).map Prod.fst).Nodup) :
    last (some x.addr) l = some x.addr ↔ l = [] := by
  constructor
  · intro hx
    by_contra hl
    obtain ⟨y, hy, hlast⟩ := last_mem (some x.addr) hl
    rw [hlast, Option.some_inj] at hx
    obtain ⟨n, hn⟩ := mem_chain hy stop
    rw [chain_cons, add_assoc, Multiset.map_add, Multiset.map_singleton, Multiset.singleton_add,
      Multiset.nodup_cons] at h
    apply h.1
    rw [Multiset.map_add]
    exact Multiset.mem_add.2 (.inr (Multiset.mem_map.2 ⟨_, hn, hx⟩))
  · rintro rfl
    rfl

/-! ## 4. The owner of a chain -/

/-- Where an object keeps the first and the last cell of a chain, if it is of the right kind. -/
structure Ends (α : Type) where
  get : α → Option (Option ℕ × Option ℕ)
  set : Option ℕ × Option ℕ → α → α
  get_set : ∀ {v q}, get v = some q → ∀ p, get (set p v) = some p
  set_set : ∀ v p q, set p (set q v) = set p v

namespace Ends

variable (E : Ends α)

def load (this : ℕ) : Mem α (Option ℕ × Option ℕ) := do
  let n ← Linked.load this
  match E.get n.value with
  | some ends => pure ends
  | none => failure

def setFirst (this : ℕ) (p : Option ℕ) : Mem α Unit :=
  modifyValue this fun v => (E.get v).map fun ends => E.set (p, ends.2) v

def setLast (this : ℕ) (p : Option ℕ) : Mem α Unit :=
  modifyValue this fun v => (E.get v).map fun ends => E.set (ends.1, p) v

/-- The cells of an object and of its chain. -/
def owned (this : ℕ) (v : α) (next : Option ℕ) (l : List (Item α)) (stop tail : Option ℕ) :
    Multiset (ℕ × Node α) :=
  {(this, ⟨E.set (first stop l, tail) v, next⟩)} + chain l stop

end Ends

/-- Where a pointer of a chain is: the first one, or in a cell. -/
inductive Place where
  | first (this : ℕ)
  | next (a : ℕ)

/-- The pointer behind a cell. -/
def Place.after (this : ℕ) : Option ℕ → Place
  | none => .first this
  | some a => .next a

namespace Ends

variable (E : Ends α)

/-- The pointer at a place. -/
def peek : Place → Mem α (Option ℕ)
  | .first this => do
      let ends ← E.load this
      pure ends.1
  | .next a => do
      let n ← Linked.load a
      pure n.next

/-- Changes the pointer at a place. -/
def put : Place → Option ℕ → Mem α Unit
  | .first this, p => E.setFirst this p
  | .next a, p => setNext a p

/-- Links a cell behind the last one. -/
def append (this x : ℕ) : Mem α Unit := do
  let ends ← E.load this
  E.put (.after this ends.2) (some x)
  E.setLast this (some x)

/-- Links a cell behind another one, or in front of all. -/
def insertAfter (this : ℕ) (predecessor : Option ℕ) (x : ℕ) : Mem α Unit := do
  let p ← E.peek (.after this predecessor)
  setNext x p
  E.put (.after this predecessor) (some x)

/-- Takes a cell out of the chain. -/
def unlink (this : ℕ) (predecessor : Option ℕ) (x : ℕ) : Mem α Unit := do
  let n ← Linked.load x
  E.put (.after this predecessor) n.next
  let ends ← E.load this
  if ends.2 = some x then E.setLast this predecessor

section

variable {E} {s r : Multiset (ℕ × Node α)} {this : ℕ} {v : α} {next tail : Option ℕ}

theorem owned_append (k l : List (Item α)) (stop : Option ℕ) :
    E.owned this v next (k ++ l) stop tail
      = E.owned this v next k (first stop l) tail + chain l stop := by
  rw [owned, owned, first_append, chain_append]
  abel

theorem owned_cons (k l : List (Item α)) (x : Item α) (stop : Option ℕ) :
    E.owned this v next (k ++ x :: l) stop tail
      = E.owned this v next k (some x.addr) tail + x.cells (first stop l) + chain l stop := by
  rw [owned_append, chain_cons, Item.cells, first_cons]
  abel

variable {q : Option ℕ × Option ℕ} (hv : E.get v = some q)
include hv

theorem load_spec {p : Option ℕ × Option ℕ} (hs : s = {(this, ⟨E.set p v, next⟩)} + r) :
    Spec s (E.load this) fun ends t => ends = p ∧ t = s := by
  refine .bind (.load hs) ?_
  rintro _ _ ⟨rfl, rfl⟩
  rw [E.get_set hv]
  exact .pure ⟨rfl, rfl⟩

theorem setFirst_spec {p : Option ℕ × Option ℕ} (hs : s = {(this, ⟨E.set p v, next⟩)} + r)
    (a : Option ℕ) :
    Spec s (E.setFirst this a) fun _ t => t = {(this, ⟨E.set (a, p.2) v, next⟩)} + r := by
  refine .modifyValue hs ?_
  rw [E.get_set hv, Option.map_some, E.set_set]

theorem setLast_spec {l : List (Item α)} {stop : Option ℕ}
    (hs : s = E.owned this v next l stop tail + r) (a : Option ℕ) :
    Spec s (E.setLast this a) fun _ t => t = E.owned this v next l stop a + r := by
  rw [owned, add_assoc] at hs
  refine (Spec.modifyValue hs (v := E.set (first stop l, a) v) ?_).mono ?_
  · rw [E.get_set hv, Option.map_some, E.set_set]
  · rintro - _ rfl
    exact (add_assoc _ _ _).symm

/-- The pointer behind the last cell. -/
theorem peek_spec {k : List (Item α)} {a : Option ℕ} (hs : s = E.owned this v next k a tail + r) :
    Spec s (E.peek (.after this (last none k))) fun p t => p = a ∧ t = s := by
  rcases List.eq_nil_or_concat k with rfl | ⟨k, y, rfl⟩
  · rw [owned, add_assoc] at hs
    refine .bind (load_spec hv hs) ?_
    rintro _ _ ⟨rfl, rfl⟩
    exact .pure ⟨rfl, rfl⟩
  · rw [List.concat_eq_append, owned_cons] at hs
    rw [List.concat_eq_append, last_append]
    refine .bind (.load (n := ⟨y.value, a⟩)
      (r := E.owned this v next k (some y.addr) tail + y.inner + r) ?_) ?_
    · rw [hs, Item.cells, first_nil, chain_nil]
      abel
    · rintro _ _ ⟨rfl, rfl⟩
      exact .pure ⟨rfl, rfl⟩

/-- The pointer behind the last cell is changed, and no other. -/
theorem put_spec {k : List (Item α)} {a : Option ℕ} (hs : s = E.owned this v next k a tail + r)
    (b : Option ℕ) :
    Spec s (E.put (.after this (last none k)) b)
      fun _ t => t = E.owned this v next k b tail + r := by
  rcases List.eq_nil_or_concat k with rfl | ⟨k, y, rfl⟩
  · rw [owned, add_assoc] at hs
    refine (setFirst_spec hv hs b).mono ?_
    rintro - _ rfl
    exact (add_assoc _ _ _).symm
  · rw [List.concat_eq_append, owned_cons] at hs
    rw [List.concat_eq_append, last_append, owned_cons]
    refine (Spec.setNext (n := ⟨y.value, a⟩)
      (r := E.owned this v next k (some y.addr) tail + y.inner + r) ?_ b).mono ?_
    · rw [hs, Item.cells, first_nil, chain_nil]
      abel
    · rintro - _ rfl
      rw [Item.cells, first_nil, chain_nil]
      abel

variable (this v next)

/-- A cell that is linked behind the last one is the last one. -/
theorem append_spec (l : List (Item α)) (x : Item α) (p : Option ℕ) :
    Spec (E.owned this v next l none (last none l) + x.cells p) (E.append this x.addr)
      fun _ t => t = E.owned this v next (l ++ [x]) p (some x.addr) := by
  have hown : ∀ tail, E.owned this v next l (some x.addr) tail + x.cells p
      = E.owned this v next (l ++ [x]) p tail + 0 := by
    intro tail
    rw [owned_cons, chain_nil, first_nil, add_zero, add_zero]
  refine .bind (load_spec hv (add_assoc _ _ _)) ?_
  rintro _ _ ⟨rfl, rfl⟩
  refine .bind (put_spec hv rfl _) ?_
  rintro - _ rfl
  refine (setLast_spec hv (hown _) _).mono ?_
  rintro - _ rfl
  exact add_zero _

/-- A cell that is linked in: the last cell that the owner knows is what it was. -/
theorem insertAfter_spec (tail : Option ℕ) (k l : List (Item α)) (x : Item α) (p : Option ℕ) :
    Spec (E.owned this v next (k ++ l) none tail + x.cells p)
      (E.insertAfter this (last none k) x.addr)
      fun _ t => t = E.owned this v next (k ++ x :: l) none tail := by
  rw [owned_append, owned_cons]
  refine .bind (peek_spec hv (add_assoc _ _ _)) ?_
  rintro _ _ ⟨rfl, rfl⟩
  refine .bind (.setNext (n := ⟨x.value, p⟩) (r := x.inner +
    (E.owned this v next k (first none l) tail + chain l none)) (by rw [Item.cells]; abel) _) ?_
  rintro - _ rfl
  refine (put_spec hv (k := k) (r := x.cells (first none l) + chain l none)
    (by rw [Item.cells]; abel) _).mono ?_
  rintro - _ rfl
  exact (add_assoc _ _ _).symm

/-- A cell that is taken out. -/
theorem unlink_spec (k l : List (Item α)) (x : Item α) :
    Spec (E.owned this v next (k ++ x :: l) none (last none (k ++ x :: l)))
      (E.unlink this (last none k) x.addr)
      fun _ t => t = E.owned this v next (k ++ l) none (last none (k ++ l)) +
        x.cells (first none l) := by
  refine .of_nodup fun hnodup => ?_
  -- `x` is the last cell if there is none behind it
  have hlast : last none (k ++ x :: l) = some x.addr ↔ l = [] := by
    rw [owned_append, Multiset.map_add] at hnodup
    rw [last_append]
    exact last_eq_iff (Multiset.nodup_add.1 hnodup).2.1
  rw [owned_cons]
  refine .bind (.load (a := x.addr) (n := ⟨x.value, first none l⟩) (r := x.inner + chain l none +
    E.owned this v next k (some x.addr) (last none (k ++ x :: l)))
    (by rw [Item.cells]; abel)) ?_
  rintro _ _ ⟨rfl, rfl⟩
  refine .bind (put_spec hv (add_assoc _ _ _) _) ?_
  rintro - _ rfl
  have hown : ∀ tail, E.owned this v next k (first none l) tail +
      (x.cells (first none l) + chain l none)
      = E.owned this v next (k ++ l) none tail + x.cells (first none l) := by
    intro tail
    rw [owned_append]
    abel
  refine .bind (load_spec hv (add_assoc _ _ _)) ?_
  rintro _ _ ⟨rfl, rfl⟩
  dsimp only
  by_cases hl : l = []
  · rw [if_pos (hlast.2 hl)]
    refine (setLast_spec hv (hown _) _).mono ?_
    rintro - _ rfl
    rw [hl, List.append_nil]
  · rw [if_neg fun h => hl (hlast.1 h)]
    refine .pure ?_
    obtain ⟨y, m, rfl⟩ := List.exists_cons_of_ne_nil hl
    simp only [hown, last_append, last_cons]

end

end Ends

/-! ## 5. Along a chain -/

/-- Goes on to the first cell with `p`; the result is the cell before it and the cell. -/
def search (p : α → Bool) : ℕ → Option ℕ → Option ℕ → Mem α (Option ℕ × Option ℕ)
  | _, prev, none => pure (prev, none)
  | 0, _, some _ => failure
  | n + 1, prev, some a => do
      let c ← load a
      if p c.value then pure (prev, some a) else search p n (some a) c.next

/-- Gives the cells of a chain back; each is looked at before it goes. -/
def clearFrom (del : ℕ → Mem α Unit) : ℕ → Option ℕ → Mem α Unit
  | _, none => pure ()
  | 0, some _ => failure
  | n + 1, some a => do
      let c ← load a
      del a
      clearFrom del n c.next

/-- Copies the cells of a chain one by one; each copy is linked at the place behind the last. -/
def Ends.copyFrom (E : Ends α) (copy : ℕ → Mem α ℕ) :
    ℕ → Option ℕ → Place → Option ℕ → Mem α (Option ℕ)
  | _, none, _, newest => pure newest
  | 0, some _, _, _ => failure
  | n + 1, some a, place, _ => do
      let x ← copy a
      E.put place (some x)
      let c ← Linked.load a
      E.copyFrom copy n c.next (.next x) (some x)

theorem search_spec {p : α → Bool} {s r : Multiset (ℕ × Node α)} {l : List (Item α)} {n : ℕ}
    (hn : l.length ≤ n) (prev : Option ℕ) (hs : s = chain l none + r) :
    Spec s (search p n prev (first none l)) fun v t => t = s ∧ ∃ k m, l = k ++ m ∧
      (∀ x ∈ k, p x.value = false) ∧ (∀ x ∈ m.head?, p x.value = true) ∧
      v = (last prev k, first none m) := by
  induction l generalizing n prev r with
  | nil =>
    unfold first search
    exact .pure ⟨rfl, [], [], rfl, by simp, by simp, rfl⟩
  | cons x l ih =>
    obtain ⟨n, rfl⟩ := Nat.exists_eq_succ_of_ne_zero (Nat.ne_of_gt (Nat.zero_lt_of_lt hn))
    have hn := Nat.le_of_succ_le_succ hn
    refine .bind (.load (n := ⟨x.value, first none l⟩) (r := x.inner + chain l none + r)
      (by rw [hs, chain_cons]; abel)) ?_
    rintro _ _ ⟨rfl, rfl⟩
    dsimp only
    cases hx : p x.value with
    | true => exact .pure ⟨rfl, [], x :: l, rfl, by simp, by simpa using hx, rfl⟩
    | false =>
      refine (ih hn (some x.addr)
        (r := {(x.addr, ⟨x.value, first none l⟩)} + x.inner + r)
        (by rw [hs, chain_cons]; abel)).mono ?_
      rintro v t ⟨rfl, k, m, rfl, hk, hm, rfl⟩
      refine ⟨rfl, x :: k, m, rfl, ?_, hm, rfl⟩
      intro y hy
      rcases List.mem_cons.1 hy with rfl | hy
      · exact hx
      · exact hk y hy

/-- All that hangs below the cells goes with them. -/
theorem clearFrom_spec (del : ℕ → Mem α Unit) {l : List (Item α)} {n : ℕ} (hn : l.length ≤ n)
    (hdel : ∀ x ∈ l, ∀ p, Spec (x.cells p) (del x.addr) fun _ t => t = 0) :
    Spec (chain l none) (clearFrom del n (first none l)) fun _ t => t = 0 := by
  induction l generalizing n with
  | nil =>
    unfold first clearFrom
    exact .pure rfl
  | cons x l ih =>
    obtain ⟨n, rfl⟩ := Nat.exists_eq_succ_of_ne_zero (Nat.ne_of_gt (Nat.zero_lt_of_lt hn))
    have hn := Nat.le_of_succ_le_succ hn
    refine .bind (.load (n := ⟨x.value, first none l⟩) (add_assoc _ _ _)) ?_
    rintro _ _ ⟨rfl, rfl⟩
    refine .frame_bind (hdel x List.mem_cons_self _) rfl ?_
    intro _
    rw [zero_add]
    exact ih hn fun y hy => hdel y (List.mem_cons_of_mem _ hy)

/-- The copies are a chain of their own. -/
theorem Ends.copyFrom_spec {ι : Type} {E : Ends α} {copy : ℕ → Mem α ℕ} (this : ℕ) (v : α)
    (next tail : Option ℕ) {q : Option ℕ × Option ℕ} (hv : E.get v = some q) (item : ι → Item α)
    (R : ι → Item α → Prop) {l : List ι} {n : ℕ} (hn : l.length ≤ n)
    (hcopy : ∀ x ∈ l, ∀ p, Spec ((item x).cells p) (copy (item x).addr)
      fun a t => ∃ y, a = y.addr ∧ R x y ∧ t = (item x).cells p + y.cells none)
    (k : List (Item α)) :
    Spec (chain (l.map item) none + E.owned this v next k none tail)
      (E.copyFrom copy n (first none (l.map item)) (.after this (last none k)) (last none k))
      fun a t => ∃ m, List.Forall₂ R l m ∧ a = last none (k ++ m) ∧
        t = chain (l.map item) none + E.owned this v next (k ++ m) none tail := by
  induction l generalizing n k with
  | nil =>
    unfold List.map first Ends.copyFrom
    exact .pure ⟨[], .nil, by rw [List.append_nil], by rw [List.append_nil]⟩
  | cons x l ih =>
    obtain ⟨n, rfl⟩ := Nat.exists_eq_succ_of_ne_zero (Nat.ne_of_gt (Nat.zero_lt_of_lt hn))
    have hn := Nat.le_of_succ_le_succ hn
    rw [List.map_cons]
    refine .bind (((hcopy x List.mem_cons_self _).frame
      (chain (l.map item) none + E.owned this v next k none tail)).of_eq (add_assoc _ _ _)) ?_
    rintro _ _ ⟨_, ⟨y, rfl, hy, rfl⟩, rfl⟩
    refine .bind (put_spec hv (k := k) (r := (item x).cells (first none (l.map item)) +
      y.cells none + chain (l.map item) none) (by abel) _) ?_
    rintro - _ rfl
    refine .bind (.load (n := ⟨(item x).value, first none (l.map item)⟩) (r := (item x).inner +
      y.cells none + chain (l.map item) none + E.owned this v next k (some y.addr) tail)
      (by rw [Item.cells]; abel)) ?_
    rintro _ _ ⟨rfl, rfl⟩
    have hrest := ih hn (fun z hz => hcopy z (List.mem_cons_of_mem _ hz)) (k ++ [y])
    rw [last_append] at hrest
    refine ((hrest.frame ((item x).cells (first none (l.map item)))).of_eq ?_).mono ?_
    · rw [owned_cons, chain_nil, first_nil]
      simp only [Item.cells]
      abel
    · rintro _ _ ⟨_, ⟨m, hm, rfl, rfl⟩, rfl⟩
      refine ⟨y :: m, .cons hy hm, by simp, ?_⟩
      rw [List.append_assoc, List.cons_append, List.nil_append, chain_cons, Item.cells]
      abel

/-- The copies in an element that had none, which then knows the last of them. -/
theorem Ends.copyAll_bind {ι γ : Type} {E : Ends α} {copy : ℕ → Mem α ℕ} (this : ℕ) (v : α)
    (next : Option ℕ) {q : Option ℕ × Option ℕ} (hv : E.get v = some q) (item : ι → Item α)
    (R : ι → Item α → Prop) {l : List ι} {n : ℕ} (hn : l.length ≤ n)
    (hcopy : ∀ x ∈ l, ∀ p, Spec ((item x).cells p) (copy (item x).addr)
      fun a t => ∃ y, a = y.addr ∧ R x y ∧ t = (item x).cells p + y.cells none)
    {s r : Multiset (ℕ × Node α)}
    (hs : s = chain (l.map item) none + E.owned this v next [] none none + r)
    {f : Mem α γ} {Q : γ → Multiset (ℕ × Node α) → Prop}
    (hf : ∀ m, List.Forall₂ R l m →
      Spec (E.owned this v next m none (last none m) + chain (l.map item) none + r) f Q) :
    Spec s (do
      let a ← E.copyFrom copy n (first none (l.map item)) (.first this) none
      E.setLast this a
      f) Q := by
  refine .bind (((copyFrom_spec this v next none hv item R hn hcopy []).frame r).of_eq hs) ?_
  rintro a _ ⟨_, ⟨m, hm, rfl, rfl⟩, rfl⟩
  rw [List.nil_append]
  refine .bind (E.setLast_spec hv (r := chain (l.map item) none + r) (by abel) _) ?_
  rintro - _ rfl
  exact (hf m hm).of_eq (by abel)

end Linked
