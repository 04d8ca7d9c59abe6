/-
`talk/xmllite/xmlelement.cc`: the children of an element as the list that the edits denote.

The children are the chain from `first_child_`, and `last_child_` is where the next one is
linked. `InsertChildAfter` does not set it: a child that is put behind the last one, or in front
of none, is in the chain and the element does not know that it is the last, so the next append
goes in its place. Every other edit, and `InsertChildAfter` anywhere else, keeps the list
(`children_list_iff`).

Between two edits anything may happen that does not touch the element: that is how the children
come about which are handed over.
-/
import Gxmpp.XmlPlaced
import Gxmpp.XmlEdit

set_option autoImplicit false

namespace Gxmpp.XmlCells

open Linked

/-! ## 1. The children of an element -/

/-- The cells of an element and of its children, where it knows the last one. -/
def kids (this : ℕ) (e : Fields) (next : Option ℕ) (l : List Placed) :
    Multiset (ℕ × Node Cell) :=
  childEnds.owned this (.element e) next (l.map Placed.item) none (last none (l.map Placed.item))

/-- The children of an element are the chain from `first_child_`, and `last_child_` is the last
of them. -/
def ChildrenAre (h : Store Cell) (this : ℕ) (l : List XmlChild) : Prop :=
  ∃ e next children, children.map Placed.tree = l ∧ Has h (kids this e next children)

/-- The text of an only child. -/
def bodyOf : List XmlChild → Str
  | [.text t] => t
  | _ => STR_EMPTY

/-- What `AddText` makes of the children. -/
def addTextTo (l : List XmlChild) (text : Str) : List XmlChild :=
  if text.isEmpty then l
  else
    match l.getLast? with
    | some (.text t) => l.dropLast ++ [.text (t ++ text)]
    | _ => l ++ [.text text]

section

variable (this : ℕ) (e : Fields) (next : Option ℕ)

theorem kids_append (k l : List Placed) :
    kids this e next (k ++ l) = childEnds.owned this (.element e) next (k.map Placed.item)
        (first none (l.map Placed.item)) (last none ((k ++ l).map Placed.item)) +
      chain (l.map Placed.item) none := by
  rw [kids, List.map_append, Ends.owned_append]

theorem length_le_card_kids (l : List Placed) : l.length ≤ (kids this e next l).card := by
  have hlen := length_le_card (l.map Placed.item) none
  rw [List.length_map] at hlen
  rw [kids, Ends.owned, Multiset.card_add]
  omega

/-- A new child behind the others. -/
theorem append_kids (l : List Placed) (c : Placed) :
    Spec (kids this e next l + c.item.cells none) (childEnds.append this c.item.addr)
      fun _ t => t = kids this e next (l ++ [c]) := by
  refine (childEnds.append_spec this (.element e) next rfl (l.map Placed.item) c.item none).mono ?_
  rintro - _ rfl
  rw [kids, List.map_append, last_append]
  rfl

theorem addElement_spec (l : List Placed) (c : Placed) (p : Option ℕ) :
    Spec (kids this e next l + c.item.cells p) (addElement this (some c.item.addr))
      fun _ t => t = kids this e next (l ++ [c]) := by
  refine .bind (childEnds.append_spec this (.element e) next rfl (l.map Placed.item) c.item p) ?_
  rintro - _ rfl
  rw [kids, List.map_append, List.map_cons, List.map_nil, Ends.owned_cons, Ends.owned_cons]
  refine (Spec.setNext (n := ⟨c.item.value, p⟩) (r := childEnds.owned this (.element e) next
    (l.map Placed.item) (some c.item.addr) (some c.item.addr) + c.item.inner) ?_ _).mono ?_
  · rw [Item.cells, first_nil, chain_nil]
    abel
  · rintro - _ rfl
    rw [Item.cells, first_nil, chain_nil, last_append, last_cons, last_nil]
    abel

theorem appendText_spec (l : List Placed) (text : Str) :
    Spec (kids this e next l) (appendText this text)
      fun _ t => ∃ a, t = kids this e next (l ++ [.text a text]) := by
  refine .bind (.new _) ?_
  rintro a _ rfl
  refine ((append_kids this e next l (.text a text)).of_eq ?_).mono ?_
  · rw [add_comm]
    rfl
  · rintro - _ rfl
    exact ⟨a, rfl⟩

/-- The last child, taken out of the others. -/
theorem kids_concat (k : List Placed) (c : Placed) :
    kids this e next (k ++ [c]) = {(c.item.addr, ⟨c.item.value, none⟩)} + (c.item.inner +
      childEnds.owned this (.element e) next (k.map Placed.item) (some c.item.addr)
        (some c.item.addr)) := by
  rw [kids, List.map_append, List.map_cons, List.map_nil, Ends.owned_cons, last_append, last_cons,
    last_nil, Item.cells, first_nil, chain_nil]
  abel

theorem addText_spec (l : List Placed) (text : Str) :
    Spec (kids this e next l) (addText this text) fun _ t => ∃ l',
      l'.map Placed.tree = addTextTo (l.map Placed.tree) text ∧ t = kids this e next l' := by
  unfold addText addParsedText addTextTo
  by_cases htext : text.isEmpty = true
  · rw [if_pos htext, if_pos htext]
    exact .pure ⟨l, rfl, rfl⟩
  rw [if_neg htext, if_neg htext]
  have happend : Spec (kids this e next l) (appendText this text) fun _ t => ∃ l',
      l'.map Placed.tree = l.map Placed.tree ++ [.text text] ∧ t = kids this e next l' := by
    refine (appendText_spec this e next l text).mono ?_
    rintro - _ ⟨a, rfl⟩
    refine ⟨l ++ [.text a text], ?_, rfl⟩
    rw [List.map_append]
    rfl
  refine .bind (childEnds.load_spec rfl rfl) ?_
  rintro _ _ ⟨rfl, rfl⟩
  rcases List.eq_nil_or_concat l with rfl | ⟨k, c, rfl⟩
  · exact happend
  · rw [List.concat_eq_append] at happend ⊢
    rw [List.map_append, last_append, List.getLast?_map, List.getLast?_concat]
    dsimp only [List.map_cons, List.map_nil, last_cons, last_nil, Option.map_some]
    refine .bind (.load (kids_concat this e next k c)) ?_
    rintro _ _ ⟨rfl, rfl⟩
    cases c with
    | element addr name attrs lastAttr children lastChild cdata => exact happend
    | text addr t =>
      change Spec _ (modifyText addr fun t => t ++ text) _
      refine (modifyText_spec (kids_concat this e next k (.text addr t)) _).mono ?_
      rintro - _ rfl
      refine ⟨k ++ [Placed.text addr (t ++ text)], ?_, ?_⟩
      · simp [Placed.tree]
      · exact (kids_concat this e next k (.text addr (t ++ text))).symm

/-- A child that is put between two others, or in front of one. -/
theorem insertChildAfter_spec (k l : List Placed) (hl : l ≠ []) (c : Placed) (p : Option ℕ) :
    Spec (kids this e next (k ++ l) + c.item.cells p)
      (insertChildAfter this (last none (k.map Placed.item)) c.item.addr)
      fun _ t => t = kids this e next (k ++ c :: l) := by
  rw [kids, List.map_append]
  refine (childEnds.insertAfter_spec this (.element e) next rfl _ (k.map Placed.item)
    (l.map Placed.item) c.item p).mono ?_
  rintro - _ rfl
  obtain ⟨d, l, rfl⟩ := List.exists_cons_of_ne_nil hl
  simp only [kids, List.map_append, List.map_cons, last_append, last_cons]

theorem removeChildAfter_spec (k l : List Placed) (c : Placed) :
    Spec (kids this e next (k ++ c :: l))
      (removeChildAfter this (last none (k.map Placed.item)))
      fun _ t => t = kids this e next (k ++ l) := by
  refine .bind (childEnds.peek_spec rfl (kids_append this e next k (c :: l))) ?_
  rintro _ _ ⟨rfl, rfl⟩
  refine .bind (.deref _) ?_
  rintro _ _ ⟨rfl, rfl⟩
  have hunlink := childEnds.unlink_spec this (.element e) next rfl
    (k.map Placed.item) (l.map Placed.item) c.item
  refine .bind (hunlink.of_eq (by rw [kids, List.map_append, List.map_cons])) ?_
  rintro - _ rfl
  refine (((deleteChild_spec c (first none (l.map Placed.item))).frame
    (kids this e next (k ++ l))).of_eq ?_).mono ?_
  · rw [kids, List.map_append]
    exact add_comm _ _
  · rintro - _ ⟨_, rfl, rfl⟩
    exact zero_add _

theorem item_isNamed (c : Placed) (name : QName) :
    c.item.value.isNamed name = c.tree.isNamed name := by
  cases c with
  | text | element => rfl

/-- The loop has gone over `k` and has `l` before it. -/
theorem clearNamedFrom_spec (name : QName) {n : ℕ} (k l : List Placed) (hn : l.length ≤ n) :
    Spec (kids this e next (k ++ l)) (clearNamedFrom this name n (last none (k.map Placed.item))
      (first none (l.map Placed.item)))
      fun _ t => t = kids this e next (k ++ l.filter fun c => !c.tree.isNamed name) := by
  induction l generalizing k n with
  | nil =>
    unfold List.map first clearNamedFrom
    exact .pure rfl
  | cons c l ih =>
    obtain ⟨n, rfl⟩ := Nat.exists_eq_succ_of_ne_zero (Nat.ne_of_gt (Nat.zero_lt_of_lt hn))
    have hn := Nat.le_of_succ_le_succ hn
    refine .bind (.load (a := c.item.addr)
      (n := ⟨c.item.value, first none (l.map Placed.item)⟩)
      (r := c.item.inner + chain (l.map Placed.item) none + childEnds.owned this (.element e)
        next (k.map Placed.item) (some c.item.addr)
        (last none ((k ++ c :: l).map Placed.item))) ?_) ?_
    · rw [kids_append, List.map_cons, first_cons, chain_cons]
      abel
    rintro _ _ ⟨rfl, rfl⟩
    dsimp only
    rw [item_isNamed, List.filter_cons]
    cases hnamed : c.tree.isNamed name with
    | true =>
      refine .bind (removeChildAfter_spec this e next k l c) ?_
      rintro - _ rfl
      exact ih k hn
    | false =>
      have hrest := ih (k ++ [c]) hn
      rw [List.map_append, last_append, List.append_assoc, List.append_assoc] at hrest
      exact hrest

theorem clearNamedChildren_spec (l : List Placed) (name : QName) :
    Spec (kids this e next l) (clearNamedChildren this name)
      fun _ t => t = kids this e next (l.filter fun c => !c.tree.isNamed name) := by
  refine .bind (childEnds.load_spec rfl rfl) ?_
  rintro _ _ ⟨rfl, rfl⟩
  refine .bind .size ?_
  rintro n _ ⟨hn, rfl⟩
  exact clearNamedFrom_spec this e next name [] l ((length_le_card_kids this e next l).trans hn)

theorem clearChildren_spec (l : List Placed) :
    Spec (kids this e next l) (clearChildren this) fun _ t => t = kids this e next [] := by
  refine .bind (childEnds.load_spec rfl rfl) ?_
  rintro _ _ ⟨rfl, rfl⟩
  refine .bind .size ?_
  rintro n _ ⟨hn, rfl⟩
  have hlen := (length_le_card_kids this e next l).trans hn
  refine .frame_bind (u := 0) (clearFrom_spec deleteChild (l := l.map Placed.item)
    (by rwa [List.length_map]) ?_) (add_comm _ _) ?_
  · intro x hx p
    obtain ⟨c, -, rfl⟩ := List.mem_map.1 hx
    exact deleteChild_spec c p
  intro _
  refine .bind (childEnds.setLast_spec (v := .element e) rfl (show _ = childEnds.owned this
    (.element e) next [] (first none (l.map Placed.item)) _ + 0 by
      rw [Ends.owned, first_nil, chain_nil]
      abel) _) ?_
  rintro - _ rfl
  refine (childEnds.setFirst_spec (v := .element e) rfl
    (p := (first none (l.map Placed.item), none)) (r := 0) (by
      rw [Ends.owned, first_nil, chain_nil]
      abel) _).mono ?_
  rintro - _ rfl
  rfl

/-- The first child is the last one if it is the only one. -/
theorem last_kids {l : List Placed} {c : Placed}
    (h : ((kids this e next (c :: l)).map Prod.fst).Nodup) :
    last none ((c :: l).map Placed.item) = some c.item.addr ↔ l = [] := by
  rw [kids, Ends.owned, Multiset.map_add] at h
  rw [List.map_cons, last_cons, last_eq_iff (Multiset.nodup_add.1 h).2.1, List.map_eq_nil_iff]

/-- The first child, taken out of the others. -/
theorem kids_cons (c : Placed) (l : List Placed) :
    kids this e next (c :: l) = {(c.item.addr, ⟨c.item.value, first none (l.map Placed.item)⟩)} +
      (c.item.inner + chain (l.map Placed.item) none + {(this, ⟨childEnds.set (some c.item.addr,
        last none ((c :: l).map Placed.item)) (.element e), next⟩)}) := by
  rw [kids, Ends.owned, List.map_cons, chain_cons, first_cons]
  abel

theorem bodyText_spec (l : List Placed) :
    Spec (kids this e next l) (bodyText this)
      fun v t => v = bodyOf (l.map Placed.tree) ∧ t = kids this e next l := by
  refine .of_nodup fun hnodup => ?_
  refine .bind (childEnds.load_spec rfl rfl) ?_
  rintro _ _ ⟨rfl, rfl⟩
  cases l with
  | nil => exact .pure ⟨rfl, rfl⟩
  | cons c l =>
    have hlast := last_kids this e next hnodup
    refine .bind (.load (kids_cons this e next c l)) ?_
    rintro _ _ ⟨rfl, rfl⟩
    cases c with
    | element addr name attrs lastAttr children lastChild cdata => exact .pure ⟨rfl, rfl⟩
    | text addr t =>
      change _ = some addr ↔ _ at hlast
      change Spec _ (if last none ((Placed.text addr t :: l).map Placed.item) = some addr
        then pure t else pure STR_EMPTY) _
      cases l with
      | nil =>
        rw [if_pos (hlast.2 rfl)]
        exact .pure ⟨rfl, rfl⟩
      | cons d l =>
        rw [if_neg fun h => List.cons_ne_nil d l (hlast.1 h)]
        exact .pure ⟨rfl, rfl⟩

/-- What `SetBodyText` makes of the children. -/
def bodySet (text : Str) : List XmlChild := if text.isEmpty then [] else [.text text]

theorem setBodyText_spec (l : List Placed) (text : Str) :
    Spec (kids this e next l) (setBodyText this text) fun _ t => ∃ l',
      l'.map Placed.tree = bodySet text ∧ t = kids this e next l' := by
  unfold setBodyText bodySet
  by_cases htext : text.isEmpty = true
  · rw [if_pos htext, if_pos htext]
    refine (clearChildren_spec this e next l).mono ?_
    rintro - _ rfl
    exact ⟨[], rfl, rfl⟩
  rw [if_neg htext, if_neg htext]
  have hadd := addText_spec this e next [] text
  unfold addTextTo at hadd
  rw [if_neg htext] at hadd
  -- whatever is not a single text is cleared first
  have hclear : Spec (kids this e next l) (do clearChildren this; addText this text)
      fun _ t => ∃ l', l'.map Placed.tree = [.text text] ∧ t = kids this e next l' := by
    refine .bind (clearChildren_spec this e next l) ?_
    rintro - _ rfl
    exact hadd
  refine .of_nodup fun hnodup => ?_
  refine .bind (childEnds.load_spec rfl rfl) ?_
  rintro _ _ ⟨rfl, rfl⟩
  cases l with
  | nil => exact hadd
  | cons c l =>
    have hlast := last_kids this e next hnodup
    refine .bind (.load (kids_cons this e next c l)) ?_
    rintro _ _ ⟨rfl, rfl⟩
    cases c with
    | element addr name attrs lastAttr children lastChild cdata => exact hclear
    | text addr t =>
      change _ = some addr ↔ _ at hlast
      change Spec _ (if (true && decide (last none ((Placed.text addr t :: l).map Placed.item)
        = some addr)) = true then setText addr text else _) _
      cases l with
      | nil =>
        rw [if_pos (by rw [decide_eq_true (hlast.2 rfl)]; rfl)]
        refine (modifyText_spec (kids_cons this e next (.text addr t) []) _).mono ?_
        rintro - _ rfl
        refine ⟨[Placed.text addr text], rfl, ?_⟩
        exact (kids_cons this e next (.text addr text) []).symm
      | cons d l =>
        rw [if_neg]
        · exact hclear
        · rw [decide_eq_false fun h => List.cons_ne_nil d l (hlast.1 h)]
          exact Bool.false_ne_true

end

/-! ## 3. Edits and runs -/

/-- An edit of the children. A child that is handed over is given by its value, and a predecessor
by its place. -/
inductive ChildEdit where
  | addElement (child : Option XmlElement)
  | addText (text : Str)
  | addParsedText (text : Str)
  | insertChildAfter (predecessor : Option ℕ) (next : XmlChild)
  | removeChildAfter (predecessor : Option ℕ)
  | clearNamedChildren (name : QName)
  | clearChildren
  | setBodyText (text : Str)

/-- The edits on a plain list. -/
def ChildEdit.denote : ChildEdit → List XmlChild → List XmlChild
  | .addElement none, l => l
  | .addElement (some e), l => l ++ [.element e]
  | .addText text, l => addTextTo l text
  | .addParsedText text, l => addTextTo l text
  | .insertChildAfter none c, l => c :: l
  | .insertChildAfter (some i) c, l => l.insertIdx (i + 1) c
  | .removeChildAfter none, l => l.tail
  | .removeChildAfter (some i), l => l.eraseIdx (i + 1)
  | .clearNamedChildren name, l => l.filter fun c => !c.isNamed name
  | .clearChildren, _ => []
  | .setBodyText text, _ => bodySet text

/-- The functions of the value model are the edits of a plain list. -/
theorem denote_children (e child : XmlElement) (text : Str) (predecessor : Option ℕ)
    (name : QName) :
    (e.addElement child).children = (ChildEdit.addElement (some child)).denote e.children ∧
      (e.addText text).children = (ChildEdit.addText text).denote e.children ∧
      (e.removeChildAfter predecessor).children
        = (ChildEdit.removeChildAfter predecessor).denote e.children ∧
      (e.clearNamedChildren name).children
        = (ChildEdit.clearNamedChildren name).denote e.children ∧
      e.bodyText = bodyOf e.children := by
  refine ⟨rfl, ?_, ?_, rfl, rfl⟩
  · change _ = addTextTo e.children text
    unfold XmlElement.addText addTextTo
    by_cases htext : text.isEmpty = true
    · rw [if_pos htext, if_pos htext]
    · rw [if_neg htext, if_neg htext]
      cases e.children.getLast? with
      | none => rfl
      | some c =>
        cases c with
        | text | element => rfl
  · cases predecessor with
    | none | some => rfl

/-- The list that some edits denote. -/
def denoteAll (l : List XmlChild) (ops : List ChildEdit) : List XmlChild :=
  ops.foldl (fun l op => op.denote l) l

/-- A child is inserted behind the last one, or in front of none. -/
def ChildEdit.Forgets : ChildEdit → List XmlChild → Prop
  | .insertChildAfter none _, l => l = []
  | .insertChildAfter (some i) _, l => i + 1 = l.length
  | _, _ => False

/-- No edit inserts a child behind the last one. -/
def TailKept (l : List XmlChild) (ops : List ChildEdit) : Prop :=
  ∀ before op, before ++ [op] <+: ops → ¬ op.Forgets (denoteAll l before)

/-- The cells of an element: where its pointers lead, but not the one to its next sibling. -/
inductive Reach (h : Store Cell) (this : ℕ) : ℕ → Prop where
  | self : Reach h this this
  | member {a n p} (ha : Reach h this a) (hn : h.read a = some n) (hp : p ∈ n.value.pointers) :
      Reach h this p
  | next {a n p} (ha : Reach h this a) (hne : a ≠ this) (hn : h.read a = some n)
      (hp : n.next = some p) : Reach h this p

/-- A child that stands by itself and is no part of the element. -/
def Standing (h : Store Cell) (this p : ℕ) (t : XmlChild) : Prop :=
  ∃ (c : Placed) (next : Option ℕ), c.item.addr = p ∧ c.tree = t ∧ Has h (c.item.cells next) ∧
    ∀ q ∈ c.item.cells next, ¬ Reach h this q.1

/-- The child at a place of the chain. -/
def childAt (h : Store Cell) (this : ℕ) : ℕ → Option ℕ
  | 0 => (h.read this).bind fun n => (childEnds.get n.value).bind Prod.fst
  | i + 1 => (childAt h this i).bind fun a => (h.read a).bind Node.next

/-- The call that is an edit. -/
inductive Calls (h : Store Cell) (this : ℕ) : ChildEdit → Mem Cell Unit → Prop where
  | addNull : Calls h this (.addElement none) (addElement this none)
  | addElement {p e} (hp : Standing h this p (.element e)) :
      Calls h this (.addElement (some e)) (addElement this (some p))
  | addText (text) : Calls h this (.addText text) (addText this text)
  | addParsedText (text) : Calls h this (.addParsedText text) (addParsedText this text)
  | insertFirst {p c} (hp : Standing h this p c) :
      Calls h this (.insertChildAfter none c) (insertChildAfter this none p)
  | insertAfter {i a p c} (ha : childAt h this i = some a) (hp : Standing h this p c) :
      Calls h this (.insertChildAfter (some i) c) (insertChildAfter this (some a) p)
  | removeFirst {a} (ha : childAt h this 0 = some a) :
      Calls h this (.removeChildAfter none) (removeChildAfter this none)
  | removeAfter {i a b} (ha : childAt h this i = some a) (hb : childAt h this (i + 1) = some b) :
      Calls h this (.removeChildAfter (some i)) (removeChildAfter this (some a))
  | clearNamedChildren (name) :
      Calls h this (.clearNamedChildren name) (clearNamedChildren this name)
  | clearChildren : Calls h this .clearChildren (clearChildren this)
  | setBodyText (text) : Calls h this (.setBodyText text) (setBodyText this text)

/-- Edits of an element, with anything between them that leaves its cells as they are. What is
reached is `none` if the last call has no result. -/
inductive Run (this : ℕ) (h : Store Cell) : List ChildEdit → Option (Store Cell) → Prop where
  | start : Run this h [] (some h)
  | call {ops h' op m} (hrun : Run this h ops (some h')) (hcall : Calls h' this op m) :
      Run this h (ops ++ [op]) ((m h').map Prod.snd)
  | other {ops h' h''} (hrun : Run this h ops (some h'))
      (hsame : ∀ a, Reach h' this a → h''.read a = h'.read a) : Run this h ops (some h'')

/-! ## 4. One edit -/

section

variable {h : Store Cell} {this : ℕ}

variable {e : Fields} {l : List Placed} {next : Option ℕ}

theorem reach_kids (hh : Has h (kids this e next l)) :
    ∀ q ∈ kids this e next l, Reach h this q.1 := by
  have hthis := hh.mem_read
  intro q hq
  rcases Multiset.mem_add.1 hq with hq | hq
  · rw [Multiset.mem_singleton.1 hq]
    exact .self
  · refine chain_subset (S := {a | Reach h this a})
      (show ∀ x ∈ l.map Placed.item, x.Rooted Cell.pointers from ?_) ?_ ?_ q hq
    · intro x hx
      obtain ⟨c, -, rfl⟩ := List.mem_map.1 hx
      exact c.rooted
    · intro r hr hreach p hp
      have hread := hh.right.read r hr
      rcases List.mem_append.1 hp with hp | hp
      · exact .next hreach (hh.ne_of_mem hr) hread (Option.mem_toList.1 hp)
      · exact .member hreach hread hp
    · intro a ha
      refine .member .self hthis ?_
      simp [childEnds, Cell.pointers, Option.mem_toList.2 ha]

/-- A child that stands by itself is beside the element. -/
theorem Standing.beside {p : ℕ} {t : XmlChild} (hp : Standing h this p t)
    (hh : Has h (kids this e next l)) :
    ∃ (c : Placed) (after : Option ℕ), c.item.addr = p ∧ c.tree = t ∧
      Has h (kids this e next l + c.item.cells after) := by
  obtain ⟨c, after, haddr, htree, hc, hnot⟩ := hp
  refine ⟨c, after, haddr, htree, hh.add hc fun q hq r hr heq => ?_⟩
  exact hnot r hr (heq ▸ reach_kids hh q hq)

theorem childAt_kids (hh : Has h (kids this e next l)) (i : ℕ) :
    childAt h this i = first none ((l.drop i).map Placed.item) := by
  induction i with
  | zero =>
    unfold childAt
    rw [hh.mem_read]
    rfl
  | succ i ih =>
    have hnext : l.drop (i + 1) = (l.drop i).tail := by rw [List.tail_drop]
    rw [childAt, ih, hnext]
    cases hl : l.drop i with
    | nil => rfl
    | cons c rest =>
      have hkids := kids_append this e next (l.take i) (c :: rest)
      rw [← hl, List.take_append_drop, hl] at hkids
      have hread := hh.read (c.item.addr, ⟨c.item.value, first none (rest.map Placed.item)⟩)
        (by simp [hkids])
      rw [List.map_cons, first_cons, Option.bind_some, hread]
      rfl

/-- A place of the chain is a place of the list. -/
theorem childAt_eq_some (hh : Has h (kids this e next l)) {i a : ℕ}
    (ha : childAt h this i = some a) :
    ∃ k c rest, l = k ++ c :: rest ∧ c.item.addr = a ∧ k.length = i := by
  rw [childAt_kids hh] at ha
  cases hl : l.drop i with
  | nil =>
    rw [hl] at ha
    cases ha
  | cons c rest =>
    rw [hl] at ha
    refine ⟨l.take i, c, rest, ?_, Option.some_inj.1 ha, ?_⟩
    · rw [← hl, List.take_append_drop]
    · have hlen := congrArg List.length hl
      rw [List.length_drop, List.length_cons] at hlen
      rw [List.length_take]
      omega

/-- The last child has another one behind it, or there are children and no last one. -/
def TailLost (h : Store Cell) (this : ℕ) : Prop :=
  ∃ (e : Fields) (next : Option ℕ), h.read this = some ⟨.element e, next⟩ ∧
    (e.lastChild = none ∧ e.firstChild ≠ none ∨
      ∃ a c, e.lastChild = some a ∧ h.read a = some c ∧ c.next ≠ none)

/-- What is done elsewhere does not find it again. -/
theorem TailLost.other {h' : Store Cell} (ht : TailLost h this)
    (hsame : ∀ a, Reach h this a → h'.read a = h.read a) : TailLost h' this := by
  obtain ⟨e, next, hread, hlost⟩ := ht
  refine ⟨e, next, (hsame this .self).trans hread, hlost.imp_right ?_⟩
  rintro ⟨a, c, hlast, hc, hnext⟩
  refine ⟨a, c, hlast, (hsame a ?_).trans hc, hnext⟩
  exact .member .self hread (by simp [Cell.pointers, hlast])

theorem ChildrenAre.other {h' : Store Cell} {l : List XmlChild} (hl : ChildrenAre h this l)
    (hsame : ∀ a, Reach h this a → h'.read a = h.read a) : ChildrenAre h' this l := by
  obtain ⟨e, next, children, htrees, hh⟩ := hl
  exact ⟨e, next, children, htrees, hh.mono fun q hq => hsame q.1 (reach_kids hh q hq)⟩

theorem TailLost.not_childrenAre (ht : TailLost h this) (l : List XmlChild) :
    ¬ ChildrenAre h this l := by
  rintro ⟨f, next, children, -, hh⟩
  obtain ⟨e, next', hread, hlost⟩ := ht
  have heq := Option.some_inj.1 (hh.mem_read.symm.trans hread)
  injection heq with hvalue
  injection hvalue with he
  subst he
  rcases List.eq_nil_or_concat children with rfl | ⟨k, c, rfl⟩
  · rcases hlost with ⟨-, hfirst⟩ | ⟨a, c, hlast, -⟩
    · exact hfirst rfl
    · cases hlast
  · rw [List.concat_eq_append] at hh hlost
    rw [List.map_append, last_append] at hlost
    rcases hlost with ⟨hnone, -⟩ | ⟨a, d, hlast, hd, hnext⟩
    · cases hnone
    · -- nothing is behind the last child of a chain
      obtain rfl := Option.some_inj.1 hlast
      rw [kids_concat] at hh
      obtain rfl := Option.some_inj.1 (hh.mem_read.symm.trans hd)
      exact hnext rfl

/-- A call that leaves the cells of some children. -/
theorem ChildrenAre.of_spec (e : Fields) (next : Option ℕ) {s : Multiset (ℕ × Node Cell)}
    {m : Mem Cell Unit} {l : List XmlChild} (hs : Has h s)
    (hm : Spec s m fun _ t => ∃ l' : List Placed, l'.map Placed.tree = l ∧
      t = kids this e next l') :
    ∃ h', m h = some ((), h') ∧ ChildrenAre h' this l := by
  obtain ⟨_, h', _, hrun, ⟨children, htrees, rfl⟩, hh⟩ := hm.run hs
  exact ⟨h', hrun, e, next, children, htrees, hh⟩

/-- An insertion behind the last child. -/
theorem insert_forgets {k : List Placed} {c : Placed} {p : Option ℕ}
    (hh : Has h (kids this e next k + c.item.cells p)) :
    ∃ h', insertChildAfter this (last none (k.map Placed.item)) c.item.addr h = some ((), h') ∧
      TailLost h' this := by
  have hspec := childEnds.insertAfter_spec this (.element e) next rfl
    (last none (k.map Placed.item)) (k.map Placed.item) [] c.item p
  rw [List.append_nil] at hspec
  obtain ⟨_, h', _, hrun, rfl, hh'⟩ := hspec.run hh
  refine ⟨h', hrun, _, next, hh'.left.read _ (Multiset.mem_singleton_self _), ?_⟩
  rcases List.eq_nil_or_concat k with rfl | ⟨k, d, rfl⟩
  · exact .inl ⟨rfl, Option.some_ne_none _⟩
  · -- the child that the element knows as the last one points at the new one
    refine .inr ⟨d.item.addr, ⟨d.item.value, some c.item.addr⟩, ?_,
      hh'.read (d.item.addr, ⟨d.item.value, some c.item.addr⟩) ?_, ?_⟩
    · rw [List.concat_eq_append, List.map_append, last_append]
      rfl
    · rw [List.concat_eq_append, List.map_append, List.append_assoc, Ends.owned_append]
      simp
    · exact Option.some_ne_none _

theorem insertIdx_behind {ι : Type} (k rest : List ι) (d c : ι) :
    (k ++ d :: rest).insertIdx (k.length + 1) c = k ++ [d] ++ c :: rest := by
  induction k with
  | nil => rfl
  | cons x k ih =>
    rw [List.cons_append, List.length_cons, List.insertIdx_succ_cons, ih]
    rfl

theorem eraseIdx_behind {ι : Type} (k rest : List ι) (d c : ι) :
    (k ++ d :: c :: rest).eraseIdx (k.length + 1) = k ++ [d] ++ rest := by
  induction k with
  | nil => rfl
  | cons x k ih =>
    rw [List.cons_append, List.length_cons, List.eraseIdx_cons_succ, ih]
    rfl

/-- An insertion, wherever it is. -/
theorem insert_call {k : List Placed} {c : Placed} {p : Option ℕ}
    (hh : Has h (kids this e next (k ++ l) + c.item.cells p)) :
    ∃ h', insertChildAfter this (last none (k.map Placed.item)) c.item.addr h = some ((), h') ∧
      (¬ l = [] → ChildrenAre h' this ((k ++ c :: l).map Placed.tree)) ∧
      (l = [] → TailLost h' this) := by
  by_cases hl : l = []
  · rw [hl, List.append_nil] at hh
    obtain ⟨h', hrun, hlost⟩ := insert_forgets hh
    exact ⟨h', hrun, fun hne => absurd hl hne, fun _ => hlost⟩
  · obtain ⟨_, h', _, hrun, rfl, hh'⟩ := (insertChildAfter_spec this e next k l hl c p).run hh
    exact ⟨h', hrun, fun _ => ⟨e, next, _, rfl, hh'⟩, fun hnil => absurd hnil hl⟩

/-- What one call does. -/
theorem ChildrenAre.call {l : List XmlChild} {op : ChildEdit} {m : Mem Cell Unit}
    (hl : ChildrenAre h this l) (hcall : Calls h this op m) :
    ∃ h', m h = some ((), h') ∧ (¬ op.Forgets l → ChildrenAre h' this (op.denote l)) ∧
      (op.Forgets l → TailLost h' this) := by
  obtain ⟨e, next, children, rfl, hh⟩ := hl
  -- an edit that always keeps the list
  have hkeep : ∀ {op : ChildEdit} {m : Mem Cell Unit} {l : List XmlChild}, ¬ op.Forgets l →
      (∃ h', m h = some ((), h') ∧ ChildrenAre h' this (op.denote l)) →
      ∃ h', m h = some ((), h') ∧ (¬ op.Forgets l → ChildrenAre h' this (op.denote l)) ∧
        (op.Forgets l → TailLost h' this) := by
    rintro op m l hnot ⟨h', hrun, hl'⟩
    exact ⟨h', hrun, fun _ => hl', fun hforgets => absurd hforgets hnot⟩
  cases hcall with
  | addNull => exact hkeep id ⟨h, rfl, e, next, children, rfl, hh⟩
  | addElement hp =>
    obtain ⟨c, after, rfl, htree, hh⟩ := hp.beside hh
    refine hkeep id (ChildrenAre.of_spec e next hh
      ((addElement_spec this e next children c after).mono ?_))
    rintro - _ rfl
    refine ⟨_, ?_, rfl⟩
    rw [List.map_append, List.map_cons, List.map_nil, htree]
    rfl
  | addText text | addParsedText text =>
    exact hkeep id (ChildrenAre.of_spec e next hh (addText_spec this e next children text))
  | insertFirst hp =>
    obtain ⟨c, after, rfl, rfl, hh⟩ := hp.beside hh
    obtain ⟨h', hrun, hkept, hlost⟩ := insert_call (k := []) hh
    refine ⟨h', hrun, fun hne => hkept ?_, fun hnil => hlost (List.map_eq_nil_iff.1 hnil)⟩
    exact fun hnil => hne (List.map_eq_nil_iff.2 hnil)
  | insertAfter ha hp =>
    obtain ⟨c, after, rfl, rfl, hh⟩ := hp.beside hh
    obtain ⟨k, d, rest, rfl, rfl, rfl⟩ := childAt_eq_some hh.left ha
    rw [List.append_cons] at hh
    obtain ⟨h', hrun, hkept, hlost⟩ := insert_call hh
    rw [List.map_append, last_append] at hrun
    have hforgets : k.length + 1 = ((k ++ d :: rest).map Placed.tree).length ↔ rest = [] := by
      rw [List.length_map, List.length_append, List.length_cons, ← List.length_eq_zero_iff]
      omega
    refine ⟨h', hrun, fun hne => ?_, fun hlast => hlost (hforgets.1 hlast)⟩
    have hinsert := insertIdx_behind (k.map Placed.tree) (rest.map Placed.tree) d.tree c.tree
    rw [List.length_map] at hinsert
    rw [ChildEdit.denote, List.map_append, List.map_cons, hinsert]
    have hkept' := hkept fun hnil => hne (hforgets.2 hnil)
    rwa [List.map_append, List.map_append, List.map_cons, List.map_cons, List.map_nil] at hkept'
  | removeFirst ha =>
    obtain ⟨k, d, rest, rfl, rfl, hlen⟩ := childAt_eq_some hh ha
    obtain rfl := List.length_eq_zero_iff.1 hlen
    refine hkeep id (ChildrenAre.of_spec e next hh
      ((removeChildAfter_spec this e next [] rest d).mono ?_))
    rintro - _ rfl
    exact ⟨rest, rfl, rfl⟩
  | removeAfter ha hb =>
    obtain ⟨k, d, rest, rfl, rfl, rfl⟩ := childAt_eq_some hh ha
    rw [childAt_kids hh] at hb
    cases rest with
    | nil => simp at hb
    | cons c rest =>
      rw [List.append_cons] at hh
      have hspec := removeChildAfter_spec this e next (k ++ [d]) rest c
      rw [List.map_append, last_append] at hspec
      refine hkeep id (ChildrenAre.of_spec e next hh (hspec.mono ?_))
      rintro - _ rfl
      refine ⟨_, ?_, rfl⟩
      have herase := eraseIdx_behind (k.map Placed.tree) (rest.map Placed.tree) d.tree c.tree
      rw [List.length_map] at herase
      rw [ChildEdit.denote, List.map_append, List.map_append, List.map_append, List.map_cons,
        List.map_cons, List.map_cons, List.map_nil, herase]
  | clearNamedChildren name =>
    refine hkeep id (ChildrenAre.of_spec e next hh
      ((clearNamedChildren_spec this e next children name).mono ?_))
    rintro - _ rfl
    refine ⟨_, ?_, rfl⟩
    rw [ChildEdit.denote, List.filter_map]
    rfl
  | clearChildren =>
    refine hkeep id (ChildrenAre.of_spec e next hh
      ((clearChildren_spec this e next children).mono ?_))
    rintro - _ rfl
    exact ⟨[], rfl, rfl⟩
  | setBodyText text =>
    exact hkeep id (ChildrenAre.of_spec e next hh (setBodyText_spec this e next children text))

theorem ChildrenAre.bodyText {l : List XmlChild} (hl : ChildrenAre h this l) :
    (bodyText this h).map Prod.fst = some (bodyOf l) := by
  obtain ⟨e, next, children, rfl, hh⟩ := hl
  obtain ⟨_, h', _, hrun, ⟨rfl, -⟩, -⟩ := (bodyText_spec this e next children).run hh
  rw [hrun]
  rfl

end

/-! ## 5. Runs -/

theorem denoteAll_concat (l : List XmlChild) (ops : List ChildEdit) (op : ChildEdit) :
    denoteAll l (ops ++ [op]) = op.denote (denoteAll l ops) := by
  rw [denoteAll, List.foldl_append]
  rfl

theorem TailKept.init {l : List XmlChild} {ops : List ChildEdit} {op : ChildEdit}
    (hkept : TailKept l (ops ++ [op])) : TailKept l ops := by
  intro before op' hinits
  exact hkept before op' (hinits.trans (List.prefix_append ops [op]))

theorem tailKept_concat {l : List XmlChild} {ops : List ChildEdit} {op : ChildEdit}
    (hkept : TailKept l ops) (hop : ¬ op.Forgets (denoteAll l ops)) : TailKept l (ops ++ [op]) := by
  intro before op' hinits
  rcases List.prefix_concat_iff.1 hinits with heq | hinits
  · obtain ⟨rfl, hop'⟩ := List.append_inj' heq rfl
    obtain rfl := List.singleton_inj.1 hop'
    exact hop
  · exact hkept before op' hinits

/-- What a run reaches whose edits, but for the last, all keep the tail. -/
theorem run_reaches {this : ℕ} {h : Store Cell} {l : List XmlChild} {ops : List ChildEdit}
    {r : Option (Store Cell)} (hl : ChildrenAre h this l) (hrun : Run this h ops r)
    (hinit : ∀ before op, ops = before ++ [op] → TailKept l before) :
    ∃ h', r = some h' ∧ (TailKept l ops → ChildrenAre h' this (denoteAll l ops)) ∧
      (¬ TailKept l ops → TailLost h' this) := by
  induction hrun with
  | start =>
    refine ⟨h, rfl, fun _ => hl, fun hnot => absurd ?_ hnot⟩
    intro before op hinits
    exact absurd (List.prefix_nil.1 hinits) (by simp)
  | @call ops h' op m hrun hcall ih =>
    have hkept := hinit ops op rfl
    obtain ⟨_, hh, hchildren, -⟩ := ih fun before op' hops => (hops ▸ hkept).init
    obtain rfl := Option.some_inj.1 hh
    obtain ⟨h'', hm, hgood, hbad⟩ := (hchildren hkept).call hcall
    refine ⟨h'', by rw [hm]; rfl, fun hkept' => ?_, fun hnot => hbad ?_⟩
    · rw [denoteAll_concat]
      exact hgood (hkept' ops op (List.prefix_refl _))
    · by_contra hop
      exact hnot (tailKept_concat hkept hop)
  | other hrun hsame ih =>
    obtain ⟨_, hh, hgood, hbad⟩ := ih hinit
    obtain rfl := Option.some_inj.1 hh
    exact ⟨_, rfl, fun hkept => (hgood hkept).other hsame, fun hnot => (hbad hnot).other hsame⟩

/-- The children are the list that the edits denote, in every state that a run reaches, as long
as no child is inserted behind the last one. -/
theorem children_list_iff {this : ℕ} {h : Store Cell} {l : List XmlChild} {ops : List ChildEdit}
    {r : Option (Store Cell)} (hl : ChildrenAre h this l) (hrun : Run this h ops r)
    (hinit : ∀ before op, ops = before ++ [op] → TailKept l before) :
    (∃ h', r = some h' ∧ ChildrenAre h' this (denoteAll l ops) ∧
      (bodyText this h').map Prod.fst = some (bodyOf (denoteAll l ops))) ↔ TailKept l ops := by
  obtain ⟨h', rfl, hgood, hbad⟩ := run_reaches hl hrun hinit
  constructor
  · rintro ⟨_, hh, hchildren, -⟩
    obtain rfl := Option.some_inj.1 hh
    by_contra hnot
    exact (hbad hnot).not_childrenAre _ hchildren
  · intro hkept
    exact ⟨h', rfl, hgood hkept, (hgood hkept).bodyText⟩

/-- An element with nothing in it, and a text that stands by itself. -/
def elementAndText : Store Cell :=
  [some ⟨.element ⟨⟨STR_EMPTY, str "a"⟩, none, none, none, none, false⟩, none⟩,
    some ⟨.text (str "x"), none⟩]

theorem elementAndText_children : ChildrenAre elementAndText 0 [] := by
  refine ⟨⟨⟨STR_EMPTY, str "a"⟩, none, none, none, none, false⟩, none, [], rfl, ?_, ?_⟩
  · simp [kids, Ends.owned]
  · intro q hq
    obtain rfl : q = _ := by simpa [kids, Ends.owned] using hq
    rfl

theorem children_list_text :
    (∃ h', (addText 0 (str "y") elementAndText).map Prod.snd = some h' ∧
      ChildrenAre h' 0 (denoteAll [] [.addText (str "y")]) ∧
      (bodyText 0 h').map Prod.fst = some (bodyOf (denoteAll [] [.addText (str "y")]))) ↔
    TailKept [] [.addText (str "y")] := by
  refine children_list_iff elementAndText_children (.call .start (.addText _)) ?_
  intro before op hops before' op' hinits
  obtain ⟨rfl, -⟩ := List.append_inj'
    (show [] ++ [ChildEdit.addText (str "y")] = before ++ [op] from hops) rfl
  exact absurd (List.prefix_nil.1 hinits) (by simp)

/-- A text is inserted in front of no child, and the next text goes in its place. -/
theorem inserted_child_lost :
    ¬ ∀ (this : ℕ) (h : Store Cell) (l : List XmlChild) (ops : List ChildEdit)
      (r : Option (Store Cell)), ChildrenAre h this l → Run this h ops r →
      ∃ h', r = some h' ∧ ChildrenAre h' this (denoteAll l ops) ∧
        (bodyText this h').map Prod.fst = some (bodyOf (denoteAll l ops)) := by
  intro hall
  have hreach : ∀ a, Reach elementAndText 0 a → a = 0 := by
    intro a ha
    induction ha with
    | self => rfl
    | member ha hn hp ih =>
      subst ih
      obtain rfl := Option.some_inj.1 hn
      cases hp
    | next ha hne hn hp ih => exact absurd ih hne
  have hstanding : Standing elementAndText 0 1 (.text (str "x")) := by
    refine ⟨.text 1 (str "x"), none, rfl, rfl, ⟨by simp [Item.cells, Placed.item], ?_⟩, ?_⟩
    · intro q hq
      obtain rfl : q = _ := by simpa [Item.cells, Placed.item] using hq
      rfl
    · intro q hq hq0
      obtain rfl : q = _ := by simpa [Item.cells, Placed.item] using hq
      exact absurd (hreach _ hq0) (by decide)
  have hrun : Run 0 elementAndText
      [.insertChildAfter none (.text (str "x")), .addText (str "y")] _ :=
    .call (.call .start (.insertFirst hstanding)) (.addText _)
  obtain ⟨h', hr, -, hbody⟩ := hall 0 elementAndText [] _ _ elementAndText_children hrun
  obtain rfl := Option.some_inj.1 hr
  exact absurd hbody (by decide)

end Gxmpp.XmlCells
