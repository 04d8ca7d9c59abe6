/-
`talk/xmllite/xmlelement.cc`: the attributes of an element as an ordered map.

The attributes are the chain from `first_attr_`, and `last_attr_` is where the next one is linked.
`AttrsAre` says that they are a map: each name once, in the order in which the names came, with
the value that was set last, and `last_attr_` is the last of them. `SetAttr`, `ClearAttr`,
`ClearAttributes` and, for a new name, `AddAttr` keep it (`attrs_run`).
-/
import Gxmpp.XmlPlaced
import Gxmpp.OrderedMap

set_option autoImplicit false

namespace Gxmpp.XmlCells

open Linked

/-! ## 1. The attributes of an element -/

/-- The cells of an element and of its attributes, where it knows the last one. -/
def attrCells (this : ℕ) (e : Fields) (next : Option ℕ) (l : List (ℕ × XmlAttr)) :
    Multiset (ℕ × Node Cell) :=
  attrEnds.owned this (.element e) next (l.map attrItem) none (last none (l.map attrItem))

/-- Names and values. -/
def entry (a : ℕ × XmlAttr) : QName × Str := (a.2.name, a.2.value)

/-- The attributes of an element are a map, and `last_attr_` is the last of them. -/
def AttrsAre (h : Store Cell) (this : ℕ) (m : OrderedMap QName Str) : Prop :=
  ∃ e next attrs, m.Lists (attrs.map entry) ∧ Has h (attrCells this e next attrs)

section

variable (this : ℕ) (e : Fields) (next : Option ℕ)

/-- One attribute, taken out of the others. -/
theorem attrCells_split (k l : List (ℕ × XmlAttr)) (a : ℕ × XmlAttr) :
    attrCells this e next (k ++ a :: l) = {(a.1, ⟨.attr a.2, first none (l.map attrItem)⟩)} +
      (attrEnds.owned this (.element e) next (k.map attrItem) (some a.1)
        (last none ((k ++ a :: l).map attrItem)) + chain (l.map attrItem) none) := by
  rw [attrCells, List.map_append, List.map_cons, Ends.owned_cons, Item.cells]
  dsimp only [attrItem]
  abel

theorem findAttr_spec (l : List (ℕ × XmlAttr)) (name : QName) :
    Spec (attrCells this e next l) (findAttr this name) fun v t =>
      t = attrCells this e next l ∧ ∃ k m, l = k ++ m ∧ (∀ a ∈ k, a.2.name ≠ name) ∧
        (∀ a ∈ m.head?, a.2.name = name) ∧
        v = (last none (k.map attrItem), first none (m.map attrItem)) := by
  refine .bind (attrEnds.load_spec rfl rfl) ?_
  rintro _ _ ⟨rfl, rfl⟩
  refine .bind .size ?_
  rintro n _ ⟨hn, rfl⟩
  have hlen := length_le_card (l.map attrItem) none
  have hn : (l.map attrItem).length ≤ n := by
    rw [attrCells, Ends.owned, Multiset.card_add] at hn
    omega
  refine (search_spec hn none (add_comm _ _)).mono ?_
  rintro _ _ ⟨rfl, k, m, hkm, hk, hm, rfl⟩
  obtain ⟨k, m, rfl, rfl, rfl⟩ := List.map_eq_append_iff.1 hkm
  refine ⟨rfl, k, m, rfl, fun a ha => ?_, fun a ha => ?_, rfl⟩
  · exact of_decide_eq_false (hk (attrItem a) (List.mem_map_of_mem ha))
  · refine of_decide_eq_true (hm (attrItem a) ?_)
    rw [List.head?_map]
    exact Option.mem_map_of_mem attrItem ha

variable {m : OrderedMap QName Str}

variable {l : List (ℕ × XmlAttr)}

/-- What a search has found is what the name stands for. -/
theorem found_spec (hl : m.Lists (l.map entry)) (name : QName) :
    Spec (attrCells this e next l) (findAttr this name) fun v t =>
      t = attrCells this e next l ∧
        (v.2 = none ∧ m.value name = none ∧ (∀ x ∈ l.map entry, x.1 ≠ name) ∨
          ∃ k a rest, l = k ++ a :: rest ∧ a.2.name = name ∧
            m.value name = some a.2.value ∧ v = (last none (k.map attrItem), some a.1)) := by
  refine (findAttr_spec this e next l name).mono ?_
  rintro _ _ ⟨rfl, k, rest, rfl, hk, hrest, rfl⟩
  refine ⟨rfl, ?_⟩
  cases rest with
  | nil =>
    have hnot : ∀ x ∈ (k ++ []).map entry, x.1 ≠ name := by
      intro x hx
      rw [List.append_nil] at hx
      obtain ⟨a, ha, rfl⟩ := List.mem_map.1 hx
      exact hk a ha
    exact .inl ⟨rfl, hl.value_eq_none hnot, hnot⟩
  | cons a rest =>
    have hname := hrest a rfl
    refine .inr ⟨k, a, rest, rfl, hname, ?_, rfl⟩
    rw [← hname]
    exact hl.value (entry a) (List.mem_map_of_mem (by simp))

theorem attr_spec (hl : m.Lists (l.map entry)) (name : QName) :
    Spec (attrCells this e next l) (attr this name)
      fun v t => v = (m.value name).getD STR_EMPTY ∧ t = attrCells this e next l := by
  refine .bind (found_spec this e next hl name) ?_
  rintro ⟨v, w⟩ _ ⟨rfl, ⟨hw, hvalue, -⟩ | ⟨k, a, rest, rfl, -, hvalue, hv⟩⟩
  · obtain rfl : w = none := hw
    rw [hvalue]
    exact .pure ⟨rfl, rfl⟩
  · obtain ⟨-, rfl⟩ := Prod.ext_iff.1 hv
    rw [hvalue]
    refine .bind (.load (attrCells_split this e next k rest a)) ?_
    rintro _ _ ⟨rfl, rfl⟩
    exact .pure ⟨rfl, rfl⟩

theorem hasAttr_spec (hl : m.Lists (l.map entry)) (name : QName) :
    Spec (attrCells this e next l) (hasAttr this name)
      fun v t => v = (m.value name).isSome ∧ t = attrCells this e next l := by
  refine .bind (found_spec this e next hl name) ?_
  rintro ⟨v, w⟩ _ ⟨rfl, ⟨hw, hvalue, -⟩ | ⟨k, a, rest, rfl, -, hvalue, hv⟩⟩
  · obtain rfl : w = none := hw
    rw [hvalue]
    exact .pure ⟨rfl, rfl⟩
  · obtain ⟨-, rfl⟩ := Prod.ext_iff.1 hv
    rw [hvalue]
    exact .pure ⟨rfl, rfl⟩

/-! ## 2. Edits -/

theorem addAttr_spec (hl : m.Lists (l.map entry)) {name : QName}
    (hname : ∀ x ∈ l.map entry, x.1 ≠ name) (value : Str) :
    Spec (attrCells this e next l) (addAttr this name value) fun _ t => ∃ l',
      (m.set name value).Lists (l'.map entry) ∧ t = attrCells this e next l' := by
  refine .bind (.new _) ?_
  rintro a _ rfl
  refine ((attrEnds.append_spec this (.element e) next rfl (l.map attrItem)
    (attrItem (a, ⟨name, value⟩)) none).of_eq (add_comm _ _)).mono ?_
  rintro - _ rfl
  refine ⟨l ++ [(a, ⟨name, value⟩)], ?_, ?_⟩
  · rw [List.map_append]
    exact hl.set_new hname value
  · rw [attrCells, List.map_append, last_append]
    rfl

theorem setAttr_spec (hl : m.Lists (l.map entry)) (name : QName) (value : Str) :
    Spec (attrCells this e next l) (setAttr this name value) fun _ t => ∃ l',
      (m.set name value).Lists (l'.map entry) ∧ t = attrCells this e next l' := by
  refine .bind (found_spec this e next hl name) ?_
  rintro ⟨v, w⟩ _ ⟨rfl, ⟨hw, -, hnew⟩ | ⟨k, a, rest, rfl, hname, -, hv⟩⟩
  · obtain rfl : w = none := hw
    exact addAttr_spec this e next hl hnew value
  · obtain ⟨-, rfl⟩ := Prod.ext_iff.1 hv
    refine (modifyAttr_spec (attrCells_split this e next k rest a) _).mono ?_
    rintro - _ rfl
    refine ⟨k ++ (a.1, ⟨a.2.name, value⟩) :: rest, ?_, ?_⟩
    · subst hname
      rw [List.map_append, List.map_cons] at hl ⊢
      exact hl.set_old value
    · rw [attrCells_split, List.map_append, List.map_append, last_append, last_append]
      rfl

theorem clearAttr_spec (hl : m.Lists (l.map entry)) (name : QName) :
    Spec (attrCells this e next l) (clearAttr this name) fun _ t => ∃ l',
      (m.erase name).Lists (l'.map entry) ∧ t = attrCells this e next l' := by
  refine .bind (found_spec this e next hl name) ?_
  rintro ⟨v, w⟩ _ ⟨rfl, ⟨hw, -, hnew⟩ | ⟨k, a, rest, rfl, rfl, -, hv⟩⟩
  · obtain rfl : w = none := hw
    exact .pure ⟨l, hl.erase_new hnew, rfl⟩
  · obtain ⟨rfl, rfl⟩ := Prod.ext_iff.1 hv
    have hunlink := attrEnds.unlink_spec this (.element e) next rfl (k.map attrItem)
      (rest.map attrItem) (attrItem a)
    refine .bind (hunlink.of_eq (by rw [attrCells, List.map_append, List.map_cons])) ?_
    rintro - _ rfl
    refine (Spec.delete (add_comm _ _)).mono ?_
    rintro - _ rfl
    refine ⟨k ++ rest, ?_, ?_⟩
    · rw [List.map_append, List.map_cons] at hl
      rw [List.map_append]
      exact hl.erase_old
    · rw [attrCells, List.map_append]

theorem clearAttributes_spec (l : List (ℕ × XmlAttr)) :
    Spec (attrCells this e next l) (clearAttributes this)
      fun _ t => t = attrCells this e next [] := by
  refine .bind (attrEnds.load_spec rfl rfl) ?_
  rintro _ _ ⟨rfl, rfl⟩
  refine .bind .size ?_
  rintro n _ ⟨hn, rfl⟩
  have hlen := length_le_card (l.map attrItem) none
  have hn : (l.map attrItem).length ≤ n := by
    rw [attrCells, Ends.owned, Multiset.card_add] at hn
    omega
  refine .frame_bind (u := 0) (clearFrom_spec delete hn ?_) (add_comm _ _) ?_
  · intro x hx p
    obtain ⟨a, -, rfl⟩ := List.mem_map.1 hx
    exact deleteAttr_spec a p
  intro _
  refine .bind (attrEnds.setLast_spec (v := .element e) rfl (show _ = attrEnds.owned this
    (.element e) next [] (first none (l.map attrItem)) _ + 0 by
      rw [Ends.owned, first_nil, chain_nil]
      abel) _) ?_
  rintro - _ rfl
  refine (attrEnds.setFirst_spec (v := .element e) rfl
    (p := (first none (l.map attrItem), none)) (r := 0) (by
      rw [Ends.owned, first_nil, chain_nil]
      abel) _).mono ?_
  rintro - _ rfl
  rfl

end

/-! ## 3. Runs -/

/-- An edit of the attributes. -/
inductive AttrEdit where
  | setAttr (name : QName) (value : Str)
  | clearAttr (name : QName)
  | clearAttributes
  | addAttr (name : QName) (value : Str)

/-- The call that is an edit. -/
def AttrEdit.call (this : ℕ) : AttrEdit → Mem Cell Unit
  | .setAttr name value => XmlCells.setAttr this name value
  | .clearAttr name => XmlCells.clearAttr this name
  | .clearAttributes => XmlCells.clearAttributes this
  | .addAttr name value => XmlCells.addAttr this name value

/-- The edits of a map. -/
def AttrEdit.denote : AttrEdit → OrderedMap QName Str → OrderedMap QName Str
  | .setAttr name value, m => m.set name value
  | .clearAttr name, m => m.erase name
  | .clearAttributes, _ => .empty
  | .addAttr name value, m => m.set name value

/-- `AddAttr` asserts that there is no attribute of that name. -/
def AttrEdit.Allowed : AttrEdit → OrderedMap QName Str → Prop
  | .addAttr name _, m => name ∉ m.keys
  | _, _ => True

/-- Every edit is allowed where it is made. -/
def AllAllowed : OrderedMap QName Str → List AttrEdit → Prop
  | _, [] => True
  | m, op :: ops => op.Allowed m ∧ AllAllowed (op.denote m) ops

/-- The map that some edits denote. -/
def denoteAttrs (m : OrderedMap QName Str) (ops : List AttrEdit) : OrderedMap QName Str :=
  ops.foldl (fun m op => op.denote m) m

/-- One edit after the other. -/
def callAll (this : ℕ) : List AttrEdit → Mem Cell Unit
  | [] => pure ()
  | op :: ops => do
      op.call this
      callAll this ops

variable {h : Store Cell} {this : ℕ} {m : OrderedMap QName Str}

theorem AttrsAre.call {op : AttrEdit} (hm : AttrsAre h this m) (hop : op.Allowed m) :
    ∃ h', op.call this h = some ((), h') ∧ AttrsAre h' this (op.denote m) := by
  obtain ⟨e, next, attrs, hl, hh⟩ := hm
  have hspec : Spec (attrCells this e next attrs) (op.call this) fun _ t => ∃ l',
      (op.denote m).Lists (l'.map entry) ∧ t = attrCells this e next l' := by
    cases op with
    | setAttr name value => exact setAttr_spec this e next hl name value
    | clearAttr name => exact clearAttr_spec this e next hl name
    | clearAttributes =>
      refine (clearAttributes_spec this e next attrs).mono ?_
      rintro - _ rfl
      exact ⟨[], .empty, rfl⟩
    | addAttr name value =>
      refine addAttr_spec this e next hl (fun x hx hname => hop ?_) value
      rw [← hl.keys, ← hname]
      exact List.mem_map_of_mem hx
  obtain ⟨_, h', _, hrun, ⟨l', hl', rfl⟩, hh'⟩ := hspec.run hh
  exact ⟨h', hrun, e, next, l', hl', hh'⟩

/-- What `Attr` and `HasAttr` say. -/
theorem AttrsAre.read (hm : AttrsAre h this m) (name : QName) :
    (attr this name h).map Prod.fst = some ((m.value name).getD STR_EMPTY) ∧
      (hasAttr this name h).map Prod.fst = some (m.value name).isSome := by
  obtain ⟨e, next, attrs, hl, hh⟩ := hm
  obtain ⟨_, _, _, hattr, ⟨rfl, -⟩, -⟩ := (attr_spec this e next hl name).run hh
  obtain ⟨_, _, _, hhas, ⟨rfl, -⟩, -⟩ := (hasAttr_spec this e next hl name).run hh
  rw [hattr, hhas]
  exact ⟨rfl, rfl⟩

/-- The attributes are the map that the edits denote. -/
theorem attrs_run (hm : AttrsAre h this m) {ops : List AttrEdit} (hops : AllAllowed m ops) :
    ∃ h', callAll this ops h = some ((), h') ∧ AttrsAre h' this (denoteAttrs m ops) := by
  induction ops generalizing h m with
  | nil => exact ⟨h, rfl, hm⟩
  | cons op ops ih =>
    obtain ⟨h', hrun, hm'⟩ := hm.call hops.1
    obtain ⟨h'', hrun', hm''⟩ := ih hm' hops.2
    refine ⟨h'', ?_, hm''⟩
    rw [callAll]
    simp only [Bind.bind, StateT.bind, hrun, Option.bind_some, hrun']

/-- The attributes of a tidy element with distinct names: of a new one, or of a copy of one that
has them. -/
theorem TidyAt.attrsAre {e : XmlElement} (ht : TidyAt h this (.element e))
    (hm : m.Lists (e.attrs.map fun a => (a.name, a.value))) : AttrsAre h this m := by
  obtain ⟨f, next, attrs, -, hattrs, -, hh, -⟩ := ht.element
  refine ⟨f, next, attrs, ?_, hh⟩
  rw [← hattrs, List.map_map] at hm
  exact hm

end Gxmpp.XmlCells
