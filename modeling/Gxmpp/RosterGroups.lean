/-
`talk/xmpp/rostermoduleimpl.cc`: a contact that is edited, and what it remembers of its groups.

`XmppRosterContactImpl` counts its groups once, and keeps the group it returned last, so that
a walk over the groups is linear. Both are forgotten when the XML is replaced or a group is
removed; `AddGroup` adds one to the count. The count is -1 as long as nobody asked for it, and
`AddGroup` adds one to that too.

A `NULL` that is followed is `none`. `ASSERT` is the one of a release build, which does
nothing; a debug build stops in `GetGroupCount` of a contact without groups.
-/
import Gxmpp.Engine
import Gxmpp.History
import Gxmpp.XmlEdit
import Mathlib.Data.List.GetD

set_option autoImplicit false

namespace Gxmpp

def QN_ROSTER_GROUP : QName := ⟨NS_ROSTER, str "group"⟩
def QN_ASK : QName := ⟨STR_EMPTY, str "ask"⟩

/-! ## 1. The contact -/

/-- `XmppRosterContact`, with the members of `XmppRosterContactImpl`. The group returned last
is the place of a child. -/
structure XmppRosterContact where
  raw_xml_ : Option XmlElement
  group_count_ : Int
  group_index_returned_ : Int
  group_returned_ : Option Nat

namespace XmppRosterContact

/-- `XmppRosterContactImpl::ResetGroupCache`. -/
def resetGroupCache (c : XmppRosterContact) : XmppRosterContact :=
  { c with
    group_count_ := -1
    group_index_returned_ := -1
    group_returned_ := none }

/-- `XmppRosterContact::Create`. -/
def create : XmppRosterContact := resetGroupCache ⟨none, 0, 0, none⟩

/-- `XmppRosterContactImpl::CreateRawXmlSkeleton`. -/
def createRawXmlSkeleton (c : XmppRosterContact) : XmppRosterContact :=
  { c with raw_xml_ := some (XmlElement.new QN_ROSTER_ITEM false) }

/-- What `raw_xml_` points at once there is something. -/
def xml (c : XmppRosterContact) : XmlElement :=
  c.raw_xml_.getD (XmlElement.new QN_ROSTER_ITEM false)

/-- `if (!raw_xml_) CreateRawXmlSkeleton();` -/
def withXml (c : XmppRosterContact) : XmppRosterContact :=
  if c.raw_xml_.isNone then c.createRawXmlSkeleton else c

/-- `XmppRosterContactImpl::raw_xml`. -/
def rawXml (c : XmppRosterContact) : XmlElement × XmppRosterContact := (c.withXml.xml, c.withXml)

/-- `XmppRosterContactImpl::SetXmlFromWire`. -/
def setXmlFromWire (c : XmppRosterContact) (xml : Option XmlElement) : XmppRosterContact :=
  { c.resetGroupCache with raw_xml_ := xml }

/-- `XmppRosterContactImpl::jid`. -/
def jid (c : XmppRosterContact) : Option Jid :=
  c.raw_xml_.map fun raw_xml => Jid.ofString (raw_xml.attr QN_JID)

/-- `XmppRosterContactImpl::set_jid`. -/
def setJid (c : XmppRosterContact) (jid : Jid) : XmppReturnStatus × XmppRosterContact :=
  let c := c.withXml
  if !jid.isValid then (.badArgument, c)
  else (.ok, { c with raw_xml_ := some (c.xml.setAttr QN_JID jid.toStr) })

/-- `XmppRosterContactImpl::name`. -/
def name (c : XmppRosterContact) : Option Str := c.raw_xml_.map fun raw_xml => raw_xml.attr QN_NAME

/-- `XmppRosterContactImpl::set_name`. -/
def setName (c : XmppRosterContact) (name : Str) : XmppReturnStatus × XmppRosterContact :=
  let c := c.withXml
  let raw_xml :=
    if name.isEmpty then c.xml.clearAttr QN_NAME else c.xml.setAttr QN_NAME name
  (.ok, { c with raw_xml_ := some raw_xml })

/-- `XmppRosterContactImpl::GetGroupCount`, with the count it fills in. -/
def getGroupCount (c : XmppRosterContact) : Nat × XmppRosterContact :=
  match c.raw_xml_ with
  | none => (0, c)
  | some raw_xml =>
    let c :=
      if c.group_count_ = -1 then
        { c with group_count_ := (raw_xml.named QN_ROSTER_GROUP).length }
      else c
    (c.group_count_.toNat, c)

/-- The loop of `GetGroup`: `index` groups after the first. -/
def walkToGroup (raw_xml : XmlElement) : Nat → Option Nat
  | 0 => raw_xml.firstNamedAt QN_ROSTER_GROUP
  | index + 1 =>
    (walkToGroup raw_xml index).bind fun place => raw_xml.nextNamedAt QN_ROSTER_GROUP place

/-- In `GetGroup`: the group to return, looked up beside the last one or from the start. -/
def findReturned (c : XmppRosterContact) (raw_xml : XmlElement) (index : Nat) :
    XmppRosterContact :=
  if c.group_index_returned_ ≥ 0 ∧ (index : Int) = c.group_index_returned_ + 1 then
    { c with
      group_returned_ :=
        c.group_returned_.bind fun place => raw_xml.nextNamedAt QN_ROSTER_GROUP place
      group_index_returned_ := c.group_index_returned_ + 1 }
  else if c.group_index_returned_ < 0 ∨ c.group_index_returned_ ≠ index then
    { c with
      group_index_returned_ := index
      group_returned_ := walkToGroup raw_xml index }
  else c

/-- `XmppRosterContactImpl::GetGroup`; `none` where it follows a NULL. -/
def getGroup (c : XmppRosterContact) (index : Nat) : Option (Str × XmppRosterContact) :=
  let count := c.getGroupCount
  if index ≥ count.1 then some (STR_EMPTY, count.2)
  else
    let c := count.2.findReturned count.2.xml index
    (c.group_returned_.bind c.xml.bodyTextAt).map fun text => (text, c)

/-- The test of `FindGroup`. -/
def isGroup (group : Str) : XmlChild → Bool
  | .text _ => false
  | .element e => e.name = QN_ROSTER_GROUP && e.bodyText = group

/-- `XmppRosterContactImpl::FindGroup`: the place of the group. The child before it is the one
at the place before. -/
def findGroup (raw_xml : XmlElement) (group : Str) : Option Nat :=
  raw_xml.children.findIdx? (isGroup group)

/-- The child before a place. -/
def childBefore : Nat → Option Nat
  | 0 => none
  | place + 1 => some place

/-- `XmppRosterContactImpl::AddGroup`. -/
def addGroup (c : XmppRosterContact) (group : Str) : XmppReturnStatus × XmppRosterContact :=
  if group.isEmpty then (.badArgument, c)
  else
    let c := c.withXml
    if (findGroup c.xml group).isSome then (.ok, c)
    else
      (.ok, { c with
        raw_xml_ := some (c.xml.addNamedText QN_ROSTER_GROUP group)
        group_count_ := c.group_count_ + 1 })

/-- `XmppRosterContactImpl::RemoveGroup`. -/
def removeGroup (c : XmppRosterContact) (group : Str) : XmppReturnStatus × XmppRosterContact :=
  if group.isEmpty then (.badArgument, c)
  else
    match c.raw_xml_ with
    | none => (.ok, c)
    | some raw_xml =>
      match findGroup raw_xml group with
      | some place =>
        (.ok, { c.resetGroupCache with
          raw_xml_ := some (raw_xml.removeChildAfter (childBefore place)) })
      | none => (.ok, c)

/-- `XmppRosterContactImpl::set_raw_xml`. -/
def setRawXml (c : XmppRosterContact) (xml : Option XmlElement) :
    XmppReturnStatus × XmppRosterContact :=
  match xml with
  | none => (.badArgument, c)
  | some xml =>
    if xml.name ≠ QN_ROSTER_ITEM || xml.hasAttr QN_SUBSCRIPTION || xml.hasAttr QN_ASK then
      (.badArgument, c)
    else (.ok, { c.resetGroupCache with raw_xml_ := some xml })

end XmppRosterContact

/-! ## 2. Runs -/

/-- The functions of a contact that change it, or what it remembers. -/
inductive ContactCall where
  | setJid (jid : Jid)
  | setName (name : Str)
  | addGroup (group : Str)
  | removeGroup (group : Str)
  | getGroupCount
  | getGroup (index : Nat)
  | rawXml
  | setRawXml (xml : Option XmlElement)
  | setXmlFromWire (xml : Option XmlElement)

namespace XmppRosterContact

/-- The contact after a call; `none` where it follows a NULL. -/
def call (c : XmppRosterContact) : ContactCall → Option XmppRosterContact
  | .setJid jid => some (c.setJid jid).2
  | .setName name => some (c.setName name).2
  | .addGroup group => some (c.addGroup group).2
  | .removeGroup group => some (c.removeGroup group).2
  | .getGroupCount => some c.getGroupCount.2
  | .getGroup index => (c.getGroup index).map Prod.snd
  | .rawXml => some c.rawXml.2
  | .setRawXml xml => some (c.setRawXml xml).2
  | .setXmlFromWire xml => some (c.setXmlFromWire xml)

/-- The contact after some calls. -/
def calls (c : XmppRosterContact) (l : List ContactCall) : Option XmppRosterContact :=
  l.foldl (fun c call => c.bind fun c => c.call call) (some c)

theorem calls_snoc (c : XmppRosterContact) (l : List ContactCall) (x : ContactCall) :
    c.calls (l ++ [x]) = (c.calls l).bind fun c => c.call x := by
  unfold calls
  rw [List.foldl_append]
  rfl

/-- The groups in the XML of a contact. -/
def groups (c : XmppRosterContact) : List Str :=
  (c.rawXml.1.named QN_ROSTER_GROUP).map XmlElement.bodyText

/-- What the contact says of its groups is what its XML says. -/
structure AgreesWithXml (c : XmppRosterContact) : Prop where
  count : c.getGroupCount.1 = c.groups.length
  group : ∀ index, ∃ c', c.getGroup index = some (c.groups.getD index STR_EMPTY, c')

/-! ## 3. What is remembered -/

/-- What a contact remembers is right, or it remembers nothing. -/
structure Remembering (c : XmppRosterContact) : Prop where
  fresh : c.raw_xml_ = none → c.group_count_ = -1 ∧ c.group_index_returned_ = -1
  count : c.group_count_ = -1 ∨ c.group_count_ = (c.xml.named QN_ROSTER_GROUP).length
  returned : c.group_index_returned_ = -1 ∨ ∃ index : Nat, c.group_index_returned_ = index ∧
    Walking.nth (XmlChild.isNamed QN_ROSTER_GROUP) c.xml.children index = c.group_returned_ ∧
      index < (c.xml.named QN_ROSTER_GROUP).length

theorem Remembering.reset (xml : Option XmlElement) :
    Remembering ⟨xml, -1, -1, none⟩ where
  fresh _ := ⟨rfl, rfl⟩
  count := Or.inl rfl
  returned := Or.inl rfl

variable {c : XmppRosterContact} {group : Str}

/-- The XML is edited, and its groups are not. -/
theorem Remembering.edit (h : Remembering c) {raw_xml : XmlElement}
    (hchildren : raw_xml.children = c.xml.children) :
    Remembering { c with raw_xml_ := some raw_xml } := by
  have hnamed : raw_xml.named QN_ROSTER_GROUP = c.xml.named QN_ROSTER_GROUP := by
    unfold XmlElement.named XmlElement.elements
    rw [hchildren]
  refine ⟨nofun, ?_, ?_⟩
  · show c.group_count_ = -1 ∨ c.group_count_ = (raw_xml.named QN_ROSTER_GROUP).length
    rw [hnamed]
    exact h.count
  · show c.group_index_returned_ = -1 ∨ ∃ index : Nat, c.group_index_returned_ = index ∧
      Walking.nth (XmlChild.isNamed QN_ROSTER_GROUP) raw_xml.children index = c.group_returned_ ∧
        index < (raw_xml.named QN_ROSTER_GROUP).length
    rw [hnamed, hchildren]
    exact h.returned

/-- The skeleton has no children. -/
theorem Remembering.withXml (h : Remembering c) : Remembering c.withXml := by
  unfold XmppRosterContact.withXml
  cases hxml : c.raw_xml_ with
  | some raw_xml => exact h
  | none =>
    refine h.edit ?_
    unfold XmppRosterContact.xml
    rw [hxml]
    rfl

theorem withXml_xml (c : XmppRosterContact) : c.withXml.xml = c.xml := by
  obtain ⟨raw_xml_, _, _, _⟩ := c
  cases raw_xml_ with
  | none | some => rfl

/-- Asking for the groups changes no XML. -/
theorem getGroupCount_raw_xml (c : XmppRosterContact) :
    c.getGroupCount.2.raw_xml_ = c.raw_xml_ := by
  unfold getGroupCount
  split
  · rfl
  · dsimp only
    split <;> rfl

theorem getGroup_raw_xml {index : Nat} {r : Str × XmppRosterContact}
    (h : c.getGroup index = some r) : r.2.raw_xml_ = c.raw_xml_ := by
  rw [← getGroupCount_raw_xml c]
  unfold getGroup at h
  dsimp only at h
  split at h
  · rw [← Option.some.inj h]
  · obtain ⟨text, -, rfl⟩ := Option.map_eq_some_iff.1 h
    dsimp only
    unfold findReturned
    split
    · rfl
    · split <;> rfl

theorem groups_eq (c : XmppRosterContact) :
    c.groups = (c.xml.named QN_ROSTER_GROUP).map XmlElement.bodyText := by
  unfold groups rawXml
  dsimp only
  rw [withXml_xml]

/-- `GetGroupCount` counts, and remembers that. -/
theorem Remembering.getGroupCount (h : Remembering c) :
    c.getGroupCount.1 = (c.xml.named QN_ROSTER_GROUP).length ∧ Remembering c.getGroupCount.2 ∧
      c.getGroupCount.2.raw_xml_ = c.raw_xml_ := by
  obtain ⟨raw_xml_, group_count_, group_index_returned_, group_returned_⟩ := c
  cases raw_xml_ with
  | none => exact ⟨rfl, h, rfl⟩
  | some raw_xml =>
    unfold XmppRosterContact.getGroupCount
    dsimp only
    by_cases hempty : group_count_ = -1
    · rw [if_pos hempty]
      exact ⟨rfl, ⟨nofun, Or.inr rfl, h.returned⟩, rfl⟩
    · rw [if_neg hempty]
      have hcount : group_count_ = (raw_xml.named QN_ROSTER_GROUP).length :=
        h.count.resolve_left hempty
      refine ⟨?_, h, rfl⟩
      rw [hcount, Int.toNat_natCast]
      rfl

theorem walkToGroup_eq (raw_xml : XmlElement) (index : Nat) :
    walkToGroup raw_xml index
      = Walking.nth (XmlChild.isNamed QN_ROSTER_GROUP) raw_xml.children index := by
  rw [← Walking.walk_eq_nth]
  induction index with
  | zero => rfl
  | succ index ih =>
    rw [walkToGroup, Walking.walk, ih]
    rfl

/-- `GetGroup` finds the group it is asked for, whatever it returned last. -/
theorem Remembering.findReturned (h : Remembering c) {index : Nat}
    (hindex : index < (c.xml.named QN_ROSTER_GROUP).length) :
    Remembering (c.findReturned c.xml index) ∧ (c.findReturned c.xml index).xml = c.xml ∧
      (c.findReturned c.xml index).group_returned_
        = Walking.nth (XmlChild.isNamed QN_ROSTER_GROUP) c.xml.children index := by
  have hfresh : c.raw_xml_ ≠ none := by
    intro hnone
    unfold XmppRosterContact.xml at hindex
    rw [hnone] at hindex
    cases hindex
  unfold XmppRosterContact.findReturned
  by_cases hnext : c.group_index_returned_ ≥ 0 ∧ (index : Int) = c.group_index_returned_ + 1
  · rw [if_pos hnext]
    -- the group after the one returned last
    obtain hnone | ⟨last, hlast, hplace, hbelow⟩ := h.returned
    · omega
    obtain rfl : index = last + 1 := by omega
    obtain ⟨place, hnth⟩ := XmlElement.exists_nth hbelow
    have hreturned : (c.group_returned_.bind fun place =>
        c.xml.nextNamedAt QN_ROSTER_GROUP place)
          = Walking.nth (XmlChild.isNamed QN_ROSTER_GROUP) c.xml.children (last + 1) := by
      rw [← hplace, hnth, Option.bind_some]
      exact Walking.next_nth _ hnth
    refine ⟨⟨fun hnone => absurd hnone hfresh, h.count,
      Or.inr ⟨last + 1, ?_, hreturned.symm, hindex⟩⟩, rfl, hreturned⟩
    exact hnext.2.symm
  · rw [if_neg hnext]
    by_cases hother : c.group_index_returned_ < 0 ∨ c.group_index_returned_ ≠ index
    · rw [if_pos hother]
      have hwalk := walkToGroup_eq c.xml index
      exact ⟨⟨fun hnone => absurd hnone hfresh, h.count,
        Or.inr ⟨index, rfl, hwalk.symm, hindex⟩⟩, rfl, hwalk⟩
    · rw [if_neg hother]
      -- the group that was returned last
      obtain hnone | ⟨last, hlast, hplace, hbelow⟩ := h.returned
      · omega
      obtain rfl : index = last := by omega
      exact ⟨h, rfl, hplace.symm⟩

/-- What is remembered right agrees with the XML. -/
theorem Remembering.agrees (h : Remembering c) : AgreesWithXml c := by
  obtain ⟨hcount, hkept, hsame⟩ := h.getGroupCount
  have hxml : c.getGroupCount.2.xml = c.xml := by
    unfold XmppRosterContact.xml
    rw [hsame]
  refine ⟨?_, fun index => ?_⟩
  · rw [hcount, groups_eq, List.length_map]
  · unfold getGroup
    dsimp only
    rw [hcount, hxml, groups_eq]
    by_cases hend : index ≥ (c.xml.named QN_ROSTER_GROUP).length
    · rw [if_pos hend, List.getD_eq_default _ _ (by rw [List.length_map]; exact hend)]
      exact ⟨_, rfl⟩
    · rw [if_neg hend]
      have hindex : index < (c.xml.named QN_ROSTER_GROUP).length := Nat.lt_of_not_le hend
      rw [← hxml] at hindex
      obtain ⟨-, hfound, hplace⟩ := hkept.findReturned hindex
      obtain ⟨place, hnth⟩ := XmlElement.exists_nth hindex
      rw [← hxml, hplace, hfound, hnth, Option.bind_some, XmlElement.bodyTextAt_nth hnth]
      refine ⟨c.getGroupCount.2.findReturned c.getGroupCount.2.xml index, ?_⟩
      rw [List.getElem?_eq_getElem hindex, Option.map_some, Option.map_some,
        List.getD_eq_getElem _ _ (by rw [List.length_map]; exact hindex), List.getElem_map]

/-! ## 4. What the calls do to it -/

/-- A call that adds a group finds the groups counted. -/
def Counted (c : XmppRosterContact) (x : ContactCall) : Prop :=
  ∀ group, x = .addGroup group → group ≠ [] → findGroup c.xml group = none →
    c.group_count_ ≠ -1

/-- A group is added. -/
theorem addGroup_added (hgroup : group ≠ []) (hnew : findGroup c.xml group = none) :
    (c.addGroup group).2 = { c with
      raw_xml_ := some (c.xml.addElement (XmlElement.textElement QN_ROSTER_GROUP group))
      group_count_ := c.group_count_ + 1 } := by
  have hne : ¬group.isEmpty = true := fun h => hgroup (List.isEmpty_iff.1 h)
  unfold addGroup
  rw [if_neg hne]
  dsimp only
  rw [withXml_xml, hnew, if_neg (by exact Bool.false_ne_true), XmlElement.addNamedText_eq]
  unfold withXml createRawXmlSkeleton
  split <;> rfl

/-- No group is added. -/
theorem addGroup_same (h : ¬(group ≠ [] ∧ findGroup c.xml group = none)) :
    (c.addGroup group).2 = c ∨ (c.addGroup group).2 = c.withXml := by
  unfold addGroup
  by_cases hempty : group.isEmpty = true
  · rw [if_pos hempty]
    exact Or.inl rfl
  · rw [if_neg hempty]
    dsimp only
    rw [withXml_xml]
    have hfound : (findGroup c.xml group).isSome = true := by
      refine Option.isSome_iff_ne_none.2 fun hnone => h ⟨fun hnil => hempty ?_, hnone⟩
      rw [hnil]
      rfl
    rw [if_pos hfound]
    exact Or.inr rfl

theorem Remembering.addGroup (h : Remembering c) (hcounted : Counted c (.addGroup group)) :
    Remembering (c.addGroup group).2 := by
  by_cases hadds : group ≠ [] ∧ findGroup c.xml group = none
  · rw [addGroup_added hadds.1 hadds.2]
    have hcount := h.count.resolve_left (hcounted group rfl hadds.1 hadds.2)
    have hlength : (((c.xml.addElement (XmlElement.textElement QN_ROSTER_GROUP group)).named
        QN_ROSTER_GROUP).length : Int) = (c.xml.named QN_ROSTER_GROUP).length + 1 := by
      rw [XmlElement.named_addElement, if_pos (XmlElement.textElement_name _ _),
        List.length_append, List.length_singleton]
      exact Int.natCast_succ _
    refine ⟨nofun, Or.inr ?_, h.returned.imp_right ?_⟩
    · show c.group_count_ + 1 = ((c.xml.addElement _).named QN_ROSTER_GROUP).length
      rw [hlength, hcount]
    · rintro ⟨index, hindex, hplace, hbelow⟩
      obtain ⟨place, hnth⟩ := XmlElement.exists_nth hbelow
      refine ⟨index, hindex, ?_, ?_⟩
      · -- the new group is behind the one returned last
        show Walking.nth _ (c.xml.children ++ _) index = c.group_returned_
        rw [Walking.nth_append _ hnth, ← hplace, hnth]
      · show index < ((c.xml.addElement _).named QN_ROSTER_GROUP).length
        omega
  · rcases addGroup_same hadds with hsame | hsame
    · rw [hsame]
      exact h
    · rw [hsame]
      exact h.withXml

theorem Remembering.removeGroup (h : Remembering c) (group : Str) :
    Remembering (c.removeGroup group).2 := by
  unfold XmppRosterContact.removeGroup
  by_cases hempty : group.isEmpty = true
  · rw [if_pos hempty]
    exact h
  rw [if_neg hempty]
  cases c.raw_xml_ with
  | none => exact h
  | some raw_xml =>
    dsimp only
    cases findGroup raw_xml group with
    | none => exact h
    | some place => exact .reset _

theorem Remembering.setRawXml (h : Remembering c) (xml : Option XmlElement) :
    Remembering (c.setRawXml xml).2 := by
  unfold XmppRosterContact.setRawXml
  cases xml with
  | none => exact h
  | some xml =>
    dsimp only
    split
    · exact h
    · exact .reset _

theorem Remembering.setJid (h : Remembering c) (jid : Jid) : Remembering (c.setJid jid).2 := by
  unfold XmppRosterContact.setJid
  dsimp only
  split
  · exact h.withXml
  · refine h.withXml.edit ?_
    unfold XmlElement.setAttr
    split <;> rfl

theorem Remembering.setName (h : Remembering c) (name : Str) : Remembering (c.setName name).2 := by
  unfold XmppRosterContact.setName
  refine h.withXml.edit ?_
  split
  · rfl
  · unfold XmlElement.setAttr
    split <;> rfl

theorem Remembering.getGroup (h : Remembering c) (index : Nat) :
    ∃ c', c.call (.getGroup index) = some c' ∧ Remembering c' := by
  obtain ⟨hcount, hkept, hsame⟩ := h.getGroupCount
  have hxml : c.getGroupCount.2.xml = c.xml := by
    unfold XmppRosterContact.xml
    rw [hsame]
  unfold call XmppRosterContact.getGroup
  dsimp only
  rw [hcount]
  by_cases hend : index ≥ (c.xml.named QN_ROSTER_GROUP).length
  · rw [if_pos hend]
    exact ⟨_, rfl, hkept⟩
  · rw [if_neg hend]
    have hindex : index < (c.xml.named QN_ROSTER_GROUP).length := Nat.lt_of_not_le hend
    rw [← hxml] at hindex
    obtain ⟨hafter, hfound, hplace⟩ := hkept.findReturned hindex
    obtain ⟨place, hnth⟩ := XmlElement.exists_nth hindex
    rw [hplace, hfound, hnth, Option.bind_some, XmlElement.bodyTextAt_nth hnth,
      List.getElem?_eq_getElem hindex]
    exact ⟨_, rfl, hafter⟩

/-- A call keeps what is remembered right, and follows no NULL. -/
theorem Remembering.call (h : Remembering c) {x : ContactCall} (hcounted : Counted c x) :
    ∃ c', c.call x = some c' ∧ Remembering c' := by
  cases x with
  | setJid jid => exact ⟨_, rfl, h.setJid jid⟩
  | setName name => exact ⟨_, rfl, h.setName name⟩
  | addGroup group => exact ⟨_, rfl, h.addGroup hcounted⟩
  | removeGroup group => exact ⟨_, rfl, h.removeGroup group⟩
  | getGroupCount => exact ⟨_, rfl, h.getGroupCount.2.1⟩
  | getGroup index => exact h.getGroup index
  | rawXml => exact ⟨_, rfl, h.withXml⟩
  | setRawXml xml => exact ⟨_, rfl, h.setRawXml xml⟩
  | setXmlFromWire xml => exact ⟨_, rfl, .reset xml⟩

/-- A group is added where nobody counted: the contact has it and says that it has none. -/
theorem uncounted_disagrees {x : ContactCall} (h : ¬Counted c x) :
    ∃ c', c.call x = some c' ∧ ¬AgreesWithXml c' := by
  unfold Counted at h
  push Not at h
  obtain ⟨group, rfl, hgroup, hnew, hcount⟩ := h
  refine ⟨_, rfl, fun hagrees => ?_⟩
  have hsays := hagrees.count
  rw [addGroup_added hgroup hnew, hcount, groups_eq, List.length_map] at hsays
  have hnone : ∀ raw_xml : XmlElement,
      (getGroupCount { c with raw_xml_ := some raw_xml, group_count_ := -1 + 1 }).1 = 0 :=
    fun _ => rfl
  have hhas : ((c.xml.addElement (XmlElement.textElement QN_ROSTER_GROUP group)).named
      QN_ROSTER_GROUP).length = (c.xml.named QN_ROSTER_GROUP).length + 1 := by
    rw [XmlElement.named_addElement, if_pos (XmlElement.textElement_name _ _),
      List.length_append, List.length_singleton]
  rw [hnone] at hsays
  exact Nat.succ_ne_zero _ (hhas.symm.trans hsays.symm)

/-! ## 5. Every run -/

/-- After some calls, what a contact remembers is right. -/
def RightAfter (l : List ContactCall) : Prop := ∃ c, create.calls l = some c ∧ Remembering c

/-- The call that comes after these finds the groups counted, if it adds one. -/
def CountedAfter (l : List ContactCall) (x : ContactCall) : Prop :=
  ∀ c, create.calls l = some c → Counted c x

theorem rightAfter_snoc (l : List ContactCall) (x : ContactCall) (h : RightAfter l) :
    RightAfter (l ++ [x]) ↔ CountedAfter l x := by
  obtain ⟨c, hc, hright⟩ := h
  have hsnoc : create.calls (l ++ [x]) = c.call x := by
    rw [calls_snoc, hc, Option.bind_some]
  constructor
  · rintro ⟨c', hc', hright'⟩ d hd
    rw [hc] at hd
    obtain rfl := Option.some.inj hd
    refine Classical.byContradiction fun huncounted => ?_
    obtain ⟨c'', hc'', hdisagrees⟩ := uncounted_disagrees huncounted
    rw [hsnoc, hc''] at hc'
    obtain rfl := Option.some.inj hc'
    exact hdisagrees hright'.agrees
  · intro hcounted
    obtain ⟨c', hc', hright'⟩ := hright.call (hcounted c hc)
    exact ⟨c', hsnoc.trans hc', hright'⟩

end XmppRosterContact

end Gxmpp
