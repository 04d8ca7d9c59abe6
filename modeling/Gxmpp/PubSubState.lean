/-
The states of a pub sub client and the items that are live.

What an item does to the state of its key is one thing, whatever the branch of `OnItem`: it
sets it (`Sets`). An item says nothing of the other items with its key, and nothing of the
key it had before, so the states reflect the live items only as long as no item takes a state
away that another one asserts, and no item leaves a key that no other one asserts.
-/
import Gxmpp.HangoutPubSub
import Gxmpp.History

set_option autoImplicit false

namespace Gxmpp

namespace PubSubStateClient

variable {K C : Type} [DecidableEq K] [DecidableEq C] {c : PubSubStateClient K C}
  {m : PubSubStateMaps K C}

/-! ## 1. What an item does -/

/-- The state for a key, as `OnItem` reads it. -/
def stateOf (c : PubSubStateClient K C) (m : PubSubStateMaps K C) (key : K) : C :=
  (m.state_by_key_.lookup key).getD c.default_state_

/-- The key of an item. -/
def keyOf (c : PubSubStateClient K C) (info : StateItemInfo) : K :=
  c.getKey info.publisher_nick info.published_nick

/-- `StatesEqual` is the one of the class itself. -/
def DefaultStatesEqual (c : PubSubStateClient K C) : Prop :=
  ∀ state1 state2, c.statesEqual state1 state2 = decide (state1 = state2)

omit [DecidableEq K] in
theorem new_defaultStatesEqual (publisher_nick : Str) (state_name : QName) (default_state : C)
    (key_serializer : Str → Str → K) (state_serializer : PubSubStateSerializer C) :
    (new publisher_nick state_name default_state key_serializer
      state_serializer).DefaultStatesEqual :=
  fun _ _ => rfl

omit [DecidableEq K] in
/-- An item of a client for a boolean state is always the state `true`. -/
theorem new_parse_bool {publisher_nick : Str} {state_name : QName} {default_state state : Bool}
    {key_serializer : Str → Str → K} {item : PubSubItem} {info : StateItemInfo}
    (h : (new publisher_nick state_name default_state key_serializer
      BoolStateSerializer).parseStateItem item = some (info, state)) : state = true := by
  unfold new at h
  dsimp only at h
  split at h
  · exact absurd h (Option.some_ne_none _).symm
  · exact (Prod.mk.inj (Option.some.inj h)).2.symm

/-- The state of one key becomes `new_state`, and that is signalled if it is a change. -/
structure Sets (c : PubSubStateClient K C) (m : PubSubStateMaps K C) (info : StateItemInfo)
    (new_state : C) (r : PubSubStateMaps K C × Option (PubSubStateChange C)) : Prop where
  states : ∀ key, c.stateOf r.1 key = if key = c.keyOf info then new_state else c.stateOf m key
  change : r.2 = if new_state = c.stateOf m (c.keyOf info) then none
    else some ⟨info.publisher_nick, info.published_nick, c.stateOf m (c.keyOf info), new_state⟩

/-- `changeState` sets the state of the key. A retracted item that finds no state sets the
default where it was the default. -/
theorem changeState_sets (hc : c.DefaultStatesEqual) (m : PubSubStateMaps K C)
    {retracted : Bool} (info : StateItemInfo) (new_state : C)
    (hretracted : retracted = true → new_state = c.default_state_) :
    Sets c m info new_state (c.changeState m retracted info new_state) := by
  have hold : retracted && !(m.state_by_key_.lookup (c.keyOf info)).isSome →
      new_state = c.stateOf m (c.keyOf info) := by
    intro h
    rw [Bool.and_eq_true, Bool.not_eq_true', Option.isSome_eq_false_iff,
      Option.isNone_iff_eq_none] at h
    unfold stateOf
    rw [hretracted h.1, h.2, Option.getD_none]
  unfold changeState
  by_cases hsame : new_state = c.stateOf m (c.keyOf info)
  · -- nothing changes and nothing is signalled
    have hskip : ((retracted && !(m.state_by_key_.lookup (c.keyOf info)).isSome)
        || c.statesEqual new_state ((m.state_by_key_.lookup (c.keyOf info)).getD c.default_state_))
          = true := by
      rw [hc, Bool.or_eq_true]
      exact Or.inr (decide_eq_true hsame)
    refine ⟨?_, ?_⟩
    · intro key
      dsimp only
      rw [show c.getKey info.publisher_nick info.published_nick = c.keyOf info from rfl,
        if_pos hskip]
      by_cases hkey : key = c.keyOf info
      · rw [if_pos hkey, hkey, hsame]
      · rw [if_neg hkey]
    · dsimp only
      rw [show c.getKey info.publisher_nick info.published_nick = c.keyOf info from rfl,
        if_pos hskip, if_pos hsame]
  · have hgo : ¬((retracted && !(m.state_by_key_.lookup (c.keyOf info)).isSome)
        || c.statesEqual new_state ((m.state_by_key_.lookup (c.keyOf info)).getD c.default_state_))
          = true := by
      rw [hc, Bool.or_eq_true]
      intro h
      rcases h with h | h
      · exact hsame (hold h)
      · exact hsame (of_decide_eq_true h)
    refine ⟨?_, ?_⟩
    · intro key
      dsimp only
      rw [show c.getKey info.publisher_nick info.published_nick = c.keyOf info from rfl,
        if_neg hgo]
      by_cases hdefault : retracted = true ∨ new_state = c.default_state_
      · have hnew : new_state = c.default_state_ := hdefault.elim hretracted id
        have herase : (retracted || c.statesEqual new_state c.default_state_) = true := by
          rw [hc, Bool.or_eq_true]
          exact hdefault.imp id decide_eq_true
        rw [if_pos herase]
        unfold stateOf
        by_cases hkey : key = c.keyOf info
        · rw [if_pos hkey, hkey, AList.lookup_erase, Option.getD_none, hnew]
        · rw [if_neg hkey, AList.lookup_erase_ne hkey]
      · have hset : ¬(retracted || c.statesEqual new_state c.default_state_) = true := by
          rw [hc, Bool.or_eq_true]
          exact fun h => hdefault (h.imp id of_decide_eq_true)
        rw [if_neg hset]
        unfold stateOf
        by_cases hkey : key = c.keyOf info
        · rw [if_pos hkey, hkey, AList.lookup_insert, Option.getD_some]
        · rw [if_neg hkey, AList.lookup_insert_ne hkey]
    · dsimp only
      rw [show c.getKey info.publisher_nick info.published_nick = c.keyOf info from rfl,
        if_neg hgo, if_neg hsame]
      rfl

omit [DecidableEq C] in
theorem changeState_info (m : PubSubStateMaps K C) (retracted : Bool) (info : StateItemInfo)
    (new_state : C) :
    (c.changeState m retracted info new_state).1.info_by_itemid_ = m.info_by_itemid_ := by
  unfold changeState
  dsimp only
  split <;> rfl

/-- The cases of `OnItem`. -/
inductive ItemCase (c : PubSubStateClient K C) (m : PubSubStateMaps K C) (item : PubSubItem) :
    PubSubStateMaps K C × Option (PubSubStateChange C) → Prop where
  | published (info : StateItemInfo) (new_state : C)
      (r : PubSubStateMaps K C × Option (PubSubStateChange C))
      (hparse : c.parseStateItem item = some (info, new_state)) (hsets : Sets c m info new_state r)
      (hinfo : r.1.info_by_itemid_ = m.info_by_itemid_.insert item.itemid info) :
      ItemCase c m item r
  | unknown (hparse : c.parseStateItem item = none)
      (hunknown : m.info_by_itemid_.lookup item.itemid = none) : ItemCase c m item (m, none)
  | retracted (info : StateItemInfo) (r : PubSubStateMaps K C × Option (PubSubStateChange C))
      (hparse : c.parseStateItem item = none)
      (hknown : m.info_by_itemid_.lookup item.itemid = some info)
      (hsets : Sets c m info c.default_state_ r)
      (hinfo : r.1.info_by_itemid_ = m.info_by_itemid_.erase item.itemid) : ItemCase c m item r

theorem onItem_case (hc : c.DefaultStatesEqual) (m : PubSubStateMaps K C) (item : PubSubItem) :
    ItemCase c m item (c.onItem m item) := by
  unfold onItem
  rcases hparse : c.parseStateItem item with _ | ⟨info, new_state⟩
  · rcases hlookup : m.info_by_itemid_.lookup item.itemid with _ | info
    · exact .unknown hparse hlookup
    · have hsets := changeState_sets hc
        ⟨m.state_by_key_, m.info_by_itemid_.erase item.itemid⟩ info c.default_state_
        (fun _ : true = true => rfl)
      exact .retracted info _ hparse hlookup ⟨hsets.states, hsets.change⟩ (changeState_info ..)
  · have hsets := changeState_sets hc
      ⟨m.state_by_key_, m.info_by_itemid_.insert item.itemid info⟩ info new_state
      (fun h : false = true => absurd h Bool.false_ne_true)
    exact .published info new_state _ hparse ⟨hsets.states, hsets.change⟩ (changeState_info ..)

omit [DecidableEq C] in
theorem onItems_snoc (m : PubSubStateMaps K C) (items : List PubSubItem) (item : PubSubItem) :
    c.onItems m (items ++ [item])
      = ((c.onItem (c.onItems m items).1 item).1,
          (c.onItems m items).2 ++ (c.onItem (c.onItems m items).1 item).2.toList) := by
  unfold onItems
  rw [List.foldl_append, List.foldl_cons, List.foldl_nil]

/-! ## 2. The live items -/

/-- An item replaces what was published under its id; a retracted item leaves nothing. -/
def track (c : PubSubStateClient K C) (live : Str → Option (StateItemInfo × C))
    (item : PubSubItem) : Str → Option (StateItemInfo × C) :=
  fun itemid => if itemid = item.itemid then c.parseStateItem item else live itemid

/-- The live items, by id: what was published and not retracted since. -/
def liveItems (c : PubSubStateClient K C) (items : List PubSubItem) :
    Str → Option (StateItemInfo × C) :=
  items.foldl c.track fun _ => none

omit [DecidableEq K] [DecidableEq C] in
theorem liveItems_snoc (items : List PubSubItem) (item : PubSubItem) :
    c.liveItems (items ++ [item]) = c.track (c.liveItems items) item := by
  unfold liveItems
  rw [List.foldl_append, List.foldl_cons, List.foldl_nil]

omit [DecidableEq K] [DecidableEq C] in
/-- What is live was published. -/
theorem liveItems_published {items : List PubSubItem} {itemid : Str} {p : StateItemInfo × C}
    (h : c.liveItems items itemid = some p) : ∃ item ∈ items, c.parseStateItem item = some p := by
  induction items using List.reverseRecOn with
  | nil => exact absurd h (Option.some_ne_none _).symm
  | append_singleton items item ih =>
    rw [liveItems_snoc] at h
    unfold track at h
    by_cases hid : itemid = item.itemid
    · rw [if_pos hid] at h
      exact ⟨item, List.mem_append_right _ List.mem_cons_self, h⟩
    · rw [if_neg hid] at h
      obtain ⟨earlier, hmem, hparse⟩ := ih h
      exact ⟨earlier, List.mem_append_left _ hmem, hparse⟩

/-- What is remembered of the items is what it was published with. -/
def Remembers (m : PubSubStateMaps K C) (live : Str → Option (StateItemInfo × C)) : Prop :=
  ∀ itemid, m.info_by_itemid_.lookup itemid = (live itemid).map Prod.fst

theorem onItem_remembers (hc : c.DefaultStatesEqual) {live : Str → Option (StateItemInfo × C)}
    (h : Remembers m live) (item : PubSubItem) :
    Remembers (c.onItem m item).1 (c.track live item) := by
  have hcase := onItem_case hc m item
  generalize c.onItem m item = r at hcase ⊢
  intro itemid
  unfold track
  by_cases hid : itemid = item.itemid
  · rw [if_pos hid, hid]
    cases hcase with
    | published info new_state _ hparse _ hinfo => rw [hinfo, AList.lookup_insert, hparse]; rfl
    | unknown hparse hunknown => rw [hunknown, hparse]; rfl
    | retracted info _ hparse _ _ hinfo => rw [hinfo, AList.lookup_erase, hparse]; rfl
  · rw [if_neg hid, ← h itemid]
    cases hcase with
    | published info new_state _ _ _ hinfo => rw [hinfo, AList.lookup_insert_ne hid]
    | unknown _ _ => rfl
    | retracted info _ _ _ _ hinfo => rw [hinfo, AList.lookup_erase_ne hid]

theorem onItems_remembers (hc : c.DefaultStatesEqual) (items : List PubSubItem) :
    Remembers (c.onItems .init items).1 (c.liveItems items) := by
  induction items using List.reverseRecOn with
  | nil => exact fun _ => rfl
  | append_singleton items item ih =>
    rw [onItems_snoc, liveItems_snoc]
    exact onItem_remembers hc ih item

/-- The item of that id asserts a state other than the default for the key. -/
def Asserts (c : PubSubStateClient K C) (live : Str → Option (StateItemInfo × C)) (itemid : Str)
    (key : K) : Prop :=
  ∃ info state, live itemid = some (info, state) ∧ c.keyOf info = key ∧ state ≠ c.default_state_

/-- An item of another id does. -/
def OtherAsserts (c : PubSubStateClient K C) (live : Str → Option (StateItemInfo × C))
    (itemid : Str) (key : K) : Prop :=
  ∃ other, other ≠ itemid ∧ c.Asserts live other key

omit [DecidableEq K] [DecidableEq C] in
/-- Who asserts a state for the key: the item, or another. -/
theorem asserted_iff (live : Str → Option (StateItemInfo × C)) (itemid : Str) (key : K) :
    (∃ other, c.Asserts live other key) ↔
      c.Asserts live itemid key ∨ c.OtherAsserts live itemid key := by
  constructor
  · rintro ⟨other, h⟩
    by_cases hid : other = itemid
    · exact Or.inl (hid ▸ h)
    · exact Or.inr ⟨other, hid, h⟩
  · rintro (h | ⟨other, -, h⟩)
    · exact ⟨itemid, h⟩
    · exact ⟨other, h⟩

omit [DecidableEq K] [DecidableEq C] in
/-- After an item: its new content, or an item that asserted it before. -/
theorem asserted_track (live : Str → Option (StateItemInfo × C)) (item : PubSubItem) (key : K) :
    (∃ itemid, c.Asserts (c.track live item) itemid key) ↔
      (∃ info state, c.parseStateItem item = some (info, state) ∧ c.keyOf info = key
        ∧ state ≠ c.default_state_) ∨ c.OtherAsserts live item.itemid key := by
  have hself : c.track live item item.itemid = c.parseStateItem item := if_pos rfl
  have hother : ∀ other, other ≠ item.itemid → c.track live item other = live other :=
    fun other hid => if_neg hid
  rw [asserted_iff _ item.itemid]
  unfold OtherAsserts Asserts
  rw [hself]
  refine or_congr_right ⟨?_, ?_⟩
  · rintro ⟨other, hid, h⟩
    rw [hother other hid] at h
    exact ⟨other, hid, h⟩
  · rintro ⟨other, hid, h⟩
    rw [← hother other hid] at h
    exact ⟨other, hid, h⟩

/-! ## 3. The states reflect the live items -/

/-- `state_by_key_` holds a state other than the default for the key. -/
def HoldsState (c : PubSubStateClient K C) (m : PubSubStateMaps K C) (key : K) : Prop :=
  ∃ state, m.state_by_key_.lookup key = some state ∧ state ≠ c.default_state_

omit [DecidableEq C] in
theorem holdsState_iff (key : K) : c.HoldsState m key ↔ c.stateOf m key ≠ c.default_state_ := by
  unfold HoldsState stateOf
  rcases m.state_by_key_.lookup key with _ | state
  · rw [Option.getD_none]
    exact iff_of_false (fun ⟨_, h, _⟩ => absurd h (Option.some_ne_none _).symm) fun h => h rfl
  · rw [Option.getD_some]
    constructor
    · rintro ⟨_, heq, h⟩
      rwa [Option.some.inj heq]
    · exact fun h => ⟨state, rfl, h⟩

/-- There is a state for a key exactly when a live item asserts one. -/
def ReflectsLive (c : PubSubStateClient K C) (m : PubSubStateMaps K C)
    (live : Str → Option (StateItemInfo × C)) : Prop :=
  ∀ key, c.HoldsState m key ↔ ∃ itemid, c.Asserts live itemid key

/-- An item that is retracted, or published with the default state, is the only one that
asserts a state for its key; and a key that an item leaves is asserted by another one. -/
def KeepsLive (c : PubSubStateClient K C) (live : Str → Option (StateItemInfo × C))
    (item : PubSubItem) : Prop :=
  match c.parseStateItem item with
  | none =>
    ∀ info state, live item.itemid = some (info, state) →
      ¬c.OtherAsserts live item.itemid (c.keyOf info)
  | some (info, state) =>
    (state = c.default_state_ → ¬c.OtherAsserts live item.itemid (c.keyOf info))
      ∧ ∀ key, key ≠ c.keyOf info → c.Asserts live item.itemid key →
          c.OtherAsserts live item.itemid key

section Cases

variable {live : Str → Option (StateItemInfo × C)} {item : PubSubItem} {info : StateItemInfo}
  {new_state : C} {r : PubSubStateMaps K C × Option (PubSubStateChange C)}

theorem published_reflects
    (hbefore : ∀ key, c.stateOf m key ≠ c.default_state_ ↔
      c.Asserts live item.itemid key ∨ c.OtherAsserts live item.itemid key)
    (hparse : c.parseStateItem item = some (info, new_state)) (hsets : Sets c m info new_state r) :
    c.ReflectsLive r.1 (c.track live item) ↔ c.KeepsLive live item := by
  have hcontent : ∀ key, (∃ i s, c.parseStateItem item = some (i, s) ∧ c.keyOf i = key
      ∧ s ≠ c.default_state_) ↔ key = c.keyOf info ∧ new_state ≠ c.default_state_ := by
    intro key
    rw [hparse]
    constructor
    · rintro ⟨_, _, heq, rfl, hs⟩
      obtain ⟨rfl, rfl⟩ := Prod.mk.inj (Option.some.inj heq)
      exact ⟨rfl, hs⟩
    · rintro ⟨rfl, hs⟩
      exact ⟨info, new_state, rfl, rfl, hs⟩
  unfold ReflectsLive KeepsLive
  simp only [holdsState_iff, asserted_track, hcontent, hsets.states]
  rw [hparse]
  dsimp only
  constructor
  · intro hall
    refine ⟨fun hdefault hother => ?_, fun key hkey hself => ?_⟩
    · have hhere := (hall (c.keyOf info)).2 (Or.inr hother)
      rw [if_pos rfl] at hhere
      exact hhere hdefault
    · have hthere := hall key
      rw [if_neg hkey, hbefore key] at hthere
      exact (hthere.1 (Or.inl hself)).resolve_left fun h => hkey h.1
  · rintro ⟨hdefault, hleft⟩ key
    by_cases hkey : key = c.keyOf info
    · -- the key of the item: its new state decides
      rw [if_pos hkey]
      constructor
      · exact fun hnew => Or.inl ⟨hkey, hnew⟩
      · rintro (h | hother) hnew
        · exact h.2 hnew
        · exact hdefault hnew (hkey ▸ hother)
    · -- another key, which the item may have left
      rw [if_neg hkey, hbefore key]
      constructor
      · rintro (hself | hother)
        · exact Or.inr (hleft key hkey hself)
        · exact Or.inr hother
      · rintro (h | hother)
        · exact absurd h.1 hkey
        · exact Or.inr hother

omit [DecidableEq K] [DecidableEq C] in
/-- The item asserts nothing any more. -/
theorem asserted_retracted (hparse : c.parseStateItem item = none) (key : K) :
    (∃ itemid, c.Asserts (c.track live item) itemid key) ↔ c.OtherAsserts live item.itemid key := by
  rw [asserted_track, hparse]
  exact or_iff_right fun ⟨_, _, heq, _⟩ => absurd heq (Option.some_ne_none _).symm

theorem retracted_reflects {state : C}
    (hbefore : ∀ key, c.stateOf m key ≠ c.default_state_ ↔
      c.Asserts live item.itemid key ∨ c.OtherAsserts live item.itemid key)
    (hparse : c.parseStateItem item = none) (hlive : live item.itemid = some (info, state))
    (hsets : Sets c m info c.default_state_ r) :
    c.ReflectsLive r.1 (c.track live item) ↔ c.KeepsLive live item := by
  unfold ReflectsLive KeepsLive
  simp only [holdsState_iff, asserted_retracted hparse, hsets.states]
  rw [hparse]
  dsimp only
  constructor
  · intro hall i s heq hother
    obtain ⟨rfl, rfl⟩ := Prod.mk.inj (Option.some.inj (hlive.symm.trans heq))
    have hhere := (hall (c.keyOf info)).2 hother
    rw [if_pos rfl] at hhere
    exact hhere rfl
  · intro hnone key
    by_cases hkey : key = c.keyOf info
    · rw [if_pos hkey, hkey]
      exact iff_of_false (fun h => h rfl) (hnone info state hlive)
    · -- the item asserted no state for another key
      rw [if_neg hkey, hbefore key]
      refine or_iff_right ?_
      rintro ⟨_, _, heq, hkeyOf, -⟩
      obtain ⟨rfl, -⟩ := Prod.mk.inj (Option.some.inj (hlive.symm.trans heq))
      exact hkey hkeyOf.symm

end Cases

theorem onItem_reflects (hc : c.DefaultStatesEqual) {live : Str → Option (StateItemInfo × C)}
    (hremembers : Remembers m live) (h : c.ReflectsLive m live) (item : PubSubItem) :
    c.ReflectsLive (c.onItem m item).1 (c.track live item) ↔ c.KeepsLive live item := by
  have hbefore : ∀ key, c.stateOf m key ≠ c.default_state_ ↔
      c.Asserts live item.itemid key ∨ c.OtherAsserts live item.itemid key := by
    intro key
    rw [← holdsState_iff, h key, asserted_iff live item.itemid]
  have hmap := hremembers item.itemid
  have hcase := onItem_case hc m item
  generalize c.onItem m item = r at hcase ⊢
  cases hcase with
  | published info new_state _ hparse hsets _ => exact published_reflects hbefore hparse hsets
  | unknown hparse hunknown =>
    rw [hunknown] at hmap
    have hdead : live item.itemid = none := Option.map_eq_none_iff.1 hmap.symm
    have hnothing : ∀ {info state}, live item.itemid ≠ some (info, state) := fun heq =>
      absurd (hdead.symm.trans heq) (Option.some_ne_none _).symm
    unfold ReflectsLive KeepsLive
    rw [hparse]
    refine iff_of_true (fun key => ?_) (fun info state heq => absurd heq hnothing)
    rw [holdsState_iff, hbefore key, asserted_retracted hparse]
    exact or_iff_right fun ⟨_, _, heq, _⟩ => absurd heq hnothing
  | retracted info _ hparse hknown hsets _ =>
    rw [hknown] at hmap
    obtain ⟨⟨i, state⟩, hlive, rfl⟩ := Option.map_eq_some_iff.1 hmap.symm
    exact retracted_reflects hbefore hparse hlive hsets

/-- The states reflect the live items all the time, exactly when every item keeps them so. -/
theorem state_reflects_live (c : PubSubStateClient K C) (hc : c.DefaultStatesEqual)
    (items : List PubSubItem) :
    (∀ done, done <+: items → c.ReflectsLive (c.onItems .init done).1 (c.liveItems done)) ↔
      ∀ done item, done ++ [item] <+: items → c.KeepsLive (c.liveItems done) item := by
  refine History.always_iff ?_ ?_ items
  · intro key
    rw [holdsState_iff]
    exact iff_of_false (fun h => h rfl)
      fun ⟨_, _, _, h, _⟩ => absurd h (Option.some_ne_none _).symm
  · intro done item hgood
    rw [onItems_snoc, liveItems_snoc]
    exact onItem_reflects hc (onItems_remembers hc done) hgood item

end PubSubStateClient

/-- An item with a state element for a nick. -/
def stateItem (itemid publisher : Str) (state_name : QName) (nick : Str) : PubSubItem :=
  let state_elem := (XmlElement.new state_name true).addAttr QN_NICK nick
  let elem := (XmlElement.new QN_PUBSUB_EVENT_ITEM false).addAttr QN_ATTR_PUBLISHER publisher
  ⟨itemid, elem.addElement state_elem⟩

/-- A retracted item. -/
def retractedItem (itemid : Str) : PubSubItem :=
  ⟨itemid, XmlElement.new QN_PUBSUB_EVENT_RETRACT false⟩

/-- Two items mute one nick, and the first of them is retracted. -/
def mutedTwice : List PubSubItem :=
  [stateItem (str "1") (str "r@c/a") QN_GOOGLE_MUC_AUDIO_MUTE (str "n"),
    stateItem (str "2") (str "r@c/b") QN_GOOGLE_MUC_AUDIO_MUTE (str "n"),
    retractedItem (str "1")]

open PubSubStateClient HangoutPubSubClient in
/-- The nick is not muted any more, though the second item is live. -/
theorem state_reflects_live_fails : ¬ ∀ c : PubSubStateClient Str Bool, c.DefaultStatesEqual →
    ∀ items, c.ReflectsLive (c.onItems .init items).1 (c.liveItems items) := by
  intro h
  have hlive := h (audioMuteStateClient []) (new_defaultStatesEqual _ _ _ _ _) mutedTwice (str "n")
  have hholds := hlive.2 ⟨str "2", ⟨str "n", str "b"⟩, true, by decide, by decide, by decide⟩
  exact holdsState_iff _ |>.1 hholds (by decide)

open PubSubStateClient HangoutPubSubClient in
/-- One of the two items is enough. -/
theorem state_reflects_live_once :
    (audioMuteStateClient []).DefaultStatesEqual ∧
      ∀ done, done <+: mutedTwice.take 1 →
        (audioMuteStateClient []).ReflectsLive ((audioMuteStateClient []).onItems .init done).1
          ((audioMuteStateClient []).liveItems done) := by
  refine ⟨new_defaultStatesEqual _ _ _ _ _, ?_⟩
  refine (state_reflects_live _ (new_defaultStatesEqual _ _ _ _ _) _).2 fun done item hprefix => ?_
  obtain ⟨rest, hrest⟩ := hprefix
  rw [List.append_assoc] at hrest
  have hone : (mutedTwice.take 1).length = 1 := rfl
  have hlength := congrArg List.length hrest
  rw [List.length_append, List.length_append, List.length_singleton, hone] at hlength
  obtain rfl : done = [] := List.length_eq_zero_iff.1 (by omega)
  obtain ⟨rfl, -⟩ := List.cons.inj hrest
  refine ⟨fun h => absurd h (by decide), fun key _ hself => ?_⟩
  obtain ⟨_, _, heq, -⟩ := hself
  exact absurd heq (Option.some_ne_none _).symm

end Gxmpp
