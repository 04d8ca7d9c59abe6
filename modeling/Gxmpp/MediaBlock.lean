/-
Media blocks: a state for each pair of a blocker and a blockee.

The key of a pair is the two nicks with a colon between them. A nick may have a colon, so two
pairs may have one key, and then the state of one is the state of the other. What a client
does that has the pairs themselves as keys is what the comment in the source asks for ("block
is per-blocker-and-blockee"); the two clients do the same exactly when no two pairs that are
published have one key.
-/
import Gxmpp.PubSubState

set_option autoImplicit false

namespace Gxmpp

open PubSubStateClient HangoutPubSubClient

/-! ## 1. The keys -/

/-- The key of a pair. -/
def pairKey (p : Str × Str) : Str := PublisherAndPublishedNicksKeySerializer.getKey p.1 p.2

/-- The separator of the second pair is inside the published nick of the first one, and the
separator of the first inside the publisher nick of the second. -/
def Overlap (p q : Str × Str) : Prop :=
  ∃ s, q.1 = p.1 ++ str ":" ++ s ∧ p.2 = s ++ str ":" ++ q.2

variable {p : Str × Str} {info : StateItemInfo} {items : List PubSubItem}

theorem Overlap.key_eq {q : Str × Str} (h : Overlap p q) : pairKey p = pairKey q := by
  obtain ⟨s, hfirst, hsecond⟩ := h
  unfold pairKey PublisherAndPublishedNicksKeySerializer.getKey
  rw [hfirst, hsecond]
  simp only [List.append_assoc]

theorem Overlap.ne {q : Str × Str} (h : Overlap p q) : p ≠ q := by
  rintro rfl
  obtain ⟨s, hfirst, -⟩ := h
  have hlength := congrArg List.length hfirst
  rw [List.length_append, List.length_append] at hlength
  have hcolon : (str ":").length = 1 := rfl
  omega

/-- Where the shorter publisher nick ends, the other one has a colon. -/
theorem overlap_of_append {a b c d s : Str} (hfirst : c = a ++ s)
    (hsecond : str ":" ++ b = s ++ (str ":" ++ d)) : (a, b) = (c, d) ∨ Overlap (a, b) (c, d) := by
  have hcolon : str ":" = [0x3A] := rfl
  rw [hcolon] at hsecond
  rcases s with _ | ⟨ch, s⟩
  · have hb := (List.cons.inj hsecond).2
    rw [List.append_nil] at hfirst
    exact Or.inl (Prod.ext hfirst.symm hb)
  · obtain ⟨rfl, hb⟩ := List.cons.inj hsecond
    refine Or.inr ⟨s, ?_, ?_⟩
    · rw [hfirst, hcolon, List.append_assoc]
      rfl
    · rw [hcolon, List.append_assoc]
      exact hb

theorem pairKey_eq_iff (p q : Str × Str) :
    pairKey p = pairKey q ↔ p = q ∨ Overlap p q ∨ Overlap q p := by
  constructor
  · intro h
    unfold pairKey PublisherAndPublishedNicksKeySerializer.getKey at h
    rw [List.append_assoc, List.append_assoc, List.append_eq_append_iff] at h
    rcases h with ⟨s, hfirst, hsecond⟩ | ⟨s, hfirst, hsecond⟩
    · exact (overlap_of_append hfirst hsecond).imp_right Or.inl
    · exact (overlap_of_append hfirst hsecond).imp Eq.symm Or.inr
  · rintro (rfl | h | h)
    · rfl
    · exact h.key_eq
    · exact h.key_eq.symm

/-- One key means one pair, exactly when the two do not overlap. -/
theorem pairKey_injective_iff (p q : Str × Str) :
    (pairKey p = pairKey q → p = q) ↔ ¬Overlap p q ∧ ¬Overlap q p := by
  rw [pairKey_eq_iff]
  constructor
  · exact fun h => ⟨fun ho => ho.ne (h (Or.inr (Or.inl ho))),
      fun ho => ho.ne (h (Or.inr (Or.inr ho))).symm⟩
  · rintro ⟨hpq, hqp⟩ (rfl | ho | ho)
    · rfl
    · exact absurd ho hpq
    · exact absurd ho hqp

/-- The item id of a block is the key with something before it. -/
theorem blockMedia_itemid_eq_iff (p q : Str × Str) :
    (blockMedia p.1 p.2).map PubSubRequest.itemid = (blockMedia q.1 q.2).map PubSubRequest.itemid
      ↔ pairKey p = pairKey q := by
  have hitemid : ∀ r : Str × Str, (blockMedia r.1 r.2).map PubSubRequest.itemid
      = some (str "block" ++ str ":" ++ pairKey r) := fun r => rfl
  rw [hitemid, hitemid, Option.some.injEq, List.append_right_inj]

/-! ## 2. A client that has the pairs as keys -/

/-- The media block client with a pair of nicks for a key. -/
def pairStateClient (nick : Str) : PubSubStateClient (Str × Str) Bool :=
  .new nick QN_GOOGLE_MUC_MEDIA_BLOCK false Prod.mk BoolStateSerializer

/-- The pair of an item. -/
def StateItemInfo.pair (info : StateItemInfo) : Str × Str :=
  (info.publisher_nick, info.published_nick)

/-- The pair an item blocks, if it is a media block. -/
def blockedPair (item : PubSubItem) : Option (Str × Str) :=
  ((mediaBlockStateClient []).parseStateItem item).map fun p => p.1.pair

/-- The pairs that are published. -/
def blockedPairs (items : List PubSubItem) : List (Str × Str) := items.filterMap blockedPair

/-- What `OnMediaBlockStateChange` tells of the items. -/
def blocksTold {K : Type} [DecidableEq K] (c : PubSubStateClient K Bool)
    (items : List PubSubItem) : List HangoutSignal :=
  (c.onItems .init items).2.flatMap onMediaBlockStateChange

/-- The pairs are not merged: the blocks that are told are those a state for each pair makes,
and for every pair published so far the state under its key is the state of the pair. -/
structure KeepsApart (nick : Str) (items : List PubSubItem) : Prop where
  told : blocksTold (mediaBlockStateClient nick) items = blocksTold (pairStateClient nick) items
  states : ∀ p ∈ blockedPairs items,
    (mediaBlockStateClient nick).stateOf ((mediaBlockStateClient nick).onItems .init items).1
        (pairKey p)
      = (pairStateClient nick).stateOf ((pairStateClient nick).onItems .init items).1 p

/-! ## 3. The two clients, item by item -/

theorem mediaBlock_default (nick : Str) : (mediaBlockStateClient nick).DefaultStatesEqual :=
  new_defaultStatesEqual _ _ _ _ _

theorem pairState_default (nick : Str) : (pairStateClient nick).DefaultStatesEqual :=
  new_defaultStatesEqual _ _ _ _ _

theorem blockedPairs_snoc (items : List PubSubItem) (item : PubSubItem) :
    blockedPairs (items ++ [item]) = blockedPairs items ++ (blockedPair item).toList := by
  unfold blockedPairs
  rw [List.filterMap_append]
  cases h : blockedPair item <;> simp [h]

/-- A media block is always the state `true`. -/
theorem mediaBlock_parse (nick : Str) {item : PubSubItem} {state : Bool}
    (h : (mediaBlockStateClient nick).parseStateItem item = some (info, state)) :
    state = true ∧ blockedPair item = some info.pair := by
  have hpair : blockedPair item
      = ((mediaBlockStateClient nick).parseStateItem item).map fun p => p.1.pair := rfl
  refine ⟨new_parse_bool h, ?_⟩
  rw [hpair, h]
  rfl

theorem mediaBlock_parse_none (nick : Str) {item : PubSubItem}
    (h : (mediaBlockStateClient nick).parseStateItem item = none) : blockedPair item = none := by
  have hpair : blockedPair item
      = ((mediaBlockStateClient nick).parseStateItem item).map fun p => p.1.pair := rfl
  rw [hpair, h]
  rfl

/-- What an item does to two clients that remember the same items: both set the state of its
pair, or nothing happens. -/
inductive BothCase (nick : Str) (m : PubSubStateMaps Str Bool)
    (n : PubSubStateMaps (Str × Str) Bool) (item : PubSubItem) :
    PubSubStateMaps Str Bool × Option (PubSubStateChange Bool) →
      PubSubStateMaps (Str × Str) Bool × Option (PubSubStateChange Bool) → Prop where
  | blocked (info : StateItemInfo) (r : PubSubStateMaps Str Bool × Option (PubSubStateChange Bool))
      (s : PubSubStateMaps (Str × Str) Bool × Option (PubSubStateChange Bool))
      (hpair : blockedPair item = some info.pair)
      (hr : Sets (mediaBlockStateClient nick) m info true r)
      (hs : Sets (pairStateClient nick) n info true s)
      (hinfo : r.1.info_by_itemid_ = s.1.info_by_itemid_) : BothCase nick m n item r s
  | nothing (hpair : blockedPair item = none) : BothCase nick m n item (m, none) (n, none)
  | retracted (info : StateItemInfo)
      (r : PubSubStateMaps Str Bool × Option (PubSubStateChange Bool))
      (s : PubSubStateMaps (Str × Str) Bool × Option (PubSubStateChange Bool))
      (hpair : blockedPair item = none)
      (hknown : m.info_by_itemid_.lookup item.itemid = some info)
      (hr : Sets (mediaBlockStateClient nick) m info false r)
      (hs : Sets (pairStateClient nick) n info false s)
      (hinfo : r.1.info_by_itemid_ = s.1.info_by_itemid_) : BothCase nick m n item r s

theorem both_case (nick : Str) {m : PubSubStateMaps Str Bool}
    {n : PubSubStateMaps (Str × Str) Bool} (h : m.info_by_itemid_ = n.info_by_itemid_)
    (item : PubSubItem) :
    BothCase nick m n item ((mediaBlockStateClient nick).onItem m item)
      ((pairStateClient nick).onItem n item) := by
  have hsame : (pairStateClient nick).parseStateItem item
      = (mediaBlockStateClient nick).parseStateItem item := rfl
  have hr := onItem_case (mediaBlock_default nick) m item
  have hs := onItem_case (pairState_default nick) n item
  generalize (mediaBlockStateClient nick).onItem m item = r at hr ⊢
  generalize (pairStateClient nick).onItem n item = s at hs ⊢
  cases hr with
  | published info new_state _ hparse hsets hinfo =>
    obtain ⟨rfl, hpair⟩ := mediaBlock_parse nick hparse
    cases hs with
    | published info' new_state' _ hparse' hsets' hinfo' =>
      obtain ⟨rfl, rfl⟩ := Prod.mk.inj
        (Option.some.inj (hparse.symm.trans (hsame.symm.trans hparse')))
      exact .blocked info _ _ hpair hsets hsets' (by rw [hinfo, hinfo', h])
    | unknown hparse' _ | retracted _ _ hparse' _ _ _ =>
      exact absurd (hparse.symm.trans (hsame.symm.trans hparse')) (Option.some_ne_none _)
  | unknown hparse hunknown =>
    have hpair := mediaBlock_parse_none nick hparse
    cases hs with
    | published _ _ _ hparse' _ _ =>
      exact absurd (hparse.symm.trans (hsame.symm.trans hparse')) (Option.some_ne_none _).symm
    | unknown _ _ => exact .nothing hpair
    | retracted _ _ _ hknown' _ _ =>
      rw [h, hknown'] at hunknown
      exact absurd hunknown (Option.some_ne_none _)
  | retracted info _ hparse hknown hsets hinfo =>
    have hpair := mediaBlock_parse_none nick hparse
    cases hs with
    | published _ _ _ hparse' _ _ =>
      exact absurd (hparse.symm.trans (hsame.symm.trans hparse')) (Option.some_ne_none _).symm
    | unknown _ hunknown' =>
      rw [h, hunknown'] at hknown
      exact absurd hknown (Option.some_ne_none _).symm
    | retracted info' _ _ hknown' hsets' hinfo' =>
      have hlookup := hknown
      rw [h, hknown'] at hlookup
      obtain rfl := Option.some.inj hlookup
      exact .retracted info' _ _ hpair hknown hsets hsets' (by rw [hinfo, hinfo', h])

theorem same_items (nick : Str) (items : List PubSubItem) :
    ((mediaBlockStateClient nick).onItems .init items).1.info_by_itemid_
      = ((pairStateClient nick).onItems .init items).1.info_by_itemid_ := by
  induction items using List.reverseRecOn with
  | nil => rfl
  | append_singleton items item ih =>
    rw [onItems_snoc, onItems_snoc]
    have hcase := both_case nick ih item
    generalize (mediaBlockStateClient nick).onItem _ item = r at hcase ⊢
    generalize (pairStateClient nick).onItem _ item = s at hcase ⊢
    cases hcase with
    | blocked _ _ _ _ _ _ hinfo | retracted _ _ _ _ _ _ _ hinfo => exact hinfo
    | nothing _ => exact ih

/-- What is remembered was published. -/
theorem remembered_blocked (nick : Str) (items : List PubSubItem) {itemid : Str}
    (h : ((mediaBlockStateClient nick).onItems .init items).1.info_by_itemid_.lookup itemid
      = some info) : info.pair ∈ blockedPairs items := by
  rw [onItems_remembers (mediaBlock_default nick) items itemid, Option.map_eq_some_iff] at h
  obtain ⟨⟨_, state⟩, hlive, rfl⟩ := h
  obtain ⟨item, hmem, hparse⟩ := liveItems_published hlive
  exact List.mem_filterMap.2 ⟨item, hmem, (mediaBlock_parse nick hparse).2⟩

theorem blocksTold_snoc {K : Type} [DecidableEq K] (c : PubSubStateClient K Bool)
    (items : List PubSubItem) (item : PubSubItem) :
    blocksTold c (items ++ [item]) = blocksTold c items
      ++ (c.onItem (c.onItems .init items).1 item).2.toList.flatMap onMediaBlockStateChange := by
  unfold blocksTold
  rw [onItems_snoc, List.flatMap_append]

/-! ## 4. Kept apart, exactly when the keys are -/

/-- Both clients set the state of a pair, and no other pair that is published has its key. -/
theorem sets_agree (nick : Str) {pairs : List (Str × Str)}
    (hkeys : ∀ p ∈ pairs, ∀ q ∈ pairs, pairKey p = pairKey q → p = q)
    {m : PubSubStateMaps Str Bool} {n : PubSubStateMaps (Str × Str) Bool} (hagree : ∀ p ∈ pairs,
      (mediaBlockStateClient nick).stateOf m (pairKey p) = (pairStateClient nick).stateOf n p)
    (hpair : info.pair ∈ pairs) {state : Bool}
    {r : PubSubStateMaps Str Bool × Option (PubSubStateChange Bool)}
    {s : PubSubStateMaps (Str × Str) Bool × Option (PubSubStateChange Bool)}
    (hr : Sets (mediaBlockStateClient nick) m info state r)
    (hs : Sets (pairStateClient nick) n info state s) :
    (∀ p ∈ pairs, (mediaBlockStateClient nick).stateOf r.1 (pairKey p)
      = (pairStateClient nick).stateOf s.1 p) ∧ r.2 = s.2 := by
  have hkey : (mediaBlockStateClient nick).keyOf info = pairKey info.pair := rfl
  have hself : (pairStateClient nick).keyOf info = info.pair := rfl
  constructor
  · intro p hp
    rw [hr.states, hs.states, hkey, hself]
    by_cases hsame : p = info.pair
    · rw [if_pos hsame, if_pos (congrArg pairKey hsame)]
    · rw [if_neg hsame, if_neg fun h => hsame (hkeys p hp _ hpair h)]
      exact hagree p hp
  · rw [hr.change, hs.change, hkey, hself, hagree _ hpair]

/-- No two pairs that are published have one key: the two clients agree all the time. -/
theorem agree_of_keys (nick : Str)
    (hkeys : ∀ p ∈ blockedPairs items, ∀ q ∈ blockedPairs items, pairKey p = pairKey q → p = q)
    {done : List PubSubItem} (hdone : done <+: items) :
    (∀ p ∈ blockedPairs items,
      (mediaBlockStateClient nick).stateOf ((mediaBlockStateClient nick).onItems .init done).1
          (pairKey p)
        = (pairStateClient nick).stateOf ((pairStateClient nick).onItems .init done).1 p)
      ∧ blocksTold (mediaBlockStateClient nick) done = blocksTold (pairStateClient nick) done := by
  induction done using List.reverseRecOn with
  | nil => exact ⟨fun _ _ => rfl, rfl⟩
  | append_singleton done item ih =>
    have hbefore : done <+: items := (List.prefix_append done [item]).trans hdone
    obtain ⟨hagree, htold⟩ := ih hbefore
    have hsub : ∀ p ∈ blockedPairs (done ++ [item]), p ∈ blockedPairs items := fun p hp =>
      (hdone.filterMap blockedPair).subset hp
    rw [blocksTold_snoc, blocksTold_snoc, htold, onItems_snoc, onItems_snoc]
    have hcase := both_case nick (same_items nick done) item
    generalize (mediaBlockStateClient nick).onItem _ item = r at hcase ⊢
    generalize (pairStateClient nick).onItem _ item = s at hcase ⊢
    cases hcase with
    | blocked info _ _ hpair hr hs _ =>
      have hmem : info.pair ∈ blockedPairs items := by
        refine hsub _ ?_
        rw [blockedPairs_snoc, hpair]
        exact List.mem_append_right _ List.mem_cons_self
      obtain ⟨hstates, hchange⟩ := sets_agree nick hkeys hagree hmem hr hs
      exact ⟨hstates, by rw [hchange]⟩
    | nothing _ => exact ⟨hagree, rfl⟩
    | retracted info _ _ _ hknown hr hs _ =>
      have hmem : info.pair ∈ blockedPairs items := by
        refine hsub _ ?_
        rw [blockedPairs_snoc]
        exact List.mem_append_left _ (remembered_blocked nick done hknown)
      obtain ⟨hstates, hchange⟩ := sets_agree nick hkeys hagree hmem hr hs
      exact ⟨hstates, by rw [hchange]⟩

/-- A pair that was not published has no state of its own. -/
theorem unpublished_false (nick : Str) (h : p ∉ blockedPairs items) :
    (pairStateClient nick).stateOf ((pairStateClient nick).onItems .init items).1 p = false := by
  induction items using List.reverseRecOn with
  | nil => rfl
  | append_singleton items item ih =>
    rw [blockedPairs_snoc, List.mem_append, not_or] at h
    rw [onItems_snoc]
    have hcase := both_case nick (same_items nick items) item
    generalize (mediaBlockStateClient nick).onItem _ item = r at hcase
    generalize (pairStateClient nick).onItem _ item = s at hcase ⊢
    cases hcase with
    | blocked info _ _ hpair _ hs _ =>
      have hother : p ≠ (pairStateClient nick).keyOf info := by
        rintro rfl
        rw [hpair] at h
        exact h.2 List.mem_cons_self
      rw [hs.states, if_neg hother]
      exact ih h.1
    | nothing _ => exact ih h.1
    | retracted info _ _ _ hknown _ hs _ =>
      rw [hs.states]
      split
      · rfl
      · exact ih h.1

/-- A pair that is published while another one with its key was published before: it is merged
with it, so one of the two is told wrong or has the state of the other. -/
theorem keys_of_keepsApart (nick : Str) (h : ∀ done, done <+: items → KeepsApart nick done) :
    ∀ p ∈ blockedPairs items, ∀ q ∈ blockedPairs items, pairKey p = pairKey q → p = q := by
  induction items using List.reverseRecOn with
  | nil => exact fun p hp => absurd hp List.not_mem_nil
  | append_singleton items item ih =>
    have hkeys := ih fun done hdone => h done (hdone.trans (List.prefix_append items [item]))
    have hbefore := h items (List.prefix_append items [item])
    have hafter := h (items ++ [item]) List.prefix_rfl
    rcases hitem : blockedPair item with _ | q₀
    · rw [blockedPairs_snoc, hitem, Option.toList_none, List.append_nil]
      exact hkeys
    have hnew : ∀ p ∈ blockedPairs items, pairKey p = pairKey q₀ → p = q₀ := by
      intro p hp hkey
      by_contra hne
      -- so the pair of the item is new, and has no state of its own
      have hfree := unpublished_false nick fun hq => hne (hkeys p hp q₀ hq hkey)
      have hstates := hafter.states p (by
        rw [blockedPairs_snoc]
        exact List.mem_append_left _ hp)
      have htold := hafter.told
      rw [onItems_snoc, onItems_snoc] at hstates
      rw [blocksTold_snoc, blocksTold_snoc, hbefore.told, List.append_right_inj] at htold
      have hcase := both_case nick (same_items nick items) item
      generalize (mediaBlockStateClient nick).onItem _ item = r at hcase hstates htold
      generalize (pairStateClient nick).onItem _ item = s at hcase hstates htold
      cases hcase with
      | blocked info _ _ hpair hr hs _ =>
        obtain rfl : info.pair = q₀ := Option.some.inj (hpair.symm.trans hitem)
        have hkeyOf : (mediaBlockStateClient nick).keyOf info = pairKey info.pair := rfl
        have hself : (pairStateClient nick).keyOf info = info.pair := rfl
        -- the other pair has the state of its key after the item, and had it before
        rw [hr.states, hs.states, hkeyOf, hself, if_pos hkey, if_neg hne,
          ← hbefore.states p hp, hkey] at hstates
        -- so the block of the item is told by one client only
        rw [hr.change, hs.change, hkeyOf, hself, if_pos hstates, hfree,
          if_neg (Bool.false_ne_true ∘ Eq.symm)] at htold
        exact List.cons_ne_nil _ _ htold.symm
      | nothing hpair => exact absurd (hpair.symm.trans hitem) (Option.some_ne_none _).symm
      | retracted _ _ _ hpair _ _ _ _ =>
        exact absurd (hpair.symm.trans hitem) (Option.some_ne_none _).symm
    rw [blockedPairs_snoc, hitem, Option.toList_some]
    intro p hp q hq hkey
    rcases List.mem_append.1 hp with hp | hp
    · rcases List.mem_append.1 hq with hq | hq
      · exact hkeys p hp q hq hkey
      · rw [List.mem_singleton.1 hq] at hkey ⊢
        exact hnew p hp hkey
    · rw [List.mem_singleton.1 hp] at hkey ⊢
      rcases List.mem_append.1 hq with hq | hq
      · exact (hnew q hq hkey.symm).symm
      · exact (List.mem_singleton.1 hq).symm

/-- A key is the key of one pair exactly when the pairs do not overlap, and so is the item id
of a block. In a run the pairs are kept apart all the time exactly when no two pairs that are
published overlap. -/
theorem media_block_keys (p q : Str × Str) (nick : Str) (items : List PubSubItem) :
    ((pairKey p = pairKey q → p = q) ↔ ¬Overlap p q ∧ ¬Overlap q p)
      ∧ (((blockMedia p.1 p.2).map PubSubRequest.itemid
            = (blockMedia q.1 q.2).map PubSubRequest.itemid → p = q)
          ↔ ¬Overlap p q ∧ ¬Overlap q p)
      ∧ ((∀ done, done <+: items → KeepsApart nick done) ↔
          ∀ p ∈ blockedPairs items, ∀ q ∈ blockedPairs items, ¬Overlap p q) := by
  refine ⟨pairKey_injective_iff p q, ?_, ⟨fun h => ?_, fun h => ?_⟩⟩
  · rw [blockMedia_itemid_eq_iff]
    exact pairKey_injective_iff p q
  · intro p hp q hq
    exact ((pairKey_injective_iff p q).1 (keys_of_keepsApart nick h p hp q hq)).1
  · have hkeys : ∀ p ∈ blockedPairs items, ∀ q ∈ blockedPairs items,
        pairKey p = pairKey q → p = q := fun p hp q hq =>
      (pairKey_injective_iff p q).2 ⟨h p hp q hq, h q hq p hp⟩
    intro done hdone
    obtain ⟨hstates, htold⟩ := agree_of_keys nick hkeys hdone
    exact ⟨htold, fun p hp => hstates p ((hdone.filterMap blockedPair).subset hp)⟩

/-- Two blockers with a colon in a nick block two others. -/
def overlappingBlocks : List PubSubItem :=
  [stateItem (str "1") (str "r@c/a:b") QN_GOOGLE_MUC_MEDIA_BLOCK (str "c"),
    stateItem (str "2") (str "r@c/a") QN_GOOGLE_MUC_MEDIA_BLOCK (str "b:c")]

/-- The two pairs have one key, and the second block is not told. -/
theorem media_block_keys_merged :
    (¬∀ p q, pairKey p = pairKey q → p = q) ∧ ¬∀ nick items, KeepsApart nick items := by
  constructor
  · intro h
    have hpairs := h (str "a:b", str "c") (str "a", str "b:c") (by decide)
    exact absurd hpairs (by decide)
  · intro h
    have htold := (h [] overlappingBlocks).told
    exact absurd htold (by decide)

end Gxmpp
