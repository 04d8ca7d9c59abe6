/-
Which strings `Jid::Jid(jid_string)` accepts, and which of them it takes for the same JID.

A string is to be accepted when it is `[node '@'] domain ['/' resource]` with parts whose
characters are all marked valid. That is what the constructor does for the node and the
domain. The flag of a character of the resource is never read, so the two laws of this
module hold outside of the strings with a control character in the resource, and
`acceptance` says exactly where.
-/
import Gxmpp.JidNormal
import Mathlib.Data.List.Forall2

set_option autoImplicit false

namespace Gxmpp

namespace Jid

/-! ## 1. What is to be accepted -/

/-- The parts of a JID, before they are prepared. Preparing keeps the length of a part. -/
structure Acceptable (node domain resource : Str) : Prop where
  node : ¬ NodeFails node
  domain : ¬ DomainFails domain
  resource : ¬ ResourceFails resource

/-- The string is accepted exactly when it splits into acceptable parts. -/
def AcceptedRightly (s : Str) : Prop :=
  (ofString s).isValid = true ↔ ∃ (node : Option Str) (domain : Str) (resource : Option Str),
    s = spell node domain resource ∧ Acceptable (node.getD []) domain (resource.getD [])

/-- The parts are equal, up to the case of the node and the domain. -/
def SameParts (p q : Str × Str × Str) : Prop :=
  p.1.map tolower = q.1.map tolower ∧ p.2.1.map tolower = q.2.1.map tolower ∧ p.2.2 = q.2.2

/-- If the strings give equal valid JIDs, they have the same parts. -/
def ToldApart (s t : Str) : Prop :=
  ofString s = ofString t → (ofString s).isValid = true →
    SameParts (Args.slices (.text s)) (Args.slices (.text t))

/-- A resource that is not too long has an illegal character, and nothing else is wrong. -/
def LetThrough (s : Str) : Prop :=
  ¬ NodeFails (Args.slices (.text s)).1 ∧ ¬ DomainFails (Args.slices (.text s)).2.1
    ∧ (Args.slices (.text s)).2.2.length ≤ 1023 ∧ ResourceIllegal (Args.slices (.text s)).2.2

/-- The same byte, or two illegal ones. -/
def SameOrIllegal (a b : UInt8) : Prop :=
  a = b ∨ illegalResource a = true ∧ illegalResource b = true

/-- The strings differ in illegal characters of the resource, and nothing else is wrong. -/
def Collapsed (s t : Str) : Prop :=
  let p := Args.slices (.text s)
  let q := Args.slices (.text t)
  ¬ NodeFails p.1 ∧ ¬ DomainFails p.2.1 ∧ p.2.2.length ≤ 1023
    ∧ p.1.map tolower = q.1.map tolower ∧ p.2.1.map tolower = q.2.1.map tolower
    ∧ p.2.2 ≠ q.2.2 ∧ List.Forall₂ SameOrIllegal p.2.2 q.2.2

/-! ## 2. Splitting -/

/-- What is left after dropping up to a separator begins with it. -/
theorem dropWhile_head {sep ch : UInt8} {s r : Str}
    (h : s.dropWhile (fun c => c ≠ sep) = ch :: r) : ch = sep := by
  induction s with
  | nil => cases h
  | cons c rest ih =>
    by_cases hsep : c = sep
    · rw [List.dropWhile_cons_of_neg (by simp [hsep])] at h
      exact (List.cons.inj h).1.symm.trans hsep
    · rw [List.dropWhile_cons_of_pos (by simp [hsep])] at h
      exact ih h

/-- The slash and what follows it. -/
theorem exists_tail (s : Str) : ∃ resource : Option Str,
    s = s.takeWhile (fun ch => ch ≠ 0x2F)
      ++ (match resource with
      | none => []
      | some r => 0x2F :: r) ∧ resource.getD [] = (s.dropWhile fun ch => ch ≠ 0x2F).drop 1 := by
  have hwhole := (List.takeWhile_append_dropWhile (p := fun ch => ch ≠ 0x2F) (l := s)).symm
  generalize hdrop : s.dropWhile (fun ch => ch ≠ 0x2F) = dropped at hwhole ⊢
  cases dropped with
  | nil => exact ⟨none, hwhole, rfl⟩
  | cons ch r =>
    rw [dropWhile_head hdrop] at hwhole
    exact ⟨some r, hwhole, rfl⟩

/-- A string is the spelling of the parts it is cut into. -/
theorem exists_spell (s : Str) : ∃ node resource : Option Str,
    s = spell node (Args.slices (.text s)).2.1 resource
      ∧ node.getD [] = (Args.slices (.text s)).1
      ∧ resource.getD [] = (Args.slices (.text s)).2.2 := by
  obtain ⟨resource, hs, hresource⟩ := exists_tail s
  have hslices := slices_of_cut (s := s) rfl hresource.symm
  generalize hfront : s.takeWhile (fun ch => ch ≠ 0x2F) = front at hs hslices
  by_cases hany : (front.any fun ch => ch = 0x40) = true
  · rw [if_pos hany] at hslices
    have hwhole := (List.takeWhile_append_dropWhile (p := fun ch => ch ≠ 0x40) (l := front)).symm
    obtain ⟨ch, hch, hat⟩ := List.any_eq_true.1 hany
    have hne : front.dropWhile (fun ch => ch ≠ 0x40) ≠ [] := by
      intro hnil
      have hall := (List.dropWhile_eq_nil_iff.1 hnil) ch hch
      exact absurd (of_decide_eq_true hat) (of_decide_eq_true hall)
    obtain ⟨c, domain, hdrop⟩ := List.exists_cons_of_ne_nil hne
    refine ⟨some (front.takeWhile fun ch => ch ≠ 0x40), resource, ?_, ?_, ?_⟩
    · rw [hslices]
      dsimp only
      rw [hdrop, List.drop_one, List.tail_cons]
      unfold spell
      rw [List.append_assoc (front.takeWhile _), List.singleton_append]
      rw [hdrop, dropWhile_head hdrop] at hwhole
      rw [← hwhole]
      exact hs
    · rw [hslices]
      rfl
    · rw [hslices]
  · rw [if_neg hany] at hslices
    refine ⟨none, resource, ?_, ?_, ?_⟩
    · rw [hslices]
      exact hs
    · rw [hslices]
      rfl
    · rw [hslices]

/-- On a short domain, the labels accepted are the good ones. -/
theorem goodLabels_iff {domain : Str} (hlen : domain.length ≤ 1023) :
    goodLabels domain = true ↔ ¬ DomainFails domain := by
  unfold DomainFails
  rw [not_or, not_exists]
  constructor
  · intro hgood
    refine ⟨by omega, fun label hlabel => ?_⟩
    -- a bad label that is accepted is longer than the domain
    have haccepted : goodLabel label = true := List.all_eq_true.1 hgood label hlabel.1
    have hhuge := length_of_accepted haccepted hlabel.2
    have hle := length_labels hlabel.1
    omega
  · rintro ⟨-, hlabels⟩
    unfold goodLabels
    rw [List.all_eq_true]
    intro label hlabel
    by_cases hgood : goodLabel label = true
    · exact hgood
    · exact absurd ⟨hlabel, labelFails_of_refused (Bool.eq_false_iff.2 hgood)⟩ (hlabels label)

theorem DomainFails.not_short {domain : Str} (h : ¬ DomainFails domain) : domain.length ≤ 1023 := by
  unfold DomainFails at h
  rw [not_or] at h
  omega

/-- Neither separator is legal in a node or in a domain. -/
theorem separators_of_acceptable {node domain : Str} (hnode : ¬ NodeFails node)
    (hdomain : ¬ DomainFails domain) :
    (∀ ch ∈ node, ch ≠ 0x2F ∧ ch ≠ 0x40) ∧ ∀ ch ∈ domain, ch ≠ 0x2F ∧ ch ≠ 0x40 := by
  constructor
  · intro ch hch
    constructor
    · rintro rfl
      exact hnode (Or.inr ⟨_, hch, by decide⟩)
    · rintro rfl
      exact hnode (Or.inr ⟨_, hch, by decide⟩)
  · have hgood := (goodLabels_iff (DomainFails.not_short hdomain)).2 hdomain
    intro ch hch
    constructor
    · rintro rfl
      exact absurd (goodLabels_legal hgood hch (by decide)) (by decide)
    · rintro rfl
      exact absurd (goodLabels_legal hgood hch (by decide)) (by decide)

/-- Only the parts the constructor cuts can be acceptable. -/
theorem acceptable_split_iff (s : Str) :
    (∃ (node : Option Str) (domain : Str) (resource : Option Str), s = spell node domain resource
      ∧ Acceptable (node.getD []) domain (resource.getD [])) ↔
    Acceptable (Args.slices (.text s)).1 (Args.slices (.text s)).2.1
      (Args.slices (.text s)).2.2 := by
  constructor
  · rintro ⟨node, domain, resource, rfl, h⟩
    obtain ⟨hnode, hdomain⟩ := separators_of_acceptable h.node h.domain
    rw [slices_spell resource hnode hdomain]
    exact h
  · intro h
    obtain ⟨node, resource, hs, hnode, hresource⟩ := exists_spell s
    refine ⟨node, _, resource, hs, ?_⟩
    rw [hnode, hresource]
    exact h

/-! ## 3. What the constructor does -/

theorem isValid_iff (s : Str) : (ofString s).isValid = true ↔
    ¬ NodeFails (Args.slices (.text s)).1 ∧ ¬ DomainFails (Args.slices (.text s)).2.1
      ∧ (Args.slices (.text s)).2.2.length ≤ 1023 := by
  have hmake : ofString s = _ := make_eq (.text s)
  rw [hmake, validateOrReset_eq]
  generalize Args.slices (.text s) = p
  by_cases hgood : goodParts p.1 p.2.1 p.2.2 = true
  · rw [if_pos hgood]
    obtain ⟨hnode, hdomain, hlen⟩ := (goodParts_iff _ _ _).1 hgood
    by_cases hshort : p.2.1.length ≤ 1023
    · rw [if_pos hshort]
      refine iff_of_true ?_ ⟨(goodNode_iff _).1 hnode, (goodLabels_iff hshort).1 hdomain, hlen⟩
      have hne := goodLabels_ne_nil hdomain
      simp [isValid, hne]
    · rw [if_neg hshort]
      refine iff_of_false (by simp [isValid]) ?_
      rintro ⟨-, h, -⟩
      exact hshort (DomainFails.not_short h)
  · rw [if_neg hgood]
    refine iff_of_false (by decide) ?_
    rintro ⟨hnode, hdomain, hlen⟩
    exact hgood ((goodParts_iff _ _ _).2 ⟨(goodNode_iff _).2 hnode,
      (goodLabels_iff (DomainFails.not_short hdomain)).2 hdomain, hlen⟩)

/-- The parts of a valid JID: the node and the domain lowered, and the resource without
its illegal characters. -/
theorem ofString_valid {s : Str} (hvalid : (ofString s).isValid = true) :
    ofString s = ⟨(Args.slices (.text s)).1.map tolower, (Args.slices (.text s)).2.1.map tolower,
      (Args.slices (.text s)).2.2.map cleanResource⟩ := by
  obtain ⟨hnode, hdomain, hlen⟩ := (isValid_iff s).1 hvalid
  have hshort := DomainFails.not_short hdomain
  have hgood := (goodParts_iff (Args.slices (.text s)).1 _ _).2
    ⟨(goodNode_iff _).2 hnode, (goodLabels_iff hshort).2 hdomain, hlen⟩
  have hmake : ofString s = _ := make_eq (.text s)
  rw [hmake, validateOrReset_eq, if_pos hgood, if_pos hshort]

/-- `tolower` changes the case of letters only, so it does not matter to a part. -/
theorem fails_map (node domain : Str) :
    (NodeFails (node.map tolower) ↔ NodeFails node)
      ∧ (domain.length ≤ 1023 → (DomainFails (domain.map tolower) ↔ DomainFails domain)) := by
  refine ⟨?_, fun hlen => ?_⟩
  · rw [← not_iff_not, ← goodNode_iff, ← goodNode_iff, goodNode_map]
  · have hlen' : (domain.map tolower).length ≤ 1023 := by rwa [List.length_map]
    rw [← not_iff_not, ← goodLabels_iff hlen, ← goodLabels_iff hlen', goodLabels_map]

/-- Two bytes are cleaned to the same one if they are the same or both illegal: what
stands for an illegal byte is illegal itself. -/
theorem cleanResource_eq_iff (a b : UInt8) :
    cleanResource a = cleanResource b ↔ SameOrIllegal a b := by
  unfold SameOrIllegal cleanResource
  have hzero : illegalResource 0 = true := by decide
  by_cases ha : illegalResource a = true
  · by_cases hb : illegalResource b = true
    · simp [ha, hb]
    · have hne : a ≠ b := fun heq => hb (heq ▸ ha)
      have hb0 : (0 : UInt8) ≠ b := fun heq => hb (heq ▸ hzero)
      simp [ha, hb, hne, hb0]
  · by_cases hb : illegalResource b = true
    · have hne : a ≠ b := fun heq => ha (heq ▸ hb)
      have ha0 : a ≠ 0 := fun heq => ha (heq ▸ hzero)
      simp [ha, hb, hne, ha0]
    · simp [ha, hb]

theorem map_cleanResource_eq_iff (r r' : Str) :
    r.map cleanResource = r'.map cleanResource ↔ List.Forall₂ SameOrIllegal r r' := by
  induction r generalizing r' with
  | nil => cases r' <;> simp
  | cons a r ih => cases r' <;> simp [cleanResource_eq_iff, ih]

/-! ## 4. Acceptance and injectivity -/

/-- A string is accepted rightly unless an illegal character of its resource is all that is
wrong with it. -/
theorem acceptedRightly_iff (s : Str) : AcceptedRightly s ↔ ¬ LetThrough s := by
  unfold AcceptedRightly LetThrough
  rw [isValid_iff, acceptable_split_iff]
  generalize Args.slices (.text s) = p
  have hresource : ResourceFails p.2.2 ↔ 1023 < p.2.2.length ∨ ResourceIllegal p.2.2 := Iff.rfl
  constructor
  · rintro h ⟨hnode, hdomain, hlen, hillegal⟩
    exact (h.1 ⟨hnode, hdomain, hlen⟩).resource (Or.inr hillegal)
  · intro h
    constructor
    · rintro ⟨hnode, hdomain, hlen⟩
      refine ⟨hnode, hdomain, ?_⟩
      rintro (hlong | hillegal)
      · omega
      · exact h ⟨hnode, hdomain, hlen, hillegal⟩
    · rintro ⟨hnode, hdomain, hfine⟩
      rw [hresource, not_or] at hfine
      exact ⟨hnode, hdomain, by omega⟩

/-- Two strings are told apart unless they differ in illegal characters of the resource
only. -/
theorem toldApart_iff (s t : Str) : ToldApart s t ↔ ¬ Collapsed s t := by
  unfold ToldApart Collapsed
  dsimp only
  constructor
  · rintro h ⟨hnode, hdomain, hlen, hn, hd, hne, hsame⟩
    have hvalid : (ofString s).isValid = true := (isValid_iff s).2 ⟨hnode, hdomain, hlen⟩
    -- the other string has the same node and domain and a resource of the same length
    have hvalid' : (ofString t).isValid = true := by
      have hlength : (Args.slices (.text t)).2.1.length ≤ 1023 := by
        have hmaps := congrArg List.length hd
        rw [List.length_map, List.length_map] at hmaps
        have hshort := DomainFails.not_short hdomain
        omega
      refine (isValid_iff t).2 ⟨?_, ?_, hsame.length_eq ▸ hlen⟩
      · rw [← (fails_map _ []).1, ← hn, (fails_map _ []).1]
        exact hnode
      · rw [← (fails_map [] _).2 hlength, ← hd, (fails_map [] _).2 (DomainFails.not_short hdomain)]
        exact hdomain
    have heq : ofString s = ofString t := by
      rw [ofString_valid hvalid, ofString_valid hvalid', hn, hd,
        (map_cleanResource_eq_iff _ _).2 hsame]
    exact hne (h heq hvalid).2.2
  · intro h heq hvalid
    obtain ⟨hnode, hdomain, hlen⟩ := (isValid_iff s).1 hvalid
    have hparts := heq
    rw [ofString_valid hvalid, ofString_valid (heq ▸ hvalid)] at hparts
    injection hparts with hn hd hr
    refine ⟨hn, hd, ?_⟩
    by_cases hsame : (Args.slices (.text s)).2.2 = (Args.slices (.text t)).2.2
    · exact hsame
    · exact absurd ⟨hnode, hdomain, hlen, hn, hd, hsame, (map_cleanResource_eq_iff _ _).1 hr⟩ h

/-- The strings accepted are the right ones, and equal JIDs have equal parts, exactly where
no illegal character of a resource is involved. -/
theorem acceptance (s t : Str) : (AcceptedRightly s ↔ ¬ LetThrough s)
    ∧ (ToldApart s t ↔ ¬ Collapsed s t) :=
  ⟨acceptedRightly_iff s, toldApart_iff s t⟩

/-- The resource "\x01" is accepted, and taken for "\x02". -/
theorem control_characters_accepted :
    ¬ ((∀ s, AcceptedRightly s) ∧ ∀ s t, ToldApart s t) := by
  rintro ⟨haccepted, hapart⟩
  have hsame := hapart (str "bob@example.com/" ++ [0x01]) (str "bob@example.com/" ++ [0x02])
    (by decide) (by decide)
  exact absurd hsame.2.2 (by decide)

end Jid

end Gxmpp
