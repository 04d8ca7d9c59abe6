/-
What the preparation of a JID amounts to, and the two laws of its constructors.

Each `Prep…` function walks over its part and may leave at several points. All
three come to the same thing: a test of the part as it was given, and one total
map over its bytes. `prepNode_eq`, `prepResource_eq` and `prepDomain_eq` say so,
and nothing after them opens a `Prep…` function again. That a prepared part is
prepared to itself is then a fact about single bytes.

The domain is cut into labels at its dots by `List.splitOnP`.
-/
import Gxmpp.Jid
import Mathlib.Data.Bool.Basic
import Mathlib.Data.List.TakeWhile

set_option autoImplicit false

namespace Gxmpp

namespace Jid

/-! ## 1. Bytes -/

/-- A byte `PrepNode` refuses. -/
def illegalNode (ch : UInt8) : Bool := !isUpper ch && badNodeAscii ch

/-- A byte `PrepDomainLabel` refuses. -/
def illegalLabel (ch : UInt8) : Bool := !isUpper ch && badDomainLabelAscii ch

/-- A byte `PrepResourceAscii` marks invalid. -/
def illegalResource (ch : UInt8) : Bool := ch ≤ 0x17 || ch = 0x7F

/-- What `PrepResource` makes of a byte. -/
def cleanResource (ch : UInt8) : UInt8 := if illegalResource ch then 0 else ch

/-- The separator of labels. -/
def isDot (ch : UInt8) : Bool := ch = 0x2E

theorem tolower_tolower (ch : UInt8) : tolower (tolower ch) = tolower ch := by
  unfold tolower isUpper
  grind

theorem illegalNode_tolower (ch : UInt8) : illegalNode (tolower ch) = illegalNode ch :=
  beq_iff_eq.1
    (byte_forall (fun c => illegalNode (tolower c) == illegalNode c) (by decide +kernel) ch)

theorem illegalLabel_tolower (ch : UInt8) : illegalLabel (tolower ch) = illegalLabel ch := by
  unfold illegalLabel badDomainLabelAscii tolower isUpper
  grind

theorem isDot_tolower (ch : UInt8) : isDot (tolower ch) = isDot ch := by
  unfold isDot tolower isUpper
  grind

theorem tolower_eq_hyphen (ch : UInt8) : tolower ch = 0x2D ↔ ch = 0x2D := by
  unfold tolower isUpper
  grind

theorem cleanResource_cleanResource (ch : UInt8) :
    cleanResource (cleanResource ch) = cleanResource ch := by
  unfold cleanResource illegalResource
  grind

/-! ## 2. The node and the resource -/

theorem prepNodeChars_eq (s : Str) :
    prepNodeChars s = if s.any illegalNode then none else some (s.map tolower) := by
  induction s with
  | nil => rfl
  | cons ch rest ih =>
    rw [prepNodeChars, ih, List.any_cons, List.map_cons]
    by_cases hascii : ch ≤ 0x7F
    · rw [if_pos hascii]
      have hprep : prepNodeAscii ch = if illegalNode ch then none else some (tolower ch) := by
        unfold prepNodeAscii illegalNode tolower
        grind
      rw [hprep]
      by_cases hbad : illegalNode ch = true
      · simp [hbad]
      · by_cases hrest : rest.any illegalNode = true <;> simp [hbad, hrest]
    · -- a byte above 0x7F is lowered as the locale says and never refused
      have hgood : illegalNode ch = false := by
        have hfact := byte_forall (fun c => c ≤ 0x7F || !illegalNode c) (by decide +kernel) ch
        simpa [hascii] using hfact
      rw [if_neg hascii, hgood]
      by_cases hrest : rest.any illegalNode = true <;> simp [hrest]

/-- The nodes `PrepNode` accepts. -/
def goodNode (node : Str) : Bool := !node.any illegalNode && node.length ≤ 1023

theorem prepNode_eq (node : Str) :
    prepNode node = if goodNode node then some (node.map tolower) else none := by
  unfold prepNode goodNode
  rw [prepNodeChars_eq]
  by_cases hbad : node.any illegalNode = true
  · simp [hbad]
  · by_cases hlen : node.length ≤ 1023
    · have hlen' : ¬ 1023 < node.length := by omega
      simp [hbad, hlen, hlen']
    · have hlen' : 1023 < node.length := by omega
      simp [hbad, hlen, hlen']

theorem goodNode_map (node : Str) : goodNode (node.map tolower) = goodNode node := by
  unfold goodNode
  rw [List.any_map, List.length_map]
  have hcomp : illegalNode ∘ tolower = illegalNode := funext illegalNode_tolower
  rw [hcomp]

/-- `PrepResource` refuses a long resource and nothing else: the flag of a byte is
set and not read. -/
theorem prepResource_eq (resource : Str) :
    prepResource resource
      = if resource.length ≤ 1023 then some (resource.map cleanResource) else none := by
  have hmap : (resource.map fun ch => if ch ≤ 0x7F then prepResourceAscii ch else ch)
      = resource.map cleanResource := by
    apply List.map_congr_left
    intro ch _
    unfold prepResourceAscii cleanResource illegalResource
    grind
  unfold prepResource
  rw [hmap]
  by_cases hlen : resource.length ≤ 1023
  · have hlen' : ¬ 1023 < resource.length := by omega
    simp [hlen, hlen']
  · have hlen' : 1023 < resource.length := by omega
    simp [hlen, hlen']

/-! ## 3. The domain -/

/-- The labels of a domain. -/
def labels (domain : Str) : List Str := domain.splitOnP isDot

/-- The labels `PrepDomainLabel` accepts. -/
def goodLabel (label : Str) : Bool :=
  !label.any illegalLabel && toInt label.length ≠ 0 && toInt label.length ≤ 63
    && label.head? ≠ some 0x2D && label.getLast? ≠ some 0x2D

theorem prepDomainLabelChars_eq (s : Str) :
    prepDomainLabelChars s = if s.any illegalLabel then none else some (s.map tolower) := by
  induction s with
  | nil => rfl
  | cons ch rest ih =>
    rw [prepDomainLabelChars, ih, List.any_cons, List.map_cons]
    by_cases hascii : ch ≤ 0x7F
    · rw [if_pos hascii]
      have hprep : prepDomainLabelAscii ch
          = if illegalLabel ch then none else some (tolower ch) := by
        unfold prepDomainLabelAscii illegalLabel tolower
        grind
      rw [hprep]
      by_cases hbad : illegalLabel ch = true
      · simp [hbad]
      · by_cases hrest : rest.any illegalLabel = true <;> simp [hbad, hrest]
    · -- a byte above 0x7F is copied, and `tolower` leaves it alone too
      have hgood : illegalLabel ch = false := by
        unfold illegalLabel badDomainLabelAscii
        grind
      have hlow : tolower ch = ch := by
        unfold tolower isUpper
        grind
      rw [if_neg hascii, hgood, hlow]
      by_cases hrest : rest.any illegalLabel = true <;> simp [hrest]

theorem head_map_hyphen (label : Str) :
    (label.map tolower).head? = some 0x2D ↔ label.head? = some 0x2D := by
  rw [List.head?_map]
  constructor
  · intro h
    obtain ⟨ch, hch, hlow⟩ := Option.map_eq_some_iff.1 h
    rw [hch, (tolower_eq_hyphen ch).1 hlow]
  · intro h
    rw [h, Option.map_some, (tolower_eq_hyphen 0x2D).2 rfl]

theorem getLast_map_hyphen (label : Str) :
    (label.map tolower).getLast? = some 0x2D ↔ label.getLast? = some 0x2D := by
  rw [List.getLast?_map]
  constructor
  · intro h
    obtain ⟨ch, hch, hlow⟩ := Option.map_eq_some_iff.1 h
    rw [hch, (tolower_eq_hyphen ch).1 hlow]
  · intro h
    rw [h, Option.map_some, (tolower_eq_hyphen 0x2D).2 rfl]

theorem prepDomainLabel_eq (label : Str) :
    prepDomainLabel label = if goodLabel label then some (label.map tolower) else none := by
  unfold prepDomainLabel goodLabel
  rw [prepDomainLabelChars_eq]
  by_cases hbad : label.any illegalLabel = true
  · simp [hbad]
  · rw [if_neg hbad, Option.bind_some]
    simp only [List.length_map, head_map_hyphen, getLast_map_hyphen]
    by_cases hempty : toInt label.length = 0
    · simp [hempty]
    · by_cases hlen : toInt label.length ≤ 63
      · have hlen' : ¬ 63 < toInt label.length := by omega
        by_cases hhead : label.head? = some 0x2D
        · simp [hempty, hlen', hhead]
        · by_cases hlast : label.getLast? = some 0x2D
          · simp [hempty, hlen', hhead, hlast]
          · simp [hbad, hempty, hlen, hlen', hhead, hlast]
      · have hlen' : 63 < toInt label.length := by omega
        simp [hempty, hlen, hlen']

theorem goodLabel_map (label : Str) : goodLabel (label.map tolower) = goodLabel label := by
  unfold goodLabel
  have hcomp : illegalLabel ∘ tolower = illegalLabel := funext illegalLabel_tolower
  simp only [ne_eq, List.any_map, List.length_map, hcomp, head_map_hyphen, getLast_map_hyphen]

/-- The loop over the domain: `last` belongs to the first label that is left. -/
theorem prepDomainLoop_eq (last buf s : Str) :
    prepDomainLoop last buf s
      = if ((labels s).modifyHead (last ++ ·)).all goodLabel
        then some (buf ++ (last ++ s).map tolower) else none := by
  unfold labels
  induction s generalizing last buf with
  | nil =>
    rw [prepDomainLoop, prepDomainLabel_eq]
    by_cases hgood : goodLabel last = true <;> simp [hgood]
  | cons ch rest ih =>
    rw [prepDomainLoop, List.splitOnP_cons_eq_if_modifyHead]
    by_cases hdot : ch = 0x2E
    · rw [if_pos hdot, prepDomainLabel_eq]
      have hdot' : isDot ch = true := by
        unfold isDot
        exact decide_eq_true hdot
      rw [if_pos hdot']
      have hlow : tolower ch = 0x2E := by
        rw [hdot]
        rfl
      by_cases hgood : goodLabel last = true
      · have hih := ih [] (buf ++ last.map tolower ++ [0x2E])
        have hid : (List.modifyHead (fun x => ([] : Str) ++ x) (rest.splitOnP isDot))
            = rest.splitOnP isDot := by
          cases rest.splitOnP isDot <;> rfl
        rw [hid] at hih
        simp only [hgood, if_true, List.modifyHead_cons, List.append_nil, List.all_cons,
          Bool.true_and]
        rw [hih]
        simp [hlow]
      · simp [hgood]
    · have hdot' : ¬ isDot ch = true := by
        unfold isDot
        simpa using hdot
      rw [if_neg hdot, if_neg hdot', ih]
      have hhead : ((rest.splitOnP isDot).modifyHead (List.cons ch)).modifyHead (last ++ ·)
          = (rest.splitOnP isDot).modifyHead (last ++ [ch] ++ ·) := by
        cases rest.splitOnP isDot <;> simp
      rw [hhead, List.append_assoc, List.singleton_append]

/-- The domains whose labels are all accepted. -/
def goodLabels (domain : Str) : Bool := (labels domain).all goodLabel

/-- `PrepDomain` refuses a domain for its labels and empties it for its length. -/
theorem prepDomain_eq (domain : Str) :
    prepDomain domain = if goodLabels domain
      then some (if domain.length ≤ 1023 then domain.map tolower else []) else none := by
  unfold prepDomain goodLabels
  rw [prepDomainLoop_eq]
  have hid : (labels domain).modifyHead (([] : Str) ++ ·) = labels domain := by
    cases labels domain <;> rfl
  rw [hid]
  by_cases hgood : (labels domain).all goodLabel = true
  · rw [if_pos hgood, if_pos hgood]
    by_cases hlen : domain.length ≤ 1023
    · have hlen' : ¬ 1023 < domain.length := by omega
      simp [hlen, hlen']
    · have hlen' : 1023 < domain.length := by omega
      simp [hlen, hlen', STR_EMPTY]
  · rw [if_neg hgood, if_neg hgood, Option.map_none]

theorem labels_map (domain : Str) :
    labels (domain.map tolower) = (labels domain).map (·.map tolower) := by
  unfold labels
  induction domain with
  | nil => rfl
  | cons ch rest ih =>
    rw [List.map_cons, List.splitOnP_cons_eq_if_modifyHead, List.splitOnP_cons_eq_if_modifyHead,
      isDot_tolower, ih]
    by_cases hdot : isDot ch = true
    · rw [if_pos hdot, if_pos hdot]
      rfl
    · rw [if_neg hdot, if_neg hdot]
      cases rest.splitOnP isDot <;> rfl

theorem goodLabels_map (domain : Str) : goodLabels (domain.map tolower) = goodLabels domain := by
  unfold goodLabels
  rw [labels_map, List.all_map]
  have hcomp : goodLabel ∘ (fun l : Str => l.map tolower) = goodLabel := funext goodLabel_map
  rw [hcomp]

variable {domain label front : Str} {sep : UInt8}

/-- A byte of a domain is a dot or a byte of one of its labels. -/
theorem mem_labels {ch : UInt8} (h : ch ∈ domain) (hdot : isDot ch = false) :
    ∃ label ∈ labels domain, ch ∈ label := by
  unfold labels
  induction domain with
  | nil => exact absurd h List.not_mem_nil
  | cons c rest ih =>
    rw [List.splitOnP_cons_eq_if_modifyHead]
    obtain ⟨first, others, hsplit⟩ :=
      List.exists_cons_of_ne_nil (List.splitOnP_ne_nil isDot rest)
    rw [hsplit] at ih ⊢
    rcases List.mem_cons.1 h with hc | hrest
    · subst hc
      rw [if_neg (by simp [hdot]), List.modifyHead_cons]
      exact ⟨_, List.mem_cons_self, List.mem_cons_self⟩
    · obtain ⟨label, hlabel, hmem⟩ := ih hrest
      by_cases hcdot : isDot c = true
      · rw [if_pos hcdot]
        exact ⟨label, List.mem_cons_of_mem _ hlabel, hmem⟩
      · rw [if_neg hcdot, List.modifyHead_cons]
        rcases List.mem_cons.1 hlabel with hfirst | hother
        · refine ⟨c :: first, List.mem_cons_self, ?_⟩
          rw [← hfirst]
          exact List.mem_cons_of_mem _ hmem
        · exact ⟨label, List.mem_cons_of_mem _ hother, hmem⟩

/-- A label is no longer than its domain. -/
theorem length_labels (h : label ∈ labels domain) : label.length ≤ domain.length := by
  unfold labels at h
  induction domain generalizing label with
  | nil =>
    rw [List.splitOnP_nil, List.mem_singleton] at h
    rw [h, List.length_nil]
  | cons c rest ih =>
    rw [List.splitOnP_cons_eq_if_modifyHead] at h
    rw [List.length_cons]
    by_cases hdot : isDot c = true
    · rw [if_pos hdot] at h
      rcases List.mem_cons.1 h with hnil | hrest
      · rw [hnil]
        exact Nat.zero_le _
      · have hle := ih hrest
        omega
    · rw [if_neg hdot] at h
      obtain ⟨first, others, hsplit⟩ :=
        List.exists_cons_of_ne_nil (List.splitOnP_ne_nil isDot rest)
      rw [hsplit] at ih h
      rw [List.modifyHead_cons] at h
      rcases List.mem_cons.1 h with hfirst | hother
      · have hle := ih List.mem_cons_self
        rw [hfirst, List.length_cons]
        omega
      · have hle := ih (List.mem_cons_of_mem _ hother)
        omega

theorem goodLabels_ne_nil (h : goodLabels domain = true) : domain ≠ [] := by
  rintro rfl
  revert h
  decide

/-- No byte of a domain with accepted labels is refused in a label, dots apart. -/
theorem goodLabels_legal {ch : UInt8} (h : goodLabels domain = true) (hmem : ch ∈ domain)
    (hdot : isDot ch = false) : illegalLabel ch = false := by
  obtain ⟨label, hlabel, hch⟩ := mem_labels hmem hdot
  have hgood : goodLabel label = true := List.all_eq_true.1 h label hlabel
  apply Bool.eq_false_iff.2
  intro hbad
  have hany : label.any illegalLabel = true := List.any_eq_true.2 ⟨ch, hch, hbad⟩
  unfold goodLabel at hgood
  rw [hany] at hgood
  exact absurd hgood (by simp)

/-! ## 4. The constructors -/

/-- The parts `ValidateOrReset` keeps. -/
def goodParts (node domain resource : Str) : Bool :=
  goodNode node && goodLabels domain && resource.length ≤ 1023

theorem goodParts_iff (node domain resource : Str) :
    goodParts node domain resource = true ↔
      goodNode node = true ∧ goodLabels domain = true ∧ resource.length ≤ 1023 := by
  unfold goodParts
  rw [Bool.and_eq_true, Bool.and_eq_true, decide_eq_true_eq, and_assoc]

theorem validateOrReset_eq (node domain resource : Str) :
    validateOrReset node domain resource
      = if goodParts node domain resource
        then ⟨node.map tolower, if domain.length ≤ 1023 then domain.map tolower else [],
          resource.map cleanResource⟩
        else empty := by
  unfold validateOrReset goodParts
  rw [prepNode_eq, prepDomain_eq, prepResource_eq]
  by_cases hnode : goodNode node = true
  · by_cases hdomain : goodLabels domain = true
    · by_cases hlen : resource.length ≤ 1023 <;> simp [hnode, hdomain, hlen]
    · simp [hdomain]
  · simp [hnode]

/-- The arguments of a constructor that takes any. -/
inductive Args where
  | text (jid_string : Str)
  | parts (node_name domain_name resource_name : Str)

/-- The JID a constructor makes. -/
def make : Args → Jid
  | .text jid_string => ofString jid_string
  | .parts node_name domain_name resource_name => ofParts node_name domain_name resource_name

/-- Node, domain and resource as the constructor hands them to `ValidateOrReset`. -/
def Args.slices : Args → Str × Str × Str
  | .text s =>
    let front := s.takeWhile fun ch => ch ≠ 0x2F
    let resource := (s.dropWhile fun ch => ch ≠ 0x2F).drop 1
    if front.any fun ch => ch = 0x40 then
      (front.takeWhile fun ch => ch ≠ 0x40, (front.dropWhile fun ch => ch ≠ 0x40).drop 1,
        resource)
    else ([], front, resource)
  | .parts node domain resource => (node, domain, resource)

/-- Both constructors validate their parts. The empty string returns early with what
validation would give: no label of the empty domain is accepted. -/
theorem make_eq (a : Args) : make a = validateOrReset a.slices.1 a.slices.2.1 a.slices.2.2 := by
  rcases a with s | ⟨node, domain, resource⟩
  · by_cases hs : s = []
    · subst hs
      decide
    · have hs' : ¬ s.isEmpty = true := by simpa using hs
      simp only [make, ofString, Args.slices, hs', Bool.false_eq_true, if_false]
      by_cases hat : (s.takeWhile fun ch => ch ≠ 0x2F).any (fun ch => ch = 0x40) = true
      · rw [if_pos hat, if_pos hat]
      · rw [if_neg hat, if_neg hat]
        rfl
  · rfl

/-! ## 5. All or nothing -/

/-- A node to be refused: it is too long or has an illegal character. -/
def NodeFails (node : Str) : Prop := 1023 < node.length ∨ ∃ ch ∈ node, illegalNode ch = true

/-- A bad label: empty, too long, with a hyphen at an end, or with an illegal character. -/
def LabelFails (label : Str) : Prop :=
  label = [] ∨ 63 < label.length ∨ label.head? = some 0x2D ∨ label.getLast? = some 0x2D
    ∨ ∃ ch ∈ label, illegalLabel ch = true

/-- A domain to be refused: it is too long or has a bad label. -/
def DomainFails (domain : Str) : Prop :=
  1023 < domain.length ∨ ∃ label ∈ labels domain, LabelFails label

/-- A resource with a character `PrepResourceAscii` calls invalid. -/
def ResourceIllegal (resource : Str) : Prop := ∃ ch ∈ resource, illegalResource ch = true

/-- A resource to be refused: it is too long or has an illegal character. -/
def ResourceFails (resource : Str) : Prop := 1023 < resource.length ∨ ResourceIllegal resource

/-- A constructor that keeps all of its parts or none: three empty parts, or a domain
and no part over 1023 bytes; and a part that is to be refused empties the whole. -/
structure AllOrNothing (a : Args) : Prop where
  shape : ((make a).node = [] ∧ (make a).domain = [] ∧ (make a).resource = []) ∨
    ((make a).domain ≠ [] ∧ (make a).node.length ≤ 1023 ∧ (make a).domain.length ≤ 1023
      ∧ (make a).resource.length ≤ 1023)
  refuses : NodeFails a.slices.1 ∨ DomainFails a.slices.2.1 ∨ ResourceFails a.slices.2.2 →
    make a = empty

theorem goodNode_iff (node : Str) : goodNode node = true ↔ ¬ NodeFails node := by
  unfold goodNode NodeFails
  simp [and_comm]

theorem toInt_of_lt {n : Nat} (h : n < 2 ^ 31) : toInt n = n := by
  unfold toInt
  rw [Int.bmod_def]
  omega

/-- A label the code refuses is a bad one. -/
theorem labelFails_of_refused (h : goodLabel label = false) : LabelFails label := by
  by_cases hlen : 63 < label.length
  · exact Or.inr (Or.inl hlen)
  · have hcount := toInt_of_lt (n := label.length) (by omega)
    by_cases hempty : label = []
    · exact Or.inl hempty
    · have hpos : 0 < label.length := List.length_pos_iff.2 hempty
      by_cases hhead : label.head? = some 0x2D
      · exact Or.inr (Or.inr (Or.inl hhead))
      · by_cases hlast : label.getLast? = some 0x2D
        · exact Or.inr (Or.inr (Or.inr (Or.inl hlast)))
        · refine Or.inr (Or.inr (Or.inr (Or.inr ?_)))
          unfold goodLabel at h
          rw [hcount] at h
          have hne : ((label.length : Int) ≠ 0) := by omega
          have hle : ((label.length : Int) ≤ 63) := by omega
          simp only [hne, hle, hhead, hlast, ne_eq, not_false_eq_true, decide_true, Bool.and_true,
            Bool.not_eq_false'] at h
          exact List.any_eq_true.1 h

/-- A bad label the code accepts is one whose length does not fit in an `int`. -/
theorem length_of_accepted (h : goodLabel label = true) (hfails : LabelFails label) :
    2 ^ 31 ≤ label.length := by
  by_cases hlen : label.length < 2 ^ 31
  · have hcount := toInt_of_lt hlen
    unfold goodLabel at h
    rw [hcount] at h
    simp only [Bool.and_eq_true, Bool.not_eq_true', List.any_eq_false, decide_eq_true_eq] at h
    obtain ⟨⟨⟨⟨hlegal, hempty⟩, hle⟩, hhead⟩, hlast⟩ := h
    rcases hfails with rfl | hlong | hh | hl | ⟨ch, hch, hbad⟩
    · exact absurd rfl hempty
    · omega
    · exact absurd hh hhead
    · exact absurd hl hlast
    · exact absurd hbad (hlegal ch hch)
  · omega

/-- What empties the whole JID: an illegal or long node, a refused label, a long
resource. -/
def Refused (node domain resource : Str) : Prop :=
  NodeFails node ∨ (∃ label ∈ labels domain, goodLabel label = false) ∨ 1023 < resource.length

theorem goodParts_iff_not_refused (node domain resource : Str) :
    goodParts node domain resource = true ↔ ¬ Refused node domain resource := by
  unfold Refused
  rw [goodParts_iff, goodNode_iff, not_or, not_or, Nat.not_lt]
  have hlabels : goodLabels domain = true ↔ ¬ ∃ label ∈ labels domain, goodLabel label = false := by
    unfold goodLabels
    simp
  rw [hlabels]

/-- The constructors are all or nothing exactly where a part is refused, or the domain
is short and the resource legal, or there is nothing beside the domain to be kept.
Otherwise an illegal character of the resource is let through, or a domain that is
too long is emptied alone. -/
theorem all_or_nothing (a : Args) :
    AllOrNothing a ↔ Refused a.slices.1 a.slices.2.1 a.slices.2.2
      ∨ (a.slices.2.1.length ≤ 1023 ∧ ¬ ResourceIllegal a.slices.2.2)
      ∨ (1023 < a.slices.2.1.length ∧ a.slices.1 = [] ∧ a.slices.2.2 = []) := by
  rcases hslices : a.slices with ⟨node, domain, resource⟩
  have hmake := make_eq a
  rw [hslices, validateOrReset_eq] at hmake
  dsimp only at hmake ⊢
  by_cases hrefused : Refused node domain resource
  · -- everything is emptied
    have hgood : ¬ goodParts node domain resource = true := by
      rw [goodParts_iff_not_refused]
      exact not_not_intro hrefused
    rw [if_neg hgood] at hmake
    refine iff_of_true ⟨?_, fun _ => hmake⟩ (Or.inl hrefused)
    rw [hmake]
    exact Or.inl ⟨rfl, rfl, rfl⟩
  · have hgood : goodParts node domain resource = true :=
      (goodParts_iff_not_refused _ _ _).2 hrefused
    rw [if_pos hgood] at hmake
    obtain ⟨hnode, hdomain, hlen⟩ := (goodParts_iff _ _ _).1 hgood
    have hnodeLen : node.length ≤ 1023 := by
      unfold goodNode at hnode
      exact of_decide_eq_true (Bool.and_eq_true_iff.1 hnode).2
    -- the domain is kept, or emptied alone for its length
    by_cases hshort : domain.length ≤ 1023
    · rw [if_pos hshort] at hmake
      have hne : make a ≠ empty := by
        intro heq
        rw [hmake] at heq
        have hnil : domain.map tolower = [] := congrArg Jid.domain heq
        exact goodLabels_ne_nil hdomain (List.map_eq_nil_iff.1 hnil)
      constructor
      · intro h
        refine Or.inr (Or.inl ⟨hshort, fun hillegal => hne (h.refuses ?_)⟩)
        rw [hslices]
        exact Or.inr (Or.inr (Or.inr hillegal))
      -- no part is refused, so the second case is the one to show
      · rintro (h | ⟨-, hlegal⟩ | ⟨hlong, -, -⟩)
        · exact absurd h hrefused
        · refine ⟨Or.inr ?_, ?_⟩
          · rw [hmake]
            simp only [List.length_map]
            refine ⟨?_, hnodeLen, hshort, hlen⟩
            rw [ne_eq, List.map_eq_nil_iff]
            exact goodLabels_ne_nil hdomain
          · rw [hslices]
            dsimp only
            rintro (h | (h | ⟨label, hlabel, hfails⟩) | (h | h))
            · exact absurd h ((goodNode_iff _).1 hnode)
            · exact absurd h (by omega)
            · -- an accepted bad label would make the domain long
              have haccepted : goodLabel label = true := List.all_eq_true.1 hdomain label hlabel
              have hhuge := length_of_accepted haccepted hfails
              have hle := length_labels hlabel
              omega
            · exact absurd h (by omega)
            · exact absurd h hlegal
        · omega
    · rw [if_neg hshort] at hmake
      have hlong : 1023 < domain.length := by omega
      constructor
      · intro h
        have hempty : make a = empty := by
          apply h.refuses
          rw [hslices]
          exact Or.inr (Or.inl (Or.inl hlong))
        rw [hmake] at hempty
        have hn : node.map tolower = [] := congrArg Jid.node hempty
        have hr : resource.map cleanResource = [] := congrArg Jid.resource hempty
        exact Or.inr (Or.inr ⟨hlong, List.map_eq_nil_iff.1 hn, List.map_eq_nil_iff.1 hr⟩)
      · rintro (h | ⟨h, -⟩ | ⟨-, rfl, rfl⟩)
        · exact absurd h hrefused
        · exact absurd h hshort
        · refine ⟨Or.inl ?_, fun _ => hmake⟩
          rw [hmake]
          exact ⟨rfl, rfl, rfl⟩

/-- A domain of 17 labels of 60 bytes each is longer than 1023 bytes: it is emptied and
the node stays. -/
theorem long_domain_kept :
    ¬ AllOrNothing (.parts (str "bob")
      (List.replicate 17 (List.replicate 60 0x61 ++ [0x2E])).flatten.dropLast []) := by
  intro h
  rcases h.shape with ⟨hnode, -, -⟩ | ⟨hdomain, -, -, -⟩
  · revert hnode
    decide +kernel
  · revert hdomain
    decide +kernel

/-- The resource "a\x01" is kept, with a NUL in place of its control character. -/
example : make (.parts (str "bob") (str "example.com") [0x61, 0x01])
    = ⟨str "bob", str "example.com", [0x61, 0x00]⟩ := by decide

/-! ## 6. Normal forms -/

/-- The parts of the JID are what preparing them gives. -/
structure Prepared (j : Jid) : Prop where
  node : prepNode j.node = some j.node
  domain : prepDomain j.domain = some j.domain
  resource : prepResource j.resource = some j.resource

/-- What is prepared is prepared to itself. -/
theorem Prepared.of_valid {a : Args} (hvalid : (make a).isValid = true) : Prepared (make a) := by
  rw [make_eq, validateOrReset_eq] at hvalid ⊢
  by_cases hgood : goodParts a.slices.1 a.slices.2.1 a.slices.2.2 = true
  · rw [if_pos hgood] at hvalid ⊢
    obtain ⟨hnode, hdomain, hlen⟩ := (goodParts_iff _ _ _).1 hgood
    have hlow : tolower ∘ tolower = tolower := funext tolower_tolower
    have hclean : cleanResource ∘ cleanResource = cleanResource :=
      funext cleanResource_cleanResource
    have hshort : a.slices.2.1.length ≤ 1023 := by
      by_cases hshort : a.slices.2.1.length ≤ 1023
      · exact hshort
      · rw [if_neg hshort] at hvalid
        exact absurd hvalid (by simp [isValid])
    rw [if_pos hshort]
    refine ⟨?_, ?_, ?_⟩
    · rw [prepNode_eq, goodNode_map, hnode, if_pos rfl, List.map_map, hlow]
    · rw [prepDomain_eq, goodLabels_map, hdomain, if_pos rfl, List.length_map, if_pos hshort,
        List.map_map, hlow]
    · rw [prepResource_eq, List.length_map, if_pos hlen, List.map_map, hclean]
  · rw [if_neg hgood] at hvalid
    exact absurd hvalid (by decide)

namespace Prepared

variable {j : Jid} (h : Prepared j)

include h

theorem ofParts_eq : ofParts j.node j.domain j.resource = j := by
  unfold ofParts validateOrReset
  rw [h.node, h.domain, h.resource]

theorem bare : ofParts j.node j.domain STR_EMPTY = ⟨j.node, j.domain, []⟩ := by
  unfold ofParts validateOrReset
  rw [h.node, h.domain]
  rfl

theorem node_legal : ∀ ch ∈ j.node, illegalNode ch = false := by
  have hnode := h.node
  rw [prepNode_eq] at hnode
  by_cases hgood : goodNode j.node = true
  · have hany : (!j.node.any illegalNode) = true := (Bool.and_eq_true_iff.1 hgood).1
    intro ch hch
    have hnone : j.node.any illegalNode = false := by simpa using hany
    exact Bool.eq_false_iff.2 (List.any_eq_false.1 hnone ch hch)
  · rw [if_neg hgood] at hnode
    exact absurd hnode (by simp)

theorem domain_legal : ∀ ch ∈ j.domain, isDot ch = true ∨ illegalLabel ch = false := by
  have hdomain := h.domain
  rw [prepDomain_eq] at hdomain
  by_cases hgood : goodLabels j.domain = true
  · intro ch hch
    by_cases hdot : isDot ch = true
    · exact Or.inl hdot
    · exact Or.inr (goodLabels_legal hgood hch (Bool.eq_false_iff.2 hdot))
  · rw [if_neg hgood] at hdomain
    exact absurd hdomain (by simp)

/-- Neither the node nor the domain holds a separator: both separators are illegal in
a node and in a label, and neither is a dot. -/
theorem node_separators : ∀ ch ∈ j.node, ch ≠ 0x2F ∧ ch ≠ 0x40 := by
  intro ch hch
  have hlegal := h.node_legal ch hch
  constructor
  · rintro rfl
    exact absurd hlegal (by decide)
  · rintro rfl
    exact absurd hlegal (by decide)

theorem domain_separators : ∀ ch ∈ j.domain, ch ≠ 0x2F ∧ ch ≠ 0x40 := by
  intro ch hch
  have hlegal := h.domain_legal ch hch
  constructor
  · rintro rfl
    exact absurd hlegal (by decide)
  · rintro rfl
    exact absurd hlegal (by decide)

end Prepared

/-- Cutting at the first separator. -/
theorem takeWhile_sep {rest : Str} (hfront : ∀ ch ∈ front, ch ≠ sep) :
    (front ++ sep :: rest).takeWhile (fun ch => ch ≠ sep) = front := by
  rw [List.takeWhile_append_of_pos (by simpa using hfront), List.takeWhile_cons_of_neg (by simp),
    List.append_nil]

theorem dropWhile_sep {rest : Str} (hfront : ∀ ch ∈ front, ch ≠ sep) :
    (front ++ sep :: rest).dropWhile (fun ch => ch ≠ sep) = sep :: rest := by
  rw [List.dropWhile_append_of_pos (by simpa using hfront), List.dropWhile_cons_of_neg (by simp)]

theorem takeWhile_all (hfront : ∀ ch ∈ front, ch ≠ sep) :
    front.takeWhile (fun ch => ch ≠ sep) = front := by
  rw [List.takeWhile_eq_self_iff]
  simpa using hfront

theorem dropWhile_all (hfront : ∀ ch ∈ front, ch ≠ sep) :
    front.dropWhile (fun ch => ch ≠ sep) = [] := by
  rw [List.dropWhile_eq_nil_iff]
  simpa using hfront

/-- A string `[node '@'] domain ['/' resource]`. -/
def spell (node : Option Str) (domain : Str) (resource : Option Str) : Str :=
  (match node with
    | none => []
    | some n => n ++ [0x40]) ++ domain ++
  match resource with
    | none => []
    | some r => 0x2F :: r

/-- What stands before the first slash, and what follows it. -/
theorem slices_of_cut {s resource : Str} (hfront : s.takeWhile (fun ch => ch ≠ 0x2F) = front)
    (hresource : (s.dropWhile fun ch => ch ≠ 0x2F).drop 1 = resource) :
    Args.slices (.text s) = if front.any fun ch => ch = 0x40 then
      (front.takeWhile fun ch => ch ≠ 0x40, (front.dropWhile fun ch => ch ≠ 0x40).drop 1, resource)
      else ([], front, resource) := by
  simp only [Args.slices, hfront, hresource]

/-- Cutting a string whose node and domain hold no separator gives back its parts. -/
theorem slices_spell {node : Option Str} (resource : Option Str)
    (hnode : ∀ ch ∈ node.getD [], ch ≠ 0x2F ∧ ch ≠ 0x40)
    (hdomain : ∀ ch ∈ domain, ch ≠ 0x2F ∧ ch ≠ 0x40) :
    Args.slices (.text (spell node domain resource))
      = (node.getD [], domain, resource.getD []) := by
  -- what stands before the slash holds none
  have hcut : ∀ front : Str, (∀ ch ∈ front, ch ≠ 0x2F) → ∀ s, s = front ++ (match resource with
      | none => []
      | some r => 0x2F :: r) →
      s.takeWhile (fun ch => ch ≠ 0x2F) = front
        ∧ (s.dropWhile fun ch => ch ≠ 0x2F).drop 1 = resource.getD [] := by
    rintro front hfront s rfl
    cases resource with
    | none =>
      rw [List.append_nil, takeWhile_all hfront, dropWhile_all hfront]
      exact ⟨rfl, rfl⟩
    | some r =>
      rw [takeWhile_sep hfront, dropWhile_sep hfront]
      exact ⟨rfl, rfl⟩
  cases node with
  | none =>
    obtain ⟨hfront, htail⟩ := hcut domain (fun ch hch => (hdomain ch hch).1)
      (spell none domain resource) rfl
    have hany : ¬ (domain.any fun ch => ch = 0x40) = true := by
      simp only [List.any_eq_true, decide_eq_true_eq, not_exists, not_and]
      exact fun ch hch => (hdomain ch hch).2
    rw [slices_of_cut hfront htail, if_neg hany]
    rfl
  | some n =>
    have hlead : ∀ ch ∈ n ++ 0x40 :: domain, ch ≠ 0x2F := by
      intro ch hch
      rcases List.mem_append.1 hch with hn | hrest
      · exact (hnode ch hn).1
      · rcases List.mem_cons.1 hrest with hat | hd
        · rw [hat]
          decide
        · exact (hdomain ch hd).1
    obtain ⟨hfront, htail⟩ := hcut (n ++ 0x40 :: domain) hlead (spell (some n) domain resource)
      (by simp only [spell, List.append_assoc, List.singleton_append])
    have hsep : ∀ ch ∈ n, ch ≠ 0x40 := fun ch hch => (hnode ch hch).2
    have hany : ((n ++ 0x40 :: domain).any fun ch => ch = 0x40) = true := by simp
    rw [slices_of_cut hfront htail, if_pos hany, takeWhile_sep hsep, dropWhile_sep hsep]
    rfl

/-- Cutting the printed JID gives back the parts it was printed from. -/
theorem Prepared.slices_toStr {j : Jid} (h : Prepared j) (hvalid : j.isValid = true) :
    Args.slices (.text j.toStr) = (j.node, j.domain, j.resource) := by
  have hprint : j.toStr = spell (if j.node.isEmpty then none else some j.node) j.domain
      (if j.resource.isEmpty then none else some j.resource) := by
    unfold toStr spell
    rw [if_neg (by simp [hvalid])]
    by_cases hn : j.node.isEmpty = true <;> by_cases hr : j.resource.isEmpty = true <;>
      simp [hn, hr, str]
  have hself : ∀ part : Str, (if part.isEmpty then none else some part).getD [] = part := by
    intro part
    by_cases hempty : part.isEmpty = true
    · rw [if_pos hempty, List.isEmpty_iff.1 hempty]
      rfl
    · rw [if_neg hempty]
      rfl
  rw [hprint, slices_spell, hself, hself]
  · rw [hself]
    exact h.node_separators
  · exact h.domain_separators

/-- A JID whose identity survives printing, storing by parts, and being made bare. -/
structure Stable (j : Jid) : Prop where
  reparsed_valid : (ofString j.toStr).isValid = true
  reparsed : ofString j.toStr = j
  rebuilt : ofParts j.node j.domain j.resource = j
  bare_valid : j.bareJid.isValid = true
  bare_resource : j.bareJid.resource = []
  bare_node : j.bareJid.node = j.node
  bare_domain : j.bareJid.domain = j.domain
  bare_bare : j.bareJid.bareJid = j.bareJid

/-- The bare JID of a prepared one: its parts without the resource. -/
theorem Prepared.bareJid_eq {j : Jid} (h : Prepared j) (hvalid : j.isValid = true) :
    j.bareJid = ⟨j.node, j.domain, []⟩ := by
  unfold bareJid
  rw [if_neg (by simp [hvalid])]
  by_cases hfull : j.isFull = true
  · rw [if_neg (by simp [hfull]), h.bare]
  · rw [if_pos (by simp [hfull])]
    unfold isFull at hfull
    rw [hvalid, Bool.true_and, Bool.not_eq_true'] at hfull
    have hnil : j.resource = [] := List.isEmpty_iff.1 (by simpa using hfull)
    rw [← hnil]

/-- Every valid JID a constructor makes is stable. -/
theorem normalisation_stable (a : Args) (hvalid : (make a).isValid = true) : Stable (make a) := by
  have h : Prepared (make a) := Prepared.of_valid hvalid
  have hbare := h.bareJid_eq hvalid
  have hreparsed : ofString (make a).toStr = make a := by
    have hmake := make_eq (.text (make a).toStr)
    rw [h.slices_toStr hvalid] at hmake
    exact hmake.trans h.ofParts_eq
  have hbareValid : ((make a).bareJid).isValid = true := by
    rw [hbare]
    exact hvalid
  refine ⟨?_, hreparsed, h.ofParts_eq, hbareValid, ?_, ?_, ?_, ?_⟩
  · rw [hreparsed]
    exact hvalid
  · rw [hbare]
  · rw [hbare]
  · rw [hbare]
  · -- a bare JID is returned as it is
    have hnotFull : ((make a).bareJid).isFull = false := by
      rw [hbare]
      unfold isFull
      simp
    rw [bareJid, if_neg (by simp [hbareValid]), if_pos (by simp [hnotFull])]

/-- "Alice@Example.COM/a/b@c": the separators after the first slash stay in the resource. -/
theorem normalisation_stable_separators :
    (make (.text (str "Alice@Example.COM/a/b@c"))).isValid = true
      ∧ Stable (make (.text (str "Alice@Example.COM/a/b@c"))) :=
  ⟨by decide, normalisation_stable _ (by decide)⟩

end Jid

end Gxmpp
