/-
Cutting a text into fields, with marked sections that are kept whole.

`tokenize` is the non-empty parts between the delimiters (`tokenize_eq`). With marks the text is
sections, each with some text in front of it, and a rest without one (`Sections`). The fields
should be those of the texts, and the sections between them, and then no character gets lost
(`flatten_fields`). But what is tokenized in front of a section is the text without its last
character, so it is one of the delimiters in front of the start mark, or it is lost.
-/
import Gxmpp.StringEncode

set_option autoImplicit false

namespace Gxmpp.TalkBase.StringEncode

/-! ## 1. Between the delimiters -/

/-- The non-empty parts between the delimiters. -/
def fieldsOf (delimiter : UInt8) (s : Str) : List Str :=
  (s.splitOn delimiter).filter (· ≠ [])

variable {delimiter end_mark start_mark : UInt8}

theorem fieldsOf_of_not_mem {s : Str} (h : delimiter ∉ s) :
    fieldsOf delimiter s = if s ≠ [] then [s] else [] := by
  unfold fieldsOf
  rw [List.splitOn_eq_singleton h]
  by_cases hs : s = [] <;> simp [hs]

theorem fieldsOf_append {s : Str} (h : delimiter ∉ s) (t : Str) :
    fieldsOf delimiter (s ++ delimiter :: t)
      = (if s ≠ [] then [s] else []) ++ fieldsOf delimiter t := by
  unfold fieldsOf
  rw [List.splitOn_append_cons_self_of_not_mem h, List.filter_cons]
  by_cases hs : s = [] <;> simp [hs]

/-- The fields have the characters that are no delimiters, each once and in their order. -/
theorem flatten_fieldsOf (delimiter : UInt8) (s : Str) :
    (fieldsOf delimiter s).flatten = s.filter (· ≠ delimiter) := by
  have hflatten : ∀ l : List Str, (l.filter (· ≠ [])).flatten = l.flatten := by
    intro l
    induction l with
    | nil => rfl
    | cons p l ih =>
      by_cases hp : p = []
      · simpa [hp] using ih
      · rw [List.filter_cons_of_pos (by simpa using hp), List.flatten_cons, ih,
          List.flatten_cons]
  unfold fieldsOf
  rw [hflatten]
  induction s with
  | nil => rfl
  | cons ch s ih =>
    rw [List.splitOn_cons_eq_if_modifyHead]
    by_cases hch : ch = delimiter
    · simpa [hch] using ih
    · obtain ⟨p, l, hl⟩ := List.exists_cons_of_ne_nil (List.splitOn_ne_nil delimiter s)
      rw [hl] at ih ⊢
      rw [if_neg (by simpa using hch), List.modifyHead_cons, List.flatten_cons,
        List.filter_cons_of_pos (by simpa using hch), ← ih]
      rfl

/-- The loop from a place on, with the text since the last delimiter free of one. -/
theorem tokenize_loop (source : Str) (delimiter : UInt8) (k : ℕ) {i last : ℕ} (fields : List Str)
    (hk : i + k = source.length) (hlast : last ≤ i)
    (hcur : delimiter ∉ (source.drop last).take (i - last)) :
    (let (last, fields) := (List.range' i k).foldl (tokenizeTurn source delimiter) (last, fields)
      if last ≠ source.length then fields ++ [substr source last (source.length - last)]
      else fields)
      = fields ++ fieldsOf delimiter (source.drop last) := by
  induction k generalizing i last fields with
  | zero =>
    have hall : (source.drop last).take (i - last) = source.drop last := by
      apply List.take_of_length_le
      rw [List.length_drop]
      omega
    rw [hall] at hcur
    rw [fieldsOf_of_not_mem hcur]
    show (if last ≠ source.length then fields ++ [substr source last (source.length - last)]
      else fields) = _
    by_cases hend : last = source.length
    · simp [hend]
    · have hne : source.drop last ≠ [] := by
        rw [Ne, List.drop_eq_nil_iff]
        omega
      rw [if_pos hend, if_pos hne]
      unfold substr
      rw [List.take_of_length_le (Nat.le_of_eq List.length_drop)]
  | succ k ih =>
    have hi : i < source.length := by omega
    have hsplit : source.drop last
        = (source.drop last).take (i - last) ++ source[i] :: source.drop (i + 1) := by
      conv_lhs => rw [← List.take_append_drop (i - last) (source.drop last)]
      rw [List.drop_drop, Nat.add_sub_cancel' hlast, List.drop_eq_getElem_cons hi]
    have hread : source.getD i 0 = source[i] := by
      rw [List.getD_eq_getElem?_getD, List.getElem?_eq_getElem hi, Option.getD_some]
    rw [List.range'_succ, List.foldl_cons]
    by_cases hd : source[i] = delimiter
    · have hturn : tokenizeTurn source delimiter (last, fields) i
          = (i + 1, if i ≠ last then fields ++ [substr source last (i - last)] else fields) :=
        if_pos (hread.trans hd)
      have hmore := ih (i := i + 1) (if i ≠ last then fields
        ++ [substr source last (i - last)] else fields) (by omega) (Nat.le_refl (i + 1)) (by simp)
      rw [hd] at hsplit
      rw [hturn, hmore, hsplit, fieldsOf_append hcur]
      have hlength : ((source.drop last).take (i - last)).length = i - last := by
        rw [List.length_take, List.length_drop]
        omega
      by_cases hempty : i = last
      · simp [hempty]
      · have hne : (source.drop last).take (i - last) ≠ [] := by
          apply List.ne_nil_of_length_pos
          omega
        rw [if_pos hempty, if_pos hne, List.append_assoc]
        rfl
    · have hturn : tokenizeTurn source delimiter (last, fields) i = (last, fields) :=
        if_neg (fun h => hd (hread.symm.trans h))
      rw [hturn]
      apply ih fields (by omega) (Nat.le_succ_of_le hlast)
      have hlonger : (source.drop last).take (i + 1 - last)
          = (source.drop last).take (i - last) ++ [source[i]] := by
        have hat : (source.drop last)[i - last]? = some source[i] := by
          rw [List.getElem?_drop, Nat.add_sub_cancel' hlast, List.getElem?_eq_getElem hi]
        rw [Nat.succ_sub hlast, List.take_add_one, hat]
        rfl
      rw [hlonger]
      simp only [List.mem_append, List.mem_singleton, not_or]
      exact ⟨hcur, fun h => hd h.symm⟩

theorem tokenize_eq (source : Str) (delimiter : UInt8) :
    tokenize source delimiter = fieldsOf delimiter source := by
  unfold tokenize
  rw [List.range_eq_range']
  have hloop := tokenize_loop source delimiter source.length []
    (Nat.zero_add _) (Nat.le_refl 0) (by simp)
  exact hloop

/-! ## 2. Sections -/

/-- A text, and the section behind it. -/
def sectionText (start_mark end_mark : UInt8) (part : Str × Str) : Str :=
  part.1 ++ start_mark :: (part.2 ++ [end_mark])

/-- The source is texts with a completed section behind each, and a rest without one. -/
structure Sections (start_mark end_mark : UInt8) (source : Str) (parts : List (Str × Str))
    (rest : Str) : Prop where
  source_eq : source = parts.flatMap (sectionText start_mark end_mark) ++ rest
  first : ∀ part ∈ parts, start_mark ∉ part.1 ∧ end_mark ∉ part.2
  none_left : ∀ t s, rest = t ++ start_mark :: s → start_mark ∉ t → end_mark ∉ s

/-- The fields that a source should have. -/
def markedFields (delimiter : UInt8) (parts : List (Str × Str)) (rest : Str) : List Str :=
  (parts.flatMap fun part => fieldsOf delimiter part.1 ++ [part.2]) ++ fieldsOf delimiter rest

/-- The fields that it has: a text is cut without its last character. -/
def cutFields (delimiter : UInt8) (parts : List (Str × Str)) (rest : Str) : List Str :=
  (parts.flatMap fun part => fieldsOf delimiter part.1.dropLast ++ [part.2])
    ++ fieldsOf delimiter rest

/-- The characters that are neither delimiters outside of a section nor marks of one. -/
def keptText (delimiter : UInt8) (parts : List (Str × Str)) (rest : Str) : Str :=
  (parts.flatMap fun part => part.1.filter (· ≠ delimiter) ++ part.2)
    ++ rest.filter (· ≠ delimiter)

theorem flatten_markedFields (delimiter : UInt8) (parts : List (Str × Str)) (rest : Str) :
    (markedFields delimiter parts rest).flatten = keptText delimiter parts rest := by
  unfold markedFields keptText
  rw [List.flatten_append, flatten_fieldsOf]
  congr 1
  induction parts with
  | nil => rfl
  | cons part parts ih =>
    rw [List.flatMap_cons, List.flatMap_cons, List.flatten_append, List.flatten_append, ih,
      flatten_fieldsOf]
    simp

theorem find_first {ch : UInt8} {t : Str} (h : ch ∉ t) (pre s : Str) :
    find (pre ++ (t ++ ch :: s)) ch pre.length = some (pre.length + t.length) := by
  have hindex : (t ++ ch :: s).findIdx? (· = ch) = some t.length := by
    have hnone : t.findIdx? (· = ch) = none := by
      rw [List.findIdx?_eq_none_iff]
      intro x hx
      rw [decide_eq_false_iff_not]
      exact fun hxch => h (hxch ▸ hx)
    rw [List.findIdx?_append, hnone, List.findIdx?_cons]
    simp
  unfold find
  rw [List.drop_left, hindex]
  rfl

theorem find_none {ch : UInt8} (pre s : Str) :
    find (pre ++ s) ch pre.length = none ↔ ch ∉ s := by
  unfold find
  rw [List.drop_left, Option.map_eq_none_iff, List.findIdx?_eq_none_iff]
  simp only [decide_eq_false_iff_not]
  exact ⟨fun h hch => h ch hch rfl, fun h x hx hch => h (hch ▸ hx)⟩

/-- One turn cuts off the first text and its section. -/
theorem round_section (delimiter : UInt8) {part : Str × Str} (hstart : start_mark ∉ part.1)
    (hend : end_mark ∉ part.2) (more : Str) (fields : List Str) :
    tokenizeMarksRound delimiter start_mark end_mark
        (sectionText start_mark end_mark part ++ more, fields)
      = .inl (more, fields ++ (fieldsOf delimiter part.1.dropLast ++ [part.2])) := by
  obtain ⟨t, m⟩ := part
  have hshape : sectionText start_mark end_mark (t, m) ++ more
      = t ++ start_mark :: (m ++ end_mark :: more) := by
    simp [sectionText]
  have hshape' : sectionText start_mark end_mark (t, m) ++ more
      = (t ++ [start_mark]) ++ (m ++ end_mark :: more) := by
    simp [sectionText]
  generalize sectionText start_mark end_mark (t, m) ++ more = source at hshape hshape'
  have hlength : (t ++ [start_mark]).length = t.length + 1 := by simp
  have hfirst : find source start_mark 0 = some t.length := by
    have hfind := find_first hstart [] (m ++ end_mark :: more)
    rwa [List.nil_append, ← hshape, List.length_nil, Nat.zero_add] at hfind
  have hsecond : find source end_mark (t.length + 1) = some (t.length + 1 + m.length) := by
    have hfind := find_first hend (t ++ [start_mark]) more
    rwa [← hshape', hlength] at hfind
  have hpre : (if t.length > 0 then substr source 0 (t.length - 1) else []) = t.dropLast := by
    rw [List.dropLast_eq_take]
    split
    · unfold substr
      rw [hshape, List.drop_zero, List.take_append_of_le_length (Nat.sub_le _ _)]
    · next hzero =>
        rw [List.length_eq_zero_iff.1 (Nat.eq_zero_of_not_pos hzero)]
        rfl
  have hsection : substr source (t.length + 1) (t.length + 1 + m.length - (t.length + 1)) = m := by
    unfold substr
    rw [hshape', ← hlength, List.drop_left, Nat.add_sub_cancel_left, List.take_left]
  have hmore : source.drop (t.length + 1 + m.length + 1) = more := by
    rw [hshape', ← hlength, Nat.add_assoc, List.drop_length_add_append,
      List.drop_length_add_append]
    rfl
  have hne : ¬ source.isEmpty = true := by
    rw [hshape]
    simp
  unfold tokenizeMarksRound
  dsimp only
  rw [if_neg hne, hfirst]
  dsimp only
  rw [hsecond]
  dsimp only
  rw [hpre, hsection, hmore]
  unfold tokenize_append
  rw [tokenize_eq, List.append_assoc]

/-- A rest without a section is tokenized, and the loop is left. -/
theorem round_rest (delimiter : UInt8) {rest : Str}
    (hrest : ∀ t s, rest = t ++ start_mark :: s → start_mark ∉ t → end_mark ∉ s)
    (fields : List Str) :
    tokenizeMarksRound delimiter start_mark end_mark (rest, fields)
      = .inr (fields ++ fieldsOf delimiter rest) := by
  have happend : tokenize_append rest delimiter fields = fields ++ fieldsOf delimiter rest := by
    unfold tokenize_append
    rw [tokenize_eq]
  unfold tokenizeMarksRound
  dsimp only
  rw [happend]
  by_cases hempty : rest.isEmpty = true
  · exact if_pos hempty
  rw [if_neg hempty]
  by_cases hstart : start_mark ∈ rest
  · obtain ⟨t, s, hsplit, ht⟩ := List.eq_append_cons_of_mem hstart
    have hlength : (t ++ [start_mark]).length = t.length + 1 := by simp
    have hfirst : find rest start_mark 0 = some t.length := by
      have hfind := find_first ht [] s
      rwa [List.nil_append, ← hsplit, List.length_nil, Nat.zero_add] at hfind
    have hsecond : find rest end_mark (t.length + 1) = none := by
      have hfind := (find_none (t ++ [start_mark]) s).2 (hrest t s hsplit ht)
      rwa [hlength, List.append_assoc, List.singleton_append, ← hsplit] at hfind
    rw [hfirst]
    dsimp only
    rw [hsecond]
  · have hnone : find rest start_mark 0 = none := (find_none [] rest).2 hstart
    rw [hnone]

/-- What `tokenize` with marks makes of its source. -/
theorem tokenizeMarks_eq {source rest : Str} {parts : List (Str × Str)} (delimiter : UInt8)
    (h : Sections start_mark end_mark source parts rest) :
    tokenizeMarks source delimiter start_mark end_mark = some (cutFields delimiter parts rest) := by
  have hrun : ∀ (parts : List (Str × Str)) (n : ℕ) (fields : List Str),
      (∀ part ∈ parts, start_mark ∉ part.1 ∧ end_mark ∉ part.2) → parts.length < n →
      Walking.rounds (tokenizeMarksRound delimiter start_mark end_mark) n
          (parts.flatMap (sectionText start_mark end_mark) ++ rest, fields)
        = some (fields ++ cutFields delimiter parts rest) := by
    intro parts
    induction parts with
    | nil =>
      intro n fields _ hn
      obtain ⟨n, rfl⟩ := Nat.exists_eq_succ_of_ne_zero (Nat.ne_of_gt hn)
      rw [Walking.rounds, List.flatMap_nil, List.nil_append, round_rest delimiter h.none_left]
      rfl
    | cons part parts ih =>
      intro n fields hfirst hn
      obtain ⟨n, rfl⟩ := Nat.exists_eq_succ_of_ne_zero (Nat.ne_of_gt (Nat.zero_lt_of_lt hn))
      obtain ⟨hstart, hend⟩ := hfirst part List.mem_cons_self
      rw [Walking.rounds, List.flatMap_cons, List.append_assoc,
        round_section delimiter hstart hend]
      dsimp only
      rw [ih n _ (fun p hp => hfirst p (List.mem_cons_of_mem _ hp)) (Nat.lt_of_succ_lt_succ hn)]
      simp [cutFields]
  have hlength : parts.length ≤ source.length := by
    have hflat : ∀ l : List (Str × Str),
        l.length ≤ (l.flatMap (sectionText start_mark end_mark)).length := by
      intro l
      induction l with
      | nil => exact Nat.le_refl _
      | cons part l ih =>
        rw [List.flatMap_cons, List.length_append, List.length_cons]
        have hpos : 0 < (sectionText start_mark end_mark part).length := by
          simp only [sectionText, List.length_append, List.length_cons]
          omega
        omega
    rw [h.source_eq, List.length_append]
    exact Nat.le_add_right_of_le (hflat parts)
  unfold tokenizeMarks
  have hall := hrun parts (source.length + 1) [] h.first (Nat.lt_succ_of_le hlength)
  rwa [← h.source_eq, List.nil_append] at hall

/-- Every source is sections and a rest. -/
theorem exists_sections (start_mark end_mark : UInt8) (source : Str) :
    ∃ parts rest, Sections start_mark end_mark source parts rest := by
  induction hn : source.length using Nat.strongRecOn generalizing source with
  | ind n ih =>
    by_cases hsection : ∃ t s, source = t ++ start_mark :: s ∧ start_mark ∉ t ∧ end_mark ∈ s
    · obtain ⟨t, s, rfl, ht, hend⟩ := hsection
      obtain ⟨m, more, rfl, hm⟩ := List.eq_append_cons_of_mem hend
      have hshorter : more.length < n := by
        rw [← hn]
        simp
        omega
      obtain ⟨parts, rest, hmore⟩ := ih _ hshorter more rfl
      refine ⟨(t, m) :: parts, rest, ?_, ?_, hmore.none_left⟩
      · rw [List.flatMap_cons, List.append_assoc, ← hmore.source_eq]
        simp [sectionText]
      · intro part hpart
        rcases List.mem_cons.1 hpart with rfl | hpart
        · exact ⟨ht, hm⟩
        · exact hmore.first part hpart
    · refine ⟨[], source, rfl, by simp, ?_⟩
      intro t s hsplit ht hs
      exact hsection ⟨t, s, hsplit, ht, hs⟩

/-! ## 3. What gets lost -/

/-- Nothing that is kept is lost with the last character if and only if that is a delimiter. -/
theorem length_dropLast (delimiter : UInt8) (t : Str) :
    (t.dropLast.filter (· ≠ delimiter)).length ≤ (t.filter (· ≠ delimiter)).length
      ∧ ((t.dropLast.filter (· ≠ delimiter)).length = (t.filter (· ≠ delimiter)).length
        ↔ t = [] ∨ t.getLast? = some delimiter) := by
  induction t using List.reverseRecOn with
  | nil => simp
  | append_singleton t ch _ =>
    rw [List.dropLast_concat, List.filter_append, List.length_append, List.getLast?_concat]
    by_cases hch : ch = delimiter
    · simp [hch]
    · have hone : ([ch].filter (· ≠ delimiter)).length = 1 := by simp [hch]
      rw [hone]
      refine ⟨Nat.le_succ _, ?_⟩
      simp [hch]

/-- A delimiter at the end makes no field. -/
theorem fieldsOf_dropLast {t : Str} (h : t = [] ∨ t.getLast? = some delimiter) :
    fieldsOf delimiter t.dropLast = fieldsOf delimiter t := by
  rcases h with rfl | h
  · rfl
  · obtain ⟨u, rfl⟩ := List.getLast?_eq_some_iff.1 h
    rw [List.dropLast_concat]
    unfold fieldsOf
    rw [List.splitOn_append_cons_self, List.filter_append]
    simp

/-- The fields are those that they should be if and only if a text in front of a section is
empty or ends in a delimiter. -/
theorem cutFields_iff (delimiter : UInt8) (parts : List (Str × Str)) (rest : Str) :
    cutFields delimiter parts rest = markedFields delimiter parts rest
      ↔ ∀ part ∈ parts, part.1 = [] ∨ part.1.getLast? = some delimiter := by
  constructor
  · intro h
    have hflat := congrArg (fun fields : List Str => fields.flatten.length) h
    -- each text keeps at most what it should
    have hparts : ∀ l : List (Str × Str),
        (l.flatMap fun part => fieldsOf delimiter part.1.dropLast ++ [part.2]).flatten.length
          ≤ (l.flatMap fun part => fieldsOf delimiter part.1 ++ [part.2]).flatten.length
        ∧ ((l.flatMap fun part => fieldsOf delimiter part.1.dropLast ++ [part.2]).flatten.length
          = (l.flatMap fun part => fieldsOf delimiter part.1 ++ [part.2]).flatten.length →
          ∀ part ∈ l, part.1 = [] ∨ part.1.getLast? = some delimiter) := by
      intro l
      induction l with
      | nil => simp
      | cons part l ih =>
        obtain ⟨hle, hiff⟩ := length_dropLast delimiter part.1
        obtain ⟨hle', heq'⟩ := ih
        simp only [List.flatMap_cons, List.flatten_append, List.length_append,
          flatten_fieldsOf] at hle' heq' ⊢
        refine ⟨by omega, ?_⟩
        intro heq p hp
        rcases List.mem_cons.1 hp with rfl | hp
        · exact hiff.1 (by omega)
        · exact heq' (by omega) p hp
    apply (hparts parts).2
    simpa [cutFields, markedFields] using hflat
  · intro h
    unfold cutFields markedFields
    congr 1
    apply List.flatMap_congr
    intro part hpart
    rw [fieldsOf_dropLast (h part hpart)]

/-- The fields are those of the texts between the sections, and the sections; and each character
that is no delimiter outside of a section and no mark of one is in them, once and in its place. -/
def KeepsText (source : Str) (delimiter start_mark end_mark : UInt8) : Prop :=
  ∀ parts rest, Sections start_mark end_mark source parts rest →
    ∃ fields, tokenizeMarks source delimiter start_mark end_mark = some fields
      ∧ fields = markedFields delimiter parts rest ∧ fields.flatten = keptText delimiter parts rest

/-- That is so if and only if each text in front of a section is empty or ends in a
delimiter. -/
theorem keepsText_iff (source : Str) (delimiter start_mark end_mark : UInt8) :
    (∃ parts rest, Sections start_mark end_mark source parts rest)
      ∧ (KeepsText source delimiter start_mark end_mark
        ↔ ∀ parts rest, Sections start_mark end_mark source parts rest →
          ∀ part ∈ parts, part.1 = [] ∨ part.1.getLast? = some delimiter) := by
  refine ⟨exists_sections start_mark end_mark source, ?_⟩
  constructor
  · intro h parts rest hsections
    obtain ⟨fields, hfields, hmarked, -⟩ := h parts rest hsections
    rw [tokenizeMarks_eq delimiter hsections] at hfields
    exact (cutFields_iff delimiter parts rest).1 ((Option.some.inj hfields).trans hmarked)
  · intro h parts rest hsections
    have hcut := (cutFields_iff delimiter parts rest).2 (h parts rest hsections)
    refine ⟨_, tokenizeMarks_eq delimiter hsections, hcut, ?_⟩
    rw [hcut, flatten_markedFields]

/-- The `b` in front of the section in `ab<c>` is lost. -/
theorem character_lost :
    ¬ ∀ (source : Str) (delimiter start_mark end_mark : UInt8), delimiter ≠ start_mark →
      delimiter ≠ end_mark → start_mark ≠ end_mark →
        KeepsText source delimiter start_mark end_mark := by
  intro h
  have hsections : Sections 0x3C 0x3E (str "ab<c>") [(str "ab", str "c")] [] := by
    refine ⟨by decide, by decide, ?_⟩
    intro t s hsplit
    exact absurd hsplit.symm (by simp)
  obtain ⟨fields, hfields, -, hkept⟩ :=
    h (str "ab<c>") 0x20 0x3C 0x3E (by decide) (by decide) (by decide) _ _ hsections
  have hrun : tokenizeMarks (str "ab<c>") 0x20 0x3C 0x3E = some [str "a", str "c"] := by
    decide +kernel
  obtain rfl := Option.some.inj (hfields.symm.trans hrun)
  exact absurd hkept (by decide)

end Gxmpp.TalkBase.StringEncode
