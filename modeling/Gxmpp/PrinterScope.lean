/-
The prefixes `XmlPrinterImpl::PrintElement` uses.

`AddNewPrefix` only ever adds bindings that hide nothing: the prefix it invents is
one that `NsForPrefix` does not know. So the bindings needed for the later
attributes of a tag do not disturb those found for the earlier ones, and every
name of the tag has a prefix when the tag is written. The frame goes when the
element has been printed.

`pieces` is what `PrintElement` writes, cut where it cuts it: the text is the
concatenation of the pieces, and the names and declarations stand in them apart.
-/
import Gxmpp.XmlPrinter
import Gxmpp.XmlParser
import Mathlib.Data.List.Nodup
import Mathlib.Data.List.TakeWhile

set_option autoImplicit false

namespace Gxmpp

/-! ## 1. Names -/

/-- A byte that begins a name. The bytes from 0x80 on stand for the letters beyond ASCII. -/
def isNameStart (ch : UInt8) : Bool := XmlnsStack.isAsciiLetter ch || ch == 0x5F || 0x80 ≤ ch

/-- A byte of a name, which is not the colon. -/
def isNameChar (ch : UInt8) : Bool :=
  isNameStart ch || (0x30 ≤ ch && ch ≤ 0x39) || ch == 0x2D || ch == 0x2E

/-- A name without a colon. -/
def isNCName : Str → Bool
  | [] => false
  | ch :: rest => isNameStart ch && rest.all isNameChar

theorem isNameChar_of_start {ch : UInt8} (h : isNameStart ch = true) : isNameChar ch = true := by
  unfold isNameChar
  rw [h]
  rfl

theorem isNCName_ne_nil {s : Str} (h : isNCName s = true) : s ≠ [] := by
  rintro rfl
  exact absurd h (by decide)

theorem isNCName_all {s : Str} (h : isNCName s = true) : ∀ ch ∈ s, isNameChar ch = true := by
  rcases s with _ | ⟨c, rest⟩
  · exact absurd h (by decide)
  · unfold isNCName at h
    rw [Bool.and_eq_true, List.all_eq_true] at h
    intro ch hch
    rcases List.mem_cons.1 hch with rfl | hrest
    · exact isNameChar_of_start h.1
    · exact h.2 ch hrest

theorem colon_not_mem {s : Str} (h : isNCName s = true) : (0x3A : UInt8) ∉ s := by
  intro hmem
  exact absurd (isNCName_all h 0x3A hmem) (by decide)

namespace ParseContext

/-- A name is split at its first colon. -/
theorem splitColon_append {pre : Str} (h : (0x3A : UInt8) ∉ pre) (localPart : Str) :
    splitColon (pre ++ str ":" ++ localPart) = some (pre, localPart) := by
  have hall : ∀ ch ∈ pre, decide (ch ≠ (0x3A : UInt8)) = true := by
    intro ch hch
    rw [decide_eq_true_eq]
    rintro rfl
    exact h hch
  have hcolon : str ":" = [(0x3A : UInt8)] := by decide
  unfold splitColon
  rw [hcolon, List.append_assoc, List.dropWhile_append_of_pos hall,
    List.takeWhile_append_of_pos hall]
  simp

/-- A name without a colon is not split. -/
theorem splitColon_none {localPart : Str} (h : (0x3A : UInt8) ∉ localPart) :
    splitColon localPart = none := by
  have hall : ∀ ch ∈ localPart, decide (ch ≠ (0x3A : UInt8)) = true := by
    intro ch hch
    rw [decide_eq_true_eq]
    rintro rfl
    exact h hch
  have hdrop : localPart.dropWhile (fun ch => decide (ch ≠ (0x3A : UInt8))) = [] := by
    rw [List.dropWhile_eq_nil_iff]
    exact hall
  unfold splitColon
  rw [hdrop]

end ParseContext

namespace XmlnsStack

/-! ## 2. What the bindings say -/

variable {pre ns : Str} {s t s' : XmlnsStack} {isAttr : Bool} {ch : UInt8} {new : List (Str × Str)}
  {P : Str → Prop}

theorem nsForPrefix_addXmlns_ne {other : Str} (h : other ≠ pre) (ns : Str) :
    (s.addXmlns pre ns).nsForPrefix other = s.nsForPrefix other := by
  unfold nsForPrefix addXmlns
  rw [List.find?_cons_of_neg (by simpa using h.symm)]

theorem nsForPrefix_addXmlns_self (h : startsWithXml pre = false) (ns : Str) :
    (s.addXmlns pre ns).nsForPrefix pre = some ns := by
  unfold nsForPrefix addXmlns
  rw [if_neg (by simp [h]), List.find?_cons_of_pos (by simp)]

/-- A binding of a prefix "xml..." is never looked at. -/
theorem nsForPrefix_addXmlns_xml (h : startsWithXml pre = true) (ns other : Str) :
    (s.addXmlns pre ns).nsForPrefix other = s.nsForPrefix other := by
  by_cases heq : other = pre
  · unfold nsForPrefix
    rw [heq, if_pos h, if_pos h]
  · exact nsForPrefix_addXmlns_ne heq ns

/-- Where the namespace of a prefix comes from. -/
theorem nsForPrefix_some (h : s.nsForPrefix pre = some ns) :
    (pre = str "xml" ∧ ns = NS_XML) ∨ (pre = str "xmlns" ∧ ns = NS_XMLNS) ∨
      (pre, ns) ∈ s.bindings ∨ (pre = [] ∧ ns = []) := by
  unfold nsForPrefix at h
  by_cases hlike : startsWithXml pre = true
  · rw [if_pos hlike] at h
    by_cases hxml : pre = str "xml"
    · rw [if_pos hxml] at h
      exact Or.inl ⟨hxml, (Option.some.inj h).symm⟩
    · rw [if_neg hxml] at h
      by_cases hxmlns : pre = str "xmlns"
      · rw [if_pos hxmlns] at h
        exact Or.inr (Or.inl ⟨hxmlns, (Option.some.inj h).symm⟩)
      · rw [if_neg hxmlns] at h
        exact absurd h (by simp)
  · rw [if_neg hlike] at h
    rcases hfind : s.bindings.find? (fun b => decide (b.1 = pre)) with _ | b
    · rw [hfind] at h
      dsimp only at h
      by_cases hempty : pre = STR_EMPTY
      · rw [if_pos hempty] at h
        exact Or.inr (Or.inr (Or.inr ⟨hempty, (Option.some.inj h).symm⟩))
      · rw [if_neg hempty] at h
        exact absurd h (by simp)
    · rw [hfind] at h
      have hpre : b.1 = pre := by simpa using List.find?_some hfind
      have hmem := List.mem_of_find?_eq_some hfind
      have hb : b = (pre, ns) := Prod.ext hpre (Option.some.inj h)
      rw [hb] at hmem
      exact Or.inr (Or.inr (Or.inl hmem))

/-- A prefix that is found stands for the namespace. -/
theorem prefixForNs_some (h : s.prefixForNs ns isAttr = some pre) :
    (isAttr = true ∧ ns = [] ∧ pre = []) ∨
      (s.nsForPrefix pre = some ns ∧ (isAttr = true → pre ≠ [])) := by
  unfold prefixForNs at h
  by_cases hxml : ns = NS_XML
  · rw [if_pos hxml] at h
    rw [← Option.some.inj h, hxml]
    exact Or.inr ⟨rfl, fun _ => by decide⟩
  · rw [if_neg hxml] at h
    by_cases hxmlns : ns = NS_XMLNS
    · rw [if_pos hxmlns] at h
      rw [← Option.some.inj h, hxmlns]
      exact Or.inr ⟨rfl, fun _ => by decide⟩
    · rw [if_neg hxmlns] at h
      by_cases hdefault : (if isAttr = true then ns = STR_EMPTY
          else s.prefixMatchesNs STR_EMPTY ns = true)
      · rw [if_pos hdefault] at h
        rw [← Option.some.inj h]
        rcases isAttr with _ | _
        · refine Or.inr ⟨?_, by simp⟩
          simpa [prefixMatchesNs] using hdefault
        · exact Or.inl ⟨rfl, by simpa [STR_EMPTY] using hdefault, rfl⟩
      · rw [if_neg hdefault] at h
        obtain ⟨b, hfind, rfl⟩ := Option.map_eq_some_iff.1 h
        have hb := List.find?_some hfind
        rw [Bool.and_eq_true, Bool.and_eq_true] at hb
        obtain ⟨⟨-, hattr⟩, hmatch⟩ := hb
        refine Or.inr ⟨by simpa [prefixMatchesNs] using hmatch, ?_⟩
        rintro rfl
        simpa using hattr

/-- A prefix is found exactly if there is one. -/
theorem prefixForNs_isSome (s : XmlnsStack) (ns : Str) (isAttr : Bool) :
    (s.prefixForNs ns isAttr).isSome = true ↔
      (isAttr = true ∧ ns = []) ∨
        ∃ pre, s.nsForPrefix pre = some ns ∧ (isAttr = true → pre ≠ []) := by
  constructor
  · intro h
    obtain ⟨pre, hpre⟩ := Option.isSome_iff_exists.1 h
    rcases prefixForNs_some hpre with ⟨hattr, hns, -⟩ | ⟨hns, hattr⟩
    · exact Or.inl ⟨hattr, hns⟩
    · exact Or.inr ⟨pre, hns, hattr⟩
  · intro h
    unfold prefixForNs
    by_cases hxml : ns = NS_XML
    · rw [if_pos hxml]
      rfl
    · rw [if_neg hxml]
      by_cases hxmlns : ns = NS_XMLNS
      · rw [if_pos hxmlns]
        rfl
      · rw [if_neg hxmlns]
        -- the empty prefix is tried first, then the declarations from the innermost on
        by_cases hdefault : (if isAttr = true then ns = STR_EMPTY
            else s.prefixMatchesNs STR_EMPTY ns = true)
        · rw [if_pos hdefault]
          rfl
        · rw [if_neg hdefault, Option.isSome_map, List.find?_isSome]
          rcases h with ⟨hattr, hns⟩ | ⟨pre, hpre, hattr⟩
          · rw [hattr] at hdefault
            exact absurd hns hdefault
          · rcases nsForPrefix_some hpre with ⟨-, h'⟩ | ⟨-, h'⟩ | hmem | ⟨hempty, hns⟩
            · exact absurd h' hxml
            · exact absurd h' hxmlns
            · refine ⟨(pre, ns), hmem, ?_⟩
              rcases isAttr with _ | _
              · simp [prefixMatchesNs, hpre]
              · simp [prefixMatchesNs, hpre, hattr rfl]
            · -- the default namespace is the empty one
              rcases isAttr with _ | _
              · refine absurd ?_ hdefault
                rw [hempty] at hpre
                simp [prefixMatchesNs, STR_EMPTY, hpre]
              · exact absurd hempty (hattr rfl)

/-! ## 3. The prefixes that are invented -/

/-- A prefix `AddNewPrefix` may invent: a name of letters and digits that `NsForPrefix`
does not treat apart. -/
structure Invented (pre : Str) : Prop where
  ncName : isNCName pre = true
  plain : startsWithXml pre = false

/-- A small ASCII letter. -/
def isLower (ch : UInt8) : Bool := 0x61 ≤ ch && ch ≤ 0x7A

/-- A decimal digit. -/
def isDigit (ch : UInt8) : Bool := 0x30 ≤ ch && ch ≤ 0x39

theorem isNameStart_of_isLower (h : isLower ch = true) : isNameStart ch = true := by
  unfold isLower at h
  unfold isNameStart XmlnsStack.isAsciiLetter
  grind

theorem isNameChar_of_isDigit (h : isDigit ch = true) : isNameChar ch = true := by
  unfold isDigit at h
  unfold isNameChar
  grind

/-- Small letters are "xml" only if they are that. -/
theorem xml_of_isLower {x m l : UInt8} (hx : isLower x = true) (hm : isLower m = true)
    (hl : isLower l = true)
    (h : ((x == 0x78 || x == 0x58) && (m == 0x6D || m == 0x4D) && (l == 0x6C || l == 0x4C))
      = true) :
    x = 0x78 ∧ m = 0x6D ∧ l = 0x6C := by
  have hup : ∀ ch : UInt8, isLower ch = true → ch ≠ 0x58 ∧ ch ≠ 0x4D ∧ ch ≠ 0x4C := by
    intro ch hch
    unfold isLower at hch
    grind
  have hxu := hup x hx
  have hmu := hup m hm
  have hlu := hup l hl
  simp only [Bool.and_eq_true, Bool.or_eq_true, beq_iff_eq] at h
  obtain ⟨⟨h1, h2⟩, h3⟩ := h
  exact ⟨h1.resolve_right hxu.1, h2.resolve_right hmu.2.1, h3.resolve_right hlu.2.2⟩

/-- A digit is none of the letters of "xml". -/
theorem not_xml_of_isDigit (h : isDigit ch = true) :
    (ch == 0x6D || ch == 0x4D) = false ∧ (ch == 0x6C || ch == 0x4C) = false := by
  unfold isDigit at h
  grind

/-- Small letters that do not begin with "xml", and then digits. -/
theorem Invented.of_letters {base digits : Str} (hne : base ≠ [])
    (hlower : ∀ ch ∈ base, isLower ch = true) (hxml : (str "xml").isPrefixOf base = false)
    (hdigits : ∀ ch ∈ digits, isDigit ch = true) : Invented (base ++ digits) := by
  obtain ⟨x, rest, rfl⟩ := List.exists_cons_of_ne_nil hne
  have hx := hlower x List.mem_cons_self
  constructor
  · rw [List.cons_append, isNCName, isNameStart_of_isLower hx, Bool.true_and]
    refine List.all_eq_true.2 ?_
    intro ch hch
    rcases List.mem_append.1 hch with hrest | hdigit
    · exact isNameChar_of_start (isNameStart_of_isLower (hlower ch (List.mem_cons_of_mem _ hrest)))
    · exact isNameChar_of_isDigit (hdigits ch hdigit)
  · -- the first three bytes are letters of the base, or one of them is a digit
    rw [Bool.eq_false_iff]
    intro h
    rcases rest with _ | ⟨m, rest⟩
    · rcases digits with _ | ⟨d, digits⟩
      · exact absurd h (by simp [startsWithXml])
      · have hd := (not_xml_of_isDigit (hdigits d List.mem_cons_self)).1
        rcases digits with _ | ⟨d', digits⟩
        · exact absurd h (by simp [startsWithXml])
        · rw [List.cons_append, List.nil_append, startsWithXml, Bool.and_eq_true,
            Bool.and_eq_true] at h
          rw [hd] at h
          exact absurd h.1.2 (by decide)
    · rcases rest with _ | ⟨l, rest⟩
      · rcases digits with _ | ⟨d, digits⟩
        · exact absurd h (by simp [startsWithXml])
        · have hd := (not_xml_of_isDigit (hdigits d List.mem_cons_self)).2
          rw [List.cons_append, List.cons_append, List.nil_append, startsWithXml,
            Bool.and_eq_true] at h
          rw [hd] at h
          exact absurd h.2 (by decide)
      · have hm := hlower m (by simp)
        have hl := hlower l (by simp)
        obtain ⟨rfl, rfl, rfl⟩ := xml_of_isLower hx hm hl h
        refine absurd hxml ?_
        have hstr : str "xml" = [(0x78 : UInt8), 0x6D, 0x6C] := by decide
        rw [hstr]
        simp

theorem isLower_asciiLower {s : Str} (h : ∀ ch ∈ s, isAsciiLetter ch = true) :
    ∀ ch ∈ asciiLower s, isLower ch = true := by
  intro ch hch
  obtain ⟨b, hb, rfl⟩ := List.mem_map.1 hch
  have hall := byte_forall (fun ch => !isAsciiLetter ch ||
    isLower (if 0x41 ≤ ch && ch ≤ 0x5A then ch + 0x20 else ch)) (by decide +kernel) b
  rw [h b hb] at hall
  simpa using hall

/-- What `SuggestPrefix` suggests. -/
theorem suggestPrefix_letters (ns : Str) :
    suggestPrefix ns ≠ [] ∧ (∀ ch ∈ suggestPrefix ns, isLower ch = true) ∧
      (str "xml").isPrefixOf (suggestPrefix ns) = false := by
  unfold suggestPrefix
  dsimp only
  generalize hrun : (((ns.take (chopExtension ns)).reverse.dropWhile
    (fun ch => !isAsciiLetter ch)).takeWhile isAsciiLetter).reverse = run
  have hletters : ∀ ch ∈ run, isAsciiLetter ch = true := by
    intro ch hch
    rw [← hrun, List.mem_reverse] at hch
    exact List.mem_takeWhile_imp hch
  generalize hcand : (if run.length > 4 then run.take 3 else run) = cand
  have hsub : ∀ ch ∈ cand, isAsciiLetter ch = true := by
    intro ch hch
    rw [← hcand] at hch
    by_cases hlong : run.length > 4
    · rw [if_pos hlong] at hch
      exact hletters ch (List.mem_of_mem_take hch)
    · rw [if_neg hlong] at hch
      exact hletters ch hch
  by_cases hns : (run.isEmpty || (str "xml").isPrefixOf (asciiLower cand)) = true
  · have hall : (str "ns").all isLower = true := by decide
    rw [if_pos hns]
    exact ⟨by decide, List.all_eq_true.1 hall, by decide⟩
  · rw [if_neg hns]
    rw [Bool.not_eq_true, Bool.or_eq_false_iff] at hns
    refine ⟨?_, isLower_asciiLower hsub, hns.2⟩
    intro hempty
    have hnil : cand = [] := List.map_eq_nil_iff.1 hempty
    have hrunne : run ≠ [] := by simpa using hns.1
    have hpos : 0 < run.length := List.length_pos_of_ne_nil hrunne
    rw [← hcand] at hnil
    by_cases hlong : run.length > 4
    · rw [if_pos hlong] at hnil
      have hlen := congrArg List.length hnil
      rw [List.length_take, List.length_nil] at hlen
      omega
    · rw [if_neg hlong] at hnil
      exact hrunne hnil

/-! ## 4. An invented prefix is fresh -/

theorem isDigit_decimal (n : Nat) : ∀ ch ∈ decimal n, isDigit ch = true := by
  intro ch hch
  obtain ⟨c, hc, rfl⟩ := List.mem_map.1 hch
  have hdigit := Nat.isDigit_of_mem_toDigits (by decide) (by decide) hc
  obtain ⟨hlo, hhi⟩ := Char.isDigit_iff_toNat.1 hdigit
  rw [show '0'.toNat = 48 from rfl] at hlo
  rw [show '9'.toNat = 57 from rfl] at hhi
  unfold isDigit
  rw [Bool.and_eq_true, decide_eq_true_eq, decide_eq_true_eq, UInt8.le_iff_toNat_le,
    UInt8.le_iff_toNat_le, UInt8.toNat_ofNat']
  have hmod : c.toNat % 2 ^ 8 = c.toNat := Nat.mod_eq_of_lt (by omega)
  rw [hmod]
  exact ⟨hlo, hhi⟩

theorem decimal_ne_nil (n : Nat) : decimal n ≠ [] := by
  unfold decimal
  rw [Ne, List.map_eq_nil_iff]
  exact Nat.toDigits_ne_nil

/-- The digits of a number tell which it is. -/
theorem decimal_injective {m n : Nat} (h : decimal m = decimal n) : m = n := by
  have hback : ∀ k, (decimal k).map (fun b => Char.ofNat b.toNat) = Nat.toDigits 10 k := by
    intro k
    unfold decimal
    rw [List.map_map]
    refine (List.map_congr_left fun c hc => ?_).trans (List.map_id _)
    have hdigit := Nat.isDigit_of_mem_toDigits (by decide) (by decide) hc
    obtain ⟨-, hhi⟩ := Char.isDigit_iff_toNat.1 hdigit
    rw [show '9'.toNat = 57 from rfl] at hhi
    have hmod : c.toNat % 2 ^ 8 = c.toNat := Nat.mod_eq_of_lt (by omega)
    show Char.ofNat (UInt8.ofNat c.toNat).toNat = c
    rw [UInt8.toNat_ofNat', hmod, Char.ofNat_toNat]
  have hdigits : Nat.toDigits 10 m = Nat.toDigits 10 n := by rw [← hback m, ← hback n, h]
  rw [← Nat.ofDigitChars_ten_toDigits (n := m), hdigits, Nat.ofDigitChars_ten_toDigits]

/-- The loop of `AddNewPrefix` ends at a prefix that is not bound, or all it has tried are. -/
theorem inventPrefix_none (s : XmlnsStack) (base : Str) (fuel i : Nat) (result : Str) :
    s.nsForPrefix (inventPrefix s base fuel i result) = none ∨
      (0 < fuel → (s.nsForPrefix result).isSome = true) ∧
        ∀ j, i ≤ j → j + 1 < i + fuel → (s.nsForPrefix (base ++ decimal j)).isSome = true := by
  induction fuel generalizing i result with
  | zero =>
    refine Or.inr ⟨fun h => absurd h (by omega), fun j h1 h2 => absurd h2 (by omega)⟩
  | succ fuel ih =>
    rw [inventPrefix]
    by_cases hbound : (s.nsForPrefix result).isSome = true
    · rw [if_pos hbound]
      rcases ih (i + 1) (base ++ decimal i) with hnone | ⟨hfirst, hrest⟩
      · exact Or.inl hnone
      · refine Or.inr ⟨fun _ => hbound, ?_⟩
        intro j hij hj
        by_cases heq : j = i
        · rw [heq]
          exact hfirst (by omega)
        · exact hrest j (by omega) (by omega)
    · rw [if_neg hbound]
      exact Or.inl (Option.not_isSome_iff_eq_none.1 hbound)

/-- What `AddNewPrefix` tries is the base, or the base with a number. -/
theorem inventPrefix_form (s : XmlnsStack) (base : Str) (fuel i : Nat) (result : Str)
    (h : ∃ digits : Str, result = base ++ digits ∧ ∀ ch ∈ digits, isDigit ch = true) :
    ∃ digits : Str, inventPrefix s base fuel i result = base ++ digits ∧
      ∀ ch ∈ digits, isDigit ch = true := by
  induction fuel generalizing i result with
  | zero => exact h
  | succ fuel ih =>
    rw [inventPrefix]
    by_cases hbound : (s.nsForPrefix result).isSome = true
    · rw [if_pos hbound]
      exact ih (i + 1) _ ⟨decimal i, rfl, isDigit_decimal i⟩
    · rw [if_neg hbound]
      exact h

/-- The prefix of `AddNewPrefix`. -/
def freshPrefix (s : XmlnsStack) (ns : Str) : Str :=
  inventPrefix s (suggestPrefix ns) (s.bindings.length + 1) 2 (suggestPrefix ns)

theorem freshPrefix_invented (s : XmlnsStack) (ns : Str) : Invented (s.freshPrefix ns) := by
  obtain ⟨hne, hlower, hxml⟩ := suggestPrefix_letters ns
  obtain ⟨digits, heq, hdigits⟩ := inventPrefix_form s (suggestPrefix ns)
    (s.bindings.length + 1) 2 (suggestPrefix ns) ⟨[], (List.append_nil _).symm, by simp⟩
  unfold freshPrefix
  rw [heq]
  exact Invented.of_letters hne hlower hxml hdigits

/-- A bound prefix that is no "xml..." and not empty stands in a binding. -/
theorem mem_bindings (hinv : Invented pre) (h : (s.nsForPrefix pre).isSome = true) :
    pre ∈ s.bindings.map (·.1) := by
  obtain ⟨ns, hns⟩ := Option.isSome_iff_exists.1 h
  rcases nsForPrefix_some hns with ⟨rfl, -⟩ | ⟨rfl, -⟩ | hmem | ⟨rfl, -⟩
  · exact absurd hinv.plain (by decide)
  · exact absurd hinv.plain (by decide)
  · exact List.mem_map_of_mem hmem
  · exact absurd hinv.ncName (by decide)

/-- It is not bound: there are more candidates than bindings, and no two are the same. -/
theorem freshPrefix_none (s : XmlnsStack) (ns : Str) : s.nsForPrefix (s.freshPrefix ns) = none := by
  obtain ⟨hne, hlower, hxml⟩ := suggestPrefix_letters ns
  rcases inventPrefix_none s (suggestPrefix ns) (s.bindings.length + 1) 2 (suggestPrefix ns)
    with hnone | ⟨hfirst, hrest⟩
  · exact hnone
  · have hsub : ∀ pre ∈ suggestPrefix ns ::
        (List.range s.bindings.length).map (fun j => suggestPrefix ns ++ decimal (j + 2)),
        pre ∈ s.bindings.map (·.1) := by
      intro pre hpre
      rcases List.mem_cons.1 hpre with rfl | hnumber
      · refine mem_bindings ?_ (hfirst (by omega))
        have h : Invented (suggestPrefix ns ++ []) :=
          Invented.of_letters hne hlower hxml (by simp)
        rwa [List.append_nil] at h
      · obtain ⟨j, hj, rfl⟩ := List.mem_map.1 hnumber
        rw [List.mem_range] at hj
        exact mem_bindings (Invented.of_letters hne hlower hxml (isDigit_decimal _))
          (hrest (j + 2) (by omega) (by omega))
    have hnodup : (suggestPrefix ns ::
        (List.range s.bindings.length).map
          (fun j => suggestPrefix ns ++ decimal (j + 2))).Nodup := by
      rw [List.nodup_cons]
      constructor
      · intro hmem
        obtain ⟨j, -, heq⟩ := List.mem_map.1 hmem
        exact decimal_ne_nil (j + 2) (List.append_right_eq_self.1 heq)
      · refine List.Nodup.map ?_ List.nodup_range
        intro a b heq
        have h := decimal_injective (List.append_cancel_left heq)
        omega
    have hlen := hnodup.length_le_of_subset hsub
    rw [List.length_cons, List.length_map, List.length_map, List.length_range] at hlen
    omega

/-- `AddNewPrefix`, in one line. -/
theorem addNewPrefix_eq (s : XmlnsStack) (ns : Str) (isAttr : Bool) :
    s.addNewPrefix ns isAttr =
      if (s.prefixForNs ns isAttr).isSome = true then (s, none)
      else (s.addXmlns (s.freshPrefix ns) ns, some (s.freshPrefix ns)) := rfl

/-! ## 5. Bindings that hide nothing -/

/-- The stack with new bindings, of prefixes it did not know. -/
structure Extends (s s' : XmlnsStack) (new : List (Str × Str)) : Prop where
  stack : s' = ⟨new.reverse ++ s.bindings, s.depths⟩
  invented : ∀ b ∈ new, Invented b.1
  kept : ∀ pre ns, s.nsForPrefix pre = some ns → s'.nsForPrefix pre = some ns
  added : ∀ pre ns, s'.nsForPrefix pre = some ns → s.nsForPrefix pre = some ns ∨ (pre, ns) ∈ new

theorem Extends.refl (s : XmlnsStack) : Extends s s [] :=
  ⟨rfl, by simp, fun _ _ h => h, fun _ _ h => Or.inl h⟩

theorem Extends.trans {u : XmlnsStack} {new' : List (Str × Str)} (h : Extends s t new)
    (h' : Extends t u new') : Extends s u (new ++ new') := by
  refine ⟨?_, ?_, ?_, ?_⟩
  · rw [h'.stack, h.stack, List.reverse_append, List.append_assoc]
  · intro b hb
    rcases List.mem_append.1 hb with hb | hb
    · exact h.invented b hb
    · exact h'.invented b hb
  · intro pre ns hns
    exact h'.kept pre ns (h.kept pre ns hns)
  · intro pre ns hns
    rcases h'.added pre ns hns with hold | hnew
    · rcases h.added pre ns hold with hold | hnew
      · exact Or.inl hold
      · exact Or.inr (List.mem_append_left _ hnew)
    · exact Or.inr (List.mem_append_right _ hnew)

/-- A prefix that is found is found among more bindings. -/
theorem Extends.found (h : Extends s s' new) (hfound : (s.prefixForNs ns isAttr).isSome = true) :
    (s'.prefixForNs ns isAttr).isSome = true := by
  rw [prefixForNs_isSome] at hfound ⊢
  rcases hfound with hattr | ⟨pre, hns, hpre⟩
  · exact Or.inl hattr
  · exact Or.inr ⟨pre, h.kept pre ns hns, hpre⟩

theorem Extends.unfound (h : Extends s s' new) (hnone : s'.prefixForNs ns isAttr = none) :
    s.prefixForNs ns isAttr = none := by
  rw [← Option.not_isSome_iff_eq_none] at hnone ⊢
  exact fun hfound => hnone (h.found hfound)

/-- The binding of a fresh prefix. -/
theorem extends_fresh (s : XmlnsStack) (ns : Str) :
    Extends s (s.addXmlns (s.freshPrefix ns) ns) [(s.freshPrefix ns, ns)] := by
  have hinv := freshPrefix_invented s ns
  have hnone := freshPrefix_none s ns
  refine ⟨rfl, ?_, ?_, ?_⟩
  · intro b hb
    rw [List.mem_singleton.1 hb]
    exact hinv
  · intro pre ns' hns
    rw [nsForPrefix_addXmlns_ne, hns]
    rintro rfl
    rw [hnone] at hns
    exact absurd hns (by simp)
  · intro pre ns' hns
    by_cases heq : pre = s.freshPrefix ns
    · rw [heq, nsForPrefix_addXmlns_self hinv.plain] at hns
      rw [heq, ← Option.some.inj hns]
      exact Or.inr List.mem_cons_self
    · rw [nsForPrefix_addXmlns_ne heq] at hns
      exact Or.inl hns

/-- The bindings of `t`, and others that are not in its way, of namespaces with `P`. -/
structure Grown (P : Str → Prop) (s t : XmlnsStack) : Prop where
  kept : ∀ pre ns, t.nsForPrefix pre = some ns → s.nsForPrefix pre = some ns
  added : ∀ pre ns, s.nsForPrefix pre = some ns → t.nsForPrefix pre = some ns ∨ P ns

theorem Grown.refl (P : Str → Prop) (s : XmlnsStack) : Grown P s s :=
  ⟨fun _ _ h => h, fun _ _ h => Or.inl h⟩

/-- The same declaration in both. -/
theorem Grown.addXmlns (h : Grown P s t) (pre ns : Str) :
    Grown P (s.addXmlns pre ns) (t.addXmlns pre ns) := by
  by_cases hxml : startsWithXml pre = true
  · constructor
    · intro other ns' hns
      rw [nsForPrefix_addXmlns_xml hxml] at hns ⊢
      exact h.kept other ns' hns
    · intro other ns' hns
      rw [nsForPrefix_addXmlns_xml hxml] at hns ⊢
      exact h.added other ns' hns
  · have hself := fun s : XmlnsStack =>
      nsForPrefix_addXmlns_self (s := s) (Bool.eq_false_iff.2 hxml) ns
    constructor
    · intro other ns' hns
      by_cases heq : other = pre
      · rw [heq, hself] at hns ⊢
        exact hns
      · rw [nsForPrefix_addXmlns_ne heq] at hns ⊢
        exact h.kept other ns' hns
    · intro other ns' hns
      by_cases heq : other = pre
      · rw [heq, hself] at hns ⊢
        exact Or.inl hns
      · rw [nsForPrefix_addXmlns_ne heq] at hns ⊢
        exact h.added other ns' hns

/-- New bindings of namespaces with `P`. -/
theorem Grown.extends (h : Grown P s t) (hext : Extends s s' new) (hnew : ∀ b ∈ new, P b.2) :
    Grown P s' t := by
  constructor
  · intro pre ns hns
    exact hext.kept pre ns (h.kept pre ns hns)
  · intro pre ns hns
    rcases hext.added pre ns hns with hold | hin
    · exact h.added pre ns hold
    · exact Or.inr (hnew (pre, ns) hin)

/-- A prefix is found in both, or the namespace is one with `P`. -/
theorem Grown.found (h : Grown P s t) (ns : Str) (isAttr : Bool) :
    ((t.prefixForNs ns isAttr).isSome = true → (s.prefixForNs ns isAttr).isSome = true) ∧
      ((s.prefixForNs ns isAttr).isSome = true →
        (t.prefixForNs ns isAttr).isSome = true ∨ P ns) := by
  rw [prefixForNs_isSome, prefixForNs_isSome]
  constructor
  · rintro (hattr | ⟨pre, hns, hpre⟩)
    · exact Or.inl hattr
    · exact Or.inr ⟨pre, h.kept pre ns hns, hpre⟩
  · rintro (hattr | ⟨pre, hns, hpre⟩)
    · exact Or.inl (Or.inl hattr)
    · rcases h.added pre ns hns with hold | hP
      · exact Or.inl (Or.inr ⟨pre, hold, hpre⟩)
      · exact Or.inr hP

end XmlnsStack

/-! ## 6. What a tag needs -/

namespace XmlPrinter

open XmlnsStack (Extends)

/-- One name: a binding is added if no prefix is found, and then there is one. -/
theorem needPrefix_spec (acc : XmlnsStack × List (Str × Str)) (ns : Str) (isAttr : Bool) :
    ∃ new, (needPrefix acc ns isAttr).2 = acc.2 ++ new ∧
      Extends acc.1 (needPrefix acc ns isAttr).1 new ∧
      ((needPrefix acc ns isAttr).1.prefixForNs ns isAttr).isSome = true ∧
      ∀ b ∈ new, b.2 = ns ∧ acc.1.prefixForNs ns isAttr = none := by
  obtain ⟨s, seen⟩ := acc
  unfold needPrefix
  rw [XmlnsStack.addNewPrefix_eq]
  by_cases hfound : (s.prefixForNs ns isAttr).isSome = true
  · rw [if_pos hfound]
    exact ⟨[], (List.append_nil _).symm, Extends.refl s, hfound, by simp⟩
  · rw [if_neg hfound]
    refine ⟨[(s.freshPrefix ns, ns)], rfl, XmlnsStack.extends_fresh s ns, ?_, ?_⟩
    · have hinv := XmlnsStack.freshPrefix_invented s ns
      rw [XmlnsStack.prefixForNs_isSome]
      exact Or.inr ⟨s.freshPrefix ns, XmlnsStack.nsForPrefix_addXmlns_self hinv.plain ns,
        fun _ => isNCName_ne_nil hinv.ncName⟩
    · intro b hb
      rw [List.mem_singleton.1 hb]
      exact ⟨rfl, Option.not_isSome_iff_eq_none.1 hfound⟩

/-- The loop over the attributes. -/
theorem needAttrs_spec (attrs : List XmlAttr) (acc : XmlnsStack × List (Str × Str)) :
    ∃ new, (attrs.foldl (fun acc a => needPrefix acc a.name.ns true) acc).2 = acc.2 ++ new ∧
      Extends acc.1 (attrs.foldl (fun acc a => needPrefix acc a.name.ns true) acc).1 new ∧
      (∀ a ∈ attrs, ((attrs.foldl (fun acc a => needPrefix acc a.name.ns true) acc).1.prefixForNs
        a.name.ns true).isSome = true) ∧
      ∀ b ∈ new, ∃ a ∈ attrs, b.2 = a.name.ns ∧ acc.1.prefixForNs a.name.ns true = none := by
  induction attrs generalizing acc with
  | nil => exact ⟨[], (List.append_nil _).symm, Extends.refl acc.1, by simp, by simp⟩
  | cons a attrs ih =>
    obtain ⟨new, heq, hext, hfound, hns⟩ := needPrefix_spec acc a.name.ns true
    obtain ⟨new', heq', hext', hfound', hns'⟩ := ih (needPrefix acc a.name.ns true)
    rw [List.foldl_cons]
    refine ⟨new ++ new', ?_, hext.trans hext', ?_, ?_⟩
    · rw [heq', heq, List.append_assoc]
    · intro x hx
      rcases List.mem_cons.1 hx with rfl | hx
      · exact hext'.found hfound
      · exact hfound' x hx
    · intro b hb
      rcases List.mem_append.1 hb with hb | hb
      · exact ⟨a, List.mem_cons_self, hns b hb⟩
      · obtain ⟨x, hx, heq, hnone⟩ := hns' b hb
        exact ⟨x, List.mem_cons_of_mem _ hx, heq, hext.unfound hnone⟩

/-- All the bindings of a tag: of the namespaces for which no prefix is found. -/
theorem needed_spec (s : XmlnsStack) (name : QName) (attrs : List XmlAttr) :
    Extends s (needed s name attrs).1 (needed s name attrs).2 ∧
      ((needed s name attrs).1.prefixForNs name.ns false).isSome = true ∧
      (∀ a ∈ attrs, ((needed s name attrs).1.prefixForNs a.name.ns true).isSome = true) ∧
      ∀ b ∈ (needed s name attrs).2, (b.2 = name.ns ∧ s.prefixForNs name.ns false = none) ∨
        ∃ a ∈ attrs, b.2 = a.name.ns ∧ s.prefixForNs a.name.ns true = none := by
  obtain ⟨new, heq, hext, hfound, hns⟩ := needPrefix_spec (s, []) name.ns false
  obtain ⟨new', heq', hext', hfound', hns'⟩ :=
    needAttrs_spec attrs (needPrefix (s, []) name.ns false)
  have hall : (needed s name attrs).2 = new ++ new' := by
    unfold needed
    rw [heq', heq, List.nil_append]
  rw [hall]
  refine ⟨hext.trans hext', hext'.found hfound, hfound', ?_⟩
  intro b hb
  rcases List.mem_append.1 hb with hb | hb
  · exact Or.inl (hns b hb)
  · obtain ⟨a, ha, heq, hnone⟩ := hns' b hb
    exact Or.inr ⟨a, ha, heq, hext.unfound hnone⟩

/-- A namespace of the tag for which no prefix is found is declared. -/
theorem needed_new {s t : XmlnsStack} {new : List (Str × Str)} (h : Extends s t new) {ns : Str}
    {isAttr : Bool} (hnone : s.prefixForNs ns isAttr = none)
    (hfound : (t.prefixForNs ns isAttr).isSome = true) : ∃ b ∈ new, b.2 = ns := by
  have hs : ¬ (s.prefixForNs ns isAttr).isSome = true := by
    rw [hnone]
    simp
  rw [XmlnsStack.prefixForNs_isSome, not_or] at hs
  rw [XmlnsStack.prefixForNs_isSome] at hfound
  rcases hfound with hattr | ⟨pre, hns, hpre⟩
  · exact absurd hattr hs.1
  · rcases h.added pre ns hns with hold | hnew
    · exact absurd ⟨pre, hold, hpre⟩ hs.2
    · exact ⟨(pre, ns), hnew, rfl⟩

/-- Only the element itself can need a binding of the empty namespace, when it is in none and
no prefix stands for that. -/
theorem needed_empty (s : XmlnsStack) (name : QName) (attrs : List XmlAttr) :
    (∃ b ∈ (needed s name attrs).2, b.2 = []) ↔ name.ns = [] ∧ s.prefixForNs [] false = none := by
  obtain ⟨hext, hfound, -, hnew⟩ := needed_spec s name attrs
  constructor
  · rintro ⟨b, hb, hnil⟩
    rcases hnew b hb with ⟨hname, hnone⟩ | ⟨a, -, hattr, hnone⟩
    · rw [← hname, hnil] at hnone
      exact ⟨hname.symm.trans hnil, hnone⟩
    · -- an attribute without a namespace needs no prefix
      have hsome := (XmlnsStack.prefixForNs_isSome s [] true).2 (Or.inl ⟨rfl, rfl⟩)
      rw [← hattr, hnil] at hnone
      rw [hnone] at hsome
      exact absurd hsome (by simp)
  · rintro ⟨hnil, hnone⟩
    rw [← hnil] at hnone
    obtain ⟨b, hb, hns⟩ := needed_new hext hnone hfound
    exact ⟨b, hb, hns.trans hnil⟩

/-- The declarations among the attributes of an element. -/
def explicit (attrs : List XmlAttr) : List (Str × Str) :=
  attrs.filterMap fun a =>
    if a.name = QN_XMLNS then some ([], a.value)
    else if a.name.ns = NS_XMLNS then some (a.name.localPart, a.value)
    else none

theorem declared_eq (s : XmlnsStack) (attrs : List XmlAttr) :
    declared s attrs = ⟨(explicit attrs).reverse ++ s.bindings, s.depths⟩ := by
  unfold declared
  induction attrs generalizing s with
  | nil => rfl
  | cons a attrs ih =>
    rw [List.foldl_cons, ih]
    unfold explicit
    by_cases hdefault : a.name = QN_XMLNS
    · rw [if_pos hdefault, List.filterMap_cons_some (by rw [if_pos hdefault]), List.reverse_cons,
        List.append_assoc]
      rfl
    · rw [if_neg hdefault]
      by_cases hxmlns : a.name.ns = NS_XMLNS
      · rw [if_pos hxmlns,
          List.filterMap_cons_some (by rw [if_neg hdefault, if_pos hxmlns]), List.reverse_cons,
          List.append_assoc]
        rfl
      · rw [if_neg hxmlns, List.filterMap_cons_none (by rw [if_neg hdefault, if_neg hxmlns])]

/-- The declarations of a tag in both. -/
theorem grown_declared {P : Str → Prop} {s t : XmlnsStack} (h : XmlnsStack.Grown P s t)
    (attrs : List XmlAttr) : XmlnsStack.Grown P (declared s attrs) (declared t attrs) := by
  unfold declared
  induction attrs generalizing s t with
  | nil => exact h
  | cons a attrs ih =>
    rw [List.foldl_cons, List.foldl_cons]
    refine ih ?_
    by_cases hdefault : a.name = QN_XMLNS
    · rw [if_pos hdefault, if_pos hdefault]
      exact h.addXmlns STR_EMPTY a.value
    · rw [if_neg hdefault, if_neg hdefault]
      by_cases hxmlns : a.name.ns = NS_XMLNS
      · rw [if_pos hxmlns, if_pos hxmlns]
        exact h.addXmlns a.name.localPart a.value
      · rw [if_neg hxmlns, if_neg hxmlns]
        exact h

/-- The stack while a tag is written and its children are printed. -/
def tagStack (ns : XmlnsStack) (name : QName) (attrs : List XmlAttr) : XmlnsStack :=
  (needed (declared ns.pushFrame attrs) name attrs).1

/-- The new bindings, those of the attributes, and then those from outside. -/
theorem tagStack_eq (ns : XmlnsStack) (name : QName) (attrs : List XmlAttr) :
    tagStack ns name attrs
      = ⟨(explicit attrs ++ (needed (declared ns.pushFrame attrs) name attrs).2).reverse
          ++ ns.bindings, ns.bindings.length :: ns.depths⟩ := by
  obtain ⟨hext, -⟩ := needed_spec (declared ns.pushFrame attrs) name attrs
  have hdecl := declared_eq ns.pushFrame attrs
  unfold tagStack
  rw [hext.stack, List.reverse_append, List.append_assoc, hdecl]
  rfl

/-- Where the bindings inside a tag come from: the default, an attribute that declares a
prefix, a prefix that was invented, or outside. -/
theorem mem_tagStack {ns : XmlnsStack} {name : QName} {attrs : List XmlAttr} {b : Str × Str}
    (h : b ∈ (tagStack ns name attrs).bindings) :
    b.1 = [] ∨ (∃ a ∈ attrs, a.name.localPart = b.1) ∨ isNCName b.1 = true ∨ b ∈ ns.bindings := by
  obtain ⟨hext, -⟩ := needed_spec (declared ns.pushFrame attrs) name attrs
  rw [tagStack_eq] at h
  rcases List.mem_append.1 h with hin | hout
  · rcases List.mem_append.1 (List.mem_reverse.1 hin) with hexplicit | hnew
    · obtain ⟨a, ha, heq⟩ := List.mem_filterMap.1 hexplicit
      by_cases hdefault : a.name = QN_XMLNS
      · rw [if_pos hdefault] at heq
        rw [← Option.some.inj heq]
        exact Or.inl rfl
      · rw [if_neg hdefault] at heq
        by_cases hxmlns : a.name.ns = NS_XMLNS
        · rw [if_pos hxmlns] at heq
          rw [← Option.some.inj heq]
          exact Or.inr (Or.inl ⟨a, ha, rfl⟩)
        · rw [if_neg hxmlns] at heq
          exact absurd heq (by simp)
    · exact Or.inr (Or.inr (Or.inl (hext.invented b hnew).ncName))
  · exact Or.inr (Or.inr (Or.inr hout))

/-- The bindings of the tag go with its frame. -/
theorem popFrame_tagStack (ns : XmlnsStack) (name : QName) (attrs : List XmlAttr) :
    (tagStack ns name attrs).popFrame = ns := by
  rw [tagStack_eq]
  unfold XmlnsStack.popFrame
  dsimp only
  rw [List.length_append, Nat.add_sub_cancel, List.drop_left]

/-! ## 7. The pieces of the text -/

/-- What `PrintElement` writes: a start tag with the attributes and the declarations it
adds, an end tag, or one of the two kinds of text. -/
inductive Piece where
  | startTag (name : Str) (atts xmlns : List (Str × Str)) (empty : Bool)
  | endTag (name : Str)
  | text (t : Str)
  | cdata (t : Str)

/-- The text of an attribute. -/
def attrText (a : Str × Str) : Str :=
  str " " ++ a.1 ++ str "=\"" ++ printQuotedValue a.2 ++ str "\""

/-- The text of a piece. -/
def Piece.text_ : Piece → Str
  | .startTag name atts xmlns empty =>
    str "<" ++ name ++ atts.flatMap attrText ++ xmlns.flatMap printXmlns
      ++ (if empty then str "/>" else str ">")
  | .endTag name => str "</" ++ name ++ str ">"
  | .text t => printBodyText t
  | .cdata t => printCDATAText t

/-- The start tag of an element. -/
def startPiece (ns : XmlnsStack) (name : QName) (attrs : List XmlAttr) (empty : Bool) : Piece :=
  .startTag ((tagStack ns name attrs).formatQName name false)
    (attrs.map fun a => ((tagStack ns name attrs).formatQName a.name true, a.value))
    (needed (declared ns.pushFrame attrs) name attrs).2 empty

mutual

/-- The pieces of an element. -/
def pieces : XmlnsStack → XmlElement → List Piece
  | ns, ⟨name, attrs, children, cdata⟩ =>
    startPiece ns name attrs children.isEmpty ::
      if children.isEmpty then []
      else childrenPieces (tagStack ns name attrs) cdata children
        ++ [.endTag ((tagStack ns name attrs).formatQName name false)]

/-- The pieces of the children. -/
def childrenPieces : XmlnsStack → Bool → List XmlChild → List Piece
  | _, _, [] => []
  | ns, cdata, c :: cs => childPieces ns cdata c ++ childrenPieces ns cdata cs

/-- The pieces of a child. -/
def childPieces : XmlnsStack → Bool → XmlChild → List Piece
  | _, cdata, .text t => [if cdata then .cdata t else .text t]
  | ns, _, .element e => pieces ns e

end

end XmlPrinter

/-- Induction over the elements of a tree. -/
theorem XmlElement.tree_induction {P : XmlElement → Prop}
    (h : ∀ name attrs children cdata, (∀ e, XmlChild.element e ∈ children → P e) →
      P ⟨name, attrs, children, cdata⟩) (e : XmlElement) : P e := by
  obtain ⟨name, attrs, children, cdata⟩ := e
  refine h name attrs children cdata fun e he => ?_
  have hlt := List.sizeOf_lt_of_mem he
  exact XmlElement.tree_induction h e
termination_by sizeOf e
decreasing_by
  simp only [XmlElement.mk.sizeOf_spec, XmlChild.element.sizeOf_spec] at hlt ⊢
  omega

namespace XmlPrinter

/-- `PrintElement` writes the pieces and leaves the stack as it was. -/
theorem printElement_pieces (ns : XmlnsStack) (e : XmlElement) :
    printElement ns e = ((pieces ns e).flatMap Piece.text_, ns) := by
  induction e using XmlElement.tree_induction generalizing ns with
  | h name attrs children cdata ih =>
    have hchildren : ∀ (cs : List XmlChild) (s : XmlnsStack),
        (∀ c ∈ cs, c ∈ children) →
        printChildren s cdata cs = ((childrenPieces s cdata cs).flatMap Piece.text_, s) := by
      intro cs s hsub
      induction cs generalizing s with
      | nil =>
        unfold printChildren childrenPieces
        rfl
      | cons c cs ihs =>
        have hchild : printChild s cdata c
            = ((childPieces s cdata c).flatMap Piece.text_, s) := by
          rcases c with t | e
          · unfold printChild childPieces
            rcases cdata with _ | _ <;> simp [Piece.text_]
          · unfold printChild childPieces
            exact ih e (hsub _ List.mem_cons_self) s
        rw [printChildren, hchild, childrenPieces, List.flatMap_append]
        dsimp only
        rw [ihs s fun x hx => hsub x (List.mem_cons_of_mem _ hx)]
    have hattrs : attrs.flatMap (printAttr (tagStack ns name attrs))
        = (attrs.map fun a => ((tagStack ns name attrs).formatQName a.name true, a.value)).flatMap
          attrText := by
      rw [List.flatMap_map]
      rfl
    have hpop := popFrame_tagStack ns name attrs
    unfold tagStack at hpop hattrs
    rw [printElement, pieces]
    dsimp only
    rw [hattrs]
    -- an empty tag closes itself; in both cases the frame of the tag is popped
    by_cases hempty : children.isEmpty = true
    · rw [if_pos hempty, if_pos hempty, hempty, hpop]
      simp [Piece.text_, startPiece, tagStack]
    · rw [if_neg hempty, if_neg hempty, hchildren children _ fun c hc => hc]
      dsimp only
      rw [hpop]
      simp [Piece.text_, startPiece, tagStack, hempty]

end XmlPrinter

end Gxmpp
