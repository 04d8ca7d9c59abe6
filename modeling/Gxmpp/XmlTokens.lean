/-
XML 1.0, as far as an element goes: from a text to its tokens.

The productions are those for tags, quoted attribute values, references to the
predefined entities, CDATA sections and character data. They are written as a
machine that reads a byte at a time, so a text that follows another one is read
from the state the other one ends in. A character of the document is a token of
its own: where one run of text ends and the next begins is not markup.

What XML asks beyond the grammar is left out: that the bytes are legal
characters, that no attribute stands twice in a tag and that the tags match, and
the normalisation of line ends and of white space in values.
-/
import Gxmpp.PrinterScope

set_option autoImplicit false

namespace Gxmpp

/-- A token: a tag with the values of its attributes, or a character. -/
inductive XmlToken where
  | startTag (name : Str) (atts : List (Str × Str)) (empty : Bool)
  | endTag (name : Str)
  | char (ch : UInt8)
deriving DecidableEq

/-- The mark around a value. -/
inductive Quote where
  | single
  | double
deriving DecidableEq

/-- The byte of the mark. -/
def Quote.byte : Quote → UInt8
  | .single => 0x27
  | .double => 0x22

/-- A start tag as far as it is read: the name and the attributes. -/
structure OpenTag where
  name : Str
  atts : List (Str × Str)

/-- Where in the grammar the machine is. -/
inductive LexState where
  /-- in character data, after so many closing brackets -/
  | content (brackets : Nat)
  | ref (entity : Str)
  /-- after '<' -/
  | lt
  /-- after "<!" and so many bytes of "[CDATA[" -/
  | bang (read : Nat)
  /-- in a CDATA section, after so many closing brackets that are not yet characters -/
  | cdata (brackets : Nat)
  | endName (name : Str)
  | endSpace (name : Str)
  | name (name : Str)
  | space (t : OpenTag)
  | attName (t : OpenTag) (an : Str)
  | attEq (t : OpenTag) (an : Str)
  | attQuote (t : OpenTag) (an : Str)
  | value (t : OpenTag) (an : Str) (q : Quote) (v : Str)
  | valueRef (t : OpenTag) (an : Str) (q : Quote) (v entity : Str)
  | afterValue (t : OpenTag)
  | slash (t : OpenTag)

/-- A byte that begins a name, which may be the colon. -/
def nameStart (ch : UInt8) : Bool := isNameStart ch || ch == 0x3A

/-- A byte of a name, which may be the colon. -/
def nameByte (ch : UInt8) : Bool := isNameChar ch || ch == 0x3A

/-- White space. -/
def isSpace (ch : UInt8) : Bool := ch == 0x20 || ch == 0x09 || ch == 0x0A || ch == 0x0D

/-- The predefined entities. -/
def entityChar (entity : Str) : Option UInt8 :=
  if entity = str "lt" then some 0x3C
  else if entity = str "gt" then some 0x3E
  else if entity = str "amp" then some 0x26
  else if entity = str "quot" then some 0x22
  else if entity = str "apos" then some 0x27
  else none

namespace LexState

/-- What ends a tag, and the state after white space in it. -/
def closeTag (t : OpenTag) (ch : UInt8) : Option (LexState × List XmlToken) :=
  if isSpace ch then some (.space t, [])
  else if ch = 0x2F then some (.slash t, [])
  else if ch = 0x3E then some (.content 0, [.startTag t.name t.atts false])
  else none

/-- One byte: the next state and the tokens that end with it, or none where the grammar has
no such byte. -/
def step : LexState → UInt8 → Option (LexState × List XmlToken)
  | .content k, ch =>
    if ch = 0x3C then some (.lt, [])
    else if ch = 0x26 then some (.ref [], [])
    else if ch = 0x5D then some (.content (k + 1), [.char ch])
    else if ch = 0x3E ∧ 2 ≤ k then none
    else some (.content 0, [.char ch])
  | .ref entity, ch =>
    if ch = 0x3B then (entityChar entity).map fun c => (.content 0, [.char c])
    else if nameByte ch then some (.ref (entity ++ [ch]), [])
    else none
  | .lt, ch =>
    if ch = 0x2F then some (.endName [], [])
    else if ch = 0x21 then some (.bang 0, [])
    else if nameStart ch then some (.name [ch], [])
    else none
  | .bang i, ch =>
    if (str "[CDATA[")[i]? = some ch then
      some (if i = 6 then .cdata 0 else .bang (i + 1), [])
    else none
  | .cdata k, ch =>
    if ch = 0x5D then some (.cdata (k + 1), [])
    else if ch = 0x3E ∧ 2 ≤ k then some (.content 0, List.replicate (k - 2) (.char 0x5D))
    else some (.cdata 0, List.replicate k (.char 0x5D) ++ [.char ch])
  | .endName n, ch =>
    if n = [] then if nameStart ch then some (.endName [ch], []) else none
    else if nameByte ch then some (.endName (n ++ [ch]), [])
    else if isSpace ch then some (.endSpace n, [])
    else if ch = 0x3E then some (.content 0, [.endTag n])
    else none
  | .endSpace n, ch =>
    if isSpace ch then some (.endSpace n, [])
    else if ch = 0x3E then some (.content 0, [.endTag n])
    else none
  | .name n, ch =>
    if nameByte ch then some (.name (n ++ [ch]), []) else closeTag ⟨n, []⟩ ch
  | .space t, ch =>
    if nameStart ch then some (.attName t [ch], []) else closeTag t ch
  | .attName t an, ch =>
    if nameByte ch then some (.attName t (an ++ [ch]), [])
    else if isSpace ch then some (.attEq t an, [])
    else if ch = 0x3D then some (.attQuote t an, [])
    else none
  | .attEq t an, ch =>
    if isSpace ch then some (.attEq t an, [])
    else if ch = 0x3D then some (.attQuote t an, [])
    else none
  | .attQuote t an, ch =>
    if isSpace ch then some (.attQuote t an, [])
    else if ch = Quote.double.byte then some (.value t an .double [], [])
    else if ch = Quote.single.byte then some (.value t an .single [], [])
    else none
  | .value t an q v, ch =>
    if ch = q.byte then some (.afterValue { t with atts := t.atts ++ [(an, v)] }, [])
    else if ch = 0x3C then none
    else if ch = 0x26 then some (.valueRef t an q v [], [])
    else some (.value t an q (v ++ [ch]), [])
  | .valueRef t an q v entity, ch =>
    if ch = 0x3B then (entityChar entity).map fun c => (.value t an q (v ++ [c]), [])
    else if nameByte ch then some (.valueRef t an q v (entity ++ [ch]), [])
    else none
  | .afterValue t, ch => closeTag t ch
  | .slash t, ch =>
    if ch = 0x3E then some (.content 0, [.startTag t.name t.atts true]) else none

/-- The bytes of a text, from a state. -/
def run : LexState → Str → Option (LexState × List XmlToken)
  | σ, [] => some (σ, [])
  | σ, ch :: text =>
    match step σ ch with
    | none => none
    | some (σ', ts) => (run σ' text).map fun r => (r.1, ts ++ r.2)

end LexState

/-- The tokens of a text, if it is in the grammar. -/
def tokenise (text : Str) : Option (List XmlToken) :=
  match LexState.run (.content 0) text with
  | some (.content _, ts) => some ts
  | _ => none

namespace LexState

/-! ## 1. Runs -/

variable {ch : UInt8} {ts : List XmlToken} {σ σ' τ : LexState} {text a n an : Str} {t : OpenTag}
  {k : Nat}

theorem run_cons (h : step σ ch = some (σ', ts)) (text : Str) :
    run σ (ch :: text) = (run σ' text).map fun r => (r.1, ts ++ r.2) := by
  rw [run, h]

/-- A byte that ends no token. -/
theorem run_quiet (h : step σ ch = some (σ', [])) (text : Str) :
    run σ (ch :: text) = run σ' text := by
  rw [run_cons h]
  simp

theorem run_fails (h : step σ ch = none) (text : Str) : run σ (ch :: text) = none := by
  rw [run, h]

/-- What a run says of its first byte and of the rest. -/
theorem run_cons_some (h : run σ (ch :: text) = some (τ, ts)) :
    ∃ σ' ts₁ ts₂, step σ ch = some (σ', ts₁) ∧ run σ' text = some (τ, ts₂) ∧ ts = ts₁ ++ ts₂ := by
  rw [run] at h
  rcases hstep : step σ ch with _ | ⟨σ', ts₁⟩
  · rw [hstep] at h
    exact absurd h (by simp)
  · rw [hstep] at h
    obtain ⟨⟨τ', ts₂⟩, hrun, heq⟩ := Option.map_eq_some_iff.1 h
    obtain ⟨rfl, rfl⟩ := Prod.mk.inj heq
    exact ⟨σ', ts₁, ts₂, rfl, hrun, rfl⟩

/-- A text that follows another one. -/
theorem run_append (h : run σ a = some (σ', ts)) (b : Str) :
    run σ (a ++ b) = (run σ' b).map fun r => (r.1, ts ++ r.2) := by
  induction a generalizing σ ts with
  | nil =>
    obtain ⟨rfl, rfl⟩ := Prod.mk.inj (Option.some.inj h)
    simp
  | cons ch a ih =>
    obtain ⟨σ₁, ts₁, ts₂, hstep, hrun, rfl⟩ := run_cons_some h
    rw [List.cons_append, run_cons hstep, ih hrun, Option.map_map]
    congr 1
    funext r
    simp

theorem run_append_some {b : Str} (h : run σ (a ++ b) = some (τ, ts)) :
    ∃ σ' ts₁ ts₂, run σ a = some (σ', ts₁) ∧ run σ' b = some (τ, ts₂) ∧ ts = ts₁ ++ ts₂ := by
  induction a generalizing σ ts with
  | nil => exact ⟨σ, [], ts, rfl, h, rfl⟩
  | cons ch a ih =>
    rw [List.cons_append] at h
    obtain ⟨σ₁, ts₁, ts₂, hstep, hrun, rfl⟩ := run_cons_some h
    obtain ⟨σ₂, ts₃, ts₄, hrun₁, hrun₂, rfl⟩ := ih hrun
    refine ⟨σ₂, ts₁ ++ ts₃, ts₄, ?_, hrun₂, (List.append_assoc _ _ _).symm⟩
    rw [run_cons hstep, hrun₁]
    rfl

/-- A text that ends no token, followed by another one. -/
theorem run_append_quiet (h : run σ a = some (σ', [])) (b : Str) : run σ (a ++ b) = run σ' b := by
  rw [run_append h]
  simp

/-! ## 2. Names and tags -/

/-- A name of the grammar. -/
def IsName : Str → Prop
  | [] => False
  | ch :: rest => nameStart ch = true ∧ ∀ c ∈ rest, nameByte c = true

theorem IsName.ne_nil {s : Str} (h : IsName s) : s ≠ [] := by
  rintro rfl
  exact h

/-- The rest of a name, in a state that collects one. -/
theorem run_names (collect : Str → LexState) (hstep : ∀ n ch, n ≠ [] → nameByte ch = true →
    step (collect n) ch = some (collect (n ++ [ch]), [])) {rest : Str} (hn : n ≠ [])
    (hrest : ∀ ch ∈ rest, nameByte ch = true) :
    run (collect n) rest = some (collect (n ++ rest), []) := by
  induction rest generalizing n with
  | nil => rw [run, List.append_nil]
  | cons ch rest ih =>
    rw [run_quiet (hstep n ch hn (hrest ch List.mem_cons_self)),
      ih (by simp) fun c hc => hrest c (List.mem_cons_of_mem _ hc), List.append_assoc]
    rfl

/-- A state in which a tag may go on with an attribute or end. -/
def Closes (σ : LexState) (t : OpenTag) : Prop :=
  ∀ ch, ch = 0x20 ∨ ch = 0x2F ∨ ch = 0x3E → step σ ch = closeTag t ch

theorem closes_name (n : Str) : Closes (.name n) ⟨n, []⟩ := by
  rintro ch (rfl | rfl | rfl)
  · rfl
  · rfl
  · rfl

theorem closes_afterValue (t : OpenTag) : Closes (.afterValue t) t := fun _ _ => rfl

/-- The name of a start tag. -/
theorem run_startName (k : Nat) (hn : IsName n) :
    run (.content k) (str "<" ++ n) = some (.name n, []) := by
  rcases n with _ | ⟨ch, rest⟩
  · exact absurd rfl hn.ne_nil
  · obtain ⟨hch, hrest⟩ := hn
    have hslash : ch ≠ 0x2F := by
      rintro rfl
      exact absurd hch (by decide)
    have hbang : ch ≠ 0x21 := by
      rintro rfl
      exact absurd hch (by decide)
    have hlt : step (.content k) 0x3C = some (.lt, []) := rfl
    have hfirst : step .lt ch = some (.name [ch], []) := by
      rw [step, if_neg hslash, if_neg hbang, if_pos hch]
    show run (.content k) (0x3C :: ch :: rest) = _
    rw [run_quiet hlt, run_quiet hfirst,
      run_names LexState.name (fun n ch _ h => if_pos h) (by simp) hrest]
    rfl

/-- An attribute up to its value. -/
theorem run_attName (hσ : Closes σ t) (hn : IsName an) :
    run σ (str " " ++ an ++ str "=\"") = some (.value t an .double [], []) := by
  rcases an with _ | ⟨ch, rest⟩
  · exact absurd rfl hn.ne_nil
  · obtain ⟨hch, hrest⟩ := hn
    have hspace : step σ 0x20 = some (.space t, []) := hσ 0x20 (Or.inl rfl)
    have hfirst : step (.space t) ch = some (.attName t [ch], []) := if_pos hch
    have hname : run (.attName t [ch]) rest = some (.attName t (ch :: rest), []) :=
      run_names (LexState.attName t) (fun n ch _ h => if_pos h) (by simp) hrest
    have htail : run (.attName t (ch :: rest)) (str "=\"")
      = some (.value t (ch :: rest) .double [], []) :=
      rfl
    rw [List.append_assoc]
    show run σ (0x20 :: ch :: (rest ++ str "=\"")) = _
    rw [run_quiet hspace, run_quiet hfirst, run_append_quiet hname, htail]

/-- The end of a start tag. -/
theorem run_closeTag (hσ : Closes σ t) (empty : Bool) :
    run σ (if empty then str "/>" else str ">")
      = some (.content 0, [.startTag t.name t.atts empty]) := by
  rcases empty with _ | _
  · have hend : step σ 0x3E = some (.content 0, [.startTag t.name t.atts false]) :=
      hσ 0x3E (Or.inr (Or.inr rfl))
    show run σ [0x3E] = _
    rw [run_cons hend]
    rfl
  · have hslash : step σ 0x2F = some (.slash t, []) := hσ 0x2F (Or.inr (Or.inl rfl))
    show run σ [0x2F, 0x3E] = _
    rw [run_quiet hslash]
    rfl

/-- An end tag. -/
theorem run_endTag (k : Nat) (hn : IsName n) :
    run (.content k) (str "</" ++ n ++ str ">") = some (.content 0, [.endTag n]) := by
  rcases n with _ | ⟨ch, rest⟩
  · exact absurd rfl hn.ne_nil
  · obtain ⟨hch, hrest⟩ := hn
    have hlt : step (.content k) 0x3C = some (.lt, []) := rfl
    have hslash : step .lt 0x2F = some (.endName [], []) := rfl
    have hfirst : step (.endName []) ch = some (.endName [ch], []) := by
      rw [step, if_pos rfl, if_pos hch]
    have hname : run (.endName [ch]) rest = some (.endName (ch :: rest), []) :=
      run_names LexState.endName
        (fun n ch hn h => by rw [step, if_neg hn, if_pos h]) (by simp) hrest
    rw [List.append_assoc]
    show run (.content k) (0x3C :: 0x2F :: ch :: (rest ++ str ">")) = _
    rw [run_quiet hlt, run_quiet hslash, run_quiet hfirst, run_append_quiet hname]
    rfl

/-! ## 3. Values -/

/-- A text with nothing that a value between double marks may not contain as it is. -/
def cleanValue (v : Str) : Bool := v.all fun ch => ch ≠ 0x22 && ch ≠ 0x3C && ch ≠ 0x26

theorem step_value (t : OpenTag) (an v : Str) (ch : UInt8) :
    step (.value t an .double v) ch =
      if ch = 0x22 then some (.afterValue { t with atts := t.atts ++ [(an, v)] }, [])
      else if ch = 0x3C then none
      else if ch = 0x26 then some (.valueRef t an .double v [], [])
      else some (.value t an .double (v ++ [ch]), []) := rfl

/-- A clean text is read as a value as it is. -/
theorem run_cleanValue (t : OpenTag) (an v : Str) {w : Str} (h : cleanValue w = true) :
    run (.value t an .double v) w = some (.value t an .double (v ++ w), []) := by
  induction w generalizing v with
  | nil => rw [run, List.append_nil]
  | cons ch w ih =>
    unfold cleanValue at h
    rw [List.all_cons, Bool.and_eq_true] at h
    obtain ⟨hch, hw⟩ := h
    simp only [Bool.and_eq_true, decide_eq_true_eq] at hch
    have hstep : step (.value t an .double v) ch
      = some (.value t an .double (v ++ [ch]), []) := by
      rw [step_value, if_neg hch.1.1, if_neg hch.1.2, if_neg hch.2]
    rw [run_quiet hstep, ih (v ++ [ch]) hw, List.append_assoc]
    rfl

/-- The states of a start tag whose name has been read, with what has been read of it. -/
def opened : LexState → Option OpenTag
  | .space t => some t
  | .attName t _ => some t
  | .attEq t _ => some t
  | .attQuote t _ => some t
  | .value t _ _ _ => some t
  | .valueRef t _ _ _ _ => some t
  | .afterValue t => some t
  | .slash t => some t
  | _ => none

/-- Such a tag goes on with its attributes, or ends with them. -/
theorem step_opened (hσ : opened σ = some t) (h : step σ ch = some (σ', ts)) :
    (ts = [] ∧ ∃ t', opened σ' = some t' ∧ t'.name = t.name ∧ t.atts <+: t'.atts) ∨
      (σ' = .content 0 ∧ ∃ empty, ts = [.startTag t.name t.atts empty]) := by
  -- the step stays inside the tag and adds nothing
  have hsame : ∀ {τ : LexState}, opened τ = some t →
    some (τ, ([] : List XmlToken)) = some (σ', ts) →
      (ts = [] ∧ ∃ t', opened σ' = some t' ∧ t'.name = t.name ∧ t.atts <+: t'.atts) ∨
        (σ' = .content 0 ∧ ∃ empty, ts = [.startTag t.name t.atts empty]) := by
    intro τ hτ heq
    obtain ⟨rfl, rfl⟩ := Prod.mk.inj (Option.some.inj heq)
    exact Or.inl ⟨rfl, t, hτ, rfl, List.prefix_refl _⟩
  -- after a name or a value: blanks, '/' or '>'
  have hclose : closeTag t ch = some (σ', ts) →
      (ts = [] ∧ ∃ t', opened σ' = some t' ∧ t'.name = t.name ∧ t.atts <+: t'.atts) ∨
        (σ' = .content 0 ∧ ∃ empty, ts = [.startTag t.name t.atts empty]) := by
    intro hc
    unfold closeTag at hc
    split_ifs at hc
    · exact hsame rfl hc
    · exact hsame rfl hc
    · obtain ⟨rfl, rfl⟩ := Prod.mk.inj (Option.some.inj hc)
      exact Or.inr ⟨rfl, false, rfl⟩
  cases σ with
  | space u =>
    obtain rfl := Option.some.inj hσ
    rw [step] at h
    split_ifs at h
    · exact hsame rfl h
    · exact hclose h
  | attName | attQuote =>
    obtain rfl := Option.some.inj hσ
    rw [step] at h
    split_ifs at h <;> exact hsame rfl h
  | attEq u an =>
    obtain rfl := Option.some.inj hσ
    rw [step] at h
    split_ifs at h <;> exact hsame rfl h
  -- only the end of a value adds an attribute
  | value u an q v =>
    obtain rfl := Option.some.inj hσ
    rw [step] at h
    split_ifs at h
    · obtain ⟨rfl, rfl⟩ := Prod.mk.inj (Option.some.inj h)
      exact Or.inl ⟨rfl, _, rfl, rfl, List.prefix_append _ _⟩
    · exact hsame rfl h
    · exact hsame rfl h
  | valueRef u an q v entity =>
    obtain rfl := Option.some.inj hσ
    rw [step] at h
    split_ifs at h
    · obtain ⟨c, -, heq⟩ := Option.map_eq_some_iff.1 h
      exact hsame rfl (congrArg some heq)
    · exact hsame rfl h
  | afterValue u =>
    obtain rfl := Option.some.inj hσ
    exact hclose h
  | slash u =>
    obtain rfl := Option.some.inj hσ
    rw [step] at h
    split_ifs at h
    obtain ⟨rfl, rfl⟩ := Prod.mk.inj (Option.some.inj h)
    exact Or.inr ⟨rfl, true, rfl⟩
  | _ => cases hσ

/-- The first token of a tag that has been opened is that tag, with all its attributes. -/
theorem run_opened (hσ : opened σ = some t) (h : run σ text = some (τ, ts)) :
    ts = [] ∨ ∃ atts empty rest, ts = .startTag t.name atts empty :: rest ∧ t.atts <+: atts := by
  induction text generalizing σ t ts with
  | nil =>
    obtain ⟨-, rfl⟩ := Prod.mk.inj (Option.some.inj h)
    exact Or.inl rfl
  | cons ch text ih =>
    obtain ⟨σ', ts₁, ts₂, hstep, hrun, rfl⟩ := run_cons_some h
    rcases step_opened hσ hstep with ⟨rfl, t', hσ', hname, hatts⟩ | ⟨-, empty, rfl⟩
    · rcases ih hσ' hrun with rfl | ⟨atts, empty, rest, rfl, hpre⟩
      · exact Or.inl rfl
      · refine Or.inr ⟨atts, empty, rest, ?_, hatts.trans hpre⟩
        rw [List.nil_append, hname]
    · exact Or.inr ⟨t.atts, empty, ts₂, rfl, List.prefix_refl _⟩

/-- The first token, if there is one, is the tag with one more attribute, whose value has fewer
than `n` bytes, and perhaps others after it. -/
def ReadsValue (t : OpenTag) (an : Str) (n : Nat) (ts : List XmlToken) : Prop :=
  ts = [] ∨ ∃ v atts empty rest, ts = .startTag t.name atts empty :: rest ∧
    (t.atts ++ [(an, v)]) <+: atts ∧ v.length < n

theorem ReadsValue.mono {m n : Nat} (h : ReadsValue t an m ts) (hle : m ≤ n) :
    ReadsValue t an n ts := by
  rcases h with rfl | ⟨v, atts, empty, rest, rfl, hpre, hlt⟩
  · exact Or.inl rfl
  · exact Or.inr ⟨v, atts, empty, rest, rfl, hpre, Nat.lt_of_lt_of_le hlt hle⟩

/-- A mark ends the value with what has been read of it. -/
theorem run_value_mark {v : Str} (h : run (.value t an .double v) (0x22 :: text) = some (τ, ts)) :
    ReadsValue t an (v.length + 1) ts := by
  have hstep : step (.value t an .double v) 0x22
      = some (.afterValue { t with atts := t.atts ++ [(an, v)] }, []) := rfl
  rw [run_quiet hstep] at h
  rcases run_opened (t := { t with atts := t.atts ++ [(an, v)] }) rfl h with
    rfl | ⟨atts, empty, ts', rfl, hpre⟩
  · exact Or.inl rfl
  · exact Or.inr ⟨v, atts, empty, ts', rfl, hpre, Nat.lt_succ_self _⟩

/-- The value that is read from a text between double marks is no longer than the text, and
shorter if the text is not clean: it ends at a mark in the text, or a reference in it
stands for one character. -/
theorem run_value_length (t : OpenTag) (an : Str) (rest : Str) (w : Str) :
    (∀ v τ ts, run (.value t an .double v) (w ++ 0x22 :: rest) = some (τ, ts) →
      ReadsValue t an (v.length + w.length + 1) ts ∧
        (cleanValue w = false → ReadsValue t an (v.length + w.length) ts)) ∧
    (∀ v entity τ ts, run (.valueRef t an .double v entity) (w ++ 0x22 :: rest) = some (τ, ts) →
      ReadsValue t an (v.length + w.length + 1) ts) := by
  induction w with
  -- the text is over, and the mark after it ends the value
  | nil =>
    refine ⟨?_, ?_⟩
    · intro v τ ts h
      exact ⟨run_value_mark h, fun hd => absurd hd (by decide)⟩
    · intro v entity τ ts h
      have hstep : step (.valueRef t an .double v entity) 0x22 = none := rfl
      rw [List.nil_append, run_fails hstep] at h
      exact absurd h (by simp)
  | cons ch w ih =>
    obtain ⟨ihValue, ihRef⟩ := ih
    refine ⟨?_, ?_⟩
    · intro v τ ts h
      rw [List.cons_append] at h
      rw [List.length_cons]
      -- a mark ends the value early, '<' fails, '&' begins a reference, any other is taken
      by_cases hquote : ch = 0x22
      · rw [hquote] at h
        have hread := run_value_mark h
        exact ⟨hread.mono (by omega), fun _ => hread.mono (by omega)⟩
      · obtain ⟨σ', ts₁, ts₂, hstep, hrun, rfl⟩ := run_cons_some h
        rw [step_value, if_neg hquote] at hstep
        split_ifs at hstep with hlt hamp
        · obtain ⟨rfl, rfl⟩ := Prod.mk.inj (Option.some.inj hstep)
          have hread := ihRef v [] τ ts₂ hrun
          exact ⟨hread.mono (by omega), fun _ => hread.mono (by omega)⟩
        · obtain ⟨rfl, rfl⟩ := Prod.mk.inj (Option.some.inj hstep)
          obtain ⟨hread, hshort⟩ := ihValue (v ++ [ch]) τ ts₂ hrun
          rw [List.length_append, List.length_singleton] at hread hshort
          refine ⟨hread.mono (by omega), fun hd => ?_⟩
          have hdw : cleanValue w = false := by
            unfold cleanValue at hd ⊢
            rw [List.all_cons] at hd
            simpa [hquote, hlt, hamp] using hd
          exact (hshort hdw).mono (by omega)
    · intro v entity τ ts h
      rw [List.cons_append] at h
      rw [List.length_cons]
      obtain ⟨σ', ts₁, ts₂, hstep, hrun, rfl⟩ := run_cons_some h
      rw [step] at hstep
      split_ifs at hstep with hsemi hbyte
      -- ';' ends the reference, which stands for one character and had at least two
      · obtain ⟨c, -, heq⟩ := Option.map_eq_some_iff.1 hstep
        obtain ⟨rfl, rfl⟩ := Prod.mk.inj heq
        obtain ⟨hread, -⟩ := ihValue (v ++ [c]) τ ts₂ hrun
        rw [List.length_append, List.length_singleton] at hread
        exact hread.mono (by omega)
      · obtain ⟨rfl, rfl⟩ := Prod.mk.inj (Option.some.inj hstep)
        exact (ihRef v (entity ++ [ch]) τ ts₂ hrun).mono (by omega)

/-! ## 4. What is no character -/

/-- A token that is markup. -/
def IsMarkup (tok : XmlToken) : Prop := ∀ ch, tok ≠ .char ch

/-- The states in a tag: the next token is the tag. -/
def inTag : LexState → Bool
  | .endName _ => true
  | .endSpace _ => true
  | .name _ => true
  | σ => (opened σ).isSome

theorem step_inTag (hσ : inTag σ = true) (h : step σ ch = some (σ', ts)) :
    (ts = [] ∧ inTag σ' = true) ∨ (σ' = .content 0 ∧ ∃ tok, ts = [tok] ∧ IsMarkup tok) := by
  -- the states of an opened tag are settled by `step_opened`
  have hopened : ∀ {t : OpenTag}, opened σ = some t →
      (ts = [] ∧ inTag σ' = true) ∨ (σ' = .content 0 ∧ ∃ tok, ts = [tok] ∧ IsMarkup tok) := by
    intro t hσ
    rcases step_opened hσ h with ⟨rfl, t', hσ', -, -⟩ | ⟨hend, empty, rfl⟩
    · refine Or.inl ⟨rfl, ?_⟩
      unfold inTag
      split
      · rfl
      · rfl
      · rfl
      · rw [hσ']
        rfl
    · exact Or.inr ⟨hend, _, rfl, fun ch => by simp⟩
  have hsame : ∀ {τ : LexState}, inTag τ = true → some (τ, ([] : List XmlToken)) = some (σ', ts) →
      (ts = [] ∧ inTag σ' = true) ∨ (σ' = .content 0 ∧ ∃ tok, ts = [tok] ∧ IsMarkup tok) := by
    intro τ hτ heq
    obtain ⟨rfl, rfl⟩ := Prod.mk.inj (Option.some.inj heq)
    exact Or.inl ⟨rfl, hτ⟩
  have htag : ∀ {tok : XmlToken}, IsMarkup tok → some (content 0, [tok]) = some (σ', ts) →
      (ts = [] ∧ inTag σ' = true) ∨ (σ' = .content 0 ∧ ∃ tok, ts = [tok] ∧ IsMarkup tok) := by
    intro tok htok heq
    obtain ⟨rfl, rfl⟩ := Prod.mk.inj (Option.some.inj heq)
    exact Or.inr ⟨rfl, tok, rfl, htok⟩
  cases σ with
  | endName n =>
    rw [step] at h
    split_ifs at h
    · exact hsame rfl h
    · exact hsame rfl h
    · exact hsame rfl h
    · exact htag (fun ch => by simp) h
  | endSpace n =>
    rw [step] at h
    split_ifs at h
    · exact hsame rfl h
    · exact htag (fun ch => by simp) h
  | name n =>
    rw [step, closeTag] at h
    split_ifs at h
    · exact hsame rfl h
    · exact hsame rfl h
    · exact hsame rfl h
    · exact htag (fun ch => by simp) h
  | space | attName | attEq | attQuote | value | valueRef | afterValue | slash => exact hopened rfl
  | _ => cases hσ

/-- In a tag the next token is no character. -/
theorem run_inTag (hσ : inTag σ = true) (h : run σ text = some (τ, ts)) :
    (ts = [] ∧ inTag τ = true) ∨ ∃ tok rest, ts = tok :: rest ∧ IsMarkup tok := by
  induction text generalizing σ ts with
  | nil =>
    obtain ⟨rfl, rfl⟩ := Prod.mk.inj (Option.some.inj h)
    exact Or.inl ⟨rfl, hσ⟩
  | cons ch text ih =>
    obtain ⟨σ', ts₁, ts₂, hstep, hrun, rfl⟩ := run_cons_some h
    rcases step_inTag hσ hstep with ⟨rfl, hσ'⟩ | ⟨-, tok, rfl, htok⟩
    · exact ih hσ' hrun
    · exact Or.inr ⟨tok, ts₂, rfl, htok⟩

/-! ## 5. CDATA sections -/

/-- A closing bracket. -/
def bracket : UInt8 := 0x5D

/-- The end of a CDATA section. -/
def CDATA_END : Str := str "]]>"

theorem step_cdata (k : Nat) (ch : UInt8) :
    step (.cdata k) ch =
      if ch = bracket then some (.cdata (k + 1), [])
      else if ch = 0x3E ∧ 2 ≤ k then
        some (.content 0, (List.replicate (k - 2) bracket).map XmlToken.char)
      else some (.cdata 0, (List.replicate k bracket ++ [ch]).map XmlToken.char) := by
  rw [List.map_append, List.map_replicate, List.map_replicate]
  rfl

theorem run_cdataStart (k : Nat) (text : Str) :
    run (.content k) (str "<![CDATA[" ++ text) = run (.cdata 0) text :=
  run_append_quiet rfl text

/-- The end of a section after some brackets. -/
theorem run_cdataEnd (k : Nat) :
    run (.cdata k) CDATA_END = some (.content 0, (List.replicate k bracket).map XmlToken.char) := by
  have hopen : ∀ j, step (.cdata j) bracket = some (.cdata (j + 1), []) := fun _ => rfl
  have hclose : step (.cdata (k + 2)) 0x3E
      = some (.content 0, (List.replicate k bracket).map XmlToken.char) := by
    rw [step_cdata, if_neg (by decide), if_pos ⟨rfl, by omega⟩]
    rfl
  show run (.cdata k) [bracket, bracket, 0x3E] = _
  rw [run_quiet (hopen k), run_quiet (hopen (k + 1)), run_cons hclose]
  simp [run]

/-- Brackets before a text do not make an end appear in what follows them. -/
theorem infix_replicate (h : CDATA_END <:+: text) :
    CDATA_END <:+: List.replicate k bracket ++ ch :: text := by
  obtain ⟨a, b, rfl⟩ := h
  exact ⟨List.replicate k bracket ++ ch :: a, b, by simp⟩

/-- A section without an end in it is read as it is. -/
theorem run_cleanCdata {d : Str} (h : ¬ CDATA_END <:+: List.replicate k bracket ++ d) :
    run (.cdata k) (d ++ CDATA_END)
      = some (.content 0, (List.replicate k bracket ++ d).map XmlToken.char) := by
  induction d generalizing k with
  | nil => rw [List.nil_append, List.append_nil, run_cdataEnd]
  | cons ch d ih =>
    rw [List.cons_append]
    by_cases hbracket : ch = bracket
    · -- one bracket more is waiting
      have hmore : List.replicate k bracket ++ ch :: d = List.replicate (k + 1) bracket ++ d := by
        rw [List.replicate_succ', List.append_assoc, hbracket]
        rfl
      have hstep : step (.cdata k) ch = some (.cdata (k + 1), []) := if_pos hbracket
      rw [hmore] at h ⊢
      rw [run_quiet hstep, ih h]
    · by_cases hend : ch = 0x3E ∧ 2 ≤ k
      · refine absurd ?_ h
        obtain ⟨rfl, hk⟩ := hend
        refine ⟨List.replicate (k - 2) bracket, d, ?_⟩
        have hsplit : List.replicate k bracket
            = List.replicate (k - 2) bracket ++ [bracket, bracket] := by
          have hk' : k = k - 2 + 2 := by omega
          rw [hk', List.replicate_add, Nat.add_sub_cancel]
          rfl
        rw [hsplit]
        show _ ++ [bracket, bracket, 0x3E] ++ d = _
        simp
      · have hstep : step (.cdata k) ch
            = some (.cdata 0, (List.replicate k bracket ++ [ch]).map XmlToken.char) := by
          rw [step_cdata, if_neg hbracket, if_neg hend]
        rw [run_cons hstep, ih (k := 0) fun hin => h (infix_replicate hin)]
        simp

/-- An end in a text that begins with brackets and a byte that does not make one with them
is an end in what follows. -/
theorem infix_after (hbracket : ch ≠ bracket) (hclose : ¬ (ch = 0x3E ∧ 2 ≤ k))
    (h : CDATA_END <:+: List.replicate k bracket ++ ch :: text) : CDATA_END <:+: text := by
  induction k with
  | zero =>
    rw [List.replicate_zero, List.nil_append, List.infix_cons_iff] at h
    rcases h with hpre | hin
    · obtain ⟨rest, hrest⟩ := hpre
      exact absurd (List.cons.inj hrest).1.symm hbracket
    · exact hin
  | succ k ih =>
    rw [List.replicate_succ, List.cons_append, List.infix_cons_iff] at h
    rcases h with hpre | hin
    · -- the end would take two brackets and the byte
      obtain ⟨rest, hrest⟩ := hpre
      rcases k with _ | _ | k
      · exact absurd (List.cons.inj (List.cons.inj hrest).2).1.symm hbracket
      · have hthird := (List.cons.inj (List.cons.inj (List.cons.inj hrest).2).2).1
        exact absurd ⟨hthird.symm, Nat.le_refl 2⟩ hclose
      · have hthird := (List.cons.inj (List.cons.inj (List.cons.inj hrest).2).2).1
        exact absurd hthird (by decide)
    · exact ih (fun hk => hclose ⟨hk.1, by omega⟩) hin

/-- The brackets that are not yet characters. -/
def pending : LexState → Nat
  | .cdata k => k
  | _ => 0

theorem pending_inTag (h : inTag σ = true) : pending σ = 0 := by
  cases σ with
  | cdata k => exact absurd h (by simp [inTag, opened])
  | _ => rfl

/-- A byte makes one more token at most. -/
theorem step_length (h : step σ ch = some (σ', ts)) : ts.length + pending σ' ≤ pending σ + 1 := by
  have hone : ∀ {τ : LexState} {us : List XmlToken}, us.length + pending τ ≤ pending σ + 1 →
      some (τ, us) = some (σ', ts) → ts.length + pending σ' ≤ pending σ + 1 := by
    intro τ us hle heq
    obtain ⟨rfl, rfl⟩ := Prod.mk.inj (Option.some.inj heq)
    exact hle
  by_cases hin : inTag σ = true
  · rcases step_inTag hin h with ⟨rfl, hσ'⟩ | ⟨rfl, tok, rfl, -⟩
    · rw [pending_inTag hσ']
      exact Nat.zero_le _
    · exact Nat.le_add_left 1 _
  · cases σ with
    | cdata k =>
      rw [step_cdata] at h
      split_ifs at h
      · exact hone (by simp [pending]) h
      · exact hone (by simp [pending]; omega) h
      · exact hone (by simp [pending]) h
    | content k =>
      rw [step] at h
      split_ifs at h <;> exact hone (by simp [pending]) h
    | bang i =>
      rw [step] at h
      split_ifs at h <;> exact hone (by simp [pending]) h
    | ref entity =>
      rw [step] at h
      split_ifs at h
      · obtain ⟨c, -, heq⟩ := Option.map_eq_some_iff.1 h
        exact hone (by simp [pending]) (congrArg some heq)
      · exact hone (by simp [pending]) h
    | lt =>
      rw [step] at h
      split_ifs at h <;> exact hone (by simp [pending]) h
    | _ => exact absurd rfl hin

/-- A text makes no more tokens than it has bytes. -/
theorem run_length (h : run σ text = some (τ, ts)) :
    ts.length + pending τ ≤ pending σ + text.length := by
  induction text generalizing σ ts with
  | nil =>
    obtain ⟨rfl, rfl⟩ := Prod.mk.inj (Option.some.inj h)
    simp
  | cons ch text ih =>
    obtain ⟨σ', ts₁, ts₂, hstep, hrun, rfl⟩ := run_cons_some h
    have h₁ := step_length hstep
    have h₂ := ih hrun
    rw [List.length_append, List.length_cons]
    omega

/-- A section with an end in it makes fewer tokens than it has bytes. -/
theorem run_dirtyCdata {d : Str} (h : run (.cdata k) d = some (τ, ts))
    (hend : CDATA_END <:+: List.replicate k bracket ++ d) :
    ts.length + pending τ < k + d.length := by
  induction d generalizing k ts with
  | nil =>
    -- there is no end among brackets
    rw [List.append_nil] at hend
    have hmem : (0x3E : UInt8) ∈ List.replicate k bracket := hend.subset (by decide)
    exact absurd (List.eq_of_mem_replicate hmem) (by decide)
  | cons ch d ih =>
    obtain ⟨σ', ts₁, ts₂, hstep, hrun, rfl⟩ := run_cons_some h
    have hlen := run_length hrun
    rw [step_cdata] at hstep
    rw [List.length_append, List.length_cons]
    by_cases hbracket : ch = bracket
    · rw [if_pos hbracket] at hstep
      obtain ⟨rfl, rfl⟩ := Prod.mk.inj (Option.some.inj hstep)
      have hmore : List.replicate k bracket ++ ch :: d = List.replicate (k + 1) bracket ++ d := by
        rw [List.replicate_succ', List.append_assoc, hbracket]
        rfl
      rw [hmore] at hend
      have hshort := ih hrun hend
      rw [List.length_nil]
      omega
    · rw [if_neg hbracket] at hstep
      by_cases hclose : ch = 0x3E ∧ 2 ≤ k
      · rw [if_pos hclose] at hstep
        obtain ⟨rfl, rfl⟩ := Prod.mk.inj (Option.some.inj hstep)
        rw [List.length_map, List.length_replicate]
        unfold pending at hlen ⊢
        dsimp only at hlen
        omega
      · rw [if_neg hclose] at hstep
        obtain ⟨rfl, rfl⟩ := Prod.mk.inj (Option.some.inj hstep)
        have hrest : CDATA_END <:+: d := infix_after hbracket hclose hend
        have hshort := ih (k := 0) hrun (by simpa using hrest)
        rw [List.length_map, List.length_append, List.length_replicate, List.length_singleton]
        omega

/-- A closing bracket is read in content, in a section and in a value only. -/
theorem step_bracket (σ : LexState) :
    step σ bracket = none ∨ (∃ k, σ = .content k) ∨ (∃ k, σ = .cdata k) ∨
      ∃ t an q v, σ = .value t an q v := by
  cases σ with
  | content k => exact Or.inr (Or.inl ⟨k, rfl⟩)
  | cdata k => exact Or.inr (Or.inr (Or.inl ⟨k, rfl⟩))
  | value t an q v => exact Or.inr (Or.inr (Or.inr ⟨t, an, q, v, rfl⟩))
  | bang i =>
    left
    rw [step, if_neg]
    intro hget
    have hmem := List.mem_of_getElem? hget
    exact absurd hmem (by decide)
  | endName n =>
    left
    by_cases hn : n = []
    · rw [hn]
      rfl
    · rw [step, if_neg hn]
      rfl
  | _ => exact Or.inl rfl

/-- After the three bytes of the end of a section the machine is in content again, or in a
value. -/
theorem run_end (h : run σ CDATA_END = some (τ, ts)) :
    ts.length = pending σ ∧ (τ = .content 0 ∨ (inTag τ = true ∧ ts = [])) := by
  rcases step_bracket σ with hnone | ⟨k, rfl⟩ | ⟨k, rfl⟩ | ⟨t, an, q, v, rfl⟩
  · have hfail : run σ CDATA_END = none := run_fails hnone _
    rw [hfail] at h
    exact absurd h (by simp)
  · -- "]]>" is no character data
    have hfirst : step (.content k) bracket = some (.content (k + 1), [.char bracket]) := rfl
    have hsecond : step (.content (k + 1)) bracket = some (.content (k + 2), [.char bracket]) := rfl
    have hthird : step (.content (k + 2)) 0x3E = none := by
      rw [step, if_neg (by decide), if_neg (by decide), if_neg (by decide), if_pos ⟨rfl, by omega⟩]
    have hfail : run (.content k) CDATA_END = none := by
      show run (.content k) [bracket, bracket, 0x3E] = none
      rw [run_cons hfirst, run_cons hsecond, run_fails hthird]
      rfl
    rw [hfail] at h
    exact absurd h (by simp)
  · rw [run_cdataEnd] at h
    obtain ⟨rfl, rfl⟩ := Prod.mk.inj (Option.some.inj h)
    refine ⟨?_, Or.inl rfl⟩
    rw [List.length_map, List.length_replicate]
    rfl
  · have hrun : run (.value t an q v) CDATA_END
        = some (.value t an q (v ++ [bracket] ++ [bracket] ++ [0x3E]), []) := by
      rcases q with _ | _ <;> rfl
    rw [hrun] at h
    obtain ⟨rfl, rfl⟩ := Prod.mk.inj (Option.some.inj h)
    exact ⟨rfl, Or.inr ⟨rfl, rfl⟩⟩

end LexState

end Gxmpp
