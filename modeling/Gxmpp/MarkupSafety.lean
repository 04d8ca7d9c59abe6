/-
The printer and markup: what is read from a printed text is the tree that was printed.

Every character of the data is printed by one of four ways: escaped for a value,
escaped for text, as it is in a CDATA section, or as it is in a declaration that
the printer adds. The first two cannot be mistaken for markup. The other two
can: a section ends at the first "]]>", and a namespace may hold a quote, an
angle bracket or an ampersand. `harmless` says that neither happens.

For a tree that is not harmless the tokens are others. A value that is not clean
is read shorter than it is. A section with an end in it yields fewer characters
than it has bytes, and since no later text yields more than its own, the next
tag comes too early.
-/
import Gxmpp.NamespaceAgreement
import Gxmpp.XmlTokens

set_option autoImplicit false

namespace Gxmpp

open XmlPrinter (Piece pieces childrenPieces childPieces startPiece tagStack needed declared
  explicit
  attrText printXmlns printQuotedValue printBodyText printCDATAText quotedChar bodyChar)
open LexState (run run_append run_append_quiet run_append_some run_cons run_quiet Closes IsName
  cleanValue CDATA_END IsMarkup inTag)

/-! ## 1. The tokens of a tree -/

/-- The tokens a piece stands for. -/
def XmlPrinter.Piece.tokens : Piece → List XmlToken
  | .startTag name atts xmlns empty => [.startTag name (atts ++ xmlns.map xmlnsAttr) empty]
  | .endTag name => [.endTag name]
  | .text t => t.map .char
  | .cdata t => t.map .char

/-- The tokens of a tree: a start tag with the attributes of each element, their values and
the declarations that are added, the characters of each text, and the end tags. -/
def treeTokens (ns : XmlnsStack) (e : XmlElement) : List XmlToken :=
  (pieces ns e).flatMap Piece.tokens

/-- The names of a piece are names of the grammar. -/
def XmlPrinter.Piece.Named : Piece → Prop
  | .startTag name atts xmlns _ =>
    IsName name ∧ (∀ a ∈ atts, IsName a.1) ∧ ∀ b ∈ xmlns, isNCName b.1 = true
  | .endTag name => IsName name
  | .text _ => True
  | .cdata _ => True

/-- What is printed as it is contains no markup. -/
def XmlPrinter.Piece.Clean : Piece → Prop
  | .startTag _ _ xmlns _ => ∀ b ∈ xmlns, cleanValue b.2 = true
  | .endTag _ => True
  | .text _ => True
  | .cdata t => ¬ CDATA_END <:+: t

/-! ## 2. Clean pieces -/

/-- Text is read back. -/
theorem run_bodyText (k : Nat) (t : Str) :
    ∃ k', run (.content k) (printBodyText t) = some (.content k', t.map XmlToken.char) := by
  induction t generalizing k with
  | nil => exact ⟨k, rfl⟩
  | cons ch t ih =>
    have hchar : ∃ k', run (.content k) (bodyChar ch) = some (.content k', [.char ch]) := by
      unfold bodyChar
      by_cases hlt : ch = 0x3C
      · rw [if_pos hlt, hlt]
        exact ⟨0, rfl⟩
      · rw [if_neg hlt]
        by_cases hgt : ch = 0x3E
        · rw [if_pos hgt, hgt]
          exact ⟨0, rfl⟩
        · rw [if_neg hgt]
          by_cases hamp : ch = 0x26
          · rw [if_pos hamp, hamp]
            exact ⟨0, rfl⟩
          · rw [if_neg hamp]
            by_cases hbracket : ch = 0x5D
            · refine ⟨k + 1, ?_⟩
              rw [run, LexState.step, if_neg hlt, if_neg hamp, if_pos hbracket]
              rfl
            · refine ⟨0, ?_⟩
              rw [run, LexState.step, if_neg hlt, if_neg hamp, if_neg hbracket,
                if_neg fun h => hgt h.1]
              rfl
    obtain ⟨k₁, h₁⟩ := hchar
    obtain ⟨k₂, h₂⟩ := ih k₁
    refine ⟨k₂, ?_⟩
    unfold printBodyText at h₂ ⊢
    rw [List.flatMap_cons, run_append h₁, h₂]
    rfl

/-- A value is read back. -/
theorem run_quotedValue (t : OpenTag) (an v w : Str) :
    run (.value t an .double v) (printQuotedValue w) = some (.value t an .double (v ++ w), []) := by
  induction w generalizing v with
  | nil =>
    rw [List.append_nil]
    rfl
  | cons ch w ih =>
    have hchar : run (.value t an .double v) (quotedChar ch)
        = some (.value t an .double (v ++ [ch]), []) := by
      unfold quotedChar
      by_cases hlt : ch = 0x3C
      · rw [if_pos hlt, hlt]
        rfl
      · rw [if_neg hlt]
        by_cases hgt : ch = 0x3E
        · rw [if_pos hgt, hgt]
          rfl
        · rw [if_neg hgt]
          by_cases hamp : ch = 0x26
          · rw [if_pos hamp, hamp]
            rfl
          · rw [if_neg hamp]
            by_cases hquote : ch = 0x22
            · rw [if_pos hquote, hquote]
              rfl
            · rw [if_neg hquote, run, LexState.step_value, if_neg hquote, if_neg hlt, if_neg hamp]
              rfl
    have hrest := ih (v ++ [ch])
    unfold printQuotedValue at hrest ⊢
    rw [List.flatMap_cons, run_append_quiet hchar, hrest, List.append_assoc]
    rfl

variable {t : OpenTag} {σ τ : LexState} {tail : Str} {ts : List XmlToken} {s ns : XmlnsStack}

/-- The attributes of a start tag are read back. -/
theorem run_attrs (hσ : Closes σ t) {atts : List (Str × Str)} (hnames : ∀ a ∈ atts, IsName a.1) :
    ∃ σ', run σ (atts.flatMap attrText) = some (σ', []) ∧
      Closes σ' { t with atts := t.atts ++ atts } := by
  induction atts generalizing σ t with
  | nil => exact ⟨σ, rfl, by rw [List.append_nil]; exact hσ⟩
  | cons a atts ih =>
    have hname := LexState.run_attName hσ (hnames a List.mem_cons_self)
    have hvalue := run_quotedValue t a.1 [] a.2
    rw [List.nil_append] at hvalue
    have hmark : run (.value t a.1 .double a.2) (str "\"")
        = some (.afterValue { t with atts := t.atts ++ [(a.1, a.2)] }, []) := rfl
    have hattr : run σ (attrText a)
        = some (.afterValue { t with atts := t.atts ++ [(a.1, a.2)] }, []) := by
      unfold attrText
      rw [List.append_assoc, run_append_quiet hname, run_append_quiet hvalue, hmark]
    obtain ⟨σ', hrun, hcloses⟩ := ih (LexState.closes_afterValue _)
      fun x hx => hnames x (List.mem_cons_of_mem _ hx)
    refine ⟨σ', ?_, ?_⟩
    · rw [List.flatMap_cons, run_append_quiet hattr, hrun]
    · rw [List.append_assoc] at hcloses
      exact hcloses

theorem printXmlns_eq (b : Str × Str) :
    printXmlns b = str " " ++ (xmlnsAttr b).1 ++ str "=\"" ++ (b.2 ++ str "\"") := by
  unfold printXmlns xmlnsAttr
  by_cases hempty : b.1 = STR_EMPTY
  · rw [if_pos hempty, if_pos hempty, ← List.append_assoc]
    rfl
  · have hstart : str " xmlns:" = str " " ++ str "xmlns:" := by decide
    rw [if_neg hempty, if_neg hempty, hstart]
    simp

theorem isName_of_ncName {s : Str} (h : isNCName s = true) : IsName s := by
  rcases s with _ | ⟨ch, rest⟩
  · exact absurd h (by decide)
  · unfold isNCName at h
    rw [Bool.and_eq_true, List.all_eq_true] at h
    refine ⟨?_, fun c hc => ?_⟩
    · unfold nameStart
      rw [h.1]
      rfl
    · unfold nameByte
      rw [h.2 c hc]
      rfl

/-- A name behind a prefix. -/
theorem isName_prefixed {pre localPart : Str} (hpre : isNCName pre = true)
    (hlocal : isNCName localPart = true) : IsName (pre ++ str ":" ++ localPart) := by
  have hcolon : str ":" = [(0x3A : UInt8)] := by decide
  rcases pre with _ | ⟨ch, rest⟩
  · exact absurd hpre (by decide)
  · obtain ⟨hch, hrest⟩ := isName_of_ncName hpre
    rw [hcolon, List.cons_append, List.cons_append]
    refine ⟨hch, fun c hc => ?_⟩
    rcases List.mem_append.1 hc with hc | hc
    · rcases List.mem_append.1 hc with hc | hc
      · exact hrest c hc
      · rw [List.mem_singleton.1 hc]
        rfl
    · unfold nameByte
      rw [isNCName_all hlocal c hc]
      rfl

theorem isName_xmlnsAttr {b : Str × Str} (h : isNCName b.1 = true) : IsName (xmlnsAttr b).1 := by
  unfold xmlnsAttr
  rw [if_neg (show b.1 ≠ STR_EMPTY from isNCName_ne_nil h)]
  have hsplit : str "xmlns:" ++ b.1 = str "xmlns" ++ str ":" ++ b.1 := rfl
  rw [hsplit]
  exact isName_prefixed (by decide) h

/-- Clean declarations are read back. -/
theorem run_xmlns (hσ : Closes σ t) {new : List (Str × Str)}
    (hnames : ∀ b ∈ new, isNCName b.1 = true) (hclean : ∀ b ∈ new, cleanValue b.2 = true) :
    ∃ σ', run σ (new.flatMap printXmlns) = some (σ', []) ∧
      Closes σ' { t with atts := t.atts ++ new.map xmlnsAttr } := by
  induction new generalizing σ t with
  | nil => exact ⟨σ, rfl, by rw [List.map_nil, List.append_nil]; exact hσ⟩
  | cons b new ih =>
    have hname := LexState.run_attName hσ (isName_xmlnsAttr (hnames b List.mem_cons_self))
    have hvalue := LexState.run_cleanValue t (xmlnsAttr b).1 [] (hclean b List.mem_cons_self)
    rw [List.nil_append] at hvalue
    have hmark : run (.value t (xmlnsAttr b).1 .double b.2) (str "\"")
        = some (.afterValue { t with atts := t.atts ++ [xmlnsAttr b] }, []) := rfl
    have hdecl : run σ (printXmlns b)
        = some (.afterValue { t with atts := t.atts ++ [xmlnsAttr b] }, []) := by
      rw [printXmlns_eq, run_append_quiet hname, run_append_quiet hvalue, hmark]
    obtain ⟨σ', hrun, hcloses⟩ := ih (LexState.closes_afterValue _)
      (fun x hx => hnames x (List.mem_cons_of_mem _ hx))
      (fun x hx => hclean x (List.mem_cons_of_mem _ hx))
    refine ⟨σ', ?_, ?_⟩
    · rw [List.flatMap_cons, run_append_quiet hdecl, hrun]
    · rw [List.append_assoc] at hcloses
      exact hcloses

/-- A clean piece is read back. -/
theorem run_cleanPiece (k : Nat) {p : Piece} (hnamed : p.Named) (hclean : p.Clean) :
    ∃ k', run (.content k) p.text_ = some (.content k', p.tokens) := by
  rcases p with ⟨name, atts, xmlns, empty⟩ | name | t | t
  · obtain ⟨hname, hatts, hxmlns⟩ := hnamed
    obtain ⟨σ, hrun, hσ⟩ := run_attrs (LexState.closes_name name) hatts
    obtain ⟨σ', hrun', hσ'⟩ := run_xmlns hσ hxmlns hclean
    have hend := LexState.run_closeTag hσ' empty
    refine ⟨0, ?_⟩
    dsimp only [XmlPrinter.Piece.text_]
    rw [List.append_assoc, List.append_assoc, run_append_quiet (LexState.run_startName k hname),
      run_append_quiet hrun, run_append_quiet hrun', hend]
    rfl
  · exact ⟨0, LexState.run_endTag k hnamed⟩
  · exact run_bodyText k t
  · refine ⟨0, ?_⟩
    have hsection := LexState.run_cleanCdata (k := 0) (d := t) hclean
    dsimp only [XmlPrinter.Piece.text_, printCDATAText]
    rw [List.append_assoc, LexState.run_cdataStart]
    exact hsection

/-! ## 3. Pieces that are not clean -/

/-- A start tag with a declaration that is not clean is read with a shorter value. -/
theorem run_dirtyXmlns (hσ : Closes σ t) {new : List (Str × Str)}
    (hnames : ∀ b ∈ new, isNCName b.1 = true) (hdirty : ¬ ∀ b ∈ new, cleanValue b.2 = true)
    (h : run σ (new.flatMap printXmlns ++ tail) = some (τ, ts)) (empty : Bool)
    (rest : List XmlToken) : ts ≠ .startTag t.name (t.atts ++ new.map xmlnsAttr) empty :: rest := by
  induction new generalizing σ t ts with
  | nil => exact absurd (fun b hb => absurd hb (by simp)) hdirty
  | cons b new ih =>
    have hname := LexState.run_attName hσ (isName_xmlnsAttr (hnames b List.mem_cons_self))
    have hmark : str "\"" = [(0x22 : UInt8)] := by decide
    rw [List.flatMap_cons, printXmlns_eq, hmark, List.append_assoc, List.append_assoc] at h
    rw [run_append_quiet hname, List.append_assoc, List.singleton_append] at h
    by_cases hb : cleanValue b.2 = true
    · -- this one is read as it is, and one of the others is not clean
      have hvalue := LexState.run_cleanValue t (xmlnsAttr b).1 [] hb
      have hstep : LexState.step (.value t (xmlnsAttr b).1 .double b.2) 0x22
          = some (.afterValue { t with atts := t.atts ++ [xmlnsAttr b] }, []) := rfl
      rw [run_append_quiet hvalue, List.nil_append, run_quiet hstep] at h
      have hdirty' : ¬ ∀ x ∈ new, cleanValue x.2 = true := by
        intro hall
        refine hdirty fun x hx => ?_
        rcases List.mem_cons.1 hx with rfl | hx
        · exact hb
        · exact hall x hx
      have hother := ih (LexState.closes_afterValue _)
        (fun x hx => hnames x (List.mem_cons_of_mem _ hx)) hdirty' h
      rw [List.append_assoc] at hother
      exact hother
    · have hread := (LexState.run_value_length t (xmlnsAttr b).1
        (new.flatMap printXmlns ++ tail) b.2).1 [] τ ts h
      rcases hread.2 (Bool.eq_false_iff.2 hb) with rfl | ⟨v, atts, empty', ts', rfl, hpre, hshort⟩
      · exact (List.cons_ne_nil _ _).symm
      · intro heq
        have hatts : atts = t.atts ++ (b :: new).map xmlnsAttr := by
          injection heq with hhead
          injection hhead
        rw [hatts, List.map_cons, List.prefix_append_right_inj] at hpre
        obtain ⟨rest', hrest⟩ := hpre
        have hvalue : v = b.2 := congrArg Prod.snd (List.cons.inj hrest).1
        rw [hvalue] at hshort
        simp at hshort

/-- A CDATA section, whatever is in it: no more tokens than bytes, fewer if there is an end in
it, and then content or a tag. -/
theorem run_section {k : Nat} {d : Str}
    (h : run (.content k) ((Piece.cdata d).text_ ++ tail) = some (τ, ts)) :
    ∃ σ ts₁ ts₂, ts = ts₁ ++ ts₂ ∧ run σ tail = some (τ, ts₂) ∧ ts₁.length ≤ d.length ∧
      (CDATA_END <:+: d → ts₁.length < d.length) ∧ (σ = .content 0 ∨ inTag σ = true) := by
  dsimp only [XmlPrinter.Piece.text_, printCDATAText] at h
  rw [List.append_assoc, List.append_assoc, LexState.run_cdataStart] at h
  obtain ⟨σ₁, us₁, us, hrun₁, hrest, rfl⟩ := run_append_some h
  obtain ⟨σ₂, us₂, us₃, hrun₂, hrun₃, rfl⟩ := run_append_some hrest
  obtain ⟨hlen₂, hstate⟩ := LexState.run_end hrun₂
  have hlen₁ := LexState.run_length hrun₁
  have hzero : LexState.pending (.cdata 0) = 0 := rfl
  refine ⟨σ₂, us₁ ++ us₂, us₃, (List.append_assoc _ _ _).symm, hrun₃, ?_, ?_, ?_⟩
  · rw [List.length_append]
    omega
  · intro hend
    have hlt := LexState.run_dirtyCdata hrun₁ (by simpa using hend)
    rw [List.length_append]
    omega
  · rcases hstate with hcontent | ⟨htag, -⟩
    · exact Or.inl hcontent
    · exact Or.inr htag

/-- Where fewer tokens have come than characters are due, the rest begins with characters. -/
theorem due_after {ts₁ ts₂ toks : List XmlToken} {w : Str} (hlen : ts₁.length < w.length)
    (h : ts₁ ++ ts₂ = w.map XmlToken.char ++ toks) :
    ∃ c, c ≠ [] ∧ ts₂ = c.map XmlToken.char ++ toks := by
  refine ⟨w.drop ts₁.length, ?_, ?_⟩
  · intro hnil
    have hl := congrArg List.length hnil
    rw [List.length_drop, List.length_nil] at hl
    omega
  · have hdrop := congrArg (List.drop ts₁.length) h
    rw [List.drop_left, List.drop_append_of_le_length (by rw [List.length_map]; omega),
      ← List.map_drop] at hdrop
    exact hdrop

/-- In a tag no character is next. -/
theorem due_inTag (hσ : inTag σ = true) {c : Str} {toks : List XmlToken}
    (h : run σ tail = some (τ, ts)) (hc : c ≠ []) : ts ≠ c.map XmlToken.char ++ toks := by
  obtain ⟨ch, c', rfl⟩ := List.exists_cons_of_ne_nil hc
  rcases LexState.run_inTag hσ h with ⟨rfl, -⟩ | ⟨tok, rest, rfl, htok⟩
  · exact (List.cons_ne_nil _ _).symm
  · intro heq
    exact htok ch (List.cons.inj heq).1

/-- Characters that are due never come: each text yields its own and no more. -/
theorem due_pieces {ps : List Piece} (hnamed : ∀ p ∈ ps, p.Named) {k : Nat} {c : Str}
    (hc : c ≠ []) (h : run (.content k) (ps.flatMap Piece.text_) = some (τ, ts)) :
    ts ≠ c.map XmlToken.char ++ ps.flatMap Piece.tokens := by
  induction ps generalizing k c ts with
  | nil =>
    obtain ⟨-, rfl⟩ := Prod.mk.inj (Option.some.inj h)
    obtain ⟨ch, c', rfl⟩ := List.exists_cons_of_ne_nil hc
    exact (List.cons_ne_nil _ _).symm
  | cons p ps ih =>
    have hps := fun q hq => hnamed q (List.mem_cons_of_mem p hq)
    have hp := hnamed p List.mem_cons_self
    rw [List.flatMap_cons] at h
    rcases p with ⟨name, atts, xmlns, empty⟩ | name | t | d
    · dsimp only [XmlPrinter.Piece.text_] at h
      rw [List.append_assoc, List.append_assoc, List.append_assoc,
        run_append_quiet (LexState.run_startName k hp.1)] at h
      exact due_inTag rfl h hc
    · have hstart : run (.content k) (str "</") = some (.endName [], []) := rfl
      dsimp only [XmlPrinter.Piece.text_] at h
      rw [List.append_assoc, List.append_assoc, run_append_quiet hstart] at h
      exact due_inTag rfl h hc
    · obtain ⟨k', hrun⟩ := run_bodyText k t
      obtain ⟨σ, ts₁, ts₂, hrun₁, hrest, rfl⟩ := run_append_some h
      obtain ⟨rfl, rfl⟩ := Prod.mk.inj (Option.some.inj (hrun.symm.trans hrun₁))
      intro heq
      rw [List.flatMap_cons, ← List.append_assoc] at heq
      have hpos : 0 < c.length := List.length_pos_of_ne_nil hc
      obtain ⟨c', hc', hts₂⟩ := due_after (w := c ++ t)
        (by rw [List.length_map, List.length_append]; omega)
        (heq.trans (by rw [List.map_append]; rfl))
      exact ih hps hc' hrest hts₂
    · obtain ⟨σ, ts₁, ts₂, rfl, hrest, hlen, -, hstate⟩ := run_section h
      intro heq
      rw [List.flatMap_cons, ← List.append_assoc] at heq
      have hpos : 0 < c.length := List.length_pos_of_ne_nil hc
      obtain ⟨c', hc', hts₂⟩ := due_after (w := c ++ d)
        (by rw [List.length_append]; omega) (heq.trans (by rw [List.map_append]; rfl))
      rcases hstate with rfl | htag
      · exact ih hps hc' hrest hts₂
      · exact due_inTag htag hrest hc' hts₂

/-- Clean pieces are read back, and others are not. -/
theorem run_pieces_iff {ps : List Piece} (hnamed : ∀ p ∈ ps, p.Named) (k : Nat) :
    ((∀ p ∈ ps, p.Clean) → ∃ k', run (.content k) (ps.flatMap Piece.text_)
      = some (.content k', ps.flatMap Piece.tokens)) ∧
    ((¬ ∀ p ∈ ps, p.Clean) → ∀ τ ts, run (.content k) (ps.flatMap Piece.text_) = some (τ, ts) →
      ts ≠ ps.flatMap Piece.tokens) := by
  induction ps generalizing k with
  | nil => exact ⟨fun _ => ⟨k, rfl⟩, fun hd => absurd (fun p hp => absurd hp (by simp)) hd⟩
  | cons p ps ih =>
    have hps := fun q hq => hnamed q (List.mem_cons_of_mem p hq)
    have hp := hnamed p List.mem_cons_self
    rw [List.flatMap_cons, List.flatMap_cons]
    by_cases hclean : p.Clean
    · obtain ⟨k₁, hrun⟩ := run_cleanPiece k hp hclean
      obtain ⟨hgood, hbad⟩ := ih hps k₁
      constructor
      · intro hall
        obtain ⟨k₂, hrest⟩ := hgood fun q hq => hall q (List.mem_cons_of_mem p hq)
        refine ⟨k₂, ?_⟩
        rw [run_append hrun, hrest]
        rfl
      · intro hd τ ts h
        have hd' : ¬ ∀ q ∈ ps, q.Clean := by
          intro hall
          refine hd fun q hq => ?_
          rcases List.mem_cons.1 hq with rfl | hq
          · exact hclean
          · exact hall q hq
        obtain ⟨σ, ts₁, ts₂, hrun₁, hrest, rfl⟩ := run_append_some h
        obtain ⟨rfl, rfl⟩ := Prod.mk.inj (Option.some.inj (hrun.symm.trans hrun₁))
        intro heq
        exact hbad hd' τ ts₂ hrest (List.append_cancel_left heq)
    · refine ⟨fun hall => absurd (hall p List.mem_cons_self) hclean, ?_⟩
      intro _ τ ts h
      rcases p with ⟨name, atts, xmlns, empty⟩ | name | t | d
      · obtain ⟨hname, hatts, hxmlns⟩ := hp
        obtain ⟨σ, hrun, hσ⟩ := run_attrs (LexState.closes_name name) hatts
        dsimp only [XmlPrinter.Piece.text_] at h
        rw [List.append_assoc, List.append_assoc, List.append_assoc,
          run_append_quiet (LexState.run_startName k hname), run_append_quiet hrun] at h
        exact run_dirtyXmlns hσ hxmlns hclean h empty _
      · exact absurd trivial hclean
      · exact absurd trivial hclean
      · obtain ⟨σ, ts₁, ts₂, rfl, hrest, -, hshort, hstate⟩ := run_section h
        intro heq
        have hlt := hshort (Classical.not_not.1 hclean)
        obtain ⟨c, hc, hts₂⟩ := due_after hlt heq
        rcases hstate with rfl | htag
        · exact due_pieces hps hc hrest hts₂
        · exact due_inTag htag hrest hc hts₂

/-! ## 4. Harmless trees -/

/-- Whether "]]>" stands in the text. -/
def hasEnd : Str → Bool
  | [] => false
  | ch :: t => CDATA_END.isPrefixOf (ch :: t) || hasEnd t

theorem hasEnd_iff (t : Str) : hasEnd t = true ↔ CDATA_END <:+: t := by
  induction t with
  | nil =>
    refine iff_of_false (by simp [hasEnd]) ?_
    intro h
    exact absurd (List.infix_nil.1 h) (by decide)
  | cons ch t ih =>
    rw [hasEnd, Bool.or_eq_true, ih, List.infix_cons_iff, List.isPrefixOf_iff_prefix]

/-- The namespaces of a tag that have no prefix contain no markup. -/
def harmlessTag (s : XmlnsStack) (name : QName) (attrs : List XmlAttr) : Bool :=
  ((s.prefixForNs name.ns false).isSome || cleanValue name.ns) &&
    attrs.all fun a => (s.prefixForNs a.name.ns true).isSome || cleanValue a.name.ns

mutual

/-- No CDATA section has an end in it and no namespace that must be declared contains markup;
`s` has the declarations of the tree alone. -/
def harmless : XmlnsStack → XmlElement → Bool
  | s, ⟨name, attrs, children, cdata⟩ =>
    harmlessTag (declared s attrs) name attrs
      && harmlessChildren (declared s attrs) cdata children

/-- The children of an element, which may hold CDATA sections. -/
def harmlessChildren : XmlnsStack → Bool → List XmlChild → Bool
  | _, _, [] => true
  | s, cdata, c :: cs => harmlessChild s cdata c && harmlessChildren s cdata cs

/-- One child. -/
def harmlessChild : XmlnsStack → Bool → XmlChild → Bool
  | _, cdata, .text t => !cdata || !hasEnd t
  | s, _, .element e => harmless s e

end

/-- Prefixes that are names, and the default. -/
def NamedPrefixes (s : XmlnsStack) : Prop := ∀ b ∈ s.bindings, b.1 = [] ∨ isNCName b.1 = true

/-- The prefix of a resolved name is a name or empty. -/
theorem NamedPrefixes.resolved (hs : NamedPrefixes s) {pre ns : Str}
    (h : s.nsForPrefix pre = some ns) : pre = [] ∨ isNCName pre = true := by
  rcases XmlnsStack.nsForPrefix_some h with ⟨rfl, -⟩ | ⟨rfl, -⟩ | hmem | ⟨rfl, -⟩
  · exact Or.inr (by decide)
  · exact Or.inr (by decide)
  · exact hs (pre, ns) hmem
  · exact Or.inl rfl

/-- Every name that is printed is a name of the grammar. -/
theorem isName_formatQName (hs : NamedPrefixes s) (name : QName) (isAttr : Bool)
    (hnc : isNCName name.localPart = true) : IsName (s.formatQName name isAttr) := by
  unfold XmlnsStack.formatQName
  dsimp only
  rcases hpre : s.prefixForNs name.ns isAttr with _ | pre
  · exact isName_of_ncName hnc
  · rw [Option.getD_some]
    by_cases hempty : pre = STR_EMPTY
    · rw [if_pos hempty]
      exact isName_of_ncName hnc
    · rw [if_neg hempty]
      rcases XmlnsStack.prefixForNs_some hpre with ⟨-, -, hnil⟩ | ⟨hns, -⟩
      · exact absurd hnil hempty
      · exact isName_prefixed ((hs.resolved hns).resolve_left hempty) hnc

theorem NamedPrefixes.tagStack (h : NamedPrefixes ns) (name : QName) {attrs : List XmlAttr}
    (hnc : ∀ a ∈ attrs, isNCName a.name.localPart = true) :
    NamedPrefixes (tagStack ns name attrs) := by
  intro b hb
  rcases XmlPrinter.mem_tagStack hb with hdefault | ⟨a, ha, heq⟩ | hinvented | hout
  · exact Or.inl hdefault
  · rw [← heq]
    exact Or.inr (hnc a ha)
  · exact Or.inr hinvented
  · exact h b hout

/-- The declarations that are added to a tag are clean exactly if the tag is harmless. -/
theorem clean_startPiece (h : XmlnsStack.Grown (fun v => cleanValue v = true) ns s) (name : QName)
    (attrs : List XmlAttr) (empty : Bool) :
    (startPiece ns name attrs empty).Clean ↔ harmlessTag (declared s attrs) name attrs = true := by
  have hpush : XmlnsStack.Grown (fun v => cleanValue v = true) ns.pushFrame s := ⟨h.kept, h.added⟩
  have hgrown := XmlPrinter.grown_declared hpush attrs
  obtain ⟨hext, helement, hattrs, hnew⟩ :=
    XmlPrinter.needed_spec (declared ns.pushFrame attrs) name attrs
  show (∀ b ∈ (needed (declared ns.pushFrame attrs) name attrs).2, cleanValue b.2 = true) ↔ _
  generalize declared s attrs = s' at hgrown ⊢
  -- a namespace without a prefix among the declarations of the tree is declared here, or was
  -- declared above
  have hone : ∀ v isAttr, ((needed (declared ns.pushFrame attrs) name attrs).1.prefixForNs v
      isAttr).isSome = true →
      (∀ b ∈ (needed (declared ns.pushFrame attrs) name attrs).2, cleanValue b.2 = true) →
      ((s'.prefixForNs v isAttr).isSome || cleanValue v) = true := by
    intro v isAttr hfound hall
    rw [Bool.or_eq_true]
    by_cases hsome : ((declared ns.pushFrame attrs).prefixForNs v isAttr).isSome = true
    · exact (hgrown.found v isAttr).2 hsome
    · obtain ⟨b, hb, hv⟩ := XmlPrinter.needed_new hext
        (Option.not_isSome_iff_eq_none.1 hsome) hfound
      rw [← hv]
      exact Or.inr (hall b hb)
  have hback : ∀ v isAttr, (declared ns.pushFrame attrs).prefixForNs v isAttr = none →
      ((s'.prefixForNs v isAttr).isSome || cleanValue v) = true → cleanValue v = true := by
    intro v isAttr hnone hor
    rw [Bool.or_eq_true] at hor
    rcases hor with hsome | hclean
    · have h' := (hgrown.found v isAttr).1 hsome
      rw [hnone] at h'
      exact absurd h' (by simp)
    · exact hclean
  unfold harmlessTag
  rw [Bool.and_eq_true, List.all_eq_true]
  constructor
  · intro hall
    exact ⟨hone _ _ helement hall, fun a ha => hone _ _ (hattrs a ha) hall⟩
  · rintro ⟨hname, hall⟩ b hb
    rcases hnew b hb with ⟨hb', hnone⟩ | ⟨a, ha, hb', hnone⟩
    · rw [hb']
      exact hback _ _ hnone hname
    · rw [hb']
      exact hback _ _ hnone (hall a ha)

/-- Inside a harmless tag the printer has the declarations of the tree, and clean ones. -/
theorem grown_tagStack (h : XmlnsStack.Grown (fun v => cleanValue v = true) ns s) {name : QName}
    {attrs : List XmlAttr} {empty : Bool} (hclean : (startPiece ns name attrs empty).Clean) :
    XmlnsStack.Grown (fun v => cleanValue v = true) (tagStack ns name attrs)
      (declared s attrs) := by
  have hpush : XmlnsStack.Grown (fun v => cleanValue v = true) ns.pushFrame s := ⟨h.kept, h.added⟩
  obtain ⟨hext, -⟩ := XmlPrinter.needed_spec (declared ns.pushFrame attrs) name attrs
  exact (XmlPrinter.grown_declared hpush attrs).extends hext hclean

/-- The pieces of a tree are named. -/
theorem named_pieces (e : XmlElement) (hns : NamedPrefixes ns) (hnc : e.NCNames) :
    ∀ p ∈ pieces ns e, p.Named := by
  induction e using XmlElement.tree_induction generalizing ns with
  | h name attrs children cdata ih =>
    have hroot := hnc ⟨name, attrs, children, cdata⟩ (by rw [XmlElement.preorder]; simp)
    have hin := hns.tagStack name hroot.2
    obtain ⟨hext, -⟩ := XmlPrinter.needed_spec (declared ns.pushFrame attrs) name attrs
    have hstart : (startPiece ns name attrs children.isEmpty).Named := by
      refine ⟨isName_formatQName hin name false hroot.1, ?_, ?_⟩
      · intro a ha
        obtain ⟨x, hx, rfl⟩ := List.mem_map.1 ha
        exact isName_formatQName hin x.name true (hroot.2 x hx)
      · intro b hb
        exact (hext.invented b hb).ncName
    have hchildren : ∀ cs : List XmlChild, (∀ c ∈ cs, c ∈ children) →
        ∀ p ∈ childrenPieces (tagStack ns name attrs) cdata cs, p.Named := by
      intro cs hsub
      induction cs with
      | nil =>
        rw [childrenPieces]
        simp
      | cons c cs ihs =>
        rw [childrenPieces, List.forall_mem_append]
        refine ⟨?_, ihs fun x hx => hsub x (List.mem_cons_of_mem _ hx)⟩
        rcases c with t | e
        · rw [childPieces]
          rcases cdata with _ | _ <;> simp [XmlPrinter.Piece.Named]
        · have he := hsub _ List.mem_cons_self
          rw [childPieces]
          refine ih e he hin fun x hx => hnc x ?_
          rw [XmlElement.preorder]
          exact List.mem_cons_of_mem _ (mem_preorderChildren he hx)
    rw [pieces, List.forall_mem_cons]
    refine ⟨hstart, ?_⟩
    by_cases hempty : children.isEmpty = true
    · rw [if_pos hempty]
      simp
    · rw [if_neg hempty, List.forall_mem_append]
      refine ⟨hchildren children fun c hc => hc, ?_⟩
      intro p hp
      rw [List.mem_singleton.1 hp]
      exact isName_formatQName hin name false hroot.1

/-- The pieces of a tree are clean exactly if the tree is harmless. -/
theorem clean_pieces (e : XmlElement) (h : XmlnsStack.Grown (fun v => cleanValue v = true) ns s) :
    (∀ p ∈ pieces ns e, p.Clean) ↔ harmless s e = true := by
  induction e using XmlElement.tree_induction generalizing ns s with
  | h name attrs children cdata ih =>
    have hstart := clean_startPiece h name attrs children.isEmpty
    rw [pieces, List.forall_mem_cons, harmless, Bool.and_eq_true, hstart]
    refine and_congr_right fun htag => ?_
    have hin := grown_tagStack h (hstart.2 htag)
    have hchildren : ∀ cs : List XmlChild, (∀ c ∈ cs, c ∈ children) →
        ((∀ p ∈ childrenPieces (tagStack ns name attrs) cdata cs, p.Clean) ↔
          harmlessChildren (declared s attrs) cdata cs = true) := by
      intro cs hsub
      induction cs with
      | nil =>
        rw [childrenPieces, harmlessChildren]
        simp
      | cons c cs ihs =>
        rw [childrenPieces, harmlessChildren, List.forall_mem_append, Bool.and_eq_true,
          ihs fun x hx => hsub x (List.mem_cons_of_mem _ hx)]
        refine and_congr_left fun _ => ?_
        rcases c with t | e
        · rw [childPieces, harmlessChild]
          rcases cdata with _ | _
          · simp [XmlPrinter.Piece.Clean]
          · simp [XmlPrinter.Piece.Clean, ← hasEnd_iff]
        · rw [childPieces, harmlessChild]
          exact ih e (hsub _ List.mem_cons_self) hin
    rcases children with _ | ⟨c, cs⟩
    · simp [harmlessChildren]
    · rw [if_neg (by simp), List.forall_mem_append, hchildren (c :: cs) fun c hc => hc]
      simp [XmlPrinter.Piece.Clean]

/-- The printed text of a harmless tree is read as the tree. -/
theorem tokenise_of_harmless {e : XmlElement} (hns : NamedPrefixes ns) (hnc : e.NCNames)
    (h : harmless ns e = true) :
    tokenise (XmlPrinter.printElement ns e).1 = some (treeTokens ns e) := by
  obtain ⟨k, hrun⟩ := (run_pieces_iff (named_pieces e hns hnc) 0).1
    ((clean_pieces e (XmlnsStack.Grown.refl _ ns)).2 h)
  rw [XmlPrinter.printElement_pieces]
  unfold tokenise treeTokens
  rw [hrun]

/-- The printed text is read as the tree exactly if the tree is harmless. -/
theorem tokenise_print_iff (ns : XmlnsStack) (e : XmlElement) (hns : NamedPrefixes ns)
    (hnc : e.NCNames) :
    tokenise (XmlPrinter.printElement ns e).1 = some (treeTokens ns e) ↔ harmless ns e = true := by
  have hclean := clean_pieces e (XmlnsStack.Grown.refl _ ns)
  obtain ⟨hgood, hbad⟩ := run_pieces_iff (named_pieces e hns hnc) 0
  rw [XmlPrinter.printElement_pieces, ← hclean]
  unfold tokenise treeTokens
  constructor
  · intro h
    apply Classical.byContradiction
    intro hd
    rcases hrun : run (.content 0) ((pieces ns e).flatMap Piece.text_) with _ | ⟨τ, ts⟩
    · rw [hrun] at h
      exact absurd h (by simp)
    · have hne := hbad hd τ ts hrun
      rw [hrun] at h
      rcases τ with k | _ | _ | _ | _ | _ | _ | _ | _ | _ | _ | _ | _ | _ | _ | _
      · exact hne (Option.some.inj h)
      all_goals exact absurd h (by simp)
  · intro hall
    obtain ⟨k, hrun⟩ := hgood hall
    rw [hrun]

/-- A message whose data is full of markup. -/
def quotedMessage : XmlElement :=
  ⟨⟨str "jabber:client", str "message"⟩, [⟨⟨[], str "k"⟩, str "\"<&>"⟩],
    [.text (str "</message>&]]>")], false⟩

theorem namedPrefixes_client : NamedPrefixes clientStack := by
  intro b hb
  rw [List.mem_singleton.1 hb]
  exact Or.inl rfl

/-- It is read back. -/
theorem tokenise_print_quoted :
    tokenise (XmlPrinter.printElement clientStack quotedMessage).1
      = some (treeTokens clientStack quotedMessage) := by
  refine (tokenise_print_iff clientStack quotedMessage namedPrefixes_client ?_).2 (by decide)
  intro x hx
  have hpre : quotedMessage.preorder = [quotedMessage] := rfl
  rw [hpre] at hx
  rw [List.mem_singleton.1 hx]
  exact ⟨by decide, by decide⟩

/-- A namespace with a quote in it is printed as it is, and the text is no XML. -/
theorem quoted_namespace_unread : ¬ ∀ (ns : XmlnsStack) (e : XmlElement), NamedPrefixes ns →
    e.NCNames →
    tokenise (XmlPrinter.printElement ns e).1 = some (treeTokens ns e) := by
  intro h
  have hnc : (XmlElement.new ⟨str "u\"v", str "a"⟩ false).NCNames := by
    intro x hx
    have hpre : (XmlElement.new ⟨str "u\"v", str "a"⟩ false).preorder
        = [XmlElement.new ⟨str "u\"v", str "a"⟩ false] := rfl
    rw [hpre] at hx
    rw [List.mem_singleton.1 hx]
    exact ⟨by decide, by decide⟩
  have hread := h clientStack (XmlElement.new ⟨str "u\"v", str "a"⟩ false) namedPrefixes_client hnc
  exact absurd hread (by decide +kernel)

end Gxmpp
