/-
The loop of `XmlnsStack::AddNewPrefix` as it stands, without a count of its rounds, and the prefix
it ends with. Its `int` does not overflow: each round but the last is paid for by a binding.
-/
import Gxmpp.PrinterScope
import Gxmpp.Walking

set_option autoImplicit false

namespace Gxmpp.XmlnsStack

open Walking

variable {s : XmlnsStack} {ns pre base result : Str} {i fuel : ℕ}

/-- The loop of `AddNewPrefix`, over `i` and `result`. -/
def inventRound (s : XmlnsStack) (base : Str) : Walking.Round (ℕ × Str) Str
  | (i, result) =>
    if (s.nsForPrefix result).isSome then .inl (i + 1, base ++ decimal i) else .inr result

/-- Where the rounds that are counted come to a prefix that is free, the loop does. -/
theorem ends_inventPrefix (h : s.nsForPrefix (inventPrefix s base fuel i result) = none) :
    Ends (s.inventRound base) (i, result) (inventPrefix s base fuel i result) := by
  induction fuel generalizing i result with
  | zero =>
    rw [inventPrefix] at h ⊢
    exact ends_of_left (by simp [inventRound, h])
  | succ fuel ih =>
    rw [inventPrefix] at h ⊢
    by_cases hbound : (s.nsForPrefix result).isSome = true
    · rw [if_pos hbound] at h ⊢
      have hnext : s.inventRound base (i, result) = .inl (i + 1, base ++ decimal i) :=
        if_pos hbound
      exact (ends_of_next hnext).2 (ih h)
    · rw [if_neg hbound]
      exact ends_of_left (if_neg hbound)

theorem ends_freshPrefix (s : XmlnsStack) (ns : Str) :
    Ends (s.inventRound (suggestPrefix ns)) (2, suggestPrefix ns) (s.freshPrefix ns) :=
  ends_inventPrefix (freshPrefix_none s ns)

/-- Small letters, at least one of them, and digits behind them. -/
theorem freshPrefix_letters (s : XmlnsStack) (ns : Str) :
    ∃ first rest, s.freshPrefix ns = first :: rest ∧ isLower first = true ∧
      ∀ ch ∈ s.freshPrefix ns, isLower ch = true ∨ isDigit ch = true := by
  obtain ⟨hne, hlower, -⟩ := suggestPrefix_letters ns
  obtain ⟨digits, heq, hdigits⟩ := inventPrefix_form s (suggestPrefix ns)
    (s.bindings.length + 1) 2 (suggestPrefix ns) ⟨[], (List.append_nil _).symm, by simp⟩
  obtain ⟨first, letters, hletters⟩ := List.exists_cons_of_ne_nil hne
  have hpre : s.freshPrefix ns = suggestPrefix ns ++ digits := heq
  refine ⟨first, letters ++ digits, ?_, hlower first (by simp [hletters]), ?_⟩
  · rw [hpre, hletters, List.cons_append]
  · intro ch hch
    rw [hpre] at hch
    exact (List.mem_append.1 hch).imp (hlower ch) (hdigits ch)

theorem startsWithXml_of_begins (h : str "xml" <+: pre) : startsWithXml pre = true := by
  obtain ⟨rest, rfl⟩ := h
  rfl

/-- What was resolved still is, as the new prefix was not. -/
theorem nsForPrefix_kept {other ns' : Str} (hfree : s.nsForPrefix pre = none)
    (hother : s.nsForPrefix other = some ns') :
    (s.addXmlns pre ns).nsForPrefix other = some ns' := by
  have hne : other ≠ pre := by
    rintro rfl
    rw [hfree] at hother
    cases hother
  rw [nsForPrefix_addXmlns_ne hne, hother]

/-- `AddNewPrefix` returns a prefix that is free, as its loop does without a bound on its rounds. -/
theorem addNewPrefix_fresh (s : XmlnsStack) (ns : Str) (isAttr : Bool)
    (hnone : s.prefixForNs ns isAttr = none) :
    ∃ first rest, (s.addNewPrefix ns isAttr).2 = some (first :: rest) ∧
      Ends (s.inventRound (suggestPrefix ns)) (2, suggestPrefix ns) (first :: rest) ∧
      isLower first = true ∧ (∀ ch ∈ first :: rest, isLower ch = true ∨ isDigit ch = true) ∧
      ¬str "xml" <+: first :: rest ∧ s.nsForPrefix (first :: rest) = none ∧
      (s.addNewPrefix ns isAttr).1.nsForPrefix (first :: rest) = some ns ∧
      ∀ other ns', s.nsForPrefix other = some ns' →
        (s.addNewPrefix ns isAttr).1.nsForPrefix other = some ns' := by
  obtain ⟨first, rest, hpre, hfirst, hchars⟩ := freshPrefix_letters s ns
  have hends := ends_freshPrefix s ns
  have hfree := freshPrefix_none s ns
  have hplain := (freshPrefix_invented s ns).plain
  rw [hpre] at hends hfree hplain hchars
  rw [addNewPrefix_eq, hnone, hpre]
  refine ⟨first, rest, rfl, hends, hfirst, hchars, ?_, hfree, nsForPrefix_addXmlns_self hplain ns,
    fun other ns' => nsForPrefix_kept hfree⟩
  intro hxml
  rw [startsWithXml_of_begins hxml] at hplain
  cases hplain

/-- The base and `2` are taken. -/
theorem addNewPrefix_numbered :
    (((XmlnsStack.empty.addXmlns (str "ns") (str "a")).addXmlns (str "ns2") (str "b")).addNewPrefix
      (str "1") true).2 ≠ none := by
  obtain ⟨first, rest, hpre, -⟩ := addNewPrefix_fresh
    ((XmlnsStack.empty.addXmlns (str "ns") (str "a")).addXmlns (str "ns2") (str "b")) (str "1") true
    (by decide)
  rw [hpre]
  simp

end Gxmpp.XmlnsStack
