/-
`talk/xmpp/jid.cc`: parsing and preparing a JID.

A part whose flag is not set empties the whole value, so the failure value
of the parser is the empty JID, and the empty JID is also what a default
constructed one is. Callers that compare JIDs for equality rest on this.

The `Prep…` functions return a string and set a flag; here they return an
`Option`. `PrepResource` declares the flag of a character but never reads it, so
an illegal character is replaced by NUL and the resource stays valid: the model
does the same. `PrepDomain` returns the empty string for a domain that is too long
without clearing the flag, so that domain is emptied alone.
-/
import Gxmpp.XmlElement
import Mathlib.Algebra.Group.Nat.Defs

set_option autoImplicit false

namespace Gxmpp

/-- `Jid`. -/
structure Jid where
  node : Str
  domain : Str
  resource : Str
deriving DecidableEq

namespace Jid

/-- `Jid::Jid()`. -/
def empty : Jid := ⟨[], [], []⟩

/-- The letters `A` to `Z`. -/
def isUpper (ch : UInt8) : Bool := 0x41 ≤ ch && ch ≤ 0x5A

/-! ## Preparing the parts -/

/-- The characters `PrepNodeAscii` marks invalid. -/
def badNodeAscii (ch : UInt8) : Bool :=
  ch ≤ 0x17 || ch = 0x7F || ch ∈ [0x20, 0x26, 0x2F, 0x3A, 0x3C, 0x3E, 0x40, 0x22, 0x27]

/-- `Jid::PrepNodeAscii`. -/
def prepNodeAscii (ch : UInt8) : Option UInt8 :=
  if isUpper ch then some (ch + 0x20) else if badNodeAscii ch then none else some ch

/-- `tolower` in the C locale, for a byte above 0x7F. -/
def tolower (ch : UInt8) : UInt8 := if isUpper ch then ch + 0x20 else ch

/-- The loop of `Jid::PrepNode`. -/
def prepNodeChars : Str → Option Str
  | [] => some []
  | ch :: rest =>
    if ch ≤ 0x7F then
      match prepNodeAscii ch with
      | some c => (prepNodeChars rest).map (c :: ·)
      | none => none
    -- no stringprep for these
    else (prepNodeChars rest).map (tolower ch :: ·)

/-- `Jid::PrepNode`. -/
def prepNode (node : Str) : Option Str :=
  (prepNodeChars node).bind fun result => if result.length > 1023 then none else some result

/-- `Jid::PrepResourceAscii`: the character, or 0 for an illegal one. -/
def prepResourceAscii (ch : UInt8) : UInt8 := if ch ≤ 0x17 || ch = 0x7F then 0 else ch

/-- `Jid::PrepResource`. The flag of a character is not read. -/
def prepResource (resource : Str) : Option Str :=
  let result := resource.map fun ch => if ch ≤ 0x7F then prepResourceAscii ch else ch
  if result.length > 1023 then none else some result

/-- The characters `PrepDomainLabelAscii` marks invalid. -/
def badDomainLabelAscii (ch : UInt8) : Bool :=
  ch ≤ 0x2C || ch = 0x2E || ch = 0x2F || (0x3A ≤ ch && ch ≤ 0x40)
    || (0x5B ≤ ch && ch ≤ 0x60) || (0x7B ≤ ch && ch ≤ 0x7F)

/-- `Jid::PrepDomainLabelAscii`. -/
def prepDomainLabelAscii (ch : UInt8) : Option UInt8 :=
  if isUpper ch then some (ch + 0x20) else if badDomainLabelAscii ch then none else some ch

/-- The loop of `Jid::PrepDomainLabel`. -/
def prepDomainLabelChars : Str → Option Str
  | [] => some []
  | ch :: rest =>
    if ch ≤ 0x7F then
      match prepDomainLabelAscii ch with
      | some c => (prepDomainLabelChars rest).map (c :: ·)
      | none => none
    else (prepDomainLabelChars rest).map (ch :: ·)

/-- A length in a variable of type `int`. -/
def toInt (n : Nat) : Int := Int.bmod n (2 ^ 32)

/-- `Jid::PrepDomainLabel`. -/
def prepDomainLabel (label : Str) : Option Str :=
  (prepDomainLabelChars label).bind fun l =>
    let count := toInt l.length
    -- both bounds are on the `int`, not on the length
    if count = 0 then none
    else if count > 63 then none
    else if l.head? = some 0x2D then none
    else if l.getLast? = some 0x2D then none
    else some l

/-- The loop of the three-argument `Jid::PrepDomain`: `last` is the label read so
far, `buf` what was written. -/
def prepDomainLoop (last buf : Str) : Str → Option Str
  | [] => (prepDomainLabel last).map (buf ++ ·)
  | ch :: rest =>
    if ch = 0x2E then
      match prepDomainLabel last with
      | some l => prepDomainLoop [] (buf ++ l ++ [0x2E]) rest
      | none => none
    else prepDomainLoop (last ++ [ch]) buf rest

/-- `Jid::PrepDomain`. The return for a long result comes after the labels have set
the flag, and leaves it set. -/
def prepDomain (domain : Str) : Option Str :=
  (prepDomainLoop [] [] domain).map fun result =>
    if result.length > 1023 then STR_EMPTY else result

/-- `Jid::ValidateOrReset`. -/
def validateOrReset (node domain resource : Str) : Jid :=
  match prepNode node, prepDomain domain, prepResource resource with
  | some n, some d, some r => ⟨n, d, r⟩
  | _, _, _ => empty

/-! ## The constructors -/

/-- `Jid::Jid(node_name, domain_name, resource_name)`. -/
def ofParts (node domain resource : Str) : Jid := validateOrReset node domain resource

/-- `Jid::Jid(jid_string)`: the resource is what follows the first '/', the node
what precedes the first '@' if that comes before the '/'. -/
def ofString (s : Str) : Jid :=
  if s.isEmpty then empty
  else
    let resource := (s.dropWhile (fun ch => ch ≠ 0x2F)).drop 1
    let front := s.takeWhile (fun ch => ch ≠ 0x2F)
    if front.any (fun ch => ch = 0x40) then
      validateOrReset (front.takeWhile fun ch => ch ≠ 0x40)
        ((front.dropWhile fun ch => ch ≠ 0x40).drop 1) resource
    else validateOrReset STR_EMPTY front resource

/-! ## The observers -/

/-- `Jid::IsEmpty`. -/
def isEmpty (j : Jid) : Bool := j.node.isEmpty && j.domain.isEmpty && j.resource.isEmpty

/-- `Jid::IsValid`. -/
def isValid (j : Jid) : Bool := !j.domain.isEmpty

/-- `Jid::IsFull`. -/
def isFull (j : Jid) : Bool := j.isValid && !j.resource.isEmpty

/-- `Jid::BareJid`. -/
def bareJid (j : Jid) : Jid :=
  if !j.isValid then empty
  else if !j.isFull then j
  else ofParts j.node j.domain STR_EMPTY

/-- `Jid::Str`. -/
def toStr (j : Jid) : Str :=
  if !j.isValid then STR_EMPTY
  else
    (if j.node.isEmpty then [] else j.node ++ str "@") ++ j.domain
      ++ (if j.resource.isEmpty then [] else str "/" ++ j.resource)

example : (ofString (str "Alice@Example.COM/Desk")) =
    ⟨str "alice", str "example.com", str "Desk"⟩ := by decide

end Jid

end Gxmpp
