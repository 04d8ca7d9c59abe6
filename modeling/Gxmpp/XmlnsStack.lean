/-
`talk/xmllite/xmlnsstack.cc`: the namespace bindings in force.

`pxmlnsStack_` is a vector of strings read in pairs, searched from its end. Here
it is a list of pairs with the last binding first, so a search from the end is a
search from the head. `pxmlnsDepthStack_` holds the sizes at which the frames
begin, counted in pairs.
-/
import Gxmpp.XmlElement

set_option autoImplicit false

namespace Gxmpp

/-- `XmlnsStack`: bindings (prefix, namespace), the last one first, and the sizes
at which the open frames begin. -/
structure XmlnsStack where
  bindings : List (Str × Str)
  depths : List Nat
deriving DecidableEq

namespace XmlnsStack

/-- `XmlnsStack::XmlnsStack`, and the state after `Reset`. -/
def empty : XmlnsStack := ⟨[], []⟩

/-- `XmlnsStack::AddXmlns`. -/
def addXmlns (s : XmlnsStack) (pre ns : Str) : XmlnsStack :=
  { s with bindings := (pre, ns) :: s.bindings }

/-- `XmlnsStack::PushFrame`. -/
def pushFrame (s : XmlnsStack) : XmlnsStack :=
  { s with depths := s.bindings.length :: s.depths }

/-- `XmlnsStack::PopFrame`: the bindings made since the matching `PushFrame` go. -/
def popFrame (s : XmlnsStack) : XmlnsStack :=
  match s.depths with
  | [] => s
  | n :: ds => ⟨s.bindings.drop (s.bindings.length - n), ds⟩

/-- `NsForPrefix` treats every prefix that begins with "xml" in any case apart. -/
def startsWithXml : Str → Bool
  | x :: m :: l :: _ =>
    (x == 0x78 || x == 0x58) && (m == 0x6D || m == 0x4D) && (l == 0x6C || l == 0x4C)
  | _ => false

/-- `XmlnsStack::NsForPrefix`. The boolean of the pair the source returns is
whether the result is `some`. -/
def nsForPrefix (s : XmlnsStack) (pre : Str) : Option Str :=
  if startsWithXml pre then
    -- these two cannot be bound anew; whatever else begins so is unknown
    if pre = str "xml" then some NS_XML
    else if pre = str "xmlns" then some NS_XMLNS
    else none
  else
    match s.bindings.find? (fun b => b.1 = pre) with
    | some b => some b.2
    -- where no default namespace is declared it is the empty one
    | none => if pre = STR_EMPTY then some STR_EMPTY else none

/-- `XmlnsStack::PrefixMatchesNs`. -/
def prefixMatchesNs (s : XmlnsStack) (pre ns : Str) : Bool := s.nsForPrefix pre = some ns

/-- `XmlnsStack::PrefixForNs`, again with `none` for a false second component. -/
def prefixForNs (s : XmlnsStack) (ns : Str) (isAttr : Bool) : Option Str :=
  if ns = NS_XML then some (str "xml")
  else if ns = NS_XMLNS then some (str "xmlns")
  else if (if isAttr then ns = STR_EMPTY else s.prefixMatchesNs STR_EMPTY ns) then some STR_EMPTY
  else
    -- a binding counts only if no later one hides its prefix
    (s.bindings.find? fun b =>
      b.2 = ns && (!isAttr || !b.1.isEmpty) && s.prefixMatchesNs b.1 ns).map (·.1)

/-- `XmlnsStack::FormatQName`. A namespace without a prefix formats as the bare
local part. -/
def formatQName (s : XmlnsStack) (name : QName) (isAttr : Bool) : Str :=
  let pre := (s.prefixForNs name.ns isAttr).getD STR_EMPTY
  if pre = STR_EMPTY then name.localPart else pre ++ str ":" ++ name.localPart

/-- `IsAsciiLetter`. -/
def isAsciiLetter (ch : UInt8) : Bool :=
  (0x61 ≤ ch && ch ≤ 0x7A) || (0x41 ≤ ch && ch ≤ 0x5A)

/-- `AsciiLower`. -/
def asciiLower (s : Str) : Str :=
  s.map fun ch => if 0x41 ≤ ch && ch ≤ 0x5A then ch + 0x20 else ch

/-- The length that is left after a file extension is cut off: `len - i <= 5` for
the index `i` of the last dot. -/
def chopExtension (ns : Str) : Nat :=
  let tail := ns.reverse.takeWhile (fun ch => ch ≠ 0x2E)
  if tail.length < ns.length && tail.length + 1 ≤ 5 then ns.length - (tail.length + 1)
  else ns.length

/-- `SuggestPrefix`: the last run of letters (three of them when it is longer than
four), in lower case, unless it begins with "xml". -/
def suggestPrefix (ns : Str) : Str :=
  let run := (((ns.take (chopExtension ns)).reverse.dropWhile
    (fun ch => !isAsciiLetter ch)).takeWhile isAsciiLetter).reverse
  let candidate := asciiLower (if run.length > 4 then run.take 3 else run)
  if run.isEmpty || (str "xml").isPrefixOf candidate then str "ns" else candidate

/-- The decimal digits of a number, as `operator<<` prints them. -/
def decimal (n : Nat) : Str := (Nat.toDigits 10 n).map fun c => UInt8.ofNat c.toNat

/-- The loop of `AddNewPrefix`. Each round that goes on has met a bound prefix, and
the candidates are distinct, so one round more than there are bindings is
enough; `fuel` counts them. -/
def inventPrefix (s : XmlnsStack) (base : Str) : Nat → Nat → Str → Str
  | 0, _, result => result
  | fuel + 1, i, result =>
    if (s.nsForPrefix result).isSome then
      inventPrefix s base fuel (i + 1) (base ++ decimal i)
    else result

/-- `XmlnsStack::AddNewPrefix`: the new prefix, if one was needed. -/
def addNewPrefix (s : XmlnsStack) (ns : Str) (isAttr : Bool) : XmlnsStack × Option Str :=
  if (s.prefixForNs ns isAttr).isSome then (s, none)
  else
    let base := suggestPrefix ns
    let result := inventPrefix s base (s.bindings.length + 1) 2 base
    (s.addXmlns result ns, some result)

end XmlnsStack

end Gxmpp
