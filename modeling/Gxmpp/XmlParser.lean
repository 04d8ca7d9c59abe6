/-
`talk/xmllite/xmlparser.cc`, `talk/xmllite/xmlbuilder.cc` and
`talk/xmpp/xmppstanzaparser.cc`: from expat's callbacks to stanzas.

expat itself is a vendored library. It enters the model as the list of callbacks
it makes for the bytes of one `Parse` call, and the status it returns for them;
every list is allowed, so what is proved holds for every way the bytes are split
over the calls. The one thing the code relies on in expat is `XML_ParserReset`,
which returns the parser to the state of a new one: `expatUsed` says whether
bytes were fed since then.

The element under construction is a tree with a cursor in the source
(`pelCurrent_`, with the ancestors in `pvParents_` and the root in `pelRoot_`).
Here the elements from the cursor up to the root are a stack, `open_`, with the
cursor on top; an element joins its parent's children when it is closed instead
of when it is opened, which no reader can see before `CreateElement`.

Line and column numbers are left out: nothing reads them.
-/
import Gxmpp.XmlnsStack

set_option autoImplicit false

namespace Gxmpp

/-- `XML_Error`: the codes `talk/xmllite` raises, and any other of expat's. -/
inductive XmlErrorCode where
  | none
  | syntaxError
  | incorrectEncoding
  | expat (code : Nat)
deriving DecidableEq

/-- A callback of expat. `atts` is the array of names and values. -/
inductive ExpatEvent where
  | startElement (name : Str) (atts : List (Str × Str))
  | endElement (name : Str)
  | characterData (text : Str)
  | xmlDecl (ver enc : Option Str) (standalone : Int)

/-- What `XmppStanzaParser` reports to its handler. -/
inductive StanzaEvent where
  | startStream (stream : XmlElement)
  | stanza (stanza : XmlElement)
  | endStream
  | xmlError

/-! ## `XmlParser::ParseContext` -/

/-- `XmlParser::ParseContext`. -/
structure ParseContext where
  xmlnsstack : XmlnsStack
  raised : XmlErrorCode
deriving DecidableEq

namespace ParseContext

def init : ParseContext := ⟨XmlnsStack.empty, .none⟩

/-- `RaiseError`: the first error stays. -/
def raiseError (c : ParseContext) (err : XmlErrorCode) : ParseContext :=
  if c.raised = .none then { c with raised := err } else c

/-- `StartNamespace`. -/
def startNamespace (c : ParseContext) (pre ns : Str) : ParseContext :=
  { c with xmlnsstack := c.xmlnsstack.addXmlns pre ns }

/-- The text before and after the first ':'. -/
def splitColon (qname : Str) : Option (Str × Str) :=
  match qname.dropWhile (fun ch => ch ≠ 0x3A) with
  | [] => Option.none
  | _ :: rest => some (qname.takeWhile (fun ch => ch ≠ 0x3A), rest)

/-- `ResolveQName`. The empty `QName` is the failure value. -/
def resolveQName (c : ParseContext) (qname : Str) (isAttr : Bool) : QName :=
  match splitColon qname with
  | some (pre, localPart) =>
    match c.xmlnsstack.nsForPrefix pre with
    | some ns => ⟨ns, localPart⟩
    -- a prefix without a binding
    | Option.none => ⟨[], []⟩
  | Option.none =>
    -- the default namespace is not for attributes
    if isAttr then ⟨STR_EMPTY, qname⟩
    else
      match c.xmlnsstack.nsForPrefix STR_EMPTY with
      | some ns => ⟨ns, qname⟩
      | Option.none => ⟨[], []⟩

end ParseContext

/-! ## `XmlBuilder` -/

/-- `XmlBuilder`: the open elements, innermost first, and the finished root. -/
structure XmlBuilder where
  open_ : List XmlElement
  pelRoot : Option XmlElement

namespace XmlBuilder

def init : XmlBuilder := ⟨[], none⟩

/-- The attribute loop of `BuildElement`; `seen` are the names with a namespace. -/
def buildAttrs (c : ParseContext) :
    List (Str × Str) → List QName → XmlElement → Option XmlElement
  | [], _, el => some el
  | (name, value) :: atts, seen, el =>
    let attName := c.resolveQName name true
    if attName.isEmpty then none
    -- two attributes without a namespace are expat's to compare
    else if attName.ns.isEmpty then buildAttrs c atts seen (el.addAttr attName value)
    else if attName ∈ seen then none
    else buildAttrs c atts (attName :: seen) (el.addAttr attName value)

/-- `XmlBuilder::BuildElement`. -/
def buildElement (c : ParseContext) (name : Str) (atts : List (Str × Str)) :
    Option XmlElement :=
  let tagName := c.resolveQName name false
  if tagName.isEmpty then none else buildAttrs c atts [] (XmlElement.new tagName false)

/-- `XmlBuilder::StartElement`, where the element could be built. -/
def startElement (b : XmlBuilder) (el : XmlElement) : XmlBuilder :=
  { b with open_ := el :: b.open_ }

/-- `XmlBuilder::EndElement`. -/
def endElement (b : XmlBuilder) : XmlBuilder :=
  match b.open_ with
  | [] => b
  | [el] => ⟨[], some el⟩
  | el :: parent :: rest => { b with open_ := parent.addElement el :: rest }

/-- `XmlBuilder::CharacterData`. -/
def characterData (b : XmlBuilder) (text : Str) : XmlBuilder :=
  match b.open_ with
  | [] => b
  | el :: rest => { b with open_ := el.addText text :: rest }

/-- `XmlBuilder::CreateElement` releases the root. -/
def createElement (b : XmlBuilder) : XmlBuilder × Option XmlElement :=
  ({ b with pelRoot := none }, b.pelRoot)

end XmlBuilder

/-! ## `XmppStanzaParser` -/

/-- `XmppStanzaParser` with the `XmlParser` it owns. -/
structure XmppStanzaParser where
  context : ParseContext
  sentError : Bool
  expatUsed : Bool
  depth : Int
  builder : XmlBuilder

namespace XmppStanzaParser

/-- `XmppStanzaParser::XmppStanzaParser`. -/
def init : XmppStanzaParser :=
  { context := .init, sentError := false, expatUsed := false, depth := 0, builder := .init }

/-- `XmppStanzaParser::Reset`, with `XmlParser::Reset`. Every member is set anew;
that the result is the state of a new parser is `reset_eq_init`. -/
def reset (p : XmppStanzaParser) : XmppStanzaParser :=
  { p with
    context := { p.context with xmlnsstack := XmlnsStack.empty, raised := .none }
    sentError := false
    expatUsed := false
    depth := 0
    builder := { p.builder with open_ := [], pelRoot := none } }

/-- `XmppStanzaParser::IncomingStartElement`. -/
def incomingStartElement (p : XmppStanzaParser) (name : Str) (atts : List (Str × Str)) :
    XmppStanzaParser × Option StanzaEvent :=
  let first := p.depth = 0
  let p := { p with depth := p.depth + 1 }
  match XmlBuilder.buildElement p.context name atts with
  | none => ({ p with context := p.context.raiseError .syntaxError }, none)
  | some el =>
    -- the element of the stream is reported when it opens, and never built
    if first then (p, some (.startStream el))
    else ({ p with builder := p.builder.startElement el }, none)

/-- `XmppStanzaParser::IncomingCharacterData`. -/
def incomingCharacterData (p : XmppStanzaParser) (text : Str) : XmppStanzaParser :=
  if p.depth > 1 then { p with builder := p.builder.characterData text } else p

/-- `XmppStanzaParser::IncomingEndElement`. -/
def incomingEndElement (p : XmppStanzaParser) : XmppStanzaParser × Option StanzaEvent :=
  let p := { p with depth := p.depth - 1 }
  -- the end of the stream, of a stanza, or of an element inside one
  if p.depth = 0 then (p, some .endStream)
  else
    let b := p.builder.endElement
    if p.depth = 1 then
      ({ p with builder := b.createElement.1 }, b.createElement.2.map .stanza)
    else ({ p with builder := b }, none)

/-- The `xmlns` attributes, in `XmlParser::ExpatStartElement`. An empty namespace is
illegal with a prefix: the error is raised and the rest is not looked at. -/
def declareAtts (c : ParseContext) : List (Str × Str) → ParseContext
  | [] => c
  | (name, value) :: atts =>
    if name = str "xmlns" then declareAtts (c.startNamespace STR_EMPTY value) atts
    else if (str "xmlns:").isPrefixOf name then
      if value.isEmpty then c.raiseError .syntaxError
      else declareAtts (c.startNamespace (name.drop 6) value) atts
    else declareAtts c atts

/-- The encodings `XmlParser::ExpatXmlDecl` accepts: those that begin with "UTF-8",
the letters in any case. -/
def acceptsEncoding : Str → Bool
  | u :: t :: f :: dash :: eight :: _ =>
    (u == 0x55 || u == 0x75) && (t == 0x54 || t == 0x74) && (f == 0x46 || f == 0x66)
      && dash == 0x2D && eight == 0x38
  | _ => false

/-- `XmlParser::ExpatXmlDecl`. -/
def expatXmlDecl (c : ParseContext) (ver enc : Option Str) (standalone : Int) : ParseContext :=
  if ver.isSome && ver ≠ some (str "1.0") then c.raiseError .syntaxError
  else if standalone = 0 then c.raiseError .syntaxError
  else
    match enc with
    | some e => if acceptsEncoding e then c else c.raiseError .incorrectEncoding
    | none => c

/-- One callback of expat: nothing happens once an error is raised. -/
def expatEvent (p : XmppStanzaParser) (ev : ExpatEvent) :
    XmppStanzaParser × Option StanzaEvent :=
  if p.context.raised ≠ .none then (p, none)
  else
    match ev with
    | .startElement name atts =>
      let c := declareAtts { p.context with xmlnsstack := p.context.xmlnsstack.pushFrame } atts
      if c.raised ≠ .none then ({ p with context := c }, none)
      else incomingStartElement { p with context := c } name atts
    | .endElement _ =>
      incomingEndElement
        { p with context := { p.context with xmlnsstack := p.context.xmlnsstack.popFrame } }
    | .characterData text => (incomingCharacterData p text, none)
    | .xmlDecl ver enc standalone =>
      ({ p with context := expatXmlDecl p.context ver enc standalone }, none)

/-- The end of `XmlParser::Parse`, after `XML_Parse` returned `status`: whether the
handler is told of an error. -/
def parseReturned (p : XmppStanzaParser) (status : XmlErrorCode) : XmppStanzaParser × Bool :=
  let p := if status ≠ .none then { p with context := p.context.raiseError status } else p
  if p.context.raised ≠ .none then ({ p with sentError := true }, true) else (p, false)

end XmppStanzaParser

end Gxmpp
