/-
`talk/xmllite/xmlprinter.cc`: from an element to its text.

`XmlPrinterImpl` writes to a stream and to the namespace stack it was given. The
model threads the stack and returns the text. The engine always prints with its
own stack, on which the stream namespaces are bound.
-/
import Gxmpp.XmlnsStack

set_option autoImplicit false

namespace Gxmpp.XmlPrinter

open Gxmpp

/-- What `PrintQuotedValue` writes for one character. -/
def quotedChar (ch : UInt8) : Str :=
  if ch = 0x3C then str "&lt;"
  else if ch = 0x3E then str "&gt;"
  else if ch = 0x26 then str "&amp;"
  else if ch = 0x22 then str "&quot;"
  else [ch]

/-- `XmlPrinterImpl::PrintQuotedValue`. -/
def printQuotedValue (text : Str) : Str := text.flatMap quotedChar

/-- What `PrintBodyText` writes for one character. -/
def bodyChar (ch : UInt8) : Str :=
  if ch = 0x3C then str "&lt;"
  else if ch = 0x3E then str "&gt;"
  else if ch = 0x26 then str "&amp;"
  else [ch]

/-- `XmlPrinterImpl::PrintBodyText`. -/
def printBodyText (text : Str) : Str := text.flatMap bodyChar

/-- `XmlPrinterImpl::PrintCDATAText`. -/
def printCDATAText (text : Str) : Str := str "<![CDATA[" ++ text ++ str "]]>"

/-- The bindings the element's own `xmlns` attributes make. -/
def declared (ns : XmlnsStack) (attrs : List XmlAttr) : XmlnsStack :=
  attrs.foldl (fun s a =>
    if a.name = QN_XMLNS then s.addXmlns STR_EMPTY a.value
    else if a.name.ns = NS_XMLNS then s.addXmlns a.name.localPart a.value
    else s) ns

/-- `AddNewPrefix`, with the new binding recorded in `new_ns`. -/
def needPrefix (acc : XmlnsStack × List (Str × Str)) (ns : Str) (isAttr : Bool) :
    XmlnsStack × List (Str × Str) :=
  match acc.1.addNewPrefix ns isAttr with
  | (s, some pre) => (s, acc.2 ++ [(pre, ns)])
  | (s, none) => (s, acc.2)

/-- The bindings needed for the element's name and its attributes. -/
def needed (ns : XmlnsStack) (name : QName) (attrs : List XmlAttr) :
    XmlnsStack × List (Str × Str) :=
  attrs.foldl (fun acc a => needPrefix acc a.name.ns true) (needPrefix (ns, []) name.ns false)

/-- One attribute. -/
def printAttr (ns : XmlnsStack) (a : XmlAttr) : Str :=
  str " " ++ ns.formatQName a.name true ++ str "=\"" ++ printQuotedValue a.value ++ str "\""

/-- One declaration from `new_ns`. -/
def printXmlns (b : Str × Str) : Str :=
  if b.1 = STR_EMPTY then str " xmlns=\"" ++ b.2 ++ str "\""
  else str " xmlns:" ++ b.1 ++ str "=\"" ++ b.2 ++ str "\""

mutual

/-- `XmlPrinterImpl::PrintElement`. -/
def printElement : XmlnsStack → XmlElement → Str × XmlnsStack
  | ns, ⟨name, attrs, children, cdata⟩ =>
    let bound := needed (declared ns.pushFrame attrs) name attrs
    let start := str "<" ++ bound.1.formatQName name false
      ++ attrs.flatMap (printAttr bound.1) ++ bound.2.flatMap printXmlns
    if children.isEmpty then (start ++ str "/>", bound.1.popFrame)
    else
      -- the children are printed under the element's own bindings
      let body := printChildren bound.1 cdata children
      (start ++ str ">" ++ body.1 ++ str "</" ++ body.2.formatQName name false ++ str ">",
        body.2.popFrame)

/-- The loop of `PrintElement` over the children. -/
def printChildren : XmlnsStack → Bool → List XmlChild → Str × XmlnsStack
  | ns, _, [] => ([], ns)
  | ns, cdata, c :: cs =>
    let head := printChild ns cdata c
    let rest := printChildren head.2 cdata cs
    (head.1 ++ rest.1, rest.2)

/-- One child. -/
def printChild : XmlnsStack → Bool → XmlChild → Str × XmlnsStack
  | ns, cdata, .text t => (if cdata then printCDATAText t else printBodyText t, ns)
  | ns, _, .element e => printElement ns e

end

/-- `XmlPrinter::PrintXml`. -/
def printXml (ns : XmlnsStack) (e : XmlElement) : Str × XmlnsStack := printElement ns e

end Gxmpp.XmlPrinter
