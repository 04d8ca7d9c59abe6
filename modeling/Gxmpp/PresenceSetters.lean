/-
`talk/xmpp/rostermoduleimpl.cc`: the setters of a presence and what its getters say then.

A presence is its XML. Three of the setters do the same to it: they take out every child of
one name and put one with a text in its place, or none. The fourth sets the type of the
stanza. A getter reads the first child of a name, or the type, so a setter is seen by its own
getter and by no other (`presence_setters`).

That is so for a presence that has XML. The first call of a setter gives one without a skeleton.
-/
import Gxmpp.Engine
import Gxmpp.ChatroomModule
import Gxmpp.PrinterScope
import Gxmpp.XmlEdit
import Mathlib.Algebra.Group.Int.Defs

set_option autoImplicit false

namespace Gxmpp

def QN_SHOW : QName := ⟨NS_CLIENT, str "show"⟩
def QN_STATUS : QName := ⟨NS_CLIENT, str "status"⟩
def QN_PRIORITY : QName := ⟨NS_CLIENT, str "priority"⟩
def QN_XML_LANG : QName := ⟨NS_XML, str "lang"⟩

def STR_SHOW_AWAY : Str := str "away"
def STR_SHOW_CHAT : Str := str "chat"
def STR_SHOW_DND : Str := str "dnd"
def STR_SHOW_XA : Str := str "xa"

/-! ## 1. Numbers and text -/

/-- `operator<<` of an `int`. -/
def printInt (n : Int) : Str :=
  if n < 0 then 0x2D :: XmlnsStack.decimal n.natAbs else XmlnsStack.decimal n.natAbs

/-- The number that `operator>>` reads, of these digits and with this sign. It fails where there
is no digit, and where the number does not fit. -/
def readDigits (negative : Bool) (digits : Str) : Option Int :=
  if (digits.takeWhile fun ch => 0x30 ≤ ch && ch ≤ 0x39).isEmpty then none
  else
    let n : Int := if negative then -(atoiDigits digits : Int) else atoiDigits digits
    if -2 ^ 31 ≤ n ∧ n < 2 ^ 31 then some n else none

/-- `talk_base::FromString` of an `int`: what `operator>>` reads, if it does not fail. -/
def fromString (s : Str) : Option Int :=
  match s.dropWhile isspace with
  | [] => none
  | ch :: rest =>
    if ch = 0x2D then readDigits true rest
    else if ch = 0x2B then readDigits false rest
    else readDigits false (ch :: rest)

/-- A digit is no space and no sign. -/
theorem plain_of_isDigit {ch : UInt8} (h : XmlnsStack.isDigit ch = true) :
    isspace ch = false ∧ ch ≠ 0x2D ∧ ch ≠ 0x2B := by
  have htest := byte_forall (fun ch => !XmlnsStack.isDigit ch ||
    (!isspace ch && (ch ≠ 0x2D && ch ≠ 0x2B))) (by decide +kernel) ch
  rw [h] at htest
  simpa using htest

/-- The digits that are printed are read. -/
theorem takeWhile_decimal (n : Nat) :
    (XmlnsStack.decimal n).takeWhile (fun ch => 0x30 ≤ ch && ch ≤ 0x39) = XmlnsStack.decimal n :=
  List.takeWhile_eq_self_iff.2 (XmlnsStack.isDigit_decimal n)

theorem atoiDigits_decimal (n : Nat) : atoiDigits (XmlnsStack.decimal n) = n := by
  unfold atoiDigits
  rw [takeWhile_decimal]
  unfold XmlnsStack.decimal
  rw [List.foldl_map]
  refine Eq.trans ?_ (Nat.ofDigitChars_ten_toDigits (n := n))
  unfold Nat.ofDigitChars
  refine List.foldl_ext _ _ 0 fun k c hc => ?_
  have hdigit := Nat.isDigit_of_mem_toDigits (by decide) (by decide) hc
  obtain ⟨hlo, hhi⟩ := Char.isDigit_iff_toNat.1 hdigit
  rw [show '9'.toNat = 57 from rfl] at hhi
  have hmod : c.toNat % 2 ^ 8 = c.toNat := Nat.mod_eq_of_lt (by omega)
  rw [UInt8.toNat_ofNat', hmod]
  rfl

theorem readDigits_decimal (negative : Bool) {n : Nat} {m : Int}
    (hm : m = if negative then -(n : Int) else n) (hlo : -2 ^ 31 ≤ m) (hhi : m < 2 ^ 31) :
    readDigits negative (XmlnsStack.decimal n) = some m := by
  unfold readDigits
  rw [takeWhile_decimal, atoiDigits_decimal]
  have hne : ¬(XmlnsStack.decimal n).isEmpty = true :=
    fun hnil => XmlnsStack.decimal_ne_nil n (List.isEmpty_iff.1 hnil)
  rw [if_neg hne]
  dsimp only
  rw [← hm]
  exact if_pos ⟨hlo, hhi⟩

/-- What is printed is read. -/
theorem fromString_printInt {n : Int} (hlo : -2 ^ 31 ≤ n) (hhi : n < 2 ^ 31) :
    fromString (printInt n) = some n := by
  unfold printInt
  by_cases hneg : n < 0
  · rw [if_pos hneg]
    have hread : fromString (0x2D :: XmlnsStack.decimal n.natAbs)
        = readDigits true (XmlnsStack.decimal n.natAbs) := rfl
    rw [hread]
    exact readDigits_decimal true (by rw [if_pos rfl]; omega) hlo hhi
  · rw [if_neg hneg]
    -- a digit is neither a space nor a sign
    have hread : fromString (XmlnsStack.decimal n.natAbs)
        = readDigits false (XmlnsStack.decimal n.natAbs) := by
      have hdigits := XmlnsStack.isDigit_decimal n.natAbs
      unfold fromString
      cases hdecimal : XmlnsStack.decimal n.natAbs with
      | nil => exact absurd hdecimal (XmlnsStack.decimal_ne_nil _)
      | cons ch rest =>
        have hch := hdigits ch (by rw [hdecimal]; exact List.mem_cons_self)
        have htest := plain_of_isDigit hch
        rw [List.dropWhile_cons_of_neg (by rw [htest.1]; exact Bool.false_ne_true)]
        dsimp only
        rw [if_neg htest.2.1, if_neg htest.2.2]
    rw [hread]
    exact readDigits_decimal false (by rw [if_neg Bool.false_ne_true]; omega) hlo hhi

/-! ## 2. The values -/

/-- `XmppPresenceShow`, which an `int` may be cast to. -/
inductive XmppPresenceShow where
  | chat
  | default
  | away
  | xa
  | dnd
  | other (value : Nat)
deriving DecidableEq

/-- `StringToPresenceShow`. -/
def stringToPresenceShow (input : Str) : Option XmppPresenceShow :=
  if STR_SHOW_AWAY = input then some .away
  else if STR_SHOW_DND = input then some .dnd
  else if STR_SHOW_XA = input then some .xa
  else if STR_SHOW_CHAT = input then some .chat
  else if STR_EMPTY = input then some .default
  else none

/-- `PresenceShowToString`. -/
def presenceShowToString : XmppPresenceShow → Option Str
  | .away => some STR_SHOW_AWAY
  | .chat => some STR_SHOW_CHAT
  | .xa => some STR_SHOW_XA
  | .dnd => some STR_SHOW_DND
  | .default => some STR_EMPTY
  | .other _ => none

namespace XmlElement

/-- `ClearNamedChildren(name)`, and then a child of that name with a text, if there is one. -/
def replaceNamed (e : XmlElement) (name : QName) (text : Option Str) : XmlElement :=
  match text with
  | none => e.clearNamedChildren name
  | some text => (e.clearNamedChildren name).addNamedText name text

theorem named_replaceNamed_self (e : XmlElement) (name : QName) (text : Option Str) :
    (e.replaceNamed name text).named name = (text.map (textElement name)).toList := by
  unfold replaceNamed
  cases text with
  | none => exact e.named_clearNamedChildren_self name
  | some text =>
    dsimp only
    rw [addNamedText_eq, named_addElement, named_clearNamedChildren_self,
      if_pos (textElement_name name text)]
    rfl

theorem named_replaceNamed_ne (e : XmlElement) {name other : QName} (text : Option Str)
    (h : other ≠ name) : (e.replaceNamed name text).named other = e.named other := by
  unfold replaceNamed
  cases text with
  | none => exact e.named_clearNamedChildren_ne h
  | some text =>
    dsimp only
    rw [addNamedText_eq, named_addElement, named_clearNamedChildren_ne e h,
      if_neg (by rw [textElement_name]; exact h.symm), List.append_nil]

theorem attrs_replaceNamed (e : XmlElement) (name : QName) (text : Option Str) :
    (e.replaceNamed name text).attrs = e.attrs := by
  unfold replaceNamed
  cases text with
  | none => rfl
  | some text =>
    dsimp only
    rw [addNamedText_eq]
    rfl

/-- No attribute stands twice, as in every well-formed element; `AddAttr` asserts it. -/
def AttrsDistinct (e : XmlElement) : Prop := (e.attrs.map XmlAttr.name).Nodup

theorem map_name_replaceAttr (name : QName) (value : Str) (attrs : List XmlAttr) :
    (replaceAttr name value attrs).map XmlAttr.name = attrs.map XmlAttr.name := by
  induction attrs with
  | nil => rfl
  | cons a as ih =>
    rw [replaceAttr]
    split
    · next ha => rw [List.map_cons, List.map_cons, ha]
    · rw [List.map_cons, List.map_cons, ih]

theorem AttrsDistinct.setAttr {e : XmlElement} (h : e.AttrsDistinct) (name : QName)
    (value : Str) : (e.setAttr name value).AttrsDistinct := by
  unfold AttrsDistinct XmlElement.setAttr at *
  split
  · rw [map_name_replaceAttr]
    exact h
  · next hnot =>
      unfold addAttr
      rw [List.map_append, List.nodup_append]
      refine ⟨h, List.nodup_singleton name, fun a ha b hb => ?_⟩
      obtain rfl := List.mem_singleton.1 hb
      obtain ⟨x, hx, rfl⟩ := List.mem_map.1 ha
      rintro rfl
      exact hnot (List.any_eq_true.2 ⟨x, hx, decide_eq_true rfl⟩)

theorem AttrsDistinct.clearAttr {e : XmlElement} (h : e.AttrsDistinct) (name : QName) :
    (e.clearAttr name).AttrsDistinct :=
  h.sublist ((List.eraseP_sublist).map XmlAttr.name)

/-- The attribute is gone if it stood once. -/
theorem attr_clearAttr_self {e : XmlElement} (h : e.AttrsDistinct) (name : QName) :
    (e.clearAttr name).attr name = [] := by
  unfold AttrsDistinct at h
  unfold attr clearAttr
  dsimp only
  have hnone : (e.attrs.eraseP fun a => a.name = name).find? (fun a => a.name = name) = none := by
    generalize e.attrs = attrs at h
    induction attrs with
    | nil => rfl
    | cons a as ih =>
      rw [List.map_cons, List.nodup_cons] at h
      by_cases ha : a.name = name
      · rw [List.eraseP_cons_of_pos (by simpa using ha), List.find?_eq_none]
        intro b hb hname
        refine h.1 ?_
        rw [ha, ← of_decide_eq_true hname]
        exact List.mem_map_of_mem hb
      · rw [List.eraseP_cons_of_neg (by simpa using ha),
          List.find?_cons_of_neg (by simpa using ha)]
        exact ih h.2
  rw [hnone]
  rfl

end XmlElement

/-! ## 3. The getters and the setters -/

namespace XmppPresenceImpl

/-- `XmppPresenceImpl::CreateRawXmlSkeleton`, where there is no XML yet. -/
def xml (p : XmppPresenceImpl) : XmlElement :=
  p.raw_xml.getD (XmlElement.new QN_PRESENCE false)

/-- `XmppPresenceImpl::presence_show`. -/
def presenceShow (p : XmppPresenceImpl) : XmppPresenceShow :=
  match p.raw_xml with
  | none => .default
  | some raw_xml => (stringToPresenceShow (raw_xml.textNamed QN_SHOW)).getD .default

/-- `XmppPresenceImpl::priority`. -/
def priority (p : XmppPresenceImpl) : Int :=
  match p.raw_xml with
  | none => 0
  | some raw_xml =>
    let raw_priority := (fromString (raw_xml.textNamed QN_PRIORITY)).getD 0
    let raw_priority := if raw_priority < -128 then -128 else raw_priority
    if raw_priority > 127 then 127 else raw_priority

/-- `XmppPresenceImpl::status`: the first status without a language, or else the first. -/
def status (p : XmppPresenceImpl) : Str :=
  match p.raw_xml with
  | none => STR_EMPTY
  | some raw_xml =>
    let elements := raw_xml.named QN_STATUS
    match (elements.find? fun element => !element.hasAttr QN_XML_LANG).or elements.head? with
    | some status_element => status_element.bodyText
    | none => STR_EMPTY

/-- `XmppPresenceImpl::set_available`. -/
def setAvailable (p : XmppPresenceImpl) (value : XmppPresenceAvailable) :
    XmppReturnStatus × XmppPresenceImpl :=
  let raw_xml :=
    match value with
    | .available => p.xml.clearAttr QN_TYPE
    | .unavailable => p.xml.setAttr QN_TYPE (str "unavailable")
    | .error => p.xml.setAttr QN_TYPE (str "error")
  (.ok, ⟨some raw_xml⟩)

/-- `XmppPresenceImpl::set_presence_show`. -/
def setPresenceShow (p : XmppPresenceImpl) (show_ : XmppPresenceShow) :
    XmppReturnStatus × XmppPresenceImpl :=
  match presenceShowToString show_ with
  | none => (.badArgument, ⟨some p.xml⟩)
  | some show_string =>
    (.ok, ⟨some (p.xml.replaceNamed QN_SHOW
      (if show_ ≠ .default then some show_string else none))⟩)

/-- `XmppPresenceImpl::set_priority`. -/
def setPriority (p : XmppPresenceImpl) (priority : Int) : XmppReturnStatus × XmppPresenceImpl :=
  if priority < -128 ∨ priority > 127 then (.badArgument, ⟨some p.xml⟩)
  else
    (.ok, ⟨some (p.xml.replaceNamed QN_PRIORITY
      (if 0 ≠ priority then some (printInt priority) else none))⟩)

/-- `XmppPresenceImpl::set_status`. -/
def setStatus (p : XmppPresenceImpl) (status : Str) : XmppReturnStatus × XmppPresenceImpl :=
  (.ok, ⟨some (p.xml.replaceNamed QN_STATUS (if status ≠ STR_EMPTY then some status else none))⟩)

end XmppPresenceImpl

/-- What the four getters say. -/
structure PresenceReadings where
  available : XmppPresenceAvailable
  presenceShow : XmppPresenceShow
  priority : Int
  status : Str
deriving DecidableEq

/-- The getters of a presence. -/
def XmppPresenceImpl.readings (p : XmppPresenceImpl) : PresenceReadings :=
  ⟨p.available, p.presenceShow, p.priority, p.status⟩

/-- A call of a setter. -/
inductive PresenceCall where
  | setAvailable (value : XmppPresenceAvailable)
  | setPresenceShow (show_ : XmppPresenceShow)
  | setPriority (priority : Int)
  | setStatus (status : Str)

namespace PresenceCall

/-- The call is made. -/
def on (p : XmppPresenceImpl) : PresenceCall → XmppReturnStatus × XmppPresenceImpl
  | setAvailable value => p.setAvailable value
  | setPresenceShow show_ => p.setPresenceShow show_
  | setPriority priority => p.setPriority priority
  | setStatus status => p.setStatus status

/-- The value is one that the setter takes. -/
def Takes : PresenceCall → Prop
  | setPresenceShow show_ => (presenceShowToString show_).isSome = true
  | setPriority priority => -128 ≤ priority ∧ priority ≤ 127
  | _ => True

/-- What the getters are to say: the one of the setter the value, the others what they said. -/
def put (r : PresenceReadings) : PresenceCall → PresenceReadings
  | setAvailable value => { r with available := value }
  | setPresenceShow show_ => { r with presenceShow := show_ }
  | setPriority priority => { r with priority }
  | setStatus status => { r with status }

end PresenceCall

/-! ## 4. The laws -/

section Laws

variable {e e' : XmlElement}

open XmppPresenceImpl

theorem available_eq (h : e'.attr QN_TYPE = e.attr QN_TYPE) :
    available ⟨some e'⟩ = available ⟨some e⟩ := by
  unfold available
  dsimp only
  rw [h]

theorem textNamed_eq {name : QName} (h : e'.named name = e.named name) :
    e'.textNamed name = e.textNamed name := by
  unfold XmlElement.textNamed XmlElement.firstNamed
  rw [h]

theorem presenceShow_eq (h : e'.named QN_SHOW = e.named QN_SHOW) :
    presenceShow ⟨some e'⟩ = presenceShow ⟨some e⟩ := by
  unfold presenceShow
  dsimp only
  rw [textNamed_eq h]

theorem priority_eq (h : e'.named QN_PRIORITY = e.named QN_PRIORITY) :
    priority ⟨some e'⟩ = priority ⟨some e⟩ := by
  unfold priority
  dsimp only
  rw [textNamed_eq h]

theorem status_eq (h : e'.named QN_STATUS = e.named QN_STATUS) :
    status ⟨some e'⟩ = status ⟨some e⟩ := by
  unfold status
  dsimp only
  rw [h]

/-- The text of the child that was put in. -/
theorem textNamed_replaceNamed (e : XmlElement) (name : QName) (text : Option Str) :
    (e.replaceNamed name text).textNamed name = text.getD [] := by
  unfold XmlElement.textNamed XmlElement.firstNamed
  rw [XmlElement.named_replaceNamed_self]
  cases text with
  | none => rfl
  | some text => exact XmlElement.textElement_bodyText name text

theorem available_replaceNamed (e : XmlElement) (name : QName) (text : Option Str) :
    available ⟨some (e.replaceNamed name text)⟩ = available ⟨some e⟩ := by
  refine available_eq ?_
  unfold XmlElement.attr
  rw [XmlElement.attrs_replaceNamed]

theorem setAvailable_available (h : e.AttrsDistinct) (value : XmppPresenceAvailable) :
    (XmppPresenceImpl.setAvailable ⟨some e⟩ value).2.available = value := by
  cases value with
  | available =>
    show available ⟨some (e.clearAttr QN_TYPE)⟩ = .available
    unfold available
    dsimp only
    rw [XmlElement.attr_clearAttr_self h]
    decide
  | unavailable =>
    show available ⟨some (e.setAttr QN_TYPE (str "unavailable"))⟩ = .unavailable
    unfold available
    dsimp only
    rw [XmlElement.attr_setAttr_self, if_pos rfl]
  | error =>
    show available ⟨some (e.setAttr QN_TYPE (str "error"))⟩ = .error
    unfold available
    dsimp only
    rw [XmlElement.attr_setAttr_self]
    decide

/-- The type is not among the children. -/
theorem setAvailable_children (value : XmppPresenceAvailable) :
    ∃ e', XmppPresenceImpl.setAvailable ⟨some e⟩ value = (.ok, ⟨some e'⟩) ∧
      e'.children = e.children ∧ (e.AttrsDistinct → e'.AttrsDistinct) := by
  have hset : ∀ text : Str, (e.setAttr QN_TYPE text).children = e.children := by
    intro text
    unfold XmlElement.setAttr
    split <;> rfl
  cases value with
  | available => exact ⟨_, rfl, rfl, fun h => h.clearAttr QN_TYPE⟩
  | unavailable | error => exact ⟨_, rfl, hset _, fun h => h.setAttr QN_TYPE _⟩

/-- A show is read back from its text, and the default one from no text. -/
theorem setPresenceShow_presenceShow {show_ : XmppPresenceShow} {show_string : Str}
    (h : presenceShowToString show_ = some show_string) :
    presenceShow ⟨some (e.replaceNamed QN_SHOW
      (if show_ ≠ .default then some show_string else none))⟩ = show_ := by
  unfold presenceShow
  dsimp only
  rw [textNamed_replaceNamed]
  cases show_ with
  | other value => cases h
  | chat | default | away | xa | dnd => obtain rfl := Option.some.inj h; decide

theorem setPriority_priority {n : Int} (hlo : -128 ≤ n) (hhi : n ≤ 127) :
    priority ⟨some (e.replaceNamed QN_PRIORITY (if 0 ≠ n then some (printInt n) else none))⟩
      = n := by
  have hread : (fromString ((if 0 ≠ n then some (printInt n) else none).getD [])).getD 0 = n := by
    by_cases hzero : n = 0
    · subst hzero
      rfl
    · rw [if_pos (Ne.symm hzero), Option.getD_some, fromString_printInt (by omega) (by omega),
        Option.getD_some]
  unfold priority
  dsimp only
  rw [textNamed_replaceNamed, hread, if_neg (by omega), if_neg (by omega)]

theorem setStatus_status (text : Str) :
    status ⟨some (e.replaceNamed QN_STATUS (if text ≠ STR_EMPTY then some text else none))⟩
      = text := by
  unfold status
  dsimp only
  rw [XmlElement.named_replaceNamed_self]
  by_cases hempty : text = STR_EMPTY
  · subst hempty
    rfl
  · -- the one status has no language
    rw [if_pos hempty, Option.map_some, Option.toList_some,
      List.find?_cons_of_pos (by rw [XmlElement.textElement_hasAttr]; rfl), Option.some_or]
    exact XmlElement.textElement_bodyText QN_STATUS text

/-- One setter, on a presence that has XML. -/
theorem setter_lawful (h : e.AttrsDistinct) (call : PresenceCall) :
    ((call.on ⟨some e⟩).1 = .ok ∧ call.Takes ∧
        (call.on ⟨some e⟩).2.readings = call.put (readings ⟨some e⟩) ∨
      (call.on ⟨some e⟩).1 = .badArgument ∧ ¬call.Takes ∧
        (call.on ⟨some e⟩).2.readings = readings ⟨some e⟩) ∧
    ∃ e', (call.on ⟨some e⟩).2 = ⟨some e'⟩ ∧ e'.AttrsDistinct := by
  have hdistinct : ∀ (name : QName) (text : Option Str), (e.replaceNamed name text).AttrsDistinct :=
    fun name text => by
      unfold XmlElement.AttrsDistinct
      rw [XmlElement.attrs_replaceNamed]
      exact h
  cases call with
  | setAvailable value =>
    obtain ⟨e', he', hchildren, hkeeps⟩ := setAvailable_children (e := e) value
    have hnamed : ∀ name, e'.named name = e.named name := by
      intro name
      unfold XmlElement.named XmlElement.elements
      rw [hchildren]
    have hvalue := setAvailable_available h value
    have hon : PresenceCall.on ⟨some e⟩ (.setAvailable value) = (.ok, ⟨some e'⟩) := he'
    rw [he'] at hvalue
    rw [hon]
    refine ⟨Or.inl ⟨rfl, trivial, ?_⟩, e', rfl, hkeeps h⟩
    unfold readings PresenceCall.put
    dsimp only at hvalue ⊢
    rw [hvalue, presenceShow_eq (hnamed _), priority_eq (hnamed _), status_eq (hnamed _)]
  | setPresenceShow show_ =>
    cases hstring : presenceShowToString show_ with
    | none =>
      have hon : PresenceCall.on ⟨some e⟩ (.setPresenceShow show_)
          = (.badArgument, ⟨some e⟩) := by
        show XmppPresenceImpl.setPresenceShow ⟨some e⟩ show_ = _
        unfold XmppPresenceImpl.setPresenceShow
        rw [hstring]
        rfl
      have hrefuses : ¬PresenceCall.Takes (.setPresenceShow show_) := by
        unfold PresenceCall.Takes
        dsimp only
        rw [hstring]
        exact Bool.false_ne_true
      rw [hon]
      exact ⟨Or.inr ⟨rfl, hrefuses, rfl⟩, e, rfl, h⟩
    | some show_string =>
      have hon : PresenceCall.on ⟨some e⟩ (.setPresenceShow show_)
          = (.ok, ⟨some (e.replaceNamed QN_SHOW
            (if show_ ≠ .default then some show_string else none))⟩) := by
        show XmppPresenceImpl.setPresenceShow ⟨some e⟩ show_ = _
        unfold XmppPresenceImpl.setPresenceShow
        rw [hstring]
        rfl
      have htakes : PresenceCall.Takes (.setPresenceShow show_) := by
        unfold PresenceCall.Takes
        dsimp only
        rw [hstring]
        rfl
      rw [hon]
      refine ⟨Or.inl ⟨rfl, htakes, ?_⟩, _, rfl, hdistinct _ _⟩
      unfold readings PresenceCall.put
      dsimp only
      rw [available_replaceNamed, setPresenceShow_presenceShow hstring,
        priority_eq (e.named_replaceNamed_ne _ (by decide)),
        status_eq (e.named_replaceNamed_ne _ (by decide))]
  | setPriority n =>
    unfold PresenceCall.on XmppPresenceImpl.setPriority PresenceCall.Takes
    by_cases hbad : n < -128 ∨ n > 127
    · dsimp only
      rw [if_pos hbad]
      exact ⟨Or.inr ⟨rfl, by omega, rfl⟩, e, rfl, h⟩
    · dsimp only
      rw [if_neg hbad]
      refine ⟨Or.inl ⟨rfl, by omega, ?_⟩, _, rfl, hdistinct _ _⟩
      show readings ⟨some (e.replaceNamed QN_PRIORITY _)⟩ = _
      unfold readings PresenceCall.put
      dsimp only
      rw [available_replaceNamed, setPriority_priority (by omega) (by omega),
        presenceShow_eq (e.named_replaceNamed_ne _ (by decide)),
        status_eq (e.named_replaceNamed_ne _ (by decide))]
  | setStatus text =>
    refine ⟨Or.inl ⟨rfl, trivial, ?_⟩, _, rfl, hdistinct _ _⟩
    show readings ⟨some (e.replaceNamed QN_STATUS _)⟩ = _
    unfold readings PresenceCall.put
    dsimp only
    rw [available_replaceNamed, setStatus_status,
      presenceShow_eq (e.named_replaceNamed_ne _ (by decide)),
      priority_eq (e.named_replaceNamed_ne _ (by decide))]

end Laws

/-- The presence after some calls of setters. -/
def XmppPresenceImpl.calls (p : XmppPresenceImpl) (l : List PresenceCall) : XmppPresenceImpl :=
  l.foldl (fun p call => (call.on p).2) p

/-- The XML keeps its attributes apart, whatever is set. -/
theorem calls_distinct {e : XmlElement} (h : e.AttrsDistinct) (l : List PresenceCall) :
    ∃ e', XmppPresenceImpl.calls ⟨some e⟩ l = ⟨some e'⟩ ∧ e'.AttrsDistinct := by
  induction l generalizing e with
  | nil => exact ⟨e, rfl, h⟩
  | cons call l ih =>
    obtain ⟨-, e', he', hdistinct⟩ := setter_lawful h call
    obtain ⟨e'', he'', hdistinct'⟩ := ih hdistinct
    refine ⟨e'', ?_, hdistinct'⟩
    rw [← he'', ← he']
    rfl

/-- From any XML that a presence was given, and after any calls of its setters, a setter that
takes its value makes its getter return it and leaves the other three getters alone, and one
that does not take it leaves all four alone. -/
theorem presence_setters {xml : XmlElement} (hdistinct : xml.AttrsDistinct)
    {p : XmppPresenceImpl} (hp : XmppPresenceImpl.init.setRawXml xml = some p)
    (l : List PresenceCall) (call : PresenceCall) :
    (call.Takes → (call.on (p.calls l)).1 = .ok ∧
      (call.on (p.calls l)).2.readings = call.put (p.calls l).readings) ∧
    (¬call.Takes → (call.on (p.calls l)).1 = .badArgument ∧
      (call.on (p.calls l)).2.readings = (p.calls l).readings) := by
  have hxml : p = ⟨some xml⟩ := by
    unfold XmppPresenceImpl.setRawXml at hp
    split at hp
    · cases hp
    · exact (Option.some.inj hp).symm
  subst hxml
  obtain ⟨e, he, hdistinct'⟩ := calls_distinct hdistinct l
  rw [he]
  rcases (setter_lawful hdistinct' call).1 with ⟨hok, htakes, hput⟩ | ⟨hbad, hrefuses, hsame⟩
  · exact ⟨fun _ => ⟨hok, hput⟩, fun hnot => absurd htakes hnot⟩
  · exact ⟨fun htakes => absurd htakes hrefuses, fun _ => ⟨hbad, hsame⟩⟩

/-- A presence with two statuses and a text, of which the priority is set and then the status. -/
def busyPresence : XmlElement :=
  ((((XmlElement.new QN_PRESENCE false).addAttr QN_FROM (str "m@y")).addNamedText QN_STATUS
    (str "busy")).addText (str " ")).addNamedText QN_STATUS (str "out")

theorem busyPresence_distinct : busyPresence.AttrsDistinct := by
  unfold XmlElement.AttrsDistinct
  decide

theorem presence_setters_busy :
    (PresenceCall.Takes (.setStatus (str "in")) →
      ((PresenceCall.setStatus (str "in")).on
        (XmppPresenceImpl.calls ⟨some busyPresence⟩ [.setPriority (-5)])).1 = .ok ∧
      ((PresenceCall.setStatus (str "in")).on
        (XmppPresenceImpl.calls ⟨some busyPresence⟩ [.setPriority (-5)])).2.readings
          = PresenceCall.put
            (XmppPresenceImpl.calls ⟨some busyPresence⟩ [.setPriority (-5)]).readings
            (.setStatus (str "in"))) ∧
    (¬PresenceCall.Takes (.setStatus (str "in")) →
      ((PresenceCall.setStatus (str "in")).on
        (XmppPresenceImpl.calls ⟨some busyPresence⟩ [.setPriority (-5)])).1 = .badArgument ∧
      ((PresenceCall.setStatus (str "in")).on
        (XmppPresenceImpl.calls ⟨some busyPresence⟩ [.setPriority (-5)])).2.readings
          = (XmppPresenceImpl.calls ⟨some busyPresence⟩ [.setPriority (-5)]).readings) :=
  presence_setters busyPresence_distinct rfl [.setPriority (-5)] (.setStatus (str "in"))

end Gxmpp
