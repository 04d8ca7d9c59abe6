/-
`talk/xmpp/presenceouttask.cc` and `talk/xmpp/presencereceivetask.cc`: a presence as XML, written
by one task and read by the other.

What the writer leaves out the reader takes for its default, and a status of more than 300
bytes is cut where a character ends (`status_cut`). The flags of the capabilities are written as
one attribute, which the reader looks up and does not use: they come back as false, so a
presence survives just where they were (`presence_codec_iff`).

The time that the writer puts on the presence is a parameter.
-/
import Gxmpp.PresenceSetters
import Gxmpp.PresenceStatus
import Gxmpp.Utf8

set_option autoImplicit false

namespace Gxmpp

def NS_CAPS : Str := str "http://jabber.org/protocol/caps"
def NS_NICKNAME : Str := str "http://jabber.org/protocol/nick"
def kNSDelay : Str := str "jabber:x:delay"

def QN_CAPS_C : QName := ⟨NS_CAPS, str "c"⟩
def QN_VER : QName := ⟨STR_EMPTY, str "ver"⟩
def QN_EXT : QName := ⟨STR_EMPTY, str "ext"⟩
def QN_NICKNAME : QName := ⟨NS_NICKNAME, str "nick"⟩
def kQnDelayX : QName := ⟨kNSDelay, str "x"⟩
def kQnStamp : QName := ⟨STR_EMPTY, str "stamp"⟩

def STR_UNAVAILABLE : Str := str "unavailable"

/-! ## 1. The writer -/

namespace PresenceOutTask

/-- The show of an available presence, as the `switch` of `TranslateStatus` writes it. -/
def showText : Show → Str
  | .xa => STR_SHOW_XA
  | .dnd => STR_SHOW_DND
  | .chat => STR_SHOW_CHAT
  | _ => STR_SHOW_AWAY

/-- The attribute of the flags. -/
def capsText (s : PresenceStatus) : Str :=
  (if s.voice_capability_ then str "voice-v1" else [])
    ++ (if s.pmuc_capability_ then str " pmuc-v1" else [])
    ++ (if s.video_capability_ then str " video-v1" else [])
    ++ if s.camera_capability_ then str " camera-v1" else []

/-- `AddElement(new XmlElement(name, true))`, and `AddAttr(…, 1)` for each of the attributes. -/
def addWithAttrs (e : XmlElement) (name : QName) (attrs : List (QName × Str)) : XmlElement :=
  attrs.foldl (fun e a => XmlElement.atDepth (fun child => child.addAttr a.1 a.2) 1 e)
    (e.addElement (XmlElement.new name true))

/-- `PresenceOutTask::TranslateStatus`. -/
def translateStatus (s : PresenceStatus) (stamp : Str) : XmlElement :=
  let result := XmlElement.new QN_PRESENCE false
  if !s.available_ then result.addAttr QN_TYPE STR_UNAVAILABLE
  else
    let result :=
      if s.show_ ≠ .online && s.show_ ≠ .offline then
        result.addNamedText QN_SHOW (showText s.show_)
      else result
    let result := result.addNamedText QN_STATUS s.status_
    let result :=
      if !s.nick_.isEmpty then result.addNamedText QN_NICKNAME s.nick_ else result
    let result := result.addNamedText QN_PRIORITY (printInt s.pri_)
    let result :=
      if s.know_capabilities_ then
        addWithAttrs result QN_CAPS_C
          [(QN_NODE, s.caps_node_), (QN_VER, s.version_), (QN_EXT, capsText s)]
      else result
    addWithAttrs result kQnDelayX [(kQnStamp, stamp)]

end PresenceOutTask

/-! ## 2. The reader -/

/-- `IsUtf8FirstByte`. The subtraction is of bytes. -/
def isUtf8FirstByte (c : UInt8) : Bool := (c &&& 0x80) = 0 || c - 0xC0 < 0x3E

namespace PresenceReceiveTask

/-- The loop that looks for the place to cut at, from this length on. There is no value where it
looks at a place outside of the string. -/
def cutLength (status : Str) : Nat → Option Nat
  | 0 => status[0]?.map fun _ => 0
  | len + 1 => status[len + 1]?.bind fun c =>
    if !isUtf8FirstByte c then cutLength status len else some (len + 1)

/-- `set_status`, and the status cut if it is longer than 300 bytes. -/
def storedStatus (text : Str) : Option Str :=
  if text.length > 300 then (cutLength text 300).map fun len => text.take len else some text

/-- The `if`s of `DecodeStatus` on the show. -/
def showOf (stanza : XmlElement) : Show :=
  match stanza.firstNamed QN_SHOW with
  | none => .online
  | some e =>
    if e.children.isEmpty then .online
    else if e.bodyText = str "away" then .away
    else if e.bodyText = str "xa" then .xa
    else if e.bodyText = str "dnd" then .dnd
    else if e.bodyText = str "chat" then .chat
    else .online

/-- `PresenceReceiveTask::DecodeStatus`. -/
def decodeStatus (sender : Jid) (stanza : XmlElement) (presence_status : PresenceStatus) :
    Option PresenceStatus :=
  let p := { presence_status with jid_ := sender }
  if stanza.attr QN_TYPE = STR_UNAVAILABLE then some { p with available_ := false }
  else
    let p := { p with available_ := true }
    let status := match stanza.firstNamed QN_STATUS with
      | some e => storedStatus e.bodyText
      | none => some p.status_
    status.map fun status =>
      let p := { p with status_ := status }
      let p := match (stanza.firstNamed QN_PRIORITY).bind fun e => fromString e.bodyText with
        | some pri => { p with pri_ := pri }
        | none => p
      let p := { p with show_ := showOf stanza }
      let p := match stanza.firstNamed QN_CAPS_C with
        -- the flags are looked up and left alone
        | some e => { p with
            know_capabilities_ := true
            caps_node_ := e.attr QN_NODE
            version_ := e.attr QN_VER }
        | none => p
      let p := match stanza.firstNamed kQnDelayX with
        | some e => { p with sent_time_ := e.attr kQnStamp }
        | none => p
      match stanza.firstNamed QN_NICKNAME with
      | some e => { p with nick_ := e.bodyText }
      | none => p

end PresenceReceiveTask

/-! ## 3. The cut -/

/-- In a valid text the bytes that the test passes are those that no character continues with. -/
theorem isUtf8FirstByte_iff {b : UInt8} (h : Utf8.Lead b ∨ Utf8.Continuation b) :
    isUtf8FirstByte b = true ↔ ¬ Utf8.Continuation b :=
  Utf8.forall_byte (P := fun b => Utf8.Lead b ∨ Utf8.Continuation b →
    (isUtf8FirstByte b = true ↔ ¬ Utf8.Continuation b)) (by decide +kernel) b h

/-- The loop stops at the last boundary that is not beyond the place it starts from. -/
theorem cutLength_greatest {s : Str} (h : Utf8.Valid s) {n : Nat} (hn : n < s.length) :
    ∃ k, PresenceReceiveTask.cutLength s n = some k ∧
      IsGreatest {m | m ≤ n ∧ Utf8.Boundary s m} k := by
  suffices hback : ∃ k, PresenceReceiveTask.cutLength s n = some k ∧ k ≤ n ∧
      Utf8.Boundary s k ∧ ∀ m, k < m → (hm : m ≤ n) → Utf8.Continuation (s.get ⟨m, by omega⟩) by
    obtain ⟨k, hk, hkn, hfirst, hcont⟩ := hback
    exact ⟨k, hk, Utf8.greatest_boundary h hn hkn hfirst hcont⟩
  induction n with
  | zero =>
    refine ⟨0, ?_, le_rfl, .zero h, fun m hm hle => by omega⟩
    rw [PresenceReceiveTask.cutLength, List.getElem?_eq_getElem hn]
    rfl
  | succ n ih =>
    have htest := isUtf8FirstByte_iff (h.lead_or _ (List.getElem_mem hn))
    rw [PresenceReceiveTask.cutLength, List.getElem?_eq_getElem hn, Option.bind_some]
    cases hfirst : isUtf8FirstByte s[n + 1] with
    | true =>
      refine ⟨n + 1, rfl, le_rfl, ?_, fun m hm hle => by omega⟩
      exact (Utf8.boundary_iff h hn).2 (htest.1 hfirst)
    | false =>
      obtain ⟨k, hk, hkn, hboundary, hcont⟩ := ih (by omega)
      refine ⟨k, hk, by omega, hboundary, fun m hm hle => ?_⟩
      -- the byte that was passed over continues a character
      rcases Nat.lt_or_ge n m with hlast | hbefore
      · obtain rfl : m = n + 1 := by omega
        by_contra hnot
        rw [htest.2 hnot] at hfirst
        cases hfirst
      · exact hcont m hm hbefore

/-- What is to be stored of a status: all of it if it has 300 bytes at most, and else its longest
part of 300 bytes at most that ends with a character. -/
def StoredRightly (text stored : Str) : Prop :=
  (text.length ≤ 300 → stored = text) ∧
  (300 < text.length → ∃ len, IsGreatest {m | m ≤ 300 ∧ Utf8.Boundary text m} len ∧
    stored = text.take len) ∧
  Utf8.Valid stored

theorem storedStatus_rightly {text : Str} (h : Utf8.Valid text) :
    ∃ stored, PresenceReceiveTask.storedStatus text = some stored ∧ StoredRightly text stored := by
  unfold PresenceReceiveTask.storedStatus
  rcases Nat.lt_or_ge 300 text.length with hlong | hshort
  · obtain ⟨len, hlen, hgreatest⟩ := cutLength_greatest h hlong
    rw [if_pos hlong, hlen]
    refine ⟨_, rfl, fun hle => by omega, fun _ => ⟨len, hgreatest, rfl⟩, ?_⟩
    exact hgreatest.1.2.2.1
  · rw [if_neg (by omega)]
    exact ⟨_, rfl, fun _ => rfl, fun hlt => by omega, h⟩

namespace PresenceReceiveTask

variable {sender : Jid} {stanza : XmlElement} {p : PresenceStatus}

/-- The attribute of an element, or a default. -/
def attrOr (e : Option XmlElement) (name : QName) (default : Str) : Str :=
  (e.map fun e => e.attr name).getD default

/-- The fields of an available presence. -/
theorem decodeStatus_available (h : stanza.attr QN_TYPE ≠ STR_UNAVAILABLE) :
    decodeStatus sender stanza p =
      (match stanza.firstNamed QN_STATUS with
        | some e => storedStatus e.bodyText
        | none => some p.status_).map fun status =>
      { p with
        jid_ := sender
        available_ := true
        status_ := status
        pri_ := ((stanza.firstNamed QN_PRIORITY).bind fun e => fromString e.bodyText).getD p.pri_
        show_ := showOf stanza
        know_capabilities_ := (stanza.firstNamed QN_CAPS_C).isSome || p.know_capabilities_
        caps_node_ := attrOr (stanza.firstNamed QN_CAPS_C) QN_NODE p.caps_node_
        version_ := attrOr (stanza.firstNamed QN_CAPS_C) QN_VER p.version_
        sent_time_ := attrOr (stanza.firstNamed kQnDelayX) kQnStamp p.sent_time_
        nick_ := ((stanza.firstNamed QN_NICKNAME).map XmlElement.bodyText).getD p.nick_ } := by
  unfold decodeStatus
  rw [if_neg h]
  dsimp only
  congr 1
  funext status
  cases (stanza.firstNamed QN_PRIORITY).bind fun e => fromString e.bodyText <;>
    cases stanza.firstNamed QN_CAPS_C <;> cases stanza.firstNamed kQnDelayX <;>
    cases stanza.firstNamed QN_NICKNAME <;> rfl

end PresenceReceiveTask

/-- A status that is valid text is stored whole or cut at the last end of a character, and the
scan for that end stays inside of it. -/
theorem status_cut {sender : Jid} {stanza e : XmlElement} (p : PresenceStatus)
    (havailable : stanza.attr QN_TYPE ≠ STR_UNAVAILABLE)
    (hstatus : stanza.firstNamed QN_STATUS = some e) (hvalid : Utf8.Valid e.bodyText) :
    ∃ p', PresenceReceiveTask.decodeStatus sender stanza p = some p' ∧
      StoredRightly e.bodyText p'.status_ := by
  obtain ⟨stored, hstored, hrightly⟩ := storedStatus_rightly hvalid
  rw [PresenceReceiveTask.decodeStatus_available havailable, hstatus]
  dsimp only
  rw [hstored]
  exact ⟨_, rfl, hrightly⟩

/-- A status of 151 characters of two bytes each. -/
theorem status_cut_two_bytes : ∃ p', PresenceReceiveTask.decodeStatus Jid.empty
      ((XmlElement.new QN_PRESENCE false).addNamedText QN_STATUS
        (Utf8.encode (List.replicate 151 'ä'))) .init = some p' ∧
      StoredRightly (Utf8.encode (List.replicate 151 'ä')) p'.status_ := by
  have hname := XmlElement.textElement_name QN_STATUS (Utf8.encode (List.replicate 151 'ä'))
  have hbody := XmlElement.textElement_bodyText QN_STATUS (Utf8.encode (List.replicate 151 'ä'))
  have hcut := @status_cut Jid.empty
    ((XmlElement.new QN_PRESENCE false).addNamedText QN_STATUS
      (Utf8.encode (List.replicate 151 'ä')))
    (XmlElement.textElement QN_STATUS (Utf8.encode (List.replicate 151 'ä'))) .init
    (by rw [XmlElement.addNamedText_eq]; decide)
    (by
      rw [XmlElement.addNamedText_eq]
      unfold XmlElement.firstNamed
      rw [XmlElement.named_addElement, if_pos hname]
      rfl)
    (by rw [hbody]; exact ⟨_, rfl⟩)
  rwa [hbody] at hcut

/-! ## 4. The round trip -/

namespace XmlElement

/-- An element with some attributes besides its namespace. -/
def withAttrs (name : QName) (attrs : List (QName × Str)) : XmlElement :=
  attrs.foldl (fun e a => e.addAttr a.1 a.2) (new name true)

theorem addWithAttrs_eq (e : XmlElement) (name : QName) (attrs : List (QName × Str)) :
    PresenceOutTask.addWithAttrs e name attrs = e.addElement (withAttrs name attrs) := by
  unfold PresenceOutTask.addWithAttrs withAttrs
  generalize new name true = child
  induction attrs generalizing child with
  | nil => rfl
  | cons a attrs ih => rw [List.foldl_cons, atDepth_addElement, ih, List.foldl_cons]

theorem withAttrs_name (name : QName) (attrs : List (QName × Str)) :
    (withAttrs name attrs).name = name := by
  unfold withAttrs
  suffices h : ∀ e : XmlElement, (attrs.foldl (fun e a => e.addAttr a.1 a.2) e).name = e.name by
    exact h _
  intro e
  induction attrs generalizing e with
  | nil => rfl
  | cons a attrs ih => exact (ih (e.addAttr a.1 a.2)).trans rfl

/-- The first of some added elements that has a name. -/
theorem firstNamed_addAll (parts : List XmlElement) (name : QName) {e : XmlElement}
    (he : e.children = []) :
    (parts.foldl addElement e).firstNamed name = parts.find? fun c => c.name = name := by
  have hnamed : ∀ e : XmlElement, (parts.foldl addElement e).named name
      = e.named name ++ parts.filter fun c => c.name = name := by
    intro e
    induction parts generalizing e with
    | nil => simp
    | cons c parts ih =>
      rw [List.foldl_cons, ih, named_addElement]
      by_cases hc : c.name = name <;> simp [hc]
  have hnone : e.named name = [] := by
    unfold named elements
    rw [he]
    rfl
  unfold firstNamed
  rw [hnamed, hnone, List.nil_append, List.head?_filter]

theorem attrs_addAll (parts : List XmlElement) (e : XmlElement) :
    (parts.foldl addElement e).attrs = e.attrs := by
  induction parts generalizing e with
  | nil => rfl
  | cons c parts ih => exact (ih (e.addElement c)).trans rfl

end XmlElement

open XmlElement

namespace PresenceOutTask

/-- The children of the presence, in the order in which they are written. -/
def parts (s : PresenceStatus) (stamp : Str) : List XmlElement :=
  (if s.show_ ≠ .online && s.show_ ≠ .offline then [textElement QN_SHOW (showText s.show_)] else [])
    ++ [textElement QN_STATUS s.status_]
    ++ (if !s.nick_.isEmpty then [textElement QN_NICKNAME s.nick_] else [])
    ++ [textElement QN_PRIORITY (printInt s.pri_)]
    ++ (if s.know_capabilities_ then
        [withAttrs QN_CAPS_C [(QN_NODE, s.caps_node_), (QN_VER, s.version_), (QN_EXT, capsText s)]]
      else [])
    ++ [withAttrs kQnDelayX [(kQnStamp, stamp)]]

theorem translateStatus_eq {s : PresenceStatus} (h : s.available_ = true) (stamp : Str) :
    translateStatus s stamp = (parts s stamp).foldl addElement (new QN_PRESENCE false) := by
  unfold translateStatus parts
  rw [h]
  simp only [Bool.not_true, Bool.false_eq_true, if_false, addNamedText_eq, addWithAttrs_eq,
    List.foldl_append]
  split <;> split <;> split <;> rfl

theorem firstNamed_translateStatus {s : PresenceStatus} (h : s.available_ = true) (stamp : Str)
    (name : QName) : (translateStatus s stamp).firstNamed name
      = (parts s stamp).find? fun c => c.name = name := by
  rw [translateStatus_eq h, firstNamed_addAll _ _ rfl]

variable (s : PresenceStatus) (stamp : Str)

theorem find_show : (parts s stamp).find? (fun c => c.name = QN_SHOW) =
    if s.show_ ≠ .online && s.show_ ≠ .offline then some (textElement QN_SHOW (showText s.show_))
    else none := by
  unfold parts
  split <;> split <;> split <;> simp +decide [textElement_name, withAttrs_name]

theorem find_status : (parts s stamp).find? (fun c => c.name = QN_STATUS) =
    some (textElement QN_STATUS s.status_) := by
  unfold parts
  split <;> split <;> split <;> simp +decide [textElement_name]

theorem find_nick : (parts s stamp).find? (fun c => c.name = QN_NICKNAME) =
    if !s.nick_.isEmpty then some (textElement QN_NICKNAME s.nick_) else none := by
  unfold parts
  split <;> split <;> split <;> simp +decide [textElement_name, withAttrs_name]

theorem find_priority : (parts s stamp).find? (fun c => c.name = QN_PRIORITY) =
    some (textElement QN_PRIORITY (printInt s.pri_)) := by
  unfold parts
  split <;> split <;> split <;> simp +decide [textElement_name]

theorem find_caps : (parts s stamp).find? (fun c => c.name = QN_CAPS_C) =
    if s.know_capabilities_ then
      some (withAttrs QN_CAPS_C
        [(QN_NODE, s.caps_node_), (QN_VER, s.version_), (QN_EXT, capsText s)])
    else none := by
  unfold parts
  split <;> split <;> split <;> simp +decide [textElement_name, withAttrs_name]

end PresenceOutTask

/-- The show that is written is read. -/
theorem showOf_translateStatus {s : PresenceStatus} (h : s.available_ = true)
    (hshow : s.show_ ≠ .none ∧ s.show_ ≠ .offline) (stamp : Str) :
    PresenceReceiveTask.showOf (PresenceOutTask.translateStatus s stamp) = s.show_ := by
  unfold PresenceReceiveTask.showOf
  rw [PresenceOutTask.firstNamed_translateStatus h, PresenceOutTask.find_show]
  obtain ⟨hnone, hoffline⟩ := hshow
  cases hs : s.show_ with
  | none => exact absurd hs hnone
  | offline => exact absurd hs hoffline
  | xa | away | dnd | chat => decide
  | online => rfl

/-- The fields of which the round trip is expected. -/
structure PresenceFields where
  available : Bool
  show_ : Show
  status : Str
  nick : Str
  priority : Int
  capabilities : Capabilities
deriving DecidableEq

/-- The fields of a presence. -/
def PresenceStatus.fields (s : PresenceStatus) : PresenceFields where
  available := s.available_
  show_ := s.show_
  status := s.status_
  nick := s.nick_
  priority := s.pri_
  capabilities := s.capabilities

/-- What comes back of the capabilities: none of the flags. -/
def PresenceStatus.readCapabilities (s : PresenceStatus) : Capabilities where
  know_capabilities := s.know_capabilities_
  caps_node := if s.know_capabilities_ then s.caps_node_ else STR_EMPTY
  version := if s.know_capabilities_ then s.version_ else STR_EMPTY
  voice := false
  pmuc := false
  video := false
  camera := false

/-- What comes back of a presence. -/
theorem decode_translate {s : PresenceStatus} (havailable : s.available_ = true)
    (hshow : s.show_ ≠ .none ∧ s.show_ ≠ .offline) (hstatus : s.status_.length ≤ 300)
    (hpri : -2 ^ 31 ≤ s.pri_ ∧ s.pri_ < 2 ^ 31) (sender : Jid) (stamp : Str) :
    ∃ t, PresenceReceiveTask.decodeStatus sender (PresenceOutTask.translateStatus s stamp) .init
        = some t ∧ t.fields = { s.fields with capabilities := s.readCapabilities } := by
  have htype : (PresenceOutTask.translateStatus s stamp).attr QN_TYPE ≠ STR_UNAVAILABLE := by
    unfold XmlElement.attr
    rw [PresenceOutTask.translateStatus_eq havailable, attrs_addAll]
    decide
  have hstored : PresenceReceiveTask.storedStatus s.status_ = some s.status_ := by
    unfold PresenceReceiveTask.storedStatus
    exact if_neg (by omega)
  rw [PresenceReceiveTask.decodeStatus_available htype,
    showOf_translateStatus havailable hshow]
  simp only [PresenceOutTask.firstNamed_translateStatus havailable, PresenceOutTask.find_status,
    PresenceOutTask.find_priority, PresenceOutTask.find_caps, PresenceOutTask.find_nick,
    textElement_bodyText, hstored, Option.map_some, Option.bind_some,
    fromString_printInt hpri.1 hpri.2, Option.getD_some]
  refine ⟨_, rfl, ?_⟩
  have hnick : ((if !s.nick_.isEmpty then some (textElement QN_NICKNAME s.nick_)
      else none).map XmlElement.bodyText).getD PresenceStatus.init.nick_ = s.nick_ := by
    split
    · rw [Option.map_some, textElement_bodyText, Option.getD_some]
    · next hempty =>
        rw [Bool.not_eq_true', Bool.not_eq_false, List.isEmpty_iff] at hempty
        rw [hempty]
        rfl
  unfold PresenceStatus.fields PresenceStatus.readCapabilities PresenceStatus.capabilities
  dsimp only
  rw [hnick, havailable]
  cases s.know_capabilities_ with
  | true | false => rfl

/-- A presence comes back as it was just where it has none of the flags, and no node and no
version unless its capabilities are known. -/
theorem presence_codec_iff {s : PresenceStatus} (havailable : s.available_ = true)
    (hshow : s.show_ ≠ .none ∧ s.show_ ≠ .offline) (hstatus : s.status_.length ≤ 300)
    (hpri : -2 ^ 31 ≤ s.pri_ ∧ s.pri_ < 2 ^ 31) (sender : Jid) (stamp : Str) :
    (∃ t, PresenceReceiveTask.decodeStatus sender (PresenceOutTask.translateStatus s stamp) .init
        = some t ∧ t.fields = s.fields) ↔
      (s.voice_capability_ = false ∧ s.unsaved = (false, false, false)) ∧
        (s.know_capabilities_ = false → s.caps_node_ = [] ∧ s.version_ = []) := by
  obtain ⟨t, ht, hfields⟩ := decode_translate havailable hshow hstatus hpri sender stamp
  have hsame : (∃ v, PresenceReceiveTask.decodeStatus sender
      (PresenceOutTask.translateStatus s stamp) .init = some v ∧ v.fields = s.fields) ↔
      s.readCapabilities = s.capabilities := by
    constructor
    · rintro ⟨v, hv, heq⟩
      obtain rfl := Option.some.inj (ht.symm.trans hv)
      exact (congrArg PresenceFields.capabilities (hfields.symm.trans heq))
    · intro hcaps
      refine ⟨t, ht, hfields.trans ?_⟩
      rw [hcaps]
      rfl
  rw [hsame]
  unfold PresenceStatus.readCapabilities PresenceStatus.capabilities PresenceStatus.unsaved
  simp only [Capabilities.mk.injEq, Prod.mk.injEq, true_and]
  cases s.know_capabilities_ with
  | true =>
    simp only [if_true, true_and, Bool.true_eq_false, false_implies, and_true]
    constructor
    · rintro ⟨hvoice, hpmuc, hvideo, hcamera⟩
      exact ⟨hvoice.symm, hpmuc.symm, hvideo.symm, hcamera.symm⟩
    · rintro ⟨hvoice, hpmuc, hvideo, hcamera⟩
      exact ⟨hvoice.symm, hpmuc.symm, hvideo.symm, hcamera.symm⟩
  | false =>
    simp only [Bool.false_eq_true, if_false, true_implies]
    constructor
    · rintro ⟨hnode, hversion, hvoice, hpmuc, hvideo, hcamera⟩
      exact ⟨⟨hvoice.symm, hpmuc.symm, hvideo.symm, hcamera.symm⟩, hnode.symm, hversion.symm⟩
    · rintro ⟨⟨hvoice, hpmuc, hvideo, hcamera⟩, hnode, hversion⟩
      exact ⟨hnode.symm, hversion.symm, hvoice.symm, hpmuc.symm, hvideo.symm, hcamera.symm⟩

/-- Somebody who chats, with capabilities and none of the flags. -/
def chatting : PresenceStatus :=
  { PresenceStatus.init with
    available_ := true
    show_ := .chat
    status_ := str "here"
    pri_ := -1
    know_capabilities_ := true
    caps_node_ := str "n"
    version_ := str "1" }

theorem presence_codec_chatting :
    ∃ t, PresenceReceiveTask.decodeStatus Jid.empty
      (PresenceOutTask.translateStatus chatting (str "20260101T00:00:00")) .init = some t ∧
      t.fields = chatting.fields :=
  (presence_codec_iff rfl (by decide) (by decide) (by decide) _ _).2 (by decide)

/-- The same with voice. -/
theorem voice_not_read :
    ¬ ∃ t, PresenceReceiveTask.decodeStatus Jid.empty (PresenceOutTask.translateStatus
      { chatting with voice_capability_ := true } (str "20260101T00:00:00")) .init = some t ∧
      t.fields = ({ chatting with voice_capability_ := true } : PresenceStatus).fields := by
  rintro ⟨t, ht, hfields⟩
  obtain ⟨v, hv, hread⟩ := decode_translate (s := { chatting with voice_capability_ := true }) rfl
    (by decide) (by decide) (by decide) Jid.empty (str "20260101T00:00:00")
  obtain rfl := Option.some.inj (ht.symm.trans hv)
  exact absurd (congrArg (fun f => f.capabilities.voice) (hfields.symm.trans hread)) (by decide)

end Gxmpp
