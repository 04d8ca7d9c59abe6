/-
`talk/xmpp/hangoutpubsubclient.cc`: the states of a call, kept as pub sub items.

A `PubSubStateClient` turns the items of a node into states. It has two maps: what it must
remember of each item to handle the retraction, and the state for each key. The key is made
from the nick of the publisher and the published nick; which of them counts is up to the
state. The type of the keys is a parameter: every client of the source has strings.

`HangoutPubSubClient` has one state client for the presenter node and five for the media
node, and tells the application of their changes.
-/
import Gxmpp.Constants
import Gxmpp.Jid
import Mathlib.Data.List.AList

set_option autoImplicit false

namespace Gxmpp

/-! ## Names -/

def NS_PUBSUB_EVENT : Str := str "http://jabber.org/protocol/pubsub#event"
def NS_PRESENTER : Str := str "google:presenter"
def NS_GOOGLE_MUC_MEDIA : Str := str "google:muc#media"

def QN_PUBSUB_EVENT_ITEM : QName := ⟨NS_PUBSUB_EVENT, str "item"⟩
def QN_PUBSUB_EVENT_RETRACT : QName := ⟨NS_PUBSUB_EVENT, str "retract"⟩

def QN_NICK : QName := ⟨STR_EMPTY, str "nick"⟩
def QN_ATTR_PUBLISHER : QName := ⟨STR_EMPTY, str "publisher"⟩

def QN_PRESENTER_PRESENTER : QName := ⟨NS_PRESENTER, str "presenter"⟩
def QN_PRESENTER_PRESENTATION_ITEM : QName := ⟨NS_PRESENTER, str "presentation-item"⟩
def QN_PRESENTER_PRESENTATION_TYPE : QName := ⟨NS_PRESENTER, str "presentation-type"⟩

def QN_GOOGLE_MUC_AUDIO_MUTE : QName := ⟨NS_GOOGLE_MUC_MEDIA, str "audio-mute"⟩
def QN_GOOGLE_MUC_VIDEO_MUTE : QName := ⟨NS_GOOGLE_MUC_MEDIA, str "video-mute"⟩
def QN_GOOGLE_MUC_VIDEO_PAUSE : QName := ⟨NS_GOOGLE_MUC_MEDIA, str "video-pause"⟩
def QN_GOOGLE_MUC_RECORDING : QName := ⟨NS_GOOGLE_MUC_MEDIA, str "recording"⟩
def QN_GOOGLE_MUC_MEDIA_BLOCK : QName := ⟨NS_GOOGLE_MUC_MEDIA, str "block"⟩

def kPresenting : Str := str "s"
def kNotPresenting : Str := str "o"

/-! ## Items and changes -/

/-- `PubSubItem`. -/
structure PubSubItem where
  itemid : Str
  elem : XmlElement

/-- `StateItemInfo`. -/
structure StateItemInfo where
  published_nick : Str
  publisher_nick : Str
deriving DecidableEq

/-- `PubSubStateChange`. -/
structure PubSubStateChange (C : Type) where
  publisher_nick : Str
  published_nick : Str
  old_state : C
  new_state : C
deriving DecidableEq

/-- `GetPublisherNickFromPubSubItem`. -/
def getPublisherNickFromPubSubItem (item_elem : XmlElement) : Str :=
  (Jid.ofString (item_elem.attr QN_ATTR_PUBLISHER)).resource

/-! ## Serializers -/

/-- `PublishedNickKeySerializer::GetKey`. -/
def PublishedNickKeySerializer.getKey (_publisher_nick published_nick : Str) : Str :=
  published_nick

/-- `PublisherAndPublishedNicksKeySerializer::GetKey`. -/
def PublisherAndPublishedNicksKeySerializer.getKey (publisher_nick published_nick : Str) : Str :=
  publisher_nick ++ str ":" ++ published_nick

/-- `PubSubStateSerializer`. -/
structure PubSubStateSerializer (C : Type) where
  write : QName → C → Option XmlElement
  parse : Option XmlElement → C

/-- `BoolStateSerializer`. -/
def BoolStateSerializer : PubSubStateSerializer Bool where
  write state_name state := if !state then none else some (XmlElement.new state_name true)
  parse state_elem := state_elem.isSome

/-! ## A state client -/

/-- What a `PubSubStateClient` is constructed with, and the virtual functions a derived class
replaces and `OnItem` calls. `ParseStateItem` is `none` for a retracted item. -/
structure PubSubStateClient (K C : Type) where
  publisher_nick_ : Str
  state_name_ : QName
  default_state_ : C
  getKey : Str → Str → K
  parseStateItem : PubSubItem → Option (StateItemInfo × C)
  statesEqual : C → C → Bool

/-- The two maps of a `PubSubStateClient`. -/
structure PubSubStateMaps (K C : Type) where
  state_by_key_ : AList fun _ : K => C
  info_by_itemid_ : AList fun _ : Str => StateItemInfo

/-- The maps of a new client. -/
def PubSubStateMaps.init {K C : Type} : PubSubStateMaps K C := ⟨∅, ∅⟩

/-- What a client asks of its `PubSubClient`. -/
inductive PubSubRequest where
  | publishItem (itemid : Str) (children : List XmlElement)
  | retractItem (itemid : Str)

/-- The item id of a request. -/
def PubSubRequest.itemid : PubSubRequest → Str
  | .publishItem itemid _ => itemid
  | .retractItem itemid => itemid

namespace PubSubStateClient

section Base

variable {K C : Type} [DecidableEq C]

/-- `PubSubStateClient::PubSubStateClient`, with the functions of the class itself. -/
def new (publisher_nick : Str) (state_name : QName) (default_state : C)
    (key_serializer : Str → Str → K) (state_serializer : PubSubStateSerializer C) :
    PubSubStateClient K C where
  publisher_nick_ := publisher_nick
  state_name_ := state_name
  default_state_ := default_state
  getKey := key_serializer
  parseStateItem item :=
    match item.elem.firstNamed state_name with
    | none => none
    | some state_elem =>
      some (⟨state_elem.attr QN_NICK, getPublisherNickFromPubSubItem item.elem⟩,
        state_serializer.parse (some state_elem))
  statesEqual state1 state2 := state1 = state2

/-- `PubSubStateClient::Publish`; `none` where `Write` returns NULL, which the source follows. -/
def publish (c : PubSubStateClient Str C) (state_serializer : PubSubStateSerializer C)
    (published_nick : Str) (state : C) : Option PubSubRequest :=
  let key := c.getKey c.publisher_nick_ published_nick
  let itemid := c.state_name_.localPart ++ str ":" ++ key
  if c.statesEqual state c.default_state_ then some (.retractItem itemid)
  else
    (state_serializer.write c.state_name_ state).map fun state_elem =>
      .publishItem itemid [state_elem.addAttr QN_NICK published_nick]

end Base

section Items

variable {K C : Type} [DecidableEq K]

/-- `OnItem` once it is known what the item is about: the state for its key changes to
`new_state`. -/
def changeState (c : PubSubStateClient K C) (m : PubSubStateMaps K C) (retracted : Bool)
    (info : StateItemInfo) (new_state : C) :
    PubSubStateMaps K C × Option (PubSubStateChange C) :=
  let key := c.getKey info.publisher_nick info.published_nick
  let has_old_state := (m.state_by_key_.lookup key).isSome
  let old_state := (m.state_by_key_.lookup key).getD c.default_state_
  -- nothing to retract, or nothing that changes
  if (retracted && !has_old_state) || c.statesEqual new_state old_state then (m, none)
  else
    let states :=
      -- the default state is not stored
      if retracted || c.statesEqual new_state c.default_state_ then m.state_by_key_.erase key
      else m.state_by_key_.insert key new_state
    (⟨states, m.info_by_itemid_⟩,
      some ⟨info.publisher_nick, info.published_nick, old_state, new_state⟩)

/-- `PubSubStateClient::OnItem`: the maps after it, and the change it signals. -/
def onItem (c : PubSubStateClient K C) (m : PubSubStateMaps K C) (item : PubSubItem) :
    PubSubStateMaps K C × Option (PubSubStateChange C) :=
  match c.parseStateItem item with
  | none =>
    -- a retracted item carries no more than its id
    match m.info_by_itemid_.lookup item.itemid with
    | none => (m, none)
    | some info =>
      c.changeState ⟨m.state_by_key_, m.info_by_itemid_.erase item.itemid⟩ true info
        c.default_state_
  | some (info, new_state) =>
    c.changeState ⟨m.state_by_key_, m.info_by_itemid_.insert item.itemid info⟩ false info
      new_state

/-- `PubSubStateClient::OnItems`: the maps after it, and the changes it signals in order. -/
def onItems (c : PubSubStateClient K C) (m : PubSubStateMaps K C) (items : List PubSubItem) :
    PubSubStateMaps K C × List (PubSubStateChange C) :=
  items.foldl
    (fun done item => ((c.onItem done.1 item).1, done.2 ++ (c.onItem done.1 item).2.toList))
    (m, [])

end Items

end PubSubStateClient

/-- `PresenterStateClient::Publish`. -/
def PresenterStateClient.publish (published_nick : Str) (state : Bool) : PubSubRequest :=
  .publishItem published_nick
    [(XmlElement.new QN_PRESENTER_PRESENTER true).addAttr QN_NICK published_nick,
      (XmlElement.new QN_PRESENTER_PRESENTATION_ITEM false).addAttr
        QN_PRESENTER_PRESENTATION_TYPE (if state then kPresenting else kNotPresenting)]

/-! ## The client of a hangout -/

/-- The signals of `HangoutPubSubClient` about states. -/
inductive HangoutSignal where
  | presenterStateChange (nick : Str) (was_presenting is_presenting : Bool)
  | audioMuteStateChange (nick : Str) (was_muted is_muted : Bool)
  | videoMuteStateChange (nick : Str) (was_muted is_muted : Bool)
  | videoPauseStateChange (nick : Str) (was_paused is_paused : Bool)
  | recordingStateChange (nick : Str) (was_recording is_recording : Bool)
  | remoteMute (mutee_nick muter_nick : Str) (should_mute_locally : Bool)
  | mediaBlock (blockee_nick blocker_nick : Str)
deriving DecidableEq

namespace HangoutPubSubClient

/-- The client in `audio_mute_state_client_`. -/
def audioMuteStateClient (nick : Str) : PubSubStateClient Str Bool :=
  .new nick QN_GOOGLE_MUC_AUDIO_MUTE false PublishedNickKeySerializer.getKey BoolStateSerializer

/-- The client in `video_mute_state_client_`. -/
def videoMuteStateClient (nick : Str) : PubSubStateClient Str Bool :=
  .new nick QN_GOOGLE_MUC_VIDEO_MUTE false PublishedNickKeySerializer.getKey BoolStateSerializer

/-- The client in `video_pause_state_client_`. -/
def videoPauseStateClient (nick : Str) : PubSubStateClient Str Bool :=
  .new nick QN_GOOGLE_MUC_VIDEO_PAUSE false PublishedNickKeySerializer.getKey BoolStateSerializer

/-- The client in `recording_state_client_`. -/
def recordingStateClient (nick : Str) : PubSubStateClient Str Bool :=
  .new nick QN_GOOGLE_MUC_RECORDING false PublishedNickKeySerializer.getKey BoolStateSerializer

/-- The client in `media_block_state_client_`. -/
def mediaBlockStateClient (nick : Str) : PubSubStateClient Str Bool :=
  .new nick QN_GOOGLE_MUC_MEDIA_BLOCK false PublisherAndPublishedNicksKeySerializer.getKey
    BoolStateSerializer

/-- `HangoutPubSubClient::RemoteMute`. -/
def remoteMute (nick mutee_nick : Str) : Option PubSubRequest :=
  (audioMuteStateClient nick).publish BoolStateSerializer mutee_nick true

/-- `HangoutPubSubClient::BlockMedia`. -/
def blockMedia (nick blockee_nick : Str) : Option PubSubRequest :=
  (mediaBlockStateClient nick).publish BoolStateSerializer blockee_nick true

/-- `HangoutPubSubClient::OnAudioMuteStateChange`. -/
def onAudioMuteStateChange (nick : Str) (change : PubSubStateChange Bool) : List HangoutSignal :=
  let was_muted := change.old_state
  let is_muted := change.new_state
  let remote_action :=
    !change.publisher_nick.isEmpty && change.publisher_nick ≠ change.published_nick
  if remote_action then
    let mutee_nick := change.published_nick
    let muter_nick := change.publisher_nick
    -- the source logs a warning here: the server should prevent remote un-mute
    if !is_muted then []
    else [.remoteMute mutee_nick muter_nick (mutee_nick = nick)]
  else [.audioMuteStateChange change.published_nick was_muted is_muted]

/-- `HangoutPubSubClient::OnMediaBlockStateChange`. -/
def onMediaBlockStateChange (change : PubSubStateChange Bool) : List HangoutSignal :=
  let blockee_nick := change.published_nick
  let blocker_nick := change.publisher_nick
  let was_blockee := change.old_state
  let is_blockee := change.new_state
  if !was_blockee && is_blockee then [.mediaBlock blockee_nick blocker_nick] else []

end HangoutPubSubClient

end Gxmpp
