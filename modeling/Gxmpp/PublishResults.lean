/-
`talk/xmpp/pubsubclient.cc`, `pubsubtasks.cc`, `hangoutpubsubclient.cc`: what comes of a
publish.

Each operation of a `HangoutPubSubClient` starts a task, whose id the caller is handed to
recognise the result by. The task tells its `PubSubClient` how it ended, and that tells
every state client that is connected to it. One state client is connected to the presenter
node; five are connected to the media node, and each of them passes the result on to its own
signal of the `HangoutPubSubClient`. So a task of the media node is reported five times
(`reports_media`), and by the nick in its item rather than by what was called.

`HangoutRun` is a run: operations in any order, the results and errors of the tasks that are
out in any other, and tasks of somebody else, which take ids too.
-/
import Gxmpp.HangoutPubSub
import Gxmpp.PrinterScope
import Mathlib.Data.List.Induction

set_option autoImplicit false

namespace Gxmpp

/-! ## Names -/

def NS_PUBSUB : Str := str "http://jabber.org/protocol/pubsub"

def QN_PUBSUB : QName := ⟨NS_PUBSUB, str "pubsub"⟩
def QN_PUBSUB_ITEM : QName := ⟨NS_PUBSUB, str "item"⟩
def QN_PUBSUB_PUBLISH : QName := ⟨NS_PUBSUB, str "publish"⟩
def QN_PUBSUB_RETRACT : QName := ⟨NS_PUBSUB, str "retract"⟩

def QN_NOTIFY : QName := ⟨STR_EMPTY, str "notify"⟩

/-! ## 1. The tasks of a `PubSubClient` -/

/-- `XmppTask::MakeIq`. -/
def makeIq (type : Str) (to_ : Jid) (id : Str) : XmlElement :=
  let e := XmlElement.new QN_IQ false
  let e := if type.isEmpty then e else e.addAttr QN_TYPE type
  let e := if to_.isEmpty then e else e.addAttr QN_TO to_.toStr
  if id.isEmpty then e else e.addAttr QN_ID id

/-- `CreatePubSubPublishItemElem`. -/
def createPubSubPublishItemElem (node itemid : Str) (children : List XmlElement) : XmlElement :=
  let item_elem :=
    children.foldl XmlElement.addElement
      ((XmlElement.new QN_PUBSUB_ITEM false).addAttr QN_ID itemid)
  let publish_elem := (XmlElement.new QN_PUBSUB_PUBLISH false).addAttr QN_NODE node
  (XmlElement.new QN_PUBSUB true).addElement (publish_elem.addElement item_elem)

/-- `CreatePubSubRetractItemElem`. -/
def createPubSubRetractItemElem (node itemid : Str) : XmlElement :=
  let item_elem := (XmlElement.new QN_PUBSUB_ITEM false).addAttr QN_ID itemid
  let retract_elem :=
    ((XmlElement.new QN_PUBSUB_RETRACT false).addAttr QN_NODE node).addAttr QN_NOTIFY (str "true")
  (XmlElement.new QN_PUBSUB true).addElement (retract_elem.addElement item_elem)

/-- The two `PubSubClient`s of a `HangoutPubSubClient`, by their node. -/
inductive HangoutNode where
  | presenter
  | media
deriving DecidableEq

/-- The name of the node. -/
def HangoutNode.name : HangoutNode → Str
  | .presenter => NS_PRESENTER
  | .media => NS_GOOGLE_MUC_MEDIA

/-- A `PubSubPublishTask` or a `PubSubRetractTask`. -/
structure PubSubTask where
  task_id : Str
  node : HangoutNode
  retract : Bool
  stanza : XmlElement

/-- `PubSubClient::PublishItem` and `PubSubClient::RetractItem`: the task that is started. -/
def PubSubRequest.task (mucjid : Jid) (node : HangoutNode) (task_id : Str) :
    PubSubRequest → PubSubTask
  | .publishItem itemid children =>
    ⟨task_id, node, false, (makeIq (str "set") mucjid task_id).addElement
      (createPubSubPublishItemElem node.name itemid children)⟩
  | .retractItem itemid =>
    ⟨task_id, node, true, (makeIq (str "set") mucjid task_id).addElement
      (createPubSubRetractItemElem node.name itemid)⟩

/-- `GetItemFromStanza`. -/
def getItemFromStanza (stanza : XmlElement) : Option XmlElement :=
  ((stanza.firstNamed QN_PUBSUB).bind fun pubsub => pubsub.firstNamed QN_PUBSUB_PUBLISH).bind
    fun publish => publish.firstNamed QN_PUBSUB_ITEM

/-- How a task ends: with a result, or with the error element of the reply (none if the
task timed out). -/
inductive PubSubOutcome where
  | result
  | error (stanza : Option XmlElement)

/-! ## 2. The signals about a publish -/

/-- The signals of `HangoutPubSubClient` about the outcome of a task. -/
inductive HangoutReport where
  | publishPresenterResult (task_id : Str)
  | publishPresenterError (task_id : Str) (stanza : Option XmlElement)
  | publishAudioMuteResult (task_id : Str)
  | publishAudioMuteError (task_id : Str) (stanza : Option XmlElement)
  | remoteMuteResult (task_id mutee_nick : Str)
  | remoteMuteError (task_id mutee_nick : Str) (stanza : Option XmlElement)
  | publishVideoMuteResult (task_id : Str)
  | publishVideoMuteError (task_id : Str) (stanza : Option XmlElement)
  | publishVideoPauseResult (task_id : Str)
  | publishVideoPauseError (task_id : Str) (stanza : Option XmlElement)
  | publishRecordingResult (task_id : Str)
  | publishRecordingError (task_id : Str) (stanza : Option XmlElement)
  | mediaBlockResult (task_id blockee_nick : Str)
  | mediaBlockError (task_id blockee_nick : Str) (stanza : Option XmlElement)

/-- The task a signal is about. -/
def HangoutReport.task_id : HangoutReport → Str
  | .publishPresenterResult task_id | .publishPresenterError task_id _
  | .publishAudioMuteResult task_id | .publishAudioMuteError task_id _
  | .remoteMuteResult task_id _ | .remoteMuteError task_id _ _
  | .publishVideoMuteResult task_id | .publishVideoMuteError task_id _
  | .publishVideoPauseResult task_id | .publishVideoPauseError task_id _
  | .publishRecordingResult task_id | .publishRecordingError task_id _
  | .mediaBlockResult task_id _ | .mediaBlockError task_id _ _ => task_id

namespace HangoutPubSubClient

/-- The nick in the state element of an item, if there is one:
`GetAudioMuteNickFromItem` and `GetBlockeeNickFromItem`. -/
def getNickFromItem (state_name : QName) (item : Option XmlElement) : Str :=
  match item.bind fun item => item.firstNamed state_name with
  | some state => state.attr QN_NICK
  | none => STR_EMPTY

/-- `GetAudioMuteNickFromItem`. -/
def getAudioMuteNickFromItem : Option XmlElement → Str := getNickFromItem QN_GOOGLE_MUC_AUDIO_MUTE

/-- `GetBlockeeNickFromItem`. -/
def getBlockeeNickFromItem : Option XmlElement → Str := getNickFromItem QN_GOOGLE_MUC_MEDIA_BLOCK

/-- `OnPresenterPublishResult` and `OnPresenterPublishError`. -/
def onPresenterPublish (task_id : Str) : PubSubOutcome → HangoutReport
  | .result => .publishPresenterResult task_id
  | .error stanza => .publishPresenterError task_id stanza

/-- `OnAudioMutePublishResult` and `OnAudioMutePublishError`. -/
def onAudioMutePublish (nick task_id : Str) (item : Option XmlElement) :
    PubSubOutcome → HangoutReport
  | .result =>
    let mutee_nick := getAudioMuteNickFromItem item
    if mutee_nick ≠ nick then .remoteMuteResult task_id mutee_nick
    else .publishAudioMuteResult task_id
  | .error stanza =>
    let mutee_nick := getAudioMuteNickFromItem item
    if mutee_nick ≠ nick then .remoteMuteError task_id mutee_nick stanza
    else .publishAudioMuteError task_id stanza

/-- `OnVideoMutePublishResult` and `OnVideoMutePublishError`. -/
def onVideoMutePublish (task_id : Str) : PubSubOutcome → HangoutReport
  | .result => .publishVideoMuteResult task_id
  | .error stanza => .publishVideoMuteError task_id stanza

/-- `OnVideoPausePublishResult` and `OnVideoPausePublishError`. -/
def onVideoPausePublish (task_id : Str) : PubSubOutcome → HangoutReport
  | .result => .publishVideoPauseResult task_id
  | .error stanza => .publishVideoPauseError task_id stanza

/-- `OnRecordingPublishResult` and `OnRecordingPublishError`. -/
def onRecordingPublish (task_id : Str) : PubSubOutcome → HangoutReport
  | .result => .publishRecordingResult task_id
  | .error stanza => .publishRecordingError task_id stanza

/-- `OnMediaBlockPublishResult` and `OnMediaBlockPublishError`. -/
def onMediaBlockPublish (task_id : Str) (item : Option XmlElement) :
    PubSubOutcome → HangoutReport
  | .result => .mediaBlockResult task_id (getBlockeeNickFromItem item)
  | .error stanza => .mediaBlockError task_id (getBlockeeNickFromItem item) stanza

/-- The item a state client passes on: none for a retraction, whose result it takes for that
of a publish. -/
def reportedItem (task : PubSubTask) : Option XmlElement :=
  if task.retract then none else getItemFromStanza task.stanza

/-- The end of a task: the signals of the clients connected to its node, in the order in
which they were connected. -/
def reports (nick : Str) (task : PubSubTask) (outcome : PubSubOutcome) : List HangoutReport :=
  let item := reportedItem task
  match task.node with
  | .presenter => [onPresenterPublish task.task_id outcome]
  | .media =>
    [onAudioMutePublish nick task.task_id item outcome,
      onVideoMutePublish task.task_id outcome,
      onVideoPausePublish task.task_id outcome,
      onRecordingPublish task.task_id outcome,
      onMediaBlockPublish task.task_id item outcome]

end HangoutPubSubClient

open HangoutPubSubClient

/-! ## 3. The operations -/

/-- The operations of `HangoutPubSubClient` that publish. -/
inductive HangoutOperation where
  | publishPresenterState (presenting : Bool)
  | publishAudioMuteState (muted : Bool)
  | publishVideoMuteState (muted : Bool)
  | publishVideoPauseState (paused : Bool)
  | publishRecordingState (recording : Bool)
  | remoteMute (mutee_nick : Str)
  | blockMedia (blockee_nick : Str)

namespace HangoutOperation

/-- The node an operation publishes to. -/
def node : HangoutOperation → HangoutNode
  | .publishPresenterState _ => .presenter
  | _ => .media

/-- What the operation asks of the `PubSubClient` of its node. -/
def request (nick : Str) : HangoutOperation → Option PubSubRequest
  | .publishPresenterState presenting => some (PresenterStateClient.publish nick presenting)
  | .publishAudioMuteState muted =>
    (audioMuteStateClient nick).publish BoolStateSerializer nick muted
  | .publishVideoMuteState muted =>
    (videoMuteStateClient nick).publish BoolStateSerializer nick muted
  | .publishVideoPauseState paused =>
    (videoPauseStateClient nick).publish BoolStateSerializer nick paused
  | .publishRecordingState recording =>
    (recordingStateClient nick).publish BoolStateSerializer nick recording
  | .remoteMute mutee_nick => HangoutPubSubClient.remoteMute nick mutee_nick
  | .blockMedia blockee_nick => HangoutPubSubClient.blockMedia nick blockee_nick

/-- The signal that belongs to an operation and an outcome. -/
def Owns : HangoutOperation → PubSubOutcome → HangoutReport → Prop
  | .publishPresenterState _, .result, .publishPresenterResult _ => True
  | .publishPresenterState _, .error e, .publishPresenterError _ stanza => stanza = e
  | .publishAudioMuteState _, .result, .publishAudioMuteResult _ => True
  | .publishAudioMuteState _, .error e, .publishAudioMuteError _ stanza => stanza = e
  | .publishVideoMuteState _, .result, .publishVideoMuteResult _ => True
  | .publishVideoMuteState _, .error e, .publishVideoMuteError _ stanza => stanza = e
  | .publishVideoPauseState _, .result, .publishVideoPauseResult _ => True
  | .publishVideoPauseState _, .error e, .publishVideoPauseError _ stanza => stanza = e
  | .publishRecordingState _, .result, .publishRecordingResult _ => True
  | .publishRecordingState _, .error e, .publishRecordingError _ stanza => stanza = e
  | .remoteMute nick, .result, .remoteMuteResult _ mutee_nick => mutee_nick = nick
  | .remoteMute nick, .error e, .remoteMuteError _ mutee_nick stanza =>
    mutee_nick = nick ∧ stanza = e
  | .blockMedia nick, .result, .mediaBlockResult _ blockee_nick => blockee_nick = nick
  | .blockMedia nick, .error e, .mediaBlockError _ blockee_nick stanza =>
    blockee_nick = nick ∧ stanza = e
  | _, _, _ => False

/-- A state other than the default is written, so each operation makes a request. -/
theorem request_isSome (nick : Str) (op : HangoutOperation) : (op.request nick).isSome = true := by
  cases op with
  | publishPresenterState | remoteMute | blockMedia => rfl
  | publishAudioMuteState muted | publishVideoMuteState muted => cases muted <;> rfl
  | publishVideoPauseState paused | publishRecordingState paused => cases paused <;> rfl

/-- The task that the operation starts. -/
def task (nick : Str) (mucjid : Jid) (task_id : Str) (op : HangoutOperation) : PubSubTask :=
  ((op.request nick).get (op.request_isSome nick)).task mucjid op.node task_id

theorem task_id_task (nick : Str) (mucjid : Jid) (task_id : Str) (op : HangoutOperation) :
    (op.task nick mucjid task_id).task_id = task_id := by
  unfold task
  generalize (op.request nick).get _ = r
  cases r with
  | publishItem | retractItem => rfl

theorem node_task (nick : Str) (mucjid : Jid) (task_id : Str) (op : HangoutOperation) :
    (op.task nick mucjid task_id).node = op.node := by
  unfold task
  generalize (op.request nick).get _ = r
  cases r with
  | publishItem | retractItem => rfl

end HangoutOperation

/-! ## 4. What one task is reported as -/

/-- What is reported of a task is reported under its id. -/
theorem task_id_of_mem_reports {nick : Str} {task : PubSubTask} {outcome : PubSubOutcome}
    {r : HangoutReport} (h : r ∈ reports nick task outcome) : r.task_id = task.task_id := by
  have hitem : (onAudioMutePublish nick task.task_id (reportedItem task) outcome).task_id
      = task.task_id := by
    cases outcome with
    | result | error =>
      unfold onAudioMutePublish
      dsimp only
      split_ifs <;> rfl
  unfold reports at h
  cases hnode : task.node with
  | presenter =>
    rw [hnode] at h
    rw [List.mem_singleton.1 h]
    cases outcome <;> rfl
  | media =>
    rw [hnode] at h
    simp only [List.mem_cons, List.not_mem_nil, or_false] at h
    rcases h with rfl | rfl | rfl | rfl | rfl
    · exact hitem
    all_goals cases outcome <;> rfl

/-- The one report of a presenter task is the operation's own. -/
theorem reports_presenter (nick : Str) (mucjid : Jid) (task_id : Str) (op : HangoutOperation)
    (outcome : PubSubOutcome) (h : op.node = .presenter) :
    ∃ r, reports nick (op.task nick mucjid task_id) outcome = [r] ∧ op.Owns outcome r := by
  have hnode : (op.task nick mucjid task_id).node = .presenter := by
    rw [op.node_task]
    exact h
  refine ⟨onPresenterPublish (op.task nick mucjid task_id).task_id outcome, ?_, ?_⟩
  · unfold reports
    rw [hnode]
  · cases op with
    | publishPresenterState presenting =>
      cases outcome with
      | result => exact trivial
      | error stanza => exact rfl
    | publishAudioMuteState | publishVideoMuteState | publishVideoPauseState | publishRecordingState
    | remoteMute | blockMedia => exact absurd h HangoutNode.noConfusion

/-- All five state clients of the media node report a task of theirs. -/
theorem reports_media (nick : Str) (task : PubSubTask) (outcome : PubSubOutcome)
    (h : task.node = .media) : (reports nick task outcome).length = 5 := by
  unfold reports
  rw [h]
  rfl

/-! ## 5. Runs -/

/-- What happens at a `HangoutPubSubClient` and at the `XmppClient` its tasks belong to. -/
inductive HangoutEvent where
  /-- An operation is called; the id of its task is handed to the caller. -/
  | operation (op : HangoutOperation)
  /-- The task with an id ends: the reply to its iq is there, or it times out. -/
  | answer (task_id : Str) (outcome : PubSubOutcome)
  /-- Another task of the client takes an id. -/
  | otherTask

/-- Whether an id is taken: `XmppClient::NextId`. -/
def HangoutEvent.takesId : HangoutEvent → Bool
  | .operation _ => true
  | .answer _ _ => false
  | .otherTask => true

/-- The state of a run: the next id, the tasks that are out and those that have ended (each
with the operation that started it), and what was signalled. -/
structure HangoutRun where
  next_id : Nat
  outstanding : List (Str × HangoutOperation)
  answered : List ((Str × HangoutOperation) × PubSubOutcome)
  signalled : List HangoutReport

namespace HangoutRun

variable (nick : Str) (mucjid : Jid)

/-- The state before the first operation. -/
def init (first_id : Nat) : HangoutRun := ⟨first_id, [], [], []⟩

/-- The signals about a task that has ended. -/
def reportsOf (a : (Str × HangoutOperation) × PubSubOutcome) : List HangoutReport :=
  reports nick (a.1.2.task nick mucjid a.1.1) a.2

/-- One event. A reply that no task waits for changes nothing. -/
def step (s : HangoutRun) : HangoutEvent → HangoutRun
  | .operation op =>
    { s with
      next_id := s.next_id + 1
      outstanding := s.outstanding ++ [(XmlnsStack.decimal s.next_id, op)] }
  | .answer task_id outcome =>
    match s.outstanding.find? fun o => o.1 = task_id with
    | none => s
    | some o =>
      { s with
        outstanding := s.outstanding.filter fun o => o.1 ≠ task_id
        answered := s.answered ++ [(o, outcome)]
        signalled := s.signalled ++ reportsOf nick mucjid (o, outcome) }
  | .otherTask => { s with next_id := s.next_id + 1 }

/-- A run from its start. -/
def run (first_id : Nat) (events : List HangoutEvent) : HangoutRun :=
  events.foldl (step nick mucjid) (init first_id)

/-- The signals about a task. -/
def about (s : HangoutRun) (task_id : Str) : List HangoutReport :=
  s.signalled.filter fun r => r.task_id = task_id

/-- Each task that has ended was signalled once, by the signal that belongs to its
operation, and of a task that is out nothing was signalled. -/
def ResultsReachCaller (s : HangoutRun) : Prop :=
  (∀ a ∈ s.answered, ∃ r, s.about a.1.1 = [r] ∧ a.1.2.Owns a.2 r) ∧
    ∀ o ∈ s.outstanding, s.about o.1 = []

end HangoutRun

/-- The id that is handed out next after some events. -/
def idAfter (first_id : Nat) (events : List HangoutEvent) : Str :=
  XmlnsStack.decimal (first_id + events.countP HangoutEvent.takesId)

/-- Among the operations whose task gets an answer there are only those on the presenter
node. -/
def OnlyPresenterAnswered (first_id : Nat) (events : List HangoutEvent) : Prop :=
  ∀ before op between outcome after_,
    events = before ++ .operation op ::
      (between ++ .answer (idAfter first_id before) outcome :: after_) →
    op.node = .presenter

/-! ## 6. The accounts of a run -/

/-- A list that was extended by one event: an event of it is that one, or was there. -/
theorem HangoutEvent.append_one_eq {events before between : List HangoutEvent}
    {e x : HangoutEvent} (h : events ++ [e] = before ++ x :: between) :
    (between = [] ∧ before = events ∧ x = e) ∨
      ∃ between', between = between' ++ [e] ∧ events = before ++ x :: between' := by
  rcases List.eq_nil_or_concat between with rfl | ⟨between', e', rfl⟩
  · have hlast := List.append_inj' h rfl
    exact Or.inl ⟨rfl, hlast.1.symm, (List.cons.inj hlast.2).1.symm⟩
  · rw [List.concat_eq_append, ← List.cons_append, ← List.append_assoc] at h
    have hlast := List.append_inj' h rfl
    refine Or.inr ⟨between', ?_, hlast.1⟩
    rw [List.concat_eq_append, (List.cons.inj hlast.2).1]

/-- An operation takes an id of its own. -/
theorem idAfter_ne (first_id : Nat) (before between : List HangoutEvent)
    (op : HangoutOperation) :
    idAfter first_id before ≠ idAfter first_id (before ++ .operation op :: between) := by
  intro h
  have hnum := XmlnsStack.decimal_injective h
  rw [List.countP_append, List.countP_cons_of_pos rfl] at hnum
  omega

namespace HangoutRun

variable {nick : Str} {mucjid : Jid}

/-- What is known of a run after some events. -/
structure Accounts (nick : Str) (mucjid : Jid) (first_id : Nat) (events : List HangoutEvent)
    (s : HangoutRun) : Prop where
  next_id_eq : s.next_id = first_id + events.countP HangoutEvent.takesId
  of_outstanding : ∀ o ∈ s.outstanding, ∃ before between,
    events = before ++ .operation o.2 :: between ∧ o.1 = idAfter first_id before
  of_answered : ∀ a ∈ s.answered, ∃ before between after_,
    events = before ++ .operation a.1.2 ::
      (between ++ .answer (idAfter first_id before) a.2 :: after_) ∧
    a.1.1 = idAfter first_id before
  of_operation : ∀ before op between, events = before ++ .operation op :: between →
    ((idAfter first_id before, op) ∈ s.outstanding ∧
      ∀ outcome, HangoutEvent.answer (idAfter first_id before) outcome ∉ between) ∨
    ∃ outcome, ((idAfter first_id before, op), outcome) ∈ s.answered
  nodup : (s.outstanding.map (·.1) ++ s.answered.map (·.1.1)).Nodup
  signalled_eq : s.signalled = s.answered.flatMap (reportsOf nick mucjid)

theorem Accounts.start (first_id : Nat) : Accounts nick mucjid first_id [] (init first_id) where
  next_id_eq := rfl
  of_outstanding _ ho := absurd ho (List.not_mem_nil)
  of_answered _ ha := absurd ha (List.not_mem_nil)
  of_operation before _ _ h :=
    absurd h.symm (List.append_ne_nil_of_right_ne_nil before (List.cons_ne_nil _ _))
  nodup := List.nodup_nil
  signalled_eq := rfl

section Step

variable {first_id : Nat} {events : List HangoutEvent} {s : HangoutRun}

/-- The entries of a run stay what they are when there is one more event. -/
theorem Accounts.outstanding_append (h : Accounts nick mucjid first_id events s)
    (e : HangoutEvent) {o : Str × HangoutOperation} (ho : o ∈ s.outstanding) :
    ∃ before between, events ++ [e] = before ++ .operation o.2 :: between ∧
      o.1 = idAfter first_id before := by
  obtain ⟨before, between, heq, hid⟩ := h.of_outstanding o ho
  refine ⟨before, between ++ [e], ?_, hid⟩
  rw [heq, List.append_assoc, List.cons_append]

theorem Accounts.answered_append (h : Accounts nick mucjid first_id events s)
    (e : HangoutEvent) {a : (Str × HangoutOperation) × PubSubOutcome} (ha : a ∈ s.answered) :
    ∃ before between after_, events ++ [e] = before ++ .operation a.1.2 ::
        (between ++ .answer (idAfter first_id before) a.2 :: after_) ∧
      a.1.1 = idAfter first_id before := by
  obtain ⟨before, between, after_, heq, hid⟩ := h.of_answered a ha
  refine ⟨before, between, after_ ++ [e], ?_, hid⟩
  rw [heq, List.append_assoc, List.cons_append, List.append_assoc, List.cons_append]

/-- An operation before an event that answers no task that is out. -/
theorem Accounts.operation_append (h : Accounts nick mucjid first_id events s) {e : HangoutEvent}
    (he : ∀ o ∈ s.outstanding, ∀ outcome, .answer o.1 outcome ≠ e) {before between}
    {op : HangoutOperation} (heq : events = before ++ .operation op :: between) :
    ((idAfter first_id before, op) ∈ s.outstanding ∧
      ∀ outcome, HangoutEvent.answer (idAfter first_id before) outcome ∉ between ++ [e]) ∨
    ∃ outcome, ((idAfter first_id before, op), outcome) ∈ s.answered := by
  refine (h.of_operation before op between heq).imp_left fun ⟨hout, hnone⟩ => ?_
  refine ⟨hout, fun outcome hmem => ?_⟩
  rcases List.mem_append.1 hmem with hold | hnew
  · exact hnone outcome hold
  · exact he _ hout outcome (List.mem_singleton.1 hnew)

/-- The id that comes next was not handed out. -/
theorem Accounts.fresh (h : Accounts nick mucjid first_id events s) :
    idAfter first_id events ∉ s.outstanding.map (·.1) ++ s.answered.map (·.1.1) := by
  intro hmem
  rcases List.mem_append.1 hmem with hout | hans
  · obtain ⟨o, ho, heq⟩ := List.mem_map.1 hout
    obtain ⟨before, between, hev, hid⟩ := h.of_outstanding o ho
    refine idAfter_ne first_id before between o.2 ?_
    rw [← hev, ← heq, hid]
  · obtain ⟨a, ha, heq⟩ := List.mem_map.1 hans
    obtain ⟨before, between, after_, hev, hid⟩ := h.of_answered a ha
    refine idAfter_ne first_id before
      (between ++ .answer (idAfter first_id before) a.2 :: after_) a.1.2 ?_
    rw [← hev, ← heq, hid]

theorem Accounts.operation (h : Accounts nick mucjid first_id events s)
    (op : HangoutOperation) :
    Accounts nick mucjid first_id (events ++ [.operation op])
      (s.step nick mucjid (.operation op)) where
  next_id_eq := by
    rw [List.countP_append]
    show s.next_id + 1 = _
    rw [h.next_id_eq]
    rfl
  of_outstanding o ho := by
    rcases List.mem_append.1 ho with hold | hnew
    · exact h.outstanding_append _ hold
    · rw [List.mem_singleton.1 hnew]
      refine ⟨events, [], rfl, ?_⟩
      show XmlnsStack.decimal s.next_id = _
      rw [h.next_id_eq]
      rfl
  of_answered a ha := h.answered_append _ ha
  of_operation before op' between heq := by
    rcases HangoutEvent.append_one_eq heq with ⟨rfl, rfl, hx⟩ | ⟨between', rfl, hev⟩
    · refine Or.inl ⟨List.mem_append_right _ ?_, fun outcome => List.not_mem_nil⟩
      rw [HangoutEvent.operation.inj hx, List.mem_singleton, h.next_id_eq]
      rfl
    · exact (h.operation_append (e := .operation op) (fun _ _ _ => nofun) hev).imp_left
        (And.imp_left (List.mem_append_left _))
  nodup := by
    have hfresh := h.fresh
    show ((s.outstanding ++ [(XmlnsStack.decimal s.next_id, op)]).map (·.1)
      ++ s.answered.map (·.1.1)).Nodup
    rw [List.map_append, List.append_assoc, h.next_id_eq]
    exact (List.nodup_middle.2 (List.nodup_cons.2 ⟨hfresh, h.nodup⟩))
  signalled_eq := h.signalled_eq

theorem Accounts.otherTask (h : Accounts nick mucjid first_id events s) :
    Accounts nick mucjid first_id (events ++ [.otherTask]) (s.step nick mucjid .otherTask) where
  next_id_eq := by
    rw [List.countP_append]
    show s.next_id + 1 = _
    rw [h.next_id_eq]
    rfl
  of_outstanding o ho := h.outstanding_append _ ho
  of_answered a ha := h.answered_append _ ha
  of_operation before op between heq := by
    rcases HangoutEvent.append_one_eq heq with ⟨rfl, rfl, hx⟩ | ⟨between', rfl, hev⟩
    · exact HangoutEvent.noConfusion hx
    · exact h.operation_append (e := .otherTask) (fun _ _ _ => nofun) hev
  nodup := h.nodup
  signalled_eq := h.signalled_eq

/-- An answer that no task waits for. -/
theorem Accounts.answer_none (h : Accounts nick mucjid first_id events s) {task_id : Str}
    {outcome : PubSubOutcome}
    (hnone : ∀ o ∈ s.outstanding, o.1 ≠ task_id) :
    Accounts nick mucjid first_id (events ++ [.answer task_id outcome]) s where
  next_id_eq := by
    rw [List.countP_append, h.next_id_eq]
    rfl
  of_outstanding o ho := h.outstanding_append _ ho
  of_answered a ha := h.answered_append _ ha
  of_operation before op between heq := by
    rcases HangoutEvent.append_one_eq heq with ⟨rfl, rfl, hx⟩ | ⟨between', rfl, hev⟩
    · exact HangoutEvent.noConfusion hx
    · refine h.operation_append (fun o ho outcome' hans => ?_) hev
      exact hnone o ho (HangoutEvent.answer.inj hans).1
  nodup := h.nodup
  signalled_eq := h.signalled_eq

/-- The answer of a task that is out. -/
theorem Accounts.answer_some (h : Accounts nick mucjid first_id events s)
    {o : Str × HangoutOperation} {outcome : PubSubOutcome} (ho : o ∈ s.outstanding) :
    Accounts nick mucjid first_id (events ++ [.answer o.1 outcome])
      { s with
        outstanding := s.outstanding.filter fun o' => o'.1 ≠ o.1
        answered := s.answered ++ [(o, outcome)]
        signalled := s.signalled ++ reportsOf nick mucjid (o, outcome) } where
  next_id_eq := by
    rw [List.countP_append, h.next_id_eq]
    rfl
  of_outstanding o' ho' := h.outstanding_append _ (List.mem_of_mem_filter ho')
  of_answered a ha := by
    rcases List.mem_append.1 ha with hold | hnew
    · exact h.answered_append _ hold
    · rw [List.mem_singleton.1 hnew]
      obtain ⟨before, between, hev, hid⟩ := h.of_outstanding o ho
      refine ⟨before, between, [], ?_, hid⟩
      rw [← hid, hev, List.append_assoc, List.cons_append]
  of_operation before op between heq := by
    rcases HangoutEvent.append_one_eq heq with ⟨rfl, rfl, hx⟩ | ⟨between', rfl, hev⟩
    · exact HangoutEvent.noConfusion hx
    · rcases h.of_operation before op between' hev with ⟨hout, hold⟩ | ⟨outcome', hans⟩
      · by_cases hid : idAfter first_id before = o.1
        · -- The entry with the id is the entry of this operation.
          have hnodup := (List.nodup_append.1 h.nodup).1
          have hentry := List.inj_on_of_nodup_map hnodup hout ho hid
          exact Or.inr ⟨outcome, List.mem_append_right _ (List.mem_singleton.2 (by rw [hentry]))⟩
        · refine Or.inl ⟨List.mem_filter.2 ⟨hout, decide_eq_true hid⟩, fun outcome' hmem => ?_⟩
          rcases List.mem_append.1 hmem with hmem' | hnew
          · exact hold outcome' hmem'
          · exact hid (HangoutEvent.answer.inj (List.mem_singleton.1 hnew)).1
      · exact Or.inr ⟨outcome', List.mem_append_left _ hans⟩
  nodup := by
    obtain ⟨hout, hans, hdisj⟩ := List.nodup_append.1 h.nodup
    have hsub : ((s.outstanding.filter fun o' => o'.1 ≠ o.1).map (·.1)).Sublist
        (s.outstanding.map (·.1)) := List.filter_sublist.map _
    show (_ ++ (s.answered ++ [(o, outcome)]).map (·.1.1)).Nodup
    rw [List.map_append, ← List.append_assoc]
    refine List.nodup_append.2 ⟨List.nodup_append.2 ⟨hsub.nodup hout, hans, fun a ha b hb =>
      hdisj a (hsub.subset ha) b hb⟩, List.nodup_singleton _, fun a ha b hb heq => ?_⟩
    rw [List.mem_singleton.1 hb] at heq
    rcases List.mem_append.1 ha with hrest | hold
    · obtain ⟨o', ho', rfl⟩ := List.mem_map.1 hrest
      exact of_decide_eq_true (List.mem_filter.1 ho').2 heq
    · exact hdisj o.1 (List.mem_map_of_mem ho) a hold heq.symm
  signalled_eq := by
    show s.signalled ++ _ = _
    rw [h.signalled_eq, List.flatMap_append, List.flatMap_singleton]

/-- One event. -/
theorem Accounts.step (h : Accounts nick mucjid first_id events s) (e : HangoutEvent) :
    Accounts nick mucjid first_id (events ++ [e]) (s.step nick mucjid e) := by
  cases e with
  | operation op => exact h.operation op
  | otherTask => exact h.otherTask
  | answer task_id outcome =>
    unfold HangoutRun.step
    cases hfind : s.outstanding.find? fun o => o.1 = task_id with
    | none =>
      dsimp only
      rw [hfind]
      exact h.answer_none fun o ho hid =>
        List.find?_eq_none.1 hfind o ho (decide_eq_true hid)
    | some o =>
      dsimp only
      rw [hfind]
      have hid := List.find?_some hfind
      rw [decide_eq_true_eq] at hid
      rw [← hid]
      exact h.answer_some (List.mem_of_find?_eq_some hfind)

end Step

/-- **The accounts of a run.** -/
theorem accounts_run (nick : Str) (mucjid : Jid) (first_id : Nat) (events : List HangoutEvent) :
    Accounts nick mucjid first_id events (run nick mucjid first_id events) := by
  induction events using List.reverseRecOn with
  | nil => exact Accounts.start first_id
  | append_singleton events e ih =>
    have hsnoc : run nick mucjid first_id (events ++ [e])
        = (run nick mucjid first_id events).step nick mucjid e := by
      unfold run
      rw [List.foldl_append]
      rfl
    rw [hsnoc]
    exact ih.step e

/-! ## 7. Who is told -/

/-- Of an id that none of some tasks has, they report nothing. -/
theorem filter_reports_of_not_mem {l : List ((Str × HangoutOperation) × PubSubOutcome)}
    {task_id : Str} (h : task_id ∉ l.map (·.1.1)) :
    (l.flatMap (reportsOf nick mucjid)).filter (fun r => r.task_id = task_id) = [] := by
  refine List.filter_eq_nil_iff.2 fun r hr heq => h ?_
  obtain ⟨a, ha, hra⟩ := List.mem_flatMap.1 hr
  have hid := task_id_of_mem_reports hra
  rw [HangoutOperation.task_id_task] at hid
  rw [← of_decide_eq_true heq, hid]
  exact List.mem_map_of_mem ha

/-- With an id for each task, what is reported under the id of a task is what is reported of
that task. -/
theorem filter_reports_of_mem {l : List ((Str × HangoutOperation) × PubSubOutcome)}
    {a : (Str × HangoutOperation) × PubSubOutcome} (hnodup : (l.map (·.1.1)).Nodup)
    (ha : a ∈ l) :
    (l.flatMap (reportsOf nick mucjid)).filter (fun r => r.task_id = a.1.1)
      = reportsOf nick mucjid a := by
  have hown : (reportsOf nick mucjid a).filter (fun r => r.task_id = a.1.1)
      = reportsOf nick mucjid a := by
    refine List.filter_eq_self.2 fun r hr => decide_eq_true ?_
    rw [task_id_of_mem_reports hr, HangoutOperation.task_id_task]
  obtain ⟨before, after_, rfl⟩ := List.append_of_mem ha
  rw [List.map_append, List.map_cons] at hnodup
  have hsplit := List.nodup_middle.1 hnodup
  obtain ⟨hbefore, hafter⟩ := not_or.1 (mt List.mem_append.2 (List.nodup_cons.1 hsplit).1)
  rw [List.flatMap_append, List.flatMap_cons, List.filter_append, List.filter_append,
    filter_reports_of_not_mem hbefore, filter_reports_of_not_mem hafter, hown,
    List.nil_append, List.append_nil]

end HangoutRun

open HangoutRun

/-- **Publish results.** The result of each task that ends reaches the caller that was handed
its id, once and by the right signal, exactly in the runs in which only tasks of the
presenter node end. -/
theorem publish_results (nick : Str) (mucjid : Jid) (first_id : Nat)
    (events : List HangoutEvent) :
    (HangoutRun.run nick mucjid first_id events).ResultsReachCaller ↔
      OnlyPresenterAnswered first_id events := by
  have hacc := accounts_run nick mucjid first_id events
  have hnodup := List.nodup_append.1 hacc.nodup
  have habout : ∀ a ∈ (HangoutRun.run nick mucjid first_id events).answered,
      (HangoutRun.run nick mucjid first_id events).about a.1.1 = reportsOf nick mucjid a := by
    intro a ha
    unfold about
    rw [hacc.signalled_eq]
    exact filter_reports_of_mem hnodup.2.1 ha
  constructor
  · intro hreach before op between outcome after_ heq
    rcases hacc.of_operation before op _ heq with ⟨-, hnone⟩ | ⟨outcome', hans⟩
    · exact absurd (List.mem_append_right between (List.mem_cons_self)) (hnone outcome)
    · obtain ⟨r, hr, -⟩ := hreach.1 _ hans
      rw [habout _ hans] at hr
      cases hnode : op.node with
      | presenter => rfl
      | media =>
        have hfive := reports_media nick (op.task nick mucjid (idAfter first_id before)) outcome'
          (by rw [op.node_task, hnode])
        have hlen : (reportsOf nick mucjid ((idAfter first_id before, op), outcome')).length = 5 :=
          hfive
        rw [hr, List.length_singleton] at hlen
        exact absurd hlen (by decide)
  · intro honly
    refine ⟨fun a ha => ?_, fun o ho => ?_⟩
    · obtain ⟨before, between, after_, heq, -⟩ := hacc.of_answered a ha
      rw [habout a ha]
      exact reports_presenter nick mucjid a.1.1 a.1.2 a.2
        (honly before a.1.2 between a.2 after_ heq)
    · unfold about
      rw [hacc.signalled_eq]
      exact filter_reports_of_not_mem fun hmem =>
        hnodup.2.2 o.1 (List.mem_map_of_mem ho) o.1 hmem rfl

/-- A result of `PublishVideoMuteState(true)` is signalled five times. -/
theorem publish_results_video :
    ¬ ∀ (nick : Str) (mucjid : Jid) (first_id : Nat) (events : List HangoutEvent),
      (HangoutRun.run nick mucjid first_id events).ResultsReachCaller := by
  intro hall
  have hreach := hall (str "ann") (Jid.ofString (str "room@muc.example.com")) 0
    [.operation (.publishVideoMuteState true), .answer (XmlnsStack.decimal 0) .result]
  obtain ⟨r, hr, -⟩ := hreach.1
    ((XmlnsStack.decimal 0, .publishVideoMuteState true), .result) List.mem_cons_self
  have hlen := congrArg List.length hr
  rw [List.length_singleton] at hlen
  exact absurd hlen (by decide)

end Gxmpp
