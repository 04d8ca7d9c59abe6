/-
`talk/xmpp/pubsub_task.cc`: which errors a `PubsubTask` reports.

A reply is queued as its pub sub child, and it is the type of that child that is looked at
when it is processed. So what becomes of an error does not depend on the reply being one: it
is reported if the server put the type and the error on the child, and lost otherwise.

A run is a live task that stanzas come to and that processes what is queued, in any order.
-/
import Gxmpp.PubsubTask

set_option autoImplicit false

namespace Gxmpp

namespace PubsubTask

variable {NodeHandler : Type}

/-! ## 1. Runs -/

/-- What happens to the task: a stanza comes, when the client has this JID, or the task runs. -/
inductive PubsubEvent where
  | stanza (me : Jid) (stanza : XmlElement)
  | response

/-- The queue of the task, with the number of the stanza that each entry is from; the stanzas
that came, and the calls of `OnPubsubError`, with the number of the stanza. -/
structure PubsubRun where
  stanza_queue_ : List (Nat × XmlElement)
  arrived : List (Jid × XmlElement)
  errors : List (Nat × Option XmlElement)

/-- The run before anything happened. -/
def PubsubRun.init : PubsubRun := ⟨[], [], []⟩

/-- `HandleStanza` with `QueueStanza`, and `ProcessResponse` with `NextStanza`. -/
def happens (t : PubsubTask NodeHandler) (s : PubsubRun) : PubsubEvent → PubsubRun
  | .stanza me stanza =>
    { s with
      stanza_queue_ := s.stanza_queue_
        ++ ((t.handleStanza me stanza).map fun e => (s.arrived.length, e)).toList
      arrived := s.arrived ++ [(me, stanza)] }
  | .response =>
    match s.stanza_queue_ with
    | [] => s
    | (n, stanza) :: rest =>
      { s with
        stanza_queue_ := rest
        errors := s.errors ++ ((processResponse stanza).map fun e => (n, e)).toList }

/-- A run. -/
def happened (t : PubsubTask NodeHandler) (events : List PubsubEvent) : PubsubRun :=
  events.foldl t.happens .init

/-- The arguments of the calls of `OnPubsubError` for the stanza of this number. -/
def PubsubRun.reported (s : PubsubRun) (n : Nat) : List (Option XmlElement) :=
  (s.errors.filter fun e => e.1 = n).map Prod.snd

/-- Each error that answers the task's request was reported once, with its error element, and
no result was. -/
def ReportsErrors (t : PubsubTask NodeHandler) (s : PubsubRun) : Prop :=
  ∀ (n : Nat) me stanza, s.arrived[n]? = some (me, stanza) →
    XmppTask.matchResponseIq me stanza t.pubsub_node_jid_ t.task_id = true →
      (stanza.attr QN_TYPE = STR_ERROR → s.reported n = [stanza.firstNamed QN_ERROR]) ∧
      (stanza.attr QN_TYPE = STR_RESULT → s.reported n = [])

/-- The server put the type and the error of an error on its pub sub child, and did not put
that type on the one of a result. -/
structure Echoes (stanza : XmlElement) : Prop where
  error : stanza.attr QN_TYPE = STR_ERROR → ∃ e, stanza.firstNamed QN_PUBSUB = some e ∧
    e.attr QN_TYPE = STR_ERROR ∧ e.firstNamed QN_ERROR = stanza.firstNamed QN_ERROR
  result : stanza.attr QN_TYPE = STR_RESULT → ∀ e, stanza.firstNamed QN_PUBSUB = some e →
    e.attr QN_TYPE ≠ STR_ERROR

/-! ## 2. What becomes of a stanza -/

/-- What is reported of a stanza, once it is processed. -/
def reports (t : PubsubTask NodeHandler) (arrival : Jid × XmlElement) :
    List (Option XmlElement) :=
  ((t.handleStanza arrival.1 arrival.2).bind processResponse).toList

/-- What is still to be reported of a stanza. -/
def PubsubRun.unreported (s : PubsubRun) (n : Nat) : List (Option XmlElement) :=
  (s.stanza_queue_.filter fun e => e.1 = n).filterMap fun e => processResponse e.2

/-- What was reported of a stanza and what is still to be is what it reports. -/
structure Accounted (t : PubsubTask NodeHandler) (s : PubsubRun) : Prop where
  queued : ∀ e ∈ s.stanza_queue_, e.1 < s.arrived.length
  reported : ∀ e ∈ s.errors, e.1 < s.arrived.length
  each : ∀ n, s.reported n ++ s.unreported n = (s.arrived[n]?.map t.reports).getD []

theorem accounted_stanza {t : PubsubTask NodeHandler} {s : PubsubRun} (h : Accounted t s)
    (me : Jid) (stanza : XmlElement) : Accounted t (t.happens s (.stanza me stanza)) := by
  have hlength : (s.arrived ++ [(me, stanza)]).length = s.arrived.length + 1 := by
    rw [List.length_append, List.length_singleton]
  refine ⟨fun e he => ?_, fun e he => ?_, fun n => ?_⟩
  · show e.1 < (s.arrived ++ [(me, stanza)]).length
    rcases List.mem_append.1 he with he | he
    · have := h.queued e he
      omega
    · obtain ⟨x, -, rfl⟩ := Option.map_eq_some_iff.1 (Option.mem_toList.1 he)
      omega
  · show e.1 < (s.arrived ++ [(me, stanza)]).length
    have := h.reported e he
    omega
  · have hnew : (t.happens s (.stanza me stanza)).unreported n = s.unreported n ++
        if s.arrived.length = n then t.reports (me, stanza) else [] := by
      unfold PubsubRun.unreported
      show List.filterMap _ (List.filter _ (s.stanza_queue_ ++ _)) = _
      rw [List.filter_append, List.filterMap_append]
      unfold reports
      cases t.handleStanza me stanza with
      | none => split <;> rfl
      | some e =>
        by_cases hn : s.arrived.length = n
        · rw [if_pos hn, Option.map_some, Option.toList_some,
            List.filter_cons_of_pos (by simpa using hn), List.filter_nil]
          cases hreport : processResponse e with
          | none | some => simp [hreport]
        · rw [if_neg hn, Option.map_some, Option.toList_some,
            List.filter_cons_of_neg (by simpa using hn)]
          rfl
    show s.reported n ++ _ = ((s.arrived ++ [(me, stanza)])[n]?.map t.reports).getD []
    rw [hnew, ← List.append_assoc, h.each n]
    by_cases hn : s.arrived.length = n
    · -- the stanza that came
      subst hn
      rw [if_pos rfl, List.getElem?_eq_none (Nat.le_refl _), List.getElem?_concat_length]
      rfl
    · rw [if_neg hn, List.append_nil]
      by_cases hlt : n < s.arrived.length
      · rw [List.getElem?_append_left hlt]
      · rw [List.getElem?_eq_none (Nat.le_of_not_lt hlt),
          List.getElem?_eq_none (by rw [hlength]; omega)]

theorem accounted_response {t : PubsubTask NodeHandler} {s : PubsubRun} (h : Accounted t s) :
    Accounted t (t.happens s .response) := by
  unfold happens
  cases hqueue : s.stanza_queue_ with
  | nil => exact h
  | cons entry rest =>
    obtain ⟨m, stanza⟩ := entry
    refine ⟨fun e he => ?_, fun e he => ?_, fun n => ?_⟩
    · exact h.queued e (by rw [hqueue]; exact List.mem_cons_of_mem _ he)
    · rcases List.mem_append.1 he with he | he
      · exact h.reported e he
      · obtain ⟨x, -, rfl⟩ := Option.map_eq_some_iff.1 (Option.mem_toList.1 he)
        exact h.queued (m, stanza) (by rw [hqueue]; exact List.mem_cons_self)
    · rw [← h.each n]
      unfold PubsubRun.reported PubsubRun.unreported
      dsimp only
      rw [hqueue, List.filter_append, List.map_append, List.append_assoc]
      congr 1
      -- the first entry goes from one side to the other
      by_cases hm : m = n
      · rw [List.filter_cons_of_pos (by simpa using hm)]
        cases hreport : processResponse stanza with
        | none => simp [hreport]
        | some report => simp [hreport, hm]
      · rw [List.filter_cons_of_neg (by simpa using hm)]
        cases processResponse stanza with
        | none => rfl
        | some report => simp [hm]

theorem accounted (t : PubsubTask NodeHandler) (events : List PubsubEvent) :
    Accounted t (t.happened events) := by
  induction events using List.reverseRecOn with
  | nil => exact ⟨nofun, nofun, fun _ => rfl⟩
  | append_singleton events event ih =>
    unfold happened at ih ⊢
    rw [List.foldl_append]
    cases event with
    | stanza me stanza => exact accounted_stanza ih me stanza
    | response => exact accounted_response ih

/-- A reply that the task takes. -/
theorem reports_reply {t : PubsubTask NodeHandler} {me : Jid} {stanza : XmlElement}
    (h : XmppTask.matchResponseIq me stanza t.pubsub_node_jid_ t.task_id = true) :
    t.reports (me, stanza) = ((stanza.firstNamed QN_PUBSUB).bind processResponse).toList := by
  have hname : stanza.name = QN_IQ := by
    unfold XmppTask.matchResponseIq at h
    refine Classical.byContradiction fun hne => ?_
    rw [if_pos hne] at h
    cases h
  have hmessage : ¬QN_IQ = QN_MESSAGE := by decide
  unfold reports handleStanza
  dsimp only
  rw [hname, if_neg hmessage, if_pos rfl, if_pos h]

/-- It is reported as it should be exactly if the server echoed so. -/
theorem reports_iff {t : PubsubTask NodeHandler} {me : Jid} {stanza : XmlElement}
    (h : XmppTask.matchResponseIq me stanza t.pubsub_node_jid_ t.task_id = true) :
    ((stanza.attr QN_TYPE = STR_ERROR → t.reports (me, stanza) = [stanza.firstNamed QN_ERROR]) ∧
      (stanza.attr QN_TYPE = STR_RESULT → t.reports (me, stanza) = [])) ↔ Echoes stanza := by
  rw [reports_reply h]
  have herror : ((stanza.firstNamed QN_PUBSUB).bind processResponse).toList
      = [stanza.firstNamed QN_ERROR] ↔ ∃ e, stanza.firstNamed QN_PUBSUB = some e ∧
        e.attr QN_TYPE = STR_ERROR ∧ e.firstNamed QN_ERROR = stanza.firstNamed QN_ERROR := by
    unfold processResponse
    cases stanza.firstNamed QN_PUBSUB with
    | none => simp
    | some e => by_cases hchild : e.attr QN_TYPE = STR_ERROR <;> simp [hchild]
  have hresult : ((stanza.firstNamed QN_PUBSUB).bind processResponse).toList = [] ↔
      ∀ e, stanza.firstNamed QN_PUBSUB = some e → e.attr QN_TYPE ≠ STR_ERROR := by
    unfold processResponse
    cases stanza.firstNamed QN_PUBSUB with
    | none => simp
    | some e => by_cases hchild : e.attr QN_TYPE = STR_ERROR <;> simp [hchild]
  rw [herror, hresult]
  exact ⟨fun h => ⟨h.1, h.2⟩, fun h => ⟨h.error, h.result⟩⟩

/-- In a run that has processed its queue, the errors of the replies were reported exactly if
each reply echoed its type and its error on its pub sub child. -/
theorem pubsub_errors_reported_iff {t : PubsubTask NodeHandler} {events : List PubsubEvent}
    (hidle : (t.happened events).stanza_queue_ = []) :
    t.ReportsErrors (t.happened events) ↔
      ∀ (n : Nat) me stanza, (t.happened events).arrived[n]? = some (me, stanza) →
        XmppTask.matchResponseIq me stanza t.pubsub_node_jid_ t.task_id = true →
          Echoes stanza := by
  have heach : ∀ (n : Nat) me stanza, (t.happened events).arrived[n]? = some (me, stanza) →
      (t.happened events).reported n = t.reports (me, stanza) := by
    intro n me stanza harrived
    have h := (accounted t events).each n
    unfold PubsubRun.unreported at h
    rw [hidle, harrived] at h
    simpa using h
  constructor
  · intro h n me stanza harrived hmatch
    have hreply := h n me stanza harrived hmatch
    rw [heach n me stanza harrived] at hreply
    exact (reports_iff hmatch).1 hreply
  · intro h n me stanza harrived hmatch
    rw [heach n me stanza harrived]
    exact (reports_iff hmatch).2 (h n me stanza harrived hmatch)

/-- An error that answers the request "1" of the listener, with this pub sub child. -/
def errorReply (pubsub : XmlElement) : XmlElement :=
  ((((XmlElement.new QN_IQ false).addAttr QN_TYPE STR_ERROR).addAttr QN_ID (str "1")).addElement
    pubsub).addElement (XmlElement.new QN_ERROR false)

/-- The child that carries the error. -/
def echoing : XmlElement :=
  ((XmlElement.new QN_PUBSUB true).addAttr QN_TYPE STR_ERROR).addElement
    (XmlElement.new QN_ERROR false)

theorem echoed_processed : (listener.happened
    [.stanza Jid.empty (errorReply echoing), .response]).stanza_queue_ = [] := by decide

theorem pubsub_errors_reported_echoed :
    listener.ReportsErrors
        (listener.happened [.stanza Jid.empty (errorReply echoing), .response]) ↔
      ∀ (n : Nat) me stanza, (listener.happened
          [.stanza Jid.empty (errorReply echoing), .response]).arrived[n]? = some (me, stanza) →
        XmppTask.matchResponseIq me stanza listener.pubsub_node_jid_ listener.task_id = true →
          Echoes stanza :=
  pubsub_errors_reported_iff echoed_processed

/-- The request is echoed as it was sent, as servers do. -/
theorem pubsub_error_lost :
    ¬∀ (t : PubsubTask Nat) (events : List PubsubEvent),
      (t.happened events).stanza_queue_ = [] → t.ReportsErrors (t.happened events) := by
  intro h
  have hreported := h listener
    [.stanza Jid.empty (errorReply (XmlElement.new QN_PUBSUB true)), .response] rfl
    0 Jid.empty (errorReply (XmlElement.new QN_PUBSUB true)) rfl (by decide)
  exact absurd (hreported.1 (by decide)) (by exact nofun)

end PubsubTask

end Gxmpp
