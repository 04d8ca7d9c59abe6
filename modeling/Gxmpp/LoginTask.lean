/-
`talk/xmpp/xmpplogintask.cc`: the handshake.

`XmppLoginTask::Advance` is a loop over a switch. Each case of the switch is a
definition of its own here; it returns what the loop does next: go round again
(`[.advance]`), return (`[]`), or call `StartTls` on the output handler and go on
after that. `none` is a null pointer the code would dereference: the features
before any were received, a SASL handler or mechanism that was never set.

`advance` is one round of the loop, and the control stack repeats it.
-/
import Gxmpp.Engine

set_option autoImplicit false

namespace Gxmpp.XmppLoginTask

open World

/-- `XmppLoginTask::HandleStartStream`. -/
def handleStartStream (element : XmlElement) : Bool :=
  element.name = QN_STREAM_STREAM && element.attr QN_XMLNS = NS_CLIENT
    && element.attr QN_VERSION = str "1.0" && element.hasAttr QN_ID

/-- `XmppLoginTask::NextStanza`, where there is one. -/
def nextStanza (w : World) (lt : XmppLoginTask) (element : XmlElement) :
    World × XmppLoginTask :=
  (w.emit (.took lt.state lt.isStart element), { lt with pelStanza := none })

/-- `XmppLoginTask::Failure`. -/
def failure (w : World) (lt : XmppLoginTask) (reason : EngineError) : World × List Stmt :=
  ((w.setLogin { lt with state := .done }).signalError reason 0, [])

/-- The login task sends a stanza of its own. -/
def send (w : World) (lt : XmppLoginTask) (element : XmlElement) : World :=
  (w.emit (.sentByLogin lt.state element)).internalSendStanza element

/-- Sets the state and goes round the loop again. -/
def goto (w : World) (lt : XmppLoginTask) (state : LoginTaskState) : World × List Stmt :=
  (w.setLogin { lt with state := state }, [.advance])

section Sent

variable (w : World) (lt lt' : XmppLoginTask) (element : XmlElement) (state : LoginTaskState)

theorem goto_login :
    (goto w lt state).1.eng.login_task = some { lt with state := state } := rfl

/-- A stanza of the task's own leaves the engine's state as it is. -/
theorem goto_send_state :
    (goto (send w lt element) lt' state).1.eng.state = w.eng.state := rfl

theorem goto_send_raised :
    (goto (send w lt element) lt' state).1.eng.raised_reset = w.eng.raised_reset := rfl

end Sent

/-- `case LOGINSTATE_INIT`. -/
def advanceInit (w : World) (lt : XmppLoginTask) : World × List Stmt :=
  goto (w.raiseReset.internalSendStart w.eng.user_jid.domain) { lt with pelFeatures := none }
    .streamstartSent

/-- `case LOGINSTATE_STREAMSTART_SENT`. -/
def advanceStreamstartSent (w : World) (lt : XmppLoginTask) (element : XmlElement) :
    World × List Stmt :=
  let (w, lt) := nextStanza w lt element
  -- anything but the start of a stream, and a start without what it needs
  if !lt.isStart || !handleStartStream element then failure w lt .version
  else (w.setLogin { lt with streamId := element.attr QN_ID, state := .startedXmpp }, [])

/-- `case LOGINSTATE_STARTED_XMPP`. -/
def advanceStartedXmpp (w : World) (lt : XmppLoginTask) (element : XmlElement) :
    World × List Stmt :=
  let (w, lt) := nextStanza w lt element
  if element.name ≠ QN_STREAM_FEATURES then failure w lt .version
  else
    let lt := { lt with pelFeatures := some element }
    let tls_present := (element.firstNamed QN_TLS_STARTTLS).isSome
    -- TLS comes before everything else, and is not optional when it is required
    if w.eng.tls_option = .required && !tls_present then failure w lt .tls
    else if (w.eng.tls_option = .required || w.eng.tls_option = .enabled) && tls_present then
      goto w lt .tlsInit
    -- the flag is down after `<success/>`, when the stream has been started again
    else if lt.authNeeded then goto w lt .authInit
    else goto w lt .bindInit

/-- `case LOGINSTATE_TLS_INIT`. -/
def advanceTlsInit (w : World) (lt : XmppLoginTask) (features : XmlElement) :
    World × List Stmt :=
  match features.firstNamed QN_TLS_STARTTLS with
  | none => failure w lt .tls
  | some _ => goto (send w lt (XmlElement.new QN_TLS_STARTTLS true)) lt .tlsRequested

/-- `case LOGINSTATE_TLS_REQUESTED`, with `XmppEngineImpl::StartTls` up to the call
of the output handler. -/
def advanceTlsRequested (w : World) (lt : XmppLoginTask) (element : XmlElement) :
    World × List Stmt :=
  let (w, lt) := nextStanza w lt element
  if element.name ≠ QN_TLS_PROCEED then failure w lt .tls
  else
    let w := w.setLogin lt
    -- a server domain that was set replaces the domain of the user
    if w.eng.output_handler then
      w.callOut (.startTls (if w.eng.tls_server_domain.isEmpty then w.eng.user_jid.domain
        else w.eng.tls_server_domain)) [.startedTls, .tlsStarted]
    else (w, [.tlsStarted])

/-- `case LOGINSTATE_TLS_REQUESTED`, after `pctx_->StartTls`. -/
def afterStartTls (w : World) (lt : XmppLoginTask) : World × List Stmt :=
  -- TLS is on now: the new stream must not demand it again
  goto (w.set { w.eng with tls_option := .enabled }) lt .init

/-- The two attributes that `LOGINSTATE_AUTH_INIT` sets on `<auth>`. -/
def withGoogleAttrs (auth : XmlElement) (allowNonGoogleLogin : Bool) : XmlElement :=
  if allowNonGoogleLogin then
    (auth.setAttr QN_GOOGLE_ALLOW_NON_GOOGLE_ID_XMPP_LOGIN (str "true")).setAttr
      QN_GOOGLE_AUTH_CLIENT_USES_FULL_BIND_RESULT (str "true")
  else auth

/-- `case LOGINSTATE_AUTH_INIT`. -/
def advanceAuthInit (w : World) (lt : XmppLoginTask) (features : XmlElement) :
    Option (World × List Stmt) :=
  match features.firstNamed QN_SASL_MECHANISMS with
  | none => some (failure w lt .auth)
  | some pelSaslAuth => do
      let sasl_handler ← w.eng.sasl_handler
      let mechanisms := (pelSaslAuth.named QN_SASL_MECHANISM).map XmlElement.bodyText
      let choice := sasl_handler.chooseBestSaslMechanism mechanisms w.eng.encrypted
      let w := w.emit (.chose mechanisms w.eng.encrypted choice)
      -- the handler found nothing it could use
      if choice.isEmpty then some (failure w lt .auth)
      else
        let w := w.emit (.gotMechanism choice)
        let lt := { lt with sasl_mech := sasl_handler.createSaslMechanism choice }
        match lt.sasl_mech with
        | none => some (failure w lt .auth)
        | some mech =>
          match mech.startSaslAuth with
          | none => some (failure w lt .auth)
          | some auth =>
            some (goto (send w lt (withGoogleAttrs auth lt.allowNonGoogleLogin)) lt
              .saslRunning)

/-- `case LOGINSTATE_SASL_RUNNING`. -/
def advanceSaslRunning (w : World) (lt : XmppLoginTask) (element : XmlElement) :
    Option (World × List Stmt) :=
  let (w, lt) := nextStanza w lt element
  -- a stanza of another namespace, a failure, a challenge or a success
  if element.name.ns ≠ NS_SASL then some (failure w lt .auth)
  else if element.name = QN_SASL_CHALLENGE then do
    let mech ← lt.sasl_mech
    match mech.handleSaslChallenge element with
    | none => some (failure w lt .auth)
    | some response => some (goto (send w lt response) lt .saslRunning)
  else if element.name ≠ QN_SASL_SUCCESS then some (failure w lt .unauthorized)
  else some (goto w { lt with authNeeded := false } .init)

/-- The `<iq type="set">` that `LOGINSTATE_BIND_INIT` sends. -/
def bindRequest (id requested_resource : Str) : XmlElement :=
  let iq := (((XmlElement.new QN_IQ false).addAttr QN_TYPE (str "set")).addAttr QN_ID id).addElement
    (XmlElement.new QN_BIND_BIND true)
  if requested_resource ≠ STR_EMPTY then
    XmlElement.atDepth (fun e => e.addText requested_resource) 2
      (XmlElement.atDepth (fun e => e.addElement (XmlElement.new QN_BIND_RESOURCE false)) 1 iq)
  else iq

/-- `case LOGINSTATE_BIND_INIT`. -/
def advanceBindInit (w : World) (lt : XmppLoginTask) (features : XmlElement) :
    World × List Stmt :=
  if (features.firstNamed QN_BIND_BIND).isNone || (features.firstNamed QN_SESSION_SESSION).isNone
  then failure w lt .bind
  else
    let (w, id) := w.nextId
    let lt := { lt with iqId := id }
    goto (send w lt (bindRequest id w.eng.requested_resource)) lt .bindRequested

/-- An iq that is not the answer waited for: another id, or a request. -/
def notTheAnswer (lt : XmppLoginTask) (element : XmlElement) : Bool :=
  element.name ≠ QN_IQ || element.attr QN_ID ≠ lt.iqId || element.attr QN_TYPE = str "get"
    || element.attr QN_TYPE = str "set"

/-- The `<iq type="set">` that asks for a session. -/
def sessionRequest (id : Str) : XmlElement :=
  (((XmlElement.new QN_IQ false).addAttr QN_TYPE (str "set")).addAttr QN_ID id).addElement
    (XmlElement.new QN_SESSION_SESSION true)

/-- `case LOGINSTATE_BIND_REQUESTED`. -/
def advanceBindRequested (w : World) (lt : XmppLoginTask) (element : XmlElement) :
    World × List Stmt :=
  let (w, lt) := nextStanza w lt element
  if notTheAnswer lt element then (w.setLogin lt, [])
  else
    match element.firstElement with
    | none => failure w lt .bind
    | some bind =>
      if element.attr QN_TYPE ≠ str "result" || bind.name ≠ QN_BIND_BIND then failure w lt .bind
      else
        let lt := { lt with fullJid := Jid.ofString (bind.textNamed QN_BIND_JID) }
        if !lt.fullJid.isFull then failure w lt .bind
        else
          let (w, id) := w.nextId
          let lt := { lt with iqId := id }
          goto (send w lt (sessionRequest id)) lt .sessionRequested

/-- `XmppLoginTask::FlushQueuedStanzas`. -/
def flushQueuedStanzas (w : World) (lt : XmppLoginTask) : World × XmppLoginTask :=
  (lt.pvecQueuedStanzas.foldl (fun w e => (w.emit (.printed e)).internalSendStanza e) w,
    { lt with pvecQueuedStanzas := [] })

/-- `case LOGINSTATE_SESSION_REQUESTED`. -/
def advanceSessionRequested (w : World) (lt : XmppLoginTask) (element : XmlElement) :
    World × List Stmt :=
  let (w, lt) := nextStanza w lt element
  if notTheAnswer lt element then (w.setLogin lt, [])
  else if element.attr QN_TYPE ≠ str "result" then failure w lt .bind
  else
    let (w, lt) := flushQueuedStanzas (w.signalBound lt.fullJid) lt
    (w.setLogin { lt with state := .done }, [])

/-- One round of the loop of `XmppLoginTask::Advance`. The waiting states return
when there is no stanza. -/
def advance (w : World) (lt : XmppLoginTask) : Option (World × List Stmt) :=
  match lt.state, lt.pelStanza with
  | .init, _ => some (advanceInit w lt)
  | .tlsInit, _ => lt.pelFeatures.map (advanceTlsInit w lt)
  | .authInit, _ => lt.pelFeatures.bind (advanceAuthInit w lt)
  | .bindInit, _ => lt.pelFeatures.map (advanceBindInit w lt)
  | .done, _ => some (w, [])
  | .streamstartSent, none => some (w, [])
  | .startedXmpp, none => some (w, [])
  | .tlsRequested, none => some (w, [])
  | .saslRunning, none => some (w, [])
  | .bindRequested, none => some (w, [])
  | .sessionRequested, none => some (w, [])
  | .streamstartSent, some e => some (advanceStreamstartSent w lt e)
  | .startedXmpp, some e => some (advanceStartedXmpp w lt e)
  | .tlsRequested, some e => some (advanceTlsRequested w lt e)
  | .saslRunning, some e => advanceSaslRunning w lt e
  | .bindRequested, some e => some (advanceBindRequested w lt e)
  | .sessionRequested, some e => some (advanceSessionRequested w lt e)

/-- `XmppLoginTask::IncomingStanza`, up to `Advance`, and what its callers in the
engine do after it. -/
def incomingStanza (w : World) (lt : XmppLoginTask) (element : Option XmlElement)
    (isStart : Bool) : World × List Stmt :=
  (w.setLogin { lt with pelStanza := element, isStart := isStart },
    [.advance, .advanced, .resetLogin])

/-- `XmppLoginTask::OutgoingStanza`. -/
def outgoingStanza (lt : XmppLoginTask) (element : XmlElement) : XmppLoginTask :=
  { lt with pvecQueuedStanzas := lt.pvecQueuedStanzas ++ [element] }

end Gxmpp.XmppLoginTask
