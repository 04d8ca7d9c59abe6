/-
`talk/xmpp/xmppengineimpl.cc` and `xmppengineimpl_iq.cc`: the engine as a
re-entrant component.

`enter` is the entry of a public function: what it does before its first
suspension point, and the statements left. `exec` executes one of those. A
function that opens an `EnterExit` scope leaves an `exitScope` with the state the
constructor saved; the destructor is the four statements `exitScope`,
`afterWrite`, `afterClose` and `leaveScope`, because it calls out twice in
between and once at its end.

`engine` puts them together. Its runs are those of an application that calls any
function at any time it has control, and returns from a handler when it likes.
-/
import Gxmpp.LoginTask
import Gxmpp.Reentrant

set_option autoImplicit false

namespace Gxmpp

namespace World

/-! ## `EnterExit::~EnterExit` -/

/-- Up to the call of `WriteOutput`. -/
def exitScope (w : World) (saved : EngineState) : World × List Stmt :=
  let w := w.set { w.eng with engine_entered := w.eng.engine_entered - 1 }
  -- the scope in which the engine was closed flushes, at whatever depth
  let closing := w.eng.state ≠ saved && w.eng.state = .closed
  let flushing := closing || w.eng.engine_entered = 0
  if w.eng.output_handler && flushing then
    if w.eng.output.length > 0 then
      w.callOut (.writeOutput w.eng.output) [.afterWrite saved closing]
    else (w, [.afterWrite saved closing])
  else (w, [.leaveScope saved])

/-- From there to the call of `CloseConnection`. -/
def afterWrite (w : World) (saved : EngineState) (closing : Bool) : World × List Stmt :=
  let w := w.set { w.eng with output := [] }
  if closing then w.callOut .closeConnection [.afterClose saved] else (w, [.leaveScope saved])

/-- From there to the end of the flush. -/
def afterClose (w : World) (saved : EngineState) : World × List Stmt :=
  (w.set { w.eng with output_handler := false }, [.leaveScope saved])

/-- The rest: the reset of the parser and the notification of the session handler. -/
def leaveScope (w : World) (saved : EngineState) : World × List Stmt :=
  -- an inner scope leaves the rest to the outermost one
  if w.eng.engine_entered ≠ 0 then (w, [])
  else
    let w :=
      if w.eng.raised_reset then
        w.set { w.eng with stanza_parser_ := w.eng.stanza_parser_.reset, raised_reset := false }
      else w
    if w.eng.session_handler && w.eng.state ≠ saved then w.callOut (.onStateChange w.eng.state) []
    else (w, [])

/-! ## Sending -/

/-- `XmppEngineImpl::SendStanza`: the statements left are those of its scope. -/
def sendStanza (w : World) (element : XmlElement) : World × List Stmt × XmppReturnStatus :=
  if w.eng.state = .closed then (w, [], .badState)
  else
    let saved := w.eng.state
    let w := (w.emit (.accepted element)).enterExit
    match w.eng.login_task with
    -- until the login is done the stanza waits in the queue of the login task
    | some lt => (w.setLogin (lt.outgoingStanza element), [.exitScope saved], .ok)
    | none => ((w.emit (.printed element)).internalSendStanza element, [.exitScope saved], .ok)

/-- `AecImpl`. -/
def aecImpl (error_element : XmlElement) (name : Str) (type code : Str) : XmlElement :=
  let e := error_element.addElement (XmlElement.new QN_ERROR false)
  let e := XmlElement.atDepth (fun c => c.addAttr QN_CODE code) 1 e
  let e := XmlElement.atDepth (fun c => c.addAttr QN_TYPE type) 1 e
  XmlElement.atDepth (fun c => c.addElement (XmlElement.new ⟨NS_STANZA, name⟩ true)) 1 e

/-- `AddErrorCode`. -/
def addErrorCode (e : XmlElement) : XmppStanzaError → XmlElement
  | .badRequest => aecImpl e (str "bad-request") (str "modify") (str "400")
  | .conflict => aecImpl e (str "conflict") (str "cancel") (str "409")
  | .featureNotImplemented =>
    aecImpl e (str "feature-not-implemented") (str "cancel") (str "501")
  | .forbidden => aecImpl e (str "forbidden") (str "auth") (str "403")
  | .gone => aecImpl e (str "gone") (str "modify") (str "302")
  | .internalServerError => aecImpl e (str "internal-server-error") (str "wait") (str "500")
  | .itemNotFound => aecImpl e (str "item-not-found") (str "cancel") (str "404")
  | .jidMalformed => aecImpl e (str "jid-malformed") (str "modify") (str "400")
  | .notAcceptable => aecImpl e (str "not-acceptable") (str "cancel") (str "406")
  | .notAllowed => aecImpl e (str "not-allowed") (str "cancel") (str "405")
  | .paymentRequired => aecImpl e (str "payment-required") (str "auth") (str "402")
  | .recipientUnavailable => aecImpl e (str "recipient-unavailable") (str "wait") (str "404")
  | .redirect => aecImpl e (str "redirect") (str "modify") (str "302")
  | .registrationRequired => aecImpl e (str "registration-required") (str "auth") (str "407")
  | .serverNotFound => aecImpl e (str "remote-server-not-found") (str "cancel") (str "404")
  | .serverTimeout => aecImpl e (str "remote-server-timeout") (str "wait") (str "502")
  | .resourceConstraint => aecImpl e (str "resource-constraint") (str "wait") (str "500")
  | .serviceUnavailable => aecImpl e (str "service-unavailable") (str "cancel") (str "503")
  | .subscriptionRequired => aecImpl e (str "subscription-required") (str "auth") (str "407")
  | .undefinedCondition => aecImpl e (str "undefined-condition") (str "wait") (str "500")
  | .unexpectedRequest => aecImpl e (str "unexpected-request") (str "wait") (str "400")

/-- The attributes of an error reply: `from` becomes `to`, `to` and `type` go. -/
def replyAttrs (e : XmlElement) (attrs : List XmlAttr) : XmlElement :=
  attrs.foldl (fun e a =>
    if a.name = QN_TO then e
    else if a.name = QN_FROM then e.addAttr QN_TO a.value
    else if a.name = QN_TYPE then e
    else e.addAttr a.name a.value) e

/-- The children of an error reply: copies of the original's. -/
def replyChildren (e : XmlElement) (children : List XmlChild) : XmlElement :=
  children.foldl (fun e c =>
    match c with
    | .text t => e.addText t
    | .element c => e.addElement c) e

/-- The stanza `XmppEngineImpl::SendStanzaError` builds. -/
def errorReply (original : XmlElement) (code : XmppStanzaError) (text : Str) : XmlElement :=
  let e := (XmlElement.new original.name false).addAttr QN_TYPE (str "error")
  let e := addErrorCode (replyChildren (replyAttrs e original.attrs) original.children) code
  if text ≠ STR_EMPTY then e.addElement ((XmlElement.new QN_STANZA_TEXT true).addText text) else e

/-- `XmppEngineImpl::SendStanzaError`. -/
def sendStanzaError (w : World) (original : XmlElement) (code : XmppStanzaError) (text : Str) :
    World × List Stmt × XmppReturnStatus :=
  if w.eng.state = .closed then (w, [], .badState)
  else
    -- what `SendStanza` returns is dropped
    let r := w.sendStanza (errorReply original code text)
    (r.1, r.2.1, .ok)

/-- The checks of `XmppEngineImpl::SendIq` on its arguments. -/
def badIq (element : Option XmlElement) (iq_handler : Option Handler) : Bool :=
  match iq_handler, element with
  | none, _ => true
  | _, none => true
  | some _, some e =>
    e.name ≠ QN_IQ || (e.attr QN_TYPE ≠ str "get" && e.attr QN_TYPE ≠ str "set")
      || !e.hasAttr QN_ID

/-- `XmppEngineImpl::SendIq`. The entry is registered before the stanza is sent. -/
def sendIq (w : World) (element : Option XmlElement) (iq_handler : Option Handler) :
    World × List Stmt × XmppReturnStatus :=
  if w.eng.state = .closed then (w, [], .badState)
  else if badIq element iq_handler then (w, [], .badArgument)
  else
    match element, iq_handler with
    | some e, some h =>
      let entry : XmppIqEntry :=
        { cookie := w.nextCookie, id := e.attr QN_ID, to_ := e.attr QN_TO, iq_handler := h }
      let w := { w with nextCookie := w.nextCookie + 1 }
      let w := (w.set { w.eng with iq_entries := w.eng.iq_entries ++ [entry] }).emit
        (.iqCreated entry)
      -- here too the result of `SendStanza` is dropped
      let r := w.sendStanza e
      (r.1, r.2.1, .ok)
    | _, _ => (w, [], .badArgument)

/-- `XmppEngineImpl::RemoveIqHandler`. -/
def removeIqHandler (w : World) (cookie : Nat) : World × XmppReturnStatus :=
  match w.eng.iq_entries.find? (fun x => x.cookie = cookie) with
  | none => (w, .badArgument)
  | some entry =>
    ((w.set { w.eng with
        iq_entries := w.eng.iq_entries.eraseP fun x => x.cookie = cookie }).emit
      (.iqFreed entry), .ok)

/-! ## Receiving -/

/-- The guard of `IncomingStart`, `IncomingStanza` and `IncomingEnd`. -/
def blocked (w : World) : Bool := w.hasError || w.eng.raised_reset

/-- The entry `HandleIqResponse` looks for: same id, and the reply's `from` is the
request's `to`, as text. -/
def answers (entry : XmppIqEntry) (element : XmlElement) : Bool :=
  entry.id = element.attr QN_ID && entry.to_ = element.attr QN_FROM

/-- `XmppEngineImpl::HandleIqResponse`, up to the call of the handler; `none` where
it returns false. -/
def handleIqResponse (w : World) (element : XmlElement) : Option (World × List Stmt) :=
  if w.eng.iq_entries.isEmpty then none
  else if element.name ≠ QN_IQ then none
  else if element.attr QN_TYPE ≠ str "result" && element.attr QN_TYPE ≠ str "error" then none
  else if !element.hasAttr QN_ID then none
  else
    match w.eng.iq_entries.find? (fun x => answers x element) with
    | none => none
    | some entry =>
      some ((w.set { w.eng with
          iq_entries := w.eng.iq_entries.eraseP fun x => answers x element }).callOut
        (.iqResponse entry element) [.deleteEntry entry])

/-- `XmppEngineImpl::IncomingStart`. -/
def incomingStart (w : World) (start : XmlElement) : World × List Stmt :=
  match w.eng.login_task with
  | some lt => XmppLoginTask.incomingStanza w lt (some start) true
  | none => (w.signalError .xml 0, [])

/-- `XmppEngineImpl::IncomingStanza`, up to the dispatch loops. -/
def incomingStanza (w : World) (stanza : XmlElement) : World × List Stmt :=
  if stanza.name = QN_STREAM_ERROR then (w.signalStreamError stanza, [])
  else
    match w.eng.login_task with
    | some lt => XmppLoginTask.incomingStanza w lt (some stanza) false
    | none =>
      -- an iq that somebody asked for does not reach the stanza handlers
      match w.handleIqResponse stanza with
      | some r => r
      | none => (w, [.peek stanza 0])

/-- `StanzaParseHandler`: what the parser reports goes to `IncomingStart`,
`IncomingStanza` or `IncomingEnd`, which share their guard. -/
def incoming (w : World) (ev : StanzaEvent) : World × List Stmt :=
  if w.blocked then (w, [])
  else
    let w := w.emit (.parsed ev)
    match ev with
    | .startStream start => w.incomingStart start
    | .stanza stanza => w.incomingStanza stanza
    | .endStream => (w.signalError .documentClosed 0, [])
    | .xmlError => (w.signalError .xml 0, [])

/-- The loop over the `HL_PEEK` handlers. -/
def peek (w : World) (stanza : XmlElement) (i : Nat) : World × List Stmt :=
  match (w.eng.stanza_handlers .peek)[i]? with
  -- the size is read again in each round: a handler may have changed the vector
  | some h => w.callOut (.handleStanza h .peek i stanza) []
  | none => (w, [.dispatch stanza .single 0])

/-- The loops over the other levels. -/
def dispatch (w : World) (stanza : XmlElement) (level : HandlerLevel) (i : Nat) :
    World × List Stmt :=
  match (w.eng.stanza_handlers level)[i]? with
  | some h => w.callOut (.handleStanza h level i stanza) []
  | none =>
    match level.next with
    | some l => (w, [.dispatch stanza l 0])
    | none => (w, [.unhandled stanza])

/-- The end of `XmppEngineImpl::IncomingStanza`. -/
def unhandled (w : World) (stanza : XmlElement) : World × List Stmt :=
  if stanza.name = QN_IQ
      && !(stanza.attr QN_TYPE = str "error" || stanza.attr QN_TYPE = str "result") then
    let r := w.sendStanzaError stanza .featureNotImplemented STR_EMPTY
    (r.1, r.2.1)
  else (w, [])

/-- `XML_Parse`: the next callback, or the end of `XmlParser::Parse`. -/
def parse (w : World) (events : List ExpatEvent) (status : XmlErrorCode) : World × List Stmt :=
  match events with
  | ev :: rest =>
    let r := w.eng.stanza_parser_.expatEvent ev
    (w.set { w.eng with stanza_parser_ := r.1 }, (r.2.map Stmt.incoming).toList ++
      [.parse rest status])
  | [] =>
    let r := w.eng.stanza_parser_.parseReturned status
    (w.set { w.eng with stanza_parser_ := r.1 }, if r.2 then [.incoming .xmlError] else [])

/-! ## The entry of the public functions -/

/-- A setter that is refused once the connection is started. -/
def setter (w : World) (m : Call) (eng : XmppEngineImpl) : World × List Stmt :=
  if w.eng.state ≠ .start then (w, [.returned m .badState]) else (w.set eng, [.returned m .ok])

/-- `XmppEngineImpl::Connect`. -/
def connect (w : World) : World × List Stmt :=
  if w.eng.state ≠ .start then (w, [.returned .connect .badState])
  else
    let saved := w.eng.state
    let w := w.enterExit
    let w := w.set { w.eng with state := .opening }
    match w.eng.login_task with
    | some lt =>
      let r := XmppLoginTask.incomingStanza w lt none false
      (r.1, r.2 ++ [.exitScope saved, .returned .connect .ok])
    | none => (w, [.exitScope saved, .returned .connect .ok])

/-- `XmppEngineImpl::HandleInput`. -/
def handleInput (w : World) (events : List ExpatEvent) (status : XmlErrorCode) :
    World × List Stmt :=
  let m := Call.handleInput events status
  if w.eng.state.rank < EngineState.opening.rank || w.eng.state.rank > EngineState.open.rank then
    (w, [.returned m .badState])
  else
    let saved := w.eng.state
    let w := w.enterExit
    -- a parser that failed takes no more input, and `HandleInput` returns `OK` all the same
    if w.eng.stanza_parser_.sentError then (w, [.exitScope saved, .returned m .ok])
    else
      (w.set { w.eng with stanza_parser_ := { w.eng.stanza_parser_ with expatUsed := true } },
        [.parse events status, .exitScope saved, .returned m .ok])

/-- `XmppEngineImpl::ConnectionClosed`. -/
def connectionClosed (w : World) (subcode : Int) : World × List Stmt :=
  let m := Call.connectionClosed subcode
  if w.eng.state ≠ .closed then
    let saved := w.eng.state
    let w := w.enterExit
    (if subcode ≠ 0 then w.signalError .socket subcode else w.signalError .connectionClosed 0,
      [.exitScope saved, .returned m .ok])
  else (w, [.returned m .ok])

/-- `XmppEngineImpl::SendRaw`. -/
def sendRaw (w : World) (text : Str) : World × List Stmt :=
  let m := Call.sendRaw text
  if w.eng.state = .closed || w.eng.login_task.isSome then (w, [.returned m .badState])
  else
    let saved := w.eng.state
    (w.enterExit.write text, [.exitScope saved, .returned m .ok])

/-- `XmppEngineImpl::Disconnect`. -/
def disconnect (w : World) : World × List Stmt :=
  if w.eng.state ≠ .closed then
    let saved := w.eng.state
    let w := w.enterExit
    -- before the login is done no end tag is sent
    let w := if w.eng.state = .open then w.write (str "</stream:stream>") else w
    (w.set { w.eng with state := .closed }, [.exitScope saved, .returned .disconnect .ok])
  else (w, [.returned .disconnect .ok])

/-- `XmppEngineImpl::AddStanzaHandler`. -/
def addStanzaHandler (w : World) (h : Handler) (level : HandlerLevel) : World × List Stmt :=
  let m := Call.addStanzaHandler h level
  if w.eng.state = .closed then (w, [.returned m .badState])
  else
    (w.set { w.eng with
        stanza_handlers := fun l =>
          if l = level then w.eng.stanza_handlers l ++ [h] else w.eng.stanza_handlers l },
      [.returned m .ok])

/-- Whether the handler is registered at any level. -/
def registered (w : World) (h : Handler) : Bool :=
  [HandlerLevel.none, .peek, .single, .sender, .type, .all].any fun l =>
    h ∈ w.eng.stanza_handlers l

/-- `XmppEngineImpl::RemoveStanzaHandler`: every registration of the handler goes. -/
def removeStanzaHandler (w : World) (h : Handler) : World × List Stmt :=
  let m := Call.removeStanzaHandler h
  (w.set { w.eng with
      stanza_handlers := fun l => (w.eng.stanza_handlers l).filter fun x => x ≠ h },
    [.returned m (if w.registered h then .ok else .badArgument)])

/-- The entry of a public function. -/
def enter (w : World) (m : Call) : World × List Stmt :=
  let w := w.emit (.called m)
  match m with
  | .setOutputHandler h => w.setter m { w.eng with output_handler := h }
  | .setSessionHandler h => w.setter m { w.eng with session_handler := h }
  | .setTls useTls => w.setter m { w.eng with tls_option := useTls }
  | .setTlsServer hostname domain =>
    w.setter m { w.eng with tls_server_hostname := hostname, tls_server_domain := domain }
  | .setUser jid => w.setter m { w.eng with user_jid := jid }
  | .setSaslHandler h => w.setter m { w.eng with sasl_handler := h }
  | .setRequestedResource resource => w.setter m { w.eng with requested_resource := resource }
  | .setLanguage lang => (w.set { w.eng with lang := lang }, [.returned m .ok])
  | .connect => w.connect
  | .handleInput events status => w.handleInput events status
  | .connectionClosed subcode => w.connectionClosed subcode
  | .sendStanza element =>
    let r := w.sendStanza element
    (r.1, r.2.1 ++ [.returned m r.2.2])
  | .sendRaw text => w.sendRaw text
  | .sendIq element iq_handler =>
    let r := w.sendIq element iq_handler
    (r.1, r.2.1 ++ [.returned m r.2.2])
  | .removeIqHandler cookie =>
    let r := w.removeIqHandler cookie
    (r.1, [.returned m r.2])
  | .sendStanzaError original code text =>
    let r := w.sendStanzaError original code text
    (r.1, r.2.1 ++ [.returned m r.2.2])
  | .addStanzaHandler h level => w.addStanzaHandler h level
  | .removeStanzaHandler h => w.removeStanzaHandler h
  | .nextId => (w.nextId.1, [.returned m .ok])
  | .disconnect => w.disconnect

/-! ## The component -/

/-- Executes one statement. Without a login task, what its functions have left to do
would run on a deleted object: a fault. -/
def exec (w : World) : Stmt → Option (World × List Stmt)
  | .callback _ => none
  | .exitScope saved => some (w.exitScope saved)
  | .afterWrite saved closing => some (w.afterWrite saved closing)
  | .afterClose saved => some (w.afterClose saved)
  | .leaveScope saved => some (w.leaveScope saved)
  | .returned m status => some (w.emit (.returned m status), [])
  | .parse events status => some (w.parse events status)
  | .incoming ev => some (w.incoming ev)
  | .advance => w.eng.login_task.bind (XmppLoginTask.advance w)
  | .startedTls => some (w.set { w.eng with encrypted := true }, [])
  | .tlsStarted => w.eng.login_task.map (XmppLoginTask.afterStartTls w)
  | .advanced =>
    w.eng.login_task.map fun lt =>
      (w.setLogin { lt with pelStanza := none, isStart := false }, [])
  | .resetLogin =>
    w.eng.login_task.map fun lt =>
      (if lt.state = .done then w.set { w.eng with login_task := none } else w, [])
  | .peek stanza i => some (w.peek stanza i)
  | .dispatch stanza level i => some (w.dispatch stanza level i)
  | .unhandled stanza => some (w.unhandled stanza)
  | .deleteEntry entry => some (w.emit (.iqFreed entry), [])

/-- What follows when a handler returns: `HandleStanza` decides whether the dispatch
goes on, the other handlers return nothing. -/
def resume : Stmt → Bool → List Stmt
  -- the result of a peek handler is not looked at
  | .callback (.handleStanza _ .peek i stanza), _ => [.peek stanza (i + 1)]
  | .callback (.handleStanza _ level i stanza), handled =>
    if handled then [] else [.dispatch stanza level (i + 1)]
  | _, _ => []

end World

/-- Whether the application is running. -/
def Stmt.foreign : Stmt → Bool
  | .callback _ => true
  | _ => false

/-- The engine as a component that its handlers re-enter. -/
def engine : Reentrant.Component World Stmt Call Bool where
  exec w s := w.exec s
  foreign := Stmt.foreign
  resume w s handled := (w, World.resume s handled)
  enter w m := w.enter m

/-- A configuration of the engine: its world and what is left to do. -/
abbrev Conf := Reentrant.Config World Stmt

/-- A new engine, at rest. -/
def Conf.init : Conf := ⟨World.init, []⟩

/-- The steps of a run. -/
abbrev Step := Reentrant.Act Call Bool

/-- The configurations any application can bring the engine to. -/
def Reachable (c : Conf) : Prop := engine.Reaches Reentrant.anyCall Conf.init c

end Gxmpp
