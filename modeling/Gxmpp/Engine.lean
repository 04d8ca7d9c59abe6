/-
`talk/xmpp/xmppengine.h`, `xmppengineimpl.h`: the engine's state, what it calls
and what calls it.

`XmppEngineImpl` never waits. Each of its public functions runs to its end, but
on the way it calls handlers of the application (`Callback`), and a handler may
call the engine again (`Call`) before it returns. What is left to do is therefore
part of the model: `Stmt` lists the points at which the code of the engine can be
suspended, or resumed after a suspension, and the module `EngineMachine` executes them on
a control stack.

`World` is the engine together with the history of what happened, `log`, and the
counter that gives each `XmppIqEntry` its identity (its address, in the source).
Nothing in the engine reads the log; it is what properties are stated about.
-/
import Gxmpp.Sasl
import Gxmpp.XmlParser
import Gxmpp.XmlPrinter

set_option autoImplicit false

namespace Gxmpp

/-! ## Enumerations -/

/-- `TlsOptions`. -/
inductive TlsOptions where
  | disabled
  | enabled
  | required
deriving DecidableEq

/-- `XmppEngine::State`. -/
inductive EngineState where
  | none
  | start
  | opening
  | open
  | closed
deriving DecidableEq

/-- The value of the enumeration, which the code compares with `<`. -/
def EngineState.rank : EngineState → Nat
  | .none => 0
  | .start => 1
  | .opening => 2
  | .open => 3
  | .closed => 4

/-- `XmppEngine::Error`. -/
inductive EngineError where
  | none
  | xml
  | stream
  | version
  | unauthorized
  | tls
  | auth
  | bind
  | connectionClosed
  | documentClosed
  | socket
  | networkTimeout
  | missingUsername
deriving DecidableEq

/-- `XmppReturnStatus`. -/
inductive XmppReturnStatus where
  | ok
  | badArgument
  | badState
  | pending
  | unexpected
  | notYetImplemented
deriving DecidableEq

/-- `XmppEngine::HandlerLevel`. -/
inductive HandlerLevel where
  | none
  | peek
  | single
  | sender
  | type
  | all
deriving DecidableEq

/-- `level += 1`, up to `HL_ALL`. -/
def HandlerLevel.next : HandlerLevel → Option HandlerLevel
  | .none => some .peek
  | .peek => some .single
  | .single => some .sender
  | .sender => some .type
  | .type => some .all
  | .all => Option.none

/-- `XmppStanzaError`. -/
inductive XmppStanzaError where
  | badRequest
  | conflict
  | featureNotImplemented
  | forbidden
  | gone
  | internalServerError
  | itemNotFound
  | jidMalformed
  | notAcceptable
  | notAllowed
  | paymentRequired
  | recipientUnavailable
  | redirect
  | registrationRequired
  | serverNotFound
  | serverTimeout
  | resourceConstraint
  | serviceUnavailable
  | subscriptionRequired
  | undefinedCondition
  | unexpectedRequest
deriving DecidableEq

/-- `XmppLoginTask::LoginTaskState`. -/
inductive LoginTaskState where
  | init
  | streamstartSent
  | startedXmpp
  | tlsInit
  | authInit
  | bindInit
  | tlsRequested
  | saslRunning
  | bindRequested
  | sessionRequested
  | done
deriving DecidableEq

/-! ## The objects -/

/-- The identity of a registered handler object. -/
abbrev Handler := Nat

/-- `XmppLoginTask`. `pctx_`, the engine, is the world the functions work on. -/
structure XmppLoginTask where
  authNeeded : Bool
  allowNonGoogleLogin : Bool
  state : LoginTaskState
  pelStanza : Option XmlElement
  isStart : Bool
  iqId : Str
  pelFeatures : Option XmlElement
  fullJid : Jid
  streamId : Str
  pvecQueuedStanzas : List XmlElement
  sasl_mech : Option SaslMechanism

/-- `XmppLoginTask::XmppLoginTask`. -/
def XmppLoginTask.init : XmppLoginTask where
  authNeeded := true
  allowNonGoogleLogin := true
  state := .init
  pelStanza := none
  isStart := false
  iqId := STR_EMPTY
  pelFeatures := none
  fullJid := Jid.ofString STR_EMPTY
  streamId := STR_EMPTY
  pvecQueuedStanzas := []
  sasl_mech := none

/-- `XmppIqEntry`; `cookie` is its identity, the pointer the application holds. -/
structure XmppIqEntry where
  cookie : Nat
  id : Str
  to_ : Str
  iq_handler : Handler
deriving DecidableEq

/-- `XmppEngineImpl`. The two handler pointers are booleans: only whether they are
NULL matters. -/
structure XmppEngineImpl where
  stanza_parser_ : XmppStanzaParser
  engine_entered : Nat
  user_jid : Jid
  requested_resource : Str
  tls_option : TlsOptions
  tls_server_hostname : Str
  tls_server_domain : Str
  login_task : Option XmppLoginTask
  lang : Str
  next_id : Nat
  bound_jid : Jid
  state : EngineState
  encrypted : Bool
  error_code : EngineError
  subcode : Int
  stream_error : Option XmlElement
  raised_reset : Bool
  output_handler : Bool
  session_handler : Bool
  xmlns_stack : XmlnsStack
  stanza_handlers : HandlerLevel → List Handler
  iq_entries : List XmppIqEntry
  sasl_handler : Option SaslHandler
  output : Str

/-- `XmppEngineImpl::XmppEngineImpl`. -/
def XmppEngineImpl.init : XmppEngineImpl where
  stanza_parser_ := .init
  engine_entered := 0
  user_jid := .empty
  requested_resource := STR_EMPTY
  tls_option := .required
  tls_server_hostname := STR_EMPTY
  tls_server_domain := STR_EMPTY
  login_task := some .init
  lang := STR_EMPTY
  next_id := 0
  bound_jid := .empty
  state := .start
  encrypted := false
  error_code := .none
  subcode := 0
  stream_error := none
  raised_reset := false
  output_handler := false
  session_handler := false
  xmlns_stack :=
    (XmlnsStack.empty.addXmlns (str "stream") NS_STREAM).addXmlns STR_EMPTY NS_CLIENT
  stanza_handlers := fun _ => []
  iq_entries := []
  sasl_handler := none
  output := []

/-! ## What the engine calls and what calls it -/

/-- A call of a handler. `handleStanza` carries its place in the dispatch loop. -/
inductive Callback where
  | writeOutput (bytes : Str)
  | startTls (domain : Str)
  | closeConnection
  | onStateChange (state : EngineState)
  | handleStanza (h : Handler) (level : HandlerLevel) (i : Nat) (stanza : XmlElement)
  | iqResponse (entry : XmppIqEntry) (stanza : XmlElement)

/-- A call of the engine. `handleInput` carries what expat makes of the bytes: its
callbacks in order, and the status it returns. -/
inductive Call where
  | setOutputHandler (h : Bool)
  | setSessionHandler (h : Bool)
  | setTls (useTls : TlsOptions)
  | setTlsServer (hostname domain : Str)
  | setUser (jid : Jid)
  | setSaslHandler (h : Option SaslHandler)
  | setRequestedResource (resource : Str)
  | setLanguage (lang : Str)
  | connect
  | handleInput (events : List ExpatEvent) (status : XmlErrorCode)
  | connectionClosed (subcode : Int)
  | sendStanza (element : XmlElement)
  | sendRaw (text : Str)
  | sendIq (element : Option XmlElement) (iq_handler : Option Handler)
  | removeIqHandler (cookie : Nat)
  | sendStanzaError (original : XmlElement) (code : XmppStanzaError) (text : Str)
  | addStanzaHandler (h : Handler) (level : HandlerLevel)
  | removeStanzaHandler (h : Handler)
  | nextId
  | disconnect

/-- What happened, for stating properties. -/
inductive Event where
  /-- a function of the engine is called -/
  | called (m : Call)
  /-- a function of the engine returns -/
  | returned (m : Call) (status : XmppReturnStatus)
  /-- a handler is called -/
  | callback (cb : Callback)
  /-- what the parser reports is let through by the engine -/
  | parsed (ev : StanzaEvent)
  /-- the login task takes the stanza it was given, in this state -/
  | took (s : LoginTaskState) (isStart : Bool) (element : XmlElement)
  /-- `ChooseBestSaslMechanism` -/
  | chose (mechanisms : List Str) (encrypted : Bool) (choice : Str)
  /-- `GetSaslMechanism` -/
  | gotMechanism (name : Str)
  /-- the login task sends a stanza of its own, in this state -/
  | sentByLogin (s : LoginTaskState) (element : XmlElement)
  /-- `SendStanza` accepts a stanza -/
  | accepted (element : XmlElement)
  /-- an accepted stanza is printed -/
  | printed (element : XmlElement)
  /-- `SignalBound` -/
  | signalBound (jid : Jid)
  /-- bytes go to `output_`, in this state of the engine -/
  | wrote (s : EngineState) (bytes : Str)
  /-- `SendIq` makes an entry -/
  | iqCreated (entry : XmppIqEntry)
  /-- an entry is deleted -/
  | iqFreed (entry : XmppIqEntry)

/-- The events of the login task. -/
def Event.byLogin : Event → Bool
  | .took .. | .chose .. | .gotMechanism _ | .sentByLogin .. | .printed _ | .signalBound _
  | .wrote .. | .callback (.startTls _) => true
  | _ => false

/-- The points at which the engine's code goes on. -/
inductive Stmt where
  /-- a handler is running -/
  | callback (cb : Callback)
  /-- `~EnterExit`, for the state saved by the constructor -/
  | exitScope (saved : EngineState)
  /-- in `~EnterExit`, after `WriteOutput` -/
  | afterWrite (saved : EngineState) (closing : Bool)
  /-- in `~EnterExit`, after `CloseConnection` -/
  | afterClose (saved : EngineState)
  /-- in `~EnterExit`, after the flush -/
  | leaveScope (saved : EngineState)
  /-- a public function returns `status` -/
  | returned (m : Call) (status : XmppReturnStatus)
  /-- `XML_Parse` goes on with its callbacks -/
  | parse (events : List ExpatEvent) (status : XmlErrorCode)
  /-- the parser reports to the engine: `IncomingStart`, `IncomingStanza`, `IncomingEnd` -/
  | incoming (ev : StanzaEvent)
  /-- one round of the loop of `XmppLoginTask::Advance` -/
  | advance
  /-- in `XmppEngineImpl::StartTls`, after `output_handler_->StartTls` -/
  | startedTls
  /-- in `Advance`, after `pctx_->StartTls` -/
  | tlsStarted
  /-- in `XmppLoginTask::IncomingStanza`, after `Advance` -/
  | advanced
  /-- `if (login_task_->IsDone()) login_task_.reset()` -/
  | resetLogin
  /-- the loop over the `HL_PEEK` handlers, at index `i` -/
  | peek (stanza : XmlElement) (i : Nat)
  /-- the loops over the other levels, at index `i` of `level` -/
  | dispatch (stanza : XmlElement) (level : HandlerLevel) (i : Nat)
  /-- the reply to an iq nobody handled -/
  | unhandled (stanza : XmlElement)
  /-- in `HandleIqResponse`, after `IqResponse` -/
  | deleteEntry (entry : XmppIqEntry)

/-! ## The world and its elementary changes -/

/-- The engine and its history. -/
structure World where
  eng : XmppEngineImpl
  log : List Event
  nextCookie : Nat

/-- A new engine. -/
def World.init : World := ⟨.init, [], 0⟩

namespace World

/-- Records an event. -/
def emit (w : World) (ev : Event) : World := { w with log := w.log ++ [ev] }

/-- Changes the engine. -/
def set (w : World) (eng : XmppEngineImpl) : World := { w with eng }

@[simp] theorem emit_eng (w : World) (ev : Event) : (w.emit ev).eng = w.eng := rfl
@[simp] theorem emit_log (w : World) (ev : Event) : (w.emit ev).log = w.log ++ [ev] := rfl
@[simp] theorem emit_nextCookie (w : World) (ev : Event) :
    (w.emit ev).nextCookie = w.nextCookie := rfl
@[simp] theorem set_eng (w : World) (e : XmppEngineImpl) : (w.set e).eng = e := rfl
@[simp] theorem set_log (w : World) (e : XmppEngineImpl) : (w.set e).log = w.log := rfl
@[simp] theorem set_nextCookie (w : World) (e : XmppEngineImpl) :
    (w.set e).nextCookie = w.nextCookie := rfl

/-- `*output_ << bytes`. -/
def write (w : World) (bytes : Str) : World :=
  (w.set { w.eng with output := w.eng.output ++ bytes }).emit (.wrote w.eng.state bytes)

/-- `XmppEngineImpl::InternalSendStanza`, which asserts that the stanza has no
`from` and prints it. -/
def internalSendStanza (w : World) (element : XmlElement) : World :=
  let r := XmlPrinter.printXml w.eng.xmlns_stack element
  (w.set { w.eng with xmlns_stack := r.2 }).write r.1

/-- The start of a stream, as `InternalSendStart` prints it. -/
def streamStart (hostname lang : Str) : Str :=
  str "<stream:stream to=\"" ++ hostname ++ str "\" " ++ str "xml:lang=\"" ++ lang ++ str "\" "
    ++ str "version=\"1.0\" " ++ str "xmlns:stream=\"http://etherx.jabber.org/streams\" "
    ++ str "xmlns=\"jabber:client\">\r\n"

/-- `XmppEngineImpl::InternalSendStart`. -/
def internalSendStart (w : World) (to_ : Str) : World :=
  -- a host name that was set replaces the domain of the user
  let hostname := if w.eng.tls_server_hostname.isEmpty then to_ else w.eng.tls_server_hostname
  let lang := if w.eng.lang.isEmpty then str "*" else w.eng.lang
  w.write (streamStart hostname lang)

/-- `XmppEngineImpl::SignalError`. -/
def signalError (w : World) (error_code : EngineError) (sub_code : Int) : World :=
  -- the first error stays: it closes the engine
  if w.eng.state ≠ .closed then
    w.set { w.eng with error_code := error_code, subcode := sub_code, state := .closed }
  else w

/-- `XmppEngineImpl::SignalStreamError`. -/
def signalStreamError (w : World) (stream_error : XmlElement) : World :=
  if w.eng.state ≠ .closed then
    (w.set { w.eng with stream_error := some stream_error }).signalError .stream 0
  else w

/-- `XmppEngineImpl::SignalBound`. -/
def signalBound (w : World) (fullJid : Jid) : World :=
  let w := w.emit (.signalBound fullJid)
  -- a session that comes after the engine was closed opens nothing
  if w.eng.state = .opening then
    w.set { w.eng with bound_jid := fullJid, state := .open }
  else w

/-- `XmppEngineImpl::RaiseReset`. -/
def raiseReset (w : World) : World := w.set { w.eng with raised_reset := true }

/-- `XmppEngineImpl::NextId`. -/
def nextId (w : World) : World × Str :=
  (w.set { w.eng with next_id := w.eng.next_id + 1 }, XmlnsStack.decimal w.eng.next_id)

/-- `XmppEngineImpl::HasError`. -/
def hasError (w : World) : Bool := w.eng.error_code ≠ .none

/-- The login task is changed in place. -/
def setLogin (w : World) (lt : XmppLoginTask) : World :=
  w.set { w.eng with login_task := some lt }

/-- `EnterExit::EnterExit`. The saved state goes into the `exitScope` statement. -/
def enterExit (w : World) : World :=
  w.set { w.eng with engine_entered := w.eng.engine_entered + 1 }

/-- A handler is called, and `rest` is what follows its return. -/
def callOut (w : World) (cb : Callback) (rest : List Stmt) : World × List Stmt :=
  (w.emit (.callback cb), .callback cb :: rest)

end World

end Gxmpp
