/-
`talk/xmpp/xmppclient.cc`, `xmppsocket.cc` and `talk/base/task.cc`: the client, its socket and
its task, as a layer over the engine.

`XmppClient::Private` serves the engine's output handler and its session handler; the stanza
handlers and the iq handlers are left to the application. Where the client calls the
application or the transport below the socket, it can be called back, so what it has left to
do then is a statement (`ClientStmt`), as in the engine.

Both back ends of `XmppSocket` are here: `ssl_stream` says whether the build has
`USE_SSLSTREAM`, and `feature_enable_ssl` whether it has `FEATURE_ENABLE_SSL`. What the
transport, the socket's `Connect` and the `PreXmppAuth` answer is left open. The runner of the
client's task is an event: it steps the task if it is not blocked and no step is in
progress; `WakeTasks` only makes the runner run, which it may do here at any time.

A run begins after a `Connect` that returned `XMPP_RETURN_OK`. The socket is deleted when it
is reset; a function of it that is still in progress then has no behaviour to model, and
neither has the use of a socket that is not there.
-/
import Gxmpp.Layered
import Gxmpp.XmppClient

set_option autoImplicit false

namespace Gxmpp

open Reentrant

/-! ## 1. The state -/

/-- The states of the client's task: those of `Task`, and the two of `XmppClient`. -/
inductive ClientStep where
  | init
  | start
  | preXmppLogin
  | startXmppLogin
  | response
  | done
  | error
deriving DecidableEq

/-- What `Process` returns: `STATE_BLOCKED`, or the next state. -/
inductive ProcessResult where
  | blocked
  | next (state : ClientStep)
deriving DecidableEq

/-- The flags of a `Task`. -/
structure TaskFlags where
  state_ : ClientStep
  blocked_ : Bool
  done_ : Bool
  aborted_ : Bool
  busy_ : Bool
  error_ : Bool

/-- `XmppSocket`, with the bytes it has not written yet. -/
structure BufferedSocket extends XmppSocket where
  buffer_ : Str

/-- What a `PreXmppAuth` says: not done, not authorized (with the error, if it had one), or
authorized, and then it is the SASL handler. -/
inductive PreAuth where
  | running
  | refused (error : Option Int)
  | authorized (handler : SaslHandler)

/-- How far the socket's `Connect` has come. The transport may come up while it runs. -/
inductive ConnectProgress where
  | none
  | running
  | succeeded
deriving DecidableEq

/-- `XmppClient`, its task, its `Private` and its socket. -/
structure ClientSide where
  /-- the flags of the task -/
  task : TaskFlags
  /-- the runner has the task -/
  started : Bool
  delivering_signal_ : Bool
  socket_ : Option BufferedSocket
  pre_auth_ : Option PreAuth
  pass_ : Str
  allow_plain_ : Bool
  pre_engine_error_ : EngineError
  pre_engine_subcode_ : Int
  signal_closed_ : Bool
  /-- the progress of the socket's `Connect`, for the rules of the transport -/
  connect_ : ConnectProgress
  /-- the emissions of `SignalStateChange`, for stating properties -/
  signalled : List EngineState
  /-- a `Disconnect` has returned `XMPP_RETURN_OK`, for stating properties -/
  disconnected : Bool

/-- The parts of `OnEvent`'s mask. -/
structure StreamEvents where
  open_ : Bool
  read : Bool
  write : Bool
  close : Bool
deriving DecidableEq

/-- `talk_base::StreamResult` of a write, with the number of bytes written. -/
inductive StreamWrite where
  | error
  | success (written : Nat)
  | block
  | eos

/-- What `XmppSocket::Read` answers: false, true with no bytes, or true with bytes (of which
expat makes these callbacks). -/
inductive SocketRead where
  | failed
  | empty
  | bytes (events : List ExpatEvent) (status : XmlErrorCode)

/-- The signals of an `XmppSocket`. -/
inductive SocketSignal where
  | connected
  | sslConnected
  | read
  | closed
  | closeEvent (error : Int)

/-- What the transport below an `XmppSocket` reports, in the two back ends. -/
inductive TransportEvent where
  | onReadEvent
  | onWriteEvent
  | onConnectEvent
  | onCloseEvent (error : Int)
  | onEvent (events : StreamEvents) (err : Int)

/-- The points at which the code of the client goes on. -/
inductive ClientStmt where
  /-- the loop of `OnWriteEvent` -/
  | onWriteEvent
  /-- in it, the transport's `Send` -/
  | sending
  /-- `OnEvent`, from its `SE_READ` part on -/
  | onEventRead (events : StreamEvents) (err : Int)
  /-- `OnEvent`, from its `SE_WRITE` part on -/
  | onEventWrite (events : StreamEvents) (err : Int)
  /-- in it, the stream's `Write` -/
  | streamWriting (events : StreamEvents) (err : Int)
  /-- the loop of `OnSocketRead` -/
  | onSocketRead
  /-- in it, the transport's `Recv` or the stream's `Read` -/
  | reading
  /-- `SignalLogInput` -/
  | logInput
  /-- `SignalLogOutput` -/
  | logOutput
  /-- `XmppSocket::Write` -/
  | write (bytes : Str)
  /-- `XmppSocket::StartTls` -/
  | startTls
  /-- in it, the SSL layer's start -/
  | startingTls
  /-- `XmppSocket::Close` -/
  | close
  /-- in it, the transport's `Close` -/
  | closing
  /-- in it, the stream's `Close`; the state is `STATE_CLOSED` already -/
  | closingStream
  /-- a function of the socket goes on after the socket was deleted -/
  | dangling
  /-- `XmppClient::Private::OnStateChange` -/
  | onStateChange (state : EngineState)
  /-- the slots of `SignalStateChange` run -/
  | stateChanged (state : EngineState)
  /-- in `EnsureClosed`, after the emission -/
  | delivered
  /-- `Task::Wake` -/
  | wake
  /-- `StartPreXmppAuth` runs -/
  | startPreXmppAuth
  /-- the socket's `Connect` runs -/
  | connectSocket
  /-- in `Step`, after `Process` -/
  | processed (result : ProcessResult)
  /-- `Task::Stop`: the children of the client are aborted and stopped -/
  | stop
  /-- in `Step`, after `Stop` -/
  | blockAfterStop
  /-- in `Disconnect`, after the engine's: `ResetSocket`, and it returns `XMPP_RETURN_OK` -/
  | resetSocket

/-- What the client's own client, or the transport, answers. -/
structure ClientAnswer where
  /-- of a stanza handler -/
  handled : Bool
  /-- of `Send`, `Close` and the start of TLS -/
  result : Int
  /-- of a stream's `Write` -/
  write : StreamWrite
  /-- of `Read` -/
  read : SocketRead
  /-- of the socket's `Connect` -/
  connected : Bool

/-- What happens outside. -/
inductive ClientInput where
  /-- `Task::Start` -/
  | start
  /-- the runner comes to the task -/
  | runTasks
  /-- `XmppClient::Disconnect` -/
  | disconnect
  /-- `Task::Abort`, called by the parent of the task -/
  | abort
  /-- the `PreXmppAuth` has something to say: `SignalAuthDone` -/
  | authDone (answer : PreAuth)
  /-- the application calls the engine -/
  | engine (m : Call)
  /-- the transport reports -/
  | transport (e : TransportEvent)

/-- What the client has to do next. -/
abbrev ClientCode := Code ClientStmt Call

namespace ClientSide

/-- A client after `Connect`. -/
def connected (settings : XmppClientSettings) (pre_auth : Bool) : ClientSide where
  task := ⟨.init, false, false, false, false, false⟩
  started := false
  delivering_signal_ := false
  socket_ := some ⟨XmppSocket.init settings.use_tls, []⟩
  pre_auth_ := if pre_auth then some .running else none
  pass_ := settings.pass
  allow_plain_ := settings.allow_plain
  pre_engine_error_ := .none
  pre_engine_subcode_ := 0
  signal_closed_ := false
  connect_ := .none
  signalled := []
  disconnected := false

/-- The socket is changed in place. -/
def setSocket (p : ClientSide) (s : BufferedSocket) : ClientSide := { p with socket_ := some s }

/-- The flags of the task are changed. -/
def setTask (p : ClientSide) (t : TaskFlags) : ClientSide := { p with task := t }

/-! ## 2. `XmppSocket` -/

section Socket

variable (feature_enable_ssl ssl_stream : Bool)

/-- The slots that `XmppClient::Connect` connects to the signals of the socket:
`OnSocketConnected`, `OnSocketRead` and `OnSocketClosed`. The error code of a socket is 0. -/
def slots : SocketSignal → ClientCode
  | .connected => [.inr .connect]
  | .sslConnected => []
  | .read => [.inl .onSocketRead]
  | .closed => [.inr (.connectionClosed 0)]
  | .closeEvent _ => []

/-- `XmppSocket::OnConnectEvent`. -/
def onConnectEvent (p : ClientSide) (s : BufferedSocket) : ClientSide × ClientCode :=
  if feature_enable_ssl && s.state_ = .tlsConnecting then
    (p.setSocket { s with state_ := .tlsOpen }, slots .sslConnected ++ [.inl .onWriteEvent])
  else
    ({ p.setSocket { s with state_ := .open } with connect_ := .succeeded }, slots .connected)

/-- The `SE_OPEN` part of `XmppSocket::OnEvent`, and what follows it. -/
def onEvent (p : ClientSide) (s : BufferedSocket) (events : StreamEvents) (err : Int) :
    ClientSide × ClientCode :=
  if events.open_ then
    if feature_enable_ssl && s.state_ = .tlsConnecting then
      (p.setSocket { s with state_ := .tlsOpen },
        slots .sslConnected ++ [.inl (.onEventRead { events with write := true } err)])
    else
      ({ p.setSocket { s with state_ := .open } with connect_ := .succeeded },
        slots .connected ++ [.inl (.onEventRead events err)])
  else (p, [.inl (.onEventRead events err)])

/-- A report of the transport. Each back end has its own. -/
def onTransport (p : ClientSide) (s : BufferedSocket) : TransportEvent → ClientSide × ClientCode
  | .onReadEvent => (p, if ssl_stream then [] else slots .read)
  | .onWriteEvent => (p, if ssl_stream then [] else [.inl .onWriteEvent])
  | .onConnectEvent => if ssl_stream then (p, []) else p.onConnectEvent feature_enable_ssl s
  | .onCloseEvent error => (p, if ssl_stream then [] else slots (.closeEvent error))
  | .onEvent events err =>
    if ssl_stream then p.onEvent feature_enable_ssl s events err else (p, [])

/-- One round of the loop of `OnWriteEvent`. -/
def onWriteEvent (p : ClientSide) : Option (ClientSide × ClientCode) :=
  p.socket_.map fun s => (p, if s.buffer_.length ≠ 0 then [.inl .sending] else [])

/-- In it, after `Send`. -/
def sent (p : ClientSide) (written : Int) : ClientSide × ClientCode :=
  match p.socket_ with
  | none => (p, [.inl .dangling])
  | some s =>
    if written > 0 then
      (p.setSocket { s with buffer_ := s.buffer_.drop written.toNat }, [.inl .onWriteEvent])
    else (p, [])

/-- The `SE_READ` part of `OnEvent`. -/
def onEventRead (p : ClientSide) (events : StreamEvents) (err : Int) :
    Option (ClientSide × ClientCode) :=
  if events.read then
    p.socket_.map fun _ => (p, slots .read ++ [.inl (.onEventWrite events err)])
  else some (p, [.inl (.onEventWrite events err)])

/-- The `SE_WRITE` part of `OnEvent`, one round of its loop, and the `SE_CLOSE` part. -/
def onEventWrite (p : ClientSide) (events : StreamEvents) (err : Int) :
    Option (ClientSide × ClientCode) :=
  if events.write || events.close then
    p.socket_.map fun s =>
      (p, if events.write && s.buffer_.length ≠ 0 then [.inl (.streamWriting events err)]
        else if events.close then slots (.closeEvent err) else [])
  else some (p, [])

/-- In it, after the stream's `Write`: an error and a full stream end `OnEvent`. -/
def streamWritten (p : ClientSide) (events : StreamEvents) (err : Int) :
    StreamWrite → ClientSide × ClientCode
  | .error | .block => (p, [])
  | .eos => (p, [.inl .dangling])
  | .success written =>
    match p.socket_ with
    | none => (p, [.inl .dangling])
    | some s =>
      (p.setSocket { s with buffer_ := s.buffer_.drop written },
        [.inl (.onEventWrite events err)])

/-- `XmppSocket::Write`. -/
def write (p : ClientSide) (bytes : Str) : Option (ClientSide × ClientCode) :=
  p.socket_.map fun s =>
    (p.setSocket { s with buffer_ := s.buffer_ ++ bytes },
      if ssl_stream then [.inl (.onEventWrite ⟨false, false, true, false⟩ 0)]
      else [.inl .onWriteEvent])

/-- `XmppClient::Private::StartTls` and `XmppSocket::StartTls`, up to the SSL layer. -/
def startTls (p : ClientSide) : Option (ClientSide × ClientCode) :=
  if feature_enable_ssl then
    p.socket_.map fun s => (p, if s.tls_ = .disabled then [] else [.inl .startingTls])
  else some (p, [])

/-- In it, after the SSL layer was started. -/
def tlsStarted (p : ClientSide) (result : Int) : ClientSide × ClientCode :=
  match p.socket_ with
  | none => (p, [.inl .dangling])
  | some s => if result ≠ 0 then (p, []) else (p.setSocket { s with state_ := .tlsConnecting }, [])

/-- `XmppSocket::Close`, up to the transport's. -/
def close (p : ClientSide) : Option (ClientSide × ClientCode) :=
  p.socket_.map fun s =>
    if s.state_ ≠ .open then (p, [])
    else if ssl_stream then
      (p.setSocket { s with state_ := .closed }, [.inl .closingStream])
    else (p, [.inl .closing])

/-- In it, after the transport's `Close`. -/
def closed (p : ClientSide) (result : Int) : ClientSide × ClientCode :=
  match p.socket_ with
  | none => (p, [.inl .dangling])
  | some s =>
    if result = 0 then (p.setSocket { s with state_ := .closed }, slots .closed) else (p, [])

/-- In it, after the stream's `Close`. -/
def streamClosed (p : ClientSide) : ClientSide × ClientCode :=
  match p.socket_ with
  | none => (p, [.inl .dangling])
  | some _ => (p, slots .closed)

/-- One round of `OnSocketRead`. -/
def onSocketRead (p : ClientSide) : ClientSide × ClientCode :=
  match p.socket_ with
  | none => (p, [])
  | some _ => (p, [.inl .reading])

/-- In it, after `Read`. -/
def socketRead (p : ClientSide) : SocketRead → ClientSide × ClientCode
  | .failed | .empty => (p, [])
  | .bytes events status =>
    (p, [.inl .logInput, .inr (.handleInput events status), .inl .onSocketRead])

end Socket

/-! ## 3. The client's signal and its task -/

/-- `XmppClient::EnsureClosed`. -/
def ensureClosed (p : ClientSide) : ClientSide × ClientCode :=
  if p.signal_closed_ then (p, [])
  else
    ({ p with
        signal_closed_ := true
        delivering_signal_ := true
        signalled := p.signalled ++ [.closed] },
      [.inl (.stateChanged .closed), .inl .delivered])

/-- `XmppClient::Private::OnStateChange`. -/
def onStateChange (p : ClientSide) (state : EngineState) : ClientSide × ClientCode :=
  if state = .closed then (p.ensureClosed.1, p.ensureClosed.2 ++ [.inl .wake])
  else
    ({ p with signalled := p.signalled ++ [state] }, [.inl (.stateChanged state), .inl .wake])

/-- `Task::Wake`. -/
def wake (p : ClientSide) : ClientSide :=
  if p.task.done_ then p else p.setTask { p.task with blocked_ := false }

/-- `XmppClient::ProcessStart`. -/
def processStart (user : Jid) (p : ClientSide) : ClientSide × ClientCode :=
  if p.socket_.isNone then (p, [.inl (.processed (.next .done))])
  else
    match p.pre_auth_ with
    | some _ =>
      ({ p with pass_ := STR_EMPTY },
        [.inl .startPreXmppAuth, .inl (.processed (.next .preXmppLogin))])
    | none =>
      ({ p with pass_ := STR_EMPTY },
        [.inr (.setSaslHandler (some (plainSaslHandler user p.pass_ p.allow_plain_))),
          .inl (.processed (.next .startXmppLogin))])

/-- The end of a step of the login that failed. -/
def failed (p : ClientSide) : ClientSide × ClientCode :=
  (p.ensureClosed.1, p.ensureClosed.2 ++ [.inl (.processed (.next .error))])

/-- `XmppClient::ProcessTokenLogin`. -/
def processTokenLogin (p : ClientSide) : ClientSide × ClientCode :=
  if p.socket_.isNone then (p, [.inl (.processed (.next .done))])
  else
    match p.pre_auth_ with
    | none => failed { p with pre_engine_error_ := .auth }
    | some .running => (p, [.inl (.processed .blocked)])
    | some (.refused (some error)) =>
      failed
        { p with pre_engine_error_ := .auth, pre_engine_subcode_ := error, pre_auth_ := none }
    | some (.refused none) =>
      failed
        { p with
          pre_engine_error_ := .unauthorized
          pre_engine_subcode_ := 0
          pre_auth_ := none }
    | some (.authorized handler) =>
      ({ p with pre_auth_ := none },
        [.inr (.setSaslHandler (some handler)), .inl (.processed (.next .startXmppLogin))])

/-- `XmppClient::ProcessStartXmppLogin`, up to the socket's `Connect`. -/
def processStartXmppLogin (p : ClientSide) : ClientSide × ClientCode :=
  if p.socket_.isNone then (p, [.inl (.processed (.next .done))])
  else ({ p with connect_ := .running }, [.inl .connectSocket])

/-- In it, after `Connect`. A `Connect` during which the transport came up returns true. -/
def socketConnected (p : ClientSide) (result : Bool) : ClientSide × ClientCode :=
  if result || p.connect_ = .succeeded then
    ({ p with connect_ := .succeeded }, [.inl (.processed (.next .response))])
  else failed { p with connect_ := .none }

/-- `XmppClient::ProcessResponse`. -/
def processResponse (engine_state : EngineState) (p : ClientSide) : ClientSide × ClientCode :=
  if !p.delivering_signal_ && engine_state = .closed then (p, [.inl (.processed (.next .done))])
  else (p, [.inl (.processed .blocked)])

/-- `XmppClient::Process`. -/
def process (w : World) (p : ClientSide) : ClientSide × ClientCode :=
  match p.task.state_ with
  | .init => (p, [.inl (.processed (.next .start))])
  | .start => processStart w.eng.user_jid p
  | .preXmppLogin => processTokenLogin p
  | .startXmppLogin => processStartXmppLogin p
  | .response => processResponse w.eng.state p
  | .done | .error => (p, [.inl (.processed .blocked)])

/-- `Task::Step`, up to the end of `Process`. -/
def step (w : World) (p : ClientSide) : ClientSide × ClientCode :=
  if p.task.done_ then (p.setTask { p.task with blocked_ := true }, [])
  else if p.task.error_ then
    (p.setTask { p.task with done_ := true, state_ := .error, blocked_ := true }, [.inl .stop])
  else (p.setTask { p.task with busy_ := true }).process w

/-- `Task::Abort`, up to `Stop`. -/
def abort (p : ClientSide) : ClientSide × ClientCode :=
  if p.task.done_ then (p, [])
  else if p.task.busy_ then (p.setTask { p.task with aborted_ := true }, [])
  else
    (p.setTask { p.task with aborted_ := true, done_ := true, blocked_ := true, error_ := true },
      [.inl .stop])

/-- In `Step`, after `Process`. -/
def processed (p : ClientSide) (result : ProcessResult) : ClientSide × ClientCode :=
  let p := p.setTask { p.task with busy_ := false }
  if p.task.aborted_ then p.abort
  else
    match result with
    | .blocked => (p.setTask { p.task with blocked_ := true }, [])
    | .next .done =>
      (p.setTask { p.task with state_ := .done, blocked_ := false, done_ := true },
        [.inl .stop, .inl .blockAfterStop])
    | .next .error =>
      (p.setTask
          { p.task with state_ := .error, blocked_ := false, done_ := true, error_ := true },
        [.inl .stop, .inl .blockAfterStop])
    | .next state => (p.setTask { p.task with state_ := state, blocked_ := false }, [])

/-- `XmppClient::Disconnect`. -/
def disconnect (p : ClientSide) : ClientSide × ClientCode :=
  if p.socket_.isNone then (p, [])
  else (p.abort.1, p.abort.2 ++ [.inr .disconnect, .inl .resetSocket])

/-! ## 4. The layer -/

/-- The handlers of the engine that the client serves. -/
def serves : Stmt → Option ClientCode
  | .callback (.writeOutput bytes) => some [.inl .logOutput, .inl (.write bytes)]
  | .callback (.startTls _) => some [.inl .startTls]
  | .callback .closeConnection => some [.inl .close]
  | .callback (.onStateChange state) => some [.inl (.onStateChange state)]
  | _ => none

section Layer

variable (feature_enable_ssl ssl_stream : Bool)

/-- Executes a statement of the client. -/
def exec (p : ClientSide) : ClientStmt → Option (ClientSide × ClientCode)
  | .onWriteEvent => p.onWriteEvent
  | .onEventRead events err => p.onEventRead events err
  | .onEventWrite events err => p.onEventWrite events err
  | .onSocketRead => some p.onSocketRead
  | .write bytes => p.write ssl_stream bytes
  | .startTls => p.startTls feature_enable_ssl
  | .close => p.close ssl_stream
  | .onStateChange state => some (p.onStateChange state)
  | .delivered => some ({ p with delivering_signal_ := false }, [])
  | .wake => some (p.wake, [])
  | .processed result => some (p.processed result)
  | .blockAfterStop => some (p.setTask { p.task with blocked_ := true }, [])
  | .resetSocket => some ({ p with socket_ := none, disconnected := true }, [])
  | .sending | .streamWriting _ _ | .reading | .logInput | .logOutput | .startingTls | .closing
  | .closingStream | .stateChanged _ | .startPreXmppAuth | .connectSocket | .stop
  | .dangling => none

/-- The statements at which the application or the transport runs. -/
def foreign : ClientStmt → Bool
  | .sending | .streamWriting _ _ | .reading | .logInput | .logOutput | .startingTls | .closing
  | .closingStream | .stateChanged _ | .startPreXmppAuth | .connectSocket | .stop => true
  | _ => false

/-- What the client does with the answer. -/
def resume (p : ClientSide) (s : ClientStmt) (v : ClientAnswer) : ClientSide × ClientCode :=
  match s with
  | .sending => p.sent v.result
  | .streamWriting events err => p.streamWritten events err v.write
  | .reading => p.socketRead v.read
  | .startingTls => p.tlsStarted v.result
  | .closing => p.closed v.result
  | .closingStream => p.streamClosed
  | .connectSocket => p.socketConnected v.connected
  | _ => (p, [])

/-- What happens outside. -/
def enter (w : World) (p : ClientSide) : ClientInput → ClientSide × ClientCode
  | .start => ({ p with started := p.started || p.task.state_ = .init }, [])
  | .runTasks =>
    if p.started && !p.task.blocked_ && !p.task.busy_ then p.step w else (p, [])
  | .disconnect => p.disconnect
  | .abort => p.abort
  | .authDone answer =>
    match p.pre_auth_ with
    | some _ => ({ p with pre_auth_ := some answer }, [.inl .wake])
    | none => (p, [])
  | .engine m => (p, [.inr m])
  | .transport e =>
    match p.socket_ with
    | some s => p.onTransport feature_enable_ssl ssl_stream s e
    | none => (p, [])

end Layer

end ClientSide

/-- The client over the engine. -/
def clientLayer (feature_enable_ssl ssl_stream : Bool) :
    Layer World ClientSide Stmt Call Bool ClientStmt ClientInput ClientAnswer where
  serves := ClientSide.serves
  served := true
  answer v := v.handled
  exec _ p s := p.exec feature_enable_ssl ssl_stream s
  foreign := ClientSide.foreign
  resume _ p s v := p.resume s v
  enter w p e := p.enter feature_enable_ssl ssl_stream w e

/-- The client, its socket and its engine. -/
def xmppClient (feature_enable_ssl ssl_stream : Bool) :
    Component (World × ClientSide) (Frame Stmt ClientStmt Call) ClientInput ClientAnswer :=
  engine.over (clientLayer feature_enable_ssl ssl_stream)

/-- A configuration of the whole. -/
abbrev JointConf := Config (World × ClientSide) (Frame Stmt ClientStmt Call)

/-- The engine after the calls that `XmppClient::Connect` makes of it. -/
def connectedEngine (settings : XmppClientSettings) (lang : Str) : World :=
  (XmppClient.connectCalls settings lang).foldl
    (fun w m => (engine.settle 1 ⟨(w.enter m).1, (w.enter m).2⟩).state) World.init

/-- A client after `Connect`. -/
def JointConf.connected (settings : XmppClientSettings) (lang : Str) (pre_auth : Bool) :
    JointConf :=
  ⟨(connectedEngine settings lang, ClientSide.connected settings pre_auth), []⟩

/-! ## 5. The engine after `Connect` -/

/-- The calls of `XmppClient::Connect` return at once. -/
theorem connectCalls_return {settings : XmppClientSettings} {lang : Str} {m : Call}
    (h : m ∈ XmppClient.connectCalls settings lang) (w : World) :
    ∃ status, (w.enter m).2 = [.returned m status] := by
  have hsetter : ∀ eng, ∃ status,
      ((w.emit (.called m)).setter m eng).2 = [Stmt.returned m status] := by
    intro eng
    unfold World.setter
    split_ifs <;> exact ⟨_, rfl⟩
  unfold XmppClient.connectCalls at h
  simp only [List.mem_append, List.mem_cons, List.not_mem_nil, or_false] at h
  rcases h with ((((rfl | rfl) | hresource) | rfl) | hserver) | rfl | rfl
  · exact hsetter _
  · exact hsetter _
  · split_ifs at hresource
    · cases hresource
    · obtain rfl := List.mem_singleton.1 hresource
      exact hsetter _
  · exact hsetter _
  · split_ifs at hserver
    · obtain rfl := List.mem_singleton.1 hserver
      exact hsetter _
    · cases hserver
  · exact ⟨_, rfl⟩
  · exact hsetter _

/-- A list of calls that return at once, made of an engine at rest. -/
theorem settled_reaches {calls : List Call} (w : World)
    (h : ∀ m ∈ calls, ∀ w : World, ∃ status, (w.enter m).2 = [.returned m status]) :
    engine.Reaches anyCall ⟨w, []⟩
      ⟨calls.foldl (fun w m => (engine.settle 1 ⟨(w.enter m).1, (w.enter m).2⟩).state) w, []⟩ := by
  induction calls generalizing w with
  | nil => exact Relation.ReflTransGen.refl
  | cons m calls ih =>
    obtain ⟨status, hpush⟩ := h m List.mem_cons_self w
    have hcall : engine.Reaches anyCall ⟨w, []⟩ ⟨(w.enter m).1, (w.enter m).2⟩ := by
      refine Relation.ReflTransGen.single ⟨.call m, fun _ _ => trivial, ?_⟩
      show some (Config.mk (w.enter m).1 ((w.enter m).2 ++ [])) = _
      rw [List.append_nil]
    have hsettled : engine.settle 1 ⟨(w.enter m).1, (w.enter m).2⟩
        = ⟨(w.enter m).1.emit (.returned m status), []⟩ := by
      rw [hpush]
      rfl
    rw [List.foldl_cons, hsettled]
    have hret := reaches_settle (P := engine) (G := anyCall) 1 ⟨(w.enter m).1, (w.enter m).2⟩
    rw [hsettled] at hret
    exact (hcall.trans hret).trans (ih _ fun m' hm' => h m' (List.mem_cons_of_mem _ hm'))

/-- The engine after `XmppClient::Connect` is one that an application can reach. -/
theorem connected_reachable (settings : XmppClientSettings) (lang : Str) :
    engine.Reaches anyCall Conf.init ⟨connectedEngine settings lang, []⟩ :=
  settled_reaches World.init fun _ hm w => connectCalls_return hm w

end Gxmpp
