/-
`talk/xmpp/xmppclient.cc` and `xmppsocket.cc`: the client over the engine.

`XmppClient::Private` is the engine's output handler. It passes what the engine asks
for on to an `XmppSocket`, and it installs the SASL handler. `client` makes of the
engine, the client and its socket one component: `Device` says what the socket does
when one of the engine's calls to its output handler returns, and which function of the
engine is called when something happens outside.

The build configuration is a parameter, `feature_enable_ssl`; so is what the SSL layer
answers, `startSSL`, to each start in turn.
-/
import Gxmpp.EngineMachine

set_option autoImplicit false

namespace Gxmpp

open Reentrant

/-! ## `XmppSocket` -/

/-- `AsyncSocket::State`. -/
inductive AsyncSocketState where
  | closed
  | closing
  | connecting
  | open
  | tlsConnecting
  | tlsOpen
deriving DecidableEq

/-- `XmppSocket`. -/
structure XmppSocket where
  state_ : AsyncSocketState
  tls_ : TlsOptions

namespace XmppSocket

/-- `XmppSocket::XmppSocket`. -/
def init (tls : TlsOptions) : XmppSocket := ⟨.closed, tls⟩

/-- `XmppSocket::OnConnectEvent`, and whether it signals `SignalConnected`. The state is
`STATE_TLS_CONNECTING` only in a build with SSL. -/
def onConnectEvent (s : XmppSocket) : XmppSocket × Bool :=
  if s.state_ = .tlsConnecting then ({ s with state_ := .tlsOpen }, false)
  else ({ s with state_ := .open }, true)

/-- `XmppSocket::Close`, for the answer of the socket below. -/
def close (s : XmppSocket) (result : Int) : XmppSocket :=
  if s.state_ ≠ .open then s else if result = 0 then { s with state_ := .closed } else s

/-- `XmppSocket::StartTls`, for the answer of the SSL layer. -/
def startTls (feature_enable_ssl : Bool) (s : XmppSocket) (startSSL : Int) : XmppSocket × Bool :=
  if feature_enable_ssl then
    if s.tls_ = .disabled then (s, false)
    else if startSSL ≠ 0 then (s, false)
    else ({ s with state_ := .tlsConnecting }, true)
  else (s, false)

end XmppSocket

/-! ## `XmppClient` -/

/-- `XmppClientSettings`: what `XmppClient` reads of them. -/
structure XmppClientSettings where
  user : Str
  host : Str
  pass : Str
  auth_mechanism : Str
  auth_token : Str
  resource : Str
  use_tls : TlsOptions
  allow_plain : Bool
  test_server_domain : Str
  server : Str

/-- The states of the client's task. -/
inductive ClientTaskState where
  | start
  | preXmppLogin
  | startXmppLogin
  | response
  | done
  | error
deriving DecidableEq

/-- `XmppClient` with its `Private`, and the answers of the socket's `StartTls`, for
stating properties. -/
structure ClientPrivate where
  state_ : ClientTaskState
  socket_ : XmppSocket
  pre_auth_ : Option XmppAuth
  pass_ : Str
  auth_mechanism_ : Str
  auth_token_ : Str
  allow_plain_ : Bool
  startTlsReturned : List Bool

namespace XmppClient

/-- `IsTestServer`. -/
def isTestServer (server_name test_server_domain : Str) : Bool :=
  !test_server_domain.isEmpty && test_server_domain.isSuffixOf server_name

/-- What `XmppClient::Connect` stores. -/
def connect (settings : XmppClientSettings) (socket : XmppSocket) (pre_auth : Option XmppAuth) :
    ClientPrivate where
  state_ := .start
  socket_ := socket
  pre_auth_ := pre_auth
  pass_ := settings.pass
  auth_mechanism_ := settings.auth_mechanism
  auth_token_ := settings.auth_token
  allow_plain_ := settings.allow_plain
  startTlsReturned := []

/-- The functions of the engine that `XmppClient::Connect` calls. -/
def connectCalls (settings : XmppClientSettings) (lang : Str) : List Call :=
  [.setSessionHandler true, .setOutputHandler true]
    ++ (if settings.resource.isEmpty then [] else [.setRequestedResource settings.resource])
    ++ [.setTls settings.use_tls]
    ++ (if (settings.server ∈ [STR_TALK_GOOGLE_COM, STR_TALKX_L_GOOGLE_COM, STR_XMPP_GOOGLE_COM,
            STR_XMPPX_L_GOOGLE_COM] || isTestServer settings.server settings.test_server_domain)
          && settings.host ≠ STR_GMAIL_COM && settings.host ≠ STR_GOOGLEMAIL_COM
        then [.setTlsServer STR_EMPTY STR_TALK_GOOGLE_COM] else [])
    ++ [.setLanguage lang, .setUser (Jid.ofParts settings.user settings.host STR_EMPTY)]

/-- `XmppClient::ProcessStart`: the function of the engine it calls, if any. -/
def processStart (user : Jid) (p : ClientPrivate) : ClientPrivate × Option Call :=
  match p.pre_auth_ with
  | some pre_auth =>
    ({ p with
        state_ := .preXmppLogin
        pre_auth_ :=
          some (pre_auth.startPreXmppAuth user p.pass_ p.auth_mechanism_ p.auth_token_)
        pass_ := STR_EMPTY }, none)
  | none =>
    ({ p with state_ := .startXmppLogin, pass_ := STR_EMPTY },
      some (.setSaslHandler (some (plainSaslHandler user p.pass_ p.allow_plain_))))

/-- `XmppClient::ProcessTokenLogin`. An `XmppAuth` is authorized as soon as it is done. -/
def processTokenLogin (p : ClientPrivate) : ClientPrivate × Option Call :=
  match p.pre_auth_ with
  | none => ({ p with state_ := .error }, none)
  | some pre_auth =>
    if !pre_auth.done then (p, none)
    else
      ({ p with
          state_ := .startXmppLogin
          pre_auth_ := none
          auth_mechanism_ := pre_auth.auth_mechanism
          auth_token_ := pre_auth.auth_token },
        some (.setSaslHandler (some pre_auth.handler)))

/-- `XmppClient::Process`, for the engine's state and whether the socket can connect. -/
def process (user : Jid) (engineState : EngineState) (connected : Bool) (p : ClientPrivate) :
    ClientPrivate × Option Call :=
  match p.state_ with
  | .start => processStart user p
  | .preXmppLogin => processTokenLogin p
  | .startXmppLogin => ({ p with state_ := if connected then .response else .error }, none)
  | .response => ({ p with state_ := if engineState = .closed then .done else .response }, none)
  | .done | .error => (p, none)

/-- `XmppClient::Private::StartTls`. -/
def startTls (feature_enable_ssl : Bool) (startSSL : Nat → Int) (p : ClientPrivate) :
    ClientPrivate :=
  if feature_enable_ssl then
    let r := p.socket_.startTls feature_enable_ssl (startSSL p.startTlsReturned.length)
    { p with socket_ := r.1, startTlsReturned := p.startTlsReturned ++ [r.2] }
  else p

/-- `XmppClient::Private::CloseConnection`. -/
def closeConnection (p : ClientPrivate) (result : Int) : ClientPrivate :=
  { p with socket_ := p.socket_.close result }

end XmppClient

/-! ## The engine, the client and the socket -/

/-- What happens outside: a function of the engine is called (by the application, or by
a slot of the client: `OnSocketRead` calls `HandleInput`, `OnSocketClosed` calls
`ConnectionClosed`), the socket is connected, or the client's task runs. -/
inductive ClientEvent where
  | engine (m : Call)
  | onConnectEvent
  | process (connected : Bool)

/-- What a handler returns: the answer of a stanza handler, and that of the layer below
the socket. -/
structure Answer where
  handled : Bool
  closed : Int

/-- `XmppClient::Private` and its `XmppSocket`, under the engine. The socket acts when
the call of the output handler returns; what is called in between is an event. -/
def clientDevice (feature_enable_ssl : Bool) (startSSL : Nat → Int) :
    Device World ClientPrivate Stmt Call Bool ClientEvent Answer where
  enter w p
    | .engine m => (p, some m)
    | .onConnectEvent =>
      let r := p.socket_.onConnectEvent
      ({ p with socket_ := r.1 }, if r.2 then some .connect else none)
    | .process connected => XmppClient.process w.eng.user_jid w.eng.state connected p
  resume p s v :=
    match s with
    | .callback (.startTls _) => (XmppClient.startTls feature_enable_ssl startSSL p, v.handled)
    | .callback .closeConnection => (XmppClient.closeConnection p v.closed, v.handled)
    | _ => (p, v.handled)

/-- The engine with the client as its output handler. -/
def client (feature_enable_ssl : Bool) (startSSL : Nat → Int) :
    Component (World × ClientPrivate) Stmt ClientEvent Answer :=
  engine.attach (clientDevice feature_enable_ssl startSSL)

/-- A configuration of the whole. -/
abbrev ClientConf := Config (World × ClientPrivate) Stmt

/-- A new engine under a client. -/
def ClientConf.init (p : ClientPrivate) : ClientConf := ⟨(World.init, p), []⟩

end Gxmpp
