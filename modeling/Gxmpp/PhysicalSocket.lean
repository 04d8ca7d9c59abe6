/-
`PhysicalSocket` and `SocketDispatcher`, in `talk/base/physicalsocketserver.cc`, on POSIX.

The functions of a socket, with what the operating system and the resolver answer as arguments. An
error of a system call is a blocking one or not (`IsBlockingError`); `error_` is not kept. The
socket is one of the dispatchers of its server exactly while it has a descriptor: `Initialize` adds
it, and `Close` removes it.
-/
import Mathlib.Data.Finset.Basic
import Mathlib.Data.Finset.Insert
import Gxmpp.Reentrant

set_option autoImplicit false

namespace Gxmpp.TalkBase

open Reentrant

/-- `DispatcherEvent`. -/
inductive DispatcherEvent where
  | connect
  | accept
  | read
  | write
  | close
deriving DecidableEq

/-- The order in which `OnEvent` delivers. -/
def DispatcherEvent.order : List DispatcherEvent := [.connect, .accept, .read, .write, .close]

/-- `Socket::ConnState`. -/
inductive ConnState where
  | CS_CLOSED
  | CS_CONNECTING
  | CS_CONNECTED
deriving DecidableEq

/-- What `connect` does. -/
inductive ConnectResult where
  | connected
  /-- a blocking error -/
  | blocking
  | failed
deriving DecidableEq

/-- An `AsyncResolver`. -/
abbrev ResolverId := Nat

structure PhysicalSocket where
  /-- INVALID_SOCKET is `none` -/
  s_ : Option Nat
  enabled_events_ : Finset DispatcherEvent
  state_ : ConnState
  resolver_ : Option ResolverId
  /-- the resolvers that will emit `SignalWorkDone` -/
  resolving : Finset ResolverId
  /-- how many resolvers there were -/
  resolvers : Nat
  /-- `Close` has returned, and neither `Create` nor `Connect` was called since, for stating
  properties -/
  closed : Bool
  /-- `connect` was called when the socket was closed -/
  lateConnect : Bool
  /-- a connect has failed, and the state is not `CS_CLOSED` -/
  refused : Bool
  /-- a signal was emitted when the socket was closed -/
  lateSignal : Bool
deriving DecidableEq

namespace PhysicalSocket

/-- The constructor, of a new socket or of one that was accepted. -/
def init (s : Option Nat) : PhysicalSocket where
  s_ := s
  enabled_events_ := if s = none then ∅ else {.read, .write}
  state_ := if s = none then .CS_CLOSED else .CS_CONNECTED
  resolver_ := none
  resolving := ∅
  resolvers := 0
  closed := false
  lateConnect := false
  refused := false
  lateSignal := false

/-- `SocketDispatcher::Close`, with `PhysicalSocket::Close`. -/
def Close (s : PhysicalSocket) : PhysicalSocket :=
  match s.s_ with
  | none => s
  | some _ => { s with
      s_ := none
      state_ := .CS_CLOSED
      enabled_events_ := ∅
      -- `Destroy(false)` keeps a resolver from emitting `SignalWorkDone`
      resolving := match s.resolver_ with
        | none => s.resolving
        | some r => s.resolving.erase r
      resolver_ := none }

/-- `SocketDispatcher::Create`, with `PhysicalSocket::Create`; `socket` returns `fd`. -/
def Create (s : PhysicalSocket) (udp : Bool) (fd : Option Nat) : PhysicalSocket × Bool :=
  let s := { s.Close with s_ := fd }
  (if udp then { s with enabled_events_ := {.read, .write} } else s, fd.isSome)

/-- `DoConnect`, once there is a descriptor. -/
def connectDescriptor (s : PhysicalSocket) (r : ConnectResult) : PhysicalSocket × Bool :=
  let s := { s with lateConnect := s.lateConnect || s.closed }
  match r with
  | .connected => ({ s with
      state_ := .CS_CONNECTED
      enabled_events_ := s.enabled_events_ ∪ {.read, .write} }, true)
  | .blocking => ({ s with
      state_ := .CS_CONNECTING
      enabled_events_ := s.enabled_events_ ∪ {.connect, .read, .write} }, true)
  | .failed => (s, false)

/-- `DoConnect`. -/
def DoConnect (s : PhysicalSocket) (fd : Option Nat) (r : ConnectResult) : PhysicalSocket × Bool :=
  match s.s_ with
  | some _ => s.connectDescriptor r
  | none =>
    let (s, created) := s.Create false fd
    if created then s.connectDescriptor r else (s, false)

/-- A connect has failed. -/
def fail (s : PhysicalSocket) : PhysicalSocket :=
  { s with refused := s.refused || decide (s.state_ ≠ .CS_CLOSED) }

/-- `Connect`, to an address that is resolved or not. -/
def Connect (s : PhysicalSocket) (resolved : Bool) (fd : Option Nat) (r : ConnectResult) :
    PhysicalSocket × Bool :=
  if s.state_ ≠ .CS_CLOSED then (s, false)
  else if resolved then
    let (s, ok) := s.DoConnect fd r
    (if ok then s else s.fail, ok)
  else ({ s with
    resolver_ := some s.resolvers
    resolving := insert s.resolvers s.resolving
    resolvers := s.resolvers + 1
    state_ := .CS_CONNECTING }, true)

/-- A resolver has completed. -/
def complete (s : PhysicalSocket) (resolver : ResolverId) : PhysicalSocket :=
  { s with resolving := s.resolving.erase resolver }

/-- `OnResolveResult`; false when it goes on to emit `SignalCloseEvent`. -/
def OnResolveResult (s : PhysicalSocket) (resolver : ResolverId) (error : Bool) (fd : Option Nat)
    (r : ConnectResult) : PhysicalSocket × Bool :=
  if s.resolver_ ≠ some resolver then (s, true)
  else if error then (s.Close.fail, false)
  else
    let (s, ok) := s.DoConnect fd r
    (if ok then s else s.fail, ok)

/-- `OnPreEvent`. -/
def OnPreEvent (s : PhysicalSocket) (ff : Finset DispatcherEvent) : PhysicalSocket :=
  let s := if .connect ∈ ff then { s with state_ := .CS_CONNECTED } else s
  if .close ∈ ff then { s with state_ := .CS_CLOSED } else s

/-- `OnEvent` is about to emit the signal of an event. -/
def disable (s : PhysicalSocket) : DispatcherEvent → PhysicalSocket
  | .close => { s with enabled_events_ := ∅ }
  | e => { s with enabled_events_ := s.enabled_events_.erase e }

/-- A signal is emitted. -/
def emit (s : PhysicalSocket) : PhysicalSocket :=
  { s with lateSignal := s.lateSignal || s.closed }

end PhysicalSocket

/-- The events of a dispatch, in the order in which `OnEvent` delivers them. -/
def delivered (ff : Finset DispatcherEvent) : List DispatcherEvent :=
  DispatcherEvent.order.filter fun e => e ∈ ff

/-- The handlers of a signal run; `OnEvent` has the events `rest` to deliver after it. -/
inductive SocketStmt where
  | handlers (rest : List DispatcherEvent)
deriving DecidableEq

/-- The calls of a client, of the resolvers and of the server, with the answers of the operating
system. -/
inductive SocketCall where
  | create (udp : Bool) (fd : Option Nat)
  | connect (resolved : Bool) (fd : Option Nat) (r : ConnectResult)
  | close
  | resolved (resolver : ResolverId) (error : Bool) (fd : Option Nat) (r : ConnectResult)
  | ready (ff : Finset DispatcherEvent)

namespace PhysicalSocket

/-- `OnEvent`, with the events that are left. -/
def OnEvent (s : PhysicalSocket) : List DispatcherEvent → PhysicalSocket × List SocketStmt
  | [] => (s, [])
  | e :: rest => ((s.disable e).emit, [.handlers rest])

def enter (s : PhysicalSocket) : SocketCall → PhysicalSocket × List SocketStmt
  | .create udp fd => ({ (s.Create udp fd).1 with closed := false }, [])
  | .connect resolved fd r => (({ s with closed := false }.Connect resolved fd r).1, [])
  | .close => ({ s.Close with closed := true }, [])
  | .resolved resolver error fd r =>
    let (s, ok) := (s.complete resolver).OnResolveResult resolver error fd r
    if ok then (s, []) else (s.emit, [.handlers []])
  | .ready ff => (s.OnPreEvent ff).OnEvent (delivered ff)

end PhysicalSocket

/-- The socket between its clients and its server. -/
def physicalSocket : Component PhysicalSocket SocketStmt SocketCall Unit where
  exec _ _ := none
  foreign _ := true
  resume s | .handlers rest, () => s.OnEvent rest
  enter := PhysicalSocket.enter

abbrev SocketConf := Config PhysicalSocket SocketStmt

def SocketConf.init (s : Option Nat) : SocketConf := ⟨PhysicalSocket.init s, []⟩

/-- The events that `OnEvent` has to deliver when the handlers return. -/
def SocketConf.undelivered (c : SocketConf) : List DispatcherEvent :=
  match c.control with
  | [] => []
  | .handlers rest :: _ => rest

/-- A resolver completes once, unless it was destroyed, and the server dispatches to its
dispatchers. -/
def SocketRules (c : SocketConf) : SocketCall → Prop
  | .resolved resolver _ _ _ => resolver ∈ c.state.resolving
  | .ready _ => c.state.s_ ≠ none
  | _ => True

end Gxmpp.TalkBase
