/-
`XmppSocket` without SSL, in `talk/xmpp/xmppsocket.cc`, over a `SocketDispatcher`, with the loop in
which `XmppClient` reads from it.

The operating system answers `send` and `recv`, and the handlers run: both are calls to the
environment. `OnSocketRead` is the only handler of `SignalRead`; what else the handlers do is to
call `Write` and `Close`, and the server dispatches events. The client keeps its `socket_`.
-/
import Gxmpp.PhysicalSocket
import Gxmpp.XmppClient

set_option autoImplicit false

namespace Gxmpp.TalkBase

open Reentrant

/-- What `send` and `recv` return. -/
inductive OsResult where
  | count (n : Nat)
  /-- -1, with a blocking error -/
  | blocking
  | failed
deriving DecidableEq

namespace PhysicalSocket

def enable (s : PhysicalSocket) (e : DispatcherEvent) : PhysicalSocket :=
  { s with enabled_events_ := insert e s.enabled_events_ }

/-- `Send`, to the answer of the operating system. -/
def Send (s : PhysicalSocket) : OsResult → PhysicalSocket
  | .count _ | .failed => s
  | .blocking => s.enable .write

/-- `Recv` of some bytes; the end of file is taken for a blocking error. -/
def Recv (s : PhysicalSocket) : OsResult → PhysicalSocket × Option Nat
  | .count 0 => (s.enable .read, none)
  | .count n => (s.enable .read, some n)
  | .blocking => (s.enable .read, none)
  | .failed => (s, none)

end PhysicalSocket

/-- `XmppSocket` over its `cricket_socket_`. -/
structure PlainSocket extends XmppSocket where
  cricket_socket_ : PhysicalSocket
  buffer_ : List UInt8
  /-- the cricket socket has been in `CS_CLOSED`, for stating properties -/
  left : Bool

inductive PlainStmt where
  /-- `OnEvent` delivers an event -/
  | event (e : DispatcherEvent)
  /-- `OnSocketRead` reads -/
  | recv
  /-- `OnWriteEvent` writes what is in the buffer -/
  | send
  /-- handlers run -/
  | handlers
deriving DecidableEq

inductive PlainCall where
  | write (data : List UInt8)
  /-- `Close`; `closesocket` returns `result` -/
  | close (result : Int)
  | ready (ff : Finset DispatcherEvent)

namespace PlainSocket

/-- The cricket socket changes. -/
def put (s : PlainSocket) (cricket_socket : PhysicalSocket) : PlainSocket :=
  { s with
    cricket_socket_ := cricket_socket
    left := s.left || decide (cricket_socket.state_ = .CS_CLOSED) }

/-- `OnWriteEvent`, at the head of its loop. -/
def OnWriteEvent (s : PlainSocket) : PlainSocket × List PlainStmt :=
  (s, if s.buffer_ = [] then [] else [.send])

/-- `SocketDispatcher::OnEvent`, for one event, with the handlers of its signal. -/
def OnEvent (s : PlainSocket) (e : DispatcherEvent) : PlainSocket × List PlainStmt :=
  let s := s.put (s.cricket_socket_.disable e)
  match e with
  | .connect => ({ s with state_ := .open }, [.handlers])
  | .accept | .read => (s, [.recv])
  | .write => s.OnWriteEvent
  | .close => (s, [.handlers])

def exec (s : PlainSocket) : PlainStmt → Option (PlainSocket × List PlainStmt)
  | .event e => some (s.OnEvent e)
  | .recv | .send | .handlers => none

def foreign : PlainStmt → Bool
  | .event _ => false
  | .recv | .send | .handlers => true

/-- `XmppSocket::Read` in the loop of `OnSocketRead`: what was read goes to `HandleInput`. -/
def OnSocketRead (s : PlainSocket) (received : OsResult) : PlainSocket × List PlainStmt :=
  let (cricket_socket, read) := s.cricket_socket_.Recv received
  (s.put cricket_socket, if read.isSome then [.handlers, .recv] else [])

/-- The loop of `OnWriteEvent`, to its head or to its end. -/
def written (s : PlainSocket) (sent : OsResult) : PlainSocket × List PlainStmt :=
  let s := s.put (s.cricket_socket_.Send sent)
  match sent with
  | .count n => if n = 0 then (s, []) else { s with buffer_ := s.buffer_.drop n }.OnWriteEvent
  | .blocking | .failed => (s, [])

def resume (s : PlainSocket) : PlainStmt → OsResult → PlainSocket × List PlainStmt
  | .recv, received => s.OnSocketRead received
  | .send, sent => s.written sent
  | .handlers, _ | .event _, _ => (s, [])

def enter (s : PlainSocket) : PlainCall → PlainSocket × List PlainStmt
  | .write data => { s with buffer_ := s.buffer_ ++ data }.OnWriteEvent
  | .close result =>
    if s.state_ ≠ .open then (s, [])
    else ({ s.put s.cricket_socket_.Close with toXmppSocket := s.toXmppSocket.close result },
      if result = 0 then [.handlers] else [])
  | .ready ff => (s.put (s.cricket_socket_.OnPreEvent ff), (delivered ff).map .event)

end PlainSocket

def plainSocket : Component PlainSocket PlainStmt PlainCall OsResult where
  exec := PlainSocket.exec
  foreign := PlainSocket.foreign
  resume := PlainSocket.resume
  enter := PlainSocket.enter

abbrev PlainConf := Config PlainSocket PlainStmt

/-- What the operating system may answer: a positive count, up to the length; for `recv` the end of
file too; or a blocking error. Without a descriptor it fails. -/
def OsAnswers (s : PlainSocket) : PlainStmt → OsResult → Prop
  | .recv, r =>
    if s.cricket_socket_.s_ = none then r = .failed
    else match r with
      | .count n => n ≤ 4096
      | .blocking => True
      | .failed => False
  | .send, r =>
    if s.cricket_socket_.s_ = none then r = .failed
    else match r with
      | .count n => 0 < n ∧ n ≤ s.buffer_.length
      | .blocking => True
      | .failed => False
  | .handlers, _ | .event _, _ => True

/-- What the environment does: the operating system answers, handlers call and return, and the
server dispatches to a socket that has a descriptor. -/
def PlainRules (c : PlainConf) : Act PlainCall OsResult → Prop
  | .tick => True
  | .call m => (c.control = [] ∨ c.control.head? = some .handlers) ∧
      ∀ ff, m = .ready ff → c.state.cricket_socket_.s_ ≠ none
  | .ret r => ∀ x, c.control.head? = some x → OsAnswers c.state x r

end Gxmpp.TalkBase
