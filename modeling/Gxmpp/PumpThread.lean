/-
`gxmpp/pumpthread.cc`: a thread that logs in and out, over a runner of clients.

`DoLogin` makes an `XmppClient` and keeps a pointer to it, `client_`. The client is a task and
belongs to the runner, which deletes it when it is done; nothing resets the pointer. So each use
of `client_` goes wrong (`none`) where it was never assigned or the client was deleted.

What a client does while it lives is in `XmppClient` here as far as it signals and ends: its
`Process`, `EnsureClosed` and `Disconnect`. When its engine changes its state is left open, and so
is what the authentication and the socket say.
-/
import Gxmpp.Faulting
import Gxmpp.XmppClient

set_option autoImplicit false

namespace Gxmpp

/-! ## 1. The clients -/

/-- `XmppClient`, with the flags of its task, as the thread and the runner see it. -/
structure PumpClient where
  state_ : ClientTaskState
  blocked_ : Bool
  done_ : Bool
  /-- the runner has deleted it -/
  deleted : Bool
  /-- it has a socket -/
  socket_ : Bool
  /-- the state of its engine -/
  engine_state : EngineState
  /-- what `GetError` says -/
  error : EngineError
  signal_closed_ : Bool
  /-- `PumpThread::OnStateChange` is connected to `SignalStateChange` -/
  connected : Bool

/-- A new client. -/
def PumpClient.new : PumpClient where
  state_ := .start
  blocked_ := false
  done_ := false
  deleted := false
  socket_ := false
  engine_state := .none
  error := .none
  signal_closed_ := false
  connected := false

/-- What `ProcessTokenLogin` learns of `pre_auth_`. -/
inductive AuthState where
  | missing
  | pending
  | refused (hadError : Bool)
  | authorized
deriving DecidableEq

/-- What comes of a `Process`: the client, whether `EnsureClosed` is called, and the new state, or
`none` for `STATE_BLOCKED`. -/
structure ClientProcess where
  client : PumpClient
  closes : Bool
  new_state : Option ClientTaskState

namespace PumpClient

/-- `XmppClient::ProcessTokenLogin`. -/
def processTokenLogin (c : PumpClient) (auth : AuthState) : ClientProcess :=
  if !c.socket_ then ⟨c, false, some .done⟩
  else match auth with
    | .missing => ⟨{ c with error := .auth }, true, some .error⟩
    | .pending => ⟨c, false, none⟩
    | .refused hadError =>
      ⟨{ c with error := if hadError then .auth else .unauthorized }, true, some .error⟩
    | .authorized => ⟨c, false, some .startXmppLogin⟩

/-- `XmppClient::ProcessStartXmppLogin`, for the answer of the socket. -/
def processStartXmppLogin (c : PumpClient) (connects : Bool) : ClientProcess :=
  if !c.socket_ then ⟨c, false, some .done⟩
  else if !connects then ⟨c, true, some .error⟩
  else ⟨c, false, some .response⟩

/-- `XmppClient::Process`. `PumpThread` gives an authentication to each client. -/
def process (c : PumpClient) (auth : AuthState) (connects : Bool) : ClientProcess :=
  match c.state_ with
  | .start => if !c.socket_ then ⟨c, false, some .done⟩ else ⟨c, false, some .preXmppLogin⟩
  | .preXmppLogin => c.processTokenLogin auth
  | .startXmppLogin => c.processStartXmppLogin connects
  | .response => ⟨c, false, if c.engine_state = .closed then some .done else none⟩
  | .done | .error => ⟨c, false, none⟩

/-- `Task::Step`, after `Process`. -/
def answered (c : PumpClient) : Option ClientTaskState → PumpClient
  | none => { c with blocked_ := true }
  | some new_state =>
    if new_state = .done ∨ new_state = .error
    then { c with state_ := new_state, done_ := true, blocked_ := true }
    else { c with state_ := new_state, blocked_ := false }

end PumpClient

/-! ## 2. The thread -/

/-- The messages of the thread; `runTasks` is the one of its runner. -/
inductive PumpMessage where
  | login
  | disconnect
  | xmppStart
  | xmppOpening
  | xmppOpen
  | xmppClosed
  | runTasks
deriving DecidableEq

/-- `PumpThread`, with the clients it made, its runner and its queue. -/
structure PumpThread where
  clients : Nat → PumpClient
  /-- how many clients were made -/
  made : Nat
  /-- `none`: it was never assigned -/
  client_ : Option Nat
  state_ : EngineState
  error_ : EngineError
  queue : List PumpMessage
  /-- `RunTasks` is running -/
  running : Bool

namespace PumpThread

/-- A new thread. -/
def init : PumpThread where
  clients _ := PumpClient.new
  made := 0
  client_ := none
  state_ := .none
  error_ := .none
  queue := []
  running := false

/-- A client is changed in place. -/
def set (p : PumpThread) (i : Nat) (c : PumpClient) : PumpThread :=
  { p with clients := fun j => if j = i then c else p.clients j }

/-- `Thread::Post`. -/
def post (p : PumpThread) (msg : PumpMessage) : PumpThread := { p with queue := p.queue ++ [msg] }

/-- The client that `client_` points to. -/
def target (p : PumpThread) : Option Nat := p.client_.filter fun i => !(p.clients i).deleted

/-- `TaskParent::AllChildrenDone`, of the runner. -/
def allChildrenDone (p : PumpThread) : Bool := (List.range p.made).all fun i => (p.clients i).done_

/-- `PumpThread::client`. -/
def client (p : PumpThread) : Option (Option Nat) :=
  if p.state_ ≠ .open then some none else p.target.map some

/-- `PumpThread::OnStateChange`. -/
def onStateChange (p : PumpThread) (state : EngineState) : Option PumpThread :=
  let p := { p with state_ := state }
  match state with
  | .open => some (p.post .xmppOpen)
  | .closed => p.target.map fun i =>
    PumpThread.post { p with error_ := (p.clients i).error } .xmppClosed
  | .none | .start | .opening => some p

/-- A client emits `SignalStateChange`. -/
def signalStateChange (p : PumpThread) (i : Nat) (state : EngineState) : Option PumpThread :=
  if (p.clients i).connected then p.onStateChange state else some p

/-- `XmppClient::EnsureClosed`. -/
def ensureClosed (p : PumpThread) (i : Nat) : Option PumpThread :=
  if (p.clients i).signal_closed_ then some p
  else (p.set i { p.clients i with signal_closed_ := true }).signalStateChange i .closed

/-- `Task::Wake`. -/
def wake (p : PumpThread) (i : Nat) : PumpThread :=
  if (p.clients i).done_ then p
  else if (p.clients i).blocked_
  then (p.set i { p.clients i with blocked_ := false }).post .runTasks
  else p

/-- `Task::Abort`, of a client whose `Process` is not running. -/
def abort (p : PumpThread) (i : Nat) : PumpThread :=
  if (p.clients i).done_ then p
  else (p.set i { p.clients i with done_ := true, blocked_ := true }).post .runTasks

/-- `XmppClient::Private::OnStateChange`. -/
def engineStateChange (p : PumpThread) (i : Nat) (state : EngineState) : Option PumpThread :=
  (if state = .closed then p.ensureClosed i else p.signalStateChange i state).map fun p => p.wake i

/-- `XmppEngineImpl::Disconnect`. -/
def engineDisconnect (p : PumpThread) (i : Nat) : Option PumpThread :=
  if (p.clients i).engine_state = .closed then some p
  else (p.set i { p.clients i with engine_state := .closed }).engineStateChange i .closed

/-- `XmppClient::Disconnect`. -/
def clientDisconnect (p : PumpThread) (i : Nat) : Option PumpThread :=
  if !(p.clients i).socket_ then some p
  else ((p.abort i).engineDisconnect i).map fun p =>
    p.set i { p.clients i with socket_ := false }

/-- `PumpThread::DoLogin`, without the roster module. -/
def doLogin (p : PumpThread) : Option PumpThread :=
  let p := { p.set p.made PumpClient.new with made := p.made + 1, client_ := some p.made }
  (if !p.allChildrenDone then
    (p.onStateChange .start).bind fun p => p.target.map fun i =>
      (p.set i { p.clients i with
        connected := true
        socket_ := true
        engine_state := .start }).post .runTasks
  else some p).bind fun p => p.target.map fun _ => p

/-- `PumpThread::DoDisconnect`. -/
def doDisconnect (p : PumpThread) : Option PumpThread :=
  (if !p.allChildrenDone then p.target.bind fun i => p.clientDisconnect i else some p).bind fun p =>
    p.target.map fun i => p.set i { p.clients i with connected := false }

/-- `OnMessage`, of the thread and of its runner. -/
def onMessage (p : PumpThread) : PumpMessage → Option PumpThread
  | .login => p.doLogin
  | .disconnect => p.doDisconnect
  | .xmppStart | .xmppOpening | .xmppOpen | .xmppClosed => some p
  | .runTasks => some { p with running := true }

/-- The first message of the queue is dispatched. -/
def dispatch (p : PumpThread) : Option PumpThread :=
  match p.queue with
  | [] => some p
  | msg :: rest => PumpThread.onMessage { p with queue := rest } msg

/-- `Task::Step`, of a client that is not blocked. -/
def step (p : PumpThread) (i : Nat) (auth : AuthState) (connects : Bool) : Option PumpThread :=
  let r := (p.clients i).process auth connects
  let p := p.set i r.client
  (if r.closes then p.ensureClosed i else some p).map fun p =>
    p.set i ((p.clients i).answered r.new_state)

/-- The end of `InternalRunTasks`: what is done is deleted. -/
def sweep (p : PumpThread) : PumpThread :=
  { p with
    clients := fun i => { p.clients i with deleted := (p.clients i).done_ }
    running := false }

/-- The engine of a client comes to a state, and the client is told. -/
def engineMoves (p : PumpThread) (i : Nat) (state : EngineState) (error : EngineError) :
    Option PumpThread :=
  (p.set i { p.clients i with engine_state := state, error }).engineStateChange i state

end PumpThread

/-! ## 3. Runs -/

/-- `Login` and `Disconnect` are called, the thread dispatches a message, the runner steps a task
or is at its end, and the engine of a client changes its state. -/
inductive PumpEvent where
  | login
  | disconnect
  | dispatch
  | step (i : Nat) (auth : AuthState) (connects : Bool)
  | sweep
  | engine (i : Nat) (state : EngineState) (error : EngineError)

/-- The client exists. -/
def PumpThread.Alive (p : PumpThread) (i : Nat) : Prop :=
  i < p.made ∧ (p.clients i).deleted = false

/-- When an event is possible. While the runner runs, no message is dispatched and no socket is
served. An engine changes its state after its socket was told to connect, and is closed for good. -/
def PumpThread.Possible (p : PumpThread) : PumpEvent → Prop
  | .login | .disconnect => True
  | .dispatch => p.running = false
  | .step i _ _ => p.running = true ∧ p.Alive i ∧ (p.clients i).blocked_ = false
  | .sweep => p.running = true ∧ ∀ i < p.made, (p.clients i).deleted = true ∨
      (p.clients i).blocked_ = true
  | .engine i state _ => p.running = false ∧ p.Alive i ∧ (p.clients i).state_ = .response ∧
      (p.clients i).engine_state ≠ .closed ∧ state ≠ .none ∧ state ≠ .start

instance (p : PumpThread) (i : Nat) : Decidable (p.Alive i) := inferInstanceAs (Decidable (_ ∧ _))

instance (p : PumpThread) : (e : PumpEvent) → Decidable (p.Possible e)
  | .login | .disconnect => inferInstanceAs (Decidable True)
  | .dispatch => inferInstanceAs (Decidable (_ = _))
  | .step _ _ _ => inferInstanceAs (Decidable (_ ∧ _ ∧ _))
  | .sweep => inferInstanceAs (Decidable (_ ∧ ∀ i < p.made, _))
  | .engine _ _ _ => inferInstanceAs (Decidable (_ ∧ _ ∧ _ ∧ _ ∧ _ ∧ _))

/-- The thread as a system. -/
def pumpThread : Faulting.System PumpThread PumpEvent where
  enabled := PumpThread.Possible
  step p
    | .login => some (p.post .login)
    | .disconnect => some (p.post .disconnect)
    | .dispatch => p.dispatch
    | .step i auth connects => p.step i auth connects
    | .sweep => some p.sweep
    | .engine i state error => p.engineMoves i state error

end Gxmpp
