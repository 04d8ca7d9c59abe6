/-
How `XmppClient` tells that it is closed.

`SignalStateChange(STATE_CLOSED)` has three sources: the steps of the login that fail, a
`Connect` of the socket that fails, and the engine, which tells its session handler when its
outermost scope is left. `EnsureClosed` lets the first of them through.

Two things keep another state from being told after that. A client that fails before the
engine was connected never connects it: its task is at its end, and the transport comes up
only where the socket's `Connect` was called. And an engine that is closed stays closed.

That the state is told at all is owed to the engine's scopes: while the engine is closed and
nothing was told, a scope is open, or the session handler is being called (`told`).
-/
import Gxmpp.ClientMachine
import Gxmpp.Encrypted

set_option autoImplicit false

namespace Gxmpp

open World Reentrant

/-! ## 1. The engine -/

section Engine

variable {w : World}

variable {m : Call} {r : World × List Stmt} {rest : List Stmt} {s : Stmt}

/-- Only `SetSessionHandler` changes the session handler. -/
theorem enter_session (hm : ∀ b, m ≠ .setSessionHandler b) :
    (w.enter m).1.eng.session_handler = w.eng.session_handler := by
  have hsetter : ∀ eng : XmppEngineImpl, eng.session_handler = w.eng.session_handler →
      ((w.emit (.called m)).setter m eng).1.eng.session_handler = w.eng.session_handler := by
    intro eng heng
    unfold World.setter
    split_ifs
    · rfl
    · exact heng
  by_cases hstores : m.stores = true
  · cases m with
    | setSessionHandler b => exact absurd rfl (hm b)
    | setOutputHandler | setTls | setTlsServer | setUser | setSaslHandler | setRequestedResource =>
      exact hsetter _ rfl
    | addStanzaHandler h level =>
      show (World.addStanzaHandler _ h level).1.eng.session_handler = _
      unfold World.addStanzaHandler
      split_ifs <;> rfl
    | _ => first | rfl | exact absurd hstores Bool.false_ne_true
  · have hentry := enter_entry w m
    generalize w.enter m = r at hentry
    cases hentry with
    | configured m eng hs hstart hu hh hsa => exact absurd hs hstores
    | stored m eng status hs hu ho hse ht hh hsa => exact hse
    | connectionClosed subcode code sub hc hs =>
      exact (LoginFrame.signalError _ _ _).session_handler
    | sent m e v hs hm' hv | sentIq e h v hs hb hv => exact hv.frame.1.session_handler
    | disconnect hs =>
      show (if _ then _ else _ : World).eng.session_handler = _
      split_ifs <;> rfl
    | _ => rfl

/-- What a call other than `Connect` does to the state: nothing, or it closes the engine and
opens a scope. -/
theorem enter_state (hm : m ≠ .connect) :
    (w.enter m).1.eng.state = w.eng.state ∨
      ((w.enter m).1.eng.state = .closed ∧ Stmt.exitScope w.eng.state ∈ (w.enter m).2) := by
  have hentry := enter_entry w m
  generalize w.enter m = r at hentry
  cases hentry with
  | configured m eng hs hstart hu | stored m eng status hs hu => exact Or.inl hu.state
  | connect | connectDone => exact absurd rfl hm
  | connectionClosed subcode code sub hc hs =>
    refine Or.inr ⟨?_, List.mem_cons_self⟩
    show (World.signalError _ code sub).eng.state = .closed
    unfold World.signalError
    split_ifs with hn
    · rfl
    · exact not_not.1 hn
  | sent m e v hs hm' hv | sentIq e h v hs hb hv => exact Or.inl hv.frame.1.state
  | disconnect hs => exact Or.inr ⟨rfl, List.mem_cons_self⟩
  | _ => exact Or.inl rfl

/-- After `Disconnect` is entered, the engine is closed. -/
theorem enter_disconnect : (w.enter .disconnect).1.eng.state = .closed := by
  have hentry := enter_entry w .disconnect
  generalize w.enter .disconnect = r at hentry
  cases hentry with
  | refused m status hst => exact (hst (Or.inr rfl)).1
  | configured m eng hs | stored m eng status hs => exact absurd hs Bool.false_ne_true
  | sent m e v hs hm' hv =>
    rcases hm' with h | ⟨original, code, text, h, -⟩ <;> cases h
  | disconnect hs => rfl

/-- `Connect` does not close the engine. -/
theorem enter_connect_closed (h : (w.enter .connect).1.eng.state = .closed) :
    w.eng.state = .closed := by
  have hentry := enter_entry w .connect
  generalize w.enter .connect = r at hentry h
  cases hentry with
  | refused m status hst => exact h
  | configured m eng hs | stored m eng status hs => exact absurd hs Bool.false_ne_true
  | connect | connectDone => cases h
  | sent m e v hs hm' hv =>
    rcases hm' with hm | ⟨original, code, text, hm, -⟩ <;> cases hm

/-- The functions that only store something leave the state alone. -/
theorem enter_stores (hm : m.stores = true) : (w.enter m).1.eng.state = w.eng.state := by
  have hentry := enter_entry w m
  generalize w.enter m = r at hentry
  cases hentry with
  | refused m status hst => rfl
  | configured m eng hs hstart hu | stored m eng status hs hu => exact hu.state
  | sent m e v hs hm' hv =>
    rcases hm' with rfl | ⟨original, code, text, rfl, -⟩ <;> exact absurd hm Bool.false_ne_true
  | _ => exact absurd hm Bool.false_ne_true

/-- A scope is open. -/
theorem Calm.exists_scope {l : List Stmt} (h : Calm l) : ∃ saved, Stmt.exitScope saved ∈ l := by
  induction l with
  | nil => exact h.elim
  | cons s l ih =>
    rcases h with hopen | ⟨-, hcalm⟩
    · cases s with
      | exitScope saved => exact ⟨saved, List.mem_cons_self⟩
      | _ => exact absurd hopen Bool.false_ne_true
    · obtain ⟨saved, hmem⟩ := ih hcalm
      exact ⟨saved, List.mem_cons_of_mem s hmem⟩

/-- A statement that closes the engine runs in a scope. -/
theorem exec_closes_inScope (h : Reachable ⟨w, s :: rest⟩) (hr : w.exec s = some r)
    (hopen : w.eng.state ≠ .closed) (hclosed : r.1.eng.state = .closed) :
    ∃ saved, Stmt.exitScope saved ∈ rest := by
  have hinput : s.isInput = true := by
    by_contra hno
    exact hopen (((exec_frame hr).state (Bool.eq_false_iff.2 hno)).symm.trans hclosed)
  have hscope : s.inScope = true := by
    cases s with
    | startedTls =>
      obtain rfl := Option.some.inj hr
      exact absurd hclosed hopen
    | callback cb => exact absurd hr nofun
    | _ => exact hinput
  exact (((segmented_reachable h).1 hscope).exists_scope)

/-- No statement opens an engine that was not connected. -/
theorem exec_start (h : Reachable ⟨w, s :: rest⟩) (hr : w.exec s = some r)
    (hs : w.eng.state = .start) : r.1.eng.state = .start := by
  have hframe := (shape_reachable h).frame s List.mem_cons_self
  rw [(exec_frame hr).state (hframe.started hs).1]
  exact hs

/-- The session handler is told the present state, which is not `STATE_START`. -/
theorem exec_notify {state : EngineState} (h : Reachable ⟨w, s :: rest⟩) (hr : w.exec s = some r)
    (hmem : Stmt.callback (.onStateChange state) ∈ r.2) :
    r.2 = [.callback (.onStateChange state)] ∧ state = r.1.eng.state ∧ state ≠ .start := by
  have hpush := exec_mayPush hr _ hmem
  cases s with
  | leaveScope saved =>
    have hframe := (shape_reachable h).frame _ List.mem_cons_self
    have hshape := hframe.saved saved rfl
    cases exec_leaveScope hr with
    | inner | silent => cases hmem
    | notify he hh hs =>
      obtain hstate := Callback.onStateChange.inj
        (Stmt.callback.inj (List.mem_singleton.1 hmem))
      refine ⟨by rw [hstate]; rfl, hstate.trans ?_, fun hstart => hs ?_⟩
      · rcases afterReset_eq w with heq | ⟨-, heq⟩
        · show _ = (afterReset w).eng.state
          rw [heq]
        · show _ = (afterReset w).eng.state
          rw [heq]
          rfl
      · -- a scope that was opened before `Connect` has nothing to tell
        rw [← hstate, hstart] at hshape ⊢
        obtain ⟨-, hlow, hup⟩ := hshape
        cases saved <;> first | rfl | exact absurd hup (by decide) | exact absurd hlow (by decide)
  | _ => exact absurd hpush Bool.false_ne_true

/-- Where a scope is left while the engine is closed, another is open or the session handler is
told. -/
theorem exec_tells (h : Reachable ⟨w, s :: rest⟩) (hr : w.exec s = some r) (hs : s.isScope = true)
    (hclosed : w.eng.state = .closed) (hsession : w.eng.session_handler = true) :
    (∃ p ∈ r.2 ++ rest, p.isScope = true) ∨
      Stmt.callback (.onStateChange .closed) ∈ r.2 := by
  have hentered := entered_reachable h
  have hframe := (shape_reachable h).frame _ List.mem_cons_self
  cases s with
  | exitScope saved =>
    cases exec_exitScope hr with
    | write ho hf hb => exact Or.inl ⟨.afterWrite saved (closing w saved), by simp [callOut], rfl⟩
    | empty ho hf hb => exact Or.inl ⟨.afterWrite saved (closing w saved), by simp, rfl⟩
    | unflushed hn => exact Or.inl ⟨.leaveScope saved, by simp, rfl⟩
  | afterWrite saved c =>
    obtain rfl := Option.some.inj hr
    cases c with
    | true => exact Or.inl ⟨.afterClose saved, by simp [World.afterWrite, callOut], rfl⟩
    | false => exact Or.inl ⟨.leaveScope saved, by simp [World.afterWrite], rfl⟩
  | afterClose saved =>
    obtain rfl := Option.some.inj hr
    exact Or.inl ⟨.leaveScope saved, List.mem_cons_self, rfl⟩
  | leaveScope saved =>
    cases exec_leaveScope hr with
    | inner he =>
      -- the depth counter says that a scope is open further down
      rw [total_cons] at hentered
      have hpos : total Stmt.scopes rest ≠ 0 := by
        have hzero : (Stmt.leaveScope saved).scopes = 0 := rfl
        rw [hzero, Nat.zero_add] at hentered
        rw [hentered]
        exact he
      by_contra hno
      refine hpos (total_eq_zero fun p hp => ?_)
      have hnot : p.isScope ≠ true := fun hp' =>
        hno (Or.inl ⟨p, List.mem_append_right _ hp, hp'⟩)
      cases p <;> first | rfl | exact absurd rfl hnot
    | silent he hn =>
      have hsaved := (hframe.saved saved rfl).1
      rcases hn with hn | hn
      · rw [hsession] at hn
        cases hn
      · exact absurd (hn.symm.trans hclosed) hsaved
    | notify he hh hst =>
      rw [← hclosed]
      exact Or.inr List.mem_cons_self
  | _ => exact absurd hs Bool.false_ne_true

end Engine

/-! ## 2. The invariant -/

/-- The statements of the whole. -/
abbrev ClientFrame := Frame Stmt ClientStmt Call

/-- The state that the session handler is about to be told. -/
def toldState : ClientFrame → Option EngineState
  | .inner (.callback (.onStateChange state)) | .layer (.onStateChange state) => some state
  | _ => none

/-- The task is in the middle of `Process`. -/
def processing : ClientFrame → Bool
  | .layer .connectSocket | .layer (.processed _) => true
  | _ => false

/-- The task is finished, or it will be when its `Process` returns. -/
def ClientSide.Ending (p : ClientSide) : Prop := p.task.aborted_ = true ∨ p.task.done_ = true

/-- What is true of the engine and the client between any two statements. -/
structure ClientGlobal (w : World) (p : ClientSide) : Prop where
  session : w.eng.session_handler = true
  idle : p.task.done_ = true → p.task.busy_ = false
  errorDone : p.task.error_ = true → p.task.done_ = true
  /-- a task that ended by itself has told so -/
  ownEnd : p.task.done_ = true → p.task.aborted_ = true ∨ p.signal_closed_ = true
  noSocket : p.socket_ = none → p.Ending
  running : p.connect_ = .running → p.task.state_ = .startXmppLogin ∧ p.task.busy_ = true
  /-- the engine is connected only where the socket's `Connect` was called -/
  up : w.eng.state = .opening ∨ w.eng.state = .open → p.connect_ = .succeeded
  progress : p.connect_ = .succeeded → p.task.done_ = true ∨ p.task.state_ = .response ∨
    (p.task.state_ = .startXmppLogin ∧ p.task.busy_ = true)
  /-- what was told before the engine was closed was told by a login that failed -/
  early : p.signal_closed_ = true → w.eng.state = .closed ∨
    (p.connect_ = .none ∧ (p.task.done_ = true ∨ p.task.busy_ = true))
  signal : p.signal_closed_ = true ↔ EngineState.closed ∈ p.signalled
  once : p.signalled.Pairwise fun a _ => a ≠ .closed
  disconnected : p.disconnected = true → w.eng.state = .closed

/-- What the result of `Process`, on its way to `Step`, says. -/
structure ResultLife (w : World) (p : ClientSide) (result : ProcessResult) : Prop where
  busy : p.task.busy_ = true
  settled : p.connect_ ≠ .running
  done : result = .next .done → p.task.aborted_ = true ∨ p.signal_closed_ = true
  error : result = .next .error → p.signal_closed_ = true
  early : p.signal_closed_ = true → w.eng.state = .closed ∨ result = .next .error
  up : p.connect_ = .succeeded → result = .next .response ∨ result = .next .done ∨
    result = .next .error ∨ (result = .blocked ∧ p.task.state_ = .response)

/-- What a pending statement says. -/
def FrameLife (w : World) (p : ClientSide) : ClientFrame → Prop
  | .call .connect => p.connect_ = .succeeded
  | .call (.setSessionHandler _) => False
  | .inner (.callback (.onStateChange state)) => state = w.eng.state ∧ state ≠ .start
  | .layer (.onStateChange state) => state = w.eng.state ∧ state ≠ .start
  | .layer .resetSocket => p.Ending
  | .layer .connectSocket =>
    p.task.busy_ = true ∧ p.task.state_ = .startXmppLogin ∧ p.connect_ ≠ .none ∧
      (p.signal_closed_ = true → w.eng.state = .closed)
  | .layer (.processed result) => ResultLife w p result
  | _ => True

/-- The invariant. The session handler is told a state at the top of the stack only, and
there is one `Process` at most. -/
def clientInv : Invariant (World × ClientSide) ClientFrame where
  global s := ClientGlobal s.1 s.2
  frame s := FrameLife s.1 s.2
  below x l := toldState l = none ∧ (processing x = true → processing l = false)

/-- The statements of which nothing has to be known. -/
def isPlain : ClientFrame → Bool
  | .call .connect | .call (.setSessionHandler _) | .inner (.callback (.onStateChange _))
  | .layer (.onStateChange _) | .layer .resetSocket | .layer .connectSocket
  | .layer (.processed _) => false
  | _ => true

/-- What a `Process` in progress is. -/
theorem processing_cases {x : ClientFrame} (h : processing x = true) :
    x = .layer .connectSocket ∨ ∃ result, x = .layer (.processed result) := by
  cases x with
  | layer l =>
    cases l with
    | connectSocket => exact Or.inl rfl
    | processed result => exact Or.inr ⟨result, rfl⟩
    | _ => cases h
  | _ => cases h

/-- A `Process` in progress is not told, and is not the end of a `Disconnect`. -/
theorem processing_spec {x : ClientFrame} (h : processing x = true) :
    toldState x = none ∧ x ≠ .layer .resetSocket := by
  rcases processing_cases h with rfl | ⟨result, rfl⟩ <;> exact ⟨rfl, nofun⟩

theorem isPlain_spec {x : ClientFrame} (h : isPlain x = true) :
    toldState x = none ∧ processing x = false ∧ ∀ w p, FrameLife w p x := by
  cases x with
  | inner s =>
    cases s with
    | callback cb => cases cb <;> first | exact ⟨rfl, rfl, fun _ _ => trivial⟩ | cases h
    | _ => exact ⟨rfl, rfl, fun _ _ => trivial⟩
  | serving s => exact ⟨rfl, rfl, fun _ _ => trivial⟩
  | layer l | call l => cases l <;> first | exact ⟨rfl, rfl, fun _ _ => trivial⟩ | cases h

/-! ## 3. Steps that change nothing of this -/

/-- What the invariant says of the client stays. -/
structure SameLife (p p' : ClientSide) : Prop where
  state_ : p'.task.state_ = p.task.state_
  done_ : p'.task.done_ = p.task.done_
  aborted_ : p'.task.aborted_ = p.task.aborted_
  busy_ : p'.task.busy_ = p.task.busy_
  error_ : p'.task.error_ = p.task.error_
  signal_closed_ : p'.signal_closed_ = p.signal_closed_
  signalled : p'.signalled = p.signalled
  connect_ : p'.connect_ = p.connect_
  disconnected : p'.disconnected = p.disconnected
  socket_ : p'.socket_ = none → p.socket_ = none

theorem SameLife.refl (p : ClientSide) : SameLife p p :=
  ⟨rfl, rfl, rfl, rfl, rfl, rfl, rfl, rfl, rfl, id⟩

/-- The engine stays closed and keeps its session handler, and is open only over a transport
that came up. -/
structure EngineStays (p : ClientSide) (w w' : World) : Prop where
  closed : w.eng.state = .closed → w'.eng.state = .closed
  up : w'.eng.state = .opening ∨ w'.eng.state = .open → p.connect_ = .succeeded
  session : w'.eng.session_handler = w.eng.session_handler

theorem ClientGlobal.stays {w : World} {p : ClientSide} (h : ClientGlobal w p) :
    EngineStays p w w := ⟨id, h.up, rfl⟩

section Same

variable {w w' : World} {p p' : ClientSide}

theorem SameLife.ending (h : SameLife p p') (hp : p.Ending) : p'.Ending := by
  unfold ClientSide.Ending
  rw [h.aborted_, h.done_]
  exact hp

theorem ClientGlobal.same (h : ClientGlobal w p) (hw : EngineStays p w w') (hp : SameLife p p') :
    ClientGlobal w' p' where
  session := by rw [hw.session, h.session]
  idle := by rw [hp.done_, hp.busy_]; exact h.idle
  errorDone := by rw [hp.error_, hp.done_]; exact h.errorDone
  ownEnd := by rw [hp.done_, hp.aborted_, hp.signal_closed_]; exact h.ownEnd
  noSocket hs := hp.ending (h.noSocket (hp.socket_ hs))
  running := by rw [hp.connect_, hp.state_, hp.busy_]; exact h.running
  up hs := by rw [hp.connect_]; exact hw.up hs
  progress := by rw [hp.connect_, hp.done_, hp.state_, hp.busy_]; exact h.progress
  early := by
    rw [hp.signal_closed_, hp.connect_, hp.done_, hp.busy_]
    exact fun hs => (h.early hs).imp_left hw.closed
  signal := by rw [hp.signal_closed_, hp.signalled]; exact h.signal
  once := by rw [hp.signalled]; exact h.once
  disconnected := by rw [hp.disconnected]; exact fun hd => hw.closed (h.disconnected hd)

theorem ResultLife.same {result : ProcessResult} (h : ResultLife w p result)
    (hw : EngineStays p w w') (hp : SameLife p p') : ResultLife w' p' result where
  busy := by rw [hp.busy_]; exact h.busy
  settled := by rw [hp.connect_]; exact h.settled
  done := by rw [hp.aborted_, hp.signal_closed_]; exact h.done
  error := by rw [hp.signal_closed_]; exact h.error
  early := by rw [hp.signal_closed_]; exact fun hs => (h.early hs).imp_left hw.closed
  up := by rw [hp.connect_, hp.state_]; exact h.up

/-- A statement below the head keeps what it says, except where it is about a `Process`. -/
theorem FrameLife.mono {l : ClientFrame} (h : FrameLife w p l) (hl : toldState l = none)
    (hconnect : p.connect_ = .succeeded → p'.connect_ = .succeeded) (hend : p.Ending → p'.Ending)
    (hprocess : processing l = true → FrameLife w' p' l) : FrameLife w' p' l := by
  cases l with
  | inner s =>
    cases s with
    | callback cb => cases cb <;> first | exact trivial | cases hl
    | _ => exact trivial
  | serving s => exact trivial
  | layer l =>
    cases l with
    | onStateChange state => cases hl
    | resetSocket => exact hend h
    | connectSocket | processed => exact hprocess rfl
    | _ => exact trivial
  | call m =>
    cases m with
    | connect => exact hconnect h
    | setSessionHandler b => exact h
    | _ => exact trivial

theorem FrameLife.same {l : ClientFrame} (h : FrameLife w p l) (hl : toldState l = none)
    (hw : EngineStays p w w') (hp : SameLife p p') : FrameLife w' p' l := by
  refine h.mono hl (fun hc => by rw [hp.connect_]; exact hc) hp.ending fun hproc => ?_
  rcases processing_cases hproc with rfl | ⟨result, rfl⟩
  · obtain ⟨hbusy, hstate, hconnect, hearly⟩ := h
    refine ⟨by rw [hp.busy_]; exact hbusy, by rw [hp.state_]; exact hstate,
      by rw [hp.connect_]; exact hconnect, ?_⟩
    rw [hp.signal_closed_]
    exact fun hs => hw.closed (hearly hs)
  · exact ResultLife.same h hw hp

/-- A `Process` in progress sees the task, the connection and what was told. -/
theorem FrameLife.process {l : ClientFrame} (h : FrameLife w p l) (hl : processing l = true)
    (htask : p'.task = p.task) (hconnect : p'.connect_ = p.connect_)
    (hsignal : p'.signal_closed_ = p.signal_closed_) : FrameLife w p' l := by
  rcases processing_cases hl with rfl | ⟨result, rfl⟩
  · unfold FrameLife at h ⊢
    rw [htask, hconnect, hsignal]
    exact h
  · obtain ⟨hbusy, hsettled, hdone, herror, hearly, hup⟩ : ResultLife w p result := h
    constructor <;> simp only [htask, hconnect, hsignal] <;> assumption

theorem pairwise_plain {push : List ClientFrame} (h : ∀ x ∈ push, isPlain x = true) :
    push.Pairwise clientInv.below := by
  refine List.pairwise_of_forall_mem_list fun x hx l hl => ?_
  have hplain := isPlain_spec (h l hl)
  exact ⟨hplain.1, fun _ => hplain.2.1⟩

/-- A step that leaves plain statements. -/
theorem preserved_of_plain {push : List ClientFrame} {under : ClientFrame → Prop}
    (hg : ClientGlobal w' p') (hpush : ∀ x ∈ push, isPlain x = true)
    (hund : ∀ l, under l → toldState l = none)
    (hlife : ∀ l, FrameLife w p l → toldState l = none → FrameLife w' p' l) :
    clientInv.Preserved (w, p) (w', p') push under where
  global := hg
  frame x hx := (isPlain_spec (hpush x hx)).2.2 w' p'
  below := pairwise_plain hpush
  rest l hl hu := by
    refine ⟨hlife l hl (hund l hu), fun x hx => ⟨hund l hu, fun hproc => ?_⟩⟩
    rw [(isPlain_spec (hpush x hx)).2.1] at hproc
    cases hproc

/-- A step that leaves plain statements and changes nothing of this. -/
theorem plain_preserved {push : List ClientFrame} {under : ClientFrame → Prop}
    (hg : ClientGlobal w p) (hw : EngineStays p w w') (hp : SameLife p p')
    (hpush : ∀ x ∈ push, isPlain x = true) (hund : ∀ l, under l → toldState l = none) :
    clientInv.Preserved (w, p) (w', p') push under :=
  preserved_of_plain (hg.same hw hp) hpush hund fun _ hl htold =>
    hl.same htold hw hp

end Same

/-! ## 4. The steps of the client -/

section Steps

variable {w : World} {p : ClientSide}

/-- `EnsureClosed`, where the engine is closed or was never connected. -/
theorem ClientGlobal.ensureClosed (h : ClientGlobal w p)
    (hearly : w.eng.state = .closed ∨
      (p.connect_ = .none ∧ (p.task.done_ = true ∨ p.task.busy_ = true))) :
    ClientGlobal w p.ensureClosed.1 := by
  unfold ClientSide.ensureClosed
  split_ifs with hsignal
  · exact h
  · exact
      { session := h.session
        idle := h.idle
        errorDone := h.errorDone
        ownEnd := fun _ => Or.inr rfl
        noSocket := h.noSocket
        running := h.running
        up := h.up
        progress := h.progress
        early := fun _ => hearly
        signal := ⟨fun _ => List.mem_append_right _ List.mem_cons_self, fun _ => rfl⟩
        once := by
          -- nothing was told after `STATE_CLOSED`, for it was not told
          refine List.pairwise_append.2 ⟨h.once, List.pairwise_singleton _ _, fun a ha _ _ hc => ?_⟩
          rw [hc] at ha
          exact hsignal (h.signal.2 ha)
        disconnected := h.disconnected }

theorem ensureClosed_signal (p : ClientSide) : p.ensureClosed.1.signal_closed_ = true := by
  unfold ClientSide.ensureClosed
  split_ifs with hsignal
  · exact hsignal
  · rfl

/-- `EnsureClosed` leaves the task, the socket and the connection alone. -/
theorem ensureClosed_frame (p : ClientSide) : p.ensureClosed.1.task = p.task ∧
    p.ensureClosed.1.connect_ = p.connect_ ∧ p.ensureClosed.1.socket_ = p.socket_ := by
  unfold ClientSide.ensureClosed
  split_ifs <;> exact ⟨rfl, rfl, rfl⟩

theorem ensureClosed_plain (p : ClientSide) :
    ∀ x ∈ (p.ensureClosed.2.frames : List ClientFrame), isPlain x = true := by
  unfold ClientSide.ensureClosed
  split_ifs
  · exact List.forall_mem_nil _
  · exact List.all_eq_true.1 rfl

/-- `Task::Abort`. -/
theorem ClientGlobal.abort (h : ClientGlobal w p) : ClientGlobal w p.abort.1 := by
  unfold ClientSide.abort
  split_ifs with hdone hbusy
  · exact h
  · exact { h with
      ownEnd := fun _ => Or.inl rfl
      noSocket := fun _ => Or.inl rfl }
  · exact
      { session := h.session
        idle := fun _ => Bool.eq_false_iff.2 hbusy
        errorDone := fun _ => rfl
        ownEnd := fun _ => Or.inl rfl
        noSocket := fun _ => Or.inl rfl
        running := h.running
        up := h.up
        progress := fun _ => Or.inl rfl
        early := fun hs => (h.early hs).imp_right fun hn => ⟨hn.1, Or.inl rfl⟩
        signal := h.signal
        once := h.once
        disconnected := h.disconnected }

theorem abort_ending (p : ClientSide) : p.abort.1.Ending := by
  unfold ClientSide.abort
  split_ifs with hdone
  · exact Or.inr hdone
  · exact Or.inl rfl
  · exact Or.inl rfl

theorem abort_connect (p : ClientSide) : p.abort.1.connect_ = p.connect_ := by
  unfold ClientSide.abort
  split_ifs <;> rfl

theorem abort_signal (p : ClientSide) : p.abort.1.signal_closed_ = p.signal_closed_ := by
  unfold ClientSide.abort
  split_ifs <;> rfl

theorem abort_plain (p : ClientSide) :
    ∀ x ∈ (p.abort.2.frames : List ClientFrame), isPlain x = true := by
  unfold ClientSide.abort
  split_ifs
  · exact List.forall_mem_nil _
  · exact List.forall_mem_nil _
  · exact List.all_eq_true.1 rfl

/-- A `Process` in progress makes the task busy. -/
theorem processing_busy {l : ClientFrame} (hl : processing l = true) (h : FrameLife w p l) :
    p.task.busy_ = true := by
  rcases processing_cases hl with rfl | ⟨result, rfl⟩
  · exact h.1
  · exact ResultLife.busy h

/-- A `Process` in progress goes on under an abort. -/
theorem abort_process {l : ClientFrame} (hp : processing l = true) (h : FrameLife w p l)
    (hg : ClientGlobal w p) : FrameLife w p.abort.1 l := by
  have hbusy := processing_busy hp h
  have hdone : ¬p.task.done_ = true := fun hd => by
    rw [hg.idle hd] at hbusy
    cases hbusy
  unfold ClientSide.abort
  rw [if_neg hdone, if_pos hbusy]
  rcases processing_cases hp with rfl | ⟨result, rfl⟩
  · exact h
  · have hr : ResultLife w p result := h
    exact { hr with done := fun _ => Or.inl rfl }

/-- The beginning of `Process`. -/
structure Begun (w : World) (p : ClientSide) : Prop where
  global : ClientGlobal w p
  busy : p.task.busy_ = true
  undone : ¬p.task.done_ = true
  connect : p.connect_ = .none ∨ (p.connect_ = .succeeded ∧ p.task.state_ = .response)
  /-- what was told is true -/
  early : p.signal_closed_ = true → w.eng.state = .closed
  /-- and what is true was told -/
  closed : w.eng.state = .closed → p.signal_closed_ = true

/-- What `Process` leaves, up to the first return to the client. -/
structure Left (w : World) (p : ClientSide) (r : ClientSide × ClientCode) : Prop where
  global : ClientGlobal w r.1
  frame : ∀ x ∈ (r.2.frames : List ClientFrame),
    FrameLife w r.1 x ∧ (isPlain x = true ∨ processing x = true)
  below : (r.2.frames : List ClientFrame).Pairwise clientInv.below
  connect : p.connect_ = .succeeded → r.1.connect_ = .succeeded
  ending : p.Ending → r.1.Ending

/-- Plain statements before one that is not told. -/
theorem pairwise_snoc {push : List ClientFrame} {x : ClientFrame}
    (h : ∀ y ∈ push, isPlain y = true) (hx : toldState x = none) :
    (push ++ [x]).Pairwise clientInv.below := by
  refine List.pairwise_append.2 ⟨pairwise_plain h, List.pairwise_singleton _ _, ?_⟩
  intro y hy z hz
  rw [List.mem_singleton.1 hz]
  refine ⟨hx, fun hproc => ?_⟩
  rw [(isPlain_spec (h y hy)).2.1] at hproc
  cases hproc

variable {l : ClientStmt} {r : ClientSide × ClientCode} {q : ClientSide} {ssl stream : Bool}

/-- Plain code, and then a statement with a life of its own. -/
theorem Left.snoc (code : ClientCode) (hr : r.2 = code ++ [.inl l]) (hg : ClientGlobal w r.1)
    (hcode : ∀ x ∈ (code.frames : List ClientFrame), isPlain x = true)
    (hl : FrameLife w r.1 (.layer l)) (hproc : processing (.layer l) = true)
    (hconnect : p.connect_ = .succeeded → r.1.connect_ = .succeeded)
    (hend : p.Ending → r.1.Ending) : Left w p r := by
  have hframes : (r.2.frames : List ClientFrame) = code.frames ++ [.layer l] := by
    rw [hr]
    exact List.map_append
  refine ⟨hg, fun x hx => ?_, ?_, hconnect, hend⟩
  · rw [hframes] at hx
    rcases List.mem_append.1 hx with hx | hx
    · exact ⟨(isPlain_spec (hcode x hx)).2.2 w r.1, Or.inl (hcode x hx)⟩
    · rw [List.mem_singleton.1 hx]
      exact ⟨hl, Or.inr hproc⟩
  · rw [hframes]
    exact pairwise_snoc hcode (processing_spec hproc).1

/-- The result of a step of the login. -/
theorem Begun.result (h : Begun w p) {result : ProcessResult}
    (hdone : result = .next .done → p.task.aborted_ = true ∨ p.signal_closed_ = true)
    (herror : result ≠ .next .error)
    (hup : p.connect_ = .succeeded → result = .next .done ∨ result = .blocked) :
    ResultLife w p result where
  busy := h.busy
  settled hr := by
    rcases h.connect with hn | ⟨hs, -⟩
    · rw [hn] at hr
      cases hr
    · rw [hs] at hr
      cases hr
  done := hdone
  error he := absurd he herror
  early hs := Or.inl (h.early hs)
  up hs := by
    have hresponse : p.task.state_ = .response := by
      rcases h.connect with hn | ⟨-, hr⟩
      · rw [hn] at hs
        cases hs
      · exact hr
    rcases hup hs with hd | hb
    · exact Or.inr (Or.inl hd)
    · exact Or.inr (Or.inr (Or.inr ⟨hb, hresponse⟩))

/-- A step that ends because the socket is gone. -/
theorem Begun.socketGone (h : Begun w p) (hs : p.socket_.isNone = true) :
    Left w p (p, [.inl (.processed (.next .done))]) := by
  refine Left.snoc [] rfl h.global (List.forall_mem_nil _) ?_ rfl id id
  refine h.result (fun _ => ?_) nofun fun _ => Or.inl rfl
  exact Or.inl ((h.global.noSocket (Option.isNone_iff_eq_none.1 hs)).resolve_right h.undone)

/-- A step of the login that fails. -/
theorem failed_left (hg : ClientGlobal w q) (hbusy : q.task.busy_ = true)
    (hnone : q.connect_ = .none) (hconnect : p.connect_ ≠ .succeeded) (hend : p.Ending → q.Ending) :
    Left w p q.failed := by
  obtain ⟨htask, hc, -⟩ := ensureClosed_frame q
  refine Left.snoc q.ensureClosed.2 rfl (hg.ensureClosed (Or.inr ⟨hnone, Or.inr hbusy⟩))
    (ensureClosed_plain q) ?_ rfl (fun hs => absurd hs hconnect) fun he => ?_
  · refine ⟨?_, ?_, fun _ => ?_, fun _ => ensureClosed_signal q, fun _ => Or.inr rfl,
      fun _ => Or.inr (Or.inr (Or.inl rfl))⟩
    · show q.ensureClosed.1.task.busy_ = true
      rw [htask]
      exact hbusy
    · show q.ensureClosed.1.connect_ ≠ .running
      rw [hc, hnone]
      exact nofun
    · exact Or.inr (ensureClosed_signal q)
  · show q.ensureClosed.1.Ending
    unfold ClientSide.Ending
    rw [htask]
    exact hend he

theorem Begun.unconnected (h : Begun w p) (hs : p.task.state_ ≠ .response) :
    p.connect_ = .none := h.connect.resolve_right fun hr => hs hr.2

/-- Members the invariant does not look at. -/
theorem Begun.kept (h : Begun w p) (hq : SameLife p q) : Begun w q where
  global := h.global.same h.global.stays hq
  busy := by rw [hq.busy_]; exact h.busy
  undone := by rw [hq.done_]; exact h.undone
  connect := by rw [hq.connect_, hq.state_]; exact h.connect
  early := by rw [hq.signal_closed_]; exact h.early
  closed := by rw [hq.signal_closed_]; exact h.closed

/-- `XmppClient::ProcessStart`. -/
theorem Begun.processStart (h : Begun w p) (hs : p.task.state_ = .start) (user : Jid) :
    Left w p (p.processStart user) := by
  have hnone := h.unconnected (by rw [hs]; exact nofun)
  have hq : SameLife p { p with pass_ := STR_EMPTY } :=
    ⟨rfl, rfl, rfl, rfl, rfl, rfl, rfl, rfl, rfl, id⟩
  have hresult : ∀ result, result ≠ .next .done → result ≠ .next .error →
      ResultLife w { p with pass_ := STR_EMPTY } result := by
    intro result hd he
    refine (h.kept hq).result (fun hr => absurd hr hd) he fun hc => ?_
    have hc' : p.connect_ = .succeeded := hc
    rw [hnone] at hc'
    cases hc'
  unfold ClientSide.processStart
  split_ifs with hsock
  · exact h.socketGone hsock
  · split
    · exact Left.snoc [.inl .startPreXmppAuth] rfl (h.kept hq).global (List.all_eq_true.1 rfl)
        (hresult (.next .preXmppLogin) nofun nofun) rfl id id
    · exact Left.snoc [.inr (.setSaslHandler _)] rfl (h.kept hq).global (List.all_eq_true.1 rfl)
        (hresult (.next .startXmppLogin) nofun nofun) rfl id id

/-- `XmppClient::ProcessTokenLogin`. -/
theorem Begun.processTokenLogin (h : Begun w p) (hs : p.task.state_ = .preXmppLogin) :
    Left w p p.processTokenLogin := by
  have hnone := h.unconnected (by rw [hs]; exact nofun)
  have hunup : p.connect_ ≠ .succeeded := by rw [hnone]; exact nofun
  have hfailed : ∀ q, SameLife p q → Left w p q.failed := fun q hq =>
    failed_left (h.kept hq).global (h.kept hq).busy (by rw [hq.connect_]; exact hnone) hunup
      hq.ending
  unfold ClientSide.processTokenLogin
  split_ifs with hsock
  · exact h.socketGone hsock
  · split
    · exact hfailed _ ⟨rfl, rfl, rfl, rfl, rfl, rfl, rfl, rfl, rfl, id⟩
    · refine Left.snoc [] rfl h.global (List.forall_mem_nil _) ?_ rfl id id
      exact h.result nofun nofun fun hc => absurd hc hunup
    · exact hfailed _ ⟨rfl, rfl, rfl, rfl, rfl, rfl, rfl, rfl, rfl, id⟩
    · exact hfailed _ ⟨rfl, rfl, rfl, rfl, rfl, rfl, rfl, rfl, rfl, id⟩
    · have hq : SameLife p { p with pre_auth_ := none } :=
        ⟨rfl, rfl, rfl, rfl, rfl, rfl, rfl, rfl, rfl, id⟩
      refine Left.snoc [.inr (.setSaslHandler _)] rfl (h.kept hq).global (List.all_eq_true.1 rfl)
        ?_ rfl id id
      exact (h.kept hq).result nofun nofun fun hc => absurd hc hunup

/-- `XmppClient::ProcessStartXmppLogin`. -/
theorem Begun.processStartXmppLogin (h : Begun w p) (hs : p.task.state_ = .startXmppLogin) :
    Left w p p.processStartXmppLogin := by
  have hnone := h.unconnected (by rw [hs]; exact nofun)
  have hunup : p.connect_ ≠ .succeeded := by rw [hnone]; exact nofun
  unfold ClientSide.processStartXmppLogin
  split_ifs with hsock
  · exact h.socketGone hsock
  · refine Left.snoc [] rfl ?_ (List.forall_mem_nil _)
      ⟨h.busy, hs, nofun, h.early⟩ rfl (fun hc => absurd hc hunup) id
    exact
      { h.global with
        running := fun _ => ⟨hs, h.busy⟩
        up := fun hup => absurd (h.global.up hup) hunup
        progress := nofun
        early := fun hsig => Or.inl (h.early hsig) }

/-- `XmppClient::ProcessResponse`. The engine is closed only where that was told. -/
theorem Begun.processResponse (h : Begun w p) :
    Left w p (p.processResponse w.eng.state) := by
  unfold ClientSide.processResponse
  split_ifs with hend
  · refine Left.snoc [] rfl h.global (List.forall_mem_nil _) ?_ rfl id id
    refine h.result (fun _ => Or.inr (h.closed ?_)) nofun fun _ => Or.inl rfl
    exact of_decide_eq_true (Bool.and_eq_true_iff.1 hend).2
  · refine Left.snoc [] rfl h.global (List.forall_mem_nil _) ?_ rfl id id
    exact h.result nofun nofun fun _ => Or.inr rfl

/-- `XmppClient::Process`. -/
theorem Begun.process (h : Begun w p) : Left w p (p.process w) := by
  have hresult : ∀ result, result ≠ .next .done → result ≠ .next .error →
      (p.connect_ = .succeeded → result = .next .done ∨ result = .blocked) →
      Left w p (p, [.inl (.processed result)]) := by
    intro result hd he hup
    refine Left.snoc [] rfl h.global (List.forall_mem_nil _) ?_ rfl id id
    exact h.result (fun hr => absurd hr hd) he hup
  unfold ClientSide.process
  split
  · rename_i hs
    refine hresult _ nofun nofun fun hc => ?_
    rw [h.unconnected (by rw [hs]; exact nofun)] at hc
    cases hc
  · rename_i hs
    exact h.processStart hs _
  · rename_i hs
    exact h.processTokenLogin hs
  · rename_i hs
    exact h.processStartXmppLogin hs
  · exact h.processResponse
  · exact hresult _ nofun nofun fun _ => Or.inr rfl
  · exact hresult _ nofun nofun fun _ => Or.inr rfl

/-- `Task::Step`, where the runner comes to a task that is not blocked. -/
theorem ClientGlobal.step (hg : ClientGlobal w p) (hbusy : ¬p.task.busy_ = true)
    (hclosed : w.eng.state = .closed → p.signal_closed_ = true) : Left w p (p.step w) := by
  have hquiet : ∀ q, SameLife p q → Left w p (q, []) := fun q hq =>
    ⟨hg.same hg.stays hq, List.forall_mem_nil _, List.Pairwise.nil,
      (fun hc => by rw [hq.connect_]; exact hc), hq.ending⟩
  unfold ClientSide.step
  split_ifs with hdone herror
  · exact hquiet _ ⟨rfl, rfl, rfl, rfl, rfl, rfl, rfl, rfl, rfl, id⟩
  · exact absurd (hg.errorDone herror) hdone
  · have hrunning : p.connect_ ≠ .running := fun hr => hbusy (hg.running hr).2
    have hbegun : Begun w (p.setTask { p.task with busy_ := true }) :=
      { global :=
          { hg with
            idle := fun hd => absurd hd hdone
            ownEnd := fun hd => absurd hd hdone
            running := fun hr => absurd hr hrunning
            progress := fun hc => (hg.progress hc).imp_right fun hp =>
              hp.imp_right fun hs => ⟨hs.1, rfl⟩
            early := fun hs => (hg.early hs).imp_right fun hn => ⟨hn.1, Or.inr rfl⟩ }
        busy := rfl
        undone := hdone
        connect := by
          rcases hc : p.connect_ with _ | _ | _
          · exact Or.inl hc
          · exact absurd hc hrunning
          · refine Or.inr ⟨hc, ?_⟩
            exact ((hg.progress hc).resolve_left hdone).resolve_right fun hs => hbusy hs.2
        early := fun hs =>
          (hg.early hs).resolve_right fun hn => hn.2.elim hdone hbusy
        closed := hclosed }
    have hleft := hbegun.process
    exact { hleft with }

/-- In `Step`, after `Process`. -/
theorem ResultLife.processed {result : ProcessResult} (h : ResultLife w p result)
    (hg : ClientGlobal w p) : Left w p (p.processed result) := by
  have hundone : ¬p.task.done_ = true := fun hd => by
    have hb := h.busy
    rw [hg.idle hd] at hb
    cases hb
  have hstop : ∀ x ∈ (Code.frames ([.inl .stop, .inl .blockAfterStop] : ClientCode) :
      List ClientFrame), isPlain x = true := List.all_eq_true.1 rfl
  have hplain : ∀ r : ClientSide × ClientCode, ClientGlobal w r.1 →
      (∀ x ∈ (r.2.frames : List ClientFrame), isPlain x = true) →
      (p.connect_ = .succeeded → r.1.connect_ = .succeeded) → (p.Ending → r.1.Ending) →
      Left w p r := fun r hr hcode hc he =>
    ⟨hr, fun x hx => ⟨(isPlain_spec (hcode x hx)).2.2 w r.1, Or.inl (hcode x hx)⟩,
      pairwise_plain hcode, hc, he⟩
  have hfinished : ∀ t : TaskFlags, t.done_ = true → t.busy_ = false →
      t.aborted_ = p.task.aborted_ → (t.aborted_ = true ∨ p.signal_closed_ = true) →
      ClientGlobal w (p.setTask t) := fun t hd hb ha hown =>
    { hg with
      idle := fun _ => hb
      errorDone := fun _ => hd
      ownEnd := fun _ => hown
      noSocket := fun _ => Or.inr hd
      running := fun hr => absurd hr h.settled
      progress := fun _ => Or.inl hd
      early := fun hs => (hg.early hs).imp_right fun hn => ⟨hn.1, Or.inl hd⟩ }
  have hgoes : ∀ t : TaskFlags, t.done_ = p.task.done_ → t.busy_ = false →
      t.aborted_ = p.task.aborted_ → t.error_ = p.task.error_ →
      (p.connect_ = .succeeded → t.state_ = .response) → result ≠ .next .error →
      ClientGlobal w (p.setTask t) := fun t hd hb ha he hstate hresult =>
    { hg with
      idle := fun _ => hb
      errorDone := fun herr => by
        have herr' : t.error_ = true := herr
        rw [he] at herr'
        exact absurd (hg.errorDone herr') hundone
      ownEnd := fun hdone => by
        have hdone' : t.done_ = true := hdone
        rw [hd] at hdone'
        exact absurd hdone' hundone
      noSocket := fun hs => by
        have hend := hg.noSocket hs
        unfold ClientSide.Ending at hend ⊢
        show t.aborted_ = true ∨ t.done_ = true
        rw [ha, hd]
        exact hend
      running := fun hr => absurd hr h.settled
      progress := fun hc => Or.inr (Or.inl (hstate hc))
      early := fun hs => Or.inl ((h.early hs).resolve_right hresult) }
  have hending : ∀ t : TaskFlags, t.aborted_ = p.task.aborted_ →
      (p.task.done_ = true → t.done_ = true) → p.Ending → (p.setTask t).Ending :=
    fun t ha hd he => he.imp (fun ha' => ha.trans ha') hd
  unfold ClientSide.processed
  dsimp only
  split_ifs with habort
  · -- the abort that had to wait
    have habort' : p.task.aborted_ = true := habort
    unfold ClientSide.abort
    split_ifs with hdone hbusy
    · exact absurd hdone hundone
    · exact absurd hbusy Bool.false_ne_true
    · exact hplain _ (hfinished _ rfl rfl habort'.symm (Or.inl rfl)) (List.all_eq_true.1 rfl) id
        fun _ => Or.inl rfl
  · have hup : ∀ s : ClientStep, s ≠ .done → s ≠ .error → result = .next s →
        p.connect_ = .succeeded → s = .response := by
      intro s hnd hne heq hc
      rcases h.up hc with hr | hr | hr | hr
      · rw [heq] at hr
        exact ProcessResult.next.inj hr
      · rw [heq] at hr
        exact absurd (ProcessResult.next.inj hr) hnd
      · rw [heq] at hr
        exact absurd (ProcessResult.next.inj hr) hne
      · rw [heq] at hr
        cases hr.1
    cases result with
    | blocked =>
      refine hplain _ (hgoes _ rfl rfl rfl rfl (fun hc => ?_) nofun) (List.forall_mem_nil _) id
        (hending _ rfl id)
      rcases h.up hc with hr | hr | hr | hr
      · cases hr
      · cases hr
      · cases hr
      · exact hr.2
    | next state =>
      cases state with
      | done =>
        exact hplain _ (hfinished _ rfl rfl rfl (h.done rfl)) hstop id
          (hending _ rfl fun _ => rfl)
      | error =>
        exact hplain _ (hfinished _ rfl rfl rfl (Or.inr (h.error rfl))) hstop id
          (hending _ rfl fun _ => rfl)
      | _ =>
        exact hplain _ (hgoes _ rfl rfl rfl rfl (hup _ nofun nofun rfl) nofun)
          (List.forall_mem_nil _) id (hending _ rfl id)

/-- After the socket's `Connect`. -/
theorem socketConnected_left (hg : ClientGlobal w p) (h : FrameLife w p (.layer .connectSocket))
    (result : Bool) : Left w p (p.socketConnected result) := by
  obtain ⟨hbusy, hstate, hconnect, hearly⟩ := h
  unfold ClientSide.socketConnected
  split_ifs with hup
  · refine Left.snoc [] rfl ?_ (List.forall_mem_nil _) ?_ rfl (fun _ => rfl) id
    · exact { hg with
        running := nofun
        up := fun _ => rfl
        progress := fun _ => Or.inr (Or.inr ⟨hstate, hbusy⟩)
        early := fun hs => Or.inl (hearly hs) }
    · exact ⟨hbusy, nofun, nofun, nofun, fun hs => Or.inl (hearly hs), fun _ => Or.inl rfl⟩
  · have hunup : p.connect_ ≠ .succeeded := fun hc =>
      hup (Bool.or_eq_true_iff.2 (Or.inr (decide_eq_true hc)))
    refine failed_left ?_ hbusy rfl hunup id
    exact { hg with
      running := nofun
      up := fun hs => absurd (hg.up hs) hunup
      progress := nofun
      early := fun hs => Or.inl (hearly hs) }

/-! ## 5. The steps of the socket -/

/-- A step of the client that the invariant does not see. -/
def Unseen (p : ClientSide) (r : ClientSide × ClientCode) : Prop :=
  SameLife p r.1 ∧ ∀ x ∈ (r.2.frames : List ClientFrame), isPlain x = true

theorem Unseen.nil (h : SameLife p q) : Unseen p (q, []) :=
  ⟨h, List.forall_mem_nil _⟩

theorem Unseen.code {code : ClientCode} (h : SameLife p q)
    (hcode : (code.frames : List ClientFrame).all isPlain = true) : Unseen p (q, code) :=
  ⟨h, List.all_eq_true.1 hcode⟩

theorem SameLife.socket (p : ClientSide) (s : BufferedSocket) : SameLife p (p.setSocket s) :=
  ⟨rfl, rfl, rfl, rfl, rfl, rfl, rfl, rfl, rfl, nofun⟩

theorem SameLife.task {t : TaskFlags} (h : t = { p.task with blocked_ := t.blocked_ }) :
    SameLife p (p.setTask t) := by
  rw [h]
  exact ⟨rfl, rfl, rfl, rfl, rfl, rfl, rfl, rfl, rfl, id⟩

/-- The statements of the client that the invariant sees. -/
def ClientStmt.seen : ClientStmt → Bool
  | .onStateChange _ | .processed _ | .resetSocket => true
  | _ => false

theorem exec_unseen (hl : l.seen = false) (h : p.exec ssl stream l = some r) : Unseen p r := by
  have hsame := SameLife.refl p
  cases l with
  | onWriteEvent =>
    obtain ⟨s, hs, rfl⟩ := Option.map_eq_some_iff.1 h
    split_ifs
    · exact .code hsame rfl
    · exact .nil hsame
  | onEventRead events err =>
    have h' : p.onEventRead events err = some r := h
    unfold ClientSide.onEventRead at h'
    split_ifs at h'
    · obtain ⟨s, hs, rfl⟩ := Option.map_eq_some_iff.1 h'
      exact .code hsame rfl
    · obtain rfl := Option.some.inj h'
      exact .code hsame rfl
  | onEventWrite events err =>
    have h' : p.onEventWrite events err = some r := h
    unfold ClientSide.onEventWrite at h'
    by_cases hbits : (events.write || events.close) = true
    · rw [if_pos hbits] at h'
      obtain ⟨s, hs, rfl⟩ := Option.map_eq_some_iff.1 h'
      split_ifs
      · exact .code hsame rfl
      · exact .nil hsame
      · exact .nil hsame
    · rw [if_neg hbits] at h'
      obtain rfl := Option.some.inj h'
      exact .nil hsame
  | onSocketRead =>
    obtain rfl := Option.some.inj h
    unfold ClientSide.onSocketRead
    split
    · exact .nil hsame
    · exact .code hsame rfl
  | write bytes =>
    obtain ⟨s, hs, rfl⟩ := Option.map_eq_some_iff.1 h
    cases stream with
    | true | false => exact .code (.socket p _) rfl
  | startTls =>
    have h' : p.startTls ssl = some r := h
    unfold ClientSide.startTls at h'
    split_ifs at h'
    · obtain ⟨s, hs, rfl⟩ := Option.map_eq_some_iff.1 h'
      split_ifs
      · exact .nil hsame
      · exact .code hsame rfl
    · obtain rfl := Option.some.inj h'
      exact .nil hsame
  | close =>
    obtain ⟨s, hs, rfl⟩ := Option.map_eq_some_iff.1 h
    split_ifs
    · exact .nil hsame
    · exact .code (.socket p _) rfl
    · exact .code hsame rfl
  | delivered =>
    obtain rfl := Option.some.inj h
    exact .nil ⟨rfl, rfl, rfl, rfl, rfl, rfl, rfl, rfl, rfl, id⟩
  | wake =>
    obtain rfl := Option.some.inj h
    unfold ClientSide.wake
    split_ifs
    · exact .nil hsame
    · exact .nil (.task rfl)
  | blockAfterStop =>
    obtain rfl := Option.some.inj h
    exact .nil (.task rfl)
  | onStateChange | processed | resetSocket => cases hl
  | _ => cases h

theorem resume_unseen (hl : l ≠ .connectSocket) (v : ClientAnswer) : Unseen p (p.resume l v) := by
  have hsame := SameLife.refl p
  cases l with
  | sending =>
    show Unseen p (p.sent v.result)
    unfold ClientSide.sent
    split
    · exact .code hsame rfl
    · split_ifs
      · exact .code (.socket p _) rfl
      · exact .nil hsame
  | streamWriting events err =>
    show Unseen p (p.streamWritten events err v.write)
    unfold ClientSide.streamWritten
    split
    · exact .nil hsame
    · exact .nil hsame
    · exact .code hsame rfl
    · split
      · exact .code hsame rfl
      · exact .code (.socket p _) rfl
  | reading =>
    show Unseen p (p.socketRead v.read)
    unfold ClientSide.socketRead
    split
    · exact .nil hsame
    · exact .nil hsame
    · exact .code hsame rfl
  | startingTls =>
    show Unseen p (p.tlsStarted v.result)
    unfold ClientSide.tlsStarted
    split
    · exact .code hsame rfl
    · split_ifs
      · exact .nil hsame
      · exact .nil (.socket p _)
  | closing =>
    show Unseen p (p.closed v.result)
    unfold ClientSide.closed
    split
    · exact .code hsame rfl
    · split_ifs
      · exact .code (.socket p _) rfl
      · exact .nil hsame
  | closingStream =>
    show Unseen p p.streamClosed
    unfold ClientSide.streamClosed
    split <;> exact .code hsame rfl
  | connectSocket => exact absurd rfl hl
  | _ => exact .nil hsame

/-- A report by which the transport comes up. -/
def TransportEvent.comesUp : TransportEvent → Bool
  | .onConnectEvent => true
  | .onEvent events _ => events.open_
  | _ => false

/-- A report of the transport: unseen, or the transport comes up and the engine is to be
connected. -/
theorem onTransport_cases (ssl stream : Bool) (s : BufferedSocket) (e : TransportEvent) :
    Unseen p (p.onTransport ssl stream s e) ∨
      (e.comesUp = true ∧ ∃ q code, SameLife p q ∧
        p.onTransport ssl stream s e = ({ q with connect_ := .succeeded }, .inr .connect :: code) ∧
        ∀ x ∈ (Code.frames code : List ClientFrame), isPlain x = true) := by
  have hsame := SameLife.refl p
  cases e with
  | onReadEvent | onWriteEvent | onCloseEvent => cases stream <;> exact Or.inl (.code hsame rfl)
  | onConnectEvent =>
    unfold ClientSide.onTransport
    dsimp only
    split_ifs
    · exact Or.inl (.nil hsame)
    · unfold ClientSide.onConnectEvent
      split_ifs
      · exact Or.inl (.code (.socket p _) rfl)
      · exact Or.inr ⟨rfl, _, [], .socket p _, rfl, fun x hx => nomatch hx⟩
  | onEvent events err =>
    unfold ClientSide.onTransport
    dsimp only
    split_ifs
    · unfold ClientSide.onEvent
      split_ifs with hopen htls
      · exact Or.inl (.code (.socket p _) rfl)
      · refine Or.inr ⟨hopen, _, [.inl (.onEventRead events err)], .socket p _, rfl, ?_⟩
        exact List.all_eq_true.1 rfl
      · exact Or.inl (.code hsame rfl)
    · exact Or.inl (.nil hsame)

/-! ## 6. What was told stays told -/

theorem exec_signal (h : p.exec ssl stream l = some r) (hp : p.signal_closed_ = true) :
    r.1.signal_closed_ = true := by
  cases l with
  | onStateChange state =>
    obtain rfl := Option.some.inj h
    unfold ClientSide.onStateChange
    split_ifs
    · exact ensureClosed_signal p
    · exact hp
  | processed result =>
    obtain rfl := Option.some.inj h
    show (p.processed result).1.signal_closed_ = true
    unfold ClientSide.processed
    dsimp only
    split_ifs
    · exact (abort_signal _).trans hp
    · split <;> exact hp
  | resetSocket =>
    obtain rfl := Option.some.inj h
    exact hp
  | _ => exact (exec_unseen rfl h).1.signal_closed_.trans hp

theorem resume_signal (v : ClientAnswer) (hp : p.signal_closed_ = true) :
    (p.resume l v).1.signal_closed_ = true := by
  by_cases hl : l = .connectSocket
  · rw [hl]
    show (p.socketConnected v.connected).1.signal_closed_ = true
    unfold ClientSide.socketConnected
    split_ifs
    · exact hp
    · exact ensureClosed_signal _
  · exact (resume_unseen hl v).1.signal_closed_.trans hp

theorem step_signal (hp : p.signal_closed_ = true) : (p.step w).1.signal_closed_ = true := by
  unfold ClientSide.step
  split_ifs
  · exact hp
  · exact hp
  · unfold ClientSide.process
    split
    · exact hp
    · unfold ClientSide.processStart
      split_ifs
      · exact hp
      · split <;> exact hp
    · unfold ClientSide.processTokenLogin
      split_ifs
      · exact hp
      · split <;> first | exact hp | exact ensureClosed_signal _
    · unfold ClientSide.processStartXmppLogin
      split_ifs <;> exact hp
    · unfold ClientSide.processResponse
      split_ifs <;> exact hp
    · exact hp
    · exact hp

theorem enter_runTasks : p.enter ssl stream w .runTasks =
    if p.started && !p.task.blocked_ && !p.task.busy_ then p.step w else (p, []) := rfl

theorem enter_authDone {answer : PreAuth} :
    p.enter ssl stream w (.authDone answer) = match p.pre_auth_ with
      | some _ => ({ p with pre_auth_ := some answer }, [.inl .wake])
      | none => (p, []) := rfl

theorem enter_transport {e : TransportEvent} :
    p.enter ssl stream w (.transport e) = match p.socket_ with
      | some s => p.onTransport ssl stream s e
      | none => (p, []) := rfl

theorem enter_signal (e : ClientInput) (hp : p.signal_closed_ = true) :
    (p.enter ssl stream w e).1.signal_closed_ = true := by
  cases e with
  | start | engine => exact hp
  | runTasks =>
    rw [enter_runTasks]
    split_ifs
    · exact step_signal hp
    · exact hp
  | disconnect =>
    show p.disconnect.1.signal_closed_ = true
    unfold ClientSide.disconnect
    split_ifs
    · exact hp
    · exact (abort_signal p).trans hp
  | abort => exact (abort_signal p).trans hp
  | authDone answer =>
    rw [enter_authDone]
    split <;> exact hp
  | transport e =>
    rw [enter_transport]
    split
    · rename_i s hs
      rcases onTransport_cases ssl stream s e with hun | ⟨-, q, code, hq, heq, -⟩
      · exact hun.1.signal_closed_.trans hp
      · rw [heq]
        exact hq.signal_closed_.trans hp
    · exact hp

end Steps

/-! ## 7. The whole -/

/-- The rules of the run. The engine's session handler is the client's, and it is the client
that connects the engine. The transport comes up only where the socket's `Connect` was called.
The runner of the tasks is run by the message loop, not from inside a function of the engine. -/
def ClientRules : Rules (World × ClientSide) ClientFrame ClientInput := fun c e =>
  match e with
  | .engine m => isPlain (.call m) = true
  | .transport e => e.comesUp = true → c.state.2.connect_ ≠ .none
  | .runTasks => inners c.control = []
  | _ => True

instance : ∀ (c : JointConf) (e : ClientInput), Decidable (ClientRules c e)
  | _, .engine m => inferInstanceAs (Decidable (isPlain (.call m) = true))
  | c, .transport e => inferInstanceAs (Decidable (e.comesUp = true → c.state.2.connect_ ≠ .none))
  | c, .runTasks => decidable_of_iff ((inners c.control).isEmpty = true) List.isEmpty_iff
  | _, .start | _, .disconnect | _, .abort | _, .authDone _ => .isTrue trivial

/-- Will see to it that the session handler is told that the engine is closed. -/
def Stmt.tells : Stmt → Bool
  | .callback (.onStateChange state) => state = .closed
  | s => s.isScope

/-- What a closed engine has not told, it is about to tell. -/
def Told (c : JointConf) : Prop :=
  c.state.1.eng.state = .closed → c.state.2.signal_closed_ = true ∨
    ∃ s ∈ inners c.control, s.tells = true

/-- What has to be true when a statement runs: `Disconnect` resets the socket of a closed
engine, and a session handler that was told `STATE_CLOSED` has told it. -/
def MayRun (w : World) (p : ClientSide) : ClientFrame → Prop
  | .layer .resetSocket => w.eng.state = .closed
  | .serving (.callback (.onStateChange .closed)) => p.signal_closed_ = true
  | _ => True

/-- The statements that see to that. -/
def Enables : ClientFrame → ClientFrame → Prop
  | .call .disconnect, .layer .resetSocket => True
  | .layer (.onStateChange .closed), .serving (.callback (.onStateChange .closed)) => True
  | _, _ => False

/-- What is true of the client and its engine, whatever is in progress. -/
structure ClientRun (c : JointConf) : Prop where
  inv : clientInv.Holds c
  ready : Primed (MayRun c.state.1 c.state.2) Enables c.control
  told : Told c

section Whole

variable {ssl stream : Bool} {w w' : World} {p p' : ClientSide}

variable {x l : ClientFrame} {code : ClientCode} {r : ClientSide × ClientCode}
  {rest : List ClientFrame} {a : Act ClientInput ClientAnswer} {c c' : JointConf}

theorem MayRun.mono (h : MayRun w p x) (hw : w.eng.state = .closed → w'.eng.state = .closed)
    (hp : p.signal_closed_ = true → p'.signal_closed_ = true) : MayRun w' p' x := by
  unfold MayRun at h ⊢
  split at h
  · exact hw h
  · exact hp h
  · exact trivial

/-- The engine's own statements may always run. -/
theorem mayRun_inner (l : List Stmt) :
    ∀ x ∈ (l.map .inner : List ClientFrame), MayRun w p x := by
  intro x hx
  obtain ⟨s, -, rfl⟩ := List.mem_map.1 hx
  exact trivial

/-- Nor does the code of the client have to wait, except for `ResetSocket`. -/
theorem mayRun_frames (h : ∀ x ∈ (code.frames : List ClientFrame), x ≠ .layer .resetSocket) :
    ∀ x ∈ (code.frames : List ClientFrame), MayRun w p x := by
  intro x hx
  obtain ⟨y, -, rfl⟩ := List.mem_map.1 hx
  cases y with
  | inl l =>
    cases l with
    | resetSocket => exact absurd rfl (h _ hx)
    | _ => exact trivial
  | inr m => exact trivial

/-- A statement of the engine. -/
theorem exec_stays {x : Stmt} {rest : List Stmt} {r : World × List Stmt}
    (h : Reachable ⟨w, x :: rest⟩) (hr : w.exec x = some r) (hg : ClientGlobal w p) :
    EngineStays p w r.1 where
  closed := (exec_frame hr).forward.closed
  up hup := by
    cases hw : w.eng.state with
    | none =>
      have hrank : EngineState.start.rank ≤ w.eng.state.rank := state_ne_none h
      rw [hw] at hrank
      exact absurd hrank (by decide)
    | start =>
      rw [exec_start h hr hw] at hup
      rcases hup with hup | hup <;> cases hup
    | opening => exact hg.up (Or.inl hw)
    | «open» => exact hg.up (Or.inr hw)
    | closed =>
      rw [(exec_frame hr).forward.closed hw] at hup
      rcases hup with hup | hup <;> cases hup
  session := (exec_frame hr).session_handler

/-- A call of the engine. -/
theorem enter_stays {m : Call} (h : FrameLife w p (.call m)) (hg : ClientGlobal w p) :
    EngineStays p w (w.enter m).1 where
  closed := (entry_frame (enter_entry w m)).forward.closed
  up hup := by
    by_cases hm : m = .connect
    · rw [hm] at h
      exact h
    · rcases enter_state (w := w) hm with heq | ⟨hclosed, -⟩
      · rw [heq] at hup
        exact hg.up hup
      · rw [hclosed] at hup
        rcases hup with hup | hup <;> cases hup
  session := enter_session fun b hm => by
    rw [hm] at h
    exact h

theorem isPlain_inner {s : Stmt} (h : ∀ state, s ≠ .callback (.onStateChange state)) :
    isPlain (.inner s) = true := by
  cases s with
  | callback cb =>
    cases cb with
    | onStateChange state => exact absurd rfl (h state)
    | _ => rfl
  | _ => rfl

theorem inner_plain {l : List Stmt}
    (h : ∀ s ∈ l, ∀ state, s ≠ .callback (.onStateChange state)) :
    ∀ x ∈ (l.map .inner : List ClientFrame), isPlain x = true := by
  intro x hx
  obtain ⟨s, hs, rfl⟩ := List.mem_map.1 hx
  exact isPlain_inner (h s hs)

theorem resume_plain (x : Stmt) (v : Bool) :
    ∀ y ∈ ((World.resume x v).map .inner : List ClientFrame), isPlain y = true :=
  inner_plain fun s hs state heq => by
    have hinput := resume_input hs
    rw [heq] at hinput
    cases hinput

/-- Under the outside, nothing is about to be told. -/
theorem told_under {f : ClientFrame} (hf : (xmppClient ssl stream).foreign f = true)
    (hl : l = f ∨ clientInv.below f l) : toldState l = none := by
  rcases hl with rfl | hl
  · cases l with
    | inner s =>
      have hs := (Bool.and_eq_true_iff.1 hf).2
      cases s with
      | callback cb => cases cb <;> first | rfl | exact absurd hs Bool.false_ne_true
      | _ => rfl
    | layer l => cases l <;> first | rfl | exact absurd hf Bool.false_ne_true
    | _ => rfl
  · exact hl.1

/-- What a part of `Process` leaves goes on the stack. -/
theorem Left.preserved {under : ClientFrame → Prop} (h : Left w p r)
    (hund : ∀ l, FrameLife w p l → under l → toldState l = none ∧ processing l = false) :
    clientInv.Preserved (w, p) (w, r.1) r.2.frames under where
  global := h.global
  frame x hx := (h.frame x hx).1
  below := h.below
  rest l hl hu := by
    obtain ⟨htold, hproc⟩ := hund l hl hu
    refine ⟨hl.mono htold h.connect h.ending fun hp => ?_, fun _ _ => ⟨htold, fun _ => hproc⟩⟩
    rw [hproc] at hp
    cases hp

/-- A statement of the engine keeps the invariant. -/
theorem inv_inner {x : Stmt} {r : World × List Stmt} (hreach : Reachable ⟨w, x :: inners rest⟩)
    (h : clientInv.Holds ⟨(w, p), .inner x :: rest⟩) (hr : w.exec x = some r) :
    clientInv.Holds ⟨(r.1, p), r.2.map .inner ++ rest⟩ := by
  have hg : ClientGlobal w p := h.global
  have hstays := exec_stays hreach hr hg
  by_cases hnote : ∃ state, Stmt.callback (.onStateChange state) ∈ r.2
  · obtain ⟨state, hmem⟩ := hnote
    obtain ⟨hpush, hstate, hstart⟩ := exec_notify hreach hr hmem
    rw [hpush]
    refine h.replace ⟨hg.same hstays (.refl p), fun y hy => ?_, List.pairwise_singleton _ _,
      fun l hl hu => ⟨FrameLife.same hl hu.1 hstays (.refl p), fun y hy => ?_⟩⟩
    · rw [List.mem_singleton.1 hy]
      exact ⟨hstate, hstart⟩
    · rw [List.mem_singleton.1 hy]
      exact ⟨hu.1, nofun⟩
  · refine h.replace (plain_preserved hg hstays (.refl p) ?_ fun l hl => hl.1)
    exact inner_plain fun s hs state heq => hnote ⟨state, heq ▸ hs⟩

/-- What the client serves: what it is told of the state, or with plain code. -/
theorem serves_cases {x : Stmt} (hs : ClientSide.serves x = some code) :
    (∃ state, x = .callback (.onStateChange state) ∧ code = [.inl (.onStateChange state)]) ∨
      (∀ w p, MayRun w p (.serving x)) ∧ ∀ y ∈ (code.frames : List ClientFrame), isPlain y = true := by
  cases x with
  | callback cb =>
    cases cb with
    | onStateChange state => exact Or.inl ⟨state, rfl, (Option.some.inj hs).symm⟩
    | writeOutput | startTls | closeConnection =>
      obtain rfl := Option.some.inj hs
      exact Or.inr ⟨fun _ _ => trivial, List.all_eq_true.1 rfl⟩
    | _ => cases hs
  | _ => cases hs

/-- A handler that the client serves. -/
theorem inv_serve {x : Stmt} (h : clientInv.Holds ⟨(w, p), .inner x :: rest⟩)
    (hs : ClientSide.serves x = some code) :
    clientInv.Holds ⟨(w, p), code.frames ++ .serving x :: rest⟩ := by
  have hg : ClientGlobal w p := h.global
  rcases serves_cases hs with ⟨state, rfl, rfl⟩ | ⟨-, hcode⟩
  · have hframe : FrameLife w p (.inner (.callback (.onStateChange state))) :=
      h.frame _ List.mem_cons_self
    have hpush : clientInv.Preserved (w, p) (w, p)
        [.layer (.onStateChange state), .serving (.callback (.onStateChange state))]
        (fun l => clientInv.below (.inner (.callback (.onStateChange state))) l) := by
      refine ⟨hg, fun y hy => ?_, ?_, fun l hl hu => ⟨hl, fun y hy => ⟨hu.1, ?_⟩⟩⟩
      · rcases List.mem_cons.1 hy with rfl | hy
        · exact hframe
        · rw [List.mem_singleton.1 hy]
          exact trivial
      · refine List.pairwise_cons.2 ⟨fun y hy => ?_, List.pairwise_singleton _ _⟩
        rw [List.mem_singleton.1 hy]
        exact ⟨rfl, nofun⟩
      · rcases List.mem_cons.1 hy with rfl | hy
        · exact nofun
        · rw [List.mem_singleton.1 hy]
          exact nofun
    exact h.replace hpush
  · have hpush : ∀ y ∈ (code.frames ++ [.serving x] : List ClientFrame), isPlain y = true := by
      intro y hy
      rcases List.mem_append.1 hy with hy | hy
      · exact hcode y hy
      · rw [List.mem_singleton.1 hy]
        rfl
    have hholds := h.replace (plain_preserved hg hg.stays (.refl p) hpush fun l hl => hl.1)
    rw [List.append_assoc] at hholds
    exact hholds

/-- A `Process` in progress when `STATE_CLOSED` is told. -/
theorem ensureClosed_process (hl : processing l = true) (h : FrameLife w p l)
    (hclosed : w.eng.state = .closed) : FrameLife w p.ensureClosed.1 l := by
  obtain ⟨htask, hconnect, -⟩ := ensureClosed_frame p
  rcases processing_cases hl with rfl | ⟨result, rfl⟩
  · obtain ⟨hbusy, hstate, hc, -⟩ := h
    exact ⟨by rw [htask]; exact hbusy, by rw [htask]; exact hstate, by rw [hconnect]; exact hc,
      fun _ => hclosed⟩
  · have hr : ResultLife w p result := h
    exact
      { busy := by rw [htask]; exact hr.busy
        settled := by rw [hconnect]; exact hr.settled
        done := fun _ => Or.inr (ensureClosed_signal p)
        error := fun _ => ensureClosed_signal p
        early := fun _ => Or.inl hclosed
        up := by rw [hconnect, htask]; exact hr.up }

/-- `STATE_CLOSED` is told. -/
theorem inv_told (h : clientInv.Holds ⟨(w, p), .layer (.onStateChange .closed) :: rest⟩)
    (hclosed : w.eng.state = .closed) :
    clientInv.Holds ⟨(w, p.ensureClosed.1),
      (Code.frames (p.ensureClosed.2 ++ [.inl .wake]) : List ClientFrame) ++ rest⟩ := by
  have hg : ClientGlobal w p := h.global
  have hplain : ∀ x ∈ (Code.frames (p.ensureClosed.2 ++ [.inl .wake]) : List ClientFrame),
      isPlain x = true := by
    intro x hx
    have hx' : x ∈ (p.ensureClosed.2.frames ++ [.layer .wake] : List ClientFrame) := by
      rw [Code.frames, List.map_append] at hx
      exact hx
    rcases List.mem_append.1 hx' with hx | hx
    · exact ensureClosed_plain p x hx
    · rw [List.mem_singleton.1 hx]
      rfl
  obtain ⟨htask, hconnect, -⟩ := ensureClosed_frame p
  refine h.replace (preserved_of_plain (hg.ensureClosed (Or.inl hclosed)) hplain (fun l hu => hu.1)
    fun l hl htold => hl.mono htold (fun hc => hconnect.trans hc) (fun he => ?_)
      fun hproc => ensureClosed_process hproc hl hclosed)
  unfold ClientSide.Ending
  rw [htask]
  exact he

/-- Another state is told. -/
theorem inv_changed {state : EngineState}
    (h : clientInv.Holds ⟨(w, p), .layer (.onStateChange state) :: rest⟩)
    (hlive : w.eng.state ≠ .none) (hclosed : state ≠ .closed) :
    clientInv.Holds ⟨(w, { p with signalled := p.signalled ++ [state] }),
      [.layer (.stateChanged state), .layer .wake] ++ rest⟩ := by
  have hg : ClientGlobal w p := h.global
  obtain ⟨hstate, hstart⟩ : state = w.eng.state ∧ state ≠ .start := h.frame _ List.mem_cons_self
  have hplain : ∀ x ∈ ([.layer (.stateChanged state), .layer .wake] : List ClientFrame),
      isPlain x = true := List.all_eq_true.1 rfl
  have hup : p.connect_ = .succeeded := by
    refine hg.up ?_
    rw [hstate] at hclosed hstart
    cases hw : w.eng.state with
    | none => exact absurd hw hlive
    | start => exact absurd hw hstart
    | opening => exact Or.inl rfl
    | «open» => exact Or.inr rfl
    | closed => exact absurd hw hclosed
  -- the engine was not closed, and the login has not failed
  have huntold : ¬p.signal_closed_ = true := fun hs => by
    rcases hg.early hs with hc | ⟨hn, -⟩
    · exact hclosed (hstate.trans hc)
    · rw [hup] at hn
      cases hn
  have hglobal : ClientGlobal w { p with signalled := p.signalled ++ [state] } :=
    { hg with
      signal := by
        refine ⟨fun hs => absurd hs huntold, fun hmem => ?_⟩
        rcases List.mem_append.1 hmem with hmem | hmem
        · exact hg.signal.2 hmem
        · exact absurd (List.mem_singleton.1 hmem).symm hclosed
      once := by
        refine List.pairwise_append.2 ⟨hg.once, List.pairwise_singleton _ _, fun a ha _ _ hc => ?_⟩
        rw [hc] at ha
        exact huntold (hg.signal.2 ha) }
  exact h.replace (preserved_of_plain hglobal hplain (fun l hu => hu.1) fun l hl htold =>
    hl.mono htold id id fun hproc => hl.process hproc rfl rfl rfl)

/-- `Disconnect` has closed the engine, and resets the socket. -/
theorem inv_resetSocket (h : clientInv.Holds ⟨(w, p), .layer .resetSocket :: rest⟩)
    (hclosed : w.eng.state = .closed) :
    clientInv.Holds ⟨(w, { p with socket_ := none, disconnected := true }), rest⟩ := by
  have hg : ClientGlobal w p := h.global
  have hend : p.Ending := h.frame _ List.mem_cons_self
  have hglobal : ClientGlobal w { p with socket_ := none, disconnected := true } :=
    { hg with
      noSocket := fun _ => hend
      disconnected := fun _ => hclosed }
  have hpush : clientInv.Preserved (w, p) (w, { p with socket_ := none, disconnected := true }) []
      (fun l => clientInv.below (.layer .resetSocket) l) :=
    preserved_of_plain hglobal (List.forall_mem_nil _) (fun l hu => hu.1) fun l hl htold =>
      hl.mono htold id id fun hproc => hl.process hproc rfl rfl rfl
  exact h.replace hpush

/-- A statement of the client. -/
theorem inv_layer {l : ClientStmt} (h : clientInv.Holds ⟨(w, p), .layer l :: rest⟩)
    (hlive : w.eng.state ≠ .none) (hmay : MayRun w p (.layer l))
    (hr : p.exec ssl stream l = some r) : clientInv.Holds ⟨(w, r.1), r.2.frames ++ rest⟩ := by
  have hg : ClientGlobal w p := h.global
  have hframe : FrameLife w p (.layer l) := h.frame _ List.mem_cons_self
  cases hl : l.seen with
  | false =>
    have hun := exec_unseen hl hr
    exact h.replace (plain_preserved hg hg.stays hun.1 hun.2 fun l hl => hl.1)
  | true =>
    cases l with
    | onStateChange state =>
      obtain ⟨hstate, -⟩ := hframe
      obtain rfl := Option.some.inj hr
      unfold ClientSide.onStateChange
      split_ifs with hclosed
      · rw [hclosed] at h hstate
        exact inv_told h hstate.symm
      · exact inv_changed h hlive hclosed
    | processed result =>
      obtain rfl := Option.some.inj hr
      have hleft : Left w p (p.processed result) := ResultLife.processed hframe hg
      exact h.replace (hleft.preserved fun l hl hu => ⟨hu.1, hu.2 rfl⟩)
    | resetSocket =>
      obtain rfl := Option.some.inj hr
      exact inv_resetSocket h hmay
    | _ => cases hl

/-- An answer that the client waited for. -/
theorem inv_resumed {l : ClientStmt} (v : ClientAnswer)
    (h : clientInv.Holds ⟨(w, p), .layer l :: rest⟩) :
    clientInv.Holds ⟨(w, (p.resume l v).1), (p.resume l v).2.frames ++ rest⟩ := by
  have hg : ClientGlobal w p := h.global
  by_cases hl : l = .connectSocket
  · rw [hl] at h ⊢
    have hframe : FrameLife w p (.layer .connectSocket) := h.frame _ List.mem_cons_self
    have hleft := socketConnected_left hg hframe v.connected
    exact h.replace (hleft.preserved fun l _ hu => ⟨hu.1, hu.2 rfl⟩)
  · have hun : Unseen p (p.resume l v) := resume_unseen hl v
    exact h.replace (plain_preserved hg hg.stays hun.1 hun.2 fun l hu => hu.1)

section Event

variable {c : JointConf}

/-- An event that the invariant does not see. -/
theorem inv_unseen {q : ClientSide} {push : List ClientFrame} (h : clientInv.Holds c)
    (hw : c.waiting (xmppClient ssl stream) = true) (hq : SameLife c.state.2 q)
    (hpush : ∀ x ∈ push, isPlain x = true) :
    clientInv.Holds ⟨(c.state.1, q), push ++ c.control⟩ := by
  have hg : ClientGlobal c.state.1 c.state.2 := h.global
  exact h.push hw (plain_preserved hg hg.stays hq hpush fun l ⟨f, hf, _, hl⟩ => told_under hf hl)

/-- The runner comes to the task. -/
theorem inv_runTasks (h : ClientRun c) (hw : c.waiting (xmppClient ssl stream) = true)
    (hrule : inners c.control = []) (hbusy : ¬c.state.2.task.busy_ = true) :
    clientInv.Holds ⟨(c.state.1, (c.state.2.step c.state.1).1),
      (c.state.2.step c.state.1).2.frames ++ c.control⟩ := by
  have hg : ClientGlobal c.state.1 c.state.2 := h.inv.global
  have hclosed : c.state.1.eng.state = .closed → c.state.2.signal_closed_ = true := fun hc =>
    (h.told hc).resolve_right fun ⟨s, hs, _⟩ => by
      rw [hrule] at hs
      cases hs
  have hleft := hg.step hbusy hclosed
  refine h.inv.push hw (hleft.preserved fun l hl ⟨f, hf, _, hu⟩ => ⟨told_under hf hu, ?_⟩)
  exact Bool.eq_false_iff.2 fun hproc => hbusy (processing_busy hproc hl)

/-- `Abort`, and what follows it in `Disconnect`. -/
theorem inv_abort (code : ClientCode) (h : clientInv.Holds c)
    (hw : c.waiting (xmppClient ssl stream) = true)
    (hcode : code = [] ∨ code = [.inr .disconnect, .inl .resetSocket]) :
    clientInv.Holds ⟨(c.state.1, c.state.2.abort.1),
      (Code.frames (c.state.2.abort.2 ++ code) : List ClientFrame) ++ c.control⟩ := by
  have hg : ClientGlobal c.state.1 c.state.2 := h.global
  have hunprocessing : ∀ x ∈ (Code.frames (c.state.2.abort.2 ++ code) : List ClientFrame),
      FrameLife c.state.1 c.state.2.abort.1 x ∧ toldState x = none ∧ processing x = false := by
    intro x hx
    have hx' : x ∈ (c.state.2.abort.2.frames ++ code.frames : List ClientFrame) := by
      rw [Code.frames, List.map_append] at hx
      exact hx
    rcases List.mem_append.1 hx' with hx | hx
    · have hplain := isPlain_spec (abort_plain _ x hx)
      exact ⟨hplain.2.2 _ _, hplain.1, hplain.2.1⟩
    · rcases hcode with rfl | rfl
      · cases hx
      · rcases List.mem_cons.1 hx with rfl | hx
        · exact ⟨trivial, rfl, rfl⟩
        · rw [List.mem_singleton.1 hx]
          exact ⟨abort_ending _, rfl, rfl⟩
  refine h.push hw ⟨hg.abort, fun x hx => (hunprocessing x hx).1, ?_, fun l hl hu => ?_⟩
  · refine List.pairwise_of_forall_mem_list fun x hx l hl => ?_
    exact ⟨(hunprocessing l hl).2.1, fun _ => (hunprocessing l hl).2.2⟩
  · obtain ⟨f, hf, -, hu⟩ := hu
    have htold := told_under hf hu
    refine ⟨hl.mono htold (fun hc => ?_) (fun _ => abort_ending _)
      fun hproc => abort_process hproc hl hg, fun x hx => ⟨htold, fun hproc => ?_⟩⟩
    · rw [abort_connect]
      exact hc
    · rw [(hunprocessing x hx).2.2] at hproc
      cases hproc

/-- The transport comes up: the engine will be connected. -/
theorem inv_comesUp {q : ClientSide} {code : ClientCode} (h : clientInv.Holds c)
    (hw : c.waiting (xmppClient ssl stream) = true) (hq : SameLife c.state.2 q)
    (hstarted : c.state.2.connect_ ≠ .none)
    (hcode : ∀ x ∈ (Code.frames code : List ClientFrame), isPlain x = true) :
    clientInv.Holds ⟨(c.state.1, { q with connect_ := .succeeded }),
      (Code.frames (.inr .connect :: code) : List ClientFrame) ++ c.control⟩ := by
  have hg : ClientGlobal c.state.1 c.state.2 := h.global
  have hgq : ClientGlobal c.state.1 q := hg.same hg.stays hq
  have hstarted' : q.connect_ ≠ .none := by
    rw [hq.connect_]
    exact hstarted
  have hglobal : ClientGlobal c.state.1 { q with connect_ := .succeeded } :=
    { hgq with
      running := nofun
      up := fun _ => rfl
      progress := fun _ => by
        cases hc : q.connect_ with
        | none => exact absurd hc hstarted'
        | running => exact Or.inr (Or.inr (hgq.running hc))
        | succeeded => exact hgq.progress hc
      early := fun hs => Or.inl ((hgq.early hs).resolve_right fun hn => hstarted' hn.1) }
  refine h.push hw ⟨hglobal, fun x hx => ?_, ?_, fun l hl hu => ?_⟩
  · rcases List.mem_cons.1 hx with rfl | hx
    · rfl
    · exact (isPlain_spec (hcode x hx)).2.2 _ _
  · refine List.pairwise_cons.2 ⟨fun l hl => ?_, pairwise_plain hcode⟩
    exact ⟨(isPlain_spec (hcode l hl)).1, fun _ => (isPlain_spec (hcode l hl)).2.1⟩
  · obtain ⟨f, hf, -, hu⟩ := hu
    have htold := told_under hf hu
    have hlq : FrameLife c.state.1 q l := hl.same htold hg.stays hq
    refine ⟨hlq.mono htold (fun _ => rfl) id fun hproc => ?_, fun x hx => ⟨htold, fun hproc => ?_⟩⟩
    · rcases processing_cases hproc with rfl | ⟨result, rfl⟩
      · obtain ⟨hbusy, hstate, -, hearly⟩ := hlq
        exact ⟨hbusy, hstate, nofun, hearly⟩
      · have hr : ResultLife c.state.1 q result := hlq
        exact
          { hr with
            settled := nofun
            up := fun _ => by
              cases hc : q.connect_ with
              | none => exact absurd hc hstarted'
              | running => exact absurd hc hr.settled
              | succeeded => exact hr.up hc }
    · rcases List.mem_cons.1 hx with rfl | hx
      · cases hproc
      · rw [(isPlain_spec (hcode x hx)).2.1] at hproc
        cases hproc

/-- An event. -/
theorem inv_event {e : ClientInput} (h : ClientRun c)
    (hw : c.waiting (xmppClient ssl stream) = true) (hrule : ClientRules c e) :
    clientInv.Holds ⟨(c.state.1, (c.state.2.enter ssl stream c.state.1 e).1),
      (c.state.2.enter ssl stream c.state.1 e).2.frames ++ c.control⟩ := by
  have hsame := SameLife.refl c.state.2
  have hnil : ∀ x ∈ ([] : List ClientFrame), isPlain x = true := List.forall_mem_nil _
  cases e with
  | start =>
    exact inv_unseen h.inv hw ⟨rfl, rfl, rfl, rfl, rfl, rfl, rfl, rfl, rfl, id⟩ hnil
  | runTasks =>
    rw [enter_runTasks]
    split_ifs with hrun
    · refine inv_runTasks h hw hrule fun hbusy => ?_
      rw [hbusy] at hrun
      exact absurd (Bool.and_eq_true_iff.1 hrun).2 Bool.false_ne_true
    · exact inv_unseen h.inv hw hsame hnil
  | disconnect =>
    unfold ClientSide.enter ClientSide.disconnect
    dsimp only
    split_ifs
    · exact inv_unseen h.inv hw hsame hnil
    · exact inv_abort _ h.inv hw (Or.inr rfl)
  | abort =>
    have habort := inv_abort [] h.inv hw (Or.inl rfl)
    rw [List.append_nil] at habort
    exact habort
  | authDone answer =>
    cases hpre : c.state.2.pre_auth_ with
    | some auth =>
      simp only [ClientSide.enter, hpre]
      exact inv_unseen h.inv hw ⟨rfl, rfl, rfl, rfl, rfl, rfl, rfl, rfl, rfl, id⟩
        (List.all_eq_true.1 rfl)
    | none =>
      simp only [ClientSide.enter, hpre]
      exact inv_unseen h.inv hw hsame hnil
  | engine m =>
    refine inv_unseen h.inv hw hsame fun x hx => ?_
    rw [List.mem_singleton.1 hx]
    exact hrule
  | transport e =>
    cases hs : c.state.2.socket_ with
    | some s =>
      simp only [ClientSide.enter, hs]
      rcases onTransport_cases (p := c.state.2) ssl stream s e with
        hun | ⟨hup, q, code, hq, heq, hcode⟩
      · exact inv_unseen h.inv hw hun.1 hun.2
      · rw [heq]
        exact inv_comesUp h.inv hw hq (hrule hup) hcode
    | none =>
      simp only [ClientSide.enter, hs]
      exact inv_unseen h.inv hw hsame hnil

end Event

/-- Every step keeps the invariant. -/
theorem step_inv (hreach : Reachable c.project) (h : ClientRun c) (ha : a.Allowed ClientRules c)
    (hs : OverStep engine (clientLayer ssl stream) c a c') : clientInv.Holds c' := by
  obtain ⟨⟨w, p⟩, control⟩ := c
  have hlive : w.eng.state ≠ .none := fun hw => by
    have hrank : EngineState.start.rank ≤ w.eng.state.rank := state_ne_none hreach
    rw [hw] at hrank
    exact absurd hrank (by decide)
  cases hs with
  | inner hc hf hr =>
    dsimp only at hc
    subst hc
    exact inv_inner hreach h.inv hr
  | serve hc hf hserve =>
    dsimp only at hc
    subst hc
    exact inv_serve h.inv hserve
  | @served x rest hc =>
    dsimp only at hc
    subst hc
    have hg : ClientGlobal w p := h.inv.global
    exact h.inv.replace (plain_preserved hg hg.stays (.refl p) (resume_plain x true)
      fun l hl => hl.1)
  | layer hc hf hr =>
    dsimp only at hc
    subst hc
    exact inv_layer h.inv hlive (h.ready.head _ rfl) hr
  | @call m rest hc =>
    dsimp only at hc
    subst hc
    have hg : ClientGlobal w p := h.inv.global
    have hframe : FrameLife w p (.call m) := h.inv.frame _ List.mem_cons_self
    refine h.inv.replace (plain_preserved hg (enter_stays hframe hg) (.refl p) ?_
      fun l hl => hl.1)
    exact inner_plain fun s hs state => (entry_frame (enter_entry w m)).called s hs _
  | event hw => exact inv_event h hw (ha _ rfl)
  | @returned x rest v hc hf hserve =>
    dsimp only at hc
    subst hc
    have hg : ClientGlobal w p := h.inv.global
    exact h.inv.replace (plain_preserved hg hg.stays (.refl p) (resume_plain x v.handled)
      fun l hl => hl.1)
  | @resumed l rest v hc hf =>
    dsimp only at hc
    subst hc
    exact inv_resumed v h.inv

/-- A closed engine stays closed, and what was told stays told. -/
theorem step_onward (hs : OverStep engine (clientLayer ssl stream) c a c') :
    (c.state.1.eng.state = .closed → c'.state.1.eng.state = .closed) ∧
      (c.state.2.signal_closed_ = true → c'.state.2.signal_closed_ = true) := by
  cases hs with
  | inner hc hf hr => exact ⟨(exec_frame hr).forward.closed, id⟩
  | serve | served | returned => exact ⟨id, id⟩
  | layer hc hf hr => exact ⟨id, exec_signal hr⟩
  | @call m rest hc => exact ⟨(entry_frame (enter_entry c.state.1 m)).forward.closed, id⟩
  | @event e hw => exact ⟨id, enter_signal e⟩
  | @resumed l rest v hc hf => exact ⟨id, resume_signal v⟩

theorem enables_cases {y : ClientFrame} (h : Enables x y) :
    (x = .call .disconnect ∧ y = .layer .resetSocket) ∨
      (x = .layer (.onStateChange .closed) ∧
        y = .serving (.callback (.onStateChange .closed))) := by
  unfold Enables at h
  split at h
  · exact Or.inl ⟨rfl, rfl⟩
  · exact Or.inr ⟨rfl, rfl⟩
  · exact h.elim

theorem mayRun_plain (h : ∀ x ∈ (code.frames : List ClientFrame), isPlain x = true) :
    ∀ x ∈ (code.frames : List ClientFrame), MayRun w p x :=
  mayRun_frames fun x hx heq => by
    have hplain := h x hx
    rw [heq] at hplain
    cases hplain

theorem Left.mayRun (h : Left w p r) : ∀ x ∈ (r.2.frames : List ClientFrame), MayRun w' p' x :=
  mayRun_frames fun x hx => by
    rcases (h.frame x hx).2 with hplain | hproc
    · rintro rfl
      cases hplain
    · exact (processing_spec hproc).2

/-- A step that replaces a statement on which nothing below it waits. -/
theorem ready_replace {push : List ClientFrame} (h : Primed (MayRun w p) Enables (x :: rest))
    (hw : w.eng.state = .closed → w'.eng.state = .closed)
    (hp : p.signal_closed_ = true → p'.signal_closed_ = true)
    (hx : ∀ y, Enables x y → MayRun w' p' y) (hpush : ∀ y ∈ push, MayRun w' p' y) :
    Primed (MayRun w' p') Enables (push ++ rest) :=
  (h.tail (fun _ _ hy => hy.mono hw hp) fun y _ hy => hx y hy).append (.of_all hpush)

/-- `Disconnect` ends with `ResetSocket`, after the engine's. -/
theorem ready_disconnect (h : Primed (MayRun w p) Enables rest)
    (hp : p.signal_closed_ = true → p'.signal_closed_ = true) (code : ClientCode)
    (hcode : ∀ x ∈ (code.frames : List ClientFrame), isPlain x = true) :
    Primed (MayRun w p') Enables
      ((Code.frames (code ++ [.inr .disconnect, .inl .resetSocket]) : List ClientFrame)
        ++ rest) := by
  have hlast : Primed (MayRun w p') Enables
      ([.call .disconnect, .layer .resetSocket] : List ClientFrame) := by
    refine ⟨fun x hx => ?_, List.isChain_cons.2 ⟨fun y hy => ?_, List.isChain_singleton _⟩⟩
    · obtain rfl := Option.some.inj hx
      exact trivial
    · obtain rfl := Option.some.inj hy
      exact Or.inr trivial
  have hframes : (Code.frames (code ++ [.inr .disconnect, .inl .resetSocket]) : List ClientFrame)
      = code.frames ++ [.call .disconnect, .layer .resetSocket] := List.map_append
  rw [hframes]
  exact (h.mono fun x _ hx => hx.mono id hp).append
    (hlast.append (.of_all (mayRun_plain hcode)))

section ReadyEvent

variable {c : JointConf}

/-- No event but `Disconnect` leaves a socket to be reset. -/
theorem enter_mayRun {e : ClientInput} (h : ClientRun c) (hrule : ClientRules c e)
    (he : e ≠ .disconnect) :
    ∀ x ∈ ((c.state.2.enter ssl stream c.state.1 e).2.frames : List ClientFrame),
      MayRun w' p' x := by
  have hnil : ∀ x ∈ (Code.frames [] : List ClientFrame), MayRun w' p' x :=
    List.forall_mem_nil _
  cases e with
  | start => exact hnil
  | runTasks =>
    rw [enter_runTasks]
    split_ifs with hrun
    · have hg : ClientGlobal c.state.1 c.state.2 := h.inv.global
      have hidle : ¬c.state.2.task.busy_ = true := fun hbusy => by
        rw [hbusy] at hrun
        exact absurd (Bool.and_eq_true_iff.1 hrun).2 Bool.false_ne_true
      refine (hg.step hidle fun hc => (h.told hc).resolve_right fun ⟨s, hs, _⟩ => ?_).mayRun
      have hrest : inners c.control = [] := hrule
      rw [hrest] at hs
      cases hs
    · exact hnil
  | disconnect => exact absurd rfl he
  | abort => exact mayRun_plain (abort_plain c.state.2)
  | authDone answer =>
    cases hpre : c.state.2.pre_auth_ with
    | some auth =>
      simp only [ClientSide.enter, hpre]
      exact mayRun_plain (List.all_eq_true.1 rfl)
    | none =>
      simp only [ClientSide.enter, hpre]
      exact hnil
  | engine m =>
    intro x hx
    rw [List.mem_singleton.1 hx]
    exact trivial
  | transport e =>
    cases hs : c.state.2.socket_ with
    | some s =>
      simp only [ClientSide.enter, hs]
      rcases onTransport_cases (p := c.state.2) ssl stream s e with
        hun | ⟨hup, q, code, hq, heq, hcode⟩
      · exact mayRun_plain hun.2
      · rw [heq]
        intro x hx
        rcases List.mem_cons.1 hx with rfl | hx
        · exact trivial
        · exact mayRun_plain hcode x hx
    | none =>
      simp only [ClientSide.enter, hs]
      exact hnil

end ReadyEvent

/-- Every step keeps the statements below from running too early. -/
theorem step_ready (h : ClientRun c) (ha : a.Allowed ClientRules c)
    (hs : OverStep engine (clientLayer ssl stream) c a c') :
    Primed (MayRun c'.state.1 c'.state.2) Enables c'.control := by
  obtain ⟨hw, hp⟩ := step_onward hs
  have hready := h.ready
  cases hs with
  | inner hc | served hc | returned hc =>
    rw [hc] at hready
    refine ready_replace hready hw hp (fun y hy => ?_) (mayRun_inner _)
    rcases enables_cases hy with ⟨hx, -⟩ | ⟨hx, -⟩ <;> cases hx
  | @serve x rest code hc hf hserve =>
    rw [hc] at hready
    have hrest : Primed (MayRun c.state.1 c.state.2) Enables rest :=
      hready.tail (fun _ _ hy => hy) fun y _ hy => by
        rcases enables_cases hy with ⟨hx, -⟩ | ⟨hx, -⟩ <;> cases hx
    rcases serves_cases hserve with ⟨state, rfl, rfl⟩ | ⟨hx, hcode⟩
    · have htop : Primed (MayRun c.state.1 c.state.2) Enables
          ([.layer (.onStateChange state), .serving (.callback (.onStateChange state))] :
            List ClientFrame) := by
        refine ⟨fun y hy => ?_, List.isChain_cons.2 ⟨fun y hy => ?_, List.isChain_singleton _⟩⟩
        · obtain rfl := Option.some.inj hy
          exact trivial
        · obtain rfl := Option.some.inj hy
          cases state with
          | closed => exact Or.inr trivial
          | _ => exact Or.inl trivial
      exact hrest.append htop
    · have htop : Primed (MayRun c.state.1 c.state.2) Enables [.serving x] :=
        .of_all (List.forall_mem_singleton.2 (hx _ _))
      exact (hrest.append htop).append (.of_all (mayRun_plain hcode))
  | @layer l rest r hc hf hr =>
    rw [hc] at hready
    refine ready_replace hready hw hp (fun y hy => ?_) ?_
    · rcases enables_cases hy with ⟨hx, -⟩ | ⟨hx, rfl⟩
      · cases hx
      · obtain rfl := Frame.layer.inj hx
        obtain rfl := Option.some.inj hr
        exact ensureClosed_signal c.state.2
    · cases hl : l.seen with
      | false => exact mayRun_plain (exec_unseen hl hr).2
      | true =>
        cases l with
        | onStateChange state =>
          obtain rfl := Option.some.inj hr
          refine mayRun_frames fun x hx heq => ?_
          unfold ClientSide.onStateChange at hx
          split_ifs at hx
          · rw [heq, Code.frames, List.map_append] at hx
            rcases List.mem_append.1 hx with hx | hx
            · cases ensureClosed_plain c.state.2 _ hx
            · cases List.mem_singleton.1 hx
          · rw [heq] at hx
            cases List.all_eq_true.1 (rfl : ([.layer (.stateChanged state), .layer .wake] :
              List ClientFrame).all isPlain = true) _ hx
        | processed result =>
          obtain rfl := Option.some.inj hr
          have hframe : FrameLife c.state.1 c.state.2 (.layer (.processed result)) :=
            h.inv.frame (.layer (.processed result)) (by rw [hc]; exact List.mem_cons_self)
          have hleft : Left c.state.1 c.state.2 (c.state.2.processed result) :=
            ResultLife.processed hframe h.inv.global
          exact hleft.mayRun
        | resetSocket =>
          obtain rfl := Option.some.inj hr
          exact nofun
        | _ => cases hl
  | @call m rest hc =>
    rw [hc] at hready
    refine ready_replace hready hw hp (fun y hy => ?_) (mayRun_inner _)
    rcases enables_cases hy with ⟨hx, rfl⟩ | ⟨hx, -⟩
    · obtain rfl := Frame.call.inj hx
      exact enter_disconnect
    · cases hx
  | @event e hwait =>
    by_cases he : e = .disconnect
    · rw [he]
      show Primed (MayRun c.state.1 c.state.2.disconnect.1) Enables
        (c.state.2.disconnect.2.frames ++ c.control)
      rw [he] at hp
      have hp' : c.state.2.signal_closed_ = true → c.state.2.disconnect.1.signal_closed_ = true :=
        hp
      unfold ClientSide.disconnect at hp' ⊢
      split_ifs with hsock
      · exact hready
      · rw [if_neg hsock] at hp'
        exact ready_disconnect hready hp' _ (abort_plain c.state.2)
    · exact (hready.mono fun x _ hx => hx.mono hw hp).append
        (.of_all (enter_mayRun h (ha _ rfl) he))
  | @resumed l rest v hc hf =>
    rw [hc] at hready
    refine ready_replace hready hw hp (fun y hy => ?_) ?_
    · rcases enables_cases hy with ⟨hx, -⟩ | ⟨hx, -⟩
      · cases hx
      · obtain rfl := Frame.layer.inj hx
        cases hf
    · by_cases hl : l = .connectSocket
      · obtain rfl := hl
        have hframe : FrameLife c.state.1 c.state.2 (.layer .connectSocket) :=
          h.inv.frame (.layer .connectSocket) (by rw [hc]; exact List.mem_cons_self)
        exact (socketConnected_left h.inv.global hframe v.connected).mayRun
      · have hun : Unseen c.state.2 (c.state.2.resume l v) := resume_unseen hl v
        exact mayRun_plain hun.2

/-- Every step of a closed engine leaves somebody to tell it, until it was told. -/
theorem step_told (hreach : Reachable c.project) (hn : Stacked engine c.control) (h : ClientRun c)
    (hs : OverStep engine (clientLayer ssl stream) c a c') : Told c' := by
  have hsignal := (step_onward hs).2
  have hg : ClientGlobal c.state.1 c.state.2 := h.inv.global
  -- a step of the client leaves the engine as it is
  have hkept : c'.state.1.eng.state = c.state.1.eng.state →
      (∀ s ∈ inners c.control, s.tells = true →
        s ∈ inners c'.control ∨ c'.state.2.signal_closed_ = true) → Told c' := by
    intro hstate hstays hclosed
    rcases h.told (hstate.symm.trans hclosed) with hsig | ⟨s, hmem, htells⟩
    · exact Or.inl (hsignal hsig)
    · rcases hstays s hmem htells with hmem' | hsig
      · exact Or.inr ⟨s, hmem', htells⟩
      · exact Or.inl hsig
  cases hs with
  | @inner x rest r hc hf hr =>
    have hproject : c.project = ⟨c.state.1, x :: inners rest⟩ := by
      unfold Config.project
      rw [hc, inners_inner]
    rw [hproject] at hreach
    have hscope : (∃ p ∈ r.2 ++ inners rest, p.isScope = true) →
        ∃ s ∈ inners (r.2.map .inner ++ rest : List ClientFrame), s.tells = true := by
      rintro ⟨s, hmem, hs⟩
      refine ⟨s, by rw [inners_append, inners_map_inner]; exact hmem, ?_⟩
      cases s <;> first | exact hs | cases hs
    intro hclosed
    by_cases hopen : c.state.1.eng.state = .closed
    · rcases h.told hopen with hsig | ⟨s, hmem, htells⟩
      · exact Or.inl hsig
      · rw [hc, inners_inner] at hmem
        rcases List.mem_cons.1 hmem with rfl | hmem
        · -- the statement that was to tell it has run
          have hsc : s.isScope = true := by
            cases s with
            | callback cb => cases hf
            | _ => exact htells
          rcases exec_tells hreach hr hsc hopen hg.session with hnext | hnote
          · exact Or.inr (hscope hnext)
          · refine Or.inr ⟨_, ?_, (rfl : (Stmt.callback (.onStateChange .closed)).tells = true)⟩
            rw [inners_append, inners_map_inner]
            exact List.mem_append_left _ hnote
        · refine Or.inr ⟨s, ?_, htells⟩
          rw [inners_append]
          exact List.mem_append_right _ hmem
    · obtain ⟨saved, hmem⟩ := exec_closes_inScope hreach hr hopen hclosed
      exact Or.inr (hscope ⟨_, List.mem_append_right _ hmem, rfl⟩)
  | serve hc | layer hc | resumed hc =>
    refine hkept rfl fun s hmem _ => Or.inl ?_
    rw [hc] at hmem
    rw [inners_append, inners_frames]
    exact hmem
  | @served x rest hc =>
    refine hkept rfl fun s hmem htells => ?_
    rw [hc, inners_serving] at hmem
    rcases List.mem_cons.1 hmem with rfl | hmem
    · have hready := h.ready.head (.serving s) (by rw [hc]; rfl)
      cases s with
      | callback cb =>
        cases cb with
        | onStateChange state =>
          obtain rfl := of_decide_eq_true htells
          exact Or.inr hready
        | _ => cases htells
      | _ =>
        rw [hc] at hn
        cases hn.1
    · rw [inners_append]
      exact Or.inl (List.mem_append_right _ hmem)
  | @call m rest hc =>
    intro hclosed
    by_cases hopen : c.state.1.eng.state = .closed
    · rcases h.told hopen with hsig | ⟨s, hmem, htells⟩
      · exact Or.inl hsig
      · rw [hc, inners_call] at hmem
        refine Or.inr ⟨s, ?_, htells⟩
        rw [inners_append]
        exact List.mem_append_right _ hmem
    · have hm : m ≠ .connect := by
        rintro rfl
        exact hopen (enter_connect_closed hclosed)
      rcases enter_state hm with hsame | ⟨-, hexit⟩
      · exact absurd (hsame.symm.trans hclosed) hopen
      · refine Or.inr ⟨_, ?_, (rfl : (Stmt.exitScope c.state.1.eng.state).tells = true)⟩
        rw [inners_append, inners_map_inner]
        exact List.mem_append_left _ hexit
  | event hw =>
    refine hkept rfl fun s hmem _ => Or.inl ?_
    rw [inners_append, inners_frames]
    exact hmem
  | @returned x rest v hc hf hserve =>
    refine hkept rfl fun s hmem htells => Or.inl ?_
    rw [hc, inners_inner] at hmem
    rcases List.mem_cons.1 hmem with rfl | hmem
    · cases s with
      | callback cb =>
        cases cb with
        | onStateChange state => cases hserve
        | _ => cases htells
      | _ => cases hf
    · rw [inners_append]
      exact List.mem_append_right _ hmem

end Whole

/-! ## 8. The run -/

/-- Calls that set up an engine that was not started. -/
theorem setUp_start {calls : List Call}
    (h : ∀ m ∈ calls, m.stores = true ∧ (∀ b, m ≠ .setSessionHandler b) ∧
      ∀ w : World, ∃ status, (w.enter m).2 = [.returned m status])
    (w : World) (hw : w.eng.state = .start ∧ w.eng.session_handler = true) :
    (calls.foldl (fun w m => (engine.settle 1 ⟨(w.enter m).1, (w.enter m).2⟩).state) w).eng.state
      = .start ∧
    (calls.foldl (fun w m =>
      (engine.settle 1 ⟨(w.enter m).1, (w.enter m).2⟩).state) w).eng.session_handler = true := by
  induction calls generalizing w with
  | nil => exact hw
  | cons m calls ih =>
    obtain ⟨hstores, hsession, hreturns⟩ := h m List.mem_cons_self
    obtain ⟨status, hpush⟩ := hreturns w
    refine ih (fun m' hm' => h m' (List.mem_cons_of_mem m hm')) _ ?_
    dsimp only
    rw [hpush]
    exact ⟨(enter_stores hstores).trans hw.1, (enter_session hsession).trans hw.2⟩

/-- The calls of `XmppClient::Connect` after the first only store something. -/
theorem connectCalls_stores {settings : XmppClientSettings} {lang : Str} {m : Call}
    (h : m ∈ (XmppClient.connectCalls settings lang).tail) :
    m.stores = true ∧ ∀ b, m ≠ .setSessionHandler b := by
  unfold XmppClient.connectCalls at h
  simp only [List.cons_append, List.tail_cons, List.nil_append, List.mem_append, List.mem_cons,
    List.not_mem_nil, or_false] at h
  rcases h with rfl | ((hresource | rfl) | hserver) | rfl | rfl
  · exact ⟨rfl, nofun⟩
  · split_ifs at hresource
    · cases hresource
    · obtain rfl := List.mem_singleton.1 hresource
      exact ⟨rfl, nofun⟩
  · exact ⟨rfl, nofun⟩
  · split_ifs at hserver
    · obtain rfl := List.mem_singleton.1 hserver
      exact ⟨rfl, nofun⟩
    · cases hserver
  · exact ⟨rfl, nofun⟩
  · exact ⟨rfl, nofun⟩

/-- After `XmppClient::Connect`, the engine was not started, and its session handler is the
client. -/
theorem connectedEngine_start (settings : XmppClientSettings) (lang : Str) :
    (connectedEngine settings lang).eng.state = .start ∧
      (connectedEngine settings lang).eng.session_handler = true := by
  have hfirst : connectedEngine settings lang
      = ((XmppClient.connectCalls settings lang).tail).foldl
        (fun w m => (engine.settle 1 ⟨(w.enter m).1, (w.enter m).2⟩).state)
        (engine.settle 1 ⟨(World.init.enter (.setSessionHandler true)).1,
          (World.init.enter (.setSessionHandler true)).2⟩).state := rfl
  rw [hfirst]
  refine setUp_start (fun m hm => ?_) _ ⟨rfl, rfl⟩
  obtain ⟨hstores, hsession⟩ := connectCalls_stores hm
  exact ⟨hstores, hsession, connectCalls_return (List.mem_of_mem_tail hm)⟩

section Run

variable {ssl stream : Bool} {settings : XmppClientSettings} {lang : Str} {pre_auth : Bool}

theorem connected_run : ClientRun (JointConf.connected settings lang pre_auth) := by
  obtain ⟨hstart, hsession⟩ := connectedEngine_start settings lang
  have hunclosed : (connectedEngine settings lang).eng.state ≠ .closed := by
    rw [hstart]
    exact nofun
  refine ⟨⟨?_, nofun, List.Pairwise.nil⟩, .nil, fun hclosed => absurd hclosed hunclosed⟩
  exact
    { session := hsession
      idle := nofun
      errorDone := nofun
      ownEnd := nofun
      noSocket := nofun
      running := nofun
      up := fun hup => by
        have hup' : (connectedEngine settings lang).eng.state = .opening ∨
            (connectedEngine settings lang).eng.state = .open := hup
        rw [hstart] at hup'
        rcases hup' with hup' | hup' <;> cases hup'
      progress := nofun
      early := nofun
      signal := ⟨nofun, nofun⟩
      once := List.Pairwise.nil
      disconnected := nofun }

/-- What is true of the client and its engine in every configuration of a run. -/
theorem clientRun {c : JointConf} (h : (xmppClient ssl stream).Reaches ClientRules
    (JointConf.connected settings lang pre_auth) c) : ClientRun c := by
  refine Reaches.invariant (I := ClientRun) h connected_run fun c a c' hreach hrun ha hs => ?_
  have hproject := Reaches.project hreach trivial
  have hengine : Reachable c.project := (connected_reachable settings lang).trans hproject.1
  have hstep := over_step hs
  exact ⟨step_inv hengine hrun ha hstep, step_ready hrun ha hstep,
    step_told hengine hproject.2 hrun hstep⟩

/-- **Closed once.** `STATE_CLOSED` is told once at most, and no other state is told after it;
and it has been told when the task has finished by itself, and when a `Disconnect` that
succeeded has returned and no function of the engine is in progress. -/
theorem closed_once (ssl stream : Bool) (settings : XmppClientSettings) (lang : Str)
    (pre_auth : Bool) {c : JointConf} (h : (xmppClient ssl stream).Reaches ClientRules
      (JointConf.connected settings lang pre_auth) c) :
    c.state.2.signalled.Pairwise (fun a _ => a ≠ .closed) ∧
      (c.state.2.task.done_ = true → c.state.2.task.aborted_ = false →
        EngineState.closed ∈ c.state.2.signalled) ∧
      (c.state.2.disconnected = true → inners c.control = [] →
        EngineState.closed ∈ c.state.2.signalled) := by
  have hrun := clientRun h
  have hg : ClientGlobal c.state.1 c.state.2 := hrun.inv.global
  refine ⟨hg.once, fun hdone hself => ?_, fun hdisconnected hrest => ?_⟩
  · refine hg.signal.1 ((hg.ownEnd hdone).resolve_left fun haborted => ?_)
    rw [hself] at haborted
    cases haborted
  · refine hg.signal.1 ((hrun.told (hg.disconnected hdisconnected)).resolve_right ?_)
    rintro ⟨s, hmem, -⟩
    rw [hrest] at hmem
    cases hmem

end Run

/-- A login whose connection comes up; the application disconnects in the handler that is told
so. -/
def disconnectInOpening : List (Act ClientInput ClientAnswer) :=
  let answer : ClientAnswer := ⟨false, 0, .block, .failed, true⟩
  [.call .start, .call .runTasks, .call .runTasks, .call .runTasks, .ret answer,
    .call (.transport .onConnectEvent), .ret answer, .ret answer, .call .disconnect, .ret answer,
    .ret answer, .ret answer, .ret answer]

/-- There, the state is told inside the `Disconnect`. -/
theorem closed_once_handler : ∃ c, (xmppClient false false).Reaches ClientRules
    (JointConf.connected carefulUser (str "en") false) c ∧ c.control = [] ∧
    c.state.2.disconnected = true ∧ EngineState.closed ∈ c.state.2.signalled := by
  obtain ⟨c, hc, hp⟩ := exists_of_drive (G := ClientRules) (P := xmppClient false false) (n := 40)
    (c := JointConf.connected carefulUser (str "en") false) (l := disconnectInOpening)
    (p := fun c => c.control.isEmpty && c.state.2.disconnected) (by decide +kernel)
  obtain ⟨hrest, hdisconnected⟩ := Bool.and_eq_true_iff.1 hp
  have hnil := List.isEmpty_iff.1 hrest
  refine ⟨c, hc, hnil, hdisconnected, ?_⟩
  exact (closed_once false false carefulUser (str "en") false hc).2.2 hdisconnected
    (by rw [hnil]; rfl)

end Gxmpp
