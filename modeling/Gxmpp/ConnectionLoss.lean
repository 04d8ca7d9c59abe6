/-
What becomes of a connection that is lost, and of a socket that is to be closed.

The transport reports that the connection was closed by `OnCloseEvent`, or by `SE_CLOSE` in
`OnEvent`, and `XmppSocket` passes that on by `SignalCloseEvent`. `XmppClient` has a slot that
would close the engine, `OnSocketClosed`, but it listens to another signal, `SignalClosed`,
which `XmppSocket` raises only where it closes the connection itself. So the engine is not
told (`loss_unheard`).

`XmppSocket::Close` asks for `STATE_OPEN`, and a socket that has gone over to TLS is in another
state; there it does nothing (`closesTransport_iff`).
-/
import Gxmpp.ClientMachine
import Gxmpp.Encrypted

set_option autoImplicit false

namespace Gxmpp

open World Reentrant

/-! ## 1. The properties -/

/-- The events that report the loss of a connection, in the two back ends. -/
def TransportEvent.reportsClose (ssl_stream : Bool) : TransportEvent → Bool
  | .onCloseEvent _ => !ssl_stream
  | .onEvent events _ => ssl_stream && events.close
  | _ => false

/-- A call of `XmppEngineImpl::ConnectionClosed`. -/
def Event.isConnectionClosed : Event → Bool
  | .called (.connectionClosed _) => true
  | _ => false

section Properties

variable (feature_enable_ssl ssl_stream : Bool)

/-- A report of the transport, from its delivery to the return of the socket's function: the
application and the transport answer what they are asked, and make no calls meanwhile. -/
def ReportHandled (c : JointConf) (e : TransportEvent) (c' : JointConf) : Prop :=
  ∃ c₁, (xmppClient feature_enable_ssl ssl_stream).step c (.call (.transport e)) = some c₁ ∧
    (xmppClient feature_enable_ssl ssl_stream).Reaches noCall c₁ c' ∧ c'.control = c.control

/-- However a report is handled, `ConnectionClosed` is called and the engine is closed. -/
def ReportCloses (c : JointConf) (e : TransportEvent) : Prop :=
  ∀ c', ReportHandled feature_enable_ssl ssl_stream c e c' →
    (∃ evs, c'.state.1.log = c.state.1.log ++ evs ∧ ∃ ev ∈ evs, ev.isConnectionClosed = true) ∧
      c'.state.1.eng.state = .closed

/-- `XmppSocket::Close`, about to run in `c`, calls the transport's `Close`, and when that has
answered `v` the socket is closed. -/
def ClosesTransport (c : JointConf) (v : ClientAnswer) : Prop :=
  ∃ x code rest c₁ c₂ s, c.control = .layer .close :: rest ∧
    (xmppClient feature_enable_ssl ssl_stream).step c .tick = some c₁ ∧
    c₁.control = .layer x :: (code ++ rest) ∧ (x = .closing ∨ x = .closingStream) ∧
    (xmppClient feature_enable_ssl ssl_stream).step c₁ (.ret v) = some c₂ ∧
    c₂.state.2.socket_ = some s ∧ s.state_ = .closed

end Properties

/-! ## 2. Runs that come back -/

section Returns

variable {ssl stream : Bool}

/-- The history gains no call of `ConnectionClosed`. -/
def Untold (w w' : World) : Prop := Grows (fun ev => ev.isConnectionClosed = false) w w'

/-- A run without calls from `c` comes to the control stack `rest`, with a socket, and the
engine is not told meanwhile. -/
def Returns (ssl stream : Bool) (c : JointConf) (rest : List (Frame Stmt ClientStmt Call)) :
    Prop :=
  ∃ c', (xmppClient ssl stream).Reaches noCall c c' ∧ c'.control = rest ∧
    c'.state.2.socket_.isSome = true ∧ Untold c.state.1 c'.state.1

theorem Returns.here {w : World} {p : ClientSide} {rest : List (Frame Stmt ClientStmt Call)}
    (h : p.socket_.isSome = true) : Returns ssl stream ⟨(w, p), rest⟩ rest :=
  ⟨_, Relation.ReflTransGen.refl, rfl, h, .refl w⟩

theorem Returns.step {c c₁ : JointConf} {rest : List (Frame Stmt ClientStmt Call)}
    {a : Act ClientInput ClientAnswer} (h : Returns ssl stream c₁ rest)
    (hs : OverStep engine (clientLayer ssl stream) c a c₁) (ha : ∀ e, a ≠ .call e)
    (hu : Untold c.state.1 c₁.state.1) : Returns ssl stream c rest := by
  obtain ⟨c', hreach, hc, hsock, hu'⟩ := h
  exact ⟨c', (hs.reaches ha).trans hreach, hc, hsock, hu.trans hu'⟩

/-- A statement of the engine adds no call. -/
theorem exec_untold {w : World} {s : Stmt} {r : World × List Stmt} (h : w.exec s = some r) :
    Untold w r.1 := by
  refine (exec_frame h).grows.mono fun ev hev => ?_
  cases ev with
  | called m => cases s <;> exact absurd hev Bool.false_ne_true
  | _ => rfl

variable {w : World} {p : ClientSide} {rest goal : List (Frame Stmt ClientStmt Call)}

theorem Returns.inner {x : Stmt} {r : World × List Stmt} (hf : x.foreign = false)
    (hr : w.exec x = some r)
    (h : Returns ssl stream ⟨(r.1, p), r.2.map .inner ++ rest⟩ goal) :
    Returns ssl stream ⟨(w, p), .inner x :: rest⟩ goal :=
  h.step (.inner rfl hf hr) (fun _ => nofun) (exec_untold hr)

theorem Returns.serve {cb : Callback} {code : ClientCode}
    (hs : ClientSide.serves (.callback cb) = some code)
    (h : Returns ssl stream ⟨(w, p), code.frames ++ .serving (.callback cb) :: rest⟩ goal) :
    Returns ssl stream ⟨(w, p), .inner (.callback cb) :: rest⟩ goal :=
  h.step (.serve rfl rfl hs) (fun _ => nofun) (.refl w)

theorem Returns.served {x : Stmt} (hx : World.resume x true = [])
    (h : Returns ssl stream ⟨(w, p), rest⟩ goal) :
    Returns ssl stream ⟨(w, p), .serving x :: rest⟩ goal := by
  have hstep := OverStep.served (P := engine) (D := clientLayer ssl stream)
    (c := ⟨(w, p), .serving x :: rest⟩) rfl
  have hnil : (engine.resume w x (clientLayer ssl stream).served) = (w, []) :=
    Prod.ext rfl hx
  rw [hnil] at hstep
  exact h.step hstep (fun _ => nofun) (.refl w)

theorem Returns.layer {l : ClientStmt} {r : ClientSide × ClientCode}
    (hf : ClientSide.foreign l = false) (hr : p.exec ssl stream l = some r)
    (h : Returns ssl stream ⟨(w, r.1), r.2.frames ++ rest⟩ goal) :
    Returns ssl stream ⟨(w, p), .layer l :: rest⟩ goal :=
  h.step (.layer rfl hf hr) (fun _ => nofun) (.refl w)

theorem Returns.answer {l : ClientStmt} (v : ClientAnswer) (hf : ClientSide.foreign l = true)
    (h : Returns ssl stream ⟨(w, (p.resume l v).1), (p.resume l v).2.frames ++ rest⟩ goal) :
    Returns ssl stream ⟨(w, p), .layer l :: rest⟩ goal :=
  h.step (.resumed rfl hf) (fun _ => nofun) (.refl w)

/-- The answers that end every function of the socket: nothing is written or read. -/
def quietAnswer : ClientAnswer := ⟨false, 0, .block, .failed, false⟩

/-! ## 3. The socket -/

/-- `OnWriteEvent`. -/
theorem Returns.onWriteEvent (hp : p.socket_.isSome = true)
    (h : Returns ssl stream ⟨(w, p), rest⟩ goal) :
    Returns ssl stream ⟨(w, p), .layer .onWriteEvent :: rest⟩ goal := by
  obtain ⟨s, hs⟩ := Option.isSome_iff_exists.1 hp
  by_cases hb : s.buffer_.length ≠ 0
  · refine Returns.layer (r := (p, [.inl .sending])) rfl ?_
      (Returns.answer quietAnswer rfl ?_)
    · show p.onWriteEvent = _
      simp only [ClientSide.onWriteEvent, hs, Option.map_some, if_pos hb]
    · have hsent : p.resume .sending quietAnswer = (p, []) := by
        show p.sent 0 = _
        simp only [ClientSide.sent, hs]
        rfl
      rw [hsent]
      exact h
  · refine Returns.layer (r := (p, [])) rfl ?_ h
    show p.onWriteEvent = _
    simp only [ClientSide.onWriteEvent, hs, Option.map_some, if_neg hb]

/-- `OnEvent`, from its `SE_WRITE` part on. -/
theorem Returns.onEventWrite {events : StreamEvents} {err : Int} (hp : p.socket_.isSome = true)
    (h : Returns ssl stream ⟨(w, p), rest⟩ goal) :
    Returns ssl stream ⟨(w, p), .layer (.onEventWrite events err) :: rest⟩ goal := by
  obtain ⟨s, hs⟩ := Option.isSome_iff_exists.1 hp
  by_cases hbits : (events.write || events.close) = true
  · by_cases hb : (events.write && decide (s.buffer_.length ≠ 0)) = true
    · refine Returns.layer (r := (p, [.inl (.streamWriting events err)])) rfl ?_
        (Returns.answer quietAnswer rfl h)
      show p.onEventWrite events err = _
      simp only [ClientSide.onEventWrite, hs, Option.map_some, if_pos hbits, if_pos hb]
    · by_cases hclose : events.close = true
      · -- `SignalCloseEvent` has no slot
        refine Returns.layer (r := (p, [])) rfl ?_ h
        show p.onEventWrite events err = _
        simp only [ClientSide.onEventWrite, hs, Option.map_some, if_pos hbits, if_neg hb,
          if_pos hclose, ClientSide.slots]
      · refine Returns.layer (r := (p, [])) rfl ?_ h
        show p.onEventWrite events err = _
        simp only [ClientSide.onEventWrite, hs, Option.map_some, if_pos hbits, if_neg hb,
          if_neg hclose]
  · refine Returns.layer (r := (p, [])) rfl ?_ h
    show p.onEventWrite events err = _
    simp only [ClientSide.onEventWrite, if_neg hbits]

/-- `OnEvent`, from its `SE_READ` part on. -/
theorem Returns.onEventRead {events : StreamEvents} {err : Int} (hp : p.socket_.isSome = true)
    (h : Returns ssl stream ⟨(w, p), rest⟩ goal) :
    Returns ssl stream ⟨(w, p), .layer (.onEventRead events err) :: rest⟩ goal := by
  have hwrite : Returns ssl stream ⟨(w, p), .layer (.onEventWrite events err) :: rest⟩ goal :=
    h.onEventWrite hp
  obtain ⟨s, hs⟩ := Option.isSome_iff_exists.1 hp
  by_cases hread : events.read = true
  · refine Returns.layer
      (r := (p, [.inl .onSocketRead, .inl (.onEventWrite events err)])) rfl ?_
      (Returns.layer (r := (p, [.inl .reading])) rfl ?_ (Returns.answer quietAnswer rfl hwrite))
    · show p.onEventRead events err = _
      simp only [ClientSide.onEventRead, hs, Option.map_some, if_pos hread, ClientSide.slots]
      rfl
    · show some p.onSocketRead = _
      simp only [ClientSide.onSocketRead, hs]
  · refine Returns.layer (r := (p, [.inl (.onEventWrite events err)])) rfl ?_ hwrite
    show p.onEventRead events err = _
    simp only [ClientSide.onEventRead, if_neg hread]

/-- `WriteOutput`. -/
theorem Returns.writeOutput {bytes : Str} (hp : p.socket_.isSome = true)
    (h : ∀ p', p'.socket_.isSome = true → Returns ssl stream ⟨(w, p'), rest⟩ goal) :
    Returns ssl stream ⟨(w, p), .inner (.callback (.writeOutput bytes)) :: rest⟩ goal := by
  obtain ⟨s, hs⟩ := Option.isSome_iff_exists.1 hp
  refine Returns.serve rfl (Returns.answer quietAnswer rfl ?_)
  have hback : ∀ p', p'.socket_.isSome = true → Returns ssl stream
      ⟨(w, p'), .serving (.callback (.writeOutput bytes)) :: rest⟩ goal :=
    fun p' hp' => Returns.served rfl (h p' hp')
  cases stream with
  | true =>
    refine Returns.layer
      (r := (p.setSocket { s with buffer_ := s.buffer_ ++ bytes },
        [.inl (.onEventWrite ⟨false, false, true, false⟩ 0)])) rfl ?_
      (Returns.onEventWrite rfl (hback _ rfl))
    show p.write true bytes = _
    simp only [ClientSide.write, hs, Option.map_some, if_true]
  | false =>
    refine Returns.layer
      (r := (p.setSocket { s with buffer_ := s.buffer_ ++ bytes }, [.inl .onWriteEvent])) rfl ?_
      (Returns.onWriteEvent rfl (hback _ rfl))
    show p.write false bytes = _
    simp only [ClientSide.write, hs, Option.map_some, Bool.false_eq_true, if_false]

theorem wake_socket (p : ClientSide) : p.wake.socket_ = p.socket_ := by
  unfold ClientSide.wake
  split_ifs <;> rfl

/-- `OnStateChange`, for another state than `STATE_CLOSED`. -/
theorem Returns.onStateChange {state : EngineState} (hstate : state ≠ .closed)
    (hp : p.socket_.isSome = true)
    (h : ∀ p', p'.socket_.isSome = true → Returns ssl stream ⟨(w, p'), rest⟩ goal) :
    Returns ssl stream ⟨(w, p), .inner (.callback (.onStateChange state)) :: rest⟩ goal := by
  refine Returns.serve rfl (Returns.layer
    (r := ({ p with signalled := p.signalled ++ [state] },
      [.inl (.stateChanged state), .inl .wake])) rfl ?_
    (Returns.answer quietAnswer rfl (Returns.layer rfl rfl (Returns.served rfl (h _ ?_)))))
  · show some (p.onStateChange state) = _
    simp only [ClientSide.onStateChange, if_neg hstate]
  · rw [show ∀ q : ClientSide, (ClientSide.wake q, ([] : ClientCode)).1 = q.wake from
      fun _ => rfl, wake_socket]
    exact hp

/-! ## 4. The engine -/

section Scope

variable {saved : EngineState} (hw : w.eng.state ≠ .closed) (hp : p.socket_.isSome = true)
  (h : ∀ w' p', p'.socket_.isSome = true → Returns ssl stream ⟨(w', p'), rest⟩ goal)
include hw hp h

/-- The end of a scope in which the engine was not closed. -/
theorem Returns.leaveScope :
    Returns ssl stream ⟨(w, p), .inner (.leaveScope saved) :: rest⟩ goal := by
  refine Returns.inner (r := w.leaveScope saved) rfl rfl ?_
  generalize hr : w.leaveScope saved = r
  have hl := leaveScope_leaving w saved
  rw [hr] at hl
  cases hl with
  | inner | silent => exact h _ _ hp
  | notify he hh hs => exact Returns.onStateChange hw hp fun p' hp' => h _ p' hp'

theorem Returns.afterWrite :
    Returns ssl stream ⟨(w, p), .inner (.afterWrite saved false) :: rest⟩ goal :=
  Returns.inner (r := w.afterWrite saved false) rfl rfl (Returns.leaveScope hw hp h)

theorem Returns.exitScope :
    Returns ssl stream ⟨(w, p), .inner (.exitScope saved) :: rest⟩ goal := by
  refine Returns.inner (r := w.exitScope saved) rfl rfl ?_
  generalize hr : w.exitScope saved = r
  have hx := exitScope_exiting w saved
  rw [hr] at hx
  have hopen : closing w saved = false := by
    unfold closing
    rw [decide_eq_false hw, Bool.and_false]
  cases hx with
  | write ho hf hb =>
    rw [hopen]
    exact Returns.writeOutput hp fun p' hp' => Returns.afterWrite hw hp' h
  | empty ho hf hb =>
    rw [hopen]
    exact Returns.afterWrite hw hp h
  | unflushed hn => exact Returns.leaveScope hw hp h

end Scope

/-- The start of a stream: the login task sends it and waits. -/
theorem Returns.sendStart {lt : XmppLoginTask} (hl : w.eng.login_task = some lt)
    (hinit : lt.state = .init) (hnone : lt.pelStanza = none) (hw : w.eng.state ≠ .closed)
    (h : ∀ w', w'.eng.state ≠ .closed → Returns ssl stream ⟨(w', p), rest⟩ goal) :
    Returns ssl stream
      ⟨(w, p), [Stmt.advance, .advanced, .resetLogin].map .inner ++ rest⟩ goal := by
  have hfirst : w.exec .advance = some (XmppLoginTask.advanceInit w lt) := by
    show w.eng.login_task.bind (XmppLoginTask.advance w) = _
    rw [hl, Option.bind_some]
    unfold XmppLoginTask.advance
    rw [hinit]
  refine Returns.inner rfl hfirst ?_
  have hsecond : (XmppLoginTask.advanceInit w lt).1.exec .advance
      = some ((XmppLoginTask.advanceInit w lt).1, []) := by
    show XmppLoginTask.advance (XmppLoginTask.advanceInit w lt).1
      { lt with pelFeatures := none, state := .streamstartSent } = _
    unfold XmppLoginTask.advance
    rw [hnone]
  refine Returns.inner rfl hsecond (Returns.inner rfl rfl (Returns.inner rfl rfl ?_))
  exact h _ hw

/-- `XmppEngineImpl::Connect`. -/
theorem Returns.connect (hidle : w.eng.state = .start → Idle w) (hp : p.socket_.isSome = true)
    (h : ∀ w' p', p'.socket_.isSome = true → Returns ssl stream ⟨(w', p'), rest⟩ goal) :
    Returns ssl stream ⟨(w, p), .call .connect :: rest⟩ goal := by
  have hu : Untold w (w.enter .connect).1 := by
    have hcalled : Untold w (w.emit (.called .connect)) := .emit w rfl
    refine hcalled.trans ((entry_frame (enter_entry w .connect)).grows.mono fun ev hev => ?_)
    exact absurd hev Bool.false_ne_true
  refine Returns.step ?_ (OverStep.call (P := engine) (D := clientLayer ssl stream)
    (c := ⟨(w, p), .call .connect :: rest⟩) rfl) (fun _ => nofun) hu
  show Returns ssl stream
    ⟨((w.enter .connect).1, p), (w.enter .connect).2.map .inner ++ rest⟩ goal
  by_cases hs : w.eng.state = .start
  · obtain ⟨lt, hl, hinit, -⟩ := (hidle hs).login
    rw [enter_connect hs hl]
    refine Returns.sendStart rfl hinit rfl (fun hc => EngineState.noConfusion hc) fun w' hw' => ?_
    exact Returns.exitScope hw' hp fun w'' p'' hp'' => Returns.inner rfl rfl (h _ p'' hp'')
  · have hrefused : w.enter .connect
        = (w.emit (.called .connect), [.returned .connect .badState]) := by
      show (w.emit (.called .connect)).connect = _
      have hstate : (w.emit (.called .connect)).eng.state ≠ .start := hs
      unfold World.connect
      rw [if_pos hstate]
    rw [hrefused]
    exact Returns.inner rfl rfl (h _ p hp)

end Returns

/-! ## 5. Every joint state -/

variable {ssl stream : Bool}

variable {rest : List (Frame Stmt ClientStmt Call)} {s : BufferedSocket} {c : JointConf}

/-- However a socket's function begins, there is a run in which it comes back and the engine
is not told. -/
theorem onTransport_returns {w : World} {p : ClientSide} {e : TransportEvent}
    (hidle : w.eng.state = .start → Idle w) (hs : p.socket_ = some s)
    (he : e.reportsClose stream = true) :
    Returns ssl stream ⟨(w, (p.onTransport ssl stream s e).1),
      (p.onTransport ssl stream s e).2.frames ++ rest⟩ rest := by
  have hp : p.socket_.isSome = true := Option.isSome_iff_exists.2 ⟨s, hs⟩
  cases e with
  | onReadEvent | onWriteEvent | onConnectEvent => exact absurd he Bool.false_ne_true
  | onCloseEvent error =>
    obtain rfl : stream = false := by
      cases stream with
      | false => rfl
      | true => exact absurd he Bool.false_ne_true
    exact Returns.here hp
  | onEvent events err =>
    obtain rfl : stream = true := by
      cases stream with
      | true => rfl
      | false => exact absurd he Bool.false_ne_true
    show Returns ssl true ⟨(w, (p.onEvent ssl s events err).1),
      (p.onEvent ssl s events err).2.frames ++ rest⟩ rest
    unfold ClientSide.onEvent
    split_ifs with hopen htls
    · exact (Returns.here rfl).onEventRead rfl
    · exact Returns.connect hidle rfl fun w' p' hp' => (Returns.here hp').onEventRead hp'
    · exact (Returns.here hp).onEventRead hp

/-- The loss of a connection that a transport reports is not told to the engine. -/
theorem loss_unheard {e : TransportEvent} (hidle : c.state.1.eng.state = .start → Idle c.state.1)
    (hw : c.waiting (xmppClient ssl stream) = true) (hs : c.state.2.socket_.isSome = true)
    (he : e.reportsClose stream = true) : ¬ReportCloses ssl stream c e := by
  intro hcloses
  obtain ⟨s, hs⟩ := Option.isSome_iff_exists.1 hs
  have henter : c.state.2.enter ssl stream c.state.1 (.transport e) = c.state.2.onTransport ssl stream s e := by
    unfold ClientSide.enter
    rw [hs]
  have hstep := (OverStep.event (P := engine) (D := clientLayer ssl stream) (c := c)
    (e := .transport e) hw).step
  have hret : Returns ssl stream
      ⟨(c.state.1, (c.state.2.onTransport ssl stream s e).1),
        (c.state.2.onTransport ssl stream s e).2.frames ++ c.control⟩ c.control :=
    onTransport_returns hidle hs he
  rw [← henter] at hret
  obtain ⟨c', hreach, hcontrol, -, evs, hlog, hquiet⟩ := hret
  obtain ⟨⟨evs', hlog', ev, hev, htold⟩, -⟩ := hcloses c' ⟨_, hstep, hreach, hcontrol⟩
  have heq : evs = evs' := List.append_cancel_left (hlog.symm.trans hlog')
  rw [← heq] at hev
  rw [hquiet ev hev] at htold
  exact Bool.false_ne_true htold

/-- The statement of `XmppSocket::Close`. -/
theorem step_close (hc : c.control = .layer .close :: rest) (hs : c.state.2.socket_ = some s) :
    (xmppClient ssl stream).step c .tick =
      if s.state_ ≠ .open then some ⟨c.state, rest⟩
      else if stream = true then
        some ⟨(c.state.1, c.state.2.setSocket { s with state_ := .closed }),
          .layer .closingStream :: rest⟩
      else some ⟨c.state, .layer .closing :: rest⟩ := by
  have hexec : (xmppClient ssl stream).step c .tick
      = ((c.state.2.close stream).map fun r => ((c.state.1, r.1), Code.frames r.2)).map
          fun r => ⟨r.1, r.2 ++ rest⟩ := by
    simp only [Component.step, hc]
    rfl
  rw [hexec]
  simp only [ClientSide.close, hs, Option.map_some]
  split_ifs <;> rfl

/-- `XmppSocket::Close` closes the transport and the socket exactly in `STATE_OPEN`, and there
only if the transport can be closed. A stream always can. -/
theorem closesTransport_iff {v : ClientAnswer} (hc : c.control = .layer .close :: rest)
    (hs : c.state.2.socket_ = some s) :
    ClosesTransport ssl stream c v ↔ s.state_ = .open ∧ (stream = true ∨ v.result = 0) := by
  constructor
  · rintro ⟨x, code, rest', c₁, c₂, s', hc', htick, hx, -, hret, hs', hclosed⟩
    obtain rfl := (List.cons.inj (hc.symm.trans hc')).2
    rw [step_close hc hs] at htick
    split_ifs at htick with hstate hstream
    · -- nothing was called
      obtain rfl := Option.some.inj htick
      have hlen : rest.length = (Frame.layer x :: (code ++ rest)).length := congrArg List.length hx
      rw [List.length_cons, List.length_append] at hlen
      omega
    · exact ⟨not_not.1 hstate, Or.inl hstream⟩
    · obtain rfl := Option.some.inj htick
      refine ⟨not_not.1 hstate, Or.inr ?_⟩
      by_contra hresult
      obtain rfl := Option.some.inj hret
      have hsame : (c.state.2.closed v.result).1.socket_ = some s' := hs'
      rw [ClientSide.closed, hs] at hsame
      dsimp only at hsame
      rw [if_neg hresult, hs] at hsame
      rw [← Option.some.inj hsame] at hclosed
      exact AsyncSocketState.noConfusion ((not_not.1 hstate).symm.trans hclosed)
  · rintro ⟨hstate, hresult⟩
    have htick : (xmppClient ssl stream).step c .tick = _ := step_close hc hs
    rw [if_neg (not_not.2 hstate)] at htick
    by_cases hstream : stream = true
    · rw [if_pos hstream] at htick
      exact ⟨.closingStream, [], rest, _, _, { s with state_ := .closed }, hc, htick, rfl,
        Or.inr rfl, rfl, rfl, rfl⟩
    · rw [if_neg hstream] at htick
      have hzero : v.result = 0 := hresult.resolve_left hstream
      refine ⟨.closing, [], rest, _, _, { s with state_ := .closed }, hc, htick, rfl, Or.inl rfl,
        rfl, ?_, rfl⟩
      show (c.state.2.closed v.result).1.socket_ = _
      rw [ClientSide.closed, hs]
      dsimp only
      rw [if_pos hzero]
      rfl

/-- **Connection loss.** In no joint state does the report of a lost connection close the
engine; and `XmppSocket::Close` closes the connection exactly in `STATE_OPEN`, of the states
with a connection, if the transport below can be closed. -/
theorem connection_loss (ssl stream : Bool) (settings : XmppClientSettings) (lang : Str)
    (pre_auth : Bool) {c : JointConf}
    (h : (xmppClient ssl stream).Reaches anyCall (JointConf.connected settings lang pre_auth)
      c) :
    (∀ e, e.reportsClose stream = true → c.waiting (xmppClient ssl stream) = true →
      c.state.2.socket_.isSome = true → ¬ReportCloses ssl stream c e) ∧
    ∀ s rest v, c.control = .layer .close :: rest → c.state.2.socket_ = some s →
      (ClosesTransport ssl stream c v ↔ s.state_ = .open ∧ (stream = true ∨ v.result = 0)) := by
  have hreach := (connected_reachable settings lang).trans (Reaches.project h trivial).1
  refine ⟨fun e he hw hs => loss_unheard ?_ hw hs he, fun s rest v hc hs =>
    closesTransport_iff hc hs⟩
  exact (shape_reachable hreach).global.2

/-- A connection comes up, and the stream is opened. -/
def comingUp : List (Act ClientInput ClientAnswer) :=
  [.call (.transport .onConnectEvent), .ret quietAnswer, .ret quietAnswer, .ret quietAnswer]

theorem comingUp_reaches : ∃ c, (xmppClient false false).Reaches anyCall
    (JointConf.connected carefulUser (str "en") false) c ∧
    c.control = [] ∧ c.state.1.eng.state = .opening ∧
    c.state.2.socket_.map (fun s => s.state_) = some .open := by
  obtain ⟨c, hc, hp⟩ := exists_of_drive (G := anyCall) (P := xmppClient false false) (n := 40)
    (c := JointConf.connected carefulUser (str "en") false) (l := comingUp)
    (p := fun c => c.control.isEmpty && c.state.1.eng.state = .opening &&
      c.state.2.socket_.map (fun s => s.state_) = some .open) (by decide +kernel)
  simp only [Bool.and_eq_true, List.isEmpty_iff, decide_eq_true_eq] at hp
  exact ⟨c, hc, hp.1.1, hp.1.2, hp.2⟩

/-- The loss of a connection that is open. -/
theorem connection_loss_opening : ∃ c, (xmppClient false false).Reaches anyCall
    (JointConf.connected carefulUser (str "en") false) c ∧
    c.state.1.eng.state = .opening ∧ ¬ReportCloses false false c (.onCloseEvent 104) := by
  obtain ⟨c, hc, hnil, hstate, hopen⟩ := comingUp_reaches
  refine ⟨c, hc, hstate,
    (connection_loss false false carefulUser (str "en") false hc).1 (.onCloseEvent 104) rfl ?_ ?_⟩
  · unfold Config.waiting
    rw [hnil]
  · obtain ⟨s, hs, -⟩ := Option.map_eq_some_iff.1 hopen
    exact Option.isSome_iff_exists.2 ⟨s, hs⟩

/-- It is not so that a report of a lost connection always closes the engine. -/
theorem connection_loss_unheard :
    ¬∀ (c : JointConf) (e : TransportEvent), (xmppClient false false).Reaches anyCall
      (JointConf.connected carefulUser (str "en") false) c →
      e.reportsClose false = true → c.waiting (xmppClient false false) = true →
      c.state.2.socket_.isSome = true → ReportCloses false false c e := by
  intro hall
  obtain ⟨c, hc, hnil, hstate, hopen⟩ := comingUp_reaches
  have hw : c.waiting (xmppClient false false) = true := by
    unfold Config.waiting
    rw [hnil]
  have hs : c.state.2.socket_.isSome = true := by
    obtain ⟨s, hs, -⟩ := Option.map_eq_some_iff.1 hopen
    exact Option.isSome_iff_exists.2 ⟨s, hs⟩
  refine loss_unheard (e := .onCloseEvent 104) (fun hstart => ?_) hw hs rfl
    (hall c (.onCloseEvent 104) hc rfl hw hs)
  rw [hstate] at hstart
  cases hstart

end Gxmpp
