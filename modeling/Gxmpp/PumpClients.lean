/-
Whether `PumpThread` uses its client only while it is there.

The runner deletes a client that is done, and a client that is done has signalled
`STATE_CLOSED` (`PumpClient.Ok`). So `client()`, which asks for `STATE_OPEN`, is right as long as
the states that the thread hears of come from its last client. They come from an earlier one when
`Login` is called while that is still there; and `DoDisconnect` does not ask at all.
-/
import Gxmpp.PumpThread

set_option autoImplicit false

namespace Gxmpp

/-! ## 1. What is told -/

/-- What a client can be after its `Login`. -/
structure PumpClient.Ok (c : PumpClient) : Prop where
  deleted : c.deleted = true → c.done_ = true
  done : c.done_ = true → c.signal_closed_ = true
  closed : c.engine_state = .closed → c.signal_closed_ = true
  /-- it signals it when the engine is closed, or when its task fails -/
  quiet : c.signal_closed_ = true → c.engine_state = .closed ∨ c.state_ = .error
  socket : c.done_ = false → c.socket_ = true
  connected : c.signal_closed_ = false → c.connected = true

namespace PumpThread

variable {p q r : PumpThread} {i j : Nat} {s : EngineState}

@[simp] theorem set_self (p : PumpThread) (i : Nat) (c : PumpClient) : (p.set i c).clients i = c :=
  if_pos rfl

theorem set_ne (c : PumpClient) (h : j ≠ i) : (p.set i c).clients j = p.clients j := if_neg h

theorem set_same (p : PumpThread) (i : Nat) : p.set i (p.clients i) = p := by
  unfold set
  congr 1
  funext j
  by_cases h : j = i
  · rw [if_pos h, h]
  · rw [if_neg h]

theorem set_set (a b : PumpClient) : (p.set i a).set i b = p.set i b := by
  unfold set
  congr 1
  funext j
  by_cases h : j = i
  · rw [if_pos h, if_pos h]
  · rw [if_neg h, if_neg h]
    exact if_neg h

/-- Only what the thread has heard is different. -/
structure Told (p q : PumpThread) : Prop where
  clients : q.clients = p.clients
  made : q.made = p.made
  client_ : q.client_ = p.client_

theorem Told.refl (p : PumpThread) : Told p p := ⟨rfl, rfl, rfl⟩

theorem Told.target (h : Told p q) : q.target = p.target := by
  unfold PumpThread.target
  rw [h.client_, h.clients]

theorem Told.set (h : Told p q) (c : PumpClient) : Told (p.set i c) (q.set i c) where
  clients := by
    unfold PumpThread.set
    dsimp only
    rw [h.clients]
  made := h.made
  client_ := h.client_

/-- A change of a client that does not delete it. -/
theorem target_set {c : PumpClient} (h : c.deleted = (p.clients i).deleted) :
    (p.set i c).target = p.target := by
  have hdeleted : ∀ j, ((p.set i c).clients j).deleted = (p.clients j).deleted := by
    intro j
    by_cases hj : j = i
    · rw [hj, set_self, h]
    · rw [set_ne c hj]
  unfold PumpThread.target
  show p.client_.filter _ = p.client_.filter _
  congr 1
  funext j
  rw [hdeleted]

theorem onStateChange_told (h : s = .closed → p.target.isSome = true) :
    ∃ q, p.onStateChange s = some q ∧ Told p q ∧ q.state_ = s := by
  cases s with
  | closed =>
    obtain ⟨i, hi⟩ := Option.isSome_iff_exists.1 (h rfl)
    have htarget : PumpThread.target { p with state_ := .closed } = some i := hi
    unfold onStateChange
    dsimp only
    rw [htarget]
    exact ⟨_, rfl, ⟨rfl, rfl, rfl⟩, rfl⟩
  | _ => exact ⟨_, rfl, ⟨rfl, rfl, rfl⟩, rfl⟩

theorem signalStateChange_told
    (h : s = .closed → (p.clients i).connected = true → p.target.isSome = true) :
    ∃ q, p.signalStateChange i s = some q ∧ Told p q ∧
      q.state_ = if (p.clients i).connected then s else p.state_ := by
  unfold signalStateChange
  by_cases hconnected : (p.clients i).connected = true
  · rw [if_pos hconnected, if_pos hconnected]
    exact onStateChange_told fun hs => h hs hconnected
  · rw [if_neg hconnected, if_neg hconnected]
    exact ⟨p, rfl, .refl p, rfl⟩

/-- The client has signalled that it is closed. -/
def closes (p : PumpThread) (i : Nat) : PumpThread :=
  p.set i { p.clients i with signal_closed_ := true }

theorem closes_target (p : PumpThread) (i : Nat) : (p.closes i).target = p.target := target_set rfl

theorem closes_connected (p : PumpThread) (i : Nat) :
    ((p.closes i).clients i).connected = (p.clients i).connected := by
  unfold closes
  rw [set_self]

theorem ensureClosed_told (h : (p.clients i).signal_closed_ = false →
    (p.clients i).connected = true → p.target.isSome = true) :
    ∃ q, p.ensureClosed i = some q ∧ Told (p.closes i) q ∧
      q.state_ = if (p.clients i).signal_closed_ = false ∧ (p.clients i).connected = true
        then .closed else p.state_ := by
  unfold ensureClosed
  by_cases hclosed : (p.clients i).signal_closed_ = true
  · have hsame : p.closes i = p := by
      unfold closes
      rw [← hclosed]
      exact set_same p i
    rw [if_pos hclosed, hsame, if_neg fun hand => by rw [hand.1] at hclosed; cases hclosed]
    exact ⟨p, rfl, .refl p, rfl⟩
  · rw [if_neg hclosed]
    rw [Bool.not_eq_true] at hclosed
    obtain ⟨q, hq, htold, hstate⟩ := signalStateChange_told (p := p.closes i) (i := i)
      (s := .closed) fun _ hconnected => by
        rw [closes_connected] at hconnected
        rw [closes_target]
        exact h hclosed hconnected
    refine ⟨q, hq, htold, hstate.trans ?_⟩
    rw [closes_connected]
    by_cases hconnected : (p.clients i).connected = true
    · rw [if_pos hconnected, if_pos ⟨hclosed, hconnected⟩]
    · rw [if_neg hconnected, if_neg fun hand => hconnected hand.2]
      rfl

theorem Told.trans (h : Told p q) (k : Told q r) : Told p r where
  clients := k.clients.trans h.clients
  made := k.made.trans h.made
  client_ := k.client_.trans h.client_

/-- A client is changed, and then changed again. -/
theorem Told.andSet {a b : PumpClient} (h : Told (p.set i a) q) (k : Told (q.set i b) r) :
    Told (p.set i b) r := by
  have hset := (h.set (i := i) b).trans k
  rw [set_set] at hset
  exact hset

theorem Told.client {a : PumpClient} (h : Told (p.set i a) q) : q.clients i = a := by
  rw [h.clients, set_self]

theorem Told.same {c : PumpClient} (h : c = p.clients i) : Told (p.set i c) p := by
  rw [h, set_same]
  exact .refl p

/-- `Wake` changes `blocked_`. -/
theorem wake_told (p : PumpThread) (i : Nat) : ∃ b,
    Told (p.set i { p.clients i with blocked_ := b }) (p.wake i) ∧
      (p.wake i).state_ = p.state_ := by
  unfold wake
  split_ifs
  · exact ⟨(p.clients i).blocked_, .same rfl, rfl⟩
  · exact ⟨false, ⟨rfl, rfl, rfl⟩, rfl⟩
  · exact ⟨(p.clients i).blocked_, .same rfl, rfl⟩

/-- After `Abort` the task is done. -/
theorem abort_told (p : PumpThread) (i : Nat) : ∃ b,
    Told (p.set i { p.clients i with done_ := true, blocked_ := b }) (p.abort i) ∧
      (p.abort i).state_ = p.state_ := by
  unfold abort
  by_cases hdone : (p.clients i).done_ = true
  · rw [if_pos hdone]
    refine ⟨(p.clients i).blocked_, .same ?_, rfl⟩
    rw [← hdone]
  · rw [if_neg hdone]
    exact ⟨true, ⟨rfl, rfl, rfl⟩, rfl⟩

/-- The engine of a client is closed, and the client is told. -/
theorem engineClosed_told (h : (p.clients i).signal_closed_ = false →
    (p.clients i).connected = true → p.target.isSome = true) :
    ∃ q b, p.engineStateChange i .closed = some q ∧
      Told (p.set i { p.clients i with signal_closed_ := true, blocked_ := b }) q ∧
      q.state_ = if (p.clients i).signal_closed_ = false ∧ (p.clients i).connected = true
        then .closed else p.state_ := by
  obtain ⟨q, hq, htold, hstate⟩ := ensureClosed_told h
  obtain ⟨b, hwake, hsame⟩ := wake_told q i
  refine ⟨q.wake i, b, ?_, ?_, hsame.trans hstate⟩
  · unfold engineStateChange
    rw [if_pos rfl, hq]
    rfl
  · have hset := htold.andSet hwake
    rw [htold.client] at hset
    exact hset

/-- The engine comes to another state. -/
theorem engineStateChange_told (hs : s ≠ .closed) :
    ∃ q b, p.engineStateChange i s = some q ∧
      Told (p.set i { p.clients i with blocked_ := b }) q ∧
      q.state_ = if (p.clients i).connected then s else p.state_ := by
  obtain ⟨q, hq, htold, hstate⟩ := signalStateChange_told (p := p) (i := i) (s := s)
    fun h => absurd h hs
  obtain ⟨b, hwake, hsame⟩ := wake_told q i
  refine ⟨q.wake i, b, ?_, ?_, hsame.trans hstate⟩
  · unfold engineStateChange
    rw [if_neg hs, hq]
    rfl
  · have hset := (htold.set (i := i) { q.clients i with blocked_ := b }).trans hwake
    rw [htold.clients] at hset
    exact hset

theorem engineDisconnect_told
    (hclosed : (p.clients i).engine_state = .closed → (p.clients i).signal_closed_ = true)
    (h : (p.clients i).signal_closed_ = false → (p.clients i).connected = true →
      p.target.isSome = true) :
    ∃ q b, p.engineDisconnect i = some q ∧
      Told (p.set i { p.clients i with
        engine_state := .closed
        signal_closed_ := true
        blocked_ := b }) q ∧
      q.state_ = if (p.clients i).signal_closed_ = false ∧ (p.clients i).connected = true
        then .closed else p.state_ := by
  unfold engineDisconnect
  by_cases hengine : (p.clients i).engine_state = .closed
  · have hsignal := hclosed hengine
    rw [if_pos hengine, if_neg fun hand => by rw [hand.1] at hsignal; cases hsignal]
    refine ⟨p, (p.clients i).blocked_, rfl, .same ?_, rfl⟩
    rw [← hsignal, ← hengine]
  · rw [if_neg hengine]
    have htarget := target_set (p := p) (i := i)
      (c := { p.clients i with engine_state := .closed }) rfl
    obtain ⟨q, b, hq, htold, hstate⟩ := engineClosed_told (i := i)
      (p := p.set i { p.clients i with engine_state := .closed }) (by
        rw [set_self, htarget]
        exact h)
    rw [set_self, set_set] at htold
    rw [set_self] at hstate
    exact ⟨q, b, hq, htold, hstate⟩

/-- `XmppClient::Disconnect`, of a client with a socket. -/
theorem clientDisconnect_told (hsocket : (p.clients i).socket_ = true)
    (hclosed : (p.clients i).engine_state = .closed → (p.clients i).signal_closed_ = true)
    (h : p.target.isSome = true) :
    ∃ q b, p.clientDisconnect i = some q ∧
      Told (p.set i { p.clients i with
        done_ := true
        engine_state := .closed
        signal_closed_ := true
        blocked_ := b
        socket_ := false }) q ∧
      q.state_ = if (p.clients i).signal_closed_ = false ∧ (p.clients i).connected = true
        then .closed else p.state_ := by
  obtain ⟨b, habort, hstate⟩ := abort_told p i
  have hclient := habort.client
  have htarget : (p.abort i).target = p.target := habort.target.trans (target_set rfl)
  obtain ⟨q, b', hq, htold, hstate'⟩ := engineDisconnect_told (p := p.abort i) (i := i) (by
    rw [hclient]
    exact hclosed) fun _ _ => by
      rw [htarget]
      exact h
  rw [hclient] at htold hstate'
  rw [hstate] at hstate'
  have hset := habort.andSet htold
  refine ⟨q.set i { q.clients i with socket_ := false }, b', ?_, ?_, hstate'⟩
  · unfold clientDisconnect
    rw [hsocket, if_neg (by decide), hq]
    rfl
  · have hfinal := hset.set (i := i) { q.clients i with socket_ := false }
    rw [set_set, hset.client] at hfinal
    rw [hset.client]
    exact hfinal

/-! ## 2. What holds all the time -/

/-- The last client has not signalled that it is closed. -/
def clientOpen (p : PumpThread) : Bool := p.client_.any fun i => !(p.clients i).signal_closed_

theorem clientOpen_iff : p.clientOpen = true ↔
    ∃ i, p.client_ = some i ∧ (p.clients i).signal_closed_ = false := by
  unfold clientOpen
  cases p.client_ with
  | none | some => simp

theorem Told.clientOpen (h : Told p q) : q.clientOpen = p.clientOpen := by
  unfold PumpThread.clientOpen
  rw [h.client_, h.clients]

theorem clientOpen_set {c : PumpClient} (h : p.client_ = some i →
    c.signal_closed_ = (p.clients i).signal_closed_) : (p.set i c).clientOpen = p.clientOpen := by
  unfold clientOpen
  show p.client_.any _ = p.client_.any _
  cases hclient : p.client_ with
  | none => rfl
  | some j =>
    show (!((p.set i c).clients j).signal_closed_) = !(p.clients j).signal_closed_
    by_cases hj : j = i
    · rw [hj] at hclient ⊢
      rw [set_self, h hclient]
    · rw [set_ne c hj]

/-- What holds of the thread and its clients all the time. -/
structure Ok (p : PumpThread) : Prop where
  clients : ∀ i < p.made, (p.clients i).Ok
  made : ∀ i, p.client_ = some i → i < p.made
  /-- what the thread has heard last is true of its last client -/
  open_ : p.state_ = .open → p.clientOpen = true

theorem Ok.update (h : p.Ok) {c : PumpClient} (hc : c.Ok) (htold : Told (p.set i c) q)
    (hopen : q.state_ = .open → (p.set i c).clientOpen = true) : q.Ok where
  clients j hj := by
    rw [htold.made] at hj
    rw [htold.clients]
    by_cases hji : j = i
    · rw [hji, set_self]
      exact hc
    · rw [set_ne c hji]
      exact h.clients j hj
  made j hj := by
    rw [htold.client_] at hj
    rw [htold.made]
    exact h.made j hj
  open_ hstate := by
    rw [htold.clientOpen]
    exact hopen hstate

/-- A client that signals that it is closed is heard. -/
theorem Ok.closing (h : p.Ok) (hi : i < p.made) {c : PumpClient} (hc : c.Ok)
    (hclosed : c.signal_closed_ = true) (htold : Told (p.set i c) q)
    (hstate : q.state_ = if (p.clients i).signal_closed_ = false ∧ (p.clients i).connected = true
      then .closed else p.state_) : q.Ok := by
  refine h.update hc htold fun hopen => ?_
  by_cases hsignal : (p.clients i).signal_closed_ = false
  · rw [hstate, if_pos ⟨hsignal, (h.clients i hi).connected hsignal⟩] at hopen
    cases hopen
  · rw [hstate, if_neg fun hand => hsignal hand.1] at hopen
    rw [clientOpen_set fun _ => ?_]
    · exact h.open_ hopen
    · rw [hclosed]
      exact ((Bool.not_eq_false _).mp hsignal).symm

theorem target_eq_some : p.target = some i ↔
    p.client_ = some i ∧ (p.clients i).deleted = false := by
  unfold target
  rw [Option.filter_eq_some_iff, Bool.not_eq_true']

/-- A client that has not signalled that it is closed is not deleted. -/
theorem Ok.target_of_open (h : p.Ok) (hopen : p.clientOpen = true) : p.target.isSome = true := by
  obtain ⟨i, hi, hsignal⟩ := clientOpen_iff.1 hopen
  have hok := h.clients i (h.made i hi)
  have hundone : (p.clients i).done_ = false :=
    Bool.eq_false_iff.2 fun hdone => by
      rw [hok.done hdone] at hsignal
      cases hsignal
  have hlive : (p.clients i).deleted = false :=
    Bool.eq_false_iff.2 fun hdeleted => by
      rw [hok.deleted hdeleted] at hundone
      cases hundone
  rw [target_eq_some.2 ⟨hi, hlive⟩]
  rfl

theorem init_ok : init.Ok where
  clients i hi := absurd hi (Nat.not_lt_zero i)
  made := nofun
  open_ := nofun

/-! ## 3. The events -/

/-- The client that `DoLogin` makes, when it is started. -/
def loggedIn : PumpClient :=
  { PumpClient.new with connected := true, socket_ := true, engine_state := .start }

/-- `DoLogin`. Its client is a child of the runner that is not done. -/
theorem doLogin_spec (p : PumpThread) : ∃ q, p.doLogin = some q ∧ q.made = p.made + 1 ∧
    q.client_ = some p.made ∧ q.state_ = .start ∧ q.clients p.made = loggedIn ∧
    ∀ j, j ≠ p.made → q.clients j = p.clients j := by
  generalize hmade : { p.set p.made PumpClient.new with
    made := p.made + 1
    client_ := some p.made } = m
  have hnew : m.clients p.made = PumpClient.new := by
    rw [← hmade]
    exact set_self p _ _
  have hchildren : m.allChildrenDone = false := by
    refine Bool.eq_false_iff.2 fun hall => ?_
    have hdone := List.all_eq_true.1 hall p.made (by rw [← hmade]; simp)
    rw [hnew] at hdone
    cases hdone
  obtain ⟨q, hq, htold, hstate⟩ := onStateChange_told (p := m) (s := .start) nofun
  have hclient : q.clients p.made = PumpClient.new := by
    rw [htold.clients, hnew]
  have htarget : q.target = some p.made := by
    rw [htold.target]
    refine target_eq_some.2 ⟨?_, congrArg PumpClient.deleted hnew⟩
    rw [← hmade]
  have hfinal : ((q.set p.made loggedIn).post .runTasks).target = some p.made :=
    (target_set (by rw [hclient]; rfl)).trans htarget
  refine ⟨(q.set p.made loggedIn).post .runTasks, ?_, ?_, ?_, hstate, set_self q _ _,
    fun j hj => ?_⟩
  · unfold doLogin
    dsimp only
    rw [hmade, hchildren, if_pos (by decide), hq, Option.bind_some, htarget, Option.map_some,
      hclient]
    show (some ((q.set p.made loggedIn).post .runTasks)).bind _ = _
    rw [Option.bind_some, hfinal]
    rfl
  · show q.made = _
    rw [htold.made, ← hmade]
  · show q.client_ = _
    rw [htold.client_, ← hmade]
  · show (q.set p.made loggedIn).clients j = _
    rw [set_ne _ hj, htold.clients, ← hmade]
    exact set_ne _ hj

theorem doLogin_ok (h : p.Ok) : ∃ q, p.doLogin = some q ∧ q.Ok := by
  obtain ⟨q, hq, hmade, hclient, hstate, hnew, hold⟩ := p.doLogin_spec
  refine ⟨q, hq, fun j hj => ?_, fun j hj => ?_, fun hopen => ?_⟩
  · rw [hmade] at hj
    by_cases hji : j = p.made
    · rw [hji, hnew]
      exact ⟨nofun, nofun, nofun, nofun, fun _ => rfl, fun _ => rfl⟩
    · rw [hold j hji]
      exact h.clients j (by omega)
  · rw [hclient] at hj
    rw [hmade, ← Option.some.inj hj]
    exact Nat.lt_succ_self _
  · rw [hstate] at hopen
    cases hopen

/-- `DoDisconnect`, when the last client is there. -/
theorem doDisconnect_ok (h : p.Ok) (htarget : p.target.isSome = true) :
    ∃ q, p.doDisconnect = some q ∧ q.Ok := by
  obtain ⟨i, hi⟩ := Option.isSome_iff_exists.1 htarget
  obtain ⟨hclient, hlive⟩ := target_eq_some.1 hi
  have hmade := h.made i hclient
  have hok := h.clients i hmade
  -- the client that is disconnected has signalled that it is closed
  have hdisconnect : ∀ {m : PumpThread}, m.Ok → m.made = p.made → m.target = some i →
      (m.clients i).signal_closed_ = true →
      ∃ q, m.target.map (fun i => m.set i { m.clients i with connected := false }) = some q ∧
        q.Ok := by
    intro m hm hmade' ht hsignal
    have hmok := hm.clients i (hmade'.symm ▸ hmade)
    rw [ht]
    refine ⟨_, rfl, hm.update (i := i) (c := { m.clients i with connected := false })
      ⟨hmok.deleted, hmok.done, hmok.closed, hmok.quiet, hmok.socket, fun hnot => ?_⟩ (.refl _)
      fun (hopen : m.state_ = .open) => ?_⟩
    · rw [hsignal] at hnot
      cases hnot
    · refine (clientOpen_set ?_).trans (hm.open_ hopen)
      exact fun _ => rfl
  unfold doDisconnect
  cases hchildren : p.allChildrenDone with
  | true =>
    have hdone := List.all_eq_true.1 hchildren i (List.mem_range.2 hmade)
    rw [if_neg (by decide), Option.bind_some]
    exact hdisconnect h rfl hi (hok.done hdone)
  | false =>
    rw [if_pos (by decide), hi, Option.bind_some]
    cases hsocket : (p.clients i).socket_ with
    | false =>
      have hdone : (p.clients i).done_ = true := by
        by_contra hnot
        rw [hok.socket (Bool.eq_false_iff.2 hnot)] at hsocket
        cases hsocket
      unfold clientDisconnect
      rw [hsocket, if_pos (by decide), Option.bind_some]
      exact hdisconnect h rfl hi (hok.done hdone)
    | true =>
      obtain ⟨q, b, hq, htold, hstate⟩ := clientDisconnect_told hsocket hok.closed htarget
      rw [hq, Option.bind_some]
      refine hdisconnect (h.closing hmade ?_ rfl htold hstate) htold.made ?_ ?_
      · exact ⟨fun _ => rfl, fun _ => rfl, fun _ => rfl, fun _ => Or.inl rfl, nofun, nofun⟩
      · rw [htold.target, target_set]
        · exact hi
        · rfl
      · rw [htold.client]

end PumpThread

/-- What `Process` can come to. -/
structure ClientProcess.Of (c : PumpClient) (r : ClientProcess) : Prop where
  client : r.client = { c with error := r.client.error }
  closes : r.closes = true ↔ r.new_state = some .error
  done : r.new_state = some .done → c.socket_ = false ∨ c.engine_state = .closed
  failed : c.state_ = .error → r.new_state = none

section Process

variable {c : PumpClient}

/-- The client does not fail. -/
theorem ClientProcess.Of.goesOn {new_state : Option ClientTaskState}
    (hstate : c.state_ = .error → new_state = none) (herror : new_state ≠ some .error)
    (hdone : new_state = some .done → c.socket_ = false ∨ c.engine_state = .closed) :
    ClientProcess.Of c ⟨c, false, new_state⟩ :=
  ⟨rfl, ⟨nofun, fun h => absurd h herror⟩, hdone, hstate⟩

/-- The client has no socket any more. -/
theorem ClientProcess.Of.ends (hstate : c.state_ ≠ .error) (hsocket : (!c.socket_) = true) :
    ClientProcess.Of c ⟨c, false, some .done⟩ := by
  rw [Bool.not_eq_true'] at hsocket
  exact .goesOn (fun h => absurd h hstate) (by decide) fun _ => Or.inl hsocket

/-- The client fails. -/
theorem ClientProcess.Of.fails (error : EngineError) (hstate : c.state_ ≠ .error) :
    ClientProcess.Of c ⟨{ c with error }, true, some .error⟩ :=
  ⟨rfl, ⟨fun _ => rfl, fun _ => rfl⟩, nofun, fun h => absurd h hstate⟩

theorem PumpClient.processTokenLogin_of (auth : AuthState) (hstate : c.state_ ≠ .error) :
    (c.processTokenLogin auth).Of c := by
  unfold PumpClient.processTokenLogin
  split_ifs with hsocket
  · exact .ends hstate hsocket
  · cases auth with
    | missing | refused => exact .fails _ hstate
    | pending => exact .goesOn (fun _ => rfl) nofun nofun
    | authorized => exact .goesOn (fun h => absurd h hstate) nofun nofun

theorem PumpClient.processStartXmppLogin_of (connects : Bool) (hstate : c.state_ ≠ .error) :
    (c.processStartXmppLogin connects).Of c := by
  unfold PumpClient.processStartXmppLogin
  split_ifs with hsocket hconnects
  · exact .ends hstate hsocket
  · exact .fails c.error hstate
  · exact .goesOn (fun h => absurd h hstate) nofun nofun

theorem PumpClient.process_of (c : PumpClient) (auth : AuthState) (connects : Bool) :
    (c.process auth connects).Of c := by
  unfold PumpClient.process
  split
  · rename_i hstart
    have hstate : c.state_ ≠ .error := by rw [hstart]; decide
    split_ifs with hsocket
    · exact .ends hstate hsocket
    · exact .goesOn (fun h => absurd h hstate) nofun nofun
  · rename_i hpre
    exact processTokenLogin_of auth (by rw [hpre]; decide)
  · rename_i hconnect
    exact processStartXmppLogin_of connects (by rw [hconnect]; decide)
  · rename_i hresponse
    have hstate : c.state_ ≠ .error := by rw [hresponse]; decide
    split_ifs with hengine
    · exact .goesOn (fun h => absurd h hstate) (by decide) fun _ => Or.inr hengine
    · exact .goesOn (fun _ => rfl) nofun nofun
  all_goals exact .goesOn (fun _ => rfl) nofun nofun

/-- After a step in which it does not fail. -/
theorem PumpClient.Ok.answered (h : c.Ok) {r : ClientProcess} (hof : r.Of c)
    (hcloses : r.closes = false) :
    ({ c with error := r.client.error }.answered r.new_state).Ok := by
  have hnot : r.new_state ≠ some .error := fun herror => by
    rw [hof.closes.2 herror] at hcloses
    cases hcloses
  unfold PumpClient.answered
  cases hstate : r.new_state with
  | none => exact { h with }
  | some new_state =>
    have hquiet : c.signal_closed_ = true → c.engine_state = .closed := fun hsignal => by
      refine (h.quiet hsignal).resolve_right fun herror => ?_
      have hnone := hof.failed herror
      rw [hstate] at hnone
      cases hnone
    dsimp only
    split_ifs with hend
    · have hdone : new_state = .done := hend.resolve_right fun herror => by
        rw [hstate, herror] at hnot
        exact hnot rfl
      rw [hdone] at hstate
      have hsignal : c.signal_closed_ = true := by
        rcases hof.done hstate with hsocket | hengine
        · by_contra hopen
          have hundone : c.done_ = false := Bool.eq_false_iff.2 fun hd => hopen (h.done hd)
          rw [h.socket hundone] at hsocket
          cases hsocket
        · exact h.closed hengine
      exact ⟨fun _ => rfl, fun _ => hsignal, h.closed, fun hs => Or.inl (hquiet hs), nofun,
        h.connected⟩
    · exact ⟨h.deleted, h.done, h.closed, fun hs => Or.inl (hquiet hs), h.socket, h.connected⟩

theorem PumpClient.answered_signal (c : PumpClient) (new_state : Option ClientTaskState) :
    (c.answered new_state).signal_closed_ = c.signal_closed_ := by
  unfold PumpClient.answered
  cases new_state with
  | none => rfl
  | some s =>
    dsimp only
    split_ifs <;> rfl

end Process

namespace PumpThread

variable {p q : PumpThread} {i : Nat} {s : EngineState}

/-- The client and the state that an event makes it signal. -/
def signals (p : PumpThread) : PumpEvent → Option (Nat × EngineState)
  | .engine i state _ => some (i, state)
  | .step i auth connects =>
    if ((p.clients i).process auth connects).closes then some (i, .closed) else none
  | _ => none

/-- A `Disconnect` is dispatched. -/
def disconnects (p : PumpThread) : PumpEvent → Bool
  | .dispatch => p.queue.head? = some .disconnect
  | _ => false

/-- A `Disconnect` is dispatched after a `Login` and before the client of the last one is deleted.
A client of an earlier one does not signal `STATE_CLOSED` after that, and does not signal
`STATE_OPEN` after the last one has signalled `STATE_CLOSED`. -/
def Orderly (p : PumpThread) (e : PumpEvent) : Prop :=
  (p.disconnects e = true → p.target.isSome = true) ∧
  ∀ g ∈ p.signals e, p.client_ ≠ some g.1 → (p.clients g.1).connected = true →
    (g.2 = .closed → p.target.isSome = true) ∧ (g.2 = .open → p.clientOpen = true)

instance (p : PumpThread) (e : PumpEvent) : Decidable (p.Orderly e) :=
  inferInstanceAs (Decidable (_ ∧ ∀ g ∈ p.signals e, _))

/-- A client that signals is the last one, and it is alive, or the condition speaks of it. -/
theorem target_of_signals {e : PumpEvent} (hK : p.Orderly e) (hi : p.Alive i)
    (hsignals : p.signals e = some (i, .closed)) (hconnected : (p.clients i).connected = true) :
    p.target.isSome = true := by
  by_cases hclient : p.client_ = some i
  · rw [target_eq_some.2 ⟨hclient, hi.2⟩]
    rfl
  · exact (hK.2 (i, .closed) hsignals hclient hconnected).1 rfl

/-- The runner steps a client. -/
theorem step_ok (h : p.Ok) {auth : AuthState} {connects : Bool} (hi : p.Alive i)
    (hK : p.Orderly (.step i auth connects)) : ∃ q, p.step i auth connects = some q ∧ q.Ok := by
  have hok := h.clients i hi.1
  have hof := (p.clients i).process_of auth connects
  have hsignals : p.signals (.step i auth connects)
      = if ((p.clients i).process auth connects).closes then some (i, .closed) else none := rfl
  unfold step
  dsimp only
  generalize (p.clients i).process auth connects = r at hof hsignals ⊢
  rw [hof.client]
  cases hcloses : r.closes with
  | true =>
    rw [hcloses, if_pos rfl] at hsignals
    rw [if_pos rfl, hof.closes.1 hcloses]
    obtain ⟨q, hq, htold, hstate⟩ := ensureClosed_told (i := i)
      (p := p.set i { p.clients i with error := r.client.error }) (by
        rw [set_self, target_set (p := p) (c := { p.clients i with error := r.client.error }) rfl]
        exact fun _ hconnected => target_of_signals hK hi hsignals hconnected)
    have hset := htold.set (i := i) ((q.clients i).answered (some .error))
    unfold closes at htold hset
    rw [set_self, set_set] at htold
    rw [set_self] at hstate
    rw [set_set, set_set] at hset
    rw [htold.client] at hset
    refine ⟨_, by rw [hq, Option.map_some, htold.client], h.closing hi.1 ?_ rfl hset hstate⟩
    exact ⟨fun _ => rfl, fun _ => rfl, fun _ => rfl, fun _ => Or.inr rfl, nofun, nofun⟩
  | false =>
    rw [if_neg (by decide), Option.map_some, set_self, set_set]
    refine ⟨_, rfl, h.update (i := i) (hok.answered hof hcloses) (.refl _)
      fun (hopen : p.state_ = .open) => ?_⟩
    refine (clientOpen_set fun _ => ?_).trans (h.open_ hopen)
    exact PumpClient.answered_signal _ _

/-- The engine of a client changes its state. -/
theorem engineMoves_ok (h : p.Ok) {error : EngineError} (hi : p.Alive i)
    (hresponse : (p.clients i).state_ = .response) (hengine : (p.clients i).engine_state ≠ .closed)
    (hK : p.Orderly (.engine i s error)) : ∃ q, p.engineMoves i s error = some q ∧ q.Ok := by
  have hok := h.clients i hi.1
  have hsignal : (p.clients i).signal_closed_ = false := Bool.eq_false_iff.2 fun hclosed => by
    rcases hok.quiet hclosed with h | h
    · exact hengine h
    · rw [hresponse] at h
      cases h
  have hconnected := hok.connected hsignal
  unfold engineMoves
  by_cases hs : s = .closed
  · rw [hs] at hK ⊢
    obtain ⟨q, b, hq, htold, hstate⟩ := engineClosed_told (i := i)
      (p := p.set i { p.clients i with engine_state := .closed, error }) (by
        rw [target_set (p := p) (c := { p.clients i with engine_state := .closed, error }) rfl]
        exact fun _ _ => target_of_signals hK hi rfl hconnected)
    rw [set_self, set_set] at htold
    rw [set_self] at hstate
    refine ⟨q, hq, h.closing hi.1 ?_ rfl htold hstate⟩
    exact ⟨hok.deleted, fun _ => rfl, fun _ => rfl, fun _ => Or.inl rfl, hok.socket, nofun⟩
  · obtain ⟨q, b, hq, htold, hstate⟩ := engineStateChange_told (i := i)
      (p := p.set i { p.clients i with engine_state := s, error }) hs
    rw [set_self, set_set] at htold
    rw [set_self, if_pos hconnected] at hstate
    refine ⟨q, hq, h.update (i := i) (c := { p.clients i with
      engine_state := s
      error
      blocked_ := b }) ⟨hok.deleted, hok.done, fun h => absurd h hs, fun hclosed => ?_,
        hok.socket, hok.connected⟩ htold fun hopen => ?_⟩
    · rw [hsignal] at hclosed
      cases hclosed
    · refine (clientOpen_set ?_).trans ?_
      · exact fun _ => rfl
      · by_cases hclient : p.client_ = some i
        · exact clientOpen_iff.2 ⟨i, hclient, hsignal⟩
        · exact (hK.2 (i, s) rfl hclient hconnected).2 (hstate.symm.trans hopen)

theorem sweep_ok (h : p.Ok) : p.sweep.Ok where
  clients i hi := by
    have hok := h.clients i hi
    exact ⟨id, hok.done, hok.closed, hok.quiet, hok.socket, hok.connected⟩
  made := h.made
  open_ := h.open_

theorem dispatch_ok (h : p.Ok) (hK : p.Orderly .dispatch) : ∃ q, p.dispatch = some q ∧ q.Ok := by
  have hdisconnects : p.queue.head? = some .disconnect → p.target.isSome = true := fun hhead =>
    hK.1 (decide_eq_true hhead)
  unfold dispatch
  cases hqueue : p.queue with
  | nil => exact ⟨p, rfl, h⟩
  | cons msg rest =>
    have hrest : PumpThread.Ok { p with queue := rest } := { h with }
    cases msg with
    | login => exact doLogin_ok hrest
    | disconnect => exact doDisconnect_ok hrest (hdisconnects (by rw [hqueue]; rfl))
    | runTasks => exact ⟨_, rfl, { h with }⟩
    | _ => exact ⟨_, rfl, hrest⟩

theorem pump_step (h : p.Ok) {e : PumpEvent} (he : p.Possible e) (hK : p.Orderly e) :
    ∃ q, pumpThread.step p e = some q ∧ q.Ok := by
  cases e with
  | login | disconnect => exact ⟨_, rfl, { h with }⟩
  | dispatch => exact dispatch_ok h hK
  | step i auth connects => exact step_ok h he.2.1 hK
  | sweep => exact ⟨_, rfl, sweep_ok h⟩
  | engine i state error =>
    obtain ⟨-, hi, hresponse, hengine, -⟩ := he
    exact engineMoves_ok h hi hresponse hengine hK

theorem Ok.client (h : p.Ok) : p.client.isSome = true := by
  unfold PumpThread.client
  split_ifs with hstate
  · rfl
  · rw [Option.isSome_map]
    exact h.target_of_open (h.open_ (not_not.1 hstate))

end PumpThread

/-! ## 4. The runs -/

/-- In every run whose steps are orderly, `client()` is right, and no orderly step uses a client
that is not there. -/
theorem client_used_alive {p : PumpThread}
    (h : pumpThread.ReachesWhen PumpThread.Orderly PumpThread.init p) :
    p.client.isSome = true ∧
      ∀ e, p.Possible e → p.Orderly e → (pumpThread.step p e).isSome = true := by
  obtain ⟨hok, hsafe⟩ := Faulting.ReachesWhen.safe h PumpThread.init_ok
    fun p e hp he hK => PumpThread.pump_step hp he hK
  exact ⟨hok.client, hsafe⟩

/-- A login, up to the client that waits for its server. -/
def pumpLogin : List PumpEvent :=
  [.login, .dispatch, .dispatch, .step 0 .pending false, .step 0 .authorized false,
    .step 0 .pending true, .step 0 .pending false, .sweep]

/-- The stream opens, and the client is asked what it does. -/
def pumpOpens : List PumpEvent :=
  [.engine 0 .opening .none, .engine 0 .open .none, .dispatch, .step 0 .pending false, .sweep,
    .dispatch]

/-- The connection is lost, and the runner deletes the client. -/
def pumpLoses : List PumpEvent :=
  [.engine 0 .closed .socket, .dispatch, .dispatch, .step 0 .pending false, .sweep]

instance (p : PumpThread) (e : PumpEvent) : Decidable (pumpThread.enabled p e) :=
  inferInstanceAs (Decidable (p.Possible e))

/-- When the stream is open, `client()` is the client, and it may be disconnected. -/
theorem client_used_alive_open : ∃ p,
    pumpThread.ReachesWhen PumpThread.Orderly PumpThread.init p ∧
    p.queue = [.disconnect] ∧ p.client = some (some 0) ∧
    (pumpThread.step p .dispatch).isSome = true := by
  obtain ⟨p, hp, hopen⟩ := Faulting.exists_of_follow (S := pumpThread) (K := PumpThread.Orderly)
    (s := PumpThread.init) (l := pumpLogin ++ pumpOpens ++ [.disconnect])
    (p := fun p => decide (p.queue = [.disconnect] ∧ p.client = some (some 0) ∧
      p.Possible .dispatch ∧ p.Orderly .dispatch)) (by decide +kernel)
  obtain ⟨hqueue, hclient, hpossible, horderly⟩ := of_decide_eq_true hopen
  exact ⟨p, hp, hqueue, hclient, (client_used_alive hp).2 .dispatch hpossible horderly⟩

/-- The connection is lost and the client deleted, and then `Disconnect` is called. -/
theorem client_used_deleted : ¬∀ p, pumpThread.Reaches PumpThread.init p →
    p.client.isSome = true ∧ pumpThread.SafeAt p := by
  intro hall
  obtain ⟨p, hp, hgoes⟩ := Faulting.exists_of_follow (S := pumpThread) (K := fun _ _ => True)
    (s := PumpThread.init) (l := pumpLogin ++ pumpOpens ++ pumpLoses ++ [.disconnect])
    (p := fun p => decide (p.Possible .dispatch) && (pumpThread.step p .dispatch).isNone)
    (by decide +kernel)
  obtain ⟨hpossible, hnone⟩ := Bool.and_eq_true_iff.1 hgoes
  have hsafe := (hall p hp).2 .dispatch (of_decide_eq_true hpossible)
  rw [Option.isNone_iff_eq_none.1 hnone] at hsafe
  cases hsafe

end Gxmpp
