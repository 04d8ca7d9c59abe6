/-
Whether `IsEncrypted` tells the truth.

`XmppEngineImpl::StartTls` sets `encrypted_` as soon as the output handler's `StartTls`,
which returns nothing, is back. The client's `StartTls` drops the answer of the socket,
and does nothing at all in a build without SSL. So the flag says that TLS was asked for;
`encrypted_truthful` says exactly when it also says that TLS was started, and
`encrypted_untruthful` is a login that sends the password after TLS failed to start.
-/
import Gxmpp.XmppClient
import Gxmpp.LoginSafety
import Mathlib.Data.List.Chain

set_option autoImplicit false

namespace Gxmpp

open World Reentrant

/-! ## What is promised -/

/-- When the engine says that the connection is encrypted, a `StartTls` of the socket has
returned true. -/
def Truthful (c : ClientConf) : Prop :=
  c.state.1.eng.encrypted = true → true ∈ c.state.2.startTlsReturned

/-- What `XmppSocket::StartTls` returns. -/
def startTlsOutcome (feature_enable_ssl : Bool) (tls : TlsOptions) (startSSL : Int) : Bool :=
  feature_enable_ssl && tls ≠ .disabled && startSSL = 0

theorem startTls_outcome (ssl : Bool) (s : XmppSocket) (startSSL : Int) :
    (s.startTls ssl startSSL).2 = startTlsOutcome ssl s.tls_ startSSL := by
  unfold XmppSocket.startTls startTlsOutcome
  by_cases hssl : ssl = true
  · by_cases htls : s.tls_ = .disabled
    · simp [hssl, htls]
    · by_cases hstart : startSSL = 0 <;> simp [hssl, htls, hstart]
  · simp [hssl]

theorem startTls_tls (ssl : Bool) (s : XmppSocket) (startSSL : Int) :
    (s.startTls ssl startSSL).1.tls_ = s.tls_ := by
  unfold XmppSocket.startTls
  split
  · split
    · rfl
    · split <;> rfl
  · rfl

/-! ## What the device does -/

/-- A call of the output handler's `StartTls`. -/
def Stmt.isTlsCall : Stmt → Bool
  | .callback (.startTls _) => true
  | _ => false

section

variable (ssl : Bool) (startSSL : Nat → Int)

/-- The answers of the socket after a handler has returned. -/
def answersAfter (p : ClientPrivate) (s : Stmt) : List Bool :=
  if s.isTlsCall && ssl then
    p.startTlsReturned
      ++ [startTlsOutcome ssl p.socket_.tls_ (startSSL p.startTlsReturned.length)]
  else p.startTlsReturned

theorem device_resume (p : ClientPrivate) (s : Stmt) (v : Answer) :
    ((clientDevice ssl startSSL).resume p s v).1.socket_.tls_ = p.socket_.tls_ ∧
    ((clientDevice ssl startSSL).resume p s v).1.startTlsReturned
      = answersAfter ssl startSSL p s := by
  have hother : s.isTlsCall = false → p.startTlsReturned = answersAfter ssl startSSL p s := by
    intro hs
    rw [answersAfter, hs]
    rfl
  cases s with
  | callback cb =>
    cases cb with
    | startTls domain =>
      show (XmppClient.startTls ssl startSSL p).socket_.tls_ = _ ∧
        (XmppClient.startTls ssl startSSL p).startTlsReturned = _
      unfold XmppClient.startTls answersAfter
      by_cases hssl : ssl = true
      · simp only [hssl, if_true, Stmt.isTlsCall, Bool.and_self]
        exact ⟨startTls_tls _ _ _, by rw [startTls_outcome]⟩
      · simp [hssl]
    | closeConnection =>
      refine ⟨?_, hother rfl⟩
      show (p.socket_.close v.closed).tls_ = _
      unfold XmppSocket.close
      split
      · rfl
      · split <;> rfl
    | _ => exact ⟨rfl, hother rfl⟩
  | _ => exact ⟨rfl, hother rfl⟩

theorem device_enter (w : World) (p : ClientPrivate) (e : ClientEvent) :
    ((clientDevice ssl startSSL).enter w p e).1.socket_.tls_ = p.socket_.tls_ ∧
    ((clientDevice ssl startSSL).enter w p e).1.startTlsReturned = p.startTlsReturned := by
  cases e with
  | engine m => exact ⟨rfl, rfl⟩
  | onConnectEvent =>
    refine ⟨?_, rfl⟩
    show p.socket_.onConnectEvent.1.tls_ = _
    unfold XmppSocket.onConnectEvent
    split <;> rfl
  | process connected =>
    show (XmppClient.process w.eng.user_jid w.eng.state connected p).1.socket_.tls_ = _ ∧
      (XmppClient.process w.eng.user_jid w.eng.state connected p).1.startTlsReturned = _
    unfold XmppClient.process XmppClient.processStart XmppClient.processTokenLogin
    split
    · split <;> exact ⟨rfl, rfl⟩
    · split
      · exact ⟨rfl, rfl⟩
      · split <;> exact ⟨rfl, rfl⟩
    · exact ⟨rfl, rfl⟩
    · exact ⟨rfl, rfl⟩
    · exact ⟨rfl, rfl⟩
    · exact ⟨rfl, rfl⟩

end

/-! ## TLS asked for, TLS not yet answered -/

/-- `encrypted_ = true` is to be executed only under the call of `StartTls`. -/
def Paired (control : List Stmt) : Prop :=
  control.head? ≠ some .startedTls ∧
    control.IsChain fun x y => y = .startedTls → x.isTlsCall = true

variable {l : List Stmt} {s : Stmt} {r : World × List Stmt} {w : World}

theorem Paired.cons (h : Paired l) (hs : s ≠ .startedTls) : Paired (s :: l) := by
  refine ⟨fun heq => hs (Option.some.inj heq), h.2.cons fun y hy hstarted => ?_⟩
  exact absurd (hstarted ▸ hy) h.1

theorem Paired.append {push : List Stmt} (h : Paired l) (hp : ∀ p ∈ push, p ≠ .startedTls) :
    Paired (push ++ l) := by
  induction push with
  | nil => exact h
  | cons p push ih =>
    exact (ih fun x hx => hp x (List.mem_cons_of_mem _ hx)).cons (hp p List.mem_cons_self)

/-- What lies under a statement that is no call of `StartTls` is paired. -/
theorem Paired.tail (h : Paired (s :: l)) (hs : s.isTlsCall = false) : Paired l := by
  obtain ⟨hlink, hchain⟩ := List.isChain_cons.1 h.2
  refine ⟨fun hhead => ?_, hchain⟩
  rw [hlink _ hhead rfl] at hs
  cases hs

/-- A statement keeps the pairs: only a round that is granted TLS pushes one. -/
theorem exec_paired (h : Paired (s :: l)) (hr : w.exec s = some r) : Paired (r.2 ++ l) := by
  have hs : s.isTlsCall = false := by
    cases s with
    | callback cb => cases hr
    | _ => rfl
  have hl : Paired l := h.tail hs
  by_cases ha : s = .advance
  · subst ha
    obtain ⟨lt, -, hround⟩ := exec_advance hr
    rcases (round_frame hround).2 with hp | hp | hp | ⟨d, hp⟩ <;> rw [hp]
    · exact hl
    · exact hl.cons nofun
    · exact hl.cons nofun
    · have htls : Paired (.tlsStarted :: l) := hl.cons nofun
      refine ⟨nofun, ?_⟩
      exact .cons_cons (fun _ => rfl) (.cons_cons nofun htls.2)
  · refine hl.append fun p hp => ?_
    rintro rfl
    have hm := exec_mayPush hr _ hp
    cases s with
    | advance => exact ha rfl
    | _ => exact absurd hm Bool.false_ne_true

theorem entry_paired {m : Call} (h : Paired l) (he : Entry w m r) : Paired (r.2 ++ l) := by
  refine h.append ?_
  cases he <;> simp

theorem resume_paired (v : Bool) (h : Paired (s :: l)) (hs : s.isTlsCall = false) :
    Paired (World.resume s v ++ l) := by
  refine (h.tail hs).append ?_
  rintro p hp rfl
  unfold World.resume at hp
  split at hp
  · cases List.mem_singleton.1 hp
  · split at hp
    · cases hp
    · cases List.mem_singleton.1 hp
  · cases hp

/-! ## When it is kept -/

/-- Until a `StartTls` has returned true, none has returned, and `encrypted_` is not set
nor about to be. -/
structure TlsHonest (tls : TlsOptions) (c : ClientConf) : Prop where
  tls : c.state.2.socket_.tls_ = tls
  honest : true ∈ c.state.2.startTlsReturned ∨ (c.state.2.startTlsReturned = [] ∧
    c.state.1.eng.encrypted = false ∧ Paired c.control)

theorem step_tlsHonest {ssl : Bool} {startSSL : Nat → Int} {tls : TlsOptions}
    (hok : startTlsOutcome ssl tls (startSSL 0) = true) {c c' : ClientConf}
    {a : Act ClientEvent Answer} (h : TlsHonest tls c)
    (hs : (client ssl startSSL).step c a = some c') : TlsHonest tls c' := by
  rcases attach_cases hs with ⟨s, rest, r, hc, -, hr, rfl⟩ | ⟨e, m, -, -, -, rfl⟩ |
    ⟨e, -, -, rfl⟩ |
    ⟨v, s, rest, hc, hf, rfl⟩
  · refine ⟨h.tls, h.honest.imp_right fun ⟨hnone, henc, hpaired⟩ => ⟨hnone, ?_, ?_⟩⟩
    · rw [hc] at hpaired
      have hne : s ≠ .startedTls := fun heq => hpaired.1 (congrArg some heq)
      exact ((exec_frame hr).encrypted hne).trans henc
    · rw [hc] at hpaired
      exact exec_paired hpaired hr
  · obtain ⟨htls, hreturned⟩ := device_enter ssl startSSL c.state.1 c.state.2 e
    have hentry := enter_entry c.state.1 m
    refine ⟨htls.trans h.tls, ?_⟩
    dsimp only
    rw [hreturned]
    refine h.honest.imp_right fun ⟨hnone, henc, hpaired⟩ => ⟨hnone, ?_, ?_⟩
    · exact (entry_frame hentry).encrypted.trans henc
    · exact entry_paired hpaired hentry
  · obtain ⟨htls, hreturned⟩ := device_enter ssl startSSL c.state.1 c.state.2 e
    refine ⟨htls.trans h.tls, ?_⟩
    dsimp only
    rw [hreturned]
    exact h.honest
  · obtain ⟨htls, hreturned⟩ := device_resume ssl startSSL c.state.2 s v
    refine ⟨htls.trans h.tls, ?_⟩
    dsimp only
    rw [hreturned, answersAfter]
    rcases h.honest with hyes | ⟨hnone, henc, hpaired⟩
    · refine .inl ?_
      split
      · exact List.mem_append_left _ hyes
      · exact hyes
    · rw [hc] at hpaired
      by_cases hcall : s.isTlsCall = true
      · -- the first answer is there
        have hssl : ssl = true := by
          by_contra hn
          simp [startTlsOutcome, hn] at hok
        subst hssl
        refine .inl ?_
        rw [hcall, hnone, h.tls]
        exact List.mem_singleton.2 hok.symm
      · have hcall : s.isTlsCall = false := by simpa using hcall
        refine .inr ⟨?_, henc, resume_paired _ hpaired hcall⟩
        rw [hcall]
        exact hnone

/-! ## When it is broken -/

/-- A statement that is a pending call of `StartTls`. -/
def Stmt.tlsCalls (s : Stmt) : Nat := if s.isTlsCall then 1 else 0

/-- The calls of `StartTls` in a history. -/
def tlsCallCount (log : List Event) : Nat := log.countP Event.isStartTls

theorem tlsCallCount_append (log evs : List Event) :
    tlsCallCount (log ++ evs) = tlsCallCount log + tlsCallCount evs :=
  List.countP_append

theorem tlsCallCount_grows {p : Event → Prop} {w' : World} (h : Grows p w w') :
    tlsCallCount w.log ≤ tlsCallCount w'.log := by
  obtain ⟨evs, hlog, -⟩ := h
  rw [hlog, tlsCallCount_append]
  omega

/-- A round that pushes a call of `StartTls` records it. -/
theorem round_tlsCalls {lt : XmppLoginTask} (h : Round w lt r) :
    total Stmt.tlsCalls r.2 + tlsCallCount w.log ≤ tlsCallCount r.1.log := by
  have hmono := tlsCallCount_grows (round_frame h).1.grows
  have hzero : total Stmt.tlsCalls r.2 = 0 →
      total Stmt.tlsCalls r.2 + tlsCallCount w.log ≤ tlsCallCount r.1.log := by
    intro hz
    omega
  cases h with
  | proceed e domain hs hg ho he =>
    show 1 + tlsCallCount w.log
      ≤ tlsCallCount (w.log ++ [.took lt.state lt.isStart e] ++ [.callback (.startTls domain)])
    rw [tlsCallCount_append, tlsCallCount_append]
    show 1 + tlsCallCount w.log ≤ tlsCallCount w.log + 0 + 1
    omega
  | _ => exact hzero rfl

/-- A statement pushes no more calls of `StartTls` than it records. -/
theorem exec_tlsCalls (h : w.exec s = some r) :
    total Stmt.tlsCalls r.2 + tlsCallCount w.log ≤ tlsCallCount r.1.log := by
  by_cases ha : s = .advance
  · subst ha
    obtain ⟨lt, -, hround⟩ := exec_advance h
    exact round_tlsCalls hround
  · have hmono := tlsCallCount_grows (exec_frame h).grows
    have hz : total Stmt.tlsCalls r.2 = 0 := by
      refine total_eq_zero fun p hp => ?_
      have hm := exec_mayPush h p hp
      cases p with
      | callback cb =>
        cases cb with
        | startTls domain =>
          cases s with
          | advance => exact absurd rfl ha
          | _ => exact absurd hm Bool.false_ne_true
        | _ => rfl
      | _ => rfl
    omega

theorem entry_tlsCalls {m : Call} (h : Entry w m r) :
    total Stmt.tlsCalls r.2 + tlsCallCount w.log ≤ tlsCallCount r.1.log := by
  have hmono := tlsCallCount_grows (entry_frame h).grows
  have hz : total Stmt.tlsCalls r.2 = 0 := by
    refine total_eq_zero fun p hp => ?_
    cases p with
    | callback cb => exact absurd rfl ((entry_frame h).called _ hp cb)
    | _ => rfl
  omega

/-- The socket has not answered more calls than the engine has made, and its first answer
is what it has to be. -/
structure TlsAnswers (ssl : Bool) (startSSL : Nat → Int) (tls : TlsOptions) (c : ClientConf) :
    Prop where
  socket : c.state.2.socket_.tls_ = tls
  count : c.state.2.startTlsReturned.length + total Stmt.tlsCalls c.control
    ≤ tlsCallCount c.state.1.log
  first : ∀ x, c.state.2.startTlsReturned.head? = some x →
    x = startTlsOutcome ssl tls (startSSL 0)

theorem step_tlsAnswers {ssl : Bool} {startSSL : Nat → Int} {tls : TlsOptions}
    {c c' : ClientConf} {a : Act ClientEvent Answer} (h : TlsAnswers ssl startSSL tls c)
    (hs : (client ssl startSSL).step c a = some c') : TlsAnswers ssl startSSL tls c' := by
  rcases attach_cases hs with ⟨s, rest, r, hc, -, hr, rfl⟩ | ⟨e, m, -, -, -, rfl⟩ |
    ⟨e, -, -, rfl⟩ |
    ⟨v, s, rest, hc, hf, rfl⟩
  -- the engine goes on: a call of `StartTls` that is made leaves the control for the history
  · refine ⟨h.socket, ?_, h.first⟩
    have hcount := h.count
    have hexec := exec_tlsCalls hr
    rw [hc, total_cons] at hcount
    dsimp only
    rw [total_append]
    omega
  -- the socket calls the engine
  · obtain ⟨htls, hreturned⟩ := device_enter ssl startSSL c.state.1 c.state.2 e
    have hcount := h.count
    have hentry := entry_tlsCalls (enter_entry c.state.1 m)
    rw [emit_log, tlsCallCount_append] at hentry
    refine ⟨htls.trans h.socket, ?_, by simpa only [hreturned] using h.first⟩
    show _ + total Stmt.tlsCalls ((c.state.1.enter m).2 ++ c.control)
      ≤ tlsCallCount (c.state.1.enter m).1.log
    dsimp only
    rw [hreturned, total_append]
    omega
  · obtain ⟨htls, hreturned⟩ := device_enter ssl startSSL c.state.1 c.state.2 e
    refine ⟨htls.trans h.socket, ?_, by simpa only [hreturned] using h.first⟩
    dsimp only
    rw [hreturned]
    exact h.count
  -- a handler returns: `StartTls` is the one whose answer is kept
  · obtain ⟨htls, hreturned⟩ := device_resume ssl startSSL c.state.2 s v
    have hcount := h.count
    rw [hc, total_cons] at hcount
    have hresume : ∀ b, total Stmt.tlsCalls (World.resume s b) = 0 := by
      intro b
      refine total_eq_zero fun p hp => ?_
      have hi := resume_input hp
      cases p with
      | callback cb => cases hi
      | _ => rfl
    have hlog : ∀ b, (engine.resume c.state.1 s b).1.log = c.state.1.log := fun b => rfl
    refine ⟨htls.trans h.socket, ?_, ?_⟩
    · dsimp only
      rw [hreturned, answersAfter, hlog, total_append]
      have hz := hresume ((clientDevice ssl startSSL).resume c.state.2 s v).2
      have hz' : total Stmt.tlsCalls (engine.resume c.state.1 s
          ((clientDevice ssl startSSL).resume c.state.2 s v).2).2 = 0 := hz
      by_cases hcall : s.isTlsCall = true
      · have hone : s.tlsCalls = 1 := by rw [Stmt.tlsCalls, if_pos hcall]
        split
        · rw [List.length_append, List.length_singleton]
          omega
        · omega
      · rw [Bool.not_eq_true] at hcall
        rw [hcall, Bool.false_and, if_neg Bool.false_ne_true]
        omega
    · intro x hx
      dsimp only at hx
      rw [hreturned, answersAfter] at hx
      split at hx
      · cases hold : c.state.2.startTlsReturned with
        | nil =>
          rw [hold, h.socket] at hx
          exact (Option.some.inj hx).symm
        | cons y ys =>
          rw [hold] at hx
          exact h.first x (by rw [hold]; exact hx)
      · exact h.first x hx

/-- A login over TLS, up to the point at which the engine calls the connection encrypted.
`StartTls` is called once. -/
theorem encrypted_once : ∃ c, Reachable c ∧ c.state.eng.encrypted = true ∧
    tlsCallCount c.state.log = 1 := by
  obtain ⟨c, hc, hp⟩ := exists_of_drive (G := anyCall) (P := engine) (n := 40) (c := Conf.init)
    (l := [.call (.setOutputHandler true), .call .connect, .ret false,
      offering (tagged (str "starttls") NS_TLS []), .ret false,
      received (tagged (str "proceed") NS_TLS []), .ret false])
    (p := fun c => c.state.eng.encrypted && tlsCallCount c.state.log = 1)
    (by decide +kernel)
  rw [Bool.and_eq_true, decide_eq_true_eq] at hp
  exact ⟨c, hc, hp⟩

/-- The flag is truthful in every run if and only if the first start of TLS succeeds: the
build has SSL, the socket was not made with `TLS_DISABLED`, and the first start of the SSL
layer returns 0. -/
theorem encrypted_truthful (ssl : Bool) (startSSL : Nat → Int) (tls : TlsOptions)
    (settings : XmppClientSettings) (pre_auth : Option XmppAuth) :
    (∀ c, (client ssl startSSL).Reaches anyCall
      (ClientConf.init (XmppClient.connect settings (XmppSocket.init tls) pre_auth)) c →
        Truthful c) ↔
    (ssl = true ∧ tls ≠ .disabled ∧ startSSL 0 = 0) := by
  have houtcome : startTlsOutcome ssl tls (startSSL 0) = true ↔
      (ssl = true ∧ tls ≠ .disabled ∧ startSSL 0 = 0) := by
    simp [startTlsOutcome, and_assoc]
  rw [← houtcome]
  constructor
  · intro h
    obtain ⟨c, hc, henc, hcount⟩ := encrypted_once
    -- the run of the engine is one of the client
    obtain ⟨d, hd, rfl⟩ := Reaches.attach (D := clientDevice ssl startSSL)
      (fun _ _ m => ⟨.engine m, rfl⟩)
      (fun t s v => ⟨⟨v, 0⟩, by
        cases s with
        | callback cb => cases cb <;> rfl
        | _ => rfl⟩) hc
      (XmppClient.connect settings (XmppSocket.init tls) pre_auth)
    have hans : TlsAnswers ssl startSSL tls d := by
      refine Reaches.invariant (I := TlsAnswers ssl startSSL tls) hd ?_ ?_
      · exact ⟨rfl, Nat.le_refl 0, nofun⟩
      · exact fun c a c' _ hinv _ hs => step_tlsAnswers hinv hs
    have htrue : true ∈ d.state.2.startTlsReturned := h d hd henc
    have hlen := hans.count
    rw [show tlsCallCount d.state.1.log = 1 from hcount] at hlen
    cases hold : d.state.2.startTlsReturned with
    | nil =>
      rw [hold] at htrue
      cases htrue
    | cons x xs =>
      rw [hold, List.length_cons] at hlen
      obtain rfl : xs = [] := List.length_eq_zero_iff.1 (by omega)
      rw [hold, List.mem_singleton] at htrue
      rw [htrue]
      exact (hans.first x (by rw [hold]; rfl)).symm
  · intro hok c hc henc
    have hinv : TlsHonest tls c := by
      refine Reaches.invariant (I := TlsHonest tls) hc ?_ ?_
      · exact ⟨rfl, .inr ⟨rfl, rfl, nofun, .nil⟩⟩
      · exact fun c a c' _ hinv _ hs => step_tlsHonest hok hinv hs
    rcases hinv.honest with hyes | ⟨-, hno, -⟩
    · exact hyes
    · rw [hno] at henc
      cases henc

/-! ## A password in the clear -/

/-- A user who requires TLS and does not allow PLAIN without it. -/
def carefulUser : XmppClientSettings where
  user := str "a"
  host := str "b"
  pass := str "p"
  auth_mechanism := STR_EMPTY
  auth_token := STR_EMPTY
  resource := STR_EMPTY
  use_tls := .required
  allow_plain := false
  test_server_domain := STR_EMPTY
  server := str "b"

/-- The server's part of a login, as events of the client. Every handler returns. -/
def asClient : Step → Act ClientEvent Answer
  | .tick => .tick
  | .call m => .call (.engine m)
  | .ret handled => .ret ⟨handled, 0⟩

/-- The client connects, and the server grants TLS and offers PLAIN. -/
def clientLogin : List (Act ClientEvent Answer) :=
  (XmppClient.connectCalls carefulUser (str "en")).map (fun m => .call (.engine m)) ++
    [.call (.process false), .call (.process true), .call .onConnectEvent] ++
    [.ret false, .ret false, offering (tagged (str "starttls") NS_TLS []), .ret false,
      received (tagged (str "proceed") NS_TLS []), .ret false, .ret false,
      offering (tagged (str "mechanisms") NS_SASL
        [.startElement (str "mechanism") [], .characterData (str "PLAIN"),
          .endElement (str "mechanism")]), .ret false].map asClient

/-- The SSL layer fails to start. The flag is set nevertheless, and the password goes
out. -/
theorem encrypted_untruthful : ∃ c, (client true fun _ => -1).Reaches anyCall
    (ClientConf.init (XmppClient.connect carefulUser (XmppSocket.init .required) none)) c ∧
    ¬ Truthful c ∧ .gotMechanism (str "PLAIN") ∈ c.state.1.log := by
  obtain ⟨c, hc, hp⟩ := exists_of_drive (G := anyCall) (P := client true fun _ => -1) (n := 40)
    (c := ClientConf.init (XmppClient.connect carefulUser (XmppSocket.init .required) none))
    (l := clientLogin)
    (p := fun c => c.state.1.eng.encrypted && !c.state.2.startTlsReturned.contains true &&
      c.state.1.log.any fun ev => match ev with
        | .gotMechanism name => name = str "PLAIN"
        | _ => false)
    (by decide +kernel)
  simp only [Bool.and_eq_true, Bool.not_eq_true', List.any_eq_true] at hp
  obtain ⟨⟨henc, hnone⟩, ev, hev, hplain⟩ := hp
  refine ⟨c, hc, fun ht => ?_, ?_⟩
  · have htrue := ht henc
    rw [← List.contains_iff_mem, hnone] at htrue
    cases htrue
  · cases ev with
    | gotMechanism name => exact of_decide_eq_true hplain ▸ hev
    | _ => cases hplain

end Gxmpp
