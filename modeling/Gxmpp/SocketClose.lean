/-
What holds after `Close`, and after a connect that failed.

`Close` returns at once when there is no descriptor, also while a resolver is running: the state
stays `CS_CONNECTING`, and the resolver connects later. `OnEvent` delivers all its events, also when
a handler closes the socket at the first. A connect that fails after the address was resolved leaves
`CS_CONNECTING`, where `OnResolveResult` closes the socket after an error of the resolver.
-/
import Gxmpp.PhysicalSocket

set_option autoImplicit false

namespace Gxmpp.TalkBase

open Reentrant

/-! ## 1. A closed socket -/

/-- The socket is finally closed, and a connect that failed has left it closed. -/
structure Final (s : PhysicalSocket) : Prop where
  closed : s.closed = true → s.state_ = .CS_CLOSED
  lateConnect : s.lateConnect = false
  lateSignal : s.lateSignal = false
  refused : s.refused = false

/-! ## 2. What the functions do -/

namespace PhysicalSocket

/-- What is recorded stays as it is. -/
structure Unrecorded (s t : PhysicalSocket) : Prop where
  closed : t.closed = s.closed
  lateConnect : t.lateConnect = s.lateConnect
  lateSignal : t.lateSignal = s.lateSignal
  refused : t.refused = s.refused

theorem Unrecorded.refl (s : PhysicalSocket) : Unrecorded s s := ⟨rfl, rfl, rfl, rfl⟩

variable {s : PhysicalSocket} {udp : Bool} {fd : Option Nat} {r : ConnectResult}

theorem Close_none (h : s.s_ = none) : s.Close = s := by
  unfold Close
  rw [h]

theorem Close_some (h : s.s_ ≠ none) : s.Close.s_ = none ∧ s.Close.state_ = .CS_CLOSED ∧
    s.Close.resolver_ = none := by
  cases hs : s.s_ with
  | none => exact absurd hs h
  | some fd =>
    unfold Close
    rw [hs]
    exact ⟨rfl, rfl, rfl⟩

theorem Close_descriptor : s.Close.s_ = none := by
  by_cases h : s.s_ = none
  · rw [Close_none h, h]
  · exact (Close_some h).1

theorem Close_unrecorded : Unrecorded s s.Close := by
  cases hs : s.s_ with
  | none =>
    rw [Close_none hs]
    exact .refl s
  | some fd =>
    unfold Close
    rw [hs]
    exact ⟨rfl, rfl, rfl, rfl⟩

theorem Create_fields (s : PhysicalSocket) (udp : Bool) (fd : Option Nat) :
    (s.Create udp fd).1.s_ = fd ∧
    (s.Create udp fd).1.state_ = s.Close.state_ ∧
    (s.Create udp fd).1.resolver_ = s.Close.resolver_ ∧
    (s.Create udp fd).1.resolving = s.Close.resolving := by
  cases udp with
  | false | true => exact ⟨rfl, rfl, rfl, rfl⟩

theorem Create_unrecorded : Unrecorded s (s.Create udp fd).1 := by
  have h : Unrecorded s s.Close := Close_unrecorded
  cases udp with
  | false | true => exact { h with }

theorem Create_none (h : s.s_ = none) :
    s.Create false fd = ({ s with s_ := fd }, fd.isSome) := by
  unfold Create
  rw [Close_none h]
  rfl

/-- The operating system refuses a socket or a connect. -/
def Refuses (s : PhysicalSocket) (fd : Option Nat) (r : ConnectResult) : Prop :=
  r = .failed ∨ (s.s_ = none ∧ fd = none)

/-- What `DoConnect` does on a socket that was not closed. -/
structure Connected (s : PhysicalSocket) (fd : Option Nat) (r : ConnectResult)
    (t : PhysicalSocket × Bool) : Prop where
  unrecorded : Unrecorded s t.1
  resolver_ : t.1.resolver_ = s.resolver_
  resolving : t.1.resolving = s.resolving
  ok : t.2 = true ↔ ¬Refuses s fd r
  failed : t.2 = false → t.1.state_ = s.state_
  descriptor : t.1.s_ = none → s.s_ = none ∧ t.2 = false

theorem connectDescriptor_spec (hfd : s.s_ ≠ none) (hopen : s.closed = false) :
    Connected s fd r (s.connectDescriptor r) := by
  have hlate : (s.lateConnect || s.closed) = s.lateConnect := by rw [hopen, Bool.or_false]
  have hrefuses : Refuses s fd r ↔ r = .failed := by simp [Refuses, hfd]
  cases r with
  | connected | blocking =>
    exact ⟨⟨rfl, hlate, rfl, rfl⟩, rfl, rfl, by simp [connectDescriptor, hrefuses], nofun,
      fun h => absurd h hfd⟩
  | failed =>
    exact ⟨⟨rfl, hlate, rfl, rfl⟩, rfl, rfl, by simp [connectDescriptor, hrefuses], fun _ => rfl,
      fun h => absurd h hfd⟩

theorem DoConnect_spec (hopen : s.closed = false) : Connected s fd r (s.DoConnect fd r) := by
  unfold DoConnect
  cases hs : s.s_ with
  | some n => exact connectDescriptor_spec (by rw [hs]; nofun) hopen
  | none =>
    dsimp only
    rw [Create_none hs]
    cases fd with
    | none => exact ⟨⟨rfl, rfl, rfl, rfl⟩, rfl, rfl, by simp [Refuses, hs], fun _ => rfl,
        fun _ => ⟨hs, rfl⟩⟩
    | some n =>
      have h : Connected { s with s_ := some n } (some n) r
          ({ s with s_ := some n }.connectDescriptor r) := connectDescriptor_spec nofun hopen
      have hrefuses : Refuses { s with s_ := some n } (some n) r ↔ Refuses s (some n) r := by
        simp [Refuses]
      exact ⟨⟨h.unrecorded.closed, h.unrecorded.lateConnect, h.unrecorded.lateSignal,
        h.unrecorded.refused⟩, h.resolver_, h.resolving, h.ok.trans (not_congr hrefuses),
        h.failed, fun hnone => absurd (h.descriptor hnone).1 nofun⟩

theorem disable_fields (e : DispatcherEvent) : Unrecorded s (s.disable e) ∧
    (s.disable e).s_ = s.s_ ∧ (s.disable e).state_ = s.state_ ∧
    (s.disable e).resolver_ = s.resolver_ ∧ (s.disable e).resolving = s.resolving := by
  cases e with
  | close => exact ⟨⟨rfl, rfl, rfl, rfl⟩, rfl, rfl, rfl, rfl⟩
  | _ => exact ⟨⟨rfl, rfl, rfl, rfl⟩, rfl, rfl, rfl, rfl⟩

theorem OnPreEvent_fields (ff : Finset DispatcherEvent) : Unrecorded s (s.OnPreEvent ff) ∧
    (s.OnPreEvent ff).s_ = s.s_ := by
  unfold OnPreEvent
  by_cases hconnect : .connect ∈ ff <;> by_cases hclose : .close ∈ ff
  · rw [if_pos hconnect, if_pos hclose]
    exact ⟨⟨rfl, rfl, rfl, rfl⟩, rfl⟩
  · rw [if_pos hconnect, if_neg hclose]
    exact ⟨⟨rfl, rfl, rfl, rfl⟩, rfl⟩
  · rw [if_neg hconnect, if_pos hclose]
    exact ⟨⟨rfl, rfl, rfl, rfl⟩, rfl⟩
  · rw [if_neg hconnect, if_neg hclose]
    exact ⟨.refl s, rfl⟩

end PhysicalSocket

/-! ## 3. The invariant -/

open PhysicalSocket

/-- After `Close` there is no descriptor. Where there is none, and the state is `CS_CLOSED`, the
last resolver has completed. -/
structure Settled (s : PhysicalSocket) : Prop extends Final s where
  gone : s.closed = true → s.s_ = none
  idle : s.s_ = none → s.state_ = .CS_CLOSED → ∀ r, s.resolver_ = some r → r ∉ s.resolving

variable {s t : PhysicalSocket} {udp : Bool} {fd : Option Nat} {r : ConnectResult}

theorem Final.unrecorded (h : Final s) (hu : Unrecorded s t)
    (hclosed : s.closed = true → t.state_ = .CS_CLOSED) : Final t where
  closed hc := hclosed (hu.closed ▸ hc)
  lateConnect := hu.lateConnect.trans h.lateConnect
  lateSignal := hu.lateSignal.trans h.lateSignal
  refused := hu.refused.trans h.refused

/-- A socket that has a descriptor was not closed. -/
theorem Settled.opened (h : Settled s) (hfd : s.s_ ≠ none) : s.closed = false :=
  Bool.eq_false_of_not_eq_true fun hc => hfd (h.gone hc)

theorem Settled.init (fd : Option Nat) : Settled (PhysicalSocket.init fd) :=
  ⟨⟨nofun, rfl, rfl, rfl⟩, nofun, fun _ _ _ => nofun⟩

theorem Settled.emit (h : Settled s) (hopen : s.closed = false) : Settled s.emit := by
  refine ⟨⟨h.closed, h.lateConnect, ?_, h.refused⟩, h.gone, h.idle⟩
  change (s.lateSignal || s.closed) = false
  rw [h.lateSignal, hopen]
  rfl

theorem Settled.fail (h : Settled s) (hstate : s.state_ = .CS_CLOSED) : Settled s.fail := by
  refine ⟨⟨h.closed, h.lateConnect, h.lateSignal, ?_⟩, h.gone, h.idle⟩
  change (s.refused || decide (s.state_ ≠ .CS_CLOSED)) = false
  rw [h.refused, decide_eq_false (not_not.2 hstate)]
  rfl

/-- A connect that fails in any other state leaves a socket that refuses the next one. -/
theorem Final.fail (h : Final s.fail) : s.state_ = .CS_CLOSED := by
  have hrefused : (s.refused || decide (s.state_ ≠ .CS_CLOSED)) = false := h.refused
  exact not_not.1 (of_decide_eq_false (Bool.or_eq_false_iff.1 hrefused).2)

theorem Final.emit (h : Final s.emit) : s.closed = false := by
  have hlate : (s.lateSignal || s.closed) = false := h.lateSignal
  exact (Bool.or_eq_false_iff.1 hlate).2

/-- `Close` leaves no resolver, unless it returns early. -/
theorem Settled.Close_idle (h : Settled s) (hc : s.Close.state_ = .CS_CLOSED) :
    ∀ r, s.Close.resolver_ = some r → r ∉ s.Close.resolving := by
  intro r hr
  by_cases hs : s.s_ = none
  · rw [Close_none hs] at hc hr ⊢
    exact h.idle hs hc r hr
  · rw [(Close_some hs).2.2] at hr
    cases hr

theorem Settled.create (h : Settled s) (udp : Bool) (fd : Option Nat) :
    Settled { (s.Create udp fd).1 with closed := false } := by
  have hu : Unrecorded s (s.Create udp fd).1 := Create_unrecorded
  obtain ⟨-, hstate, hresolver, hresolving⟩ := Create_fields s udp fd
  refine ⟨⟨nofun, hu.lateConnect.trans h.lateConnect, hu.lateSignal.trans h.lateSignal,
    hu.refused.trans h.refused⟩, nofun, fun _ hc r hr => ?_⟩
  change (s.Create udp fd).1.resolver_ = some r at hr
  change r ∉ (s.Create udp fd).1.resolving
  rw [hresolving]
  exact h.Close_idle (hstate.symm.trans hc) r (hresolver.symm.trans hr)

/-- The end of `Connect` and of `OnResolveResult`, after `DoConnect`. -/
theorem Settled.connected {p : PhysicalSocket × Bool} (h : Settled s) (hopen : s.closed = false)
    (hp : Connected s fd r p) (hstate : s.state_ = .CS_CLOSED ∨ ¬Refuses s fd r) :
    Settled (if p.2 then p.1 else p.1.fail) := by
  have hopen' : p.1.closed = false := hp.unrecorded.closed.trans hopen
  have hsettled : p.1.s_ = none → p.1.state_ = .CS_CLOSED →
      ∀ r, p.1.resolver_ = some r → r ∉ p.1.resolving := fun hs hc r hr => by
    obtain ⟨hnone, hok⟩ := hp.descriptor hs
    rw [hp.resolving]
    exact h.idle hnone ((hp.failed hok).symm.trans hc) r (hp.resolver_.symm.trans hr)
  have hp' : Settled p.1 := by
    refine ⟨h.toFinal.unrecorded hp.unrecorded fun hc => ?_, fun hc => ?_, hsettled⟩
    · rw [hopen] at hc
      cases hc
    · rw [hopen'] at hc
      cases hc
  cases hok : p.2 with
  | true => exact hp'
  | false =>
    refine hp'.fail ((hp.failed hok).trans (hstate.resolve_right fun hr => ?_))
    rw [hp.ok.2 hr] at hok
    cases hok

/-- And conversely. -/
theorem connected_final {p : PhysicalSocket × Bool} (hp : Connected s fd r p)
    (h : Final (if p.2 then p.1 else p.1.fail)) : s.state_ = .CS_CLOSED ∨ ¬Refuses s fd r := by
  cases hok : p.2 with
  | true => exact .inr (hp.ok.1 hok)
  | false =>
    rw [hok] at h
    exact .inl ((hp.failed hok).symm.trans (Final.fail h))

theorem Settled.connect (h : Settled s) (resolved : Bool) (fd : Option Nat) (r : ConnectResult) :
    Settled ({ s with closed := false }.Connect resolved fd r).1 := by
  have hs : Settled { s with closed := false } :=
    ⟨⟨nofun, h.lateConnect, h.lateSignal, h.refused⟩, nofun, h.idle⟩
  unfold Connect
  dsimp only
  by_cases hstate : s.state_ = .CS_CLOSED
  · rw [if_neg (not_not.2 hstate)]
    cases resolved with
    | true => exact hs.connected rfl (DoConnect_spec rfl) (.inl hstate)
    | false =>
      exact ⟨⟨nofun, h.lateConnect, h.lateSignal, h.refused⟩, nofun, fun _ => nofun⟩
  · rw [if_pos hstate]
    exact hs

theorem Close_closed (hstate : s.s_ = none → s.state_ = .CS_CLOSED) :
    s.Close.state_ = .CS_CLOSED := by
  by_cases hs : s.s_ = none
  · rw [Close_none hs]
    exact hstate hs
  · exact (Close_some hs).2.1

theorem Settled.Close (h : Settled s) (hstate : s.s_ = none → s.state_ = .CS_CLOSED) :
    Settled s.Close :=
  ⟨h.toFinal.unrecorded Close_unrecorded fun _ => Close_closed hstate, fun _ => Close_descriptor,
    fun _ => h.Close_idle⟩

theorem Settled.close (h : Settled s) (hstate : s.s_ = none → s.state_ = .CS_CLOSED) :
    Settled { s.Close with closed := true } := by
  have hclose : Settled s.Close := h.Close hstate
  exact ⟨⟨fun _ => Close_closed hstate, hclose.lateConnect, hclose.lateSignal, hclose.refused⟩,
    fun _ => Close_descriptor, hclose.idle⟩

theorem Settled.disable (h : Settled s) (e : DispatcherEvent) : Settled (s.disable e) := by
  obtain ⟨hu, hs, hstate, hresolver, hresolving⟩ := disable_fields (s := s) e
  refine ⟨h.toFinal.unrecorded hu fun hc => hstate.trans (h.closed hc),
    fun hc => hs.trans (h.gone (hu.closed.symm.trans hc)), fun hs' hc' r hr => ?_⟩
  rw [hresolving]
  exact h.idle (hs.symm.trans hs') (hstate.symm.trans hc') r (hresolver.symm.trans hr)

/-- `OnEvent`, when no handler has closed the socket. -/
theorem Settled.OnEvent (h : Settled s) (events : List DispatcherEvent)
    (hopen : events ≠ [] → s.closed = false) : Settled (s.OnEvent events).1 := by
  cases events with
  | nil => exact h
  | cons e rest =>
    have hu : Unrecorded s (s.disable e) := (disable_fields e).1
    exact (h.disable e).emit (hu.closed.trans (hopen nofun))

theorem Settled.OnPreEvent (h : Settled s) (hfd : s.s_ ≠ none) (ff : Finset DispatcherEvent) :
    Settled (s.OnPreEvent ff) := by
  obtain ⟨hu, hs⟩ := OnPreEvent_fields (s := s) ff
  refine ⟨h.toFinal.unrecorded hu fun hc => absurd (h.gone hc) hfd, fun hc => ?_,
    fun hs' => absurd (hs.symm.trans hs') hfd⟩
  exact absurd (h.gone (hu.closed.symm.trans hc)) hfd

theorem Settled.complete (h : Settled s) (resolver : ResolverId) : Settled (s.complete resolver) :=
  ⟨{ h with }, h.gone,
    fun hs hc q hq hmem => h.idle hs hc q hq (Finset.mem_of_mem_erase hmem)⟩

/-- What `OnResolveResult` needs, when it is called by the socket's resolver. -/
def Resolves (s : PhysicalSocket) (error : Bool) (fd : Option Nat) (r : ConnectResult) : Prop :=
  s.state_ = .CS_CLOSED ∨ if error then s.s_ ≠ none else ¬Refuses s fd r

instance (s : PhysicalSocket) (error : Bool) (fd : Option Nat) (r : ConnectResult) :
    Decidable (Resolves s error fd r) := by
  unfold Resolves Refuses
  exact inferInstance

/-- How `OnResolveResult` ends. -/
def reported (p : PhysicalSocket × Bool) : PhysicalSocket := if p.2 then p.1 else p.1.emit

variable {resolver : ResolverId} {error : Bool}

theorem OnResolveResult_other (h : s.resolver_ ≠ some resolver) :
    s.OnResolveResult resolver error fd r = (s, true) := by
  unfold PhysicalSocket.OnResolveResult
  exact if_pos h

theorem OnResolveResult_error (h : s.resolver_ = some resolver) :
    s.OnResolveResult resolver true fd r = (s.Close.fail, false) := by
  unfold PhysicalSocket.OnResolveResult
  rw [if_neg (not_not.2 h)]
  rfl

theorem OnResolveResult_resolved (h : s.resolver_ = some resolver) :
    s.OnResolveResult resolver false fd r =
      (if (s.DoConnect fd r).2 then (s.DoConnect fd r).1 else (s.DoConnect fd r).1.fail,
        (s.DoConnect fd r).2) := by
  unfold PhysicalSocket.OnResolveResult
  rw [if_neg (not_not.2 h)]
  rfl

theorem Settled.OnResolveResult (h : Settled s)
    (hopen : s.resolver_ = some resolver → s.closed = false)
    (hr : s.resolver_ = some resolver → Resolves s error fd r) :
    Settled (reported (s.OnResolveResult resolver error fd r)) := by
  by_cases hresolver : s.resolver_ = some resolver
  · cases error with
    | true =>
      have hstate : s.s_ = none → s.state_ = .CS_CLOSED := fun hs =>
        (hr hresolver).resolve_right fun hs' => hs' hs
      rw [OnResolveResult_error hresolver]
      exact ((h.Close hstate).fail (Close_closed hstate)).emit
        (Close_unrecorded.closed.trans (hopen hresolver))
    | false =>
      have hspec : Connected s fd r (s.DoConnect fd r) := DoConnect_spec (hopen hresolver)
      have hend := h.connected (hopen hresolver) hspec (hr hresolver)
      rw [OnResolveResult_resolved hresolver]
      unfold reported
      cases hok : (s.DoConnect fd r).2 with
      | true =>
        rw [hok] at hend
        exact hend
      | false =>
        rw [hok] at hend
        exact hend.emit (hspec.unrecorded.closed.trans (hopen hresolver))
  · rw [OnResolveResult_other hresolver]
    exact h

/-- And conversely. -/
theorem OnResolveResult_final (hopen : s.closed = false) (hresolver : s.resolver_ = some resolver)
    (h : Final (reported (s.OnResolveResult resolver error fd r))) : Resolves s error fd r := by
  cases error with
  | true =>
    rw [OnResolveResult_error hresolver] at h
    have hclosed : s.Close.state_ = .CS_CLOSED := Final.fail (s := s.Close) ⟨h.closed,
      h.lateConnect, (Bool.or_eq_false_iff.1 h.lateSignal).1, h.refused⟩
    by_cases hs : s.s_ = none
    · exact .inl (Close_none hs ▸ hclosed)
    · exact .inr hs
  | false =>
    have hspec : Connected s fd r (s.DoConnect fd r) := DoConnect_spec hopen
    rw [OnResolveResult_resolved hresolver] at h
    refine connected_final hspec ?_
    unfold reported at h
    cases hok : (s.DoConnect fd r).2 with
    | true =>
      rw [hok] at h
      exact h
    | false =>
      rw [hok] at h
      exact ⟨h.closed, h.lateConnect, (Bool.or_eq_false_iff.1 h.lateSignal).1, h.refused⟩

/-! ## 4. The condition -/

/-- The resolver emits the signal for the socket's own, and it was not destroyed. -/
theorem Settled.resolving (h : Settled s) (hmem : resolver ∈ s.resolving)
    (hresolver : s.resolver_ = some resolver) : s.closed = false :=
  Bool.eq_false_of_not_eq_true fun hc => h.idle (h.gone hc) (h.closed hc) resolver hresolver hmem

/-- `Close` is not called while a resolver runs and there is no descriptor; a resolver does not fail
there either, and no connect is refused after it; no handler has closed the socket where `OnEvent`
has further events to deliver. -/
def SocketCondition (c : SocketConf) : Act SocketCall Unit → Prop
  | .call .close => c.state.s_ = none → c.state.state_ = .CS_CLOSED
  | .call (.resolved resolver error fd r) =>
    c.state.resolver_ = some resolver → Resolves c.state error fd r
  | .ret _ => c.undelivered ≠ [] → c.state.closed = false
  | _ => True

theorem enter_resolved : (s.enter (.resolved resolver error fd r)).1 =
    reported ((s.complete resolver).OnResolveResult resolver error fd r) := by
  unfold PhysicalSocket.enter reported
  dsimp only
  split <;> rfl

/-- One step that meets the condition. -/
theorem Settled.step {c c' : SocketConf} {a : Act SocketCall Unit} (h : Settled c.state)
    (hallowed : a.Allowed SocketRules c) (hc : SocketCondition c a)
    (hs : physicalSocket.step c a = some c') : Settled c'.state := by
  rcases step_cases hs with ⟨x, rest, p, rfl, hcontrol, hforeign, hexec, rfl⟩ |
    ⟨m, rfl, hw, rfl⟩ | ⟨u, x, rest, rfl, hcontrol, hforeign, rfl⟩
  · cases hexec
  · cases m with
    | create udp fd => exact h.create udp fd
    | connect resolved fd r => exact h.connect resolved fd r
    | close => exact h.close hc
    | resolved resolver error fd r =>
      have hmem : resolver ∈ c.state.resolving := hallowed _ rfl
      change Settled (c.state.enter _).1
      rw [enter_resolved]
      exact (h.complete resolver).OnResolveResult (fun hr => h.resolving hmem hr) hc
    | ready ff =>
      have hfd : c.state.s_ ≠ none := hallowed _ rfl
      exact (h.OnPreEvent hfd ff).OnEvent _ fun _ =>
        (OnPreEvent_fields ff).1.closed.trans (h.opened hfd)
  · cases x with
    | handlers events =>
      refine h.OnEvent events fun hne => hc ?_
      unfold SocketConf.undelivered
      rw [hcontrol]
      exact hne

/-- Where a step does not meet the condition, that ends. -/
theorem condition_of_final {c c' : SocketConf} {a : Act SocketCall Unit} (h : Settled c.state)
    (hallowed : a.Allowed SocketRules c) (hs : physicalSocket.step c a = some c')
    (hfinal : Final c'.state) : SocketCondition c a := by
  rcases step_cases hs with ⟨x, rest, p, rfl, hcontrol, hforeign, hexec, rfl⟩ |
    ⟨m, rfl, hw, rfl⟩ | ⟨u, x, rest, rfl, hcontrol, hforeign, rfl⟩
  · cases hexec
  · cases m with
    | create | connect | ready => trivial
    | close =>
      intro hnone
      have hstate : c.state.Close.state_ = .CS_CLOSED := hfinal.closed rfl
      exact Close_none hnone ▸ hstate
    | resolved resolver error fd r =>
      have hmem : resolver ∈ c.state.resolving := hallowed _ rfl
      intro hr
      change Final (c.state.enter _).1 at hfinal
      rw [enter_resolved] at hfinal
      exact OnResolveResult_final (s := c.state.complete resolver) (h.resolving hmem hr) hr hfinal
  · intro hne
    unfold SocketConf.undelivered at hne
    rw [hcontrol] at hne
    cases x with
    | handlers events =>
      cases events with
      | nil => exact absurd rfl hne
      | cons e rest => exact (disable_fields e).1.closed.symm.trans (Final.emit hfinal)

/-- A step that is possible, and meets the condition. -/
def SocketStep (c : SocketConf) (a : Act SocketCall Unit) : Prop :=
  a.Allowed SocketRules c ∧ SocketCondition c a

/-- Closing is final, and a connect that failed leaves the socket closed, as long as the steps meet
the condition; and a step that does not meet it ends that. -/
theorem closed_for_good {fd : Option Nat} {c : SocketConf}
    (h : physicalSocket.ReachesWhen SocketStep (SocketConf.init fd) c) :
    Final c.state ∧ ∀ a c', a.Allowed SocketRules c → physicalSocket.step c a = some c' →
      (Final c'.state ↔ SocketCondition c a) := by
  have hs : Settled c.state := ReachesWhen.invariant (I := fun c => Settled c.state) h
    (.init fd) fun _ _ _ _ ih hk hstep => ih.step hk.1 hk.2 hstep
  exact ⟨hs.toFinal, fun a c' ha hstep =>
    ⟨condition_of_final hs ha hstep, fun hc => (hs.step ha hc hstep).toFinal⟩⟩

instance : ∀ (c : SocketConf) (m : SocketCall), Decidable (SocketRules c m)
  | _, .create _ _ | _, .connect _ _ _ | _, .close => .isTrue trivial
  | c, .resolved resolver _ _ _ => inferInstanceAs (Decidable (resolver ∈ c.state.resolving))
  | c, .ready _ => inferInstanceAs (Decidable (c.state.s_ ≠ none))

instance (c : SocketConf) : ∀ a : Act SocketCall Unit, Decidable (SocketCondition c a)
  | .tick => .isTrue trivial
  | .call (.create _ _) | .call (.connect _ _ _) | .call (.ready _) => .isTrue trivial
  | .call .close => inferInstanceAs (Decidable (c.state.s_ = none → c.state.state_ = .CS_CLOSED))
  | .call (.resolved resolver error fd r) => inferInstanceAs
      (Decidable (c.state.resolver_ = some resolver → Resolves c.state error fd r))
  | .ret _ => inferInstanceAs (Decidable (c.undelivered ≠ [] → c.state.closed = false))

instance (c : SocketConf) (a : Act SocketCall Unit) : Decidable (SocketStep c a) :=
  inferInstanceAs (Decidable (_ ∧ _))

/-- A connect by name, and a handler that closes the socket at the last event of a dispatch. -/
theorem closed_for_good_handler : ∃ c,
    physicalSocket.ReachesWhen SocketStep (SocketConf.init none) c ∧
    (c.state.closed = true ∧ c.state.resolvers = 1 ∧ c.control = []) ∧ Final c.state := by
  obtain ⟨c, hc, hp⟩ := exists_of_follow (P := physicalSocket) (K := SocketStep)
    (c := SocketConf.init none)
    (l := [.call (.create false (some 5)), .call (.connect false none .failed),
      .call (.resolved 0 false none .blocking), .call (.ready {.connect, .write}), .ret (),
      .call .close, .ret ()])
    (p := fun c => decide (c.state.closed = true ∧ c.state.resolvers = 1 ∧ c.control = []))
    (by decide +kernel)
  exact ⟨c, hc, of_decide_eq_true hp, (closed_for_good hc).1⟩

/-- A handler of the first of two events closes the socket, and the second is delivered. A socket
without a descriptor is closed while it resolves, and connects. A connect to an address that was
resolved is refused, and the next `Connect` fails. -/
theorem socket_left_connecting :
    (∃ c, physicalSocket.Reaches SocketRules (SocketConf.init (some 5)) c ∧
      c.state.lateSignal = true) ∧
    (∃ c, physicalSocket.Reaches SocketRules (SocketConf.init none) c ∧
      c.state.lateConnect = true) ∧
    ∃ c, physicalSocket.Reaches SocketRules (SocketConf.init none) c ∧
      c.state.refused = true ∧ (c.state.Connect true none .connected).2 = false := by
  refine ⟨?_, ?_, ?_⟩
  · exact exists_of_drive (P := physicalSocket) (G := SocketRules) (n := 0)
      (l := [.call (.ready {.read, .write}), .call .close, .ret ()])
      (p := fun c => c.state.lateSignal) (by decide +kernel)
  · exact exists_of_drive (P := physicalSocket) (G := SocketRules) (n := 0)
      (l := [.call (.connect false none .failed), .call .close,
        .call (.resolved 0 false (some 5) .connected)])
      (p := fun c => c.state.lateConnect) (by decide +kernel)
  · obtain ⟨c, hc, hp⟩ := exists_of_drive (P := physicalSocket) (G := SocketRules) (n := 0)
      (c := SocketConf.init none)
      (l := [.call (.create false (some 5)), .call (.connect false none .failed),
        .call (.resolved 0 false none .failed)])
      (p := fun c => c.state.refused && !(c.state.Connect true none .connected).2)
      (by decide +kernel)
    obtain ⟨hrefused, hconnect⟩ := Bool.and_eq_true_iff.1 hp
    exact ⟨c, hc, hrefused, by simpa using hconnect⟩

end Gxmpp.TalkBase
