/-
`gxmpp/pumpthread.cc` and `talk/xmpp/moduleimpl.cc`: the roster modules of the thread, and the
engines of its clients.

Each `Login` makes a roster module, registers it with the engine of the new client and requests
the roster. The module before it is destroyed then, and the last one with the thread; the engines
are destroyed with their clients, by the runner. A module that is destroyed takes itself out of
the stanza handlers of its engine, if that is there, and leaves its request behind in the iq
entries.
-/
import Gxmpp.PumpClients

set_option autoImplicit false

namespace Gxmpp

/-! ## 1. The modules -/

/-- `XmppRosterModuleImpl`. An engine is named by its client. -/
structure PumpModule where
  engine_ : Option Nat
  destroyed : Bool

/-- The thread, with its roster modules and with what the engines know of them. -/
structure PumpRoster where
  pump : PumpThread
  modules : Nat → PumpModule
  /-- how many modules were made -/
  made : Nat
  roster_module_ : Option Nat
  stanza_handlers_ : Nat → List Nat
  /-- the handlers of the iq entries -/
  iq_entries_ : Nat → List Nat
  /-- the thread is destroyed -/
  destroyed : Bool

namespace PumpRoster

/-- A new thread. -/
def init : PumpRoster where
  pump := PumpThread.init
  modules _ := ⟨none, false⟩
  made := 0
  roster_module_ := none
  stanza_handlers_ _ := []
  iq_entries_ _ := []
  destroyed := false

/-- A module is changed in place. -/
def setModule (r : PumpRoster) (k : Nat) (m : PumpModule) : PumpRoster :=
  { r with modules := fun l => if l = k then m else r.modules l }

/-- A module follows its `engine_`: `none` if that is gone. -/
def followEngine (r : PumpRoster) (k : Nat) : Option PumpRoster :=
  if (r.modules k).engine_.any fun i => (r.pump.clients i).deleted then none else some r

/-- `XmppEngineImpl::AddStanzaHandler`. -/
def addStanzaHandler (r : PumpRoster) (i k : Nat) : PumpRoster :=
  if (r.pump.clients i).engine_state = .closed then r
  else
    { r with stanza_handlers_ :=
        Function.update r.stanza_handlers_ i (r.stanza_handlers_ i ++ [k]) }

/-- `XmppEngineImpl::RemoveStanzaHandler`. -/
def removeStanzaHandler (r : PumpRoster) (i k : Nat) : PumpRoster :=
  { r with stanza_handlers_ :=
      Function.update r.stanza_handlers_ i ((r.stanza_handlers_ i).filter fun l => l ≠ k) }

/-- `XmppEngineImpl::SendIq`. -/
def sendIq (r : PumpRoster) (i k : Nat) : PumpRoster :=
  if (r.pump.clients i).engine_state = .closed then r
  else { r with iq_entries_ := Function.update r.iq_entries_ i (r.iq_entries_ i ++ [k]) }

/-- `XmppModuleImpl::RegisterEngine`. -/
def registerEngine (r : PumpRoster) (k i : Nat) : PumpRoster :=
  if (r.modules k).engine_ ≠ none then r
  else (r.addStanzaHandler i k).setModule k { r.modules k with engine_ := some i }

/-- `~XmppModuleImpl`. -/
def destroyModule (r : PumpRoster) (k : Nat) : Option PumpRoster :=
  match (r.modules k).engine_ with
  | none => some (r.setModule k ⟨none, true⟩)
  | some i => (r.followEngine k).map fun r => (r.removeStanzaHandler i k).setModule k ⟨none, true⟩

/-- The destructor of `roster_module_`, and what goes before its assignment. -/
def resetModule (r : PumpRoster) : Option PumpRoster :=
  match r.roster_module_ with
  | none => some r
  | some k => r.destroyModule k

/-- `PrivateRosterModule::Start`: `BroadcastPresence` and `RequestRosterUpdate` ask the engine. -/
def start (r : PumpRoster) (k i : Nat) : Option PumpRoster :=
  ((r.registerEngine k i).followEngine k).map fun r => r.sendIq i k

/-- The end of `DoLogin`: a new module is started with the engine of the new client. -/
def startRoster (r : PumpRoster) : Option PumpRoster :=
  match r.pump.client_ with
  | none => some r
  | some i =>
    let k := r.made
    let r := { r.setModule k ⟨none, false⟩ with made := k + 1 }
    r.resetModule.bind fun r => PumpRoster.start { r with roster_module_ := some k } k i

/-- `HandleStanza` or `IqResponse` of a module is called. -/
def callModule (r : PumpRoster) (k : Nat) : Option PumpRoster :=
  if (r.modules k).destroyed then none else r.followEngine k

/-- `XmppEngineImpl::IncomingStanza`, for the handlers. -/
def incomingStanza (r : PumpRoster) : List Nat → Option PumpRoster
  | [] => some r
  | k :: handlers => (r.callModule k).bind fun r => r.incomingStanza handlers

/-- `XmppEngineImpl::HandleIqResponse`, for the `n`-th iq entry. -/
def handleIqResponse (r : PumpRoster) (i n : Nat) : Option PumpRoster :=
  match (r.iq_entries_ i)[n]? with
  | none => some r
  | some k => PumpRoster.callModule
      { r with iq_entries_ := Function.update r.iq_entries_ i ((r.iq_entries_ i).eraseIdx n) } k

/-- `~PumpThread`: the roster module is destroyed, and then the runner with its clients. -/
def destroy (r : PumpRoster) : Option PumpRoster :=
  r.resetModule.map fun r => { r with destroyed := true }

end PumpRoster

/-! ## 2. Runs -/

/-- What happens to the thread and its clients, what an engine takes in, and the end. -/
inductive RosterEvent where
  | pump (e : PumpEvent)
  | stanza (i : Nat)
  | reply (i n : Nat)
  | destroy

/-- A `Login` is dispatched. -/
def PumpThread.logsIn (p : PumpThread) : PumpEvent → Bool
  | .dispatch => p.queue.head? = some .login
  | _ => false

/-- An engine that is there may take in a stanza when the runner does not run. A run goes on as
long as the thread uses its client only while it is there. -/
def PumpRoster.Possible (r : PumpRoster) : RosterEvent → Prop
  | .pump e => r.destroyed = false ∧ r.pump.Possible e ∧ (pumpThread.step r.pump e).isSome = true
  | .stanza i => r.destroyed = false ∧ r.pump.running = false ∧ r.pump.Alive i
  | .reply i n => r.destroyed = false ∧ r.pump.running = false ∧ r.pump.Alive i ∧
      n < (r.iq_entries_ i).length
  | .destroy => r.destroyed = false ∧ r.pump.running = false

instance (r : PumpRoster) : (e : RosterEvent) → Decidable (r.Possible e)
  | .pump e => inferInstanceAs (Decidable (_ ∧ r.pump.Possible e ∧ _))
  | .stanza i => inferInstanceAs (Decidable (_ ∧ _ ∧ r.pump.Alive i))
  | .reply i _ => inferInstanceAs (Decidable (_ ∧ _ ∧ r.pump.Alive i ∧ _))
  | .destroy => inferInstanceAs (Decidable (_ ∧ _))

/-- The thread with its roster modules, as a system. -/
def pumpRoster : Faulting.System PumpRoster RosterEvent where
  enabled := PumpRoster.Possible
  step r
    | .pump e => (pumpThread.step r.pump e).bind fun pump =>
      if r.pump.logsIn e then PumpRoster.startRoster { r with pump } else some { r with pump }
    | .stanza i => r.incomingStanza (r.stanza_handlers_ i)
    | .reply i n => r.handleIqResponse i n
    | .destroy => r.destroy

/-! ## 3. The thread between two logins -/

namespace PumpThread

variable {p q r : PumpThread} {i : Nat} {s : EngineState}

/-- No client was made. -/
structure Held (p q : PumpThread) : Prop where
  client_ : q.client_ = p.client_
  made : q.made = p.made

theorem Held.refl (p : PumpThread) : Held p p := ⟨rfl, rfl⟩

theorem Held.trans (h : Held p q) (k : Held q r) : Held p r :=
  ⟨k.client_.trans h.client_, k.made.trans h.made⟩

theorem onStateChange_held (h : p.onStateChange s = some q) : Held p q := by
  unfold onStateChange at h
  cases s with
  | closed =>
    obtain ⟨i, -, rfl⟩ := Option.map_eq_some_iff.1 h
    exact ⟨rfl, rfl⟩
  | _ =>
    obtain rfl := Option.some.inj h
    exact ⟨rfl, rfl⟩

theorem signalStateChange_held (h : p.signalStateChange i s = some q) : Held p q := by
  unfold signalStateChange at h
  split at h
  · exact onStateChange_held h
  · obtain rfl := Option.some.inj h
    exact .refl p

theorem ensureClosed_held (h : p.ensureClosed i = some q) : Held p q := by
  unfold ensureClosed at h
  split at h
  · obtain rfl := Option.some.inj h
    exact .refl p
  · exact Held.trans (q := p.closes i) ⟨rfl, rfl⟩ (signalStateChange_held h)

theorem engineStateChange_held (h : p.engineStateChange i s = some q) : Held p q := by
  obtain ⟨m, hm, rfl⟩ := Option.map_eq_some_iff.1 h
  have hwake : Held m (m.wake i) := by
    unfold wake
    split_ifs <;> exact ⟨rfl, rfl⟩
  refine Held.trans ?_ hwake
  split at hm
  · exact ensureClosed_held hm
  · exact signalStateChange_held hm

theorem clientDisconnect_held (h : p.clientDisconnect i = some q) : Held p q := by
  unfold clientDisconnect at h
  split at h
  · obtain rfl := Option.some.inj h
    exact .refl p
  · obtain ⟨m, hm, rfl⟩ := Option.map_eq_some_iff.1 h
    have habort : Held p (p.abort i) := by
      unfold abort
      split_ifs <;> exact ⟨rfl, rfl⟩
    refine habort.trans (Held.trans (q := m) ?_ ⟨rfl, rfl⟩)
    unfold engineDisconnect at hm
    split at hm
    · obtain rfl := Option.some.inj hm
      exact .refl _
    · have hmoved := engineStateChange_held hm
      exact ⟨hmoved.client_, hmoved.made⟩

theorem doDisconnect_held (h : p.doDisconnect = some q) : Held p q := by
  obtain ⟨m, hm, hq⟩ := Option.bind_eq_some_iff.1 h
  obtain ⟨i, -, rfl⟩ := Option.map_eq_some_iff.1 hq
  refine Held.trans (q := m) ?_ ⟨rfl, rfl⟩
  split at hm
  · obtain ⟨j, -, hj⟩ := Option.bind_eq_some_iff.1 hm
    exact clientDisconnect_held hj
  · obtain rfl := Option.some.inj hm
    exact .refl p

/-- Only `DoLogin` makes a client. -/
theorem pump_held {e : PumpEvent} (h : pumpThread.step p e = some q) (he : p.logsIn e = false) :
    Held p q := by
  cases e with
  | dispatch =>
    have hlogin : p.queue.head? ≠ some .login := of_decide_eq_false he
    have hdispatch : p.dispatch = some q := h
    unfold dispatch at hdispatch
    cases hqueue : p.queue with
    | nil =>
      rw [hqueue] at hdispatch
      obtain rfl := Option.some.inj hdispatch
      exact .refl p
    | cons msg rest =>
      rw [hqueue] at hdispatch hlogin
      cases msg with
      | login => exact absurd rfl hlogin
      | disconnect =>
        have hheld := doDisconnect_held hdispatch
        exact ⟨hheld.client_, hheld.made⟩
      | _ =>
        obtain rfl := Option.some.inj hdispatch
        exact ⟨rfl, rfl⟩
  | step i auth connects =>
    have hstep : p.step i auth connects = some q := h
    obtain ⟨m, hm, rfl⟩ := Option.map_eq_some_iff.1 hstep
    refine Held.trans (q := m) ?_ ⟨rfl, rfl⟩
    split at hm
    · have hheld := ensureClosed_held hm
      exact ⟨hheld.client_, hheld.made⟩
    · obtain rfl := Option.some.inj hm
      exact ⟨rfl, rfl⟩
  | engine i state error =>
    have hmoves : p.engineMoves i state error = some q := h
    have hheld := engineStateChange_held hmoves
    exact ⟨hheld.client_, hheld.made⟩
  | _ =>
    obtain rfl := Option.some.inj h
    exact ⟨rfl, rfl⟩

/-- A client was made and started. -/
structure LoggedIn (p q : PumpThread) : Prop where
  made : q.made = p.made + 1
  client_ : q.client_ = some p.made
  new : q.clients p.made = loggedIn
  others : ∀ j, j ≠ p.made → q.clients j = p.clients j

/-- `DoLogin` makes one. -/
theorem pump_login {e : PumpEvent} (h : pumpThread.step p e = some q) (he : p.logsIn e = true) :
    LoggedIn p q := by
  cases e with
  | dispatch =>
    have hlogin : p.queue.head? = some .login := of_decide_eq_true he
    have hdispatch : p.dispatch = some q := h
    unfold dispatch at hdispatch
    cases hqueue : p.queue with
    | nil =>
      rw [hqueue] at hlogin
      cases hlogin
    | cons msg rest =>
      rw [hqueue] at hdispatch hlogin
      obtain rfl := Option.some.inj hlogin
      obtain ⟨q', hq', hmade, hclient, -, hnew, hold⟩ :=
        doLogin_spec { p with queue := rest }
      have hdo : doLogin { p with queue := rest } = some q := hdispatch
      rw [hq'] at hdo
      obtain rfl := Option.some.inj hdo
      exact ⟨hmade, hclient, hnew, hold⟩
  | _ => cases he

end PumpThread

/-! ## 4. The modules between any two events -/

namespace PumpRoster

variable {r s : PumpRoster} {i j k n : Nat}

@[simp] theorem setModule_self (r : PumpRoster) (k : Nat) (m : PumpModule) :
    (r.setModule k m).modules k = m := if_pos rfl

theorem setModule_ne (m : PumpModule) (h : n ≠ k) : (r.setModule k m).modules n = r.modules n :=
  if_neg h

/-- What the modules and the engines know of each other. The last module, and no other one, is
there and registered, with the engine of the last client; it made the requests of that engine, and
those of the engines before it were made by modules that are gone. -/
structure Ok (r : PumpRoster) : Prop where
  registered : ∀ k, r.roster_module_ = some k → k < r.made ∧ (r.modules k).destroyed = false ∧
    (r.modules k).engine_ = r.pump.client_
  first : r.roster_module_ = none ↔ r.pump.client_ = none
  gone : ∀ k < r.made, r.roster_module_ ≠ some k → (r.modules k).destroyed = true
  handlers : ∀ i, ∀ k ∈ r.stanza_handlers_ i, r.roster_module_ = some k ∧ r.pump.client_ = some i
  entries : ∀ i, ∀ k ∈ r.iq_entries_ i,
    k < r.made ∧ (r.roster_module_ = some k ↔ r.pump.client_ = some i)
  fresh : ∀ i, r.pump.made ≤ i → r.iq_entries_ i = []
  made : ∀ i, r.pump.client_ = some i → i < r.pump.made

theorem init_ok : init.Ok where
  registered := nofun
  first := ⟨fun _ => rfl, fun _ => rfl⟩
  gone k hk := absurd hk (Nat.not_lt_zero k)
  handlers _ _ hk := absurd hk List.not_mem_nil
  entries _ _ hk := absurd hk List.not_mem_nil
  fresh _ _ := rfl
  made := nofun

/-- The engine that a module follows is there. -/
theorem followEngine_isSome_iff (r : PumpRoster) (k : Nat) : (r.followEngine k).isSome = true ↔
    ∀ i, (r.modules k).engine_ = some i → (r.pump.clients i).deleted = false := by
  unfold followEngine
  cases (r.modules k).engine_ with
  | none => simp
  | some i => cases hdeleted : (r.pump.clients i).deleted <;> simp [hdeleted]

theorem followEngine_eq (h : r.followEngine k = some s) : s = r := by
  unfold followEngine at h
  split at h
  · cases h
  · exact (Option.some.inj h).symm

/-- A module is destroyed when it can follow its engine. -/
theorem destroyModule_isSome (r : PumpRoster) (k : Nat) :
    (r.destroyModule k).isSome = (r.followEngine k).isSome := by
  unfold destroyModule
  cases hengine : (r.modules k).engine_ with
  | none =>
    refine ((followEngine_isSome_iff r k).2 fun i hi => ?_).symm
    rw [hengine] at hi
    cases hi
  | some i =>
    dsimp only
    rw [Option.isSome_map]

/-- What is left when the last module is destroyed. -/
structure Parted (r s : PumpRoster) : Prop where
  pump : s.pump = r.pump
  made : s.made = r.made
  roster_module_ : s.roster_module_ = r.roster_module_
  iq_entries_ : s.iq_entries_ = r.iq_entries_
  last : ∀ k, r.roster_module_ = some k → (s.modules k).destroyed = true
  others : ∀ k, r.roster_module_ ≠ some k → s.modules k = r.modules k
  handlers : ∀ i, s.stanza_handlers_ i = []

theorem resetModule_parted (h : r.resetModule = some s)
    (hengine : ∀ k, r.roster_module_ = some k → ∃ i, (r.modules k).engine_ = some i ∧
      ∀ j, ∀ l ∈ r.stanza_handlers_ j, j = i ∧ l = k)
    (hnone : r.roster_module_ = none → ∀ i, r.stanza_handlers_ i = []) : Parted r s := by
  unfold resetModule at h
  cases hmodule : r.roster_module_ with
  | none =>
    rw [hmodule] at h
    obtain rfl := Option.some.inj h
    refine ⟨rfl, rfl, rfl, rfl, fun k hk => ?_, fun _ _ => rfl, hnone hmodule⟩
    rw [hmodule] at hk
    cases hk
  | some k =>
    rw [hmodule] at h
    obtain ⟨i, hi, hhandlers⟩ := hengine k hmodule
    dsimp only at h
    unfold destroyModule at h
    rw [hi] at h
    obtain ⟨m, hm, rfl⟩ := Option.map_eq_some_iff.1 h
    obtain rfl := followEngine_eq hm
    refine ⟨rfl, rfl, rfl, rfl, fun l hl => ?_, fun l hl => ?_, fun j => ?_⟩
    · rw [hmodule] at hl
      rw [← Option.some.inj hl, setModule_self]
    · rw [hmodule] at hl
      exact setModule_ne _ fun h => hl (congrArg some h.symm)
    · show Function.update m.stanza_handlers_ i _ j = []
      by_cases hj : j = i
      · rw [hj, Function.update_self, List.filter_eq_nil_iff]
        intro l hl
        rw [(hhandlers i l hl).2]
        simp
      · rw [Function.update_of_ne hj]
        exact List.eq_nil_iff_forall_not_mem.2 fun l hl => hj (hhandlers j l hl).1

theorem resetModule_isSome_iff (r : PumpRoster) : r.resetModule.isSome = true ↔
    ∀ k, r.roster_module_ = some k → (r.followEngine k).isSome = true := by
  unfold resetModule
  cases r.roster_module_ with
  | none => simp
  | some k =>
    dsimp only
    rw [destroyModule_isSome]
    constructor
    · rintro h l hl
      rw [← Option.some.inj hl]
      exact h
    · intro h
      exact h k rfl

/-- The client of the last `Login`, if there was one, is there. -/
def LastAlive (p : PumpThread) : Prop := p.client_ ≠ none → p.target.isSome = true

instance (p : PumpThread) : Decidable (LastAlive p) := inferInstanceAs (Decidable (_ → _))

/-- The last module can be destroyed as long as the client of the last `Login` is there. -/
theorem Ok.resetModule_isSome_iff (h : r.Ok) :
    r.resetModule.isSome = true ↔ LastAlive r.pump := by
  rw [PumpRoster.resetModule_isSome_iff]
  unfold LastAlive
  cases hclient : r.pump.client_ with
  | none =>
    refine ⟨fun _ hne => absurd rfl hne, fun _ k hk => ?_⟩
    rw [h.first.2 hclient] at hk
    cases hk
  | some i =>
    have hsome : r.roster_module_ ≠ none := fun hnone => by
      rw [h.first.1 hnone] at hclient
      cases hclient
    obtain ⟨k, hk⟩ := Option.ne_none_iff_exists'.1 hsome
    have hengine := (h.registered k hk).2.2
    have htarget : r.pump.target.isSome = true ↔ (r.pump.clients i).deleted = false := by
      unfold PumpThread.target
      rw [hclient]
      cases hdeleted : (r.pump.clients i).deleted <;> simp [Option.filter, hdeleted]
    rw [htarget]
    constructor
    · intro hall
      refine fun _ => (followEngine_isSome_iff r k).1 (hall k hk) i ?_
      rw [hengine, hclient]
    · intro hlive l hl
      rw [hk] at hl
      obtain rfl := Option.some.inj hl
      refine (followEngine_isSome_iff r k).2 fun j hj => ?_
      rw [hengine, hclient] at hj
      rw [← Option.some.inj hj]
      exact hlive (by simp)

/-! ## 5. The events -/

/-- A new module is started with the engine of a new client. -/
theorem start_eq (hmodule : r.modules k = ⟨none, false⟩)
    (hclient : r.pump.clients i = PumpThread.loggedIn) :
    r.start k i = some { r.setModule k ⟨some i, false⟩ with
      stanza_handlers_ := Function.update r.stanza_handlers_ i (r.stanza_handlers_ i ++ [k])
      iq_entries_ := Function.update r.iq_entries_ i (r.iq_entries_ i ++ [k]) } := by
  have hregister : r.registerEngine k i = { r.setModule k ⟨some i, false⟩ with
      stanza_handlers_ :=
        Function.update r.stanza_handlers_ i (r.stanza_handlers_ i ++ [k]) } := by
    unfold registerEngine addStanzaHandler
    rw [hmodule, hclient, if_neg (by decide), if_neg (by decide)]
    rfl
  unfold start
  rw [hregister]
  have hfollow : followEngine { r.setModule k ⟨some i, false⟩ with
      stanza_handlers_ :=
        Function.update r.stanza_handlers_ i (r.stanza_handlers_ i ++ [k]) } k
      = some { r.setModule k ⟨some i, false⟩ with
        stanza_handlers_ :=
          Function.update r.stanza_handlers_ i (r.stanza_handlers_ i ++ [k]) } := by
    have hsome := (followEngine_isSome_iff { r.setModule k ⟨some i, false⟩ with
      stanza_handlers_ :=
        Function.update r.stanza_handlers_ i (r.stanza_handlers_ i ++ [k]) } k).2 fun j hj => by
      have hj' : ((r.setModule k ⟨some i, false⟩).modules k).engine_ = some j := hj
      rw [setModule_self] at hj'
      rw [← Option.some.inj hj']
      exact congrArg PumpClient.deleted hclient
    obtain ⟨m, hm⟩ := Option.isSome_iff_exists.1 hsome
    rw [hm, followEngine_eq hm]
  rw [hfollow, Option.map_some]
  unfold sendIq
  exact congrArg some (if_neg (by
    show ¬(r.pump.clients i).engine_state = .closed
    rw [hclient]
    decide))

/-- The state in which a new module has been made, in a `Login`. -/
def newModule (r : PumpRoster) (q : PumpThread) : PumpRoster :=
  { setModule { r with pump := q } r.made ⟨none, false⟩ with made := r.made + 1 }

section Login

variable {q : PumpThread}

theorem newModule_ne (hk : k ≠ r.made) : (r.newModule q).modules k = r.modules k :=
  setModule_ne _ hk

theorem startRoster_newModule (hq : PumpThread.LoggedIn r.pump q) :
    startRoster { r with pump := q } = (r.newModule q).resetModule.bind fun s =>
      start { s with roster_module_ := some r.made } r.made r.pump.made := by
  unfold startRoster
  dsimp only
  rw [hq.client_]
  rfl

/-- The module before is destroyed as it would have been before the login. -/
theorem Ok.newModule_isSome_iff (h : r.Ok) (hq : PumpThread.LoggedIn r.pump q) :
    (r.newModule q).resetModule.isSome = true ↔ LastAlive r.pump := by
  rw [← h.resetModule_isSome_iff, PumpRoster.resetModule_isSome_iff,
    PumpRoster.resetModule_isSome_iff]
  refine forall_congr' fun l => imp_congr_right fun (hl : r.roster_module_ = some l) => ?_
  obtain ⟨hlt, -, hengine⟩ := h.registered l hl
  rw [followEngine_isSome_iff, followEngine_isSome_iff, newModule_ne (Nat.ne_of_lt hlt)]
  refine forall_congr' fun i => imp_congr_right fun hi => ?_
  rw [hengine] at hi
  show (q.clients i).deleted = false ↔ _
  rw [hq.others i (Nat.ne_of_lt (h.made i hi))]

theorem Ok.newModule_parted (h : r.Ok) (hs : (r.newModule q).resetModule = some s) :
    Parted (r.newModule q) s := by
  refine resetModule_parted hs (fun k (hk : r.roster_module_ = some k) => ?_)
    fun (hnone : r.roster_module_ = none) i => ?_
  · obtain ⟨hlt, -, hengine⟩ := h.registered k hk
    rw [newModule_ne (Nat.ne_of_lt hlt), hengine]
    cases hclient : r.pump.client_ with
    | none =>
      rw [h.first.2 hclient] at hk
      cases hk
    | some i =>
      refine ⟨i, rfl, fun j l hl => ?_⟩
      obtain ⟨hl', hj⟩ := h.handlers j l hl
      rw [hclient] at hj
      rw [hk] at hl'
      exact ⟨(Option.some.inj hj).symm, (Option.some.inj hl').symm⟩
  · refine List.eq_nil_iff_forall_not_mem.2 fun l hl => ?_
    have hl' := (h.handlers i l hl).1
    rw [hnone] at hl'
    cases hl'

/-- The state in which the new module has been started. -/
def started (r s : PumpRoster) : PumpRoster :=
  { setModule { s with roster_module_ := some r.made } r.made ⟨some r.pump.made, false⟩ with
    stanza_handlers_ := Function.update s.stanza_handlers_ r.pump.made
      (s.stanza_handlers_ r.pump.made ++ [r.made])
    iq_entries_ := Function.update s.iq_entries_ r.pump.made
      (s.iq_entries_ r.pump.made ++ [r.made]) }

theorem Ok.start_eq (h : r.Ok) (hq : PumpThread.LoggedIn r.pump q)
    (hp : Parted (r.newModule q) s) :
    start { s with roster_module_ := some r.made } r.made r.pump.made = some (r.started s) := by
  refine PumpRoster.start_eq ?_ ?_
  · refine (hp.others r.made fun (hk : r.roster_module_ = some r.made) => ?_).trans ?_
    · exact absurd (h.registered _ hk).1 (Nat.lt_irrefl _)
    · exact setModule_self _ _ _
  · show s.pump.clients r.pump.made = _
    rw [hp.pump]
    exact hq.new

theorem Ok.started_ok (h : r.Ok) (hq : PumpThread.LoggedIn r.pump q)
    (hp : Parted (r.newModule q) s) : (r.started s).Ok := by
  have hpump : s.pump = q := hp.pump
  have hentries : s.iq_entries_ = r.iq_entries_ := hp.iq_entries_
  have hmade : s.made = r.made + 1 := hp.made
  have hself : (r.started s).modules r.made = ⟨some r.pump.made, false⟩ := setModule_self _ _ _
  have hother : ∀ k, k ≠ r.made → (r.started s).modules k = s.modules k :=
    fun k hk => setModule_ne _ hk
  have hclient : (r.started s).pump.client_ = some r.pump.made := by
    show s.pump.client_ = _
    rw [hpump, hq.client_]
  refine ⟨fun k hk => ?_, ?_, fun k hk hne => ?_, fun i k hk => ?_, fun i k hk => ?_,
    fun i hi => ?_, fun i hi => ?_⟩
  · obtain rfl : r.made = k := Option.some.inj hk
    rw [hself, hclient]
    exact ⟨Nat.lt_of_lt_of_eq (Nat.lt_succ_self _) hmade.symm, rfl, rfl⟩
  · rw [hclient]
    exact ⟨nofun, nofun⟩
  · have hk' : k ≠ r.made := fun h => hne (congrArg some h.symm)
    have hlt : k < s.made := hk
    rw [hother k hk']
    by_cases hlast : r.roster_module_ = some k
    · exact hp.last k hlast
    · rw [hp.others k hlast, newModule_ne hk']
      exact h.gone k (by omega) hlast
  · have hk' : k ∈ Function.update s.stanza_handlers_ r.pump.made
        (s.stanza_handlers_ r.pump.made ++ [r.made]) i := hk
    rw [hclient]
    by_cases hi : i = r.pump.made
    · rw [hi, Function.update_self, hp.handlers, List.nil_append, List.mem_singleton] at hk'
      rw [hi, hk']
      exact ⟨rfl, rfl⟩
    · rw [Function.update_of_ne hi, hp.handlers] at hk'
      cases hk'
  · have hk' : k ∈ Function.update s.iq_entries_ r.pump.made
        (s.iq_entries_ r.pump.made ++ [r.made]) i := hk
    rw [hentries] at hk'
    rw [hclient]
    show k < s.made ∧ (some r.made = some k ↔ _)
    by_cases hi : i = r.pump.made
    · rw [hi, Function.update_self, h.fresh _ (Nat.le_refl _), List.nil_append,
        List.mem_singleton] at hk'
      rw [hk', hi, hmade]
      exact ⟨Nat.lt_succ_self _, fun _ => rfl, fun _ => rfl⟩
    · -- a request of a module before
      rw [Function.update_of_ne hi] at hk'
      have hlt := (h.entries i k hk').1
      refine ⟨by omega, fun heq => ?_, fun heq => ?_⟩
      · exact absurd (Option.some.inj heq) (Nat.ne_of_gt hlt)
      · exact absurd (Option.some.inj heq).symm hi
  · have hi' : s.pump.made ≤ i := hi
    rw [hpump, hq.made] at hi'
    show Function.update s.iq_entries_ r.pump.made _ i = []
    rw [Function.update_of_ne (by omega), hentries]
    exact h.fresh i (by omega)
  · rw [hclient] at hi
    show i < s.pump.made
    rw [hpump, hq.made, ← Option.some.inj hi]
    exact Nat.lt_succ_self _

/-- A `Login`. -/
theorem Ok.startRoster (h : r.Ok) (hq : PumpThread.LoggedIn r.pump q) :
    ((startRoster { r with pump := q }).isSome = true ↔ LastAlive r.pump) ∧
      ∀ t, startRoster { r with pump := q } = some t → t.Ok := by
  rw [startRoster_newModule hq, ← h.newModule_isSome_iff hq]
  cases hs : (r.newModule q).resetModule with
  | none => exact ⟨Iff.rfl, nofun⟩
  | some s =>
    have hp := h.newModule_parted hs
    rw [Option.bind_some, h.start_eq hq hp]
    refine ⟨⟨fun _ => rfl, fun _ => rfl⟩, fun t ht => ?_⟩
    rw [← Option.some.inj ht]
    exact h.started_ok hq hp

end Login

/-- What a module that is there can do. -/
theorem callModule_isSome_iff (r : PumpRoster) (k : Nat) : (r.callModule k).isSome = true ↔
    (r.modules k).destroyed = false ∧ (r.followEngine k).isSome = true := by
  unfold callModule
  cases (r.modules k).destroyed <;> simp

theorem callModule_eq (h : r.callModule k = some s) : s = r := by
  unfold callModule at h
  split at h
  · cases h
  · exact followEngine_eq h

/-- The last module may be called by the engine of the last client. -/
theorem Ok.callModule_isSome (h : r.Ok) (hk : r.roster_module_ = some k)
    (hi : r.pump.client_ = some i) (hlive : (r.pump.clients i).deleted = false) :
    (r.callModule k).isSome = true := by
  obtain ⟨-, hthere, hengine⟩ := h.registered k hk
  refine (callModule_isSome_iff r k).2 ⟨hthere, (followEngine_isSome_iff r k).2 fun j hj => ?_⟩
  rw [hengine, hi] at hj
  rw [← Option.some.inj hj]
  exact hlive

theorem incomingStanza_eq {handlers : List Nat}
    (h : ∀ k ∈ handlers, (r.callModule k).isSome = true) : r.incomingStanza handlers = some r := by
  induction handlers with
  | nil => rfl
  | cons k handlers ih =>
    obtain ⟨s, hs⟩ := Option.isSome_iff_exists.1 (h k List.mem_cons_self)
    unfold incomingStanza
    rw [hs, callModule_eq hs, Option.bind_some]
    exact ih fun l hl => h l (List.mem_cons_of_mem _ hl)

/-- A stanza comes to an engine that is there. -/
theorem Ok.incomingStanza (h : r.Ok) (hi : r.pump.Alive i) :
    r.incomingStanza (r.stanza_handlers_ i) = some r :=
  incomingStanza_eq fun k hk =>
    h.callModule_isSome (h.handlers i k hk).1 (h.handlers i k hk).2 hi.2

/-- A reply comes to an engine that is there. -/
theorem Ok.handleIqResponse (h : r.Ok) (hi : r.pump.Alive i)
    (hn : n < (r.iq_entries_ i).length) :
    ((r.handleIqResponse i n).isSome = true ↔ r.pump.client_ = some i) ∧
      ∀ t, r.handleIqResponse i n = some t → t.Ok := by
  generalize hk : (r.iq_entries_ i)[n] = k
  have hmem : k ∈ r.iq_entries_ i := hk ▸ List.getElem_mem hn
  obtain ⟨hlt, hiff⟩ := h.entries i k hmem
  generalize hm : { r with
    iq_entries_ := Function.update r.iq_entries_ i ((r.iq_entries_ i).eraseIdx n) } = m
  have hhandle : r.handleIqResponse i n = m.callModule k := by
    unfold PumpRoster.handleIqResponse
    rw [List.getElem?_eq_getElem hn, hk, ← hm]
  have hmodules : m.modules = r.modules := by rw [← hm]
  have hpump : m.pump = r.pump := by rw [← hm]
  have hok : m.Ok := by
    rw [← hm]
    refine ⟨h.registered, h.first, h.gone, h.handlers, fun j l hl => ?_, fun j hj => ?_, h.made⟩
    · have hl' : l ∈ Function.update r.iq_entries_ i ((r.iq_entries_ i).eraseIdx n) j := hl
      by_cases hji : j = i
      · rw [hji, Function.update_self] at hl'
        rw [hji]
        exact h.entries i l (List.mem_of_mem_eraseIdx hl')
      · rw [Function.update_of_ne hji] at hl'
        exact h.entries j l hl'
    · show Function.update r.iq_entries_ i _ j = []
      have hj' : r.pump.made ≤ j := hj
      have hi' := hi.1
      rw [Function.update_of_ne (by omega)]
      exact h.fresh j hj
  rw [hhandle]
  refine ⟨⟨fun hcall => ?_, fun hclient => ?_⟩, fun t ht => ?_⟩
  · have hthere := ((callModule_isSome_iff m k).1 hcall).1
    rw [hmodules] at hthere
    by_contra hother
    rw [h.gone k hlt fun hlast => hother (hiff.1 hlast)] at hthere
    cases hthere
  · refine hok.callModule_isSome (i := i) ?_ ?_ ?_
    · rw [← hm]
      exact hiff.2 hclient
    · rw [hpump, hclient]
    · rw [hpump]
      exact hi.2
  · rw [callModule_eq ht]
    exact hok

/-! ## 6. The runs -/

/-- A `Login` is dispatched, and the thread is destroyed, when the client of the last `Login` is
there, or there was none; and a reply comes to the engine of that client. -/
def Lasting (r : PumpRoster) : RosterEvent → Prop
  | .pump e => r.pump.logsIn e = true → LastAlive r.pump
  | .stanza _ => True
  | .reply i _ => r.pump.client_ = some i
  | .destroy => LastAlive r.pump

instance (r : PumpRoster) : (e : RosterEvent) → Decidable (r.Lasting e)
  | .pump _ => inferInstanceAs (Decidable (_ → _))
  | .stanza _ => inferInstanceAs (Decidable True)
  | .reply _ _ => inferInstanceAs (Decidable (_ = _))
  | .destroy => inferInstanceAs (Decidable (LastAlive r.pump))

/-- An event goes right exactly when it is lasting. -/
theorem Ok.step (h : r.Ok) {e : RosterEvent} (he : r.Possible e) :
    ((pumpRoster.step r e).isSome = true ↔ r.Lasting e) ∧
      ∀ t, pumpRoster.step r e = some t → t.destroyed = true ∨ t.Ok := by
  cases e with
  | pump e =>
    obtain ⟨-, -, hsome⟩ := he
    obtain ⟨q, hq⟩ := Option.isSome_iff_exists.1 hsome
    have hstep : pumpRoster.step r (.pump e) = if r.pump.logsIn e
        then PumpRoster.startRoster { r with pump := q } else some { r with pump := q } := by
      show (pumpThread.step r.pump e).bind _ = _
      rw [hq]
      rfl
    have hlasting : r.Lasting (.pump e) ↔ (r.pump.logsIn e = true → LastAlive r.pump) := Iff.rfl
    rw [hstep, hlasting]
    cases hlogin : r.pump.logsIn e with
    | true =>
      obtain ⟨hiff, hok⟩ := h.startRoster (PumpThread.pump_login hq hlogin)
      rw [if_pos rfl]
      exact ⟨hiff.trans ⟨fun hlast _ => hlast, fun hlast => hlast rfl⟩,
        fun t ht => Or.inr (hok t ht)⟩
    | false =>
      have hheld := PumpThread.pump_held hq hlogin
      rw [if_neg (by decide)]
      refine ⟨⟨fun _ => nofun, fun _ => rfl⟩, fun t ht => Or.inr ?_⟩
      rw [← Option.some.inj ht]
      refine ⟨fun k hk => ?_, ?_, h.gone, fun i k hk => ?_, fun i k hk => ?_, fun i hi => ?_,
        fun i hi => ?_⟩
      · rw [hheld.client_]
        exact h.registered k hk
      · rw [hheld.client_]
        exact h.first
      · rw [hheld.client_]
        exact h.handlers i k hk
      · rw [hheld.client_]
        exact h.entries i k hk
      · rw [hheld.made] at hi
        exact h.fresh i hi
      · rw [hheld.client_] at hi
        rw [hheld.made]
        exact h.made i hi
  | stanza i =>
    have hstep : pumpRoster.step r (.stanza i) = some r := h.incomingStanza he.2.2
    rw [hstep]
    refine ⟨⟨fun _ => trivial, fun _ => rfl⟩, fun t ht => Or.inr ?_⟩
    rw [← Option.some.inj ht]
    exact h
  | reply i n =>
    obtain ⟨hiff, hok⟩ := h.handleIqResponse he.2.2.1 he.2.2.2
    exact ⟨hiff, fun t ht => Or.inr (hok t ht)⟩
  | destroy =>
    have hstep : pumpRoster.step r .destroy =
        r.resetModule.map fun r => { r with destroyed := true } := rfl
    rw [hstep]
    refine ⟨by rw [Option.isSome_map]; exact h.resetModule_isSome_iff, fun t ht => Or.inl ?_⟩
    obtain ⟨s, -, rfl⟩ := Option.map_eq_some_iff.1 ht
    rfl

end PumpRoster

/-- In every run, of the events that are possible those go right that are lasting, and no other
ones. -/
theorem roster_modules_last_iff {r : PumpRoster} (h : pumpRoster.Reaches PumpRoster.init r)
    {e : RosterEvent} (he : r.Possible e) :
    (pumpRoster.step r e).isSome = true ↔ r.Lasting e := by
  have hundestroyed : ∀ {s : PumpRoster} {e : RosterEvent}, s.Possible e → s.destroyed = false := by
    intro s e hs
    cases e <;> exact hs.1
  have hok : r.destroyed = true ∨ r.Ok :=
    Faulting.ReachesWhen.invariant (I := fun r : PumpRoster => r.destroyed = true ∨ r.Ok) h
      (Or.inr PumpRoster.init_ok) fun s e t hs hpossible _ ht => by
        rcases hs with hdestroyed | hs
        · rw [hundestroyed hpossible] at hdestroyed
          cases hdestroyed
        · exact (hs.step hpossible).2 t ht
  rcases hok with hdestroyed | hok
  · rw [hundestroyed he] at hdestroyed
    cases hdestroyed
  · exact (hok.step he).1

instance (r : PumpRoster) (e : RosterEvent) : Decidable (pumpRoster.enabled r e) :=
  inferInstanceAs (Decidable (r.Possible e))

/-- The roster that was requested comes when the stream is open. -/
theorem roster_modules_last_reply : ∃ r, pumpRoster.Reaches PumpRoster.init r ∧
    r.iq_entries_ 0 = [0] ∧ (pumpRoster.step r (.reply 0 0)).isSome = true := by
  obtain ⟨r, hr, hp⟩ := Faulting.exists_of_follow (S := pumpRoster) (K := fun _ _ => True)
    (s := PumpRoster.init) (l := (pumpLogin ++ pumpOpens).map .pump)
    (p := fun r => decide (r.iq_entries_ 0 = [0] ∧ r.Possible (.reply 0 0) ∧
      r.Lasting (.reply 0 0))) (by decide +kernel)
  obtain ⟨hentries, hpossible, hlasting⟩ := of_decide_eq_true hp
  exact ⟨r, hr, hentries, (roster_modules_last_iff hr hpossible).2 hlasting⟩

/-- The connection is lost and the client deleted, with its engine, and then the thread is
destroyed. -/
theorem roster_module_outlives : ¬∀ r, pumpRoster.Reaches PumpRoster.init r →
    pumpRoster.SafeAt r := by
  intro hall
  obtain ⟨r, hr, hp⟩ := Faulting.exists_of_follow (S := pumpRoster) (K := fun _ _ => True)
    (s := PumpRoster.init) (l := (pumpLogin ++ pumpOpens ++ pumpLoses).map .pump)
    (p := fun r => decide (r.Possible .destroy) && (pumpRoster.step r .destroy).isNone)
    (by decide +kernel)
  obtain ⟨hpossible, hnone⟩ := Bool.and_eq_true_iff.1 hp
  have hsafe := hall r hr .destroy (of_decide_eq_true hpossible)
  rw [Option.isNone_iff_eq_none.1 hnone] at hsafe
  cases hsafe

end Gxmpp
