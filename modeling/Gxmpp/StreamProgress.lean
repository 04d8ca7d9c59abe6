/-
A connected stream does not stall.

`OnEvent` disables the event it delivers. `DE_READ` is enabled again by each `Recv`, and the loop
that reads makes one at least; `DE_WRITE` by a `Send` that would block, and the loop that writes
goes on until then, or until the buffer is empty. What is disabled is owed by a pending loop.
-/
import Gxmpp.PlainSocket
import Gxmpp.SocketClose

set_option autoImplicit false

namespace Gxmpp.TalkBase

open Reentrant

/-! ## 1. What is owed -/

/-- Nothing is going to be read. -/
def Deaf (s : PlainSocket) : Prop :=
  s.left = false ∧ .read ∉ s.cricket_socket_.enabled_events_

/-- There are bytes that nothing is going to write. -/
def Clogged (s : PlainSocket) : Prop :=
  s.left = false ∧ s.buffer_ ≠ [] ∧ .write ∉ s.cricket_socket_.enabled_events_

/-- The loops that are pending end that. -/
structure Flowing (c : PlainConf) : Prop where
  connected : c.state.left = false → c.state.cricket_socket_.s_ ≠ none
  closing : .event .close ∈ c.control → c.state.left = true
  fed : Owed Deaf (· = .recv) c
  drained : Owed Clogged (· = .send) c

/-! ## 2. The functions of the cricket socket -/

namespace PhysicalSocket

variable {s : PhysicalSocket} {r : OsResult}

theorem mem_disable {d e : DispatcherEvent} (he : e ≠ .close) (hne : d ≠ e)
    (h : d ∈ s.enabled_events_) : d ∈ (s.disable e).enabled_events_ := by
  cases e with
  | close => exact absurd rfl he
  | _ => exact Finset.mem_erase.2 ⟨hne, h⟩

theorem disable_descriptor (e : DispatcherEvent) : (s.disable e).s_ = s.s_ := by
  cases e <;> rfl

theorem OnPreEvent_enabled (ff : Finset DispatcherEvent) :
    (s.OnPreEvent ff).enabled_events_ = s.enabled_events_ ∧ (s.OnPreEvent ff).s_ = s.s_ := by
  unfold OnPreEvent
  dsimp only
  split <;> split <;> exact ⟨rfl, rfl⟩

theorem OnPreEvent_close {ff : Finset DispatcherEvent} (h : .close ∈ ff) :
    (s.OnPreEvent ff).state_ = .CS_CLOSED := by
  unfold OnPreEvent
  dsimp only
  rw [if_pos h]

theorem mem_enable {d e : DispatcherEvent} (h : d ∈ s.enabled_events_) :
    d ∈ (s.enable e).enabled_events_ := Finset.mem_insert_of_mem h

theorem enable_mem (e : DispatcherEvent) : e ∈ (s.enable e).enabled_events_ :=
  Finset.mem_insert_self e _

/-- Each `Recv` that does not fail enables `DE_READ`. -/
theorem Recv_eq (h : r ≠ .failed) : (s.Recv r).1 = s.enable .read := by
  unfold Recv
  split
  · rfl
  · rfl
  · rfl
  · exact absurd rfl h

theorem mem_Recv {d : DispatcherEvent} (h : d ∈ s.enabled_events_) :
    d ∈ (s.Recv r).1.enabled_events_ := by
  by_cases hr : r = .failed
  · rw [hr]
    exact h
  · rw [Recv_eq hr]
    exact mem_enable h

theorem Recv_descriptor : (s.Recv r).1.s_ = s.s_ := by
  unfold Recv
  split <;> rfl

theorem Send_descriptor : (s.Send r).s_ = s.s_ := by
  cases r <;> rfl

theorem mem_Send {d : DispatcherEvent} (h : d ∈ s.enabled_events_) :
    d ∈ (s.Send r).enabled_events_ := by
  cases r with
  | blocking => exact mem_enable h
  | count | failed => exact h

end PhysicalSocket

open PhysicalSocket

/-! ## 3. Each step pays what it owes -/

namespace PlainSocket

variable {s : PlainSocket} {k : PhysicalSocket}

theorem put_left (h : (s.put k).left = false) : s.left = false ∧ k.state_ ≠ .CS_CLOSED := by
  obtain ⟨hl, hc⟩ := Bool.or_eq_false_iff.1 h
  exact ⟨hl, of_decide_eq_false hc⟩

theorem Deaf.put (h : Deaf (s.put k)) (hk : .read ∈ s.cricket_socket_.enabled_events_ →
    .read ∈ k.enabled_events_) : Deaf s :=
  ⟨(put_left h.1).1, fun hread => h.2 (hk hread)⟩

theorem Clogged.put (h : Clogged (s.put k)) (hk : .write ∈ s.cricket_socket_.enabled_events_ →
    .write ∈ k.enabled_events_) : Clogged s :=
  ⟨(put_left h.1).1, h.2.1, fun hwrite => h.2.2 (hk hwrite)⟩

/-- The loop that writes is pending where the buffer is not empty. -/
theorem mem_OnWriteEvent (h : s.buffer_ ≠ []) : .send ∈ s.OnWriteEvent.2 := by
  unfold OnWriteEvent
  rw [if_neg h]
  exact List.mem_singleton_self _

variable {e : DispatcherEvent} {r : OsResult} {m : PlainCall} {x : PlainStmt}

/-- An event that is not `DE_CLOSE` is delivered. -/
theorem OnEvent_deaf (he : e ≠ .close) (h : Deaf (s.OnEvent e).1) :
    .recv ∈ (s.OnEvent e).2 ∨ Deaf s := by
  cases e with
  | connect | write => exact .inr (Deaf.put h (mem_disable (by decide) (by decide)))
  | accept | read => exact .inl (List.mem_singleton_self _)
  | close => exact absurd rfl he

theorem OnEvent_clogged (he : e ≠ .close) (h : Clogged (s.OnEvent e).1) :
    .send ∈ (s.OnEvent e).2 ∨ Clogged s := by
  cases e with
  | connect | accept | read => exact .inr (Clogged.put h (mem_disable (by decide) (by decide)))
  | write => exact .inl (mem_OnWriteEvent h.2.1)
  | close => exact absurd rfl he

theorem OnEvent_left (h : (s.OnEvent e).1.left = false) :
    s.left = false ∧ (s.OnEvent e).1.cricket_socket_.s_ = s.cricket_socket_.s_ := by
  cases e with
  | _ => exact ⟨(put_left h).1, disable_descriptor _⟩

theorem OnWriteEvent_events (e : DispatcherEvent) : .event e ∉ s.OnWriteEvent.2 := by
  unfold OnWriteEvent
  dsimp only
  split
  · nofun
  · simp

theorem OnEvent_events (d e : DispatcherEvent) : .event d ∉ (s.OnEvent e).2 := by
  cases e with
  | write => exact OnWriteEvent_events d
  | _ => simp [OnEvent]

/-- `recv` has answered. -/
theorem OnSocketRead_deaf (hr : r ≠ .failed) : ¬Deaf (s.OnSocketRead r).1 := by
  intro h
  have hread : .read ∈ (s.cricket_socket_.Recv r).1.enabled_events_ := by
    rw [Recv_eq hr]
    exact enable_mem .read
  exact h.2 hread

theorem OnSocketRead_clogged (h : Clogged (s.OnSocketRead r).1) : Clogged s :=
  Clogged.put (k := (s.cricket_socket_.Recv r).1) h mem_Recv

theorem OnSocketRead_events (r : OsResult) (e : DispatcherEvent) :
    .event e ∉ (s.OnSocketRead r).2 := by
  unfold OnSocketRead
  dsimp only
  split <;> simp

/-- `send` has answered. -/
theorem written_clogged (hr : r ≠ .failed) (hcount : r ≠ .count 0) (h : Clogged (s.written r).1) :
    .send ∈ (s.written r).2 := by
  cases r with
  | count n =>
    have hn : n ≠ 0 := fun hn => hcount (by rw [hn])
    unfold written at h ⊢
    dsimp only at h ⊢
    rw [if_neg hn] at h ⊢
    exact mem_OnWriteEvent h.2.1
  | blocking => exact absurd (enable_mem .write) h.2.2
  | failed => exact absurd rfl hr

theorem written_fields (s : PlainSocket) (r : OsResult) :
    (s.written r).1.left = (s.put (s.cricket_socket_.Send r)).left ∧
    (s.written r).1.cricket_socket_ = s.cricket_socket_.Send r := by
  cases r with
  | count n =>
    unfold written
    dsimp only
    split <;> exact ⟨rfl, rfl⟩
  | blocking | failed => exact ⟨rfl, rfl⟩

theorem written_deaf (h : Deaf (s.written r).1) : Deaf s := by
  obtain ⟨hleft, hsocket⟩ := written_fields s r
  refine Deaf.put (k := s.cricket_socket_.Send r) ⟨hleft.symm.trans h.1, fun hread => h.2 ?_⟩
    mem_Send
  rw [hsocket]
  exact hread

theorem written_events (r : OsResult) (e : DispatcherEvent) : .event e ∉ (s.written r).2 := by
  cases r with
  | count n =>
    unfold written
    dsimp only
    split
    · nofun
    · exact OnWriteEvent_events e
  | blocking | failed => nofun

/-- `Close` on a socket that has its descriptor ends in `CS_CLOSED`. -/
theorem enter_close_left {result : Int} (hfd : s.left = false → s.cricket_socket_.s_ ≠ none)
    (h : (s.enter (.close result)).1.left = false) : s.state_ ≠ .open := by
  intro hopen
  have hput : (s.put s.cricket_socket_.Close).left = false := by
    unfold enter at h
    dsimp only at h
    rw [if_neg (not_not.2 hopen)] at h
    exact h
  obtain ⟨hl, hc⟩ := put_left hput
  exact hc (Close_some (hfd hl)).2.1

/-- `Close` does nothing in another state. -/
theorem enter_close_other {result : Int} (h : s.state_ ≠ .open) :
    s.enter (.close result) = (s, []) := by
  unfold enter
  exact if_pos h

theorem enter_left (hfd : s.left = false → s.cricket_socket_.s_ ≠ none)
    (h : (s.enter m).1.left = false) :
    s.left = false ∧ (s.enter m).1.cricket_socket_.s_ = s.cricket_socket_.s_ := by
  cases m with
  | write data => exact ⟨h, rfl⟩
  | close result =>
    have hstate : s.state_ ≠ .open := enter_close_left hfd h
    rw [enter_close_other hstate] at h ⊢
    exact ⟨h, rfl⟩
  | ready ff => exact ⟨(put_left h).1, (OnPreEvent_enabled ff).2⟩

theorem enter_deaf (hfd : s.left = false → s.cricket_socket_.s_ ≠ none) (h : Deaf (s.enter m).1) :
    Deaf s := by
  cases m with
  | write data => exact h
  | close result =>
    rw [enter_close_other (enter_close_left hfd h.1)] at h
    exact h
  | ready ff => exact Deaf.put h fun hread => (OnPreEvent_enabled ff).1.symm ▸ hread

theorem enter_clogged (hfd : s.left = false → s.cricket_socket_.s_ ≠ none)
    (h : Clogged (s.enter m).1) : .send ∈ (s.enter m).2 ∨ Clogged s := by
  cases m with
  | write data => exact .inl (mem_OnWriteEvent h.2.1)
  | close result =>
    rw [enter_close_other (enter_close_left hfd h.1)] at h
    exact .inr h
  | ready ff => exact .inr (Clogged.put h fun hwrite => (OnPreEvent_enabled ff).1.symm ▸ hwrite)

/-- `OnPreEvent` is told of the close event before `OnEvent` delivers it. -/
theorem enter_closing (h : .event .close ∈ (s.enter m).2) : (s.enter m).1.left = true := by
  cases m with
  | write data => exact absurd h (OnWriteEvent_events .close)
  | close result =>
    unfold enter at h
    dsimp only at h
    split at h
    · cases h
    · split at h
      · cases h with
        | tail _ h => cases h
      · cases h
  | ready ff =>
    obtain ⟨e, he, heq⟩ := List.mem_map.1 h
    obtain rfl : e = .close := PlainStmt.event.inj heq
    have hclose : .close ∈ ff := of_decide_eq_true (List.mem_filter.1 he).2
    have hstate : (s.cricket_socket_.OnPreEvent ff).state_ = .CS_CLOSED := OnPreEvent_close hclose
    change (s.left || decide ((s.cricket_socket_.OnPreEvent ff).state_ = .CS_CLOSED)) = true
    rw [hstate]
    exact Bool.or_true _

theorem resume_left (h : (s.resume x r).1.left = false) :
    s.left = false ∧ (s.resume x r).1.cricket_socket_.s_ = s.cricket_socket_.s_ := by
  cases x with
  | event | handlers => exact ⟨h, rfl⟩
  | recv => exact ⟨(put_left (k := (s.cricket_socket_.Recv r).1) h).1, Recv_descriptor⟩
  | send =>
    obtain ⟨hleft, hsocket⟩ := written_fields s r
    refine ⟨(put_left (hleft.symm.trans h)).1, ?_⟩
    change (s.written r).1.cricket_socket_.s_ = _
    rw [hsocket]
    exact Send_descriptor

theorem exec_event {r : PlainSocket × List PlainStmt} (h : s.exec x = some r) :
    ∃ e, x = .event e ∧ r = s.OnEvent e := by
  cases x with
  | event e => exact ⟨e, rfl, (Option.some.inj h).symm⟩
  | _ => cases h

theorem resume_events (e : DispatcherEvent) : .event e ∉ (s.resume x r).2 := by
  cases x with
  | event | handlers => nofun
  | recv => exact OnSocketRead_events r e
  | send => exact written_events r e

end PlainSocket

open PlainSocket

/-! ## 4. Runs -/

variable {c c' : PlainConf}

/-- The operating system does not fail on a descriptor. -/
theorem OsAnswers.ok {s : PlainSocket} {r : OsResult} {x : PlainStmt}
    (h : OsAnswers s x r) (hfd : s.cricket_socket_.s_ ≠ none) (hx : x = .recv ∨ x = .send) :
    r ≠ .failed ∧ (x = .send → r ≠ .count 0) := by
  rcases hx with rfl | rfl
  · unfold OsAnswers at h
    dsimp only at h
    rw [if_neg hfd] at h
    cases r with
    | count | blocking => exact ⟨nofun, nofun⟩
    | failed => exact h.elim
  · unfold OsAnswers at h
    dsimp only at h
    rw [if_neg hfd] at h
    cases r with
    | count n =>
      refine ⟨nofun, fun _ hn => ?_⟩
      obtain rfl : n = 0 := OsResult.count.inj hn
      exact absurd h.1 (Nat.lt_irrefl 0)
    | blocking => exact ⟨nofun, nofun⟩
    | failed => exact h.elim

/-- A step of a socket that is not left. -/
theorem Flowing.left {a : Act PlainCall OsResult} (h : Flowing c)
    (hs : plainSocket.step c a = some c') (hleft : c'.state.left = false) :
    c.state.left = false ∧ c'.state.cricket_socket_.s_ = c.state.cricket_socket_.s_ := by
  rcases step_cases hs with ⟨x, rest, r, rfl, hcontrol, hforeign, hexec, rfl⟩ |
    ⟨m, rfl, hw, rfl⟩ | ⟨v, x, rest, rfl, hcontrol, hforeign, rfl⟩
  · obtain ⟨e, rfl, rfl⟩ := exec_event hexec
    exact OnEvent_left hleft
  · exact enter_left h.connected hleft
  · exact resume_left hleft

theorem Flowing.closing_step {a : Act PlainCall OsResult} (h : Flowing c)
    (hs : plainSocket.step c a = some c') (hmem : .event .close ∈ c'.control) :
    c'.state.left = true := by
  have hold : .event .close ∈ c.control → c'.state.left = true := fun hold =>
    Bool.eq_true_of_not_eq_false fun hleft => by
      have hl : c.state.left = false := (h.left hs hleft).1
      rw [h.closing hold] at hl
      cases hl
  rcases step_cases hs with ⟨x, rest, r, rfl, hcontrol, hforeign, hexec, rfl⟩ |
    ⟨m, rfl, hw, rfl⟩ | ⟨v, x, rest, rfl, hcontrol, hforeign, rfl⟩
  · obtain ⟨e, rfl, rfl⟩ := exec_event hexec
    rcases List.mem_append.1 hmem with hpush | hrest
    · exact absurd hpush (OnEvent_events .close e)
    · exact hold (by rw [hcontrol]; exact List.mem_cons_of_mem _ hrest)
  · rcases List.mem_append.1 hmem with hpush | hrest
    · exact enter_closing hpush
    · exact hold hrest
  · rcases List.mem_append.1 hmem with hpush | hrest
    · exact absurd hpush (resume_events .close)
    · exact hold (by rw [hcontrol]; exact List.mem_cons_of_mem _ hrest)

/-- A pending event of a socket that is not left is not `DE_CLOSE`. -/
theorem Flowing.delivers {e : DispatcherEvent} (h : Flowing c)
    (hx : c.control.head? = some (.event e)) (hleft : c.state.left = false) : e ≠ .close := by
  rintro rfl
  have hl : c.state.left = true := h.closing (List.mem_of_mem_head? hx)
  rw [hleft] at hl
  cases hl

/-- The socket goes on after each step, as long as the operating system answers. -/
theorem Flowing.step {a : Act PlainCall OsResult} (h : Flowing c) (hr : PlainRules c a)
    (hs : plainSocket.step c a = some c') : Flowing c' where
  connected hleft := by
    obtain ⟨hl, hfd⟩ := h.left hs hleft
    rw [hfd]
    exact h.connected hl
  closing := h.closing_step hs
  fed := by
    refine h.fed.step hs (fun x t push ha hx hf hexec hdeaf => ?_)
      (fun m ha hdeaf => .inr (enter_deaf h.connected hdeaf)) fun x v ha hx hf hdeaf => ?_
    · obtain ⟨e, rfl, hp⟩ := exec_event hexec
      obtain rfl : t = (c.state.OnEvent e).1 := congrArg Prod.fst hp
      obtain rfl : push = (c.state.OnEvent e).2 := congrArg Prod.snd hp
      have he : e ≠ .close := h.delivers hx (OnEvent_left hdeaf.1).1
      exact (OnEvent_deaf he hdeaf).imp (fun hrecv => ⟨_, hrecv, rfl⟩) fun hd => ⟨hd, nofun⟩
    · subst ha
      cases x with
      | event e => cases hf
      | recv =>
        have hfd : c.state.cricket_socket_.s_ ≠ none := h.connected (resume_left hdeaf.1).1
        exact absurd hdeaf (OnSocketRead_deaf ((hr _ hx).ok hfd (.inl rfl)).1)
      | send => exact .inr ⟨written_deaf hdeaf, nofun⟩
      | handlers => exact .inr ⟨hdeaf, nofun⟩
  drained := by
    refine h.drained.step hs (fun x t push ha hx hf hexec hclogged => ?_)
      (fun m ha hclogged => (enter_clogged h.connected hclogged).imp_left fun hsend =>
        ⟨_, hsend, rfl⟩) fun x v ha hx hf hclogged => ?_
    · obtain ⟨e, rfl, hp⟩ := exec_event hexec
      obtain rfl : t = (c.state.OnEvent e).1 := congrArg Prod.fst hp
      obtain rfl : push = (c.state.OnEvent e).2 := congrArg Prod.snd hp
      have he : e ≠ .close := h.delivers hx (OnEvent_left hclogged.1).1
      exact (OnEvent_clogged he hclogged).imp (fun hsend => ⟨_, hsend, rfl⟩)
        fun hcl => ⟨hcl, nofun⟩
    · subst ha
      cases x with
      | event e => cases hf
      | recv => exact .inr ⟨OnSocketRead_clogged hclogged, nofun⟩
      | send =>
        have hfd : c.state.cricket_socket_.s_ ≠ none := h.connected (resume_left hclogged.1).1
        obtain ⟨hfail, hcount⟩ := (hr _ hx).ok hfd (.inr rfl)
        exact .inl ⟨_, written_clogged hfail (hcount rfl) hclogged, rfl⟩
      | handlers => exact .inr ⟨hclogged, nofun⟩

/-- A socket that has connected, or begun to: no event is being dispatched, and `DoConnect` has
enabled `DE_READ` and `DE_WRITE`. There may be bytes in the buffer. -/
structure Starts (c : PlainConf) : Prop where
  control : c.control = []
  descriptor : c.state.cricket_socket_.s_ ≠ none
  read : .read ∈ c.state.cricket_socket_.enabled_events_
  write : .write ∈ c.state.cricket_socket_.enabled_events_

theorem Starts.flowing (h : Starts c) : Flowing c where
  connected _ := h.descriptor
  closing hmem := by
    rw [h.control] at hmem
    cases hmem
  fed hdeaf := absurd h.read hdeaf.2
  drained hclogged := absurd h.write hclogged.2.2

/-- Where `DoConnect` succeeds, the socket starts. -/
theorem starts_of_connect {s : PhysicalSocket} {fd : Option Nat} {r : ConnectResult}
    {xmpp : XmppSocket} {buffer : List UInt8} {left : Bool} (h : (s.DoConnect fd r).2 = true) :
    Starts ⟨⟨xmpp, (s.DoConnect fd r).1, buffer, left⟩, []⟩ := by
  have hconnect : ∀ t : PhysicalSocket, t.s_ ≠ none → (t.connectDescriptor r).2 = true →
      Starts ⟨⟨xmpp, (t.connectDescriptor r).1, buffer, left⟩, []⟩ := fun t ht hok => by
    cases r with
    | connected | blocking =>
      exact ⟨rfl, ht, by simp [connectDescriptor], by simp [connectDescriptor]⟩
    | failed => cases hok
  unfold DoConnect at h ⊢
  cases hs : s.s_ with
  | some n =>
    rw [hs] at h
    exact hconnect s (by rw [hs]; exact Option.some_ne_none n) h
  | none =>
    rw [hs] at h
    dsimp only at h ⊢
    rw [Create_none hs] at h ⊢
    cases fd with
    | none => cases h
    | some n => exact hconnect _ (Option.some_ne_none n) h

/-- While no event is being dispatched, and the cricket socket has not been closed, `DE_READ` is
enabled, and `DE_WRITE` if there are bytes to write. -/
theorem stream_never_stalls {c₀ c : PlainConf} (h₀ : Starts c₀)
    (h : plainSocket.ReachesWhen PlainRules c₀ c) (hidle : c.control = [])
    (hleft : c.state.left = false) :
    .read ∈ c.state.cricket_socket_.enabled_events_ ∧
    (c.state.buffer_ ≠ [] → .write ∈ c.state.cricket_socket_.enabled_events_) := by
  have hf : Flowing c := ReachesWhen.invariant (I := Flowing) h h₀.flowing
    fun _ _ _ _ ih hk hs => ih.step hk hs
  refine ⟨by_contra fun hread => ?_, fun hbuffer => by_contra fun hwrite => ?_⟩
  · obtain ⟨x, hx, -⟩ := hf.fed ⟨hleft, hread⟩
    rw [hidle] at hx
    cases hx
  · obtain ⟨x, hx, -⟩ := hf.drained ⟨hleft, hbuffer, hwrite⟩
    rw [hidle] at hx
    cases hx

instance (s : PlainSocket) : ∀ x r, Decidable (OsAnswers s x r)
  | .recv, .count _ | .recv, .blocking | .recv, .failed | .send, .count _ | .send, .blocking
  | .send, .failed => by
    unfold OsAnswers
    exact inferInstance
  | .handlers, _ | .event _, _ => .isTrue trivial

instance (c : PlainConf) : ∀ a, Decidable (PlainRules c a)
  | .tick => .isTrue trivial
  | .call (.ready ff) => decidable_of_iff ((c.control = [] ∨ c.control.head? = some .handlers) ∧
      c.state.cricket_socket_.s_ ≠ none)
        ⟨fun h => ⟨h.1, fun _ _ => h.2⟩, fun h => ⟨h.1, h.2 ff rfl⟩⟩
  | .call (.write _) | .call (.close _) =>
    decidable_of_iff (c.control = [] ∨ c.control.head? = some .handlers)
      ⟨fun h => ⟨h, nofun⟩, fun h => h.1⟩
  | .ret r => decidable_of_iff (∀ x ∈ c.control.head?, OsAnswers c.state x r) Iff.rfl

/-- A connect that blocks, with a byte in the buffer. -/
def blockedStart : PlainConf :=
  ⟨⟨XmppSocket.init .disabled, ((PhysicalSocket.init none).DoConnect (some 5) .blocking).1, [60],
    false⟩, []⟩

/-- The first byte is written from a handler, a second one is not; some bytes are read, and then
there are no more. -/
theorem stream_never_stalls_partly : ∃ c,
    plainSocket.ReachesWhen PlainRules blockedStart c ∧
    (c.state.buffer_ = [97] ∧ c.state.cricket_socket_.state_ = .CS_CONNECTED) ∧
    .read ∈ c.state.cricket_socket_.enabled_events_ ∧
    .write ∈ c.state.cricket_socket_.enabled_events_ := by
  obtain ⟨c, hc, hp⟩ := exists_of_follow (P := plainSocket) (K := PlainRules) (c := blockedStart)
    (l := [.call (.ready {.connect, .write}), .tick, .call (.write [97]), .ret (.count 1),
      .ret .blocking, .ret .blocking, .tick, .ret .blocking, .call (.ready {.read}), .tick,
      .ret (.count 7), .ret .blocking, .ret (.count 0)])
    (p := fun c => decide ((c.control = [] ∧ c.state.left = false) ∧ c.state.buffer_ = [97] ∧
      c.state.cricket_socket_.state_ = .CS_CONNECTED)) (by decide +kernel)
  obtain ⟨⟨hidle, hleft⟩, hbuffer, hstate⟩ := of_decide_eq_true hp
  obtain ⟨hread, hwrite⟩ := stream_never_stalls (starts_of_connect rfl) hc hidle hleft
  exact ⟨c, hc, ⟨hbuffer, hstate⟩, hread, hwrite (by rw [hbuffer]; nofun)⟩

end Gxmpp.TalkBase
