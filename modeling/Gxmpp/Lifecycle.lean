/-
The life of an engine: its state moves forward, its error stays, and its output
handler is closed once.

The state and the error need no invariant, only what every statement does to them
(`Forward`). The close protocol does. `CloseConnection` is called in a scope that
found the engine closed, and the output handler is let go only after it returns;
in between, an application that calls the engine again must not be able to open
another scope. It cannot, because the engine is closed, and the scopes that were
open before lie deeper in the control stack. `closeInv` says this: while a closing
scope is being left, no other scope statement lies above it.
-/
import Gxmpp.EngineFrames

set_option autoImplicit false

namespace Gxmpp

open World Reentrant

/-! ## The state and the error -/

variable {c c' : Conf} {ev : Event} {w w' : World} {s : Stmt} {r : World × List Stmt}
  {rest : List Stmt} {saved : EngineState}

/-- Every step moves the state forward. -/
theorem step_forward {a : Step} (h : engine.step c a = some c') : Forward c.state c'.state := by
  rcases step_cases h with ⟨s, rest, r, -, -, -, hr, rfl⟩ | ⟨m, -, -, rfl⟩
    | ⟨v, s, rest, -, -, -, rfl⟩
  · exact (exec_frame hr).forward
  · exact (Forward.of_eq rfl rfl : Forward c.state (c.state.emit (.called m))).trans
      (entry_frame (enter_entry c.state m)).forward
  · exact Forward.refl c.state

/-- So does every run. -/
theorem reaches_forward {G : Rules World Stmt Call} (h : engine.Reaches G c c') :
    Forward c.state c'.state :=
  Reaches.relation h Forward.refl (fun _ _ _ => Forward.trans) fun _ _ _ => step_forward

/-! ## The close protocol -/

/-- A call of `CloseConnection`. -/
def Event.isClose : Event → Bool
  | .callback .closeConnection => true
  | _ => false

/-- A call of `WriteOutput`. -/
def Event.isWrite : Event → Bool
  | .callback (.writeOutput _) => true
  | _ => false

/-- `CloseConnection` is called at most once, and `WriteOutput` never after it. -/
def CloseOnce (log : List Event) : Prop :=
  log.Pairwise fun a b => a.isClose = true → b.isClose = false ∧ b.isWrite = false

/-- `CloseConnection` has been called. -/
def ClosedOut (log : List Event) : Prop := ∃ ev ∈ log, ev.isClose = true

/-- The closing scope is being left: `CloseConnection` is still to be called, or
still to return. -/
def Stmt.isClosing : Stmt → Bool
  | .afterWrite _ true | .afterClose _ => true
  | _ => false

/-- The part of the close protocol that the state knows. -/
structure CloseGlobal (w : World) : Prop where
  once : CloseOnce w.log
  closed : ClosedOut w.log → w.eng.state = .closed
  error : w.eng.error_code ≠ .none → w.eng.state = .closed

/-- The close protocol. -/
def closeInv : Invariant World Stmt where
  global := CloseGlobal
  frame w s := s.isClosing = true → w.eng.state = .closed ∧
    ((∃ saved, s = .afterWrite saved true) → ¬ ClosedOut w.log)
  below x l := x.isScope = true → l.isClosing = false

theorem CloseOnce.snoc {log : List Event} (h : CloseOnce log)
    (hn : ev.isClose = true ∨ ev.isWrite = true → ¬ ClosedOut log) : CloseOnce (log ++ [ev]) := by
  refine List.pairwise_append.2 ⟨h, List.pairwise_singleton _ _, ?_⟩
  intro a ha b hb hclose
  rw [List.mem_singleton] at hb
  subst hb
  have hout : ClosedOut log := ⟨a, ha, hclose⟩
  constructor
  · by_contra hb
    exact hn (.inl (by simpa using hb)) hout
  · by_contra hb
    exact hn (.inr (by simpa using hb)) hout

theorem CloseOnce.count {log : List Event} (h : CloseOnce log) :
    log.countP Event.isClose ≤ 1 := by
  induction log with
  | nil => exact Nat.zero_le 1
  | cons a log ih =>
    obtain ⟨ha, hlog⟩ := List.pairwise_cons.1 h
    cases hc : a.isClose with
    | false =>
      rw [List.countP_cons_of_neg (by simp [hc])]
      exact ih hlog
    | true =>
      have hz : log.countP Event.isClose = 0 :=
        List.countP_eq_zero.2 fun b hb => by simp [(ha b hb hc).1]
      rw [List.countP_cons_of_pos hc]
      omega

/-- Events of other kinds do not touch the protocol. -/
theorem CloseOnce.grow (h : CloseOnce w.log)
    (hg : Grows (fun ev => ev.isClose = false ∧ ev.isWrite = false) w w') :
    CloseOnce w'.log ∧ (ClosedOut w'.log → ClosedOut w.log) := by
  obtain ⟨evs, hl, hp⟩ := hg
  rw [hl]
  constructor
  · refine List.pairwise_append.2 ⟨h, ?_, fun a _ b hb _ => hp b hb⟩
    exact List.pairwise_of_forall_mem_list fun a _ b hb _ => hp b hb
  · rintro ⟨ev, hev, hc⟩
    rcases List.mem_append.1 hev with hev | hev
    · exact ⟨ev, hev, hc⟩
    · rw [(hp ev hev).1] at hc
      cases hc

/-- A step that calls neither function of the output handler, and opens a scope only
where the engine is not closed. -/
theorem closeInv_quiet {push : List Stmt} {under : Stmt → Prop} (h : closeInv.global w)
    (hf : Forward w w') (hg : Grows (fun ev => ev.isClose = false ∧ ev.isWrite = false) w w')
    (hp : ∀ p ∈ push, p.isClosing = false ∧ (p.isScope = true → w.eng.state ≠ .closed)) :
    closeInv.Preserved w w' push under where
  global := by
    refine ⟨(h.1.grow hg).1, fun ho => hf.closed (h.closed ((h.1.grow hg).2 ho)), fun he => ?_⟩
    rcases hf.error with heq | ⟨-, hc⟩
    · exact hf.closed (h.error (heq ▸ he))
    · exact hc
  frame p hp' hc := by
    rw [(hp p hp').1] at hc
    cases hc
  below := List.pairwise_of_forall_mem_list fun _ _ b hb _ => (hp b hb).1
  rest l hl _ := by
    refine ⟨fun hc => ?_, fun p hp' hs => ?_⟩
    · obtain ⟨hclosed, hout⟩ := hl hc
      exact ⟨hf.closed hclosed, fun hex ho => hout hex ((h.1.grow hg).2 ho)⟩
    · by_contra hc
      exact (hp p hp').2 hs (hl (by simpa using hc)).1

/-- A step of a scope statement: what lies under it is not closing. -/
theorem closeInv_leaving {push : List Stmt} (hs : s.isScope = true) (hg : closeInv.global w')
    (hp : ∀ p ∈ push, closeInv.frame w' p) (hb : push.Pairwise closeInv.below) :
    closeInv.Preserved w w' push (fun l => closeInv.below s l) where
  global := hg
  frame := hp
  below := hb
  rest l _ hl := by
    refine ⟨fun hc => ?_, fun _ _ _ => hl hs⟩
    rw [hl hs] at hc
    cases hc

/-- The two callbacks of the protocol come from scope statements. -/
theorem mayEmit_quiet (hs : s.isScope = false) (h : s.mayEmit ev = true) :
    ev.isClose = false ∧ ev.isWrite = false := by
  cases ev with
  | callback cb =>
    cases cb with
    | writeOutput | closeConnection =>
      cases s <;> simp_all [Stmt.mayEmit, Stmt.isScope, Event.byLogin, Event.bySend]
    | _ => exact ⟨rfl, rfl⟩
  | _ => exact ⟨rfl, rfl⟩

theorem entry_quiet {m : Call} (h : m.mayEmit ev = true) :
    ev.isClose = false ∧ ev.isWrite = false := by
  cases ev with
  | callback cb => cases m <;> cases h
  | _ => exact ⟨rfl, rfl⟩

theorem isClosing_scope (h : s.isClosing = true) : s.isScope = true := by
  cases s <;> first | rfl | cases h

theorem exec_closeInv_quiet {under : Stmt → Prop} (h : closeInv.global w) (hs : s.isScope = false)
    (hr : w.exec s = some r) : closeInv.Preserved w r.1 r.2 under := by
  have hf := exec_frame hr
  refine closeInv_quiet h hf.forward (hf.grows.mono fun ev hev => mayEmit_quiet hs hev) ?_
  intro p hp
  have hpush := exec_push hr p hp
  have hscope : p.isScope = true → w.eng.state ≠ .closed ∧ p = .exitScope w.eng.state := by
    intro hps
    rcases hpush.scope hps with h | ⟨hc, he, -⟩
    · rw [hs] at h
      cases h
    · exact ⟨hc, he⟩
  refine ⟨?_, fun hps => (hscope hps).1⟩
  by_contra hc
  have hps := isClosing_scope (by simpa using hc)
  rw [(hscope hps).2] at hc
  exact hc rfl

/-- The whole invariant: after `CloseConnection` was called, the output handler is
gone, or the call has not returned. -/
structure CloseProtocol (c : Conf) : Prop where
  holds : closeInv.Holds c
  pending : ClosedOut c.state.log → c.state.eng.output_handler = true →
    ∃ saved, Stmt.afterClose saved ∈ c.control

/-- In a scope that is not itself after `CloseConnection`, a set output handler has
not been closed. -/
theorem CloseProtocol.not_closedOut (h : CloseProtocol ⟨w, s :: rest⟩) (hs : s.isScope = true)
    (hne : ∀ saved, s ≠ .afterClose saved) (ho : w.eng.output_handler = true) :
    ¬ ClosedOut w.log := by
  intro hout
  obtain ⟨saved, hmem⟩ := h.pending hout ho
  rcases List.mem_cons.1 hmem with heq | hmem
  · exact hne saved heq.symm
  · have := (List.pairwise_cons.1 h.holds.below).1 _ hmem hs
    cases this

/-- Any step but the one after `CloseConnection` keeps the second part, if it does not
close the connection. -/
theorem CloseProtocol.pending_step (h : CloseProtocol ⟨w, s :: rest⟩) (hr : w.exec s = some r)
    (hne : ∀ saved, s ≠ .afterClose saved) (hback : ClosedOut r.1.log → ClosedOut w.log)
    (hout : ClosedOut r.1.log) (ho : r.1.eng.output_handler = true) :
    ∃ saved, Stmt.afterClose saved ∈ r.2 ++ rest := by
  rw [(exec_frame hr).output_handler hne] at ho
  obtain ⟨saved, hmem⟩ := h.pending (hback hout) ho
  rcases List.mem_cons.1 hmem with heq | hmem
  · exact absurd heq.symm (hne saved)
  · exact ⟨saved, List.mem_append_right _ hmem⟩

/-- A scope statement that goes on to one that does not close keeps the first part. -/
theorem CloseProtocol.replace_open {p : Stmt} (h : CloseProtocol ⟨w, s :: rest⟩)
    (hs : s.isScope = true) (hg : closeInv.global w') (hp : p.isClosing = false) :
    closeInv.Holds ⟨w', [p] ++ rest⟩ := by
  refine h.holds.replace (closeInv_leaving hs hg ?_ (List.pairwise_singleton _ _))
  intro q hq hc
  rw [List.mem_singleton.1 hq, hp] at hc
  cases hc

/-- A scope that goes on to the close has seen no close, and its engine is closed. -/
theorem closeInv_afterWrite (hn : ¬ ClosedOut w'.log) (hst : w'.eng.state = w.eng.state) :
    closeInv.frame w' (.afterWrite saved (closing w saved)) := by
  intro hc
  refine ⟨?_, fun _ => hn⟩
  rw [hst]
  exact ((closing_iff w saved).1 (by
    cases hcl : closing w saved <;> simp [Stmt.isClosing, hcl] at hc ⊢)).2

/-- The exit of a scope writes the output, or finds nothing to write. -/
theorem exitScope_closeProtocol (h : CloseProtocol ⟨w, .exitScope saved :: rest⟩)
    (hr : w.exec (.exitScope saved) = some r) : CloseProtocol ⟨r.1, r.2 ++ rest⟩ := by
  have hglobal := h.holds.global
  have hno := h.not_closedOut rfl (by simp)
  -- the output is written first, and the close waits for the write to return
  cases exec_exitScope hr with
  | write ho hf hb =>
    have hn := hno ho
    have hn' : ¬ ClosedOut (w.log ++ [.callback (.writeOutput w.eng.output)]) := by
      rintro ⟨ev, hev, hc⟩
      rcases List.mem_append.1 hev with hev | hev
      · exact hn ⟨ev, hev, hc⟩
      · rw [List.mem_singleton.1 hev] at hc
        cases hc
    refine ⟨h.holds.replace (closeInv_leaving rfl ?_ ?_ ?_), fun ho => absurd ho hn'⟩
    · exact ⟨hglobal.1.snoc fun _ => hn, fun ho => absurd ho hn', hglobal.error⟩
    · intro p hp
      simp only [callOut, List.mem_cons, List.not_mem_nil, or_false] at hp
      rcases hp with rfl | rfl
      · exact fun hc => by cases hc
      · exact closeInv_afterWrite hn' rfl
    · simp [callOut, closeInv, Stmt.isScope]
  | empty ho hf hb =>
    have hn := hno ho
    refine ⟨h.holds.replace (closeInv_leaving rfl { hglobal with } ?_
      (List.pairwise_singleton _ _)), fun ho => absurd ho hn⟩
    intro p hp
    rw [List.mem_singleton.1 hp]
    exact closeInv_afterWrite hn rfl
  | unflushed hn =>
    exact ⟨h.replace_open rfl { hglobal with } rfl,
      h.pending_step hr (by simp) id⟩

/-- After the write, `CloseConnection` is called by the scope that closes. -/
theorem afterWrite_closeProtocol {closing : Bool}
    (h : CloseProtocol ⟨w, .afterWrite saved closing :: rest⟩)
    (hr : w.exec (.afterWrite saved closing) = some r) : CloseProtocol ⟨r.1, r.2 ++ rest⟩ := by
  have hglobal := h.holds.global
  cases closing with
  | true =>
    have hfr := h.holds.frame _ List.mem_cons_self rfl
    have hn := hfr.2 ⟨saved, rfl⟩
    obtain rfl := Option.some.inj hr
    refine ⟨h.holds.replace (closeInv_leaving rfl ?_ ?_ ?_), fun _ _ =>
      ⟨saved, by simp [afterWrite, callOut]⟩⟩
    · exact ⟨hglobal.1.snoc fun _ => hn, fun _ => hfr.1, hglobal.error⟩
    · intro p hp hc
      simp only [afterWrite, callOut, if_true, List.mem_cons, List.not_mem_nil,
        or_false] at hp
      rcases hp with rfl | rfl
      · cases hc
      · exact ⟨hfr.1, by simp⟩
    · simp [afterWrite, callOut, closeInv, Stmt.isScope]
  | false =>
    have hpend := h.pending_step hr (by simp)
    obtain rfl := Option.some.inj hr
    exact ⟨h.replace_open rfl { hglobal with } rfl, hpend id⟩

/-- One statement keeps the protocol. -/
theorem exec_closeProtocol (h : CloseProtocol ⟨w, s :: rest⟩) (hr : w.exec s = some r) :
    CloseProtocol ⟨r.1, r.2 ++ rest⟩ := by
  have hglobal := h.holds.global
  have hframe := exec_frame hr
  by_cases hs : s.isScope = true
  · cases s with
    | exitScope saved => exact exitScope_closeProtocol h hr
    | afterWrite saved closing => exact afterWrite_closeProtocol h hr
    | afterClose saved =>
      -- the output handler is gone
      obtain rfl := Option.some.inj hr
      exact ⟨h.replace_open rfl { hglobal with } rfl, fun _ ho => by cases ho⟩
    | leaveScope saved =>
      have hq : Grows (fun ev => ev.isClose = false ∧ ev.isWrite = false) w r.1 := by
        refine hframe.grows.mono fun ev hev => ?_
        cases ev with
        | callback cb => cases cb <;> simp_all [Stmt.mayEmit, Event.isClose, Event.isWrite]
        | _ => exact ⟨rfl, rfl⟩
      refine ⟨h.holds.replace (closeInv_quiet hglobal hframe.forward hq ?_),
        h.pending_step hr (by simp) (hglobal.1.grow hq).2⟩
      intro p hp
      cases exec_leaveScope hr <;>
        simp only [callOut, List.mem_cons, List.not_mem_nil, or_false] at hp
      subst hp
      exact ⟨rfl, fun hps => by cases hps⟩
    | _ => cases hs
  · have hs : s.isScope = false := by simpa using hs
    refine ⟨h.holds.replace (exec_closeInv_quiet hglobal hs hr), h.pending_step hr ?_ ?_⟩
    · rintro saved rfl
      cases hs
    · exact (hglobal.1.grow (hframe.grows.mono fun ev hev => mayEmit_quiet hs hev)).2

/-- Calling the engine keeps the protocol. -/
theorem enter_closeProtocol (h : CloseProtocol c) (hw : c.waiting engine = true) (m : Call) :
    CloseProtocol ⟨(c.state.enter m).1, (c.state.enter m).2 ++ c.control⟩ := by
  have hentry := entry_frame (enter_entry c.state m)
  have hcalled : Grows (fun ev => ev.isClose = false ∧ ev.isWrite = false) c.state
      (c.state.emit (.called m)) := .emit _ ⟨rfl, rfl⟩
  have hg := hcalled.trans (hentry.grows.mono fun ev hev => entry_quiet hev)
  have hf := (Forward.of_eq rfl rfl : Forward c.state (c.state.emit (.called m))).trans
    hentry.forward
  refine ⟨h.holds.push hw (closeInv_quiet h.holds.global hf hg ?_), ?_⟩
  · intro p hp
    refine ⟨?_, fun hs => (hentry.scope p hp hs).1⟩
    by_contra hc
    have hs := isClosing_scope (by simpa using hc)
    rw [(hentry.scope p hp hs).2] at hc
    exact hc rfl
  · intro hout ho
    have hout' := (h.holds.global.1.grow hg).2 hout
    by_cases hs : c.state.eng.state = .start
    · -- the setters work only before the connection is started
      rw [h.holds.global.closed hout'] at hs
      cases hs
    · rw [hentry.output_handler hs] at ho
      obtain ⟨saved, hmem⟩ := h.pending hout' ho
      exact ⟨saved, List.mem_append_right _ hmem⟩

/-- A handler that returns keeps the protocol. -/
theorem resume_closeProtocol (v : Bool) (h : CloseProtocol ⟨w, s :: rest⟩) (hf : s.foreign = true) :
    CloseProtocol ⟨w, World.resume s v ++ rest⟩ := by
  refine ⟨h.holds.replace (closeInv_quiet h.holds.global (.refl w) (.refl w) ?_), ?_⟩
  · intro p hp
    have hs := Stmt.isScope_of_isInput (resume_input hp)
    refine ⟨?_, fun hs' => absurd hs' (by simp [hs])⟩
    by_contra hc
    rw [isClosing_scope (by simpa using hc)] at hs
    cases hs
  · intro hout ho
    obtain ⟨saved, hmem⟩ := h.pending hout ho
    rcases List.mem_cons.1 hmem with heq | hmem
    · subst heq
      cases hf
    · exact ⟨saved, List.mem_append_right _ hmem⟩

theorem closeProtocol_init : CloseProtocol Conf.init := by
  refine ⟨⟨⟨List.Pairwise.nil, ?_, ?_⟩, by simp [Conf.init], List.Pairwise.nil⟩, ?_⟩
  · rintro ⟨ev, hev, -⟩
    cases hev
  · intro he
    exact absurd rfl he
  · rintro ⟨ev, hev, -⟩
    cases hev

/-- A step keeps the protocol. -/
theorem step_closeProtocol {a : Step} (hc : CloseProtocol c) (hs : engine.step c a = some c') :
    CloseProtocol c' := by
  rcases step_cases hs with ⟨s, rest, r, -, hcontrol, -, hr, rfl⟩ | ⟨m, -, hw, rfl⟩ |
    ⟨v, s, rest, -, hcontrol, hf, rfl⟩
  · obtain ⟨w, control⟩ := c
    subst hcontrol
    exact exec_closeProtocol hc hr
  · exact enter_closeProtocol hc hw m
  · obtain ⟨w, control⟩ := c
    subst hcontrol
    exact resume_closeProtocol v hc hf

/-- The close protocol holds in every reachable configuration. -/
theorem closeProtocol_reachable (h : Reachable c) : CloseProtocol c :=
  Reaches.invariant h closeProtocol_init fun _ _ _ _ hc _ hs => step_closeProtocol hc hs

/-! ## The whole life -/

theorem state_ne_none (h : Reachable c) : EngineState.start.rank ≤ c.state.eng.state.rank :=
  (reaches_forward h).rank

/-- However the calls of the application nest: the state only moves forward along
START, OPENING, OPEN, CLOSED, the first error stays, and the output handler is closed
at most once, with no write after it. -/
theorem lifecycle {c c' : Conf} (h : Reachable c) (h' : engine.Reaches anyCall c c') :
    EngineState.start.rank ≤ c.state.eng.state.rank ∧
    c.state.eng.state.rank ≤ c'.state.eng.state.rank ∧
    (c.state.eng.state = .closed → c'.state.eng.state = .closed) ∧
    (c.state.eng.error_code ≠ .none → c'.state.eng.error_code = c.state.eng.error_code) ∧
    c'.state.log.countP Event.isClose ≤ 1 ∧ CloseOnce c'.state.log := by
  have hf := reaches_forward h'
  have hp := closeProtocol_reachable h
  have hp' := closeProtocol_reachable (h.trans h')
  refine ⟨state_ne_none h, hf.rank, hf.closed, ?_, ?_, hp'.holds.global.once⟩
  · intro he
    rcases hf.error with heq | ⟨hn, -⟩
    · exact heq
    · exact absurd (hp.holds.global.error he) hn
  · exact hp'.holds.global.once.count

/-- A connection that is lost while it is being opened: the application is told of the
closed state, calls the engine from there, and is refused. -/
def lostConnection : List Step :=
  [.call (.setOutputHandler true), .call (.setSessionHandler true), .call .connect, .ret false,
    .ret false, .call (.connectionClosed 7), .call .disconnect, .ret false, .call (.sendRaw []),
    .ret false]

theorem lifecycle_lost : ∃ c' : Conf, c'.control = [] ∧ c'.state.eng.state = .closed ∧
    c'.state.eng.error_code = .socket ∧ c'.state.log.countP Event.isClose ≤ 1 ∧
    CloseOnce c'.state.log := by
  obtain ⟨c', hc, hp⟩ := exists_of_drive (G := anyCall) (P := engine) (n := 40) (c := Conf.init)
    (l := lostConnection) (p := fun c => c.control.isEmpty && c.state.eng.state = .closed
      && c.state.eng.error_code = .socket) (by decide +kernel)
  simp only [Bool.and_eq_true, List.isEmpty_iff, decide_eq_true_eq] at hp
  have hl := lifecycle Relation.ReflTransGen.refl hc
  exact ⟨c', hp.1.1, hp.1.2, hp.2, hl.2.2.2.2.1, hl.2.2.2.2.2⟩

end Gxmpp
