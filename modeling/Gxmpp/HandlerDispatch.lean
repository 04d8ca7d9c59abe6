/-
`talk/xmpp/xmppengineimpl.cc`: the loops that give a stanza to its handlers.

`IncomingStanza` goes through `stanza_handlers_` by index, and a handler may call
`AddStanzaHandler` and `RemoveStanzaHandler` while it has the stanza. Nothing moves the
index when an entry at or before it goes: the loop then steps over the next handler,
which never sees the stanza. A handler that removes itself, as a task does that is
done, is enough.

One dispatch is watched from `.peek stanza 0` on, over what lay on the control stack
before: `Watch` keeps what was offered, removed and added since. `Fair` is what the
interface promises of it. It is kept by every run in which a handler is removed only
where the loop is not moved (`dispatch_fair`), and lost otherwise (`dispatch_skips`).
-/
import Gxmpp.IndexLoop
import Gxmpp.Disconnect

set_option autoImplicit false

namespace Gxmpp

open World Reentrant IndexLoop

/-! ## 1. The handlers the engine knows -/

/-- What a call makes of the registered handlers. -/
def Call.handlersAfter (m : Call) (e : XmppEngineImpl) : HandlerLevel → List Handler :=
  match m with
  | .addStanzaHandler h level => fun l =>
    if l = level ∧ e.state ≠ .closed then e.stanza_handlers l ++ [h] else e.stanza_handlers l
  | .removeStanzaHandler h => fun l => (e.stanza_handlers l).filter fun x => x ≠ h
  | _ => e.stanza_handlers

theorem setter_handlers (w : World) (m : Call) (eng : XmppEngineImpl)
    (h : eng.stanza_handlers = w.eng.stanza_handlers) :
    (w.setter m eng).1.eng.stanza_handlers = w.eng.stanza_handlers := by
  unfold setter
  by_cases hs : w.eng.state ≠ .start
  · rw [if_pos hs]
  · rw [if_neg hs]
    exact h

/-- The functions that store nothing leave them alone. -/
theorem entry_handlers {w : World} {m : Call} {r : World × List Stmt} (h : Entry w m r)
    (hm : m.stores = false) : r.1.eng.stanza_handlers = w.eng.stanza_handlers := by
  cases h with
  | configured m eng hst | stored m eng status hst => exact absurd (hst.symm.trans hm) (by simp)
  | connectionClosed subcode code sub hc hs =>
    exact (LoginFrame.signalError w.enterExit code sub).stanza_handlers
  | sent m e v hs hcall hv | sentIq e h v hs hb hv => exact hv.frame.1.stanza_handlers
  | disconnect hs =>
    dsimp only [set_eng]
    split <;> rfl
  | _ => rfl

/-- The handlers are registered and removed by their two functions only. -/
theorem enter_handlers (w : World) (m : Call) :
    (w.enter m).1.eng.stanza_handlers = m.handlersAfter w.eng := by
  cases m with
  | addStanzaHandler h level =>
    unfold World.enter World.addStanzaHandler Call.handlersAfter
    by_cases hc : w.eng.state = .closed <;> simp [hc]
  | removeStanzaHandler | setLanguage | nextId => rfl
  | setOutputHandler | setSessionHandler | setTls | setTlsServer | setUser | setSaslHandler
  | setRequestedResource => exact setter_handlers _ _ _ rfl
  | _ => exact entry_handlers (w := w.emit (.called _)) (enter_entry w _) rfl

/-! ## 2. One dispatch, watched -/

/-- The level of a statement of the dispatch loops. -/
def Stmt.dispatchLevel : Stmt → Option HandlerLevel
  | .peek _ _ => some .peek
  | .dispatch _ level _ => some level
  | .callback (.handleStanza _ level _ _) => some level
  | _ => none

/-- The statement that lies directly on `rest`. -/
def position (rest : List Stmt) (c : Conf) : Option Stmt :=
  (c.control.take (c.control.length - rest.length)).getLast?

/-- The level at which the dispatch over `rest` is, while its loops run. -/
def turn (rest : List Stmt) (c : Conf) : Option HandlerLevel :=
  (position rest c).bind Stmt.dispatchLevel

/-- What happened since a dispatch began. -/
structure Watch where
  /-- to whom the stanza was given -/
  offered : List (HandlerLevel × Handler)
  /-- the handlers `RemoveStanzaHandler` was called for -/
  removed : List Handler
  /-- the handlers `AddStanzaHandler` was called for -/
  added : List (HandlerLevel × Handler)
  /-- the level at which a handler took the stanza -/
  consumed : Option HandlerLevel

/-- The beginning. -/
def Watch.init : Watch := ⟨[], [], [], none⟩

/-- The entries of a level. -/
def atLevel (level : HandlerLevel) (l : List (HandlerLevel × Handler)) : List Handler :=
  (l.filter fun p => p.1 = level).map Prod.snd

/-- The level and the handler of a `HandleStanza` in progress. -/
def Stmt.offer : Stmt → Option (HandlerLevel × Handler)
  | .callback (.handleStanza h level _ _) => some (level, h)
  | _ => none

/-- A function of the engine is called. -/
def Watch.called (s : Watch) : Call → Watch
  | .addStanzaHandler h level => { s with added := s.added ++ [(level, h)] }
  | .removeStanzaHandler h => { s with removed := h :: s.removed }
  | _ => s

/-- A statement of the engine is executed: where the loop was, a `HandleStanza` may be
in progress now. -/
def Watch.ticked (s : Watch) (before after : Option Stmt) : Watch :=
  if before.any Stmt.foreign then s
  else { s with offered := s.offered ++ (after.bind Stmt.offer).toList }

/-- A handler returns. The stanza is taken by a true answer, at a level where the answer
counts; `nested` says that the handler was not the one the loop called. -/
def Watch.returned (s : Watch) (at_ : Option Stmt) (nested handled : Bool) : Watch :=
  match at_.bind Stmt.offer with
  | some (level, _) =>
    if handled && !nested && level ≠ .peek then { s with consumed := some level } else s
  | none => s

/-- What a step from `c` to `c'` adds. -/
def Watch.after (rest : List Stmt) (s : Watch) (a : Step) (c c' : Conf) : Watch :=
  match a with
  | .tick => s.ticked (position rest c) (position rest c')
  | .call m => s.called m
  | .ret handled =>
    s.returned (position rest c) (c.control.length ≠ rest.length + 1) handled

/-- The configurations of a dispatch that began in `w₀` over `rest`, up to the end of
its loops, with what was watched. -/
inductive Dispatching (G : Rules World Stmt Call) (w₀ : World) (stanza : XmlElement)
    (rest : List Stmt) : Watch → Conf → Prop where
  | begun : Dispatching G w₀ stanza rest .init ⟨w₀, .peek stanza 0 :: rest⟩
  | step {s : Watch} {c c' : Conf} (a : Step) (h : Dispatching G w₀ stanza rest s c)
      (hturn : (turn rest c).isSome = true) (hallowed : a.Allowed G c)
      (hstep : engine.step c a = some c') :
      Dispatching G w₀ stanza rest (s.after rest a c c') c'

/-- The loop over the level is over. -/
def LoopOver (rest : List Stmt) (s : Watch) (c : Conf) (level : HandlerLevel) : Prop :=
  match s.consumed with
  | some l => l ∈ level.later
  | none => ∀ l, turn rest c = some l → l ∈ level.later

/-- The promise, for the handlers `handlers` that were registered when the dispatch
began. -/
structure Fair (handlers : HandlerLevel → List Handler) (rest : List Stmt) (s : Watch)
    (c : Conf) : Prop where
  /-- at each level: in order, none twice, none skipped, and all of them if the loop goes
  on to the next level -/
  levels : ∀ level, level ≠ .none → Offers (handlers level) s.removed (atLevel level s.added)
    (atLevel level s.offered) (LoopOver rest s c level)
  /-- the levels follow one another -/
  order : s.offered.Pairwise fun p q => q.1 = p.1 ∨ q.1 ∈ p.1.later
  /-- the stanza goes no further when it was taken -/
  taken : s.consumed ≠ none → turn rest c = none

/-! ## 3. Where a handler may be removed -/

/-- The removal does not move the loop over `rest`: the handler is not among those up to
the index, or nothing else is behind. -/
def spares (rest : List Stmt) (c : Conf) : Call → Bool
  | .removeStanzaHandler x =>
    match position rest c with
    | some (.callback (.handleStanza _ level i _)) =>
      Spared x (c.state.eng.stanza_handlers level) (i + 1)
    | _ => true
  | _ => true

/-- The rule: while a handler of this dispatch has the stanza, only such removals. -/
def SparesLoop (rest : List Stmt) (c : Conf) (m : Call) : Prop := spares rest c m = true

instance (rest : List Stmt) (c : Conf) (m : Call) : Decidable (SparesLoop rest c m) :=
  inferInstanceAs (Decidable (_ = _))

/-! ## 4. The invariant -/

theorem position_append (upper rest : List Stmt) (p : Stmt) (w : World) :
    position rest ⟨w, upper ++ p :: rest⟩ = some p := by
  have hlen : (upper ++ p :: rest).length - rest.length = (upper ++ [p]).length := by
    simp only [List.length_append, List.length_cons, List.length_nil]
    omega
  have htake : (upper ++ p :: rest).take (upper ++ [p]).length = upper ++ [p] := by
    rw [List.append_cons upper p rest]
    exact List.take_left' rfl
  unfold position
  dsimp only
  rw [hlen, htake, List.getLast?_concat]

theorem position_head (rest : List Stmt) (p : Stmt) (w : World) :
    position rest ⟨w, p :: rest⟩ = some p := position_append [] rest p w

theorem position_end (rest : List Stmt) (w : World) : position rest ⟨w, rest⟩ = none := by
  unfold position
  rw [Nat.sub_self]
  rfl

/-- What is known of each level while the loop over `level` is at index `next`, and the
engine has the handlers `current`. -/
structure Levels (handlers : HandlerLevel → List Handler) (s : Watch)
    (current : HandlerLevel → List Handler) (level : HandlerLevel) (next : ℕ) : Prop where
  here : Progress (handlers level) s.removed (atLevel level s.added) (atLevel level s.offered)
    (current level) next
  ahead : ∀ l ∈ level.later, Progress (handlers l) s.removed (atLevel l s.added)
    (atLevel l s.offered) (current l) 0
  behind : ∀ l, l ≠ .none → level ∈ l.later → Offers (handlers l) s.removed (atLevel l s.added)
    (atLevel l s.offered) True
  order : s.offered.Pairwise fun p q => q.1 = p.1 ∨ q.1 ∈ p.1.later
  last : ∀ p ∈ s.offered, level = p.1 ∨ level ∈ p.1.later

/-- Each level is behind, here or ahead. -/
theorem level_cases {level : HandlerLevel} (hl : level ≠ .none) (l : HandlerLevel)
    (h : l ≠ .none) : level ∈ l.later ∨ l = level ∨ l ∈ level.later := by
  cases level <;> cases l <;> first | exact absurd rfl h | exact absurd rfl hl | decide

theorem later_trans {a b c : HandlerLevel} (h : b ∈ a.later) (k : c ∈ b.later) : c ∈ a.later := by
  revert h k
  cases a <;> cases b <;> cases c <;> decide

theorem later_irrefl (level : HandlerLevel) : level ∉ level.later := by
  cases level <;> decide

theorem atLevel_append (level : HandlerLevel) (l m : List (HandlerLevel × Handler)) :
    atLevel level (l ++ m) = atLevel level l ++ atLevel level m := by
  unfold atLevel
  rw [List.filter_append, List.map_append]

theorem atLevel_self (level : HandlerLevel) (h : Handler) : atLevel level [(level, h)] = [h] := by
  simp [atLevel]

theorem atLevel_other {level l : HandlerLevel} (hne : level ≠ l) (h : Handler) :
    atLevel l [(level, h)] = [] := by
  simp [atLevel, hne]

namespace Levels

variable {handlers current : HandlerLevel → List Handler} {s : Watch} {level l : HandlerLevel}
  {next : ℕ}

theorem init (handlers : HandlerLevel → List Handler) : Levels handlers .init handlers .peek 0 := by
  refine ⟨Progress.start _, fun l _ => Progress.start _, fun l hl hmem => ?_, List.Pairwise.nil,
    fun p hp => absurd hp List.not_mem_nil⟩
  -- no level comes before the first one
  have hnot : HandlerLevel.peek ∉ l.later := by
    revert hl
    cases l <;> decide
  exact absurd hmem hnot

/-- The end of the list: the next level. -/
theorem goOn (h : Levels handlers s current level next) (hend : (current level)[next]? = none)
    (hl : level.next = some l) : Levels handlers s current l 0 := by
  have hlater := later_next hl
  have hmem : l ∈ level.later := by
    rw [hlater]
    exact List.mem_cons_self
  refine ⟨h.ahead l hmem, fun k hk => h.ahead k ?_, fun k hk hk' => ?_, h.order, fun p hp => ?_⟩
  · rw [hlater]
    exact List.mem_cons_of_mem _ hk
  · by_cases heq : k = level
    · rw [heq]
      exact h.here.finish hend
    · refine h.behind k hk ?_
      revert hl hk hk' heq
      cases level <;> cases l <;> cases k <;> decide
  · refine Or.inr ?_
    rcases h.last p hp with heq | hp'
    · rw [← heq]
      exact hmem
    · exact later_trans hp' hmem

/-- The end of the last list: all loops are over. -/
theorem finish (h : Levels handlers s current level next) (hlevel : level ≠ .none)
    (hend : (current level)[next]? = none) (hl : level.next = none) (k : HandlerLevel)
    (hk : k ≠ .none) : Offers (handlers k) s.removed (atLevel k s.added) (atLevel k s.offered)
      True := by
  rcases level_cases hlevel k hk with hb | rfl | ha
  · exact h.behind k hk hb
  · exact h.here.finish hend
  · -- nothing comes after the last level
    revert hl ha
    cases level <;> cases k <;> simp [HandlerLevel.next, HandlerLevel.later]

/-- The stanza is given to the handler at the index. -/
theorem offer (h : Levels handlers s current level next) {hd : Handler}
    (hx : (current level)[next]? = some hd) :
    Levels handlers { s with offered := s.offered ++ [(level, hd)] } current level (next + 1) := by
  have hother : ∀ l, l ≠ level → atLevel l (s.offered ++ [(level, hd)]) = atLevel l s.offered := by
    intro l hne
    rw [atLevel_append, atLevel_other hne.symm, List.append_nil]
  refine ⟨?_, fun l hl => ?_, fun l hl hl' => ?_, ?_, fun p hp => ?_⟩
  · dsimp only
    rw [atLevel_append, atLevel_self]
    exact h.here.offer hx
  · dsimp only
    rw [hother l fun heq => later_irrefl level (heq ▸ hl)]
    exact h.ahead l hl
  · dsimp only
    rw [hother l fun heq => later_irrefl level (heq ▸ hl')]
    exact h.behind l hl hl'
  · refine List.pairwise_append.2 ⟨h.order, List.pairwise_singleton _ _, fun p hp q hq => ?_⟩
    rw [List.mem_singleton.1 hq]
    exact h.last p hp
  · rcases List.mem_append.1 hp with hp | hp
    · exact h.last p hp
    · rw [List.mem_singleton.1 hp]
      exact Or.inl rfl

/-- A handler calls the engine. -/
theorem called {e : XmppEngineImpl} (h : Levels handlers s e.stanza_handlers level next) (m : Call)
    (hrule : ∀ x, m = .removeStanzaHandler x → Spared x (e.stanza_handlers level) next) :
    Levels handlers (s.called m) (m.handlersAfter e) level next := by
  by_cases hadd : ∃ hd lv, m = .addStanzaHandler hd lv
  · obtain ⟨hd, lv, rfl⟩ := hadd
    -- the list of the level gets the handler, or the engine is closed and none does
    have hprog : ∀ k n, Progress (handlers k) s.removed (atLevel k s.added) (atLevel k s.offered)
        (e.stanza_handlers k) n → Progress (handlers k) s.removed
          (atLevel k (s.added ++ [(lv, hd)])) (atLevel k s.offered)
          ((Call.addStanzaHandler hd lv).handlersAfter e k) n := by
      intro k n hk
      unfold Call.handlersAfter
      rw [atLevel_append]
      by_cases hc : k = lv ∧ e.state ≠ .closed
      · dsimp only
        rw [if_pos hc, hc.1, atLevel_self]
        rw [hc.1] at hk
        exact hk.append [hd]
      · dsimp only
        rw [if_neg hc]
        exact hk.add _
    refine ⟨hprog _ _ h.here, fun k hk => hprog _ _ (h.ahead k hk), fun k hk hk' => ?_, h.order,
      h.last⟩
    show Offers (handlers k) s.removed (atLevel k (s.added ++ [(lv, hd)])) _ _
    rw [atLevel_append]
    exact (h.behind k hk hk').add _
  · by_cases hrem : ∃ x, m = .removeStanzaHandler x
    · obtain ⟨x, rfl⟩ := hrem
      refine ⟨h.here.remove (hrule x rfl), fun k hk => (h.ahead k hk).remove ?_,
        fun k hk hk' => (h.behind k hk hk').remove x, h.order, h.last⟩
      -- a loop that has not begun is not moved
      exact Or.inl List.not_mem_nil
    · have hs : s.called m = s := by
        cases m <;> first | rfl | exact absurd ⟨_, _, rfl⟩ hadd | exact absurd ⟨_, rfl⟩ hrem
      have he : m.handlersAfter e = e.stanza_handlers := by
        cases m <;> first | rfl | exact absurd ⟨_, _, rfl⟩ hadd | exact absurd ⟨_, rfl⟩ hrem
      rw [hs, he]
      exact h

/-- What holds of every level, the loop over it being over or not. -/
theorem offers (h : Levels handlers s current level next) (hlevel : level ≠ .none)
    (k : HandlerLevel) (hk : k ≠ .none) : Offers (handlers k) s.removed (atLevel k s.added)
      (atLevel k s.offered) (level ∈ k.later) := by
  rcases level_cases hlevel k hk with hb | rfl | ha
  · exact (h.behind k hk hb).mono fun _ => trivial
  · exact h.here.offers.mono (later_irrefl k)
  · exact (h.ahead k ha).offers.mono fun hb => later_irrefl level (later_trans ha hb)

end Levels

/-! ## 5. The steps of a dispatch -/

/-- Where a dispatch is. -/
inductive Stage (handlers : HandlerLevel → List Handler) (rest : List Stmt) (s : Watch)
    (c : Conf) : Prop where
  /-- a loop is about to look at its index -/
  | looping (p : Stmt) (stanza : XmlElement) (level : HandlerLevel) (next : ℕ)
      (hlevel : level ≠ .none) (hcontrol : c.control = p :: rest)
      (hp : (level = .peek ∧ p = .peek stanza next) ∨
        (level ≠ .peek ∧ p = .dispatch stanza level next))
      (hs : s.consumed = none)
      (hl : Levels handlers s c.state.eng.stanza_handlers level next)
  /-- a handler has the stanza, and may have called the engine -/
  | serving (upper : List Stmt) (h : Handler) (stanza : XmlElement) (level : HandlerLevel) (i : ℕ)
      (hlevel : level ≠ .none)
      (hcontrol : c.control = upper ++ .callback (.handleStanza h level i stanza) :: rest)
      (hs : s.consumed = none)
      (hl : Levels handlers s c.state.eng.stanza_handlers level (i + 1))
  /-- nobody took the stanza -/
  | unhandled (stanza : XmlElement) (hcontrol : c.control = .unhandled stanza :: rest)
      (hs : s.consumed = none)
      (hl : ∀ l, l ≠ .none → Offers (handlers l) s.removed (atLevel l s.added)
        (atLevel l s.offered) True)
      (ho : s.offered.Pairwise fun p q => q.1 = p.1 ∨ q.1 ∈ p.1.later)
  /-- a handler took the stanza -/
  | taken (level : HandlerLevel) (hcontrol : c.control = rest) (hs : s.consumed = some level)
      (hl : ∀ l, l ≠ .none → Offers (handlers l) s.removed (atLevel l s.added)
        (atLevel l s.offered) (level ∈ l.later))
      (ho : s.offered.Pairwise fun p q => q.1 = p.1 ∨ q.1 ∈ p.1.later)

/-- Every stage is fair. -/
theorem Stage.fair {handlers : HandlerLevel → List Handler} {rest : List Stmt} {s : Watch}
    {c : Conf} (h : Stage handlers rest s c) : Fair handlers rest s c := by
  have hover : ∀ {p : Stmt} {level k : HandlerLevel}, s.consumed = none →
      position rest c = some p → p.dispatchLevel = some level → LoopOver rest s c k →
        level ∈ k.later := by
    intro p level k hs hpos hp hk
    unfold LoopOver at hk
    rw [hs] at hk
    refine hk level ?_
    unfold turn
    rw [hpos]
    exact hp
  cases h with
  | looping p stanza level next hlevel hcontrol hp hs hl =>
    have hpos : position rest c = some p := by
      have := position_head rest p c.state
      rwa [← hcontrol] at this
    have hturn : p.dispatchLevel = some level := by
      rcases hp with ⟨rfl, rfl⟩ | ⟨-, rfl⟩ <;> rfl
    exact ⟨fun k hk => (hl.offers hlevel k hk).mono (hover hs hpos hturn), hl.order,
      fun hn => absurd hs hn⟩
  | serving upper h stanza level i hlevel hcontrol hs hl =>
    have hpos : position rest c = some (.callback (.handleStanza h level i stanza)) := by
      have := position_append upper rest (.callback (.handleStanza h level i stanza)) c.state
      rwa [← hcontrol] at this
    exact ⟨fun k hk => (hl.offers hlevel k hk).mono (hover hs hpos rfl), hl.order,
      fun hn => absurd hs hn⟩
  | unhandled stanza hcontrol hs hl ho =>
    exact ⟨fun k hk => (hl k hk).mono fun _ => trivial, ho, fun hn => absurd hs hn⟩
  | taken level hcontrol hs hl ho =>
    refine ⟨fun k hk => (hl k hk).mono fun hk' => ?_, ho, fun _ => ?_⟩
    · unfold LoopOver at hk'
      rwa [hs] at hk'
    · have hpos : position rest c = none := by
        rw [← hcontrol]
        exact position_end c.control c.state
      unfold turn
      rw [hpos]
      rfl

section Steps

variable {handlers : HandlerLevel → List Handler} {rest : List Stmt} {s : Watch}

variable {level : HandlerLevel} {stanza : XmlElement} {a : Step} {c c' : Conf}

/-- The loop looks at its index. -/
theorem Stage.advance {w : World} {p : Stmt} {next : ℕ} {r : World × List Stmt}
    (hlevel : level ≠ .none) (hp : (level = .peek ∧ p = .peek stanza next) ∨
      (level ≠ .peek ∧ p = .dispatch stanza level next)) (hs : s.consumed = none)
    (hl : Levels handlers s w.eng.stanza_handlers level next) (hr : w.exec p = some r) :
    Stage handlers rest (s.ticked (some p) (position rest ⟨r.1, r.2 ++ rest⟩))
      ⟨r.1, r.2 ++ rest⟩ := by
  have hforeign : (some p).any Stmt.foreign = false := by
    rcases hp with ⟨-, rfl⟩ | ⟨-, rfl⟩ <;> rfl
  have hticked : ∀ q : Option Stmt, s.ticked (some p) q
      = { s with offered := s.offered ++ (q.bind Stmt.offer).toList } := by
    intro q
    unfold Watch.ticked
    rw [hforeign]
    rfl
  rw [hticked]
  -- at the index there is a handler, or the list ends
  cases hx : (w.eng.stanza_handlers level)[next]? with
  | some h =>
    have heq : r = w.callOut (.handleStanza h level next stanza) [] := by
      rcases hp with ⟨rfl, rfl⟩ | ⟨-, rfl⟩
      · obtain rfl := Option.some.inj hr
        unfold World.peek
        rw [hx]
      · obtain rfl := Option.some.inj hr
        unfold World.dispatch
        rw [hx]
    subst heq
    have hpos := position_head rest (.callback (.handleStanza h level next stanza))
      (w.emit (.callback (.handleStanza h level next stanza)))
    refine Stage.serving [] h stanza level next hlevel rfl hs ?_
    have hoffer := hl.offer hx
    simp only [callOut, List.cons_append, List.nil_append]
    rw [hpos]
    exact hoffer
  | none =>
    have hnone : ∀ l, level.next = some l → r = (w, [.dispatch stanza l 0]) := by
      intro l hnext
      rcases hp with ⟨rfl, rfl⟩ | ⟨-, rfl⟩
      · obtain rfl := Option.some.inj hr
        cases hnext
        unfold World.peek
        rw [hx]
      · obtain rfl := Option.some.inj hr
        unfold World.dispatch
        rw [hx, hnext]
    cases hnext : level.next with
    | some l =>
      obtain rfl := hnone l hnext
      have hpos := position_head rest (.dispatch stanza l 0) w
      have hl' : l ≠ .none ∧ l ≠ .peek := by
        revert hnext hlevel
        cases level <;> cases l <;> decide
      refine Stage.looping (.dispatch stanza l 0) stanza l 0 hl'.1 rfl
        (Or.inr ⟨hl'.2, rfl⟩) hs ?_
      simp only [List.cons_append, List.nil_append]
      rw [hpos]
      simpa [Stmt.offer] using hl.goOn hx hnext
    | none =>
      have heq : r = (w, [.unhandled stanza]) := by
        rcases hp with ⟨rfl, rfl⟩ | ⟨-, rfl⟩
        · cases hnext
        · obtain rfl := Option.some.inj hr
          unfold World.dispatch
          rw [hx, hnext]
      subst heq
      have hpos := position_head rest (.unhandled stanza) w
      refine Stage.unhandled stanza rfl hs (fun k hk => ?_) ?_
      · simp only [List.cons_append, List.nil_append]
        rw [hpos]
        simpa [Stmt.offer] using hl.finish hlevel hx hnext k hk
      · simp only [List.cons_append, List.nil_append]
        rw [hpos]
        simpa [Stmt.offer] using hl.order

/-- The handler the loop called returns. -/
theorem Stage.answer {w : World} {h : Handler} {i : ℕ} (hlevel : level ≠ .none)
    (hs : s.consumed = none) (hl : Levels handlers s w.eng.stanza_handlers level (i + 1))
    (handled : Bool) :
    Stage handlers rest
      (s.returned (some (.callback (.handleStanza h level i stanza))) false handled)
      ⟨w, World.resume (.callback (.handleStanza h level i stanza)) handled ++ rest⟩ := by
  have hreturned : s.returned (some (.callback (.handleStanza h level i stanza))) false handled
      = if handled = true ∧ level ≠ .peek then { s with consumed := some level } else s := by
    unfold Watch.returned
    simp [Stmt.offer]
  rw [hreturned]
  by_cases hpeek : level = .peek
  · -- the answer does not count
    subst hpeek
    rw [if_neg (fun hn => hn.2 rfl)]
    exact Stage.looping (.peek stanza (i + 1)) stanza .peek (i + 1) hlevel rfl
      (Or.inl ⟨rfl, rfl⟩) hs hl
  · cases handled with
    | true =>
      rw [if_pos ⟨rfl, hpeek⟩]
      have hresume : World.resume (.callback (.handleStanza h level i stanza)) true = [] := by
        revert hpeek
        cases level <;> intro hpeek <;> first | rfl | exact absurd rfl hpeek
      rw [hresume]
      exact Stage.taken level rfl rfl (fun k hk => hl.offers hlevel k hk) hl.order
    | false =>
      rw [if_neg (fun hn => Bool.false_ne_true hn.1)]
      have hresume : World.resume (.callback (.handleStanza h level i stanza)) false
          = [.dispatch stanza level (i + 1)] := by
        revert hpeek
        cases level <;> intro hpeek <;> first | rfl | exact absurd rfl hpeek
      rw [hresume]
      exact Stage.looping (.dispatch stanza level (i + 1)) stanza level (i + 1) hlevel rfl
        (Or.inr ⟨hpeek, rfl⟩) hs hl

/-- The loop stands at the front: only it can go on. -/
theorem Stage.step_looping {p : Stmt} {next : ℕ} (hlevel : level ≠ .none)
    (hcontrol : c.control = p :: rest) (hp : level = .peek ∧ p = .peek stanza next ∨
      level ≠ .peek ∧ p = .dispatch stanza level next) (hs : s.consumed = none)
    (hl : Levels handlers s c.state.eng.stanza_handlers level next)
    (hstep : engine.step c a = some c') : Stage handlers rest (s.after rest a c c') c' := by
  have hforeign : p.foreign = false := by
    rcases hp with ⟨-, rfl⟩ | ⟨-, rfl⟩ <;> rfl
  have hpos : position rest c = some p := by
    have := position_head rest p c.state
    rwa [← hcontrol] at this
  rcases step_cases hstep with ⟨x, under, r, rfl, hc, -, hr, rfl⟩ | ⟨m, -, hw, -⟩ |
    ⟨v, x, under, -, hc, hf, -⟩
  · rw [hcontrol, List.cons.injEq] at hc
    obtain ⟨rfl, rfl⟩ := hc
    unfold Watch.after
    dsimp only
    rw [hpos]
    exact Stage.advance hlevel hp hs hl hr
  · unfold Config.waiting at hw
    rw [hcontrol] at hw
    exact absurd (hforeign.symm.trans hw) Bool.false_ne_true
  · rw [hcontrol, List.cons.injEq] at hc
    obtain ⟨rfl, rfl⟩ := hc
    exact absurd (hforeign.symm.trans hf) Bool.false_ne_true

/-- A handler is being served: what it called goes on, it calls the engine, or a call
returns, the handler's own or one inside it. -/
theorem Stage.step_serving (upper : List Stmt) (hd : Handler) (stanza : XmlElement)
    (level : HandlerLevel) (i : ℕ) (hlevel : level ≠ .none)
    (hcontrol : c.control = upper ++ .callback (.handleStanza hd level i stanza) :: rest)
    (hs : s.consumed = none) (hl : Levels handlers s c.state.eng.stanza_handlers level (i + 1))
    (hallowed : a.Allowed (SparesLoop rest) c) (hstep : engine.step c a = some c') :
    Stage handlers rest (s.after rest a c c') c' := by
  have hpos : position rest c = some (.callback (.handleStanza hd level i stanza)) := by
    have := position_append upper rest (.callback (.handleStanza hd level i stanza)) c.state
    rwa [← hcontrol] at this
  rcases step_cases hstep with ⟨x, under, r, rfl, hc, hf, hr, rfl⟩ | ⟨m, rfl, hw, rfl⟩ |
    ⟨v, x, under, rfl, hc, hf, rfl⟩
  · -- something that the handler called goes on
    cases upper with
    | nil =>
      rw [hcontrol, List.nil_append, List.cons.injEq] at hc
      rw [← hc.1] at hf
      cases hf
    | cons y upper =>
      rw [hcontrol, List.cons_append, List.cons.injEq] at hc
      obtain ⟨rfl, rfl⟩ := hc
      unfold Watch.after Watch.ticked
      dsimp only
      rw [hpos]
      refine Stage.serving (r.2 ++ upper) hd stanza level i hlevel ?_ hs ?_
      · rw [List.append_assoc]
      · dsimp only
        rw [(exec_frame hr).stanza_handlers]
        exact hl
  · -- a call from inside the handler, which removes no handler the loop has still to visit
    refine Stage.serving ((World.enter c.state m).2 ++ upper) hd stanza level i hlevel ?_ ?_ ?_
    · rw [hcontrol, List.append_assoc]
      rfl
    · unfold Watch.after
      cases m <;> exact hs
    · show Levels handlers _ (World.enter c.state m).1.eng.stanza_handlers level (i + 1)
      rw [enter_handlers]
      refine hl.called m fun x hx => ?_
      have hrule : spares rest c m = true := hallowed m rfl
      subst hx
      unfold spares at hrule
      rw [hpos] at hrule
      exact of_decide_eq_true hrule
  · cases upper with
    | nil =>
      -- the handler itself returns: its answer counts
      rw [hcontrol, List.nil_append, List.cons.injEq] at hc
      obtain ⟨rfl, rfl⟩ := hc
      have hnested : decide (c.control.length ≠ rest.length + 1) = false := by
        rw [hcontrol]
        simp
      unfold Watch.after
      dsimp only
      rw [hpos, hnested]
      exact Stage.answer hlevel hs hl v
    | cons y upper =>
      -- a call inside the handler returns, which the loop does not see
      rw [hcontrol, List.cons_append, List.cons.injEq] at hc
      obtain ⟨rfl, rfl⟩ := hc
      have hnested : decide (c.control.length ≠ rest.length + 1) = true := by
        refine decide_eq_true ?_
        rw [hcontrol]
        simp only [List.length_append, List.length_cons]
        omega
      have hsame : ∀ d : Conf, s.after rest (.ret v) c d = s := by
        intro d
        unfold Watch.after Watch.returned
        dsimp only
        rw [hpos, hnested]
        simp [Stmt.offer]
      refine Stage.serving (World.resume y v ++ upper) hd stanza level i hlevel ?_ ?_ ?_
      · rw [List.append_assoc]
        rfl
      · rw [hsame]
        exact hs
      · rw [hsame]
        exact hl

/-- Every step of a dispatch in which handlers are removed by the rule. -/
theorem Stage.step (h : Stage handlers rest s c) (hturn : (turn rest c).isSome = true)
    (hallowed : a.Allowed (SparesLoop rest) c) (hstep : engine.step c a = some c') :
    Stage handlers rest (s.after rest a c c') c' := by
  cases h with
  | looping p stanza level next hlevel hcontrol hp hs hl =>
    exact Stage.step_looping hlevel hcontrol hp hs hl hstep
  | serving upper hd stanza level i hlevel hcontrol hs hl =>
    exact Stage.step_serving upper hd stanza level i hlevel hcontrol hs hl hallowed hstep
  | unhandled stanza hcontrol hs hl ho =>
    -- the loop is over
    have hpos : position rest c = some (.unhandled stanza) := by
      have := position_head rest (.unhandled stanza) c.state
      rwa [← hcontrol] at this
    unfold turn at hturn
    rw [hpos] at hturn
    cases hturn
  | taken level hcontrol hs hl ho =>
    have hpos : position rest c = none := by
      rw [← hcontrol]
      exact position_end c.control c.state
    unfold turn at hturn
    rw [hpos] at hturn
    cases hturn

end Steps

/-- In a dispatch in which handlers are removed only where the loop is not moved, none is
skipped. -/
theorem dispatch_fair {w₀ : World} {stanza : XmlElement} {rest : List Stmt} {s : Watch} {c : Conf}
    (h : Dispatching (SparesLoop rest) w₀ stanza rest s c) :
    Fair w₀.eng.stanza_handlers rest s c := by
  have hstage : Stage w₀.eng.stanza_handlers rest s c := by
    induction h with
    | begun =>
      exact Stage.looping (.peek stanza 0) stanza .peek 0 (by decide) rfl (Or.inl ⟨rfl, rfl⟩) rfl
        (Levels.init _)
    | step a _ hturn hallowed hstep ih => exact ih.step hturn hallowed hstep
  exact hstage.fair

/-! ## 6. Dispatches that are evaluated -/

/-- A dispatch about to begin: the stanza, and what lies under its loops. -/
def begins (c : Conf) : Option (XmlElement × List Stmt) :=
  match c.control with
  | .peek stanza 0 :: rest => some (stanza, rest)
  | _ => none

theorem begins_eq {c : Conf} {stanza : XmlElement} {rest : List Stmt}
    (h : begins c = some (stanza, rest)) : c = ⟨c.state, .peek stanza 0 :: rest⟩ := by
  obtain ⟨w, control⟩ := c
  unfold begins at h
  dsimp only at h
  split at h
  · cases h
    rfl
  · cases h

/-- The steps of a dispatch, one by one. -/
def watch (G : Rules World Stmt Call) [∀ c m, Decidable (G c m)] (rest : List Stmt) :
    Watch × Conf → List Step → Option (Watch × Conf)
  | x, [] => some x
  | (s, c), a :: as =>
    if (turn rest c).isSome = true ∧ a.Allowed G c then
      (engine.step c a).bind fun c' => watch G rest (s.after rest a c c', c') as
    else none

theorem dispatching_of_watch {G : Rules World Stmt Call} [∀ c m, Decidable (G c m)] {w₀ : World}
    {stanza : XmlElement} {rest : List Stmt} {as : List Step} {s : Watch} {c : Conf}
    {r : Watch × Conf} (h : Dispatching G w₀ stanza rest s c)
    (hr : watch G rest (s, c) as = some r) :
    Dispatching G w₀ stanza rest r.1 r.2 := by
  induction as generalizing s c with
  | nil =>
    obtain rfl := Option.some.inj hr
    exact h
  | cons a as ih =>
    unfold watch at hr
    split at hr
    · rename_i hrule
      obtain ⟨c', hstep, hrest⟩ := Option.bind_eq_some_iff.1 hr
      exact ih (h.step a hrule.1 hrule.2 hstep) hrest
    · cases hr

/-- The application decides `before`; of the input that comes then, `n` statements are
executed, and the dispatch that begins there is watched. -/
def watchAfter (G : List Stmt → Rules World Stmt Call) [∀ rest c m, Decidable (G rest c m)]
    (before : List Step) (input : Step) (n : ℕ) (as : List Step) :
    Option (World × List Stmt × Watch × Conf) :=
  (engine.drive anyCall 40 Conf.init before).bind fun c =>
    (engine.step c input).bind fun d =>
      (begins (engine.settle n d)).bind fun b =>
        (watch (G b.2) b.2 (.init, engine.settle n d) as).map fun r =>
          ((engine.settle n d).state, b.2, r)

/-- A dispatch of a reachable engine, from decisions for which it is evaluated. -/
theorem exists_of_watch {G : List Stmt → Rules World Stmt Call}
    [∀ rest c m, Decidable (G rest c m)] (before : List Step) (input : Step) (n : ℕ)
    (as : List Step) {p : World × List Stmt × Watch × Conf → Bool}
    (h : (watchAfter G before input n as).any p = true) :
    ∃ w₀ stanza rest s c, Reachable ⟨w₀, .peek stanza 0 :: rest⟩ ∧
      Dispatching (G rest) w₀ stanza rest s c ∧ p (w₀, rest, s, c) = true := by
  obtain ⟨x, hx, hp⟩ := (Option.any_eq_true p _).1 h
  unfold watchAfter at hx
  obtain ⟨c, hc, hx⟩ := Option.bind_eq_some_iff.1 hx
  obtain ⟨d, hd, hx⟩ := Option.bind_eq_some_iff.1 hx
  obtain ⟨⟨stanza, rest⟩, hb, hx⟩ := Option.bind_eq_some_iff.1 hx
  obtain ⟨r, hr, rfl⟩ := Option.map_eq_some_iff.1 hx
  have hbegin := begins_eq hb
  have hreach : Reachable (engine.settle n d) :=
    ((reaches_drive hc).tail ⟨input, fun _ _ => trivial, hd⟩).trans (reaches_settle n d)
  refine ⟨(engine.settle n d).state, stanza, rest, r.1, r.2, ?_, ?_, hp⟩
  · rw [← hbegin]
    exact hreach
  · dsimp only at hr
    rw [hbegin] at hr
    exact dispatching_of_watch .begun hr

/-- Two handlers look at every stanza. -/
def twoPeeking : List Step :=
  loginWithHandlers ++ [.call (.addStanzaHandler 1 .peek), .call (.addStanzaHandler 2 .peek)]

/-- A message comes. -/
def oneMessage : Step :=
  received [.startElement (str "message") [], .endElement (str "message")]

/-- The first handler removes one of the two, and returns; then the loop goes on. -/
def removesWhileServed (h : Handler) : List Step :=
  [.tick, .call (.removeStanzaHandler h), .tick, .ret false, .tick]

/-- Having removed the second, it has been given the stanza, and nobody was skipped. -/
theorem dispatch_fair_removed : ∃ (w₀ : World) (stanza : XmlElement) (rest : List Stmt) (s : Watch)
    (c : Conf), Reachable ⟨w₀, .peek stanza 0 :: rest⟩ ∧ s.removed = [2] ∧
      atLevel .peek s.offered = [1] ∧ turn rest c = some .single ∧
      Fair w₀.eng.stanza_handlers rest s c := by
  obtain ⟨w₀, stanza, rest, s, c, hreach, hd, hp⟩ := exists_of_watch (G := SparesLoop)
    twoPeeking oneMessage 3 (removesWhileServed 2)
    (p := fun x => decide (x.2.2.1.removed = [2] ∧ atLevel .peek x.2.2.1.offered = [1] ∧
      turn x.2.1 x.2.2.2 = some .single)) (by decide +kernel)
  obtain ⟨hrem, hoff, hturn⟩ := of_decide_eq_true hp
  exact ⟨w₀, stanza, rest, s, c, hreach, hrem, hoff, hturn, dispatch_fair hd⟩

/-- Having removed itself, it makes the loop step over the second, which never gets the
stanza. -/
theorem dispatch_skips : ¬ ∀ (w₀ : World) (stanza : XmlElement) (rest : List Stmt) (s : Watch)
    (c : Conf), Reachable ⟨w₀, .peek stanza 0 :: rest⟩ →
      Dispatching anyCall w₀ stanza rest s c → Fair w₀.eng.stanza_handlers rest s c := by
  intro hall
  obtain ⟨w₀, stanza, rest, s, c, hreach, hd, hp⟩ := exists_of_watch (G := fun _ => anyCall)
    twoPeeking oneMessage 3 (removesWhileServed 1)
    (p := fun x => decide (x.2.2.1.removed = [1] ∧ x.2.2.1.added = [] ∧
      atLevel .peek x.2.2.1.offered = [1] ∧ x.2.2.1.consumed = none ∧
      turn x.2.1 x.2.2.2 = some .single ∧ x.1.eng.stanza_handlers .peek = [1, 2]))
    (by decide +kernel)
  obtain ⟨hrem, hadd, hoff, hcons, hturn, hreg⟩ := of_decide_eq_true hp
  have hover : LoopOver rest s c .peek := by
    unfold LoopOver
    rw [hcons]
    intro l hl
    obtain rfl := Option.some.inj (hturn.symm.trans hl)
    decide
  have hcount := ((hall w₀ stanza rest s c hreach hd).levels .peek (by decide)).count hover
    (x := 2) (by rw [hrem]; decide) (by rw [hadd]; decide)
  rw [hoff, hreg] at hcount
  revert hcount
  decide

end Gxmpp
