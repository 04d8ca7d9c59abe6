/-
The routing of iq replies.

`SendIq` makes an entry, and the entry leaves the vector of the engine in one of two ways:
`RemoveIqHandler` takes it out and frees it, or `HandleIqResponse` takes it out, calls the
handler and frees it when the handler returns. The handler may do anything meanwhile; the
entry it is called for is in nobody's reach, as a statement on the control stack.

`Desk` follows an entry through the history: outstanding, in the hands of its handler, or
freed. `iqRule` says at which point of a history each event about an entry may happen; that
the engine keeps to it is an invariant of every run (`routed_reachable`), and what the rule
says about the whole history is proved from the rule alone.
-/
import Gxmpp.Disconnect
import Gxmpp.History

set_option autoImplicit false

namespace Gxmpp

open World Reentrant History

/-! ## 1. Where an entry is -/

/-- The entries that wait for a reply, oldest first, and those whose handler is running,
innermost first. -/
structure Desk where
  outstanding : List XmppIqEntry
  handed : List XmppIqEntry

/-- What an event does to them. -/
def Desk.after (d : Desk) : Event → Desk
  | .iqCreated entry => { d with outstanding := d.outstanding ++ [entry] }
  | .callback (.iqResponse entry _) =>
    ⟨d.outstanding.erase entry, entry :: d.handed⟩
  | .iqFreed entry => ⟨d.outstanding.erase entry, d.handed.erase entry⟩
  | _ => d

/-- The entries after a history. -/
def desk (log : List Event) : Desk := log.foldl Desk.after ⟨[], []⟩

theorem desk_snoc (log : List Event) (ev : Event) : desk (log ++ [ev]) = (desk log).after ev := by
  unfold desk
  rw [List.foldl_append]
  rfl

/-- An event about an entry, or the return of `RemoveIqHandler`. -/
def Event.isIq : Event → Bool
  | .iqCreated _ | .callback (.iqResponse _ _) | .iqFreed _
  | .returned (.removeIqHandler _) .ok => true
  | _ => false

variable {log l : List Event} {ev : Event} {x entry : XmppIqEntry} {k : Nat} {s : Stmt}
  {rest : List Stmt} {r : World × List Stmt} {w : World}

theorem desk_append {es : List Event} (h : ∀ ev ∈ es, ev.isIq = false) :
    desk (log ++ es) = desk log := by
  induction es generalizing log with
  | nil => rw [List.append_nil]
  | cons ev es ih =>
    have hev := h ev List.mem_cons_self
    have hafter : (desk log).after ev = desk log := by
      unfold Desk.after
      unfold Event.isIq at hev
      split
      · cases hev
      · cases hev
      · cases hev
      · rfl
    have hrest : desk ((log ++ [ev]) ++ es) = desk (log ++ [ev]) :=
      ih fun x hx => h x (List.mem_cons_of_mem _ hx)
    rw [List.append_assoc, List.singleton_append, desk_snoc, hafter] at hrest
    exact hrest

/-- The entry an event is about, where the entry is made. -/
def Event.creates (k : Nat) : Event → Bool
  | .iqCreated entry => entry.cookie = k
  | _ => false

/-- The handler of the entry is called. -/
def Event.answersCookie (k : Nat) : Event → Bool
  | .callback (.iqResponse entry _) => entry.cookie = k
  | _ => false

/-- The entry is freed. -/
def Event.frees (k : Nat) : Event → Bool
  | .iqFreed entry => entry.cookie = k
  | _ => false

/-- `RemoveIqHandler` returns `OK` for the entry. -/
def Event.removesCookie (k : Nat) : Event → Bool
  | .returned (.removeIqHandler cookie) .ok => cookie = k
  | _ => false

/-- The reply that an entry is given. -/
structure Answers (before : List Event) (entry : XmppIqEntry) (stanza : XmlElement) : Prop where
  /-- the engine has just got the stanza -/
  reported : ∃ l, before = l ++ [.parsed (.stanza stanza)]
  name : stanza.name = QN_IQ
  type : stanza.attr QN_TYPE = str "result" ∨ stanza.attr QN_TYPE = str "error"
  id : entry.id = stanza.attr QN_ID
  sender : entry.to_ = stanza.attr QN_FROM
  /-- no older entry waits for this reply -/
  oldest : (desk before).outstanding.find? (fun x => answers x stanza) = some entry

/-- The entry that a request is given. -/
structure Requests (before : List Event) (entry : XmppIqEntry) : Prop where
  /-- `SendIq` has just been called -/
  called : ∃ l e h, before = l ++ [.called (.sendIq (some e) (some h))] ∧
    entry.id = e.attr QN_ID ∧ entry.to_ = e.attr QN_TO ∧ entry.iq_handler = h
  /-- its identity is new -/
  fresh : ∀ x, Event.iqCreated x ∈ before → x.cookie < entry.cookie

/-- When an event about an entry may happen. -/
def iqRule (before : List Event) : Event → Prop
  | .iqCreated entry => Requests before entry
  | .callback (.iqResponse entry stanza) => Answers before entry stanza
  | .iqFreed entry => entry ∈ (desk before).outstanding ∨ entry ∈ (desk before).handed
  | .returned (.removeIqHandler cookie) .ok => ∃ x, Event.iqFreed x ∈ before ∧ x.cookie = cookie
  | _ => True

theorem iqRule_other (h : ev.isIq = false) (before : List Event) : iqRule before ev := by
  unfold Event.isIq at h
  unfold iqRule
  split <;> first | exact trivial | cases h

/-! ## 2. What the rule says about a history -/

/-- How many entries of a list have this identity. -/
def held (k : Nat) (l : List XmppIqEntry) : Nat := l.countP fun x => x.cookie = k

theorem held_cons (k : Nat) (x : XmppIqEntry) (l : List XmppIqEntry) :
    held k (x :: l) = held k l + if x.cookie = k then 1 else 0 := by
  unfold held
  rw [List.countP_cons]
  by_cases hk : x.cookie = k <;> simp [hk]

theorem held_erase (k : Nat) {l : List XmppIqEntry} (hx : x ∈ l) :
    held k l = held k (l.erase x) + if x.cookie = k then 1 else 0 := by
  have hperm : held k l = held k (x :: l.erase x) :=
    (List.perm_cons_erase hx).countP_eq _
  rw [hperm, held_cons]

theorem held_erase_ne (l : List XmppIqEntry) (hk : x.cookie ≠ k) :
    held k (l.erase x) = held k l := by
  by_cases hx : x ∈ l
  · rw [held_erase k hx, if_neg hk, Nat.add_zero]
  · rw [List.erase_of_not_mem hx]

theorem held_snoc (k : Nat) (x : XmppIqEntry) (l : List XmppIqEntry) :
    held k (l ++ [x]) = held k l + if x.cookie = k then 1 else 0 := by
  have hperm : held k (l ++ [x]) = held k (x :: l) := (List.perm_append_singleton x l).countP_eq _
  rw [hperm, held_cons]

theorem held_pos {l : List XmppIqEntry} (hx : x ∈ l) (hk : x.cookie = k) : 0 < held k l :=
  List.countP_pos_iff.2 ⟨x, hx, by simpa using hk⟩

/-- The accounts of one entry: it is made once at most, and it is outstanding, handed to its
handler or freed; it has been answered only if it is no longer outstanding. -/
structure Ledger (k : Nat) (log : List Event) : Prop where
  made : log.countP (Event.creates k) ≤ 1
  balance : log.countP (Event.creates k)
    = held k (desk log).outstanding + held k (desk log).handed + log.countP (Event.frees k)
  answered : log.countP (Event.answersCookie k) + held k (desk log).outstanding
    ≤ log.countP (Event.creates k)

/-- One more event adds one to a count, or nothing. -/
theorem countP_snoc (q : Event → Bool) (l : List Event) (ev : Event) :
    (l ++ [ev]).countP q = l.countP q + if q ev then 1 else 0 := by
  rw [List.countP_append, List.countP_singleton]

/-- A request makes an entry that nobody has seen. -/
theorem Ledger.created (h : Ledger k l) (hev : Requests l entry) :
    Ledger k (l ++ [.iqCreated entry]) := by
  obtain ⟨hmade, hbalance, hanswered⟩ := h
  have hnew : entry.cookie = k → l.countP (Event.creates k) = 0 := by
    intro hk
    refine List.countP_eq_zero.2 fun x hx hcreates => ?_
    unfold Event.creates at hcreates
    split at hcreates
    · -- an older entry has a smaller identity
      have hlt := hev.fresh _ hx
      have heq := of_decide_eq_true hcreates
      omega
    · cases hcreates
  constructor
  · rw [countP_snoc]
    simp only [Event.creates, decide_eq_true_eq]
    by_cases hk : entry.cookie = k
    · have hzero := hnew hk
      rw [if_pos hk]
      omega
    · rw [if_neg hk]
      exact hmade
  · rw [countP_snoc, countP_snoc, desk_snoc]
    simp only [Desk.after, held_snoc, Event.creates, Event.frees, decide_eq_true_eq,
      Bool.false_eq_true, if_false]
    omega
  · rw [countP_snoc, countP_snoc, desk_snoc]
    simp only [Desk.after, held_snoc, Event.creates, Event.answersCookie, decide_eq_true_eq,
      Bool.false_eq_true, if_false]
    omega

/-- The reply takes the entry from the outstanding ones to its handler. -/
theorem Ledger.handed {stanza : XmlElement} (h : Ledger k l) (hev : Answers l entry stanza) :
    Ledger k (l ++ [.callback (.iqResponse entry stanza)]) := by
  obtain ⟨hmade, hbalance, hanswered⟩ := h
  have hmem : entry ∈ (desk l).outstanding := List.mem_of_find?_eq_some (Answers.oldest hev)
  have herase := held_erase k hmem
  constructor
  · rw [countP_snoc]
    simpa [Event.creates] using hmade
  · rw [countP_snoc, countP_snoc, desk_snoc]
    simp only [Desk.after, held_cons, Event.creates, Event.frees, Bool.false_eq_true, if_false]
    omega
  · rw [countP_snoc, countP_snoc, desk_snoc]
    simp only [Desk.after, Event.creates, Event.answersCookie, Bool.false_eq_true, if_false,
      decide_eq_true_eq]
    omega

/-- An entry is at one place only, so erasing it from both takes one away. -/
theorem Ledger.erase (h : Ledger k l)
    (hplace : entry ∈ (desk l).outstanding ∨ entry ∈ (desk l).handed) :
    held k (desk l).outstanding + held k (desk l).handed
      = held k ((desk l).outstanding.erase entry) + held k ((desk l).handed.erase entry)
        + if entry.cookie = k then 1 else 0 := by
  obtain ⟨hmade, hbalance, -⟩ := h
  by_cases hk : entry.cookie = k
  · rcases hplace with hmem | hmem
    · -- it is not at the other place, for it was made once
      have hpos := held_pos hmem hk
      have habsent : entry ∉ (desk l).handed := fun hmem' => by
        have hpos' := held_pos hmem' hk
        omega
      rw [List.erase_of_not_mem habsent]
      have herase := held_erase k hmem
      omega
    · have hpos := held_pos hmem hk
      have habsent : entry ∉ (desk l).outstanding := fun hmem' => by
        have hpos' := held_pos hmem' hk
        omega
      rw [List.erase_of_not_mem habsent]
      have herase := held_erase k hmem
      omega
  · rw [if_neg hk, held_erase_ne _ hk, held_erase_ne _ hk, Nat.add_zero]

/-- The entry is freed, from the one place where it is. -/
theorem Ledger.freed (h : Ledger k l)
    (hplace : entry ∈ (desk l).outstanding ∨ entry ∈ (desk l).handed) :
    Ledger k (l ++ [.iqFreed entry]) := by
  have hone := h.erase hplace
  obtain ⟨hmade, hbalance, hanswered⟩ := h
  constructor
  · rw [countP_snoc]
    simpa [Event.creates] using hmade
  · rw [countP_snoc, countP_snoc, desk_snoc]
    simp only [Desk.after, Event.creates, Event.frees, Bool.false_eq_true, if_false,
      decide_eq_true_eq]
    omega
  · have hle : held k ((desk l).outstanding.erase entry) ≤ held k (desk l).outstanding :=
      List.Sublist.countP_le List.erase_sublist
    rw [countP_snoc, countP_snoc, desk_snoc]
    simp only [Desk.after, Event.creates, Event.answersCookie, Bool.false_eq_true, if_false]
    omega

/-- The other events are about no entry. -/
theorem Ledger.other (h : Ledger k l) (hdesk : desk (l ++ [ev]) = desk l)
    (hcreates : Event.creates k ev = false) (hanswers : Event.answersCookie k ev = false)
    (hfrees : Event.frees k ev = false) : Ledger k (l ++ [ev]) := by
  constructor
  · rw [countP_snoc, hcreates]
    exact h.made
  · rw [countP_snoc, countP_snoc, hcreates, hfrees, hdesk]
    exact h.balance
  · rw [countP_snoc, countP_snoc, hcreates, hanswers, hdesk]
    exact h.answered

/-- The accounts are right in every history that keeps to the rule. -/
theorem ledger (h : Lawful iqRule log) (k : Nat) : Ledger k log := by
  refine h.induction (p := Ledger k) ⟨Nat.zero_le 1, rfl, Nat.le_refl 0⟩ ?_
  intro l ev _ hl hev
  by_cases hiq : ev.isIq = true
  · unfold Event.isIq at hiq
    split at hiq
    · exact hl.created hev
    · exact hl.handed hev
    · exact hl.freed hev
    · exact hl.other (desk_snoc l _) rfl rfl rfl
    · cases hiq
  · have hdesk : desk (l ++ [ev]) = desk l :=
      desk_append fun x hx => List.mem_singleton.1 hx ▸ Bool.eq_false_iff.2 hiq
    have hnone : Event.creates k ev = false ∧ Event.answersCookie k ev = false
        ∧ Event.frees k ev = false := by
      unfold Event.isIq at hiq
      split at hiq <;> first | exact absurd rfl hiq | skip
      unfold Event.creates Event.answersCookie Event.frees
      refine ⟨?_, ?_, ?_⟩ <;> split <;> first | rfl | simp_all
    exact hl.other hdesk hnone.1 hnone.2.1 hnone.2.2

/-- What the rule says about the history of an engine. -/
structure IqRouting (log : List Event) : Prop where
  /-- every entry is the one of a request, and new -/
  created : ∀ before entry later, log = before ++ .iqCreated entry :: later → Requests before entry
  /-- the handler is called for the right reply, and for the oldest entry that matches -/
  matched : ∀ before entry stanza later,
    log = before ++ .callback (.iqResponse entry stanza) :: later → Answers before entry stanza
  /-- no handler is called twice for an entry -/
  once : ∀ k, log.countP (Event.answersCookie k) ≤ 1
  /-- nor after the entry was removed -/
  removed : ∀ before ev later, log = before ++ ev :: later → ∀ k, ev.removesCookie k = true →
    ∀ x ∈ later, x.answersCookie k = false
  /-- no entry is freed twice -/
  freed : ∀ k, log.countP (Event.frees k) ≤ 1

theorem frees_pos (hx : Event.iqFreed x ∈ log) (hk : x.cookie = k) :
    0 < log.countP (Event.frees k) :=
  List.countP_pos_iff.2 ⟨_, hx, by simpa [Event.frees] using hk⟩

theorem iqRouting (h : Lawful iqRule log) : IqRouting log where
  created before entry later heq := h before _ later heq
  matched before entry stanza later heq := h before _ later heq
  once k := by
    have hk := ledger h k
    have hmade := hk.made
    have hanswered := hk.answered
    omega
  freed k := by
    have hk := ledger h k
    have hmade := hk.made
    have hbalance := hk.balance
    omega
  removed := by
    intro before ev later heq k hremoves x hx
    by_contra hanswers
    -- the entry is freed when the removal returns, and outstanding when it is answered
    obtain ⟨m₁, m₂, rfl⟩ := List.append_of_mem hx
    have heq' : log = (before ++ ev :: m₁) ++ x :: m₂ := by
      rw [heq, List.append_assoc, List.cons_append]
    have hbefore : ∀ y ∈ before, y ∈ before ++ ev :: m₁ := fun y hy => List.mem_append_left _ hy
    unfold Event.answersCookie at hanswers
    split at hanswers
    · rename_i entry stanza
      have hcookie : entry.cookie = k := by simpa using hanswers
      have hans : Answers (before ++ ev :: m₁) entry stanza := h _ _ _ heq'
      have hlawful : Lawful iqRule (before ++ ev :: m₁) := (heq' ▸ h).init
      have hout := held_pos (List.mem_of_find?_eq_some hans.oldest) hcookie
      unfold Event.removesCookie at hremoves
      split at hremoves
      · rename_i cookie
        obtain ⟨y, hy, hyk⟩ : ∃ y, Event.iqFreed y ∈ before ∧ y.cookie = cookie := h _ _ _ heq
        have hfreed := frees_pos (hbefore _ hy)
          (hyk.trans (of_decide_eq_true hremoves))
        have hledger := ledger hlawful k
        have hmade := hledger.made
        have hbalance := hledger.balance
        omega
      · cases hremoves
    · exact hanswers rfl

/-! ## 3. The engine keeps to the rule -/

/-- The entry a statement will free. -/
def Stmt.deletes : Stmt → Option XmppIqEntry
  | .deleteEntry entry => some entry
  | _ => none

/-- The history of the engine is lawful, and the engine knows where the entries are. -/
structure Routed (w : World) (control : List Stmt) : Prop where
  lawful : Lawful iqRule w.log
  outstanding : (desk w.log).outstanding = w.eng.iq_entries
  handed : (desk w.log).handed = control.filterMap Stmt.deletes
  fresh : ∀ x, Event.iqCreated x ∈ w.log → x.cookie < w.nextCookie
  returning : ∀ k, Stmt.returned (.removeIqHandler k) .ok ∈ control →
    ∃ x, Event.iqFreed x ∈ w.log ∧ x.cookie = k

namespace Routed

variable {w w' : World} {control control' : List Stmt}

/-- A step that has nothing to do with iqs. -/
theorem quiet (h : Routed w control) (hlog : Grows (fun ev => ev.isIq = false) w w')
    (hentries : w'.eng.iq_entries = w.eng.iq_entries) (hcookie : w'.nextCookie = w.nextCookie)
    (hdeletes : control'.filterMap Stmt.deletes = control.filterMap Stmt.deletes)
    (hreturns : ∀ k, Stmt.returned (.removeIqHandler k) .ok ∈ control' →
      Stmt.returned (.removeIqHandler k) .ok ∈ control) : Routed w' control' := by
  obtain ⟨evs, hw', hevs⟩ := hlog
  have hdesk : desk w'.log = desk w.log := by
    rw [hw']
    exact desk_append hevs
  refine ⟨?_, ?_, ?_, fun x hx => ?_, fun k hk => ?_⟩
  · rw [hw']
    exact h.lawful.append fun ev hev l => iqRule_other (hevs ev hev) l
  · rw [hdesk, h.outstanding, hentries]
  · rw [hdesk, h.handed, hdeletes]
  · rw [hcookie]
    rw [hw'] at hx
    rcases List.mem_append.1 hx with hx | hx
    · exact h.fresh x hx
    · exact absurd (hevs _ hx) (by simp [Event.isIq])
  · obtain ⟨x, hx, hxk⟩ := h.returning k (hreturns k hk)
    exact ⟨x, hw' ▸ List.mem_append_left evs hx, hxk⟩

end Routed

/-- The first entry that passes a test is the one that `erase` takes out. -/
theorem eraseP_eq_erase {p : XmppIqEntry → Bool} {l : List XmppIqEntry} (h : l.find? p = some x) :
    l.eraseP p = l.erase x := by
  induction l with
  | nil => cases h
  | cons y l ih =>
    by_cases hy : p y = true
    · rw [List.find?_cons_of_pos hy] at h
      obtain rfl := Option.some.inj h
      rw [List.eraseP_cons_of_pos hy, List.erase_cons_head]
    · rw [List.find?_cons_of_neg hy] at h
      have hne : y ≠ x := by
        rintro rfl
        exact hy (List.find?_some h)
      rw [List.eraseP_cons_of_neg hy, ih h, List.erase_cons_tail (by simpa using hne)]

/-- What a statement adds to the history has nothing to do with iqs, three kinds of
statements apart. -/
theorem mayEmit_isIq (h : s.mayEmit ev = true) (hincoming : ∀ e, s ≠ .incoming e)
    (hdelete : ∀ entry, s ≠ .deleteEntry entry) (hreturned : ∀ m status, s ≠ .returned m status) :
    ev.isIq = false := by
  cases s with
  | incoming e => exact absurd rfl (hincoming e)
  | deleteEntry entry => exact absurd rfl (hdelete entry)
  | returned m status => exact absurd rfl (hreturned m status)
  | _ =>
    cases ev with
    | iqCreated | iqFreed | returned => exact absurd h Bool.false_ne_true
    | callback cb => cases cb <;> first | rfl | exact absurd h Bool.false_ne_true
    | _ => rfl

/-- Only the answer to an iq leaves an entry to be freed. -/
theorem mayPush_deletes {p : Stmt} (h : s.mayPush p = true) (hincoming : ∀ e, s ≠ .incoming e) :
    p.deletes = none := by
  cases s with
  | incoming e => exact absurd rfl (hincoming e)
  | _ => cases p <;> first | rfl | exact absurd h Bool.false_ne_true

theorem deletes_append {push : List Stmt} (h : ∀ p ∈ push, p.deletes = none) :
    (push ++ rest).filterMap Stmt.deletes = rest.filterMap Stmt.deletes := by
  rw [List.filterMap_append, List.filterMap_eq_nil_iff.2 h, List.nil_append]

/-- The three ways through `StanzaParseHandler` that matter here. -/
theorem incoming_routed {ev : StanzaEvent} (h : Routed w (.incoming ev :: rest))
    (hr : Incoming w ev r) : Routed r.1 (r.2 ++ rest) := by
  have hreturns : ∀ push : List Stmt, (∀ p ∈ push, ∀ m status, p ≠ .returned m status) →
      ∀ k, Stmt.returned (.removeIqHandler k) .ok ∈ push ++ rest →
        Stmt.returned (.removeIqHandler k) .ok ∈ Stmt.incoming ev :: rest := by
    intro push hpush k hk
    rcases List.mem_append.1 hk with hk | hk
    · exact absurd rfl (hpush _ hk _ _)
    · exact List.mem_cons_of_mem _ hk
  have hframe := incoming_frame hr
  have hparsed : Grows (fun ev => ev.isIq = false) w (w.emit (.parsed ev)) := .emit w rfl
  cases hr with
  | blocked hb =>
    exact h.quiet (.refl w) rfl rfl rfl (hreturns [] (by simp))
  | login lt e isStart hb hl =>
    exact h.quiet (hparsed.trans (.of_eq rfl)) rfl rfl rfl
      (hreturns _ (by simp [XmppLoginTask.incomingStanza]))
  | streamError stanza hb =>
    refine h.quiet (hparsed.trans (.of_eq (signalStreamError_log _ _))) ?_ hframe.nextCookie rfl
      (hreturns [] (by simp))
    dsimp only
    unfold signalStreamError signalError
    split
    · split <;> rfl
    · rfl
  | error code hc hb =>
    exact h.quiet (hparsed.trans (.of_eq (signalError_log _ _ _)))
      (LoginFrame.signalError _ code 0).iq_entries hframe.nextCookie rfl (hreturns [] (by simp))
  | dispatch stanza hb hl hev =>
    exact h.quiet hparsed rfl rfl rfl (hreturns _ (by simp))
  | response stanza entry hb hl hev hn ht hi hf =>
    subst hev
    -- the reply goes to the oldest entry that matches, which is handed to its handler
    have hp : Routed (w.emit (.parsed (.stanza stanza))) rest := h.quiet hparsed rfl rfl rfl
      (fun k hk => List.mem_cons_of_mem _ hk)
    have hdesk : (desk (w.emit (.parsed (.stanza stanza))).log).outstanding = w.eng.iq_entries :=
      hp.outstanding
    have hanswered : answers entry stanza = true :=
      List.find?_some (p := fun x => answers x stanza) hf
    unfold answers at hanswered
    rw [Bool.and_eq_true] at hanswered
    have hrule : Answers (w.emit (.parsed (.stanza stanza))).log entry stanza :=
      ⟨⟨w.log, rfl⟩, hn, ht, of_decide_eq_true hanswered.1, of_decide_eq_true hanswered.2,
        by rw [hdesk]; exact hf⟩
    have herase : w.eng.iq_entries.eraseP (fun x => answers x stanza)
      = w.eng.iq_entries.erase entry :=
      eraseP_eq_erase hf
    refine ⟨hp.lawful.snoc hrule, ?_, ?_, fun x hx => ?_, fun k hk => ?_⟩
    · dsimp only [callOut, emit_log, emit_eng, set_eng, set_log]
      rw [desk_snoc, herase, ← hdesk]
      rfl
    · dsimp only [callOut, emit_log, set_log]
      rw [desk_snoc]
      exact congrArg (entry :: ·) hp.handed
    · refine hp.fresh x ?_
      rcases List.mem_append.1 hx with hx | hx
      · exact hx
      · exact absurd (List.mem_singleton.1 hx) (by simp)
    · obtain ⟨x, hx, hxk⟩ := h.returning k (hreturns _ (by simp [callOut]) k hk)
      exact ⟨x, List.mem_append_left _ (List.mem_append_left _ hx), hxk⟩

/-- A statement of the engine is executed. -/
theorem exec_routed (h : Routed w (s :: rest)) (hr : w.exec s = some r) :
    Routed r.1 (r.2 ++ rest) := by
  by_cases hincoming : ∃ ev, s = .incoming ev
  · obtain ⟨ev, rfl⟩ := hincoming
    exact incoming_routed h (exec_incoming hr)
  have hincoming' : ∀ ev, s ≠ .incoming ev := fun ev hs => hincoming ⟨ev, hs⟩
  by_cases hdelete : ∃ entry, s = .deleteEntry entry
  · -- the handler has returned, and its entry is freed
    obtain ⟨entry, rfl⟩ := hdelete
    obtain rfl := Option.some.inj hr
    have hhanded : (desk w.log).handed = entry :: rest.filterMap Stmt.deletes := h.handed
    have hmem : entry ∈ (desk w.log).handed := by
      rw [hhanded]
      exact List.mem_cons_self
    -- an entry is made once, so it is at one of the two places only
    have habsent : entry ∉ (desk w.log).outstanding := fun hout => by
      have hledger := ledger h.lawful entry.cookie
      have hmade := hledger.made
      have hbalance := hledger.balance
      have hpos := held_pos hmem rfl
      have hpos' := held_pos hout rfl
      omega
    have hdesk : desk (w.emit (.iqFreed entry)).log
        = ⟨(desk w.log).outstanding, rest.filterMap Stmt.deletes⟩ := by
      rw [emit_log, desk_snoc]
      simp only [Desk.after, hhanded, List.erase_of_not_mem habsent, List.erase_cons_head]
    refine ⟨h.lawful.snoc (.inr hmem), ?_, ?_, fun x hx => ?_, fun k hk => ?_⟩
    · rw [hdesk]
      exact h.outstanding
    · rw [hdesk]
      rfl
    · refine h.fresh x ?_
      rcases List.mem_append.1 hx with hx | hx
      · exact hx
      · exact absurd (List.mem_singleton.1 hx) (by simp)
    · obtain ⟨x, hx, hxk⟩ := h.returning k (List.mem_cons_of_mem _ hk)
      exact ⟨x, List.mem_append_left _ hx, hxk⟩
  have hdelete' : ∀ entry, s ≠ .deleteEntry entry := fun entry hs => hdelete ⟨entry, hs⟩
  have hreturns : ∀ k, Stmt.returned (.removeIqHandler k) .ok ∈ r.2 ++ rest →
      Stmt.returned (.removeIqHandler k) .ok ∈ s :: rest := by
    intro k hk
    rcases List.mem_append.1 hk with hk | hk
    · exact absurd rfl ((exec_push hr _ hk).unreturned _ _)
    · exact List.mem_cons_of_mem _ hk
  have hframe := exec_frame hr
  have hdeletes : (r.2 ++ rest).filterMap Stmt.deletes = (s :: rest).filterMap Stmt.deletes := by
    rw [deletes_append fun p hp => mayPush_deletes (exec_mayPush hr p hp) hincoming',
      List.filterMap_cons_none]
    cases s <;> first | rfl | exact absurd rfl (hdelete' _)
  by_cases hreturned : ∃ m status, s = .returned m status
  -- a return is an event about an entry only where `RemoveIqHandler` succeeds
  · obtain ⟨m, status, rfl⟩ := hreturned
    obtain rfl := Option.some.inj hr
    by_cases hremove : ∃ k, m = .removeIqHandler k ∧ status = .ok
    · obtain ⟨k, rfl, rfl⟩ := hremove
      have hdesk : desk (w.emit (.returned (.removeIqHandler k) .ok)).log = desk w.log := by
        rw [emit_log, desk_snoc]
        rfl
      refine ⟨h.lawful.snoc (h.returning k List.mem_cons_self), ?_, ?_, fun x hx => ?_,
        fun k' hk' => ?_⟩
      · rw [hdesk]
        exact h.outstanding
      · rw [hdesk]
        exact h.handed
      · refine h.fresh x ?_
        rcases List.mem_append.1 hx with hx | hx
        · exact hx
        · exact absurd (List.mem_singleton.1 hx) (by simp)
      · obtain ⟨x, hx, hxk⟩ := h.returning k' (hreturns k' hk')
        exact ⟨x, List.mem_append_left _ hx, hxk⟩
    · refine h.quiet (.emit w ?_) rfl rfl hdeletes hreturns
      unfold Event.isIq
      split <;> first | rfl | skip
      all_goals rename_i heq; injection heq
      rename_i cookie hm hstatus
      exact absurd ⟨cookie, hm, hstatus⟩ hremove
  · have hreturned' : ∀ m status, s ≠ .returned m status := fun m status hs =>
      hreturned ⟨m, status, hs⟩
    exact h.quiet (hframe.grows.mono fun ev hev => mayEmit_isIq hev hincoming' hdelete' hreturned')
      (hframe.iq_entries hincoming') hframe.nextCookie hdeletes hreturns

/-- The entry of a request, registered. -/
theorem registerIq_routed {control : List Stmt} (h : Routed w control) {e : XmlElement}
    {hd : Handler} (hlog : w.log = l ++ [.called (.sendIq (some e) (some hd))]) :
    Routed (registerIq w (iqEntry w e hd)) control := by
  have hrule : Requests w.log (iqEntry w e hd) :=
    ⟨⟨l, e, hd, hlog, rfl, rfl, rfl⟩, h.fresh⟩
  refine ⟨h.lawful.snoc hrule, ?_, ?_, fun x hx => ?_, fun k hk => ?_⟩
  · have hdesk : desk (registerIq w (iqEntry w e hd)).log
        = (desk w.log).after (.iqCreated (iqEntry w e hd)) := desk_snoc _ _
    rw [hdesk]
    exact congrArg (· ++ [iqEntry w e hd]) h.outstanding
  · have hdesk : desk (registerIq w (iqEntry w e hd)).log
        = (desk w.log).after (.iqCreated (iqEntry w e hd)) := desk_snoc _ _
    rw [hdesk]
    exact h.handed
  · have hcookie : (registerIq w (iqEntry w e hd)).nextCookie = w.nextCookie + 1 := rfl
    rw [hcookie]
    rcases List.mem_append.1 hx with hx | hx
    · exact Nat.lt_succ_of_lt (h.fresh x hx)
    · have heq : x = iqEntry w e hd := Event.iqCreated.inj (List.mem_singleton.1 hx)
      rw [heq]
      exact Nat.lt_succ_self _
  · obtain ⟨x, hx, hxk⟩ := h.returning k hk
    exact ⟨x, List.mem_append_left _ hx, hxk⟩

/-- A function of the engine is called. -/
theorem entry_routed {m : Call} {control : List Stmt} (h : Routed w control)
    (hcalled : ∃ l, w.log = l ++ [.called m]) (hr : Entry w m r) : Routed r.1 (r.2 ++ control) := by
  -- most functions have nothing to do with iqs
  have hquiet : ∀ {u v : World} {push : List Stmt}, Routed u control →
      Grows (fun ev => ev.isIq = false) u v → v.eng.iq_entries = u.eng.iq_entries →
      v.nextCookie = u.nextCookie → (∀ p ∈ push, p.deletes = none) →
      (∀ p ∈ push, ∀ k, p ≠ .returned (.removeIqHandler k) .ok) → Routed v (push ++ control) := by
    intro u v push hu hlog hentries hcookie hdeletes hreturns
    refine hu.quiet hlog hentries hcookie (deletes_append hdeletes) fun k hk => ?_
    rcases List.mem_append.1 hk with hk | hk
    · exact absurd rfl (hreturns _ hk k)
    · exact hk
  -- printing a stanza, or queueing it, is no event of an entry
  have hsend : ∀ {u v : World} {e : XmlElement}, Sent u e v →
      Grows (fun ev => ev.isIq = false) u v ∧ v.eng.iq_entries = u.eng.iq_entries ∧
        v.nextCookie = u.nextCookie := by
    intro u v e hv
    have hf := hv.frame.1
    refine ⟨hf.grows.mono fun ev hev => ?_, hf.iq_entries, hf.nextCookie⟩
    cases ev <;> first | rfl | exact absurd hev Bool.false_ne_true
  cases hr with
  | refused m status hst =>
    refine hquiet h (.refl w) rfl rfl (by simp [Stmt.deletes]) ?_
    rintro p hp k rfl
    obtain ⟨rfl, rfl⟩ := Stmt.returned.inj (List.mem_singleton.1 hp)
    obtain ⟨-, hm | ⟨sub, hm⟩⟩ := hst (.inl rfl)
    · cases hm
    · cases hm
  | configured m eng hm hs hu | stored m eng status hm hu =>
    refine hquiet h (.of_eq rfl) hu.iq_entries rfl (by simp [Stmt.deletes]) ?_
    rintro p hp k rfl
    obtain ⟨rfl, -⟩ := Stmt.returned.inj (List.mem_singleton.1 hp)
    cases hm
  | connect | connectDone | handleInput | inputStopped =>
    exact hquiet h (.of_eq rfl) rfl rfl (by simp [Stmt.deletes]) (by simp)
  | connectionClosed subcode code sub hc hs =>
    have hf := LoginFrame.signalError w.enterExit code sub
    exact hquiet h (.of_eq (signalError_log _ _ _)) hf.iq_entries hf.nextCookie
      (by simp [Stmt.deletes]) (by simp)
  | sent m e v hs hm hv =>
    obtain ⟨hlog, hentries, hcookie⟩ := hsend hv
    refine hquiet h hlog hentries hcookie (by simp [Stmt.deletes]) ?_
    rcases hm with rfl | ⟨o, c, t, rfl, -⟩ <;> simp
  | sentIq e hd v hs hb hv =>
    obtain ⟨l, hl⟩ := hcalled
    obtain ⟨hlog, hentries, hcookie⟩ := hsend hv
    -- the entry is registered first, and then the stanza is sent
    exact hquiet (registerIq_routed h hl) hlog hentries hcookie (by simp [Stmt.deletes]) (by simp)
  | sendRaw text hs hl =>
    exact hquiet h (.write w.enterExit text rfl) rfl rfl (by simp [Stmt.deletes]) (by simp)
  | disconnect hs =>
    have hlog : Grows (fun ev => ev.isIq = false) w
        (if w.eng.state = .open then w.enterExit.write (str "</stream:stream>")
          else w.enterExit) := by
      split
      · exact .write w.enterExit _ rfl
      · exact .of_eq rfl
    refine hquiet h (hlog.trans (.of_eq rfl)) ?_ ?_ (by simp [Stmt.deletes]) (by simp)
    · dsimp only [set_eng]
      split <;> rfl
    · dsimp only [set_nextCookie]
      split <;> rfl
  | removed cookie entry hf =>
    -- the entry is taken out and freed
    have hmem : entry ∈ (desk w.log).outstanding := by
      rw [h.outstanding]
      exact List.mem_of_find?_eq_some hf
    have hcookie : entry.cookie = cookie := by
      simpa using List.find?_some (p := fun x : XmppIqEntry => decide (x.cookie = cookie)) hf
    have habsent : entry ∉ (desk w.log).handed := fun hhanded => by
      have hledger := ledger h.lawful entry.cookie
      have hmade := hledger.made
      have hbalance := hledger.balance
      have hpos := held_pos hmem rfl
      have hpos' := held_pos hhanded rfl
      omega
    have herase : w.eng.iq_entries.eraseP (fun x => x.cookie = cookie)
      = w.eng.iq_entries.erase entry :=
      eraseP_eq_erase hf
    refine ⟨h.lawful.snoc (.inl hmem), ?_, ?_, fun x hx => ?_, fun k hk => ?_⟩
    · dsimp only [emit_log, emit_eng, set_eng, set_log]
      rw [desk_snoc, herase, ← h.outstanding]
      rfl
    · dsimp only [emit_log, set_log]
      rw [desk_snoc]
      simp only [Desk.after, List.erase_of_not_mem habsent]
      exact h.handed
    · refine h.fresh x ?_
      rcases List.mem_append.1 hx with hx | hx
      · exact hx
      · exact absurd (List.mem_singleton.1 hx) (by simp)
    · rcases List.mem_append.1 hk with hk | hk
      · obtain ⟨heq, -⟩ := Stmt.returned.inj (List.mem_singleton.1 hk)
        obtain rfl := Call.removeIqHandler.inj heq
        exact ⟨entry, List.mem_append_right _ List.mem_cons_self, hcookie⟩
      · obtain ⟨x, hx, hxk⟩ := h.returning k hk
        exact ⟨x, List.mem_append_left _ hx, hxk⟩

/-- Every run keeps to the rule. -/
theorem routed_reachable {c : Conf} (h : Reachable c) : Routed c.state c.control := by
  refine Reaches.invariant (I := fun c : Conf => Routed c.state c.control) h ?_ ?_
  · exact ⟨.nil, rfl, rfl, fun x hx => (nomatch hx), fun k hk => (nomatch hk)⟩
  · intro c a c' _ hc _ hs
    rcases step_cases hs with ⟨s, rest, r, -, hcontrol, -, hr, rfl⟩ | ⟨m, -, -, rfl⟩ |
      ⟨v, s, rest, -, hcontrol, hf, rfl⟩
    · rw [hcontrol] at hc
      exact exec_routed hc hr
    · have hcalled : Routed (c.state.emit (.called m)) c.control :=
        hc.quiet (.emit c.state rfl) rfl rfl rfl fun k hk => hk
      exact entry_routed hcalled ⟨c.state.log, rfl⟩ (enter_entry c.state m)
    · rw [hcontrol] at hc
      have hpush : ∀ p ∈ World.resume s v, p.deletes = none ∧
        ∀ m status, p ≠ .returned m status := by
        intro p hp
        unfold World.resume at hp
        split at hp
        · rw [List.mem_singleton.1 hp]
          exact ⟨rfl, by simp⟩
        · split at hp
          · cases hp
          · rw [List.mem_singleton.1 hp]
            exact ⟨rfl, by simp⟩
        · cases hp
      refine hc.quiet (.refl c.state) rfl rfl ?_ fun k hk => ?_
      · have hhead : s.deletes = none := by
          cases s <;> first | rfl | exact absurd hf Bool.false_ne_true
        rw [List.filterMap_cons_none hhead]
        exact deletes_append fun p hp => (hpush p hp).1
      · rcases List.mem_append.1 hk with hk | hk
        · exact absurd rfl ((hpush _ hk).2 _ _)
        · exact List.mem_cons_of_mem _ hk

/-! ## 4. To the end of the engine -/

/-- `XmppEngineImpl::~XmppEngineImpl`, which is `DeleteIqCookies`. -/
def World.destroy (w : World) : World :=
  w.eng.iq_entries.foldl (fun w entry => w.emit (.iqFreed entry))
    (w.set { w.eng with iq_entries := [] })

theorem destroy_frees (w : World) (k : Nat) :
    w.destroy.log.countP (Event.frees k)
      = w.log.countP (Event.frees k) + held k w.eng.iq_entries := by
  have hall : ∀ (entries : List XmppIqEntry) (v : World),
      (entries.foldl (fun w entry => w.emit (.iqFreed entry)) v).log.countP (Event.frees k)
        = v.log.countP (Event.frees k) + held k entries := by
    intro entries
    induction entries with
    | nil => exact fun v => rfl
    | cons entry entries ih =>
      intro v
      rw [List.foldl_cons, ih, emit_log, List.countP_append, List.countP_singleton, held_cons]
      simp only [Event.frees, decide_eq_true_eq]
      omega
  exact hall w.eng.iq_entries (w.set { w.eng with iq_entries := [] })

/-- In every run the handler of an iq is called once at most, for the reply to its request,
for the oldest entry that matches and not after its removal; and when the engine is
destroyed, with no call in progress, every entry has been freed once. -/
theorem iq_routing {c : Conf} (h : Reachable c) :
    IqRouting c.state.log ∧ (c.control = [] → ∀ entry, Event.iqCreated entry ∈ c.state.log →
      c.state.destroy.log.countP (Event.frees entry.cookie) = 1) := by
  have hrouted := routed_reachable h
  refine ⟨iqRouting hrouted.lawful, fun hidle entry hcreated => ?_⟩
  have hledger := ledger hrouted.lawful entry.cookie
  have hmade := hledger.made
  have hbalance := hledger.balance
  have hhanded : (desk c.state.log).handed = [] := by
    rw [hrouted.handed, hidle]
    rfl
  have hpos : 0 < c.state.log.countP (Event.creates entry.cookie) :=
    List.countP_pos_iff.2 ⟨_, hcreated, by simp [Event.creates]⟩
  rw [hhanded, hrouted.outstanding] at hbalance
  have hnone : held entry.cookie [] = 0 := rfl
  rw [destroy_frees]
  omega

/-- A request for the version. -/
def versionRequest : XmlElement :=
  ((XmlElement.new QN_IQ false).addAttr QN_TYPE (str "get")).addAttr QN_ID (str "v")

/-- Two requests with one id are answered by one reply, and the handler of the first
disconnects. -/
def twoRequests : List Step :=
  loginWithHandlers ++
    [.call (.sendIq (some versionRequest) (some 5)), .call (.sendIq (some versionRequest) (some 6)),
      iqResult (str "v") [], .call .disconnect, .ret false, .ret false]

theorem iq_routing_disconnected : ∃ c : Conf, c.control = [] ∧ c.state.eng.state = .closed ∧
    c.state.log.countP (Event.answersCookie 0) = 1 ∧
    c.state.log.countP (Event.answersCookie 1) = 0 ∧ IqRouting c.state.log ∧
    c.state.destroy.log.countP (Event.frees 1) = 1 := by
  obtain ⟨c, hc, hp⟩ := exists_of_drive (G := anyCall) (P := engine) (n := 40) (c := Conf.init)
    (l := twoRequests) (p := fun c => c.control.isEmpty && decide (c.state.eng.state = .closed ∧
      c.state.log.countP (Event.answersCookie 0) = 1 ∧
      c.state.log.countP (Event.answersCookie 1) = 0) &&
      c.state.log.any fun
        | .iqCreated entry => entry.cookie = 1
        | _ => false)
    (by decide +kernel)
  simp only [Bool.and_eq_true, List.isEmpty_iff, decide_eq_true_eq] at hp
  obtain ⟨⟨hidle, hstate, hone, hzero⟩, hcreated⟩ := hp
  obtain ⟨hrouting, hfreed⟩ := iq_routing hc
  obtain ⟨ev, hev, hmade⟩ := List.any_eq_true.1 hcreated
  split at hmade
  · rename_i entry
    have hcookie : entry.cookie = 1 := of_decide_eq_true hmade
    have honce := hfreed hidle entry hev
    rw [hcookie] at honce
    exact ⟨c, hidle, hstate, hone, hzero, hrouting, honce⟩
  · cases hmade

end Gxmpp
