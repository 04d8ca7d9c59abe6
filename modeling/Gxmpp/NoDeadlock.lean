/-
The threads never wait for the locks of queues and managers in a circle.

Which locks a thread holds can be read off its stack: they are those that it has still to leave.
A thread that holds the lock of a queue and waits for a manager is adding the queue, which is in
no list then; one that holds the lock of a manager and waits for a queue found it in the list.
-/
import Gxmpp.LockOrder

set_option autoImplicit false

namespace Gxmpp.TalkBase

open Reentrant Interleaving

/-! ## 1. Held locks -/

/-- The lock that the statement leaves, at once or after some more steps. -/
def LockStmt.leaves? : LockStmt → Option Lock
  | .leave l => some l
  | .erase k _ => some (.manager k)
  | .receiveNext q => some (.queue q)
  | _ => none

/-- The locks that are left on the way, in this order. -/
def leaves (l : List LockStmt) : List Lock := l.filterMap LockStmt.leaves?

/-- The locks that are held: one that is to be entered first is not. -/
def held : List LockStmt → List Lock
  | .enter _ :: rest => (leaves rest).tail
  | l => leaves l

namespace QueueLocks

variable {s s' : QueueLocks} {t u : ThreadId} {l : Lock}

/-- How often a thread has entered a lock. -/
def count (s : QueueLocks) (t : ThreadId) (l : Lock) : Nat :=
  match s.locks l with
  | some (owner, n) => if owner = t then n else 0
  | none => 0

/-- A lock has one owner. -/
theorem count_unique (ht : 0 < s.count t l) (hu : 0 < s.count u l) : u = t := by
  unfold count at ht hu
  cases hl : s.locks l with
  | none =>
    rw [hl] at ht
    exact absurd ht (Nat.lt_irrefl 0)
  | some p =>
    obtain ⟨owner, n⟩ := p
    rw [hl] at ht hu
    dsimp only at ht hu
    split_ifs at ht hu with hot hou
    · exact hou.symm.trans hot
    all_goals omega

/-- What `Enter` does. -/
theorem enterLock_count (h : s.enterLock t l = some s') :
    s' = { s with locks := s'.locks } ∧
      ∀ u k, s'.count u k = s.count u k + if u = t ∧ k = l then 1 else 0 := by
  have hset : ∀ n : Nat, (∀ u, s.count u l = if u = t then n else 0) →
      ∀ u k, ({ s with locks := Function.update s.locks l (some (t, n + 1)) }).count u k =
        s.count u k + if u = t ∧ k = l then 1 else 0 := by
    intro n hn u k
    by_cases hk : k = l
    · rw [hk, hn u]
      unfold count
      dsimp only
      rw [Function.update_self]
      by_cases hu : u = t
      · simp [hu]
      · simp [hu, Ne.symm hu]
    · unfold count
      dsimp only
      rw [Function.update_of_ne hk]
      simp [hk]
  unfold enterLock at h
  cases hl : s.locks l with
  | none =>
    rw [hl] at h
    obtain rfl := Option.some.inj h
    refine ⟨rfl, hset 0 fun u => ?_⟩
    unfold count
    rw [hl]
    simp
  | some p =>
    obtain ⟨owner, n⟩ := p
    rw [hl] at h
    dsimp only at h
    split_ifs at h with ho
    obtain rfl := Option.some.inj h
    refine ⟨rfl, hset n fun u => ?_⟩
    unfold count
    rw [hl, ho]
    simp [eq_comm]

/-- What `Leave` does. -/
theorem leaveLock_count (h : 0 < s.count t l) :
    s.leaveLock l = { s with locks := (s.leaveLock l).locks } ∧
      ∀ u k, s.count u k = (s.leaveLock l).count u k + if u = t ∧ k = l then 1 else 0 := by
  have hset : ∀ o : Option (ThreadId × Nat),
      (∀ u, s.count u l = (match o with
        | some (owner, n) => if owner = u then n else 0
        | none => 0) + if u = t then 1 else 0) →
      ∀ u k, s.count u k = ({ s with locks := Function.update s.locks l o }).count u k +
        if u = t ∧ k = l then 1 else 0 := by
    intro o ho u k
    by_cases hk : k = l
    · rw [hk, ho u]
      unfold count
      dsimp only
      rw [Function.update_self]
      simp
    · unfold count
      dsimp only
      rw [Function.update_of_ne hk]
      simp [hk]
  have hcount : ∀ u, s.count u l = match s.locks l with
      | some (owner, n) => if owner = u then n else 0
      | none => 0 := fun _ => rfl
  rw [hcount t] at h
  unfold leaveLock
  cases hl : s.locks l with
  | none =>
    rw [hl] at h
    exact absurd h (Nat.lt_irrefl 0)
  | some p =>
    obtain ⟨owner, n⟩ := p
    rw [hl] at h
    dsimp only at h
    split_ifs at h with ho
    · match n, h with
      | 1, _ =>
        refine ⟨rfl, hset none fun u => ?_⟩
        rw [hcount u, hl, ho]
        simp [eq_comm]
      | n + 2, _ =>
        refine ⟨rfl, hset (some (owner, n + 1)) fun u => ?_⟩
        rw [hcount u, hl, ho]
        by_cases hu : t = u
        · simp [hu]
        · simp [hu, Ne.symm hu]
    · exact absurd h (Nat.lt_irrefl 0)

end QueueLocks

/-! ## 2. The shape of a stack -/

/-- The locks that are held at a statement, when it is not the one on top. -/
def LockStmt.Fits (s : QueueLocks) (x : LockStmt) (H : List Lock) : Prop :=
  match x with
  | .enter _ => False
  | .ensureActive q | .receiveNext q => H = [.queue q]
  | .pushBack k q => H = [.manager k, .queue q] ∧ s.active_ q = true
  | .erase k _ | .clearFrom k _ _ => H = [.manager k]
  | .clearQueue q => H = [] ∨ H = [.queue q] ∨ ∃ k, H = [.queue q, .manager k]
  | .leave _ | .clearSends _ _ _ | .pushSend _ _ => True
  | _ => H = []

/-- The locks that are held at the statement on top. -/
def LockStmt.Top (s : QueueLocks) (x : LockStmt) (H : List Lock) : Prop :=
  match x with
  | .enter (.queue q) =>
    H = [] ∨ H = [.queue q] ∨ (∃ k, H = [.queue q, .manager k]) ∨
      ∃ k, H = [.manager k] ∧ q ∈ s.message_queues_ k
  | .enter (.manager _) => H = [] ∨ ∃ q, H = [.queue q] ∧ ∀ j, q ∉ s.message_queues_ j
  | .clear q _ _ | .clearQueue q => x.Fits s H ∨ ∃ k, H = [.manager k] ∧ q ∈ s.message_queues_ k
  | x => x.Fits s H

/-- The statements under the one on top. -/
def Inner (s : QueueLocks) : List LockStmt → Prop
  | [] => True
  | x :: rest => x.Fits s (leaves (x :: rest)) ∧ Inner s rest

/-- What is to be entered is left later. -/
structure Shaped (s : QueueLocks) (x : LockStmt) (rest : List LockStmt) : Prop where
  top : x.Top s (held (x :: rest))
  inner : Inner s rest
  entered : ∀ l, x = .enter l → leaves rest = l :: held (x :: rest)

section Shape

variable {s s' : QueueLocks} {x : LockStmt} {l rest : List LockStmt} {H : List Lock}

theorem LockStmt.Fits.mono (hactive : ∀ q, s.active_ q = true → s'.active_ q = true)
    (h : x.Fits s H) : x.Fits s' H := by
  cases x with
  | pushBack k q => exact ⟨h.1, hactive q h.2⟩
  | _ => exact h

theorem Inner.mono (hactive : ∀ q, s.active_ q = true → s'.active_ q = true)
    (h : Inner s l) : Inner s' l := by
  induction l with
  | nil => exact h
  | cons x rest ih => exact ⟨h.1.mono hactive, ih h.2⟩

theorem Inner.same (h : Inner s l) (hactive : s'.active_ = s.active_) : Inner s' l :=
  h.mono fun q hq => by rw [hactive]; exact hq

theorem LockStmt.Fits.top (h : x.Fits s H) : x.Top s H := by
  cases x with
  | enter l => exact absurd h id
  | clear | clearQueue => exact Or.inl h
  | _ => exact h

/-- Only a statement on top enters a lock. -/
theorem LockStmt.Fits.held (h : x.Fits s H) (rest : List LockStmt) :
    held (x :: rest) = leaves (x :: rest) := by
  cases x with
  | enter l => exact absurd h id
  | _ => rfl

theorem Inner.held (h : Inner s l) : held l = leaves l := by
  cases l with
  | nil => rfl
  | cons x rest => exact h.1.held rest

/-- A statement comes to the top. -/
theorem Inner.shaped (h : Inner s (x :: rest)) : Shaped s x rest where
  top := by
    rw [h.held]
    exact h.1.top
  inner := h.2
  entered k hk := by
    have hfits := h.1
    rw [hk] at hfits
    exact absurd hfits id

/-- Another thread leaves alone what depends on the locks that are held. -/
theorem LockStmt.Top.mono (h : x.Top s H)
    (hactive : ∀ q, s.active_ q = true → s'.active_ q = true)
    (hkeep : ∀ k q, Lock.manager k ∈ H → q ∈ s.message_queues_ k → q ∈ s'.message_queues_ k)
    (hfresh : ∀ q, Lock.queue q ∈ H → (∀ j, q ∉ s.message_queues_ j) →
      ∀ j, q ∉ s'.message_queues_ j) : x.Top s' H := by
  have hmem : ∀ k q, H = [.manager k] → q ∈ s.message_queues_ k → q ∈ s'.message_queues_ k :=
    fun k q hH => hkeep k q (hH ▸ List.mem_singleton_self _)
  cases x with
  | enter l =>
    cases l with
    | queue q =>
      rcases h with h | h | h | ⟨k, hH, hq⟩
      · exact Or.inl h
      · exact Or.inr (Or.inl h)
      · exact Or.inr (Or.inr (Or.inl h))
      · exact Or.inr (Or.inr (Or.inr ⟨k, hH, hmem k q hH hq⟩))
    | manager k =>
      rcases h with h | ⟨q, hH, hq⟩
      · exact Or.inl h
      · exact Or.inr ⟨q, hH, hfresh q (hH ▸ List.mem_singleton_self _) hq⟩
  | clear q | clearQueue q =>
    rcases h with h | ⟨k, hH, hq⟩
    · exact Or.inl (h.mono hactive)
    · exact Or.inr ⟨k, hH, hmem k q hH hq⟩
  | pushBack k q => exact ⟨h.1, hactive q h.2⟩
  | _ => exact h

end Shape

/-- What a thread's stack says of the locks. -/
structure LockStack (t : ThreadId) (s : QueueLocks) (l : List LockStmt) : Prop where
  shaped : ∀ x rest, l = x :: rest → Shaped s x rest
  owned : ∀ k, (held l).count k = s.count t k

/-- A lock that is recorded as owned is entered. -/
def Entered (s : QueueLocks) : Prop := ∀ l u n, s.locks l = some (u, n) → 0 < n

/-- The invariant of the threads: a queue in a list is active. -/
def lockInv : Stacks ThreadId QueueLocks LockStmt where
  global s := (∀ k, ∀ q ∈ s.message_queues_ k, s.active_ q = true) ∧ Entered s
  stack := LockStack

/-! ## 3. What a step does -/

/-- What a thread that holds the locks `H` does to the lists and the flags. -/
structure Register (s s' : QueueLocks) (H : List Lock) : Prop where
  active : ∀ q, s.active_ q = true → s'.active_ q = true
  global : (∀ k, ∀ q ∈ s.message_queues_ k, s.active_ q = true) →
    ∀ k, ∀ q ∈ s'.message_queues_ k, s'.active_ q = true
  keep : ∀ k q, q ∈ s.message_queues_ k → q ∈ s'.message_queues_ k ∨ Lock.manager k ∈ H
  fresh : ∀ k q, q ∈ s'.message_queues_ k → q ∈ s.message_queues_ k ∨ Lock.queue q ∈ H

theorem Register.same {s s' : QueueLocks} {H : List Lock} (hactive : s'.active_ = s.active_)
    (hlists : s'.message_queues_ = s.message_queues_) : Register s s' H where
  active q h := by rw [hactive]; exact h
  global h k q hq := by
    rw [hactive]
    rw [hlists] at hq
    exact h k q hq
  keep k q h := Or.inl (by rw [hlists]; exact h)
  fresh k q h := Or.inl (by rw [hlists] at h; exact h)

/-- The others do not notice. -/
theorem LockStack.other {s s' : QueueLocks} {H : List Lock} {t u : ThreadId} {l : List LockStmt}
    (h : LockStack u s l) (hut : u ≠ t) (hreg : Register s s' H)
    (hH : ∀ k ∈ H, 0 < s.count t k) (hcount : ∀ k, s'.count u k = s.count u k) :
    LockStack u s' l where
  owned k := (h.owned k).trans (hcount k).symm
  shaped x rest hl := by
    have hx := h.shaped x rest hl
    have hexclusive : ∀ k ∈ held (x :: rest), k ∉ H := by
      intro k hk hkH
      have hpos := List.count_pos_iff.2 hk
      rw [← hl, h.owned k] at hpos
      exact hut (QueueLocks.count_unique (hH k hkH) hpos)
    refine ⟨hx.top.mono hreg.active ?_ ?_, hx.inner.mono hreg.active, hx.entered⟩
    · exact fun k q hk hq => (hreg.keep k q hq).resolve_right (hexclusive _ hk)
    · intro q hk hq j hj
      exact (hreg.fresh j q hj).elim (hq j) (hexclusive _ hk)

theorem QueueLocks.enterLock_entered {s s' : QueueLocks} {t : ThreadId} {l : Lock}
    (h : Entered s) (hs : s.enterLock t l = some s') : Entered s' := by
  have hset : ∀ n, Entered { s with locks := Function.update s.locks l (some (t, n + 1)) } := by
    intro n k u m hk
    by_cases hkl : k = l
    · rw [hkl] at hk
      dsimp only at hk
      rw [Function.update_self] at hk
      obtain ⟨-, rfl⟩ := Prod.mk.inj (Option.some.inj hk)
      exact Nat.succ_pos n
    · dsimp only at hk
      rw [Function.update_of_ne hkl] at hk
      exact h k u m hk
  unfold enterLock at hs
  cases hl : s.locks l with
  | none =>
    rw [hl] at hs
    exact Option.some.inj hs ▸ hset 0
  | some p =>
    obtain ⟨owner, n⟩ := p
    rw [hl] at hs
    dsimp only at hs
    split_ifs at hs
    exact Option.some.inj hs ▸ hset n

theorem QueueLocks.leaveLock_entered {s : QueueLocks} (h : Entered s) (l : Lock) :
    Entered (s.leaveLock l) := by
  have hset : ∀ o : Option (ThreadId × Nat), (∀ u n, o = some (u, n) → 0 < n) →
      Entered { s with locks := Function.update s.locks l o } := by
    intro o ho k u m hk
    by_cases hkl : k = l
    · rw [hkl] at hk
      dsimp only at hk
      rw [Function.update_self] at hk
      exact ho u m hk
    · dsimp only at hk
      rw [Function.update_of_ne hkl] at hk
      exact h k u m hk
  unfold leaveLock
  split
  · refine hset _ fun u n hn => ?_
    obtain ⟨-, rfl⟩ := Prod.mk.inj (Option.some.inj hn)
    exact Nat.succ_pos _
  · exact hset none nofun

/-- The pushed statements take the place of the one that is executed. -/
structure Replaces (t : ThreadId) (s : QueueLocks) (x : LockStmt) (rest : List LockStmt)
    (s' : QueueLocks) (push : List LockStmt) : Prop where
  register : Register s s' (held (x :: rest))
  stack : LockStack t s' (push ++ rest)
  others : ∀ u, u ≠ t → ∀ k, s'.count u k = s.count u k
  entered : Entered s → Entered s'

section Exec

variable {t : ThreadId} {s s' : QueueLocks} {x : LockStmt} {rest push : List LockStmt}

/-- The rule for a statement that leaves the locks alone. -/
theorem Replaces.of_locks (h : LockStack t s (x :: rest)) (hlocks : s'.locks = s.locks)
    (hreg : Register s s' (held (x :: rest))) (hheld : held (push ++ rest) = held (x :: rest))
    (hshaped : ∀ y l, push ++ rest = y :: l → Shaped s' y l) : Replaces t s x rest s' push where
  register := hreg
  stack := by
    refine ⟨hshaped, fun k => ?_⟩
    rw [hheld, h.owned k]
    unfold QueueLocks.count
    rw [hlocks]
  others u _ k := by
    unfold QueueLocks.count
    rw [hlocks]
  entered h l u n hl := by
    rw [hlocks] at hl
    exact h l u n hl

/-- The statements under the one on top come to the top. -/
theorem Shaped.next (h : Shaped s x rest) (hactive : ∀ q, s.active_ q = true → s'.active_ q = true) :
    ∀ y l, rest = y :: l → Shaped s' y l := by
  intro y l hrest
  have hinner := h.inner.mono hactive
  rw [hrest] at hinner
  exact hinner.shaped

theorem exec_enter {l : Lock} (h : LockStack t s (.enter l :: rest))
    (hs : s.enterLock t l = some s') : Replaces t s (.enter l) rest s' [] := by
  obtain ⟨heq, hcount⟩ := QueueLocks.enterLock_count hs
  have hshaped := h.shaped _ _ rfl
  have hactive : s'.active_ = s.active_ := by rw [heq]
  have hlists : s'.message_queues_ = s.message_queues_ := by rw [heq]
  refine ⟨.same hactive hlists, ⟨?_, fun k => ?_⟩, fun u hu k => ?_,
    fun hold => QueueLocks.enterLock_entered hold hs⟩
  · exact hshaped.next fun q hq => by rw [hactive]; exact hq
  · rw [List.nil_append, hshaped.inner.held, hshaped.entered l rfl, List.count_cons, hcount t k,
      h.owned k]
    by_cases hk : k = l
    · simp [hk]
    · simp [hk, Ne.symm hk]
  · rw [hcount u k]
    simp [hu]

theorem exec_leave {l : Lock} (h : LockStack t s (.leave l :: rest)) :
    Replaces t s (.leave l) rest (s.leaveLock l) [] := by
  have hshaped := h.shaped _ _ rfl
  have hheld : held (.leave l :: rest) = l :: leaves rest := rfl
  have hpos : 0 < s.count t l := by
    rw [← h.owned l, hheld]
    exact List.count_pos_iff.2 List.mem_cons_self
  obtain ⟨heq, hcount⟩ := QueueLocks.leaveLock_count hpos
  have hactive : (s.leaveLock l).active_ = s.active_ := by rw [heq]
  have hlists : (s.leaveLock l).message_queues_ = s.message_queues_ := by rw [heq]
  refine ⟨.same hactive hlists, ⟨?_, fun k => ?_⟩, fun u hu k => ?_,
    fun hold => QueueLocks.leaveLock_entered hold l⟩
  · exact hshaped.next fun q hq => by rw [hactive]; exact hq
  · have howned := h.owned k
    rw [hheld, List.count_cons, hcount t k] at howned
    rw [List.nil_append, hshaped.inner.held]
    by_cases hk : k = l
    · simp only [hk, beq_self_eq_true, if_true, and_self] at howned
      rw [hk]
      omega
    · simpa [hk, Ne.symm hk] using howned
  · rw [hcount u k]
    simp [hu]

/-- The head of pushed code. -/
theorem shaped_cons {y : LockStmt} {code : List LockStmt} {H : List Lock}
    (htop : y.Top s' H) (hheld : held (y :: (code ++ rest)) = H) (hinner : Inner s' (code ++ rest))
    (hentered : ∀ l, y = .enter l → leaves (code ++ rest) = l :: H) :
    ∀ z l, y :: code ++ rest = z :: l → Shaped s' z l := by
  intro z l hl
  rw [List.cons_append] at hl
  obtain ⟨rfl, rfl⟩ := List.cons.inj hl
  refine ⟨by rw [hheld]; exact htop, hinner, fun k hk => ?_⟩
  rw [hheld]
  exact hentered k hk

theorem manager_same (s : QueueLocks) : s.manager.2.active_ = s.active_ ∧
    s.manager.2.message_queues_ = s.message_queues_ ∧ s.manager.2.locks = s.locks := by
  unfold QueueLocks.manager
  cases s.instance_ <;> exact ⟨rfl, rfl, rfl⟩

variable {q : QueueId} {k : Nat}

theorem exec_ensureActive (h : LockStack t s (.ensureActive q :: rest))
    (hg : ∀ k, ∀ q ∈ s.message_queues_ k, s.active_ q = true)
    (hs : QueueLocks.exec t s (.ensureActive q) = some (s', push)) :
    Replaces t s (.ensureActive q) rest s' push := by
  have hshaped := h.shaped _ _ rfl
  have hH : leaves rest = [.queue q] := hshaped.top
  unfold QueueLocks.exec at hs
  dsimp only at hs
  split_ifs at hs with hactive
  · obtain ⟨rfl, rfl⟩ := Prod.mk.inj (Option.some.inj hs)
    exact .of_locks h rfl (.same rfl rfl) hshaped.inner.held (hshaped.next fun _ hq => hq)
  · obtain ⟨hact, hlists, hlocks⟩ := manager_same s
    obtain ⟨rfl, rfl⟩ := Prod.mk.inj (Option.some.inj hs)
    have hgrow : ∀ r, s.active_ r = true →
        Function.update s.manager.2.active_ q true r = true := by
      intro r hr
      by_cases hrq : r = q
      · rw [hrq, Function.update_self]
      · rw [Function.update_of_ne hrq, hact]
        exact hr
    refine .of_locks h hlocks ⟨hgrow, fun hgl k r hr => hgrow r (hgl k r ?_), ?_, ?_⟩ rfl ?_
    · rw [← hlists]
      exact hr
    · exact fun k r hr => Or.inl (by rw [hlists]; exact hr)
    · exact fun k r hr => Or.inl (by rw [← hlists]; exact hr)
    · have hfresh : ∀ j, q ∉ s.message_queues_ j := fun j hj => hactive (hg j q hj)
      refine shaped_cons (H := [.queue q]) (Or.inr ⟨q, rfl, fun j => ?_⟩) hH ⟨⟨?_, ?_⟩, ?_⟩ ?_
      · rw [hlists]
        exact hfresh j
      · show .manager s.manager.1 :: leaves rest = _
        rw [hH]
      · exact Function.update_self q true s.manager.2.active_
      · exact ⟨trivial, hshaped.inner.mono hgrow⟩
      · intro l hl
        obtain rfl := LockStmt.enter.inj hl
        show .manager s.manager.1 :: leaves rest = _
        rw [hH]

/-- A statement that only touches send lists, flags of sends and instances. -/
theorem exec_quiet (h : LockStack t s (x :: rest)) (hactive : s'.active_ = s.active_)
    (hlists : s'.message_queues_ = s.message_queues_) (hlocks : s'.locks = s.locks)
    (hheld : held (push ++ rest) = held (x :: rest))
    (hshaped : ∀ y l, push ++ rest = y :: l → Shaped s' y l) : Replaces t s x rest s' push :=
  .of_locks h hlocks (.same hactive hlists) hheld hshaped

/-- The critical section of a queue, entered where nothing is held. -/
theorem exec_section {code : List LockStmt} (h : LockStack t s (x :: rest))
    (hx : held (x :: rest) = []) (hleaves : leaves (code ++ rest) = [.queue q])
    (hinner : Inner s (code ++ rest)) : Replaces t s x rest s (.enter (.queue q) :: code) := by
  have hheld : held (.enter (.queue q) :: (code ++ rest)) = [] := by
    show (leaves (code ++ rest)).tail = []
    rw [hleaves]
    rfl
  refine exec_quiet h rfl rfl rfl (hheld.trans hx.symm) ?_
  refine shaped_cons (Or.inl rfl) hheld hinner fun l hl => ?_
  obtain rfl := LockStmt.enter.inj hl
  exact hleaves

theorem exec_clearQueue (h : LockStack t s (.clearQueue q :: rest)) :
    Replaces t s (.clearQueue q) rest s [.enter (.queue q), .leave (.queue q)] := by
  have hshaped := h.shaped _ _ rfl
  refine exec_quiet h rfl rfl rfl rfl (shaped_cons (H := leaves rest) ?_ rfl ?_ ?_)
  · rcases hshaped.top with (hH | hH | ⟨k, hH⟩) | ⟨k, hH, hq⟩
    · exact Or.inl hH
    · exact Or.inr (Or.inl hH)
    · exact Or.inr (Or.inr (Or.inl ⟨k, hH⟩))
    · exact Or.inr (Or.inr (Or.inr ⟨k, hH, hq⟩))
  · exact ⟨trivial, hshaped.inner⟩
  · intro l hl
    obtain rfl := LockStmt.enter.inj hl
    rfl

theorem exec_clear {phandler : Handler} {id : UInt32}
    (h : LockStack t s (.clear q phandler id :: rest))
    (hs : QueueLocks.exec t s (.clear q phandler id) = some (s', push)) :
    Replaces t s (.clear q phandler id) rest s' push := by
  have hshaped := h.shaped _ _ rfl
  have htop : leaves rest = [] ∨ ∃ k, leaves rest = [.manager k] ∧ q ∈ s.message_queues_ k :=
    hshaped.top
  unfold QueueLocks.exec at hs
  dsimp only at hs
  split_ifs at hs
  · obtain ⟨rfl, rfl⟩ := Prod.mk.inj (Option.some.inj hs)
    refine exec_quiet h rfl rfl rfl rfl (shaped_cons (H := leaves rest) ?_ rfl ?_ ?_)
    · rcases htop with hH | ⟨k, hH, hq⟩
      · exact Or.inl hH
      · exact Or.inr (Or.inr (Or.inr ⟨k, hH, hq⟩))
    · refine ⟨trivial, ?_, trivial, hshaped.inner⟩
      rcases htop with hH | ⟨k, hH, -⟩
      · exact Or.inr (Or.inl (congrArg (List.cons (Lock.queue q)) hH))
      · exact Or.inr (Or.inr ⟨k, congrArg (List.cons (Lock.queue q)) hH⟩)
    · intro l hl
      obtain rfl := LockStmt.enter.inj hl
      rfl
  · obtain ⟨rfl, rfl⟩ := Prod.mk.inj (Option.some.inj hs)
    refine exec_quiet h rfl rfl rfl rfl (shaped_cons (H := leaves rest) ?_ rfl ?_ nofun)
    · rcases htop with hH | hk
      · exact Or.inl (Or.inl hH)
      · exact Or.inr hk
    · exact hshaped.inner

theorem exec_clearFrom {i : Nat} {phandler : Handler}
    (h : LockStack t s (.clearFrom k i phandler :: rest))
    (hs : QueueLocks.exec t s (.clearFrom k i phandler) = some (s', push)) :
    Replaces t s (.clearFrom k i phandler) rest s' push := by
  have hshaped := h.shaped _ _ rfl
  have hH : leaves rest = [.manager k] := hshaped.top
  unfold QueueLocks.exec at hs
  dsimp only at hs
  cases hq : (s.message_queues_ k)[i]? with
  | none =>
    rw [hq] at hs
    obtain ⟨rfl, rfl⟩ := Prod.mk.inj (Option.some.inj hs)
    exact exec_quiet h rfl rfl rfl hshaped.inner.held (hshaped.next fun _ hq => hq)
  | some q =>
    rw [hq] at hs
    obtain ⟨rfl, rfl⟩ := Prod.mk.inj (Option.some.inj hs)
    refine exec_quiet h rfl rfl rfl rfl (shaped_cons (H := leaves rest) ?_ rfl ?_ nofun)
    · exact Or.inr ⟨k, hH, List.mem_of_getElem? hq⟩
    · exact ⟨hH, hshaped.inner⟩

theorem exec_pushBack (h : LockStack t s (.pushBack k q :: rest))
    (hs : QueueLocks.exec t s (.pushBack k q) = some (s', push)) :
    Replaces t s (.pushBack k q) rest s' push := by
  have hshaped := h.shaped _ _ rfl
  obtain ⟨hH, hactive⟩ : leaves rest = [.manager k, .queue q] ∧ s.active_ q = true := hshaped.top
  have hmem : ∀ j r, r ∈ Function.update s.message_queues_ k (s.message_queues_ k ++ [q]) j →
      r ∈ s.message_queues_ j ∨ r = q := by
    intro j r hr
    by_cases hj : j = k
    · rw [hj, Function.update_self] at hr
      rw [hj]
      exact (List.mem_append.1 hr).imp_right List.mem_singleton.1
    · rw [Function.update_of_ne hj] at hr
      exact Or.inl hr
  obtain ⟨rfl, rfl⟩ := Prod.mk.inj (Option.some.inj hs)
  refine .of_locks h rfl ⟨fun _ hr => hr, fun hg j r hr => ?_, fun j r hr => Or.inl ?_,
    fun j r hr => ?_⟩ hshaped.inner.held (hshaped.next fun _ hr => hr)
  · rcases hmem j r hr with hr | rfl
    · exact hg j r hr
    · exact hactive
  · show r ∈ Function.update s.message_queues_ k (s.message_queues_ k ++ [q]) j
    by_cases hj : j = k
    · rw [hj, Function.update_self]
      rw [hj] at hr
      exact List.mem_append_left _ hr
    · rw [Function.update_of_ne hj]
      exact hr
  · rcases hmem j r hr with hr | rfl
    · exact Or.inl hr
    · right
      show Lock.queue r ∈ leaves rest
      rw [hH]
      exact List.mem_cons_of_mem _ (List.mem_singleton_self _)

theorem exec_erase (h : LockStack t s (.erase k q :: rest))
    (hs : QueueLocks.exec t s (.erase k q) = some (s', push)) :
    Replaces t s (.erase k q) rest s' push := by
  have hshaped := h.shaped _ _ rfl
  have hH : Lock.manager k :: leaves rest = [.manager k] := hshaped.top
  have hnil : leaves rest = [] := (List.cons.inj hH).2
  have hmem : ∀ j r, r ∈ Function.update s.message_queues_ k ((s.message_queues_ k).erase q) j →
      r ∈ s.message_queues_ j := by
    intro j r hr
    by_cases hj : j = k
    · rw [hj, Function.update_self] at hr
      rw [hj]
      exact List.mem_of_mem_erase hr
    · rw [Function.update_of_ne hj] at hr
      exact hr
  obtain ⟨rfl, rfl⟩ := Prod.mk.inj (Option.some.inj hs)
  refine .of_locks h rfl ⟨fun _ hr => hr, fun hg j r hr => hg j r (hmem j r hr),
    fun j r hr => ?_, fun j r hr => Or.inl (hmem j r hr)⟩ ?_ ?_
  · by_cases hj : j = k
    · right
      rw [hj]
      exact List.mem_cons_self
    · left
      show r ∈ Function.update s.message_queues_ k _ j
      rw [Function.update_of_ne hj]
      exact hr
  · split_ifs <;> rfl
  · refine shaped_cons (H := [.manager k]) trivial ?_ ?_ nofun
    · rw [← hH]
      split_ifs <;> rfl
    · split_ifs
      · exact ⟨hnil, hshaped.inner.same rfl⟩
      · exact hshaped.inner.same rfl

theorem exec_receiveNext (h : LockStack t s (.receiveNext q :: rest))
    (hs : QueueLocks.exec t s (.receiveNext q) = some (s', push)) :
    Replaces t s (.receiveNext q) rest s' push := by
  have hshaped := h.shaped _ _ rfl
  have hH : Lock.queue q :: leaves rest = [.queue q] := hshaped.top
  have hnil : leaves rest = [] := (List.cons.inj hH).2
  unfold QueueLocks.exec at hs
  dsimp only at hs
  cases hsends : s.sendlist_ q with
  | nil =>
    rw [hsends] at hs
    obtain ⟨rfl, rfl⟩ := Prod.mk.inj (Option.some.inj hs)
    exact exec_quiet h rfl rfl rfl rfl
      (shaped_cons (H := _) trivial rfl (hshaped.inner.same rfl) nofun)
  | cons msg sends =>
    rw [hsends] at hs
    obtain ⟨rfl, rfl⟩ := Prod.mk.inj (Option.some.inj hs)
    refine exec_quiet h rfl rfl rfl rfl (shaped_cons (H := _) trivial rfl ?_ nofun)
    exact ⟨hnil, hnil, hshaped.inner.same rfl⟩

/-- Every statement that is executed is replaced by what it leaves to do. -/
theorem exec_replaces (h : LockStack t s (x :: rest))
    (hg : ∀ k, ∀ q ∈ s.message_queues_ k, s.active_ q = true)
    (hs : QueueLocks.exec t s x = some (s', push)) : Replaces t s x rest s' push := by
  have hshaped := h.shaped _ _ rfl
  have hquiet : s'.active_ = s.active_ → s'.message_queues_ = s.message_queues_ →
      s'.locks = s.locks → push = [] → held (x :: rest) = leaves rest →
      Replaces t s x rest s' push := by
    intro hactive hlists hlocks hpush hheld
    subst hpush
    exact exec_quiet h hactive hlists hlocks (hshaped.inner.held.trans hheld.symm)
      (hshaped.next fun q hq => by rw [hactive]; exact hq)
  cases x with
  | enter l =>
    obtain ⟨s₁, hs₁, heq⟩ := Option.map_eq_some_iff.1 hs
    obtain ⟨rfl, rfl⟩ := Prod.mk.inj heq
    exact exec_enter h hs₁
  | leave l =>
    obtain ⟨rfl, rfl⟩ := Prod.mk.inj (Option.some.inj hs)
    exact exec_leave h
  | ensureActive q => exact exec_ensureActive h hg hs
  | pushBack k q => exact exec_pushBack h hs
  | erase k q => exact exec_erase h hs
  | clearFrom k i phandler => exact exec_clearFrom h hs
  | clear q phandler id => exact exec_clear h hs
  | clearQueue q =>
    obtain ⟨rfl, rfl⟩ := Prod.mk.inj (Option.some.inj hs)
    exact exec_clearQueue h
  | receiveNext q => exact exec_receiveNext h hs
  | deleteInstance | clearSends | pushSend =>
    obtain ⟨rfl, rfl⟩ := Prod.mk.inj (Option.some.inj hs)
    exact hquiet rfl rfl rfl rfl rfl
  | receiveSends q =>
    have hH : leaves rest = [] := hshaped.top
    unfold QueueLocks.exec at hs
    dsimp only at hs
    split_ifs at hs
    · obtain ⟨rfl, rfl⟩ := Prod.mk.inj (Option.some.inj hs)
      refine exec_section h hH ?_ ⟨?_, hshaped.inner⟩
      all_goals
        show Lock.queue q :: leaves rest = _
        rw [hH]
    · obtain ⟨rfl, rfl⟩ := Prod.mk.inj (Option.some.inj hs)
      exact hquiet rfl rfl rfl rfl rfl
  | received q =>
    have hH : leaves rest = [] := hshaped.top
    obtain ⟨rfl, rfl⟩ := Prod.mk.inj (Option.some.inj hs)
    refine exec_section h hH ?_ ⟨?_, hshaped.inner⟩
    all_goals
      show Lock.queue q :: leaves rest = _
      rw [hH]
  | pull q =>
    have hH : leaves rest = [] := hshaped.top
    obtain ⟨rfl, rfl⟩ := Prod.mk.inj (Option.some.inj hs)
    refine exec_section h hH ?_ ⟨trivial, hH, hshaped.inner⟩
    show Lock.queue q :: leaves rest = _
    rw [hH]
  | destroyQueue q =>
    have hH : leaves rest = [] := hshaped.top
    obtain ⟨rfl, rfl⟩ := Prod.mk.inj (Option.some.inj hs)
    exact exec_quiet h rfl rfl rfl rfl (shaped_cons hH rfl ⟨hH, hshaped.inner⟩ nofun)
  | unregister q =>
    have hH : leaves rest = [] := hshaped.top
    obtain ⟨hact, hlists, hlocks⟩ := manager_same s
    unfold QueueLocks.exec at hs
    dsimp only at hs
    split_ifs at hs
    · obtain ⟨rfl, rfl⟩ := Prod.mk.inj (Option.some.inj hs)
      refine exec_quiet h hact hlists hlocks rfl (shaped_cons (H := []) (Or.inl rfl) hH ?_ ?_)
      · refine ⟨?_, Or.inl hH, hshaped.inner.same hact⟩
        show .manager s.manager.1 :: leaves rest = _
        rw [hH]
      · intro l hl
        obtain rfl := LockStmt.enter.inj hl
        show .manager s.manager.1 :: leaves rest = _
        rw [hH]
    · obtain ⟨rfl, rfl⟩ := Prod.mk.inj (Option.some.inj hs)
      exact hquiet rfl rfl rfl rfl rfl
  | sendWait | dispatch | getWait | queueDestroyed => cases hs

end Exec

/-! ## 4. The runs -/

section Runs

variable {c c' : LockConf} {t u : ThreadId}

/-- What a call or an answer pushes, where no lock is held. -/
structure Opens (s s' : QueueLocks) (push : List LockStmt) : Prop where
  active : s'.active_ = s.active_
  lists : s'.message_queues_ = s.message_queues_
  locks : s'.locks = s.locks
  nothing : ∀ rest, leaves rest = [] → held (push ++ rest) = []
  shaped : ∀ rest, leaves rest = [] → Inner s rest → ∀ y l, push ++ rest = y :: l → Shaped s' y l

/-- A thread that holds no lock pushes statements. -/
theorem Opens.keeps {s' : QueueLocks} {push rest : List LockStmt} (h : Opens c.state s' push)
    (hc : lockInv.Holds c) (hnil : leaves rest = []) (hinner : Inner c.state rest)
    (howned : ∀ k, c.state.count t k = 0) : lockInv.Holds (c.put t s' (push ++ rest)) := by
  have hcount : ∀ u k, s'.count u k = c.state.count u k := by
    intro u k
    unfold QueueLocks.count
    rw [h.locks]
  have hreg : Register c.state s' [] := .same h.active h.lists
  have hentered : Entered s' := fun l u n hl => hc.global.2 l u n (by rw [← h.locks]; exact hl)
  refine hc.put ⟨hreg.global hc.global.1, hentered⟩ ⟨h.shaped rest hnil hinner, fun k => ?_⟩
    fun u hu hold => hold.other hu hreg nofun (hcount u)
  rw [h.nothing rest hnil, hcount t k, howned k]
  rfl

theorem leaves_opens {s : QueueLocks} (push : List LockStmt)
    (hshaped : ∀ rest, leaves rest = [] → Inner s rest → ∀ y l, push ++ rest = y :: l →
      Shaped s y l) (hnothing : ∀ rest, leaves rest = [] → held (push ++ rest) = []) :
    Opens s s push := ⟨rfl, rfl, rfl, hnothing, hshaped⟩

/-- Nothing is pushed, or statements at which no lock is held. -/
theorem plain_opens {s : QueueLocks} {push : List LockStmt}
    (hpush : ∀ x ∈ push, x.leaves? = none ∧ x.Fits s []) : Opens s s push := by
  have hall : ∀ rest, leaves rest = [] → leaves (push ++ rest) = [] ∧
      (Inner s rest → Inner s (push ++ rest)) := by
    intro rest hnil
    induction push with
    | nil => exact ⟨hnil, id⟩
    | cons x push ih =>
      obtain ⟨hx, hfits⟩ := hpush x List.mem_cons_self
      obtain ⟨hleaves, hinner⟩ := ih fun y hy => hpush y (List.mem_cons_of_mem x hy)
      have hcons : leaves (x :: (push ++ rest)) = [] := by
        unfold leaves at hleaves ⊢
        rw [List.filterMap_cons, hx]
        exact hleaves
      refine ⟨hcons, fun h => ⟨?_, hinner h⟩⟩
      show LockStmt.Fits s x (leaves (x :: (push ++ rest)))
      rw [hcons]
      exact hfits
  refine leaves_opens push (fun rest hnil hinner y l hyl => ?_) fun rest hnil => ?_
  · have h := (hall rest hnil).2 hinner
    rw [hyl] at h
    exact h.shaped
  · cases push with
    | nil =>
      cases rest with
      | nil => rfl
      | cons x rest =>
        cases x with
        | enter l =>
          show (leaves rest).tail = []
          rw [show leaves rest = [] from hnil]
          rfl
        | _ => exact hnil
    | cons x push =>
      have hx := (hpush x List.mem_cons_self).2
      show held (x :: (push ++ rest)) = []
      rw [hx.held]
      exact (hall rest hnil).1

/-- A critical section, entered where nothing is held. -/
theorem section_opens {s s' : QueueLocks} {l : Lock} {code : List LockStmt}
    (hactive : s'.active_ = s.active_) (hlists : s'.message_queues_ = s.message_queues_)
    (hlocks : s'.locks = s.locks)
    (hleaves : ∀ rest, leaves rest = [] → leaves (code ++ rest) = [l])
    (hinner : ∀ rest, leaves rest = [] → Inner s' rest → Inner s' (code ++ rest)) :
    Opens s s' (.enter l :: code) where
  active := hactive
  lists := hlists
  locks := hlocks
  nothing rest hnil := by
    show (leaves (code ++ rest)).tail = []
    rw [hleaves rest hnil]
    rfl
  shaped rest hnil hrest := by
    refine shaped_cons (H := []) ?_ ?_ (hinner rest hnil (hrest.same hactive)) fun k hk => ?_
    · cases l with
      | queue | manager => exact Or.inl rfl
    · show (leaves (code ++ rest)).tail = []
      rw [hleaves rest hnil]
      rfl
    · obtain rfl := LockStmt.enter.inj hk
      exact hleaves rest hnil

theorem enter_opens (own : QueueId) (s : QueueLocks) (m : LockCall) :
    Opens s (QueueLocks.enter own s m).1 (QueueLocks.enter own s m).2 := by
  have hpost : ∀ q, Opens s s [.enter (.queue q), .ensureActive q, .leave (.queue q)] := fun q => by
    refine section_opens rfl rfl rfl (fun rest hnil => ?_) fun rest hnil h => ⟨?_, trivial, h⟩
    all_goals
      show Lock.queue q :: leaves rest = _
      rw [hnil]
  cases m with
  | post q | doDelayPost q => exact hpost q
  | send q msg =>
    unfold QueueLocks.enter
    dsimp only
    split_ifs
    · exact plain_opens (by simp [LockStmt.leaves?, LockStmt.Fits])
    · refine section_opens rfl rfl rfl (fun rest hnil => ?_)
        fun rest hnil h => ⟨?_, trivial, trivial, hnil, h⟩
      all_goals
        show Lock.queue q :: leaves rest = _
        rw [hnil]
  | get | clear =>
    unfold QueueLocks.enter
    exact plain_opens (by simp [LockStmt.leaves?, LockStmt.Fits])
  | managerClear phandler =>
    obtain ⟨hact, hlists, hlocks⟩ := manager_same s
    refine section_opens hact hlists hlocks (fun rest hnil => ?_)
      fun rest hnil h => ⟨?_, trivial, h⟩
    all_goals
      show Lock.manager s.manager.1 :: leaves rest = _
      rw [hnil]
      rfl
  | destroy q =>
    refine plain_opens fun x hx => ?_
    rcases List.mem_append.1 hx with hx | hx
    · split_ifs at hx
      · rw [List.mem_singleton.1 hx]
        exact ⟨rfl, rfl⟩
      · cases hx
    · rw [List.mem_singleton.1 hx]
      exact ⟨rfl, rfl⟩

theorem resume_opens (own : QueueId) (s : QueueLocks) (x : LockStmt) (v : LockAns) :
    Opens s (QueueLocks.resume own s x v).1 (QueueLocks.resume own s x v).2 := by
  have hnone : Opens s s [] := plain_opens nofun
  cases x with
  | sendWait | getWait =>
    unfold QueueLocks.resume
    cases v <;> exact plain_opens (by simp [LockStmt.leaves?, LockStmt.Fits])
  | _ => exact hnone

/-- No lock is held at a foreign statement. -/
theorem foreign_fits {s : QueueLocks} {x : LockStmt} {H : List Lock}
    (hf : QueueLocks.foreign x = true) (h : x.Top s H) : H = [] ∧ x.leaves? = none := by
  cases x with
  | sendWait | dispatch | getWait | queueDestroyed => exact ⟨h, rfl⟩
  | _ => cases hf

theorem lockInv_step {a : Act LockCall LockAns} (h : lockInv.Holds c)
    (hs : step queueLocks c t a = some c') : lockInv.Holds c' := by
  have hfree : ∀ {x rest}, c.control t = x :: rest → QueueLocks.foreign x = true →
      leaves (x :: rest) = [] ∧ leaves rest = [] ∧ Inner c.state (x :: rest) ∧
        ∀ k, c.state.count t k = 0 := by
    intro x rest hc hf
    have hstack := h.stack t
    rw [hc] at hstack
    have hshaped := hstack.shaped x rest rfl
    obtain ⟨hH, hleaves⟩ := foreign_fits hf hshaped.top
    have hheld : held (x :: rest) = leaves (x :: rest) := by
      cases x with
      | enter l => cases hf
      | _ => rfl
    rw [hheld] at hH
    have hrest : leaves rest = [] := by
      unfold leaves at hH ⊢
      rw [List.filterMap_cons, hleaves] at hH
      exact hH
    refine ⟨hH, hrest, ⟨?_, hshaped.inner⟩, fun k => ?_⟩
    · have htop := hshaped.top
      rw [hheld] at htop
      cases x with
      | sendWait | dispatch | getWait | queueDestroyed => exact htop
      | _ => cases hf
    · have howned := hstack.owned k
      rw [hheld, hH] at howned
      exact howned.symm
  rcases step_cases hs with ⟨x, rest, r, rfl, hc, hf, hr, rfl⟩ | ⟨m, rfl, hw, rfl⟩ |
    ⟨v, x, rest, rfl, hc, hf, rfl⟩
  · have hstack := h.stack t
    rw [hc] at hstack
    have hrep := exec_replaces hstack h.global.1 hr
    refine h.put ⟨hrep.register.global h.global.1, hrep.entered h.global.2⟩ hrep.stack fun u hu hold => ?_
    refine hold.other hu hrep.register (fun k hk => ?_) (hrep.others u hu)
    rw [← hstack.owned k]
    exact List.count_pos_iff.2 hk
  · have hopens := enter_opens t c.state m
    cases hc : c.control t with
    | nil =>
      refine hopens.keeps h rfl trivial fun k => ?_
      have howned := (h.stack t).owned k
      rw [hc] at howned
      exact howned.symm
    | cons x rest =>
      obtain ⟨hnil, -, hinner, hcount⟩ := hfree hc (hw x (by rw [hc]; rfl))
      exact hopens.keeps h hnil hinner hcount
  · obtain ⟨-, hnil, hinner, hcount⟩ := hfree hc hf
    exact (resume_opens t c.state x v).keeps h hnil hinner.2 hcount

theorem lockInv_run {isThread : QueueId → Bool}
    (h : Reaches queueLocks anyStep (LockConf.init isThread) c) : lockInv.Holds c := by
  refine Reaches.invariant h ⟨⟨nofun, nofun⟩, fun t => ⟨nofun, fun k => rfl⟩⟩ fun c t a c' _ hI _ hs => ?_
  exact lockInv_step hI hs

/-! ## 5. Waiting -/

/-- The thread `t` waits for a lock that `u` holds. -/
def WaitsFor (c : LockConf) (t u : ThreadId) : Prop :=
  ∃ l rest n, c.control t = .enter l :: rest ∧ c.state.locks l = some (u, n) ∧ u ≠ t

/-- A thread that waits with the lock of a manager comes before one that waits with that of a
queue, and this one before one that waits with none. -/
def lockRank : List Lock → Nat
  | .manager _ :: _ => 1
  | .queue _ :: _ => 2
  | [] => 3

/-- The rank of a stack; 0 when it does not wait. -/
def waitRank : List LockStmt → Nat
  | .enter l :: rest =>
    if l ∈ held (.enter l :: rest) then 0 else lockRank (held (.enter l :: rest))
  | _ => 0

/-- The lock is held by the one, and not by the other. -/
theorem WaitsFor.holds (hinv : lockInv.Holds c) (h : WaitsFor c t u) :
    ∃ l rest, c.control t = .enter l :: rest ∧ l ∈ held (c.control u) ∧
      l ∉ held (c.control t) := by
  obtain ⟨l, rest, n, hc, hl, hut⟩ := h
  have hcount : ∀ v, c.state.count v l = if u = v then n else 0 := by
    intro v
    unfold QueueLocks.count
    rw [hl]
  refine ⟨l, rest, hc, List.count_pos_iff.1 ?_, fun hmem => ?_⟩
  · rw [(hinv.stack u).owned l, hcount u, if_pos rfl]
    exact hinv.global.2 l u n hl
  · have hpos := List.count_pos_iff.2 hmem
    rw [(hinv.stack t).owned l, hcount t, if_neg hut] at hpos
    exact Nat.lt_irrefl 0 hpos

/-- What the waiting thread holds determines its rank, and what the other one may wait for. -/
theorem rank_lt {s : QueueLocks} {l k : Lock} {H H' : List Lock}
    (ht : (LockStmt.enter l).Top s H) (hu : (LockStmt.enter k).Top s H') (hl : l ∉ H)
    (hl' : l ∈ H') (hk : k ∉ H') : lockRank H' < lockRank H := by
  have hpos : lockRank H' < 3 := by
    cases H' with
    | nil => cases hl'
    | cons y _ => cases y <;> simp [lockRank]
  cases l with
  | queue q =>
    rcases ht with rfl | rfl | ⟨j, rfl⟩ | ⟨j, rfl, hq⟩
    · exact hpos
    · exact absurd (List.mem_singleton_self _) hl
    · exact absurd List.mem_cons_self hl
    · -- the other one does not wait: it would be adding a queue of the list
      exfalso
      cases k with
      | queue r =>
        rcases hu with rfl | rfl | ⟨i, rfl⟩ | ⟨i, rfl, -⟩
        · cases hl'
        · exact hk (List.mem_singleton_self _)
        · exact hk List.mem_cons_self
        · cases List.mem_singleton.1 hl'
      | manager i =>
        rcases hu with rfl | ⟨r, rfl, hfresh⟩
        · cases hl'
        · obtain rfl := Lock.queue.inj (List.mem_singleton.1 hl')
          exact hfresh j hq
  | manager j =>
    rcases ht with rfl | ⟨q, rfl, -⟩
    · exact hpos
    · cases k with
      | queue r =>
        rcases hu with rfl | rfl | ⟨i, rfl⟩ | ⟨i, rfl, -⟩
        · cases hl'
        · cases List.mem_singleton.1 hl'
        · exact absurd List.mem_cons_self hk
        · exact Nat.lt_succ_self 1
      | manager i =>
        rcases hu with rfl | ⟨r, rfl, -⟩
        · cases hl'
        · cases List.mem_singleton.1 hl'

/-- A thread waits for one of a smaller rank. -/
theorem WaitsFor.rank (hinv : lockInv.Holds c) (h : WaitsFor c t u) :
    waitRank (c.control u) < waitRank (c.control t) := by
  obtain ⟨l, rest, hc, hu, ht⟩ := h.holds hinv
  have htop := ((hinv.stack t).shaped _ _ hc).top
  rw [hc] at ht ⊢
  have hrank : waitRank (.enter l :: rest) = lockRank (held (.enter l :: rest)) := if_neg ht
  rw [hrank]
  have hpos : 0 < lockRank (held (.enter l :: rest)) := by
    cases held (.enter l :: rest) with
    | nil => decide
    | cons y _ => cases y <;> simp [lockRank]
  cases hcu : c.control u with
  | nil => exact hpos
  | cons x r =>
    cases x with
    | enter k =>
      have htopu := ((hinv.stack u).shaped _ _ hcu).top
      rw [hcu] at hu
      by_cases hk : k ∈ held (.enter k :: r)
      · rw [waitRank, if_pos hk]
        exact hpos
      · rw [waitRank, if_neg hk]
        exact rank_lt htop htopu ht hu hk
    | _ => exact hpos

/-- In every run, no thread waits for itself through others. -/
theorem no_deadlock {isThread : QueueId → Bool}
    (h : Reaches queueLocks anyStep (LockConf.init isThread) c) (t : ThreadId) :
    ¬Relation.TransGen (WaitsFor c) t t := by
  have hinv := lockInv_run h
  have hrank : ∀ u, Relation.TransGen (WaitsFor c) t u →
      waitRank (c.control u) < waitRank (c.control t) := by
    intro u hu
    induction hu with
    | single hwait => exact hwait.rank hinv
    | tail _ hwait ih => exact (hwait.rank hinv).trans ih
  exact fun hcycle => Nat.lt_irrefl _ (hrank t hcycle)

end Runs

instance (c : LockConf) (t : ThreadId) (a : Act LockCall LockAns) : Decidable (anyStep c t a) :=
  .isTrue trivial

/-- Thread 1 clears all the queues and waits for the lock of queue 0, in which thread 2 posts;
thread 3 posts the first message of queue 5 and waits for the manager. -/
theorem no_deadlock_waits : ∃ c, Reaches queueLocks anyStep (LockConf.init fun _ => true) c ∧
    WaitsFor c 1 2 ∧ WaitsFor c 3 1 ∧ ¬Relation.TransGen (WaitsFor c) 1 1 := by
  obtain ⟨c, hc, hp⟩ := exists_of_follow (P := queueLocks) (K := anyStep)
    (c := LockConf.init fun _ => true)
    (l := [(2, .call (.post 0)), (2, .tick), (2, .tick), (2, .tick), (2, .tick), (2, .tick),
      (2, .tick), (1, .call (.managerClear (some 7))), (1, .tick), (1, .tick), (1, .tick),
      (2, .call (.post 0)), (2, .tick), (3, .call (.post 5)), (3, .tick), (3, .tick)])
    (p := fun c => (match c.control 1 with
        | .enter l :: _ => decide (c.state.locks l = some (2, 1))
        | _ => false) &&
      match c.control 3 with
        | .enter l :: _ => decide (c.state.locks l = some (1, 1))
        | _ => false) (by decide +kernel)
  obtain ⟨h₁, h₃⟩ := Bool.and_eq_true_iff.1 hp
  refine ⟨c, hc, ?_, ?_, no_deadlock hc 1⟩
  · split at h₁
    · rename_i l rest hl
      exact ⟨l, rest, 1, hl, of_decide_eq_true h₁, by decide⟩
    · cases h₁
  · split at h₃
    · rename_i l rest hl
      exact ⟨l, rest, 1, hl, of_decide_eq_true h₃, by decide⟩
    · cases h₃

end Gxmpp.TalkBase
