/-
On what the event loop selects, and whom it tells.

The sets of descriptors are zeroed once, and a bit that `select` has left is cleared only when its
dispatcher is told. A dispatcher that is removed before it is told leaves its bit for the next
`select`; and the removal of a dispatcher at or before the index moves the list under the index,
which is not one of `iterators_`, so that the next one is stepped over.
-/
import Gxmpp.SocketServer

set_option autoImplicit false

namespace Gxmpp.TalkBase

open Reentrant History PhysicalSocketServer

/-! ## 1. What is stated -/

/-- A dispatcher was added, and not removed since. -/
def Registered (log : List ServerEvent) (d : DispatcherId) : Prop :=
  ∃ l₁ l₂, log = l₁ ++ .added d :: l₂ ∧ .removed d ∉ l₂

/-- Events go to dispatchers that are registered. -/
def ToRegistered (log : List ServerEvent) : ServerEvent → Prop
  | .event d _ => Registered log d
  | _ => True

/-- `select` is given the descriptors that are requested by the dispatchers that are polled, and no
others; nobody is told of an event after `Remove`; and when the loop over the dispatchers ends, each
one that was reported has been told once. -/
structure LiveOnly (c : ServerConf) : Prop where
  read : c.control = [.select] → ∀ fd, fd ∈ c.state.fdsRead ↔
    ∃ d ∈ c.state.dispatchers_, c.state.Polled d ∧ c.state.WantsRead d ∧ c.state.descriptor d = fd
  write : c.control = [.select] → ∀ fd, fd ∈ c.state.fdsWrite ↔
    ∃ d ∈ c.state.dispatchers_, c.state.Polled d ∧ c.state.WantsWrite d ∧ c.state.descriptor d = fd
  registered : Lawful ToRegistered c.state.log
  once : c.control = [.dispatched] → ∀ d ∈ c.state.dispatchers_, d ∈ c.state.reported →
    c.state.received.count d = 1

/-- When a handler removes a dispatcher, its descriptor is not in a set; and if the dispatcher does
not come after the index, that of the next one is not either. -/
def RemovesQuietly (s : PhysicalSocketServer) (d : DispatcherId) : Prop :=
  ¬s.IsSet d ∧ (d ∈ s.dispatchers_.take (s.i + 1) → ∀ e ∈ s.dispatchers_[s.i + 1]?, ¬s.IsSet e)

def ServerCondition (c : ServerConf) : Act ServerCall ServerReply → Prop
  | .call (.remove d) => c.control = [.handlers] → RemovesQuietly c.state d
  | _ => True

/-- A step that is possible, and meets the condition. -/
def ServerStep (c : ServerConf) (a : Act ServerCall ServerReply) : Prop :=
  ServerRules c a ∧ ServerCondition c a

/-! ## 2. Lists under an index -/

section Index

variable {l : List DispatcherId} {x y : DispatcherId} {n : Nat}

/-- What lies ahead of an index when an entry is removed, and the entry at the index is not stepped
over. -/
theorem mem_drop_erase (hy : y ∈ l.drop n) (hne : y ≠ x)
    (hnext : x ∈ l.take n → ∀ z ∈ l[n]?, y ≠ z) : y ∈ (l.erase x).drop n := by
  have hn : n < l.length := by
    by_contra hle
    rw [List.drop_eq_nil_of_le (by omega)] at hy
    cases hy
  have hlen : (l.take n).length = n := List.length_take_of_le (by omega)
  have hsplit : l.take n ++ l.drop n = l := List.take_append_drop n l
  by_cases hx : x ∈ l.take n
  · have herase : l.erase x = (l.take n).erase x ++ l.drop n := by
      conv_lhs => rw [← hsplit]
      exact List.erase_append_left _ hx
    have hcons : l.drop n = l[n] :: l.drop (n + 1) := List.drop_eq_getElem_cons hn
    have htail : y ∈ l.drop (n + 1) := by
      rw [hcons] at hy
      exact (List.mem_cons.1 hy).resolve_left (hnext hx _ (List.getElem?_eq_getElem hn))
    have hlen' : ((l.take n).erase x).length = n - 1 := by
      rw [List.length_erase_of_mem hx, hlen]
    have hpos : 0 < n := by
      rw [← hlen]
      exact List.length_pos_of_mem hx
    rw [herase, List.drop_append, hlen', show n - (n - 1) = 1 by omega]
    refine List.mem_append_right _ ?_
    rw [hcons]
    exact htail
  · have herase : l.erase x = l.take n ++ (l.drop n).erase x := by
      conv_lhs => rw [← hsplit]
      exact List.erase_append_right _ hx
    rw [herase, List.drop_left' hlen]
    exact (List.mem_erase_of_ne hne).2 hy

/-- The entry at the index is not ahead of it. -/
theorem mem_drop_succ (hy : y ∈ l.drop n) (hx : l[n]? = some x) (hne : y ≠ x) :
    y ∈ l.drop (n + 1) := by
  obtain ⟨hn, rfl⟩ := List.getElem?_eq_some_iff.1 hx
  rw [List.drop_eq_getElem_cons hn] at hy
  exact (List.mem_cons.1 hy).resolve_left hne

end Index

/-! ## 3. The log -/

section Log

variable {log : List ServerEvent} {d : DispatcherId} {e : ServerEvent}

theorem Registered.snoc (h : Registered log d) (he : e ≠ .removed d) :
    Registered (log ++ [e]) d := by
  obtain ⟨l₁, l₂, rfl, hnot⟩ := h
  refine ⟨l₁, l₂ ++ [e], by simp, fun hmem => ?_⟩
  rcases List.mem_append.1 hmem with hmem | hmem
  · exact hnot hmem
  · exact he (List.mem_singleton.1 hmem).symm

theorem Registered.added : Registered (log ++ [.added d]) d := ⟨log, [], rfl, nofun⟩

end Log

/-! ## 4. The invariant -/

/-- The dispatchers are registered, and their descriptors are open and so distinct. -/
structure Orderly (s : PhysicalSocketServer) : Prop where
  distinct : ∀ d ∈ s.dispatchers_, ∀ e ∈ s.dispatchers_, s.descriptor d = s.descriptor e → d = e
  registered : ∀ d ∈ s.dispatchers_, Registered s.log d
  lawful : Lawful ToRegistered s.log

/-- The loop over the dispatchers, which goes on at `next`: the bits that are left are those of
dispatchers ahead, and the others that were reported have been told. -/
structure Pass (s : PhysicalSocketServer) (next : Nat) : Prop where
  ahead : ∀ x, x ∈ s.fdsRead ∨ x ∈ s.fdsWrite → ∃ d ∈ s.dispatchers_.drop next, s.descriptor d = x
  fresh : ∀ d ∈ s.dispatchers_, s.IsSet d → d ∉ s.received
  served : ∀ d ∈ s.reported,
    (d ∈ s.dispatchers_ ∧ s.IsSet d ∧ d ∉ s.received) ∨ s.received.count d = 1

/-- The sets are what the dispatchers request. -/
structure Exact (s : PhysicalSocketServer) : Prop where
  read : ∀ fd, fd ∈ s.fdsRead ↔
    ∃ d ∈ s.dispatchers_, s.Polled d ∧ s.WantsRead d ∧ s.descriptor d = fd
  write : ∀ fd, fd ∈ s.fdsWrite ↔
    ∃ d ∈ s.dispatchers_, s.Polled d ∧ s.WantsWrite d ∧ s.descriptor d = fd

/-- The invariant of each place in `Wait`. -/
def Standing (s : PhysicalSocketServer) : List ServerStmt → Prop
  | [] => True
  | [.poll] => s.fdsRead = ∅ ∧ s.fdsWrite = ∅
  | [.select] => Exact s
  | [.dispatch] => Pass s s.i
  | [.examine d] => Pass s s.i ∧ s.dispatchers_[s.i]? = some d ∧ s.IsSet d
  | [.handlers] => Pass s (s.i + 1)
  | [.dispatched] => (s.fdsRead = ∅ ∧ s.fdsWrite = ∅) ∧ ∀ d ∈ s.reported, s.received.count d = 1
  | _ => False

/-- `Wait` is not entered twice. -/
theorem Standing.single {s : PhysicalSocketServer} {x : ServerStmt} {rest : List ServerStmt}
    (h : Standing s (x :: rest)) : rest = [] := by
  cases rest with
  | nil => rfl
  | cons y rest => cases x <;> exact h.elim

variable {s : PhysicalSocketServer} {d : DispatcherId} {fd next : Nat}

/-! ## 5. The loops -/

theorem mem_setOne (s : PhysicalSocketServer) (fds : Finset Nat × Finset Nat) (d : DispatcherId)
    (fd : Nat) :
    (fd ∈ (s.set fds d).1 ↔ fd ∈ fds.1 ∨ (s.Polled d ∧ s.WantsRead d ∧ s.descriptor d = fd)) ∧
    (fd ∈ (s.set fds d).2 ↔ fd ∈ fds.2 ∨ (s.Polled d ∧ s.WantsWrite d ∧ s.descriptor d = fd)) := by
  have hinsert : ∀ (p : Prop) [Decidable p] (set : Finset Nat),
      fd ∈ (if p then insert (s.descriptor d) set else set) ↔
        fd ∈ set ∨ (p ∧ s.descriptor d = fd) := fun p _ set => by
    by_cases hp : p
    · rw [if_pos hp, Finset.mem_insert, or_comm, eq_comm, and_iff_right hp]
    · rw [if_neg hp]
      exact (or_iff_left fun h => hp h.1).symm
  unfold PhysicalSocketServer.set
  by_cases hpolled : s.Polled d
  · rw [if_pos hpolled, and_iff_right hpolled, and_iff_right hpolled]
    exact ⟨hinsert _ fds.1, hinsert _ fds.2⟩
  · rw [if_neg hpolled]
    exact ⟨(or_iff_left fun h => hpolled h.1).symm, (or_iff_left fun h => hpolled h.1).symm⟩

/-- The loop that sets the descriptors. -/
theorem mem_set (s : PhysicalSocketServer) (list : List DispatcherId)
    (fds : Finset Nat × Finset Nat) (fd : Nat) :
    (fd ∈ (list.foldl s.set fds).1 ↔ fd ∈ fds.1 ∨
      ∃ d ∈ list, s.Polled d ∧ s.WantsRead d ∧ s.descriptor d = fd) ∧
    (fd ∈ (list.foldl s.set fds).2 ↔ fd ∈ fds.2 ∨
      ∃ d ∈ list, s.Polled d ∧ s.WantsWrite d ∧ s.descriptor d = fd) := by
  induction list generalizing fds with
  | nil => simp
  | cons d list ih =>
    obtain ⟨hread, hwrite⟩ := ih (s.set fds d)
    rw [List.foldl_cons, hread, hwrite, (mem_setOne s fds d fd).1, (mem_setOne s fds d fd).2,
      List.exists_mem_cons_iff, List.exists_mem_cons_iff, or_assoc, or_assoc]
    exact ⟨Iff.rfl, Iff.rfl⟩

theorem exact_setAll (hread : s.fdsRead = ∅) (hwrite : s.fdsWrite = ∅) : Exact s.setAll where
  read fd := (mem_set s s.dispatchers_ (s.fdsRead, s.fdsWrite) fd).1.trans <|
    or_iff_right (by rw [hread]; exact Finset.notMem_empty fd)
  write fd := (mem_set s s.dispatchers_ (s.fdsRead, s.fdsWrite) fd).2.trans <|
    or_iff_right (by rw [hwrite]; exact Finset.notMem_empty fd)

/-- What `select` leaves. -/
theorem Exact.selected {reply : ServerReply} (h : Exact s) (hr : reply.fdsRead ⊆ s.fdsRead)
    (hw : reply.fdsWrite ⊆ s.fdsWrite) :
    Pass (s.selected reply).1 (s.selected reply).1.i where
  ahead x hx := by
    rcases hx with hx | hx
    · obtain ⟨d, hd, -, -, hfd⟩ := (h.read x).1 (hr hx)
      exact ⟨d, hd, hfd⟩
    · obtain ⟨d, hd, -, -, hfd⟩ := (h.write x).1 (hw hx)
      exact ⟨d, hd, hfd⟩
  fresh d _ _ := nofun
  served d hd := by
    obtain ⟨hmem, hset⟩ := List.mem_filter.1 hd
    exact .inl ⟨hmem, of_decide_eq_true hset, nofun⟩

/-- A dispatcher whose descriptor is in neither set is passed over. -/
theorem Pass.skip (h : Pass s s.i) (hd : s.dispatchers_[s.i]? = some d) (hset : ¬s.IsSet d) :
    Pass { s with i := s.i + 1 } (s.i + 1) where
  ahead x hx := by
    obtain ⟨e, he, rfl⟩ := h.ahead x hx
    refine ⟨e, mem_drop_succ he hd ?_, rfl⟩
    rintro rfl
    exact hset hx
  fresh := h.fresh
  served := h.served

/-- The end of the list is reached. -/
theorem Pass.finish (h : Pass s s.i) (hend : s.dispatchers_[s.i]? = none) :
    (s.fdsRead = ∅ ∧ s.fdsWrite = ∅) ∧ ∀ d ∈ s.reported, s.received.count d = 1 := by
  have hnone : ∀ x, ¬(x ∈ s.fdsRead ∨ x ∈ s.fdsWrite) := fun x hx => by
    obtain ⟨d, hd, -⟩ := h.ahead x hx
    rw [List.drop_eq_nil_of_le (List.getElem?_eq_none_iff.1 hend)] at hd
    cases hd
  refine ⟨⟨Finset.eq_empty_of_forall_notMem fun x hx => hnone x (.inl hx),
    Finset.eq_empty_of_forall_notMem fun x hx => hnone x (.inr hx)⟩, fun d hd => ?_⟩
  exact (h.served d hd).resolve_left fun hleft => hnone _ hleft.2.1

/-- A dispatcher is told. -/
theorem Pass.tell {reply : ServerReply} (h : Pass s s.i) (ho : Orderly s)
    (hd : s.dispatchers_[s.i]? = some d) (hset : s.IsSet d) :
    Pass (s.tell d reply) (s.i + 1) := by
  have hmem : d ∈ s.dispatchers_ := List.mem_of_getElem? hd
  have hkeep : ∀ x, (x ∈ (s.tell d reply).fdsRead ∨ x ∈ (s.tell d reply).fdsWrite) ↔
      x ≠ s.descriptor d ∧ (x ∈ s.fdsRead ∨ x ∈ s.fdsWrite) := fun x => by
    change (x ∈ s.fdsRead.erase _ ∨ x ∈ s.fdsWrite.erase _) ↔ _
    rw [Finset.mem_erase, Finset.mem_erase, ← and_or_left]
  refine ⟨fun x hx => ?_, fun e he hset' => ?_, fun e he => ?_⟩
  · obtain ⟨hne, hx⟩ := (hkeep x).1 hx
    obtain ⟨e, he, rfl⟩ := h.ahead x hx
    exact ⟨e, mem_drop_succ he hd fun heq => hne (by rw [heq]), rfl⟩
  · obtain ⟨hne, hset'⟩ := (hkeep _).1 hset'
    refine fun hrec => (List.mem_cons.1 hrec).elim (fun heq => hne (by rw [heq]; rfl)) ?_
    exact h.fresh e he hset'
  · by_cases heq : e = d
    · subst heq
      right
      change (e :: s.received).count e = 1
      rw [List.count_cons_self, List.count_eq_zero.2 (h.fresh e hmem hset)]
    · rcases h.served e he with ⟨hemem, heset, hrec⟩ | hcount
      · have hne : s.descriptor e ≠ s.descriptor d := fun hfd => heq (ho.distinct e hemem d hmem hfd)
        refine .inl ⟨hemem, (hkeep _).2 ⟨hne, heset⟩, ?_⟩
        exact fun hmem' => (List.mem_cons.1 hmem').elim heq hrec
      · right
        change (d :: s.received).count e = 1
        rw [List.count_cons_of_ne (Ne.symm heq)]
        exact hcount

/-! ## 6. What the handlers do -/

/-- The call of a new dispatcher. -/
theorem enter_add_new (h : d ∉ s.dispatchers_) : (s.enter (.add d fd)).1 = { s with
    descriptor := Function.update s.descriptor d fd
    dispatchers_ := s.dispatchers_ ++ [d]
    log := s.log ++ [.added d] } := by
  unfold PhysicalSocketServer.enter PhysicalSocketServer.Add
  exact if_neg h

theorem enter_add_old (h : d ∈ s.dispatchers_) (hfd : fd = s.descriptor d) :
    (s.enter (.add d fd)).1 = s := by
  unfold PhysicalSocketServer.enter PhysicalSocketServer.Add
  dsimp only
  rw [if_pos h, hfd, Function.update_eq_self]

/-- The others keep their descriptors. -/
theorem update_descriptor (h : d ∉ s.dispatchers_) {e : DispatcherId} (he : e ∈ s.dispatchers_) :
    Function.update s.descriptor d fd e = s.descriptor e :=
  Function.update_of_ne (by rintro rfl; exact h he) fd s.descriptor

theorem Orderly.add (h : Orderly s) (hnew : d ∉ s.dispatchers_)
    (hfd : ∀ e ∈ s.dispatchers_, s.descriptor e ≠ fd) : Orderly (s.enter (.add d fd)).1 := by
  rw [enter_add_new hnew]
  refine ⟨fun x hx y hy heq => ?_, fun x hx => ?_, h.lawful.snoc trivial⟩
  · dsimp only at hx hy heq
    rcases List.mem_append.1 hx with hxold | hxnew <;>
      rcases List.mem_append.1 hy with hyold | hynew
    · rw [update_descriptor hnew hxold, update_descriptor hnew hyold] at heq
      exact h.distinct x hxold y hyold heq
    · rw [List.mem_singleton.1 hynew, update_descriptor hnew hxold, Function.update_self] at heq
      exact absurd heq (hfd x hxold)
    · rw [List.mem_singleton.1 hxnew, update_descriptor hnew hyold, Function.update_self] at heq
      exact absurd heq.symm (hfd y hyold)
    · rw [List.mem_singleton.1 hxnew, List.mem_singleton.1 hynew]
  · rcases List.mem_append.1 hx with hxold | hxnew
    · exact (h.registered x hxold).snoc nofun
    · rw [List.mem_singleton.1 hxnew]
      exact .added

theorem Pass.add (h : Pass s next) (hnew : d ∉ s.dispatchers_)
    (hfd : ∀ e ∈ s.dispatchers_, s.descriptor e ≠ fd) : Pass (s.enter (.add d fd)).1 next := by
  rw [enter_add_new hnew]
  have hbits : ¬(fd ∈ s.fdsRead ∨ fd ∈ s.fdsWrite) := fun hx => by
    obtain ⟨e, he, hefd⟩ := h.ahead fd hx
    exact hfd e (List.mem_of_mem_drop he) hefd
  refine ⟨fun x hx => ?_, fun e he hset => ?_, fun e he => ?_⟩
  · obtain ⟨e, he, rfl⟩ := h.ahead x hx
    refine ⟨e, ?_, update_descriptor hnew (List.mem_of_mem_drop he)⟩
    dsimp only
    rw [List.drop_append]
    exact List.mem_append_left _ he
  · unfold IsSet at hset
    dsimp only at he hset ⊢
    rcases List.mem_append.1 he with he | he
    · rw [update_descriptor hnew he] at hset
      exact h.fresh e he hset
    · rw [List.mem_singleton.1 he, Function.update_self] at hset
      exact absurd hset hbits
  · refine (h.served e he).imp_left fun ⟨hmem, hset, hrec⟩ =>
      ⟨List.mem_append_left _ hmem, ?_, hrec⟩
    unfold IsSet
    dsimp only
    rw [update_descriptor hnew hmem]
    exact hset

theorem Orderly.remove (h : Orderly s) (hd : d ∉ s.dispatchers_.erase d) :
    Orderly (s.Remove d) := by
  have hold : ∀ x ∈ (s.Remove d).dispatchers_, x ∈ s.dispatchers_ := fun _ => List.mem_of_mem_erase
  refine ⟨fun x hx y hy => h.distinct x (hold x hx) y (hold y hy), fun x hx => ?_,
    h.lawful.snoc trivial⟩
  refine (h.registered x (hold x hx)).snoc fun heq => hd ?_
  obtain rfl : d = x := ServerEvent.removed.inj heq
  exact hx

theorem Pass.remove (h : Pass s next) (hset : ¬s.IsSet d)
    (hnext : d ∈ s.dispatchers_.take next → ∀ e ∈ s.dispatchers_[next]?, ¬s.IsSet e) :
    Pass (s.Remove d) next where
  ahead x hx := by
    obtain ⟨e, he, rfl⟩ := h.ahead x hx
    have hne : e ≠ d := fun heq => hset (heq ▸ hx)
    exact ⟨e, mem_drop_erase he hne fun hd z hz heq => hnext hd z hz (heq ▸ hx), rfl⟩
  fresh e he := h.fresh e (List.mem_of_mem_erase he)
  served e he := (h.served e he).imp_left fun ⟨hmem, heset, hrec⟩ =>
    ⟨(List.mem_erase_of_ne fun heq => hset (by rw [← heq]; exact heset)).2 hmem, heset, hrec⟩

/-! ## 7. Runs -/

/-- The invariant of `Wait`. -/
structure Polling (c : ServerConf) : Prop where
  orderly : Orderly c.state
  nodup : c.state.dispatchers_.Nodup
  place : Standing c.state c.control

/-- `Wait` goes on. -/
theorem Polling.exec {x : ServerStmt} {p : PhysicalSocketServer × List ServerStmt}
    (h : Polling ⟨s, [x]⟩) (hexec : s.exec x = some p) : Polling ⟨p.1, p.2⟩ := by
  have horderly : Orderly s := h.orderly
  cases x with
  | poll =>
    obtain ⟨hread, hwrite⟩ := h.place
    obtain rfl := Option.some.inj hexec
    cases hwait : s.fWait_ with
    | true => exact ⟨{ horderly with }, h.nodup,
        exact_setAll hread hwrite⟩
    | false => exact ⟨horderly, h.nodup, trivial⟩
  | dispatch =>
    have hpass : Pass s s.i := h.place
    unfold PhysicalSocketServer.exec at hexec
    cases hd : s.dispatchers_[s.i]? with
    | none =>
      rw [hd] at hexec
      obtain rfl := Option.some.inj hexec
      exact ⟨horderly, h.nodup, hpass.finish hd⟩
    | some d =>
      rw [hd] at hexec
      obtain rfl := Option.some.inj hexec
      by_cases hset : s.IsSet d
      · rw [if_pos hset]
        exact ⟨horderly, h.nodup, hpass, hd, hset⟩
      · rw [if_neg hset]
        exact ⟨{ horderly with }, h.nodup,
          hpass.skip hd hset⟩
  | dispatched =>
    obtain rfl := Option.some.inj hexec
    exact ⟨horderly, h.nodup, h.place.1⟩
  | select | examine | handlers => cases hexec

/-- The operating system answers, or the handlers return. -/
theorem Polling.resume {x : ServerStmt} {reply : ServerReply} (h : Polling ⟨s, [x]⟩)
    (hreply : ServerRules ⟨s, [x]⟩ (.ret reply)) :
    Polling ⟨(s.resume x reply).1, (s.resume x reply).2⟩ := by
  have horderly : Orderly s := h.orderly
  cases x with
  | select =>
    have hexact : Exact s := h.place
    obtain ⟨hread, hwrite⟩ := hreply rfl
    have hpass : Pass (s.selected reply).1 (s.selected reply).1.i := hexact.selected hread hwrite
    refine ⟨{ horderly with }, h.nodup, ?_⟩
    change Standing (s.selected reply).1 (if (s.selected reply).2 then [.dispatch] else [])
    cases (s.selected reply).2 with
    | true => exact hpass
    | false => trivial
  | examine d =>
    obtain ⟨hpass, hd, hset⟩ := h.place
    have hmem : d ∈ s.dispatchers_ := List.mem_of_getElem? hd
    refine ⟨⟨horderly.distinct, fun e he => (horderly.registered e he).snoc nofun,
      horderly.lawful.snoc (horderly.registered d hmem)⟩, h.nodup, hpass.tell horderly hd hset⟩
  | handlers =>
    have hpass : Pass s (s.i + 1) := h.place
    exact ⟨{ horderly with }, h.nodup,
      { hpass with }⟩
  | poll | dispatch | dispatched => exact ⟨horderly, h.nodup, trivial⟩

/-- What is called when `Wait` does not run, or from handlers, keeps the place. -/
theorem Standing.call {t : PhysicalSocketServer} {control : List ServerStmt}
    (hcontrol : control = [] ∨ control = [.handlers]) (h : Standing s control)
    (hpass : control = [.handlers] → Pass s (s.i + 1) → Pass t (t.i + 1)) : Standing t control := by
  rcases hcontrol with rfl | rfl
  · trivial
  · exact hpass rfl h

theorem Polling.call {control : List ServerStmt} {m : ServerCall} (h : Polling ⟨s, control⟩)
    (hrules : ServerCallRules ⟨s, control⟩ m) (hcond : ServerCondition ⟨s, control⟩ (.call m)) :
    Polling ⟨(s.enter m).1, (s.enter m).2 ++ control⟩ := by
  have horderly : Orderly s := h.orderly
  cases m with
  | wait process_io =>
    obtain rfl : control = [] := hrules
    exact ⟨{ horderly with }, h.nodup, rfl, rfl⟩
  | add d fd =>
    obtain ⟨hcontrol, hfd⟩ := hrules
    by_cases hd : d ∈ s.dispatchers_
    · rw [if_pos hd] at hfd
      have heq : (s.enter (.add d fd)).1 = s := enter_add_old hd hfd
      rw [heq]
      exact h
    · rw [if_neg hd] at hfd
      refine ⟨horderly.add hd hfd, ?_, h.place.call hcontrol fun _ hpass => ?_⟩
      · rw [enter_add_new hd]
        exact h.nodup.append (List.nodup_singleton d) (List.disjoint_singleton.2 hd)
      · have hadd : Pass (s.enter (.add d fd)).1 (s.i + 1) := hpass.add hd hfd
        rw [enter_add_new hd] at hadd ⊢
        exact hadd
  | remove d =>
    obtain ⟨hcontrol, hd⟩ := hrules
    refine ⟨horderly.remove fun hmem => ?_, h.nodup.erase d,
      h.place.call hcontrol fun hc hpass => ?_⟩
    · exact ((List.Nodup.mem_erase_iff h.nodup).1 hmem).1 rfl
    · obtain ⟨hset, hnext⟩ := hcond hc
      exact hpass.remove hset hnext
  | request | wakeUp =>
    refine ⟨{ horderly with }, h.nodup,
      h.place.call hrules fun _ hpass => { hpass with }⟩

/-- One step that meets the condition. -/
theorem Polling.step {c c' : ServerConf} {a : Act ServerCall ServerReply} (h : Polling c)
    (hk : ServerStep c a) (hs : socketServer.step c a = some c') : Polling c' := by
  obtain ⟨hrules, hcond⟩ := hk
  obtain ⟨s, control⟩ := c
  rcases step_cases hs with ⟨x, rest, r, rfl, hcontrol, hforeign, hexec, rfl⟩ |
    ⟨m, rfl, hw, rfl⟩ | ⟨reply, x, rest, rfl, hcontrol, hforeign, rfl⟩
  · obtain rfl : control = x :: rest := hcontrol
    obtain rfl : rest = [] := h.place.single
    rw [List.append_nil]
    exact h.exec hexec
  · exact h.call hrules hcond
  · obtain rfl : control = x :: rest := hcontrol
    obtain rfl : rest = [] := h.place.single
    rw [List.append_nil]
    exact h.resume hrules

theorem Polling.liveOnly {c : ServerConf} (h : Polling c) : LiveOnly c where
  read hc := by
    have hplace : Standing c.state c.control := h.place
    rw [hc] at hplace
    exact hplace.read
  write hc := by
    have hplace : Standing c.state c.control := h.place
    rw [hc] at hplace
    exact hplace.write
  registered := h.orderly.lawful
  once hc d _ hd := by
    have hplace : Standing c.state c.control := h.place
    rw [hc] at hplace
    exact hplace.2 d hd

/-- A new server. -/
def ServerConf.init (signal_wakeup : DispatcherId) (descriptor : DispatcherId → Nat)
    (requested : DispatcherId → Finset DispatcherEvent) : ServerConf :=
  ⟨PhysicalSocketServer.init signal_wakeup descriptor requested, []⟩

variable {w : DispatcherId} {descriptor : DispatcherId → Nat}
  {requested : DispatcherId → Finset DispatcherEvent}

theorem Polling.init : Polling (ServerConf.init w descriptor requested) where
  orderly := by
    refine ⟨fun d hd e he _ => ?_, fun d hd => ?_, ?_⟩
    · rw [List.mem_singleton.1 hd, List.mem_singleton.1 he]
    · rw [List.mem_singleton.1 hd]
      exact ⟨[], [], rfl, nofun⟩
    · exact Lawful.nil.snoc trivial
  nodup := List.nodup_singleton w
  place := trivial

/-- In a run in which handlers remove dispatchers quietly, `Wait` selects on what is requested, and
each dispatcher that is reported is told once. -/
theorem selects_live_descriptors {c : ServerConf}
    (h : socketServer.ReachesWhen ServerStep (ServerConf.init w descriptor requested) c) :
    LiveOnly c :=
  Polling.liveOnly <| ReachesWhen.invariant (I := Polling) h .init fun _ _ _ _ ih hk hs => ih.step hk hs

instance (c : ServerConf) : ∀ m, Decidable (ServerCallRules c m)
  | .wait _ => inferInstanceAs (Decidable (c.control = []))
  | .add _ _ | .remove _ => inferInstanceAs (Decidable (_ ∧ _))
  | .request _ _ | .wakeUp => inferInstanceAs (Decidable (_ ∨ _))

instance (c : ServerConf) : ∀ a, Decidable (ServerRules c a)
  | .tick => .isTrue trivial
  | .call m => inferInstanceAs (Decidable (ServerCallRules c m))
  | .ret _ => inferInstanceAs (Decidable (_ → _))

instance (s : PhysicalSocketServer) (d : DispatcherId) : Decidable (RemovesQuietly s d) :=
  inferInstanceAs (Decidable (_ ∧ _))

instance (c : ServerConf) : ∀ a, Decidable (ServerCondition c a)
  | .call (.remove _) => inferInstanceAs (Decidable (_ → _))
  | .call (.wait _) | .call (.add _ _) | .call (.request _ _) | .call .wakeUp => .isTrue trivial
  | .tick | .ret _ => .isTrue trivial

instance (c : ServerConf) (a : Act ServerCall ServerReply) : Decidable (ServerStep c a) :=
  inferInstanceAs (Decidable (_ ∧ _))

/-- All dispatchers request `DE_READ`. -/
def readers : ServerConf := ServerConf.init 0 id fun _ => {.read}

/-- `select` finds both of two dispatchers readable, and the first is told. -/
def firstTold : List (Act ServerCall ServerReply) :=
  [.call (.add 1 3), .call (.add 2 4), .call (.wait true), .tick, .ret ⟨{3, 4}, ∅, false, false⟩,
    .tick, .tick, .ret ⟨∅, ∅, false, false⟩]

/-- The second removes the first when both have been told. -/
theorem selects_live_descriptors_removed : ∃ c, socketServer.ReachesWhen ServerStep readers c ∧
    (c.control = [.select] ∧ c.state.fdsRead = {0, 4}) ∧ LiveOnly c := by
  obtain ⟨c, hc, hp⟩ := exists_of_follow (P := socketServer) (K := ServerStep) (c := readers)
    (l := firstTold ++ [.ret ⟨∅, ∅, false, false⟩, .tick, .ret ⟨∅, ∅, false, false⟩,
      .call (.remove 1), .ret ⟨∅, ∅, false, false⟩, .tick, .tick, .tick])
    (p := fun c => decide (c.control = [.select] ∧ c.state.fdsRead = {0, 4})) (by decide +kernel)
  exact ⟨c, hc, of_decide_eq_true hp, selects_live_descriptors hc⟩

/-- The first removes itself, and the second is stepped over. The first removes the second, and the
next `select` is given the descriptor that the second had. -/
theorem selects_dead_descriptors :
    (∃ c, socketServer.ReachesWhen ServerRules readers c ∧ c.control = [.dispatched] ∧
      2 ∈ c.state.dispatchers_ ∧ 2 ∈ c.state.reported ∧ c.state.received.count 2 = 0) ∧
    ∃ c, socketServer.ReachesWhen ServerRules readers c ∧ c.control = [.select] ∧
      4 ∈ c.state.fdsRead ∧ ∀ d ∈ c.state.dispatchers_, c.state.descriptor d ≠ 4 := by
  refine ⟨?_, ?_⟩
  · obtain ⟨c, hc, hp⟩ := exists_of_follow (P := socketServer) (K := ServerRules) (c := readers)
      (l := firstTold ++ [.call (.remove 1), .ret ⟨∅, ∅, false, false⟩, .tick])
      (p := fun c => decide (c.control = [.dispatched] ∧ 2 ∈ c.state.dispatchers_ ∧
        2 ∈ c.state.reported ∧ c.state.received.count 2 = 0)) (by decide +kernel)
    exact ⟨c, hc, of_decide_eq_true hp⟩
  · obtain ⟨c, hc, hp⟩ := exists_of_follow (P := socketServer) (K := ServerRules) (c := readers)
      (l := firstTold ++ [.call (.remove 2), .ret ⟨∅, ∅, false, false⟩, .tick, .tick, .tick])
      (p := fun c => decide (c.control = [.select] ∧ 4 ∈ c.state.fdsRead ∧
        ∀ d ∈ c.state.dispatchers_, c.state.descriptor d ≠ 4)) (by decide +kernel)
    exact ⟨c, hc, of_decide_eq_true hp⟩

end Gxmpp.TalkBase
