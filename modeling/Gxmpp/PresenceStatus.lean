/-
`talk/xmpp/presencestatus.h/.cc`: what is known of the presence of somebody.

`UpdateWith` takes over all of a new value, except that the capabilities stay where the new
value does not know them. It saves and restores four fields by hand, and the three flags of
`pmuc`, `video` and `camera` are not among them. So a run of updates keeps the capabilities just
where the last value has the same three flags as the last one that knew (`caps_persist_iff`).

`TrimStatus` squeezes the blanks of a string in place. It counts the characters it reads in an
`unsigned int` and those it writes in an `int`, so it is right for the strings that these can
count (`trim_status_iff`).
-/
import Gxmpp.Jid
import Gxmpp.Walking
import Gxmpp.Words

set_option autoImplicit false

namespace Gxmpp

/-- `PresenceStatus::Show`. -/
inductive Show where
  | none
  | offline
  | xa
  | away
  | dnd
  | online
  | chat
deriving DecidableEq

/-- `PresenceStatus`. -/
structure PresenceStatus where
  jid_ : Jid
  pri_ : Int
  show_ : Show
  status_ : Str
  nick_ : Str
  available_ : Bool
  e_code_ : Int
  e_str_ : Str
  feedback_probation_ : Bool
  know_capabilities_ : Bool
  voice_capability_ : Bool
  pmuc_capability_ : Bool
  video_capability_ : Bool
  camera_capability_ : Bool
  caps_node_ : Str
  version_ : Str
  sent_time_ : Str
deriving DecidableEq

namespace PresenceStatus

/-- `PresenceStatus::PresenceStatus`. -/
def init : PresenceStatus where
  jid_ := Jid.empty
  pri_ := 0
  show_ := .none
  status_ := STR_EMPTY
  nick_ := STR_EMPTY
  available_ := false
  e_code_ := 0
  e_str_ := STR_EMPTY
  feedback_probation_ := false
  know_capabilities_ := false
  voice_capability_ := false
  pmuc_capability_ := false
  video_capability_ := false
  camera_capability_ := false
  caps_node_ := STR_EMPTY
  version_ := STR_EMPTY
  sent_time_ := STR_EMPTY

/-! ## 1. Updates -/

/-- `PresenceStatus::UpdateWith`. -/
def updateWith (s new_value : PresenceStatus) : PresenceStatus :=
  if !new_value.know_capabilities_ then
    { new_value with
      know_capabilities_ := s.know_capabilities_
      caps_node_ := s.caps_node_
      voice_capability_ := s.voice_capability_
      version_ := s.version_ }
  else new_value

/-- The value after some updates. -/
def updateAll (s : PresenceStatus) (updates : List PresenceStatus) : PresenceStatus :=
  updates.foldl updateWith s

end PresenceStatus

/-- The capabilities. -/
structure Capabilities where
  know_capabilities : Bool
  caps_node : Str
  version : Str
  voice : Bool
  pmuc : Bool
  video : Bool
  camera : Bool
deriving DecidableEq

namespace PresenceStatus

/-- The capability fields. -/
def capabilities (s : PresenceStatus) : Capabilities where
  know_capabilities := s.know_capabilities_
  caps_node := s.caps_node_
  version := s.version_
  voice := s.voice_capability_
  pmuc := s.pmuc_capability_
  video := s.video_capability_
  camera := s.camera_capability_

/-- All the other fields: the capabilities are those of an initial value. -/
def withoutCapabilities (s : PresenceStatus) : PresenceStatus :=
  { s with
    know_capabilities_ := false
    caps_node_ := STR_EMPTY
    version_ := STR_EMPTY
    voice_capability_ := false
    pmuc_capability_ := false
    video_capability_ := false
    camera_capability_ := false }

/-- The flags that `UpdateWith` does not save. -/
def unsaved (s : PresenceStatus) : Bool × Bool × Bool :=
  (s.pmuc_capability_, s.video_capability_, s.camera_capability_)

/-- What `UpdateWith` saves. -/
def saved (s : PresenceStatus) : Bool × Str × Bool × Str :=
  (s.know_capabilities_, s.caps_node_, s.voice_capability_, s.version_)

theorem capabilities_eq_iff (s t : PresenceStatus) :
    s.capabilities = t.capabilities ↔ s.saved = t.saved ∧ s.unsaved = t.unsaved := by
  simp only [capabilities, saved, unsaved, Capabilities.mk.injEq, Prod.mk.injEq]
  constructor
  · rintro ⟨hknow, hnode, hversion, hvoice, hflags⟩
    exact ⟨⟨hknow, hnode, hvoice, hversion⟩, hflags⟩
  · rintro ⟨⟨hknow, hnode, hvoice, hversion⟩, hflags⟩
    exact ⟨hknow, hnode, hversion, hvoice, hflags⟩

/-- The last value that knew its capabilities. -/
def lastKnowing (l : List PresenceStatus) : Option PresenceStatus :=
  (l.filter know_capabilities_).getLast?

theorem lastKnowing_concat (l : List PresenceStatus) (s : PresenceStatus) :
    lastKnowing (l ++ [s]) = if s.know_capabilities_ then some s else lastKnowing l := by
  unfold lastKnowing
  rw [List.filter_append]
  cases hs : s.know_capabilities_ with
  | true => rw [List.filter_cons_of_pos hs, List.filter_nil, List.getLast?_concat, if_pos rfl]
  | false =>
    rw [List.filter_cons_of_neg (by rw [hs]; exact Bool.false_ne_true), List.filter_nil,
      List.append_nil, if_neg Bool.false_ne_true]

/-- An update, field by field. -/
theorem updateWith_spec (s new_value : PresenceStatus) :
    (s.updateWith new_value).withoutCapabilities = new_value.withoutCapabilities ∧
    (s.updateWith new_value).unsaved = new_value.unsaved ∧
    (s.updateWith new_value).saved =
      if new_value.know_capabilities_ then new_value.saved else s.saved := by
  unfold updateWith
  cases hknow : new_value.know_capabilities_ with
  | true | false => exact ⟨rfl, rfl, rfl⟩

/-- Some updates, field by field. -/
theorem updateAll_spec (first : PresenceStatus) (updates : List PresenceStatus) :
    (first.updateAll updates).withoutCapabilities
      = ((first :: updates).getLast (List.cons_ne_nil _ _)).withoutCapabilities ∧
    (first.updateAll updates).unsaved
      = ((first :: updates).getLast (List.cons_ne_nil _ _)).unsaved ∧
    (first.updateAll updates).saved = ((lastKnowing (first :: updates)).getD first).saved := by
  induction updates using List.reverseRecOn with
  | nil =>
    refine ⟨rfl, rfl, ?_⟩
    unfold lastKnowing
    cases hknow : first.know_capabilities_ with
    | true =>
      rw [List.filter_cons_of_pos hknow]
      rfl
    | false =>
      rw [List.filter_cons_of_neg (by rw [hknow]; exact Bool.false_ne_true)]
      rfl
  | append_singleton updates s ih =>
    have hlast : (first :: (updates ++ [s])).getLast (List.cons_ne_nil _ _) = s := by
      simp only [← List.cons_append, List.getLast_concat]
    have hupdate : first.updateAll (updates ++ [s]) = (first.updateAll updates).updateWith s :=
      List.foldl_concat ..
    rw [hlast, hupdate, ← List.cons_append, lastKnowing_concat]
    obtain ⟨hother, hunsaved, hsaved⟩ := (first.updateAll updates).updateWith_spec s
    refine ⟨hother, hunsaved, ?_⟩
    rw [hsaved]
    cases hknow : s.know_capabilities_ with
    | true => rfl
    | false => exact ih.2.2

/-- After the updates every other field is that of the last value, and the capabilities are
those of the last value that knew them. -/
def Persist (first : PresenceStatus) (updates : List PresenceStatus) : Prop :=
  (first.updateAll updates).withoutCapabilities
      = ((first :: updates).getLast (List.cons_ne_nil _ _)).withoutCapabilities ∧
    ∀ known ∈ lastKnowing (first :: updates),
      (first.updateAll updates).capabilities = known.capabilities

/-- The capabilities persist just where the last value has the flags of `pmuc`, `video` and
`camera` that the last value that knew had. -/
theorem caps_persist_iff (first : PresenceStatus) (updates : List PresenceStatus) :
    Persist first updates ↔ ∀ known ∈ lastKnowing (first :: updates),
      ((first :: updates).getLast (List.cons_ne_nil _ _)).unsaved = known.unsaved := by
  obtain ⟨hother, hunsaved, hsaved⟩ := updateAll_spec first updates
  unfold Persist
  rw [← hunsaved]
  constructor
  · rintro ⟨-, hcaps⟩ known hknown
    exact ((capabilities_eq_iff _ _).1 (hcaps known hknown)).2
  · intro hflags
    refine ⟨hother, fun known hknown => (capabilities_eq_iff _ _).2 ⟨?_, hflags known hknown⟩⟩
    rw [hsaved, Option.mem_def.1 hknown, Option.getD_some]

/-- Somebody who has video sends a presence that says nothing of capabilities. -/
theorem caps_not_persisting :
    ¬ Persist { init with know_capabilities_ := true, video_capability_ := true } [init] := by
  rintro ⟨-, hcaps⟩
  have hlost := hcaps { init with know_capabilities_ := true, video_capability_ := true } rfl
  exact absurd (congrArg Capabilities.video hlost) (by decide)

/-! ## 2. Trimming -/

/-- The comparisons of `TrimStatus`, of a `char`, which is signed. -/
def isBlank (ch : UInt8) : Bool := ch.toInt8 ≤ 0x20 && 0 ≤ ch.toInt8

theorem isBlank_iff (ch : UInt8) : isBlank ch = true ↔ ch ≤ 0x20 := by
  have htest := byte_forall (fun ch => isBlank ch == decide (ch ≤ 0x20)) (by decide +kernel) ch
  rw [beq_iff_eq] at htest
  rw [htest, decide_eq_true_eq]

/-- The variables of `TrimStatus`. The `int` `j` counts up from 0, so it is a number below
`2 ^ 31` as long as it is anything. -/
structure TrimLoop where
  s : Str
  i : UInt32
  j : Nat
  collapsing : Bool

/-- `s[j] = ch; j += 1`, and what `collapsing` and `i` are then. There is no value where `j` is
no place of the string, or where the sum does not fit. -/
def TrimLoop.put (t : TrimLoop) (ch : UInt8) (collapsing : Bool) : Option TrimLoop :=
  if t.j < t.s.length ∧ t.j + 1 < 2 ^ 31 then
    some ⟨t.s.set t.j ch, t.i + 1, t.j + 1, collapsing⟩
  else none

/-- A round of the loop, or what follows it. -/
def trimRound (t : TrimLoop) : TrimLoop ⊕ Option Str :=
  match t.s[t.i.toNat]? with
  | some ch =>
    if isBlank ch then
      if t.collapsing then .inl { t with i := t.i + 1 }
      else
        match t.put 0x20 true with
        | some t' => .inl t'
        | none => .inr none
    else
      match t.put ch false with
      | some t' => .inl t'
      | none => .inr none
  -- `s.erase(j, s.length())`
  | none => .inr (some (t.s.take (if t.collapsing && decide (0 < t.j) then t.j - 1 else t.j)))

/-- The loop at the start. -/
def TrimLoop.init (st : Str) : TrimLoop := ⟨st, 0, 0, true⟩

/-- `PresenceStatus::TrimStatus` returns this string. -/
def TrimStatus (st result : Str) : Prop :=
  Walking.Ends trimRound (TrimLoop.init st) (some result)

/-- The loop comes to this. -/
def Trimming (st : Str) (t : TrimLoop) : Prop :=
  Relation.ReflTransGen (fun a b => trimRound a = .inl b) (TrimLoop.init st) t

/-- The bytes that part words. -/
def blank (ch : UInt8) : Bool := ch ≤ 0x20

theorem isBlank_eq : isBlank = blank := by
  funext ch
  unfold blank
  rw [Bool.eq_iff_iff, isBlank_iff, decide_eq_true_eq]

/-- What `TrimStatus` is to make of a string. -/
structure Trimmed (st result : Str) : Prop where
  /-- the words, with single spaces between them -/
  words : result = Words.unwords 0x20 (Words.words blank st)
  starts : ∀ ch ∈ result.head?, ch ≠ 0x20
  ends : ∀ ch ∈ result.getLast?, ch ≠ 0x20
  single : ¬ [0x20, 0x20] <:+: result
  printing : ∀ ch ∈ result, ¬ ch < 0x20
  again : TrimStatus result result
  /-- what is written is written to a place that has been read -/
  behind : ∀ t, Trimming st t → t.j ≤ t.i.toNat

/-- After `n` rounds: what was kept of the first `n` characters stands at the start, and the
others are where they were. -/
structure TrimInv (st : Str) (n : Nat) (t : TrimLoop) : Prop where
  i : t.i.toNat = n
  le : n ≤ st.length
  length : t.s.length = st.length
  written : t.s.take t.j = (Words.kept blank 0x20 (st.take n)).1
  j : t.j = (Words.kept blank 0x20 (st.take n)).1.length
  collapsing : t.collapsing = (Words.kept blank 0x20 (st.take n)).2
  ahead : t.s.drop n = st.drop n
  fits : t.j < 2 ^ 31

theorem TrimInv.init (st : Str) : TrimInv st 0 (TrimLoop.init st) :=
  ⟨rfl, Nat.zero_le _, rfl, rfl, rfl, rfl, rfl, Nat.two_pow_pos 31⟩

section Rounds

variable {st : Str} {n : Nat} {t : TrimLoop}

theorem TrimInv.behind (h : TrimInv st n t) : t.j ≤ n := by
  have hkept := Words.length_kept_le (p := blank) (z := (0x20 : UInt8)) (st.take n)
  rw [h.j]
  exact hkept.trans (List.length_take_le n st)

/-- A character is put where the kept ones end. -/
theorem take_set_append {s : Str} {j : Nat} (hj : j < s.length) (ch : UInt8) :
    (s.set j ch).take (j + 1) = s.take j ++ [ch] := by
  rw [List.take_add_one, List.take_set_of_le (le_refl j), List.getElem?_set_self hj]
  rfl

/-- `put`, where the character is what the pass keeps. -/
theorem TrimInv.put (h : TrimInv st n t) (hn : n < st.length) (hlen : st.length < 2 ^ 32)
    {ch : UInt8} {collapsing : Bool}
    (hkept : Words.kept blank 0x20 (st.take (n + 1))
      = ((Words.kept blank 0x20 (st.take n)).1 ++ [ch], collapsing)) :
    (∃ t', t.put ch collapsing = some t' ∧ TrimInv st (n + 1) t') ∨
    (t.put ch collapsing = none ∧ 2 ^ 31 ≤ (Words.kept blank 0x20 (st.take (n + 1))).1.length) := by
  have hbehind := h.behind
  have hj : t.j < t.s.length := by rw [h.length]; omega
  have hlength : (Words.kept blank 0x20 (st.take (n + 1))).1.length = t.j + 1 := by
    rw [hkept, List.length_append, ← h.j, List.length_singleton]
  unfold TrimLoop.put
  by_cases hfits : t.j + 1 < 2 ^ 31
  · refine Or.inl ⟨_, if_pos ⟨hj, hfits⟩, ?_⟩
    refine ⟨?_, hn, ?_, ?_, hlength.symm, by rw [hkept], ?_, hfits⟩
    · rw [UInt32.toNat_add, h.i]
      exact Nat.mod_eq_of_lt (by simp only [UInt32.toNat_one]; omega)
    · rw [List.length_set, h.length]
    · rw [take_set_append hj, h.written, hkept]
    · rw [List.drop_set_of_lt (by omega), ← List.drop_drop, h.ahead, List.drop_drop]
  · exact Or.inr ⟨if_neg fun hboth => hfits hboth.2, by omega⟩

/-- A blank behind a blank is passed over. -/
theorem TrimInv.skip (h : TrimInv st n t) (hn : n < st.length) (hlen : st.length < 2 ^ 32)
    (hkept : Words.kept blank 0x20 (st.take (n + 1)) = Words.kept blank 0x20 (st.take n)) :
    TrimInv st (n + 1) { t with i := t.i + 1 } := by
  refine ⟨?_, hn, h.length, ?_, ?_, ?_, ?_, h.fits⟩
  · show (t.i + 1).toNat = n + 1
    rw [UInt32.toNat_add, h.i]
    exact Nat.mod_eq_of_lt (by simp only [UInt32.toNat_one]; omega)
  · rw [hkept]
    exact h.written
  · rw [hkept]
    exact h.j
  · rw [hkept]
    exact h.collapsing
  · show t.s.drop (n + 1) = st.drop (n + 1)
    rw [← List.drop_drop, h.ahead, List.drop_drop]

/-- At the end what was kept is there, less the space that follows the last word. -/
theorem TrimInv.ending (h : TrimInv st st.length t) :
    trimRound t = .inr (some (Words.squeeze blank 0x20 st)) := by
  have hread : t.s[t.i.toNat]? = none := List.getElem?_eq_none (by rw [h.i, h.length])
  have hwritten := h.written
  have hcollapsing := h.collapsing
  rw [List.take_length] at hwritten hcollapsing
  unfold trimRound Words.squeeze
  rw [hread, ← hcollapsing, ← hwritten]
  dsimp only
  congr 2
  cases t.collapsing with
  | false => rfl
  | true =>
    have hj : t.j ≤ t.s.length := h.length ▸ h.behind
    have hmin : min (t.j - 1) t.j = t.j - 1 := by omega
    rw [if_pos rfl, List.dropLast_eq_take, List.length_take_of_le hj, List.take_take, hmin]
    by_cases hzero : 0 < t.j
    · simp only [hzero, decide_true, Bool.and_true, if_true]
    · simp only [hzero, decide_false, Bool.and_false, Bool.false_eq_true, if_false]
      congr 1
      omega

/-- A round. -/
theorem TrimInv.round (h : TrimInv st n t) (hlen : st.length < 2 ^ 32) :
    (n = st.length ∧ trimRound t = .inr (some (Words.squeeze blank 0x20 st))) ∨
    (n < st.length ∧ ((∃ t', trimRound t = .inl t' ∧ TrimInv st (n + 1) t') ∨
      (trimRound t = .inr none ∧
        2 ^ 31 ≤ (Words.kept blank 0x20 (st.take (n + 1))).1.length))) := by
  rcases Nat.lt_or_eq_of_le h.le with hn | rfl
  · refine Or.inr ⟨hn, ?_⟩
    -- the character that is read is still the one of the string
    have hread : t.s[t.i.toNat]? = some st[n] := by
      have hhead := congrArg List.head? h.ahead
      rw [List.head?_drop, List.head?_drop, List.getElem?_eq_getElem hn] at hhead
      rw [h.i]
      exact hhead
    have hstep : Words.kept blank 0x20 (st.take (n + 1))
        = Words.pass blank 0x20 (Words.kept blank 0x20 (st.take n)) st[n] := by
      rw [← List.take_concat_get' st n hn, Words.kept_concat]
    unfold trimRound
    rw [hread, isBlank_eq]
    dsimp only
    unfold Words.pass at hstep
    rw [← h.collapsing] at hstep
    cases hblank : blank st[n] with
    | true =>
      rw [hblank, if_pos rfl] at hstep
      cases hcollapsing : t.collapsing with
      | true =>
        rw [hcollapsing, if_pos rfl] at hstep
        exact Or.inl ⟨_, rfl, hcollapsing ▸ h.skip hn hlen hstep⟩
      | false =>
        rw [hcollapsing, if_neg Bool.false_ne_true] at hstep
        rcases h.put hn hlen hstep with ⟨t', hput, hinv⟩ | ⟨hput, hbig⟩
        · exact Or.inl ⟨t', by simp only [hput, if_true, Bool.false_eq_true, if_false], hinv⟩
        · exact Or.inr ⟨by simp only [hput, if_true, Bool.false_eq_true, if_false], hbig⟩
    | false =>
      rw [hblank, if_neg Bool.false_ne_true] at hstep
      rcases h.put hn hlen hstep with ⟨t', hput, hinv⟩ | ⟨hput, hbig⟩
      · exact Or.inl ⟨t', by simp only [hput, Bool.false_eq_true, if_false], hinv⟩
      · exact Or.inr ⟨by simp only [hput, Bool.false_eq_true, if_false], hbig⟩
  · exact Or.inl ⟨rfl, h.ending⟩

/-- The rounds from one of the states of the loop. -/
theorem TrimInv.next (h : TrimInv st n t) (hlen : st.length < 2 ^ 32) {t' : TrimLoop}
    (hround : trimRound t = .inl t') : TrimInv st (n + 1) t' := by
  rcases h.round hlen with ⟨-, heq⟩ | ⟨-, ⟨v, heq, hv⟩ | ⟨heq, -⟩⟩
  · rw [heq] at hround
    cases hround
  · rw [heq] at hround
    obtain rfl := Sum.inl.inj hround
    exact hv
  · rw [heq] at hround
    cases hround

/-- The loop is left with the squeezed string, if the `int` can count what is kept. -/
theorem TrimInv.squeezes (h : TrimInv st n t) (hlen : st.length < 2 ^ 32)
    (hkept : (Words.kept blank 0x20 st).1.length < 2 ^ 31) :
    Walking.Ends trimRound t (some (Words.squeeze blank 0x20 st)) := by
  induction hm : st.length - n generalizing n t with
  | zero =>
    have hle := h.le
    rcases h.round hlen with ⟨-, heq⟩ | ⟨hn, -⟩
    · exact Walking.ends_of_left heq
    · omega
  | succ m ih =>
    rcases h.round hlen with ⟨-, heq⟩ | ⟨hn, ⟨t', heq, hinv⟩ | ⟨-, hbig⟩⟩
    · exact Walking.ends_of_left heq
    · exact (Walking.ends_of_next heq).2 (ih hinv (by omega))
    · -- no more is kept of a part of the string
      have hmono := Words.length_kept_mono (p := blank) (z := (0x20 : UInt8))
        (st.take (n + 1)) (st.drop (n + 1))
      rw [List.take_append_drop] at hmono
      omega

end Rounds

/-- While there is a character to read, the loop goes on or has no value. -/
theorem trimRound_reading {t : TrimLoop} (hi : t.i.toNat < t.s.length) :
    (∃ t', trimRound t = .inl t' ∧ t'.s.length = t.s.length) ∨ trimRound t = .inr none := by
  have hput : ∀ ch collapsing, (∃ t', t.put ch collapsing = some t' ∧
      t'.s.length = t.s.length) ∨ t.put ch collapsing = none := by
    intro ch collapsing
    unfold TrimLoop.put
    split
    · exact Or.inl ⟨_, rfl, List.length_set⟩
    · exact Or.inr rfl
  unfold trimRound
  rw [List.getElem?_eq_getElem hi]
  dsimp only
  split
  · split
    · exact Or.inl ⟨_, rfl, rfl⟩
    · rcases hput 0x20 true with ⟨t', heq, hlength⟩ | heq
      · exact Or.inl ⟨t', by rw [heq], hlength⟩
      · exact Or.inr (by rw [heq])
  · rcases hput t.s[t.i.toNat] false with ⟨t', heq, hlength⟩ | heq
    · exact Or.inl ⟨t', by rw [heq], hlength⟩
    · exact Or.inr (by rw [heq])

/-- A string that is longer than an `unsigned int` can count always has a character to read. -/
theorem long_not_trimmed {st result : Str} (hlen : 2 ^ 32 ≤ st.length) :
    ¬ TrimStatus st result := by
  have hreading : ∀ t : TrimLoop, t.s.length = st.length → t.i.toNat < t.s.length := by
    intro t ht
    have hsmall := t.i.toNat_lt
    omega
  intro h
  obtain ⟨t, ht, hround⟩ := h.left (I := fun t => t.s.length = st.length) rfl
    fun t t' ht hround => by
      rcases trimRound_reading (hreading t ht) with ⟨v, heq, hlength⟩ | heq
      · rw [heq] at hround
        obtain rfl := Sum.inl.inj hround
        exact hlength.trans ht
      · rw [heq] at hround
        cases hround
  rcases trimRound_reading (hreading t ht) with ⟨v, heq, -⟩ | heq
  · rw [heq] at hround
    cases hround
  · rw [heq] at hround
    cases hround

/-- Every state of the loop. -/
theorem Trimming.inv {st : Str} (hlen : st.length < 2 ^ 32) {t : TrimLoop}
    (h : Trimming st t) : ∃ n, TrimInv st n t := by
  induction h with
  | refl => exact ⟨0, .init st⟩
  | tail _ hround ih =>
    obtain ⟨n, hinv⟩ := ih
    exact ⟨n + 1, hinv.next hlen hround⟩

theorem blank_eq_false {ch : UInt8} (h : blank ch = false) : ch ≠ 0x20 ∧ ¬ ch < 0x20 := by
  have hbig : ¬ ch ≤ 0x20 := of_decide_eq_false h
  constructor
  · rintro rfl
    exact hbig (by decide)
  · exact fun hlt => hbig (UInt8.le_of_lt hlt)

/-- `TrimStatus` trims just the strings whose length an `unsigned int` can hold and of which it
keeps no more than an `int` can count. -/
theorem trim_status_iff (st : Str) :
    (∃ result, TrimStatus st result ∧ Trimmed st result) ↔
      st.length < 2 ^ 32 ∧ (Words.kept blank 0x20 st).1.length < 2 ^ 31 := by
  constructor
  · rintro ⟨result, hresult, -⟩
    have hlen : st.length < 2 ^ 32 := by
      by_contra hlong
      exact long_not_trimmed (not_lt.1 hlong) hresult
    refine ⟨hlen, ?_⟩
    obtain ⟨t, ⟨n, hinv⟩, hround⟩ := hresult.left (I := fun t => ∃ n, TrimInv st n t)
      ⟨0, .init st⟩ fun t t' ⟨n, hinv⟩ hround => ⟨n + 1, hinv.next hlen hround⟩
    rcases hinv.round hlen with ⟨rfl, -⟩ | ⟨-, ⟨t', heq, -⟩ | ⟨heq, -⟩⟩
    · have hj := hinv.j
      rw [List.take_length] at hj
      rw [← hj]
      exact hinv.fits
    · rw [heq] at hround
      cases hround
    · rw [heq] at hround
      cases hround
  · rintro ⟨hlen, hkept⟩
    have hresult : TrimStatus st (Words.squeeze blank 0x20 st) :=
      (TrimInv.init st).squeezes hlen hkept
    have hproper := Words.words_proper (p := blank) st
    have hsqueeze := Words.squeeze_eq (p := blank) (z := (0x20 : UInt8)) st
    have hless := Words.length_squeeze_le (p := blank) (z := (0x20 : UInt8)) st
    have hall := Words.kept_squeeze (p := blank) (z := (0x20 : UInt8)) rfl st
    have hagain := Words.squeeze_squeeze (p := blank) (z := (0x20 : UInt8)) rfl st
    have hkeptlen := Words.length_kept_le (p := blank) (z := (0x20 : UInt8)) st
    refine ⟨_, hresult, hsqueeze, ?_, ?_, ?_, ?_, ?_, ?_⟩
    · rw [hsqueeze]
      exact fun ch hch => (blank_eq_false (Words.head_unwords hproper ch hch)).1
    · rw [hsqueeze]
      exact fun ch hch => (blank_eq_false (Words.getLast_unwords hproper ch hch)).1
    · rw [hsqueeze]
      rintro ⟨before, after, htwice⟩
      have hchain := Words.chain_unwords (z := (0x20 : UInt8)) hproper
      rw [← htwice] at hchain
      have hchain := hchain.left_of_append.right_of_append
      exact (List.isChain_cons.1 hchain).1 0x20 rfl ⟨rfl, rfl⟩
    · rw [hsqueeze]
      intro ch hch
      rcases Words.mem_unwords hproper hch with rfl | hch
      · decide
      · exact (blank_eq_false hch).2
    · -- it is trimmed as it is
      have hsame : TrimStatus (Words.squeeze blank 0x20 st)
          (Words.squeeze blank 0x20 (Words.squeeze blank 0x20 st)) :=
        (TrimInv.init _).squeezes (by omega) (by rw [hall]; omega)
      rwa [hagain] at hsame
    · intro t ht
      obtain ⟨n, hinv⟩ := ht.inv hlen
      rw [hinv.i]
      exact hinv.behind

/-- A string of `2 ^ 32` spaces. -/
theorem trim_status_endless : ¬ ∃ result, TrimStatus (List.replicate (2 ^ 32) 0x20) result ∧
    Trimmed (List.replicate (2 ^ 32) 0x20) result := by
  rintro ⟨result, hresult, -⟩
  exact long_not_trimmed (by rw [List.length_replicate]) hresult

example : TrimStatus (str " a  b ") (str "a b") := ⟨7, by decide⟩

end PresenceStatus

end Gxmpp
