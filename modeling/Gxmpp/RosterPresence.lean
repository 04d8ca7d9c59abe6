/-
The incoming presence the roster module keeps.

A presence object is reached in two ways, through the vector of all of them and through the
bucket of its sender's bare JID. What holds the two together is that a bucket is the vector
filtered by the bare JID (`Stored.bucket`): a new presence goes to the end of both, and a
presence that is already there is overwritten in place by a stanza of the same sender, so
no address moves and no JID changes. The rest of the invariant follows from that.
-/
import Gxmpp.RosterContacts
import Mathlib.Data.List.Nodup

set_option autoImplicit false

namespace Gxmpp

open XmppRosterModuleImpl

/-! ## 1. The store -/

/-- The presence a delivery brings to the store. -/
def RosterDelivery.incoming : RosterDelivery → Option XmlElement
  | .result _ => none
  | .stanza e => if isIncoming e then some e else none

/-- The sender of a stanza. -/
def senderJid (e : XmlElement) : Jid := Jid.ofString (e.attr QN_FROM)

/-- The last available or unavailable presence received from a JID. -/
def lastPresence (ds : List RosterDelivery) (jid : Jid) : Option XmlElement :=
  ((ds.filterMap RosterDelivery.incoming).filter fun e => senderJid e = jid).getLast?

namespace XmppRosterModuleImpl

/-- The sender of the presence at an address. -/
def jidAt (m : XmppRosterModuleImpl) (p : Nat) : Jid := (m.presenceAt p).jid

/-- The presences of a bare JID, among all of them. -/
def presencesOf (m : XmppRosterModuleImpl) (bare_jid : Jid) : List Nat :=
  m.incoming_presence_vector_.filter fun p => (m.jidAt p).bareJid = bare_jid

end XmppRosterModuleImpl

/-- What the store holds after some deliveries. -/
structure PresenceStore (m : XmppRosterModuleImpl) (ds : List RosterDelivery) : Prop where
  /-- The vector and the buckets have the same presences, each once. -/
  once : m.incoming_presence_vector_.Nodup
  same : (m.incoming_presence_map_.flatMap Prod.snd).Perm m.incoming_presence_vector_
  /-- A sender has one presence. -/
  senders : (m.incoming_presence_vector_.map m.jidAt).Nodup
  /-- A presence is in the bucket of its bare JID. -/
  bucket : ∀ e ∈ m.incoming_presence_map_, ∀ p ∈ e.2, (m.jidAt p).bareJid = e.1
  /-- The presence of a sender is the last one received from it. -/
  last : ∀ jid, ((m.incoming_presence_vector_.find? fun p => m.jidAt p = jid).bind fun p =>
    (m.presenceAt p).raw_xml) = lastPresence ds jid
  /-- The accessors for a bare JID give its presences among all of them. -/
  count : ∀ jid, m.getIncomingPresenceForJidCount jid = (m.presencesOf jid).length
  access : ∀ jid index, m.getIncomingPresenceForJid jid index = (m.presencesOf jid)[index]?

/-- What storing a presence preserves. -/
structure Stored (m : XmppRosterModuleImpl) (ds : List RosterDelivery) : Prop where
  addresses : m.incoming_presence_vector_ = List.range m.presences.length
  keys : (m.incoming_presence_map_.map Prod.fst).Nodup
  bucket : ∀ e ∈ m.incoming_presence_map_, e.2 = m.presencesOf e.1
  covered : ∀ p ∈ m.incoming_presence_vector_,
    (m.jidAt p).bareJid ∈ m.incoming_presence_map_.map Prod.fst
  senders : (m.incoming_presence_vector_.map m.jidAt).Nodup
  last : ∀ jid, ((m.incoming_presence_vector_.find? fun p => m.jidAt p = jid).bind fun p =>
    (m.presenceAt p).raw_xml) = lastPresence ds jid

/-! ## 2. Buckets -/

/-- The entry of a key, in a list with one entry for a key. -/
theorem find_key {α : Type} {map : List (Jid × α)} (hkeys : (map.map Prod.fst).Nodup)
    {e : Jid × α} (he : e ∈ map) : map.find? (fun x => x.1 = e.1) = some e := by
  induction map with
  | nil => exact absurd he List.not_mem_nil
  | cons x map ih =>
    rw [List.map_cons, List.nodup_cons] at hkeys
    rcases List.mem_cons.1 he with rfl | he
    · exact List.find?_cons_of_pos (by simp)
    · have hne : x.1 ≠ e.1 := fun heq => hkeys.1 (heq ▸ List.mem_map_of_mem he)
      rw [List.find?_cons_of_neg (by simpa using hne)]
      exact ih hkeys.2 he

theorem find_key_none {α : Type} {map : List (Jid × α)} {key : Jid}
    (h : key ∉ map.map Prod.fst) : map.find? (fun x => x.1 = key) = none := by
  rw [List.find?_eq_none]
  intro x hx heq
  exact h (of_decide_eq_true heq ▸ List.mem_map_of_mem hx)

theorem find_congr {α : Type} {p q : α → Bool} {l : List α} (h : ∀ a ∈ l, p a = q a) :
    l.find? p = l.find? q := by
  rw [← List.head?_filter, ← List.head?_filter, List.filter_congr h]

theorem withBucket_eq (map : List (Jid × List Nat)) (bare_jid : Jid) :
    withBucket map bare_jid
      = if bare_jid ∈ map.map Prod.fst then map else map ++ [(bare_jid, [])] := by
  unfold withBucket
  have hany : (map.any fun e => e.1 = bare_jid) = true ↔ bare_jid ∈ map.map Prod.fst := by
    simp [List.any_eq_true]
  by_cases h : bare_jid ∈ map.map Prod.fst
  · rw [if_pos h, if_pos (hany.2 h)]
  · rw [if_neg h, if_neg fun hx => h (hany.1 hx)]

namespace Stored

variable {m : XmppRosterModuleImpl} {ds : List RosterDelivery}

/-- A JID without a bucket has no presence. -/
theorem presencesOf_nil (h : Stored m ds) {bare_jid : Jid}
    (hnone : bare_jid ∉ m.incoming_presence_map_.map Prod.fst) : m.presencesOf bare_jid = [] := by
  unfold presencesOf
  rw [List.filter_eq_nil_iff]
  intro p hp heq
  exact hnone (of_decide_eq_true heq ▸ h.covered p hp)

/-- The vector of a JID, where there is one. -/
theorem presenceVector_eq (h : Stored m ds) (bare_jid : Jid) :
    m.presenceVector bare_jid = if bare_jid ∈ m.incoming_presence_map_.map Prod.fst
      then some (m.presencesOf bare_jid) else none := by
  unfold presenceVector
  by_cases hmem : bare_jid ∈ m.incoming_presence_map_.map Prod.fst
  · obtain ⟨e, he, rfl⟩ := List.mem_map.1 hmem
    rw [if_pos hmem, find_key h.keys he, Option.map_some, h.bucket e he]
  · rw [if_neg hmem, find_key_none hmem]
    rfl

/-- With the bucket of a bare JID made. -/
theorem withBucket (h : Stored m ds) (bare_jid : Jid) :
    ((withBucket m.incoming_presence_map_ bare_jid).map Prod.fst).Nodup
      ∧ bare_jid ∈ (XmppRosterModuleImpl.withBucket m.incoming_presence_map_ bare_jid).map Prod.fst
      ∧ (∀ key ∈ m.incoming_presence_map_.map Prod.fst,
        key ∈ (XmppRosterModuleImpl.withBucket m.incoming_presence_map_ bare_jid).map Prod.fst)
      ∧ ∀ e ∈ XmppRosterModuleImpl.withBucket m.incoming_presence_map_ bare_jid,
        e.2 = m.presencesOf e.1 := by
  rw [withBucket_eq]
  by_cases hmem : bare_jid ∈ m.incoming_presence_map_.map Prod.fst
  · rw [if_pos hmem]
    exact ⟨h.keys, hmem, fun key hkey => hkey, h.bucket⟩
  · rw [if_neg hmem, List.map_append]
    refine ⟨?_, List.mem_append_right _ List.mem_cons_self,
      fun key hkey => List.mem_append_left _ hkey, ?_⟩
    · rw [List.nodup_append]
      refine ⟨h.keys, List.pairwise_singleton _ _, ?_⟩
      intro a ha b hb
      rw [List.mem_singleton.1 hb]
      rintro rfl
      exact hmem ha
    · intro e he
      rcases List.mem_append.1 he with he | he
      · exact h.bucket e he
      · rw [List.mem_singleton.1 he]
        exact (h.presencesOf_nil hmem).symm

/-- The bucket that is searched, and what is found there. -/
theorem searched (h : Stored m ds) (jid : Jid) :
    ((((XmppRosterModuleImpl.withBucket m.incoming_presence_map_ jid.bareJid).find? fun e =>
        e.1 = jid.bareJid).map Prod.snd).getD []).find? (fun p => (m.presenceAt p).jid = jid)
      = m.incoming_presence_vector_.find? fun p => m.jidAt p = jid := by
  obtain ⟨hkeys, hmem, -, hbucket⟩ := h.withBucket jid.bareJid
  obtain ⟨e, he, hkey⟩ := List.mem_map.1 hmem
  have hfind := find_key hkeys he
  rw [hkey] at hfind
  rw [hfind, Option.map_some, Option.getD_some, hbucket e he, hkey]
  unfold presencesOf
  rw [List.find?_filter]
  -- a presence of this sender is in the bucket
  refine congrArg (fun q => m.incoming_presence_vector_.find? q) (funext fun p => ?_)
  unfold jidAt
  by_cases heq : (m.presenceAt p).jid = jid <;> simp [heq]

/-! ## 3. Storing a presence -/

/-- The part of the invariant that does not depend on the stanzas. -/
theorem of_same {m' : XmppRosterModuleImpl} {ds' : List RosterDelivery} (h : Stored m ds)
    (hpresences : m'.presences = m.presences)
    (hmap : m'.incoming_presence_map_ = m.incoming_presence_map_)
    (hvector : m'.incoming_presence_vector_ = m.incoming_presence_vector_)
    (hlast : ∀ jid, lastPresence ds' jid = lastPresence ds jid) : Stored m' ds' := by
  have hat : m'.presenceAt = m.presenceAt := by
    unfold presenceAt
    rw [hpresences]
  have hjid : m'.jidAt = m.jidAt := by
    unfold jidAt
    rw [hat]
  have hof : m'.presencesOf = m.presencesOf := by
    unfold presencesOf
    rw [hvector, hjid]
  refine ⟨?_, ?_, ?_, ?_, ?_, ?_⟩
  · rw [hvector, hpresences]
    exact h.addresses
  · rw [hmap]
    exact h.keys
  · rw [hmap, hof]
    exact h.bucket
  · rw [hvector, hjid, hmap]
    exact h.covered
  · rw [hvector, hjid]
    exact h.senders
  · intro jid
    rw [hvector, hjid, hat, hlast]
    exact h.last jid

end Stored

theorem lastPresence_snoc (ds : List RosterDelivery) (d : RosterDelivery) (jid : Jid) :
    lastPresence (ds ++ [d]) jid = match d.incoming with
      | none => lastPresence ds jid
      | some e => if senderJid e = jid then some e else lastPresence ds jid := by
  unfold lastPresence
  rw [List.filterMap_append]
  cases hd : d.incoming with
  | none => simp [hd]
  | some e =>
    have hsingle : [d].filterMap RosterDelivery.incoming = [e] := by simp [hd]
    rw [hsingle, List.filter_append]
    by_cases hsender : senderJid e = jid <;> simp [hsender]

theorem presenceAt_set {m m' : XmppRosterModuleImpl} {p : Nat} {presence : XmppPresenceImpl}
    (h : m'.presences = m.presences.set p presence) (hp : p < m.presences.length) (q : Nat) :
    m'.presenceAt q = if q = p then presence else m.presenceAt q := by
  unfold presenceAt
  rw [h, List.getD_eq_getElem?_getD, List.getElem?_set]
  by_cases hq : q = p
  · subst hq
    simp [hp]
  · simp [hq, Ne.symm hq]

theorem presenceAt_append {m m' : XmppRosterModuleImpl} {presence : XmppPresenceImpl}
    (h : m'.presences = m.presences ++ [presence]) {q : Nat} (hq : q ≤ m.presences.length) :
    m'.presenceAt q = if q = m.presences.length then presence else m.presenceAt q := by
  unfold presenceAt
  rw [h, List.getD_eq_getElem?_getD]
  by_cases heq : q = m.presences.length
  · subst heq
    simp
  · have hlt : q < m.presences.length := by omega
    rw [if_neg heq, List.getElem?_append_left hlt, List.getD_eq_getElem?_getD]

namespace Stored

variable {m : XmppRosterModuleImpl} {ds ds' : List RosterDelivery}

/-- A presence of a sender that has one is overwritten: no JID changes. -/
theorem overwritten {m' : XmppRosterModuleImpl} (h : Stored m ds) {e : XmlElement} {p : Nat}
    (hfind : m.incoming_presence_vector_.find? (fun q => m.jidAt q = senderJid e) = some p)
    (hpresences : m'.presences = m.presences.set p ⟨some e⟩)
    (hmap : m'.incoming_presence_map_
      = XmppRosterModuleImpl.withBucket m.incoming_presence_map_ (senderJid e).bareJid)
    (hvector : m'.incoming_presence_vector_ = m.incoming_presence_vector_)
    (hlast : ∀ jid,
      lastPresence ds' jid = if senderJid e = jid then some e else lastPresence ds jid) :
    Stored m' ds' := by
  have hsender : m.jidAt p = senderJid e :=
    of_decide_eq_true (List.find?_some (p := fun q => decide (m.jidAt q = senderJid e)) hfind)
  have hp : p < m.presences.length := by
    have hmem := List.mem_of_find?_eq_some hfind
    rwa [h.addresses, List.mem_range] at hmem
  have hat := presenceAt_set hpresences hp
  have hjid : m'.jidAt = m.jidAt := by
    funext q
    unfold jidAt
    rw [hat q]
    by_cases hq : q = p
    · rw [if_pos hq, hq]
      exact hsender.symm
    · rw [if_neg hq]
  have hof : m'.presencesOf = m.presencesOf := by
    unfold presencesOf
    rw [hvector, hjid]
  obtain ⟨hkeys, -, hgrown, hbucket⟩ := h.withBucket (senderJid e).bareJid
  refine ⟨?_, ?_, ?_, ?_, ?_, ?_⟩
  · rw [hvector, hpresences, List.length_set]
    exact h.addresses
  · rw [hmap]
    exact hkeys
  · rw [hmap, hof]
    exact hbucket
  · rw [hvector, hjid, hmap]
    exact fun q hq => hgrown _ (h.covered q hq)
  · rw [hvector, hjid]
    exact h.senders
  · intro jid
    rw [hvector, hjid, hlast]
    by_cases heq : senderJid e = jid
    · rw [← heq, if_pos rfl, hfind, Option.bind_some, hat p, if_pos rfl]
    · rw [if_neg heq, ← h.last jid]
      -- what is found for another sender is at another address
      cases hq : m.incoming_presence_vector_.find? fun q => m.jidAt q = jid with
      | none => rfl
      | some q =>
        have hjidq : m.jidAt q = jid :=
          of_decide_eq_true (List.find?_some (p := fun q => decide (m.jidAt q = jid)) hq)
        have hne : q ≠ p := by
          rintro rfl
          exact heq (hsender.symm.trans hjidq)
        rw [Option.bind_some, Option.bind_some, hat q, if_neg hne]

/-- A presence of a new sender goes to the end of the vector and of its bucket. -/
theorem appended {m' : XmppRosterModuleImpl} (h : Stored m ds) {e : XmlElement}
    (hfind : m.incoming_presence_vector_.find? (fun q => m.jidAt q = senderJid e) = none)
    (hpresences : m'.presences = m.presences ++ [⟨some e⟩])
    (hmap : m'.incoming_presence_map_
      = (XmppRosterModuleImpl.withBucket m.incoming_presence_map_
          (senderJid e).bareJid).map fun x =>
        if x.1 = (senderJid e).bareJid then (x.1, x.2 ++ [m.presences.length]) else x)
    (hvector : m'.incoming_presence_vector_ = m.incoming_presence_vector_ ++ [m.presences.length])
    (hlast : ∀ jid,
      lastPresence ds' jid = if senderJid e = jid then some e else lastPresence ds jid) :
    Stored m' ds' := by
  -- nobody in the vector is the sender, and every address in it is an old one
  have hfree : ∀ q ∈ m.incoming_presence_vector_, m.jidAt q ≠ senderJid e := fun q hq heq =>
    List.find?_eq_none.1 hfind q hq (decide_eq_true heq)
  have hlt : ∀ q ∈ m.incoming_presence_vector_, q < m.presences.length := by
    intro q hq
    rwa [h.addresses, List.mem_range] at hq
  -- the old addresses keep their presence, the new one has the stanza
  have hold : ∀ q ∈ m.incoming_presence_vector_, m'.presenceAt q = m.presenceAt q := by
    intro q hq
    have hq' := hlt q hq
    rw [presenceAt_append hpresences (by omega), if_neg (by omega)]
  have hnew : m'.presenceAt m.presences.length = ⟨some e⟩ := by
    rw [presenceAt_append hpresences (Nat.le_refl _), if_pos rfl]
  have hjidOld : ∀ q ∈ m.incoming_presence_vector_, m'.jidAt q = m.jidAt q := by
    intro q hq
    unfold jidAt
    rw [hold q hq]
  have hjidNew : m'.jidAt m.presences.length = senderJid e := by
    unfold jidAt
    rw [hnew]
    rfl
  -- only the bucket of the sender's bare JID grows
  have hof : ∀ key, m'.presencesOf key = m.presencesOf key
      ++ if (senderJid e).bareJid = key then [m.presences.length] else [] := by
    intro key
    unfold presencesOf
    rw [hvector, List.filter_append]
    have hfilter : m.incoming_presence_vector_.filter (fun p => (m'.jidAt p).bareJid = key)
        = m.incoming_presence_vector_.filter fun p => (m.jidAt p).bareJid = key := by
      refine List.filter_congr fun q hq => ?_
      rw [hjidOld q hq]
    rw [hfilter]
    by_cases hkey : (senderJid e).bareJid = key
    · rw [if_pos hkey, List.filter_cons_of_pos (by simp [hjidNew, hkey]), List.filter_nil]
    · rw [if_neg hkey, List.filter_cons_of_neg (by simp [hjidNew, hkey]), List.filter_nil]
  obtain ⟨hkeys, hmem, hgrown, hbucket⟩ := h.withBucket (senderJid e).bareJid
  have hfst : m'.incoming_presence_map_.map Prod.fst
      = (XmppRosterModuleImpl.withBucket m.incoming_presence_map_
          (senderJid e).bareJid).map Prod.fst := by
    rw [hmap, List.map_map]
    refine List.map_congr_left fun x _ => ?_
    by_cases hx : x.1 = (senderJid e).bareJid <;> simp [hx]
  refine ⟨?_, ?_, ?_, ?_, ?_, ?_⟩
  · rw [hvector, hpresences, List.length_append, List.length_singleton, List.range_succ,
      h.addresses]
  · rw [hfst]
    exact hkeys
  · intro x hx
    rw [hmap] at hx
    obtain ⟨y, hy, rfl⟩ := List.mem_map.1 hx
    by_cases hkey : y.1 = (senderJid e).bareJid
    · rw [if_pos hkey]
      dsimp only
      rw [hof, if_pos hkey.symm, hbucket y hy]
    · rw [if_neg hkey, hof, if_neg (Ne.symm hkey), List.append_nil]
      exact hbucket y hy
  · intro q hq
    rw [hfst]
    rw [hvector] at hq
    rcases List.mem_append.1 hq with hq | hq
    · rw [hjidOld q hq]
      exact hgrown _ (h.covered q hq)
    · rw [List.mem_singleton.1 hq, hjidNew]
      exact hmem
  · have hmaps : m.incoming_presence_vector_.map m'.jidAt
      = m.incoming_presence_vector_.map m.jidAt :=
      List.map_congr_left hjidOld
    rw [hvector, List.map_append, hmaps, List.map_singleton, hjidNew, List.nodup_append]
    refine ⟨h.senders, List.pairwise_singleton _ _, ?_⟩
    intro a ha b hb
    obtain ⟨q, hq, rfl⟩ := List.mem_map.1 ha
    rw [List.mem_singleton.1 hb]
    exact hfree q hq
  · intro jid
    have hfound : m.incoming_presence_vector_.find? (fun p => m'.jidAt p = jid)
        = m.incoming_presence_vector_.find? fun p => m.jidAt p = jid := by
      refine find_congr fun q hq => ?_
      rw [hjidOld q hq]
    rw [hvector, List.find?_append, hfound, hlast]
    by_cases heq : senderJid e = jid
    · rw [← heq, if_pos rfl, hfind, List.find?_cons_of_pos (by simp [hjidNew])]
      show (m'.presenceAt m.presences.length).raw_xml = some e
      rw [hnew]
    · rw [if_neg heq, List.find?_cons_of_neg (by simp [hjidNew, heq]), List.find?_nil,
        Option.or_none,
        ← h.last jid]
      cases hq : m.incoming_presence_vector_.find? fun q => m.jidAt q = jid with
      | none => rfl
      | some q => rw [Option.bind_some, Option.bind_some, hold q (List.mem_of_find?_eq_some hq)]

/-- A presence is stored. -/
theorem presence (h : Stored m ds) {e : XmlElement} (hstored : isIncoming e = true) :
    Stored (m.internalIncomingPresence (senderJid e) e).1 (ds ++ [.stanza e]) := by
  have hlast : ∀ jid, lastPresence (ds ++ [.stanza e]) jid
      = if senderJid e = jid then some e else lastPresence ds jid := by
    intro jid
    have hincoming : (RosterDelivery.stanza e).incoming = some e := if_pos hstored
    rw [lastPresence_snoc, hincoming]
  have hname : e.name = QN_PRESENCE := by
    unfold isIncoming at hstored
    rw [Bool.and_eq_true, Bool.and_eq_true] at hstored
    exact of_decide_eq_true hstored.1.1
  have hset : ∀ p : XmppPresenceImpl, p.setRawXml e = some ⟨some e⟩ := fun p =>
    if_neg (not_not_intro hname)
  have hsearched := h.searched (senderJid e)
  unfold internalIncomingPresence
  dsimp only
  rw [hsearched]
  cases hfind : m.incoming_presence_vector_.find? fun q => m.jidAt q = senderJid e with
  | some p =>
    refine h.overwritten hfind ?_ rfl rfl hlast
    dsimp only
    rw [hset]
    rfl
  | none =>
    dsimp only
    rw [hset]
    exact h.appended hfind rfl rfl rfl hlast

/-- What the invariant says of the vector and the buckets. -/
theorem store (h : Stored m ds) : PresenceStore m ds := by
  have honce : m.incoming_presence_vector_.Nodup := by
    rw [h.addresses]
    exact List.nodup_range
  have hbare : ∀ e ∈ m.incoming_presence_map_, ∀ p ∈ e.2,
      p ∈ m.incoming_presence_vector_ ∧ (m.jidAt p).bareJid = e.1 := by
    intro e he p hp
    rw [h.bucket e he] at hp
    obtain ⟨hmem, heq⟩ := List.mem_filter.1 hp
    exact ⟨hmem, of_decide_eq_true heq⟩
  refine ⟨honce, ?_, h.senders, fun e he p hp => (hbare e he p hp).2, h.last, ?_, ?_⟩
  · have hnodup : (m.incoming_presence_map_.flatMap Prod.snd).Nodup := by
      rw [List.nodup_flatMap]
      refine ⟨fun e he => ?_, ?_⟩
      · rw [h.bucket e he]
        exact honce.filter _
      · -- a presence has one bare JID, so it is in one bucket
        have hdisjoint := List.pairwise_map.1 h.keys
        refine hdisjoint.imp_of_mem fun {x y} hx hy hne => ?_
        intro p hpx hpy
        exact hne ((hbare x hx p hpx).2.symm.trans (hbare y hy p hpy).2)
    rw [List.perm_ext_iff_of_nodup hnodup honce]
    intro p
    rw [List.mem_flatMap]
    constructor
    · rintro ⟨e, he, hp⟩
      exact (hbare e he p hp).1
    · intro hp
      obtain ⟨e, he, hkey⟩ := List.mem_map.1 (h.covered p hp)
      refine ⟨e, he, ?_⟩
      rw [h.bucket e he, hkey]
      exact List.mem_filter.2 ⟨hp, decide_eq_true rfl⟩
  · intro jid
    unfold getIncomingPresenceForJidCount
    rw [h.presenceVector_eq]
    by_cases hmem : jid ∈ m.incoming_presence_map_.map Prod.fst
    · rw [if_pos hmem]
    · rw [if_neg hmem, h.presencesOf_nil hmem]
      rfl
  · intro jid index
    unfold getIncomingPresenceForJid
    rw [h.presenceVector_eq]
    by_cases hmem : jid ∈ m.incoming_presence_map_.map Prod.fst
    · rw [if_pos hmem]
    · rw [if_neg hmem, h.presencesOf_nil hmem]
      rfl

end Stored

/-! ## 4. Runs -/

/-- A delivery keeps the invariant. -/
theorem Stored.deliver {m : XmppRosterModuleImpl} {ds : List RosterDelivery} (h : Stored m ds)
    (d : RosterDelivery) : Stored (m.deliver d).1 (ds ++ [d]) := by
  -- a delivery that stores no presence leaves the store alone
  have hother : ∀ m' : XmppRosterModuleImpl, d.incoming = none → m'.presences = m.presences →
      m'.incoming_presence_map_ = m.incoming_presence_map_ →
      m'.incoming_presence_vector_ = m.incoming_presence_vector_ → Stored m' (ds ++ [d]) := by
    intro m' hnone hpresences hmap hvector
    refine h.of_same hpresences hmap hvector fun jid => ?_
    rw [lastPresence_snoc, hnone]
  have hitems : ∀ stanza, (m.internalRosterItems stanza).1.presences = m.presences
      ∧ (m.internalRosterItems stanza).1.incoming_presence_map_ = m.incoming_presence_map_
      ∧ (m.internalRosterItems stanza).1.incoming_presence_vector_
        = m.incoming_presence_vector_ := by
    intro stanza
    unfold internalRosterItems
    cases stanza.firstNamed QN_ROSTER_QUERY with
    | none | some => exact ⟨rfl, rfl, rfl⟩
  cases d with
  | result e =>
    show Stored (m.iqResponse e).1 (ds ++ [.result e])
    unfold iqResponse
    by_cases herror : e.attr QN_TYPE = str "error"
    · rw [if_pos herror]
      exact hother m rfl rfl rfl rfl
    · obtain ⟨hpresences, hmap, hvector⟩ := hitems e
      rw [if_neg herror]
      exact hother _ rfl hpresences hmap hvector
  | stanza e =>
    show Stored (m.handleStanza e).module (ds ++ [.stanza e])
    have hnone : isIncoming e = false → (RosterDelivery.stanza e).incoming = none := fun hno =>
      if_neg (Bool.eq_false_iff.1 hno)
    have hhandling := m.handleStanza_handling e
    generalize m.handleStanza e = r at hhandling
    cases hhandling with
    | push _ hstored =>
      obtain ⟨hpresences, hmap, hvector⟩ := hitems e
      exact hother _ (hnone hstored) hpresences hmap hvector
    | presence _ hstored => exact h.presence hstored
    | told cb _ _ hstored | left _ hstored => exact hother m (hnone hstored) rfl rfl rfl

/-- After any deliveries, the vector and the buckets hold the same presences, and of each
sender the last one received. -/
theorem presence_store (roster_handler : Bool) (ds : List RosterDelivery) :
    PresenceStore ((start roster_handler).deliverAll ds) ds := by
  refine Stored.store ?_
  induction ds using List.reverseRecOn with
  | nil =>
    refine ⟨rfl, List.nodup_nil, ?_, ?_, List.nodup_nil, fun jid => rfl⟩
    · exact fun e he => absurd he List.not_mem_nil
    · exact fun p hp => absurd hp List.not_mem_nil
  | append_singleton ds d ih =>
    rw [deliverAll_snoc]
    exact ih.deliver d

end Gxmpp
