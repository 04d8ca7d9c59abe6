/-
Audio mute: what a listener of the signals believes, and the states of the client.

`OnAudioMuteStateChange` tells a change that a nick makes to its own state as it is, and a
mute that comes from another nick as a remote mute. An un-mute that comes from another nick
it drops: the server should prevent it. The publisher of a retracted item is the one that is
remembered, so the retraction of an item that another nick published is such an un-mute. For
every other change the listener follows the states.
-/
import Gxmpp.PubSubState

set_option autoImplicit false

namespace Gxmpp

open PubSubStateClient HangoutPubSubClient

/-! ## 1. The listener -/

/-- A listener takes the new state of a mute change, and the mutee of a remote mute as muted. -/
def hear (believed : Str → Bool) : HangoutSignal → Str → Bool
  | .audioMuteStateChange nick _ is_muted => fun n => if n = nick then is_muted else believed n
  | .remoteMute mutee_nick _ _ => fun n => if n = mutee_nick then true else believed n
  | _ => believed

/-- What `OnAudioMuteStateChange` tells of the items. -/
def mutesTold (nick : Str) (items : List PubSubItem) : List HangoutSignal :=
  ((audioMuteStateClient nick).onItems .init items).2.flatMap (onAudioMuteStateChange nick)

/-- Whom the listener believes muted after the items. -/
def believedMuted (nick : Str) (items : List PubSubItem) : Str → Bool :=
  (mutesTold nick items).foldl hear fun _ => false

/-- Who is muted in the states of the client after the items. -/
def isMuted (nick : Str) (items : List PubSubItem) (n : Str) : Bool :=
  (audioMuteStateClient nick).stateOf ((audioMuteStateClient nick).onItems .init items).1 n

/-- A live item that another nick published is retracted while the nick is muted. -/
def RemoteUnmute (nick : Str) (done : List PubSubItem) (item : PubSubItem) (n : Str) : Prop :=
  isMuted nick done n = true ∧ (audioMuteStateClient nick).parseStateItem item = none ∧
    ∃ info state, (audioMuteStateClient nick).liveItems done item.itemid = some (info, state)
      ∧ info.published_nick = n ∧ info.publisher_nick ≠ [] ∧ info.publisher_nick ≠ n

/-! ## 2. One change -/

theorem audioMute_default (nick : Str) : (audioMuteStateClient nick).DefaultStatesEqual :=
  new_defaultStatesEqual _ _ _ _ _

/-- The change comes from another nick. -/
def isRemote (publisher_nick published_nick : Str) : Bool :=
  !publisher_nick.isEmpty && publisher_nick ≠ published_nick

theorem isRemote_iff (publisher_nick published_nick : Str) :
    isRemote publisher_nick published_nick = true ↔
      publisher_nick ≠ [] ∧ publisher_nick ≠ published_nick := by
  unfold isRemote
  rw [Bool.and_eq_true, Bool.not_eq_true', decide_eq_true_iff]
  exact and_congr_left' (by rw [← Bool.not_eq_true, List.isEmpty_iff])

theorem onAudioMuteStateChange_eq (nick : Str) (change : PubSubStateChange Bool) :
    onAudioMuteStateChange nick change =
      if isRemote change.publisher_nick change.published_nick then
        if !change.new_state then []
        else [.remoteMute change.published_nick change.publisher_nick
          (change.published_nick = nick)]
      else [.audioMuteStateChange change.published_nick change.old_state change.new_state] := rfl

/-- A change that is told to the listener is taken by it. -/
theorem hear_told (nick : Str) (believed : Str → Bool) (change : PubSubStateChange Bool) (n : Str)
    (h : isRemote change.publisher_nick change.published_nick = true → change.new_state = true) :
    (onAudioMuteStateChange nick change).foldl hear believed n
      = if n = change.published_nick then change.new_state else believed n := by
  rw [onAudioMuteStateChange_eq]
  by_cases hremote : isRemote change.publisher_nick change.published_nick = true
  · rw [if_pos hremote, h hremote]
    rfl
  · rw [if_neg hremote]
    rfl

/-- A remote un-mute is not told. -/
theorem remote_unmute_dropped (nick : Str) (change : PubSubStateChange Bool)
    (hremote : isRemote change.publisher_nick change.published_nick = true)
    (hnew : change.new_state = false) : onAudioMuteStateChange nick change = [] := by
  rw [onAudioMuteStateChange_eq, if_pos hremote, hnew]
  rfl

theorem mutesTold_snoc (nick : Str) (items : List PubSubItem) (item : PubSubItem) :
    mutesTold nick (items ++ [item]) = mutesTold nick items
      ++ ((audioMuteStateClient nick).onItem ((audioMuteStateClient nick).onItems .init items).1
          item).2.toList.flatMap (onAudioMuteStateChange nick) := by
  unfold mutesTold
  rw [onItems_snoc, List.flatMap_append]

/-! ## 3. Agreement -/

section Sets

variable {nick n : Str} {m : PubSubStateMaps Str Bool} {info : StateItemInfo} {new_state : Bool}
  {r : PubSubStateMaps Str Bool × Option (PubSubStateChange Bool)}

/-- A listener that is right about a nick stays right, unless the nick is muted and another
one un-mutes it. -/
theorem sets_agrees (hsets : Sets (audioMuteStateClient nick) m info new_state r)
    {believed : Str → Bool} (h : believed n = (audioMuteStateClient nick).stateOf m n) :
    (r.2.toList.flatMap (onAudioMuteStateChange nick)).foldl hear believed n
        = (audioMuteStateClient nick).stateOf r.1 n ↔
      ¬(n = info.published_nick ∧ isRemote info.publisher_nick info.published_nick = true
        ∧ new_state = false ∧ (audioMuteStateClient nick).stateOf m n = true) := by
  have hkey : (audioMuteStateClient nick).keyOf info = info.published_nick := rfl
  rw [hsets.states, hsets.change, hkey]
  by_cases hsame : new_state = (audioMuteStateClient nick).stateOf m info.published_nick
  · -- no change, so nothing is told
    rw [if_pos hsame]
    refine iff_of_true ?_ ?_
    · by_cases hn : n = info.published_nick
      · rw [if_pos hn, hsame, ← hn]
        exact h
      · rw [if_neg hn]
        exact h
    · rintro ⟨rfl, -, hnew, hold⟩
      rw [hold, hnew] at hsame
      exact Bool.false_ne_true hsame
  · rw [if_neg hsame, Option.toList_some, List.flatMap_cons, List.flatMap_nil, List.append_nil]
    by_cases hdropped : isRemote info.publisher_nick info.published_nick = true ∧ new_state = false
    · rw [remote_unmute_dropped nick _ hdropped.1 hdropped.2, List.foldl_nil]
      by_cases hn : n = info.published_nick
      · rw [if_pos hn, h]
        rw [← hn] at hsame
        refine iff_of_false (fun heq => hsame heq.symm) fun hnot => hnot ?_
        refine ⟨hn, hdropped.1, hdropped.2, ?_⟩
        rw [hdropped.2] at hsame
        exact eq_true_of_ne_false fun hfalse => hsame hfalse.symm
      · rw [if_neg hn]
        exact iff_of_true h fun hc => hn hc.1
    · have htold : isRemote info.publisher_nick info.published_nick = true → new_state = true :=
        fun hremote => eq_true_of_ne_false fun hfalse => hdropped ⟨hremote, hfalse⟩
      rw [hear_told nick believed _ n htold, h]
      exact iff_of_true rfl fun hc => hdropped ⟨hc.2.1, hc.2.2.1⟩

/-- A nick that is un-muted by no other one is told to be. -/
theorem sets_unmute_told (hsets : Sets (audioMuteStateClient nick) m info new_state r)
    (hold : (audioMuteStateClient nick).stateOf m n = true)
    (hnew : (audioMuteStateClient nick).stateOf r.1 n = false)
    (hown : ¬(n = info.published_nick ∧ isRemote info.publisher_nick info.published_nick = true
      ∧ new_state = false ∧ (audioMuteStateClient nick).stateOf m n = true)) :
    r.2.toList.flatMap (onAudioMuteStateChange nick) = [.audioMuteStateChange n true false] := by
  have hkey : (audioMuteStateClient nick).keyOf info = info.published_nick := rfl
  rw [hsets.states, hkey] at hnew
  have hn : n = info.published_nick := by
    by_contra hn
    rw [if_neg hn, hold] at hnew
    exact Bool.false_ne_true hnew.symm
  rw [if_pos hn] at hnew
  have hremote : ¬isRemote info.publisher_nick info.published_nick = true := fun hremote =>
    hown ⟨hn, hremote, hnew, hold⟩
  rw [hsets.change, hkey, ← hn, hold, hnew, if_neg Bool.false_ne_true, Option.toList_some,
    List.flatMap_cons, List.flatMap_nil, List.append_nil, onAudioMuteStateChange_eq, hn,
    if_neg hremote]

end Sets

/-- A remote un-mute, in terms of what is remembered of the item. -/
theorem remoteUnmute_iff (nick n : Str) (done : List PubSubItem) {item : PubSubItem}
    {info : StateItemInfo} (hparse : (audioMuteStateClient nick).parseStateItem item = none)
    (hknown : ((audioMuteStateClient nick).onItems .init done).1.info_by_itemid_.lookup item.itemid
      = some info) :
    RemoteUnmute nick done item n ↔
      n = info.published_nick ∧ isRemote info.publisher_nick info.published_nick = true
        ∧ false = false ∧ isMuted nick done n = true := by
  rw [onItems_remembers (audioMute_default nick) done item.itemid, Option.map_eq_some_iff] at hknown
  obtain ⟨⟨_, state⟩, hlive, rfl⟩ := hknown
  unfold RemoteUnmute
  rw [isRemote_iff]
  constructor
  · rintro ⟨hmuted, -, i, s, hlive', rfl, hne, hother⟩
    obtain ⟨rfl, -⟩ := Prod.mk.inj (Option.some.inj (hlive.symm.trans hlive'))
    exact ⟨rfl, ⟨hne, hother⟩, rfl, hmuted⟩
  · rintro ⟨rfl, ⟨hne, hother⟩, -, hmuted⟩
    exact ⟨hmuted, hparse, _, state, hlive, rfl, hne, hother⟩

/-- An item keeps the listener right about a nick, exactly when it is no remote un-mute. -/
theorem item_agrees (nick n : Str) (done : List PubSubItem) (item : PubSubItem)
    (h : believedMuted nick done n = isMuted nick done n) :
    believedMuted nick (done ++ [item]) n = isMuted nick (done ++ [item]) n ↔
      ¬RemoteUnmute nick done item n := by
  have hremote := @remoteUnmute_iff nick n done item
  have hcase := onItem_case (audioMute_default nick)
    ((audioMuteStateClient nick).onItems .init done).1 item
  unfold believedMuted isMuted
  rw [mutesTold_snoc, List.foldl_append, onItems_snoc]
  generalize (audioMuteStateClient nick).onItem _ item = r at hcase ⊢
  -- a publish is always told; a retraction is not when it looks like a remote un-mute
  cases hcase with
  | published info new_state _ hparse hsets _ =>
    refine (sets_agrees hsets h).trans (iff_of_true ?_ ?_)
    · rintro ⟨-, -, hnew, -⟩
      exact Bool.false_ne_true (hnew.symm.trans (new_parse_bool hparse))
    · rintro ⟨-, hnone, -⟩
      exact Option.some_ne_none _ (hparse.symm.trans hnone)
  | unknown hparse hunknown =>
    refine iff_of_true h ?_
    rintro ⟨-, -, info, state, hlive, -⟩
    rw [onItems_remembers (audioMute_default nick) done item.itemid, hlive] at hunknown
    exact Option.some_ne_none _ hunknown
  | retracted info _ hparse hknown hsets _ =>
    rw [hremote hparse hknown]
    exact sets_agrees hsets h

/-- An un-mute that is not a remote one is told. -/
theorem item_unmute_told (nick n : Str) (done : List PubSubItem) (item : PubSubItem)
    (hown : ¬RemoteUnmute nick done item n) (hold : isMuted nick done n = true)
    (hnew : isMuted nick (done ++ [item]) n = false) :
    mutesTold nick (done ++ [item])
      = mutesTold nick done ++ [.audioMuteStateChange n true false] := by
  have hremote := @remoteUnmute_iff nick n done item
  have hcase := onItem_case (audioMute_default nick)
    ((audioMuteStateClient nick).onItems .init done).1 item
  unfold isMuted at hold hnew
  rw [onItems_snoc] at hnew
  rw [mutesTold_snoc, List.append_right_inj]
  generalize (audioMuteStateClient nick).onItem _ item = r at hcase hnew ⊢
  cases hcase with
  | published info new_state _ hparse hsets _ =>
    refine sets_unmute_told hsets hold hnew ?_
    rintro ⟨-, -, hfalse, -⟩
    exact Bool.false_ne_true (hfalse.symm.trans (new_parse_bool hparse))
  | unknown _ _ => exact absurd (hnew.symm.trans hold) Bool.false_ne_true
  | retracted info _ hparse hknown hsets _ =>
    rw [hremote hparse hknown] at hown
    exact sets_unmute_told hsets hold hnew hown

/-- The listener is right about a nick all the time, exactly when there is no remote un-mute
of it. -/
theorem believed_always_iff (nick n : Str) (items : List PubSubItem) :
    (∀ done, done <+: items → believedMuted nick done n = isMuted nick done n) ↔
      ∀ done item, done ++ [item] <+: items → ¬RemoteUnmute nick done item n := by
  refine History.always_iff ?_ ?_ items
  · rfl
  · exact fun done item h => item_agrees nick n done item h

/-- Without a remote un-mute of a nick, the listener has its state after every item, and is told
of every un-mute. -/
theorem audio_mute_agreement (nick n : Str) (items : List PubSubItem)
    (h : ∀ done item, done ++ [item] <+: items → ¬RemoteUnmute nick done item n) :
    (∀ done, done <+: items → believedMuted nick done n = isMuted nick done n)
      ∧ ∀ done item, done ++ [item] <+: items → isMuted nick done n = true →
          isMuted nick (done ++ [item]) n = false →
            mutesTold nick (done ++ [item])
              = mutesTold nick done ++ [.audioMuteStateChange n true false] :=
  ⟨(believed_always_iff nick n items).2 h, fun done item hprefix =>
    item_unmute_told nick n done item (h done item hprefix)⟩

/-- Another nick mutes, and the item is retracted. -/
def mutedAndRetracted (publisher : Str) : List PubSubItem :=
  [stateItem (str "1") publisher QN_GOOGLE_MUC_AUDIO_MUTE (str "a"), retractedItem (str "1")]

/-- A nick that mutes itself. -/
theorem audio_mute_agreement_own :
    (∀ done, done <+: mutedAndRetracted (str "r@c/a") →
        believedMuted [] done (str "a") = isMuted [] done (str "a"))
      ∧ mutesTold [] (mutedAndRetracted (str "r@c/a"))
        = [.audioMuteStateChange (str "a") false true,
            .audioMuteStateChange (str "a") true false] := by
  have hown : ∀ done item, done ++ [item] <+: mutedAndRetracted (str "r@c/a") →
      ¬RemoteUnmute [] done item (str "a") := by
    rintro done item ⟨rest, hrest⟩ ⟨hmuted, hnone, info, state, hlive, -, -, hother⟩
    unfold mutedAndRetracted at hrest
    rcases done with _ | ⟨first, _ | ⟨second, done⟩⟩
    · exact absurd hmuted (by decide)
    · -- what is live is the item of the nick itself
      obtain ⟨hfirst, hrest⟩ := List.cons.inj hrest
      obtain ⟨hitem, -⟩ := List.cons.inj hrest
      have hself : (audioMuteStateClient []).liveItems
          [stateItem (str "1") (str "r@c/a") QN_GOOGLE_MUC_AUDIO_MUTE (str "a")] (str "1")
            = some (⟨str "a", str "a"⟩, true) := by decide
      rw [hfirst, hitem] at hlive
      obtain ⟨rfl, -⟩ := Prod.mk.inj (Option.some.inj (hself.symm.trans hlive))
      exact hother rfl
    · have hlength := congrArg List.length hrest
      rw [List.length_append, List.length_append, List.length_cons, List.length_cons,
        List.length_singleton, List.length_cons, List.length_cons, List.length_nil] at hlength
      omega
  obtain ⟨hagree, htold⟩ := audio_mute_agreement [] (str "a") (mutedAndRetracted (str "r@c/a")) hown
  refine ⟨hagree, ?_⟩
  have hretracted := htold
    [stateItem (str "1") (str "r@c/a") QN_GOOGLE_MUC_AUDIO_MUTE (str "a")] (retractedItem (str "1"))
    List.prefix_rfl (by decide) (by decide)
  exact hretracted

/-- The listener is not told that the nick is not muted any more. -/
theorem audio_mute_agreement_fails : ¬∀ nick n items,
    believedMuted nick items n = isMuted nick items n := by
  intro h
  exact absurd (h [] (str "a") (mutedAndRetracted (str "r@c/b"))) (by decide)

end Gxmpp
