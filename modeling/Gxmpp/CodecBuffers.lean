/-
What the codecs write, and that it stays in the buffer.

A turn of a codec looks at its source by position. Here every codec is given by what it makes of
the rest of its source (`Codec.next`), and `run_eq` says that its loop writes the pieces that
this cuts, up to the first that does not fit. Behind the source memory goes on, and no codec
cares: the only one that reads there is `strtoul`, and a number that ends at a semicolon inside
of the source is read the same whatever follows (`strtoul_behind`).

Nine codecs leave a place for the NUL. `xml_decode` asks `utf8_encode` for room up to the very
end of the buffer: a character of two bytes or more can fill it, and the NUL is written behind.
-/
import Gxmpp.StringEncode

set_option autoImplicit false

namespace Gxmpp.TalkBase.StringEncode

open Filling (Turn Output pieces fitting strictly loosely)

/-! ## 1. Memory -/

section Memory

variable (before : Str) (ch : UInt8) (rest beyond : Str)

theorem read_here : (before ++ ch :: rest ++ beyond).getD before.length 0 = ch := by
  simp [List.getD_eq_getElem?_getD]

theorem read_behind (k : ℕ) :
    (before ++ ch :: rest ++ beyond).getD (before.length + 1 + k) 0
      = (rest ++ beyond).getD k 0 := by
  rw [List.getD_eq_getElem?_getD, List.getD_eq_getElem?_getD, List.append_assoc,
    List.getElem?_append_right (by omega), Nat.add_assoc, Nat.add_sub_cancel_left,
    List.cons_append, Nat.add_comm 1 k, List.getElem?_cons_succ]

theorem drop_behind (k : ℕ) :
    (before ++ ch :: rest ++ beyond).drop (before.length + 1 + k) = (rest ++ beyond).drop k := by
  rw [List.append_assoc, Nat.add_assoc, List.drop_length_add_append, List.cons_append,
    Nat.add_comm 1 k, List.drop_succ_cons]

theorem drop_here :
    (before ++ ch :: rest ++ beyond).drop before.length = ch :: (rest ++ beyond) := by
  rw [List.append_assoc, List.drop_left, List.cons_append]

theorem length_source : (before ++ ch :: rest).length = before.length + 1 + rest.length := by
  rw [List.length_append, List.length_cons]
  omega

end Memory

/-! ## 2. A codec from its pieces -/

/-- What is written, one byte after the other, with the NUL behind it. -/
def written (bytes : Str) : Written := ⟨((Output.of bytes).put 0).writes, bytes.length⟩

@[simp] theorem text_written (bytes : Str) : (written bytes).text = bytes :=
  Filling.contents_of bytes 0

/-- A codec whose turn is the next piece writes the pieces that fit. -/
theorem codec_eq {source : Str} {buflen : ℕ} {turn : ℕ → ℕ → Turn UInt8}
    {next : Str → Option (Str × ℕ)} {fits : ℕ → Str → Bool} (hbuflen : 0 < buflen)
    (hnext : ∀ s p k, next s = some (p, k) → 0 < k)
    (hfits : ∀ pos p, fits pos p = true → pos + 1 < buflen)
    (hturn : ∀ before ch rest, source = before ++ ch :: rest → ∀ pos, pos + 1 < buflen →
      turn before.length pos = Filling.turnOf fits before.length pos (next (ch :: rest))) :
    codec buflen source.length turn
      = some (written (fitting fits 0 (pieces next source.length source)).flatten) := by
  have hcuts : Filling.Cuts source buflen turn next fits := by
    intro srcpos pos hsrcpos hpos
    have hsplit := List.take_append_drop srcpos source
    rw [List.drop_eq_getElem_cons hsrcpos] at hsplit
    have hcut := hturn (source.take srcpos) _ _ hsplit.symm pos hpos
    rw [List.length_take_of_le (Nat.le_of_lt hsrcpos)] at hcut
    rw [hcut, List.drop_eq_getElem_cons hsrcpos]
  unfold codec
  rw [if_neg (Nat.not_le_of_lt hbuflen), Filling.loop_eq hnext hfits hcuts]
  rfl

/-! ## 3. The pieces -/

/-- Every byte is written on its own. -/
def each (piece : UInt8 → Str) : Str → Option (Str × ℕ)
  | [] => none
  | ch :: _ => some (piece ch, 1)

def escapePiece (illegal : Str) (escape ch : UInt8) : Str :=
  if ch = escape ∨ strchr illegal ch then [escape, ch] else [ch]

def encodePiece (illegal : Str) (escape ch : UInt8) : Str :=
  if ch ≠ escape ∧ ¬ strchr illegal ch then [ch] else escape :: hexPair ch

def urlPiece (ch : UInt8) : Str := if isUnsafe URL_UNSAFE ch then 0x25 :: hexPair ch else [ch]

def xmlPiece (ch : UInt8) : Str := if isUnsafe XML_UNSAFE ch then xmlEscseq ch else [ch]

def unescapeNext (escape : UInt8) : Str → Option (Str × ℕ)
  | [] => none
  | [ch] => some ([ch], 1)
  | ch :: next :: _ => if ch = escape then some ([next], 2) else some ([ch], 1)

/-- The byte of the two digits in front. -/
def hexHead : Str → Option UInt8
  | h1 :: h2 :: _ => (hex_decode h1).bind fun v1 => (hex_decode h2).map fun v2 => hexByte v1 v2
  | _ => none

def decodeNext (escape : UInt8) : Str → Option (Str × ℕ)
  | [] => none
  | ch :: rest =>
    match (if ch = escape then hexHead rest else none) with
    | some byte => some ([byte], 3)
    | none => some ([ch], 1)

def urlDecodeNext : Str → Option (Str × ℕ)
  | [] => none
  | ch :: rest => if ch = 0x2B then some ([0x20], 1) else decodeNext 0x25 (ch :: rest)

/-- What `html_encode` takes a sequence for. -/
def htmlSequence (s : Str) : ℕ × ℕ := (utf8_decode s s.length).getD ((s.getD 0 0).toNat, 1)

def htmlNext : Str → Option (Str × ℕ)
  | [] => none
  | ch :: rest =>
    if ch < 128 then some (if isUnsafe HTML_UNSAFE ch then htmlEscseq ch else [ch], 1)
    else some (reference (htmlSequence (ch :: rest)).1, (htmlSequence (ch :: rest)).2)

/-- The bytes of a character. -/
def utf8 (value : ℕ) : Str := utf8_encode 4 value

/-- A numeric reference, with `skip` bytes in front of its number. -/
def referenceNext (skip base : ℕ) (t : Str) : Option (Str × ℕ) :=
  let (val, read) := strtoul (t.drop skip) base
  if (t.drop skip)[read]? = some 0x3B ∧ utf8 val ≠ [] then some (utf8 val, 1 + skip + read + 1)
  else none

def xmlDecodeNext : Str → Option (Str × ℕ)
  | [] => none
  | ch :: t =>
    if ch ≠ 0x26 then some ([ch], 1)
    else if (str "lt;").isPrefixOf t then some ([0x3C], 4)
    else if (str "gt;").isPrefixOf t then some ([0x3E], 4)
    else if (str "apos;").isPrefixOf t then some ([0x27], 6)
    else if (str "quot;").isPrefixOf t then some ([0x22], 6)
    else if (str "amp;").isPrefixOf t then some ([0x26], 5)
    else if (str "#x").isPrefixOf t then referenceNext 2 16 t
    else if (str "#").isPrefixOf t then referenceNext 1 10 t
    else none

/-- The ten codecs. -/
inductive Codec where
  | escape (illegal : Str) (escape : UInt8)
  | unescape (escape : UInt8)
  | encode (illegal : Str) (escape : UInt8)
  | decode (escape : UInt8)
  | url_encode
  | url_decode
  | html_encode
  | html_decode
  | xml_encode
  | xml_decode

/-- The codec at work. -/
def Codec.run (buflen : ℕ) (source : Str) (srclen : ℕ) : Codec → Option Written
  | .escape illegal esc => StringEncode.escape buflen source srclen illegal esc
  | .unescape esc => StringEncode.unescape buflen source srclen esc
  | .encode illegal esc => StringEncode.encode buflen source srclen illegal esc
  | .decode esc => StringEncode.decode buflen source srclen esc
  | .url_encode => StringEncode.url_encode buflen source srclen
  | .url_decode => StringEncode.url_decode buflen source srclen
  | .html_encode => StringEncode.html_encode buflen source srclen
  | .html_decode => StringEncode.html_decode buflen source srclen
  | .xml_encode => StringEncode.xml_encode buflen source srclen
  | .xml_decode => StringEncode.xml_decode buflen source srclen

/-- What the codec makes of the rest of its source. -/
def Codec.next : Codec → Str → Option (Str × ℕ)
  | .escape illegal esc => each (escapePiece illegal esc)
  | .unescape esc => unescapeNext esc
  | .encode illegal esc => each (encodePiece illegal esc)
  | .decode esc => decodeNext esc
  | .url_encode => each urlPiece
  | .url_decode => urlDecodeNext
  | .html_encode => htmlNext
  | .xml_encode => each xmlPiece
  | .html_decode | .xml_decode => xmlDecodeNext

/-- The codec reads numeric references. -/
def Codec.readsReferences : Codec → Bool
  | .html_decode | .xml_decode => true
  | _ => false

/-- The room that the codec asks for. -/
def Codec.fits (c : Codec) (buflen : ℕ) : ℕ → Str → Bool :=
  if c.readsReferences then loosely buflen else strictly buflen

theorem utf8_decode_pos {s : Str} {srclen value n : ℕ}
    (h : utf8_decode s srclen = some (value, n)) : 0 < n := by
  unfold utf8_decode at h
  grind

theorem htmlSequence_pos (s : Str) : 0 < (htmlSequence s).2 := by
  unfold htmlSequence
  cases h : utf8_decode s s.length with
  | none => exact Nat.one_pos
  | some value => exact utf8_decode_pos h

theorem referenceNext_pos {skip base k : ℕ} {t p : Str}
    (h : referenceNext skip base t = some (p, k)) : 0 < k := by
  unfold referenceNext at h
  dsimp only at h
  split at h
  · simp only [Option.some.injEq, Prod.mk.injEq] at h
    omega
  · cases h

/-- Every turn reads on. -/
theorem next_pos (c : Codec) (s p : Str) (k : ℕ) (h : c.next s = some (p, k)) : 0 < k := by
  rcases s with _ | ⟨ch, rest⟩
  · cases c <;> cases h
  have hdecode : ∀ escape, decodeNext escape (ch :: rest) = some (p, k) → 0 < k := by
    intro escape h
    unfold decodeNext at h
    grind
  have hxml : xmlDecodeNext (ch :: rest) = some (p, k) → 0 < k := by
    intro h
    have href := @referenceNext_pos
    unfold xmlDecodeNext at h
    grind
  cases c with
  | unescape esc =>
    simp only [Codec.next] at h
    unfold unescapeNext at h
    grind
  | decode esc => exact hdecode esc h
  | url_decode =>
    simp only [Codec.next] at h
    unfold urlDecodeNext at h
    grind
  | html_encode =>
    have hsequence := htmlSequence_pos (ch :: rest)
    simp only [Codec.next] at h
    unfold htmlNext at h
    grind
  | html_decode | xml_decode => exact hxml h
  | escape illegal esc | encode illegal esc | url_encode | xml_encode =>
    simp only [Codec.next, each, Option.some.injEq, Prod.mk.injEq] at h
    omega

/-! ## 4. The turns -/

section Turns

variable {buflen : ℕ} (source beyond : Str)

/-- What a codec writes that leaves a place for the NUL. -/
def cutStrictly (next : Str → Option (Str × ℕ)) (buflen : ℕ) (source : Str) : Written :=
  written (fitting (strictly buflen) 0 (pieces next source.length source)).flatten

/-- What a codec writes that does not. -/
def cutLoosely (next : Str → Option (Str × ℕ)) (buflen : ℕ) (source : Str) : Written :=
  written (fitting (loosely buflen) 0 (pieces next source.length source)).flatten

theorem codec_eq_strictly {turn : ℕ → ℕ → Turn UInt8} (c : Codec) (hbuflen : 0 < buflen)
    (hturn : ∀ before ch rest, source = before ++ ch :: rest → ∀ pos, pos + 1 < buflen →
      turn before.length pos
        = Filling.turnOf (strictly buflen) before.length pos (c.next (ch :: rest))) :
    codec buflen source.length turn = some (cutStrictly c.next buflen source) :=
  codec_eq hbuflen (next_pos c) (fun _ _ h => (Filling.strictly_iff.1 h).1) hturn

/-- A turn that puts a piece in any case puts one byte. -/
theorem turnOf_byte {pos srcpos k : ℕ} (byte : UInt8) (hpos : pos + 1 < buflen) :
    Filling.turnOf (strictly buflen) srcpos pos (some ([byte], k))
      = .put [byte] (srcpos + k) :=
  if_pos (Filling.strictly_iff.2 ⟨hpos, by simpa using hpos⟩)

/-- A turn that asks for the room of its piece. -/
theorem turnOf_room {pos srcpos k : ℕ} (piece : Str) (hpos : pos + 1 < buflen) :
    Filling.turnOf (strictly buflen) srcpos pos (some (piece, k))
      = if pos + piece.length ≥ buflen then .stop else .put piece (srcpos + k) := by
  unfold Filling.turnOf strictly
  grind

theorem escape_eq (hbuflen : 0 < buflen) (illegal : Str) (esc : UInt8) :
    escape buflen (source ++ beyond) source.length illegal esc
      = some (cutStrictly (each (escapePiece illegal esc)) buflen source) := by
  apply codec_eq_strictly source (.escape illegal esc) hbuflen
  rintro before ch rest rfl pos hpos
  dsimp only
  rw [read_here]
  show _ = Filling.turnOf _ _ _ (some (escapePiece illegal esc ch, 1))
  unfold escapePiece
  split
  · rw [turnOf_room _ hpos]
    rfl
  · rw [turnOf_byte _ hpos]

theorem encode_eq (hbuflen : 0 < buflen) (illegal : Str) (esc : UInt8) :
    encode buflen (source ++ beyond) source.length illegal esc
      = some (cutStrictly (each (encodePiece illegal esc)) buflen source) := by
  apply codec_eq_strictly source (.encode illegal esc) hbuflen
  rintro before ch rest rfl pos hpos
  dsimp only
  rw [read_here]
  show _ = Filling.turnOf _ _ _ (some (encodePiece illegal esc ch, 1))
  unfold encodePiece
  split
  · rw [turnOf_byte _ hpos]
  · rw [turnOf_room _ hpos]
    rfl

theorem url_encode_eq (hbuflen : 0 < buflen) :
    url_encode buflen (source ++ beyond) source.length
      = some (cutStrictly (each urlPiece) buflen source) := by
  apply codec_eq_strictly source .url_encode hbuflen
  rintro before ch rest rfl pos hpos
  dsimp only
  rw [read_here]
  show _ = Filling.turnOf _ _ _ (some (urlPiece ch, 1))
  unfold urlPiece
  split
  · rw [turnOf_room _ hpos]
    rfl
  · rw [turnOf_byte _ hpos]

theorem xml_encode_eq (hbuflen : 0 < buflen) :
    xml_encode buflen (source ++ beyond) source.length
      = some (cutStrictly (each xmlPiece) buflen source) := by
  apply codec_eq_strictly source .xml_encode hbuflen
  rintro before ch rest rfl pos hpos
  dsimp only
  rw [read_here]
  show _ = Filling.turnOf _ _ _ (some (xmlPiece ch, 1))
  unfold xmlPiece
  split
  · rw [turnOf_room _ hpos]
  · rw [turnOf_byte _ hpos]

theorem unescape_eq (hbuflen : 0 < buflen) (esc : UInt8) :
    unescape buflen (source ++ beyond) source.length esc
      = some (cutStrictly (unescapeNext esc) buflen source) := by
  apply codec_eq_strictly source (.unescape esc) hbuflen
  rintro before ch rest rfl pos hpos
  dsimp only
  rw [read_here, length_source]
  rcases rest with _ | ⟨next, rest⟩
  · rw [if_neg (by simp)]
    exact (turnOf_byte ch hpos).symm
  · have hnext : (before ++ ch :: next :: rest ++ beyond).getD (before.length + 1) 0 = next :=
      read_behind before ch (next :: rest) beyond 0
    rw [hnext]
    show _ = Filling.turnOf _ _ _ (if ch = esc then some ([next], 2) else some ([ch], 1))
    by_cases hch : ch = esc
    · rw [if_pos hch, if_pos ⟨hch, by simp⟩, turnOf_byte _ hpos]
    · rw [if_neg hch, if_neg (fun h => hch h.1), turnOf_byte _ hpos]

/-- Two digits are looked for inside of the source only. -/
theorem hexAt_behind (before : Str) (ch : UInt8) (rest : Str) :
    (if before.length + 1 + 1 < (before ++ ch :: rest).length then
      hexAt (before ++ ch :: rest ++ beyond) (before.length + 1) else none) = hexHead rest := by
  rw [length_source]
  rcases rest with _ | ⟨h1, _ | ⟨h2, rest⟩⟩
  · rw [if_neg (by simp)]
    rfl
  · rw [if_neg (by simp)]
    rfl
  · have hfirst : (before ++ ch :: h1 :: h2 :: rest ++ beyond).getD (before.length + 1) 0 = h1 :=
      read_behind before ch (h1 :: h2 :: rest) beyond 0
    have hsecond :
        (before ++ ch :: h1 :: h2 :: rest ++ beyond).getD (before.length + 1 + 1) 0 = h2 :=
      read_behind before ch (h1 :: h2 :: rest) beyond 1
    rw [if_pos (by simp)]
    unfold hexAt
    rw [hfirst, hsecond]
    rfl

/-- The turn of `decode`, at a character that is not read in another way. -/
theorem decode_turn (esc : UInt8) (before : Str) (ch : UInt8) (rest : Str) {pos : ℕ}
    (hpos : pos + 1 < buflen) :
    (if ch = esc ∧ before.length + 1 + 1 < (before ++ ch :: rest).length then
      match hexAt (before ++ ch :: rest ++ beyond) (before.length + 1) with
      | some byte => Turn.put [byte] (before.length + 1 + 2)
      | none => .put [ch] (before.length + 1)
    else .put [ch] (before.length + 1))
      = Filling.turnOf (strictly buflen) before.length pos (decodeNext esc (ch :: rest)) := by
  have hdigits := hexAt_behind beyond before ch rest
  unfold decodeNext
  dsimp only
  rw [← hdigits]
  by_cases hch : ch = esc
  · by_cases hlength : before.length + 1 + 1 < (before ++ ch :: rest).length
    · rw [if_pos ⟨hch, hlength⟩, if_pos hch, if_pos hlength]
      split <;> rw [turnOf_byte _ hpos]
    · rw [if_neg (fun h => hlength h.2), if_pos hch, if_neg hlength]
      exact (turnOf_byte ch hpos).symm
  · rw [if_neg (fun h => hch h.1), if_neg hch]
    exact (turnOf_byte ch hpos).symm

theorem decode_eq (hbuflen : 0 < buflen) (esc : UInt8) :
    decode buflen (source ++ beyond) source.length esc
      = some (cutStrictly (decodeNext esc) buflen source) := by
  apply codec_eq_strictly source (.decode esc) hbuflen
  rintro before ch rest rfl pos hpos
  dsimp only
  rw [read_here]
  exact decode_turn beyond esc before ch rest hpos

theorem url_decode_eq (hbuflen : 0 < buflen) :
    url_decode buflen (source ++ beyond) source.length
      = some (cutStrictly urlDecodeNext buflen source) := by
  apply codec_eq_strictly source .url_decode hbuflen
  rintro before ch rest rfl pos hpos
  dsimp only
  rw [read_here]
  show _ = Filling.turnOf _ _ _
    (if ch = 0x2B then some ([0x20], 1) else decodeNext 0x25 (ch :: rest))
  by_cases hch : ch = 0x2B
  · rw [if_pos hch, if_pos hch, turnOf_byte _ hpos]
  · rw [if_neg hch, if_neg hch]
    exact decode_turn beyond 0x25 before ch rest hpos

/-- A sequence is looked at inside of the source only. -/
theorem utf8_decode_behind (ch : UInt8) (rest : Str) :
    utf8_decode (ch :: rest ++ beyond) (ch :: rest).length
      = utf8_decode (ch :: rest) (ch :: rest).length := by
  rcases rest with _ | ⟨b, _ | ⟨c, _ | ⟨d, rest⟩⟩⟩ <;> simp [utf8_decode]

theorem html_encode_eq (hbuflen : 0 < buflen) :
    html_encode buflen (source ++ beyond) source.length
      = some (cutStrictly htmlNext buflen source) := by
  apply codec_eq_strictly source .html_encode hbuflen
  rintro before ch rest rfl pos hpos
  have hlength : (before ++ ch :: rest).length - before.length = (ch :: rest).length := by
    rw [List.length_append, Nat.add_sub_cancel_left]
  dsimp only
  rw [read_here, drop_here, hlength, ← List.cons_append, utf8_decode_behind]
  show _ = Filling.turnOf _ _ _ (if ch < 128 then
      some (if isUnsafe HTML_UNSAFE ch then htmlEscseq ch else [ch], 1)
    else some (reference (htmlSequence (ch :: rest)).1, (htmlSequence (ch :: rest)).2))
  by_cases hch : ch < 128
  · rw [if_pos hch, if_pos hch]
    split
    · rw [turnOf_room _ hpos]
    · rw [turnOf_byte _ hpos]
  · rw [if_neg hch, if_neg hch, turnOf_room _ hpos]
    rfl

end Turns

/-! ## 5. `strtoul` and `utf8_encode` -/

theorem dropWhile_semicolon {p : UInt8 → Bool} (hp : p 0x3B = false) (t w : Str) :
    (t ++ 0x3B :: w).dropWhile p = t.dropWhile p ++ 0x3B :: w := by
  induction t with
  | nil => simp [hp]
  | cons ch t ih =>
    rw [List.cons_append, List.dropWhile_cons, List.dropWhile_cons]
    split
    · exact ih
    · rfl

theorem takeWhile_semicolon {p : UInt8 → Bool} (hp : p 0x3B = false) (t w : Str) :
    (t ++ 0x3B :: w).takeWhile p = t.takeWhile p := by
  induction t with
  | nil => simp [hp]
  | cons ch t ih =>
    rw [List.cons_append, List.takeWhile_cons, List.takeWhile_cons, ih]

theorem strtoulSign_semicolon (t w : Str) :
    strtoulSign (t ++ 0x3B :: w) = ((strtoulSign t).1, (strtoulSign t).2 ++ 0x3B :: w) := by
  rcases t with _ | ⟨ch, t⟩
  · rfl
  · rw [List.cons_append]
    unfold strtoulSign
    dsimp only
    split
    · rfl
    · split <;> rfl

theorem strtoulPrefix_semicolon (base : ℕ) (t w : Str) :
    strtoulPrefix base (t ++ 0x3B :: w) = strtoulPrefix base t ++ 0x3B :: w := by
  have hdigit : isDigit 16 0x3B = false := by decide
  rcases t with _ | ⟨zero, _ | ⟨x, _ | ⟨ch, t⟩⟩⟩
  · rcases w with _ | ⟨a, _ | ⟨b, w⟩⟩ <;> simp [strtoulPrefix]
  · rcases w with _ | ⟨a, w⟩ <;> simp [strtoulPrefix]
  · simp [strtoulPrefix, hdigit]
  · simp only [List.cons_append, strtoulPrefix]
    split <;> rfl

/-- A number in front of a semicolon is read the same whatever is behind it. -/
theorem strtoul_semicolon (t w : Str) (base : ℕ) :
    strtoul (t ++ 0x3B :: w) base = strtoul t base := by
  have hspace : isspace 0x3B = false := by decide
  have hdigit : isDigit base 0x3B = false := by
    have hnone : digit 0x3B = none := by decide
    unfold isDigit
    rw [hnone]
    rfl
  unfold strtoul
  rw [dropWhile_semicolon hspace, strtoulSign_semicolon]
  dsimp only
  rw [strtoulPrefix_semicolon, takeWhile_semicolon hdigit, List.length_append,
    List.length_append, Nat.add_sub_add_right]

theorem strtoul_behind {u : Str} (h : 0x3B ∈ u) (w : Str) (base : ℕ) :
    strtoul (u ++ w) base = strtoul u base := by
  obtain ⟨t, v, rfl⟩ := List.append_of_mem h
  rw [List.append_assoc, List.cons_append, strtoul_semicolon, strtoul_semicolon]

/-- Where the number ends at a semicolon of the source, memory behind the source does not
count. -/
theorem strtoul_ends_iff (u w : Str) (base : ℕ) :
    u[(strtoul (u ++ w) base).2]? = some 0x3B ↔ u[(strtoul u base).2]? = some 0x3B := by
  constructor
  · intro hat
    rwa [strtoul_behind (List.mem_of_getElem? hat)] at hat
  · intro hat
    rwa [strtoul_behind (List.mem_of_getElem? hat)]

theorem utf8_encode_room {room val : ℕ} (hroom : 2 ≤ room) :
    utf8_encode room val = if (utf8 val).length ≤ room then utf8 val else [] := by
  have hone : 1 ≤ room := Nat.le_trans (by decide) hroom
  by_cases h1 : val ≤ 0x7F
  · have hall : utf8 val = [UInt8.ofNat val] := if_pos ⟨h1, by decide⟩
    rw [hall]
    exact (if_pos ⟨h1, hone⟩).trans (if_pos hone).symm
  have hnot1 : ∀ n, ¬(val ≤ 0x7F ∧ n ≥ 1) := fun _ h => h1 h.1
  by_cases h2 : val ≤ 0x7FF
  · have hall : utf8 val = [UInt8.ofNat (0xC0 ||| val >>> 6), trailer val] :=
      (if_neg (hnot1 4)).trans (if_pos ⟨h2, by decide⟩)
    rw [hall]
    exact ((if_neg (hnot1 room)).trans (if_pos ⟨h2, hroom⟩)).trans (if_pos hroom).symm
  have hnot2 : ∀ n, ¬(val ≤ 0x7FF ∧ n ≥ 2) := fun _ h => h2 h.1
  by_cases h3 : val ≤ 0xFFFF
  · have hall : utf8 val
        = [UInt8.ofNat (0xE0 ||| val >>> 12), trailer (val >>> 6), trailer val] :=
      (if_neg (hnot1 4)).trans ((if_neg (hnot2 4)).trans (if_pos ⟨h3, by decide⟩))
    rw [hall]
    unfold utf8_encode
    rw [if_neg (hnot1 room), if_neg (hnot2 room)]
    by_cases hthree : 3 ≤ room
    · exact (if_pos ⟨h3, hthree⟩).trans (if_pos hthree).symm
    · rw [if_neg (fun h => hthree h.2), if_neg (fun h => hthree (Nat.le_of_succ_le h.2))]
      exact (if_neg hthree).symm
  have hnot3 : ∀ n, ¬(val ≤ 0xFFFF ∧ n ≥ 3) := fun _ h => h3 h.1
  unfold utf8 utf8_encode
  rw [if_neg (hnot1 room), if_neg (hnot2 room), if_neg (hnot3 room), if_neg (hnot1 4),
    if_neg (hnot2 4), if_neg (hnot3 4)]
  by_cases h4 : val ≤ 0x1FFFFF
  · rw [if_pos (show val ≤ 0x1FFFFF ∧ 4 ≥ 4 from ⟨h4, Nat.le_refl 4⟩)]
    by_cases hfour : 4 ≤ room
    · exact (if_pos ⟨h4, hfour⟩).trans (if_pos hfour).symm
    · exact (if_neg (fun h => hfour h.2)).trans (if_neg hfour).symm
  · have hnot4 : ∀ n, ¬(val ≤ 0x1FFFFF ∧ n ≥ 4) := fun _ h => h4 h.1
    rw [if_neg (hnot4 room), if_neg (hnot4 4)]
    exact (ite_self _).symm

/-! ## 6. The turn of `xml_decode` -/

section XmlTurn

variable {buflen : ℕ} (beyond : Str)

/-- A name is looked for inside of the source only. -/
theorem memcmp_behind (before : Str) (ch : UInt8) (t text : Str) {n : ℕ}
    (hn : text.length = n + 1) :
    (before.length + 1 + n < (before ++ ch :: t).length
        ∧ memcmp (before ++ ch :: t ++ beyond) (before.length + 1) text = true)
      ↔ text.isPrefixOf t = true := by
  have hdrop := drop_behind before ch t beyond 0
  rw [Nat.add_zero, List.drop_zero] at hdrop
  unfold memcmp
  rw [length_source, hdrop, decide_eq_true_eq, List.isPrefixOf_iff_prefix,
    List.prefix_iff_eq_take]
  constructor
  · rintro ⟨hlt, htext⟩
    rw [List.take_append_of_le_length (by omega)] at htext
    exact htext.symm
  · intro htext
    have hle : text.length ≤ t.length := by
      rw [htext, List.length_take]
      exact Nat.min_le_right _ _
    rw [List.take_append_of_le_length hle]
    exact ⟨by omega, htext.symm⟩

/-- A character is looked for inside of the source only. -/
theorem read_char (before : Str) (ch : UInt8) (t : Str) (k : ℕ) (c : UInt8) :
    (before.length + 1 + k < (before ++ ch :: t).length
        ∧ (before ++ ch :: t ++ beyond).getD (before.length + 1 + k) 0 = c)
      ↔ t[k]? = some c := by
  rw [length_source, read_behind, Nat.add_lt_add_iff_left, List.getD_eq_getElem?_getD]
  constructor
  · rintro ⟨hk, hc⟩
    rw [List.getElem?_append_left hk, List.getElem?_eq_getElem hk, Option.getD_some] at hc
    rw [List.getElem?_eq_getElem hk, hc]
  · intro hc
    obtain ⟨hk, -⟩ := List.getElem?_eq_some_iff.1 hc
    rw [List.getElem?_append_left hk, hc]
    exact ⟨hk, rfl⟩

/-- The turn at a numeric reference. -/
theorem reference_turn (before : Str) (ch : UInt8) (t : Str) {skip pos : ℕ} (base : ℕ)
    (hskip : skip ≤ t.length) (hpos : pos + 1 < buflen) :
    (let (val, read) := strtoul ((before ++ ch :: t ++ beyond).drop (before.length + 1 + skip)) base
      let ptr := before.length + 1 + skip + read
      if ptr < (before ++ ch :: t).length ∧ (before ++ ch :: t ++ beyond).getD ptr 0 = 0x3B then
        match utf8_encode (buflen - pos) val with
        | [] => Turn.stop
        | esc => .put esc (ptr + 1)
      else .stop)
      = Filling.turnOf (loosely buflen) before.length pos (referenceNext skip base t) := by
  have hends := strtoul_ends_iff (t.drop skip) beyond base
  have hread := read_char beyond before ch t (skip + (strtoul (t.drop skip ++ beyond) base).2) 0x3B
  rw [← List.getElem?_drop, hends, ← Nat.add_assoc] at hread
  rw [drop_behind, List.drop_append_of_le_length hskip]
  unfold referenceNext
  dsimp only
  by_cases hat : (t.drop skip)[(strtoul (t.drop skip) base).2]? = some 0x3B
  · rw [if_pos (hread.2 hat), strtoul_behind (List.mem_of_getElem? hat),
      utf8_encode_room (by omega)]
    rcases hbytes : utf8 (strtoul (t.drop skip) base).1 with _ | ⟨b, bytes⟩
    · simp [Filling.turnOf]
    · by_cases hroom : (b :: bytes).length ≤ buflen - pos
      · have hfits : loosely buflen pos (b :: bytes) = true :=
          Filling.loosely_iff.2 ⟨hpos, by omega⟩
        rw [if_pos hroom, if_pos ⟨hat, by simp⟩]
        dsimp only [Filling.turnOf]
        rw [if_pos hfits]
        congr 1
        omega
      · have hfits : ¬ loosely buflen pos (b :: bytes) = true := by
          rw [Filling.loosely_iff]
          omega
        rw [if_neg hroom, if_pos ⟨hat, by simp⟩]
        exact (if_neg hfits).symm
  · rw [if_neg (fun h => hat (hread.1 h)), if_neg (fun h => hat h.1)]
    rfl

theorem turnOf_byte_loosely {pos srcpos k : ℕ} (byte : UInt8) (hpos : pos + 1 < buflen) :
    Filling.turnOf (loosely buflen) srcpos pos (some ([byte], k)) = .put [byte] (srcpos + k) :=
  if_pos (Filling.loosely_iff.2 ⟨hpos, by simpa using Nat.le_of_lt hpos⟩)

theorem isPrefixOf_reference (t : Str) : (str "#").isPrefixOf t = true ↔ t[0]? = some 0x23 := by
  show ([0x23] : Str).isPrefixOf t = true ↔ _
  rcases t with _ | ⟨a, t⟩
  · simp
  · simpa using eq_comm

theorem isPrefixOf_hexReference (t : Str) :
    (str "#x").isPrefixOf t = true ↔ t[0]? = some 0x23 ∧ t[1]? = some 0x78 := by
  show ([0x23, 0x78] : Str).isPrefixOf t = true ↔ _
  rcases t with _ | ⟨a, _ | ⟨b, t⟩⟩
  · simp
  · simp
  · simpa using and_congr eq_comm eq_comm

theorem xml_decode_eq (source : Str) (hbuflen : 0 < buflen) :
    xml_decode buflen (source ++ beyond) source.length
      = some (cutLoosely xmlDecodeNext buflen source) := by
  apply codec_eq hbuflen (next_pos .xml_decode) (fun _ _ h => (Filling.loosely_iff.1 h).1)
  rintro before ch t rfl pos hpos
  have hlt := memcmp_behind beyond before ch t (str "lt;") (n := 2) rfl
  have hgt := memcmp_behind beyond before ch t (str "gt;") (n := 2) rfl
  have hapos := memcmp_behind beyond before ch t (str "apos;") (n := 4) rfl
  have hquot := memcmp_behind beyond before ch t (str "quot;") (n := 4) rfl
  have hamp := memcmp_behind beyond before ch t (str "amp;") (n := 3) rfl
  have hhash := read_char beyond before ch t 0 0x23
  have hx := read_char beyond before ch t 1 0x78
  rw [Nat.add_zero] at hhash
  dsimp only
  rw [read_here]
  simp only [hlt, hgt, hapos, hquot, hamp, hhash, hx]
  show _ = Filling.turnOf _ _ _ (xmlDecodeNext (ch :: t))
  unfold xmlDecodeNext
  simp only [apply_ite (Filling.turnOf (loosely buflen) before.length pos),
    turnOf_byte_loosely _ hpos]
  repeat' refine if_congr Iff.rfl rfl ?_
  have hstart := isPrefixOf_reference t
  have hhex := isPrefixOf_hexReference t
  by_cases h0 : t[0]? = some 0x23
  · have hone : 1 ≤ t.length := (List.getElem?_eq_some_iff.1 h0).1
    rw [if_pos h0, if_pos (hstart.2 h0)]
    by_cases h1 : t[1]? = some 0x78
    · have htwo : 2 ≤ t.length := (List.getElem?_eq_some_iff.1 h1).1
      simp only [if_pos h1]
      rw [if_pos (hhex.2 ⟨h0, h1⟩)]
      exact reference_turn beyond before ch t 16 htwo hpos
    · simp only [if_neg h1]
      rw [if_neg (fun h => h1 (hhex.1 h).2)]
      exact reference_turn beyond before ch t 10 hone hpos
  · rw [if_neg h0, if_neg (fun h => h0 (hhex.1 h).1), if_neg (fun h => h0 (hstart.1 h))]
    rfl

end XmlTurn

/-! ## 7. The buffer -/

/-- What the codec writes into a buffer. -/
def Codec.output (c : Codec) (buflen : ℕ) (source : Str) : Written :=
  written (fitting (c.fits buflen) 0 (pieces c.next source.length source)).flatten

/-- The loop ends, and memory behind the source does not count. -/
theorem run_eq (c : Codec) {buflen : ℕ} (source beyond : Str) (hbuflen : 0 < buflen) :
    c.run buflen (source ++ beyond) source.length = some (c.output buflen source) := by
  cases c with
  | escape illegal esc => exact escape_eq source beyond hbuflen illegal esc
  | unescape esc => exact unescape_eq source beyond hbuflen esc
  | encode illegal esc => exact encode_eq source beyond hbuflen illegal esc
  | decode esc => exact decode_eq source beyond hbuflen esc
  | url_encode => exact url_encode_eq source beyond hbuflen
  | url_decode => exact url_decode_eq source beyond hbuflen
  | html_encode => exact html_encode_eq source beyond hbuflen
  | xml_encode => exact xml_encode_eq source beyond hbuflen
  | html_decode | xml_decode => exact xml_decode_eq beyond source hbuflen

/-- The codec writes `out` whatever is behind its source, every byte of it into the buffer, and
the result is the place of the NUL. -/
structure InBuffer (c : Codec) (buflen : ℕ) (source : Str) (out : Written) : Prop where
  reads : ∀ beyond, c.run buflen (source ++ beyond) source.length = some out
  inside : ∀ w ∈ out.writes, w.2 < buflen
  result : out.result < buflen
  ends : out.writes.getLast? = some (0, out.result)

def StaysInBuffer (c : Codec) (buflen : ℕ) (source : Str) : Prop :=
  ∃ out, InBuffer c buflen source out

theorem writes_written (bytes : Str) :
    (written bytes).writes = bytes.zipIdx ++ [(0, bytes.length)] := rfl

theorem inBuffer_written {c : Codec} {buflen : ℕ} {source bytes : Str}
    (hrun : ∀ beyond, c.run buflen (source ++ beyond) source.length = some (written bytes))
    (hbytes : bytes.length < buflen) : InBuffer c buflen source (written bytes) := by
  refine ⟨hrun, ?_, hbytes, ?_⟩
  · intro w hw
    rw [writes_written] at hw
    rcases List.mem_append.1 hw with hw | hw
    · have hlt := List.snd_lt_of_mem_zipIdx hw
      omega
    · rw [List.mem_singleton.1 hw]
      exact hbytes
  · rw [writes_written, List.getLast?_concat]
    rfl

theorem staysInBuffer_iff_length (c : Codec) {buflen : ℕ} (source : Str) (hbuflen : 0 < buflen) :
    StaysInBuffer c buflen source ↔ (c.output buflen source).result < buflen := by
  constructor
  · rintro ⟨out, hout⟩
    have hrun := hout.reads []
    rw [run_eq c source [] hbuflen] at hrun
    rw [Option.some.inj hrun]
    exact hout.result
  · intro hlt
    exact ⟨_, inBuffer_written (fun beyond => run_eq c source beyond hbuflen) hlt⟩

/-! ## 8. What fills the buffer -/

/-- What `xml_decode` reads as one character. -/
inductive Token where
  | plain (ch : UInt8)
  | lt
  | gt
  | apos
  | quot
  | amp
  | decimal (digits : Str)
  | hex (digits : Str)

def Token.text : Token → Str
  | .plain ch => [ch]
  | .lt => str "&lt;"
  | .gt => str "&gt;"
  | .apos => str "&apos;"
  | .quot => str "&quot;"
  | .amp => str "&amp;"
  | .decimal digits => str "&#" ++ digits ++ str ";"
  | .hex digits => str "&#x" ++ digits ++ str ";"

/-- What it stands for. -/
def Token.bytes : Token → Str
  | .plain ch => [ch]
  | .lt => str "<"
  | .gt => str ">"
  | .apos => str "'"
  | .quot => str "\""
  | .amp => str "&"
  | .decimal digits => utf8 (strtoul digits 10).1
  | .hex digits => utf8 (strtoul digits 16).1

/-- `strtoul` reads a number to its end, and there is such a character. -/
def Numeral (base : ℕ) (digits : Str) : Prop :=
  (strtoul digits base).2 = digits.length ∧ (strtoul digits base).1 ≤ 0x1FFFFF

def Token.Proper : Token → Prop
  | .plain ch => ch ≠ 0x26
  | .decimal digits => Numeral 10 digits
  | .hex digits => Numeral 16 digits
  | _ => True

theorem utf8_ne_nil_iff (value : ℕ) : utf8 value ≠ [] ↔ value ≤ 0x1FFFFF := by
  unfold utf8 utf8_encode
  split_ifs <;> simp <;> omega

/-- A reference that is read is a numeral and a semicolon. -/
theorem referenceNext_iff {skip base k : ℕ} {t p : Str} :
    referenceNext skip base t = some (p, k)
      ↔ ∃ digits w, t.drop skip = digits ++ 0x3B :: w ∧ Numeral base digits
        ∧ utf8 (strtoul digits base).1 = p ∧ 1 + skip + digits.length + 1 = k := by
  unfold referenceNext Numeral
  dsimp only
  constructor
  · intro h
    split at h
    · next hat =>
        obtain ⟨hat, hbytes⟩ := hat
        obtain ⟨hlt, hends⟩ := List.getElem?_eq_some_iff.1 hat
        simp only [Option.some.injEq, Prod.mk.injEq] at h
        have hsplit := List.take_append_drop (strtoul (t.drop skip) base).2 (t.drop skip)
        rw [List.drop_eq_getElem_cons hlt, hends] at hsplit
        have hsame : strtoul ((t.drop skip).take (strtoul (t.drop skip) base).2) base
            = strtoul (t.drop skip) base := by
          conv_rhs => rw [← hsplit, strtoul_semicolon]
        have hlength : ((t.drop skip).take (strtoul (t.drop skip) base).2).length
            = (strtoul (t.drop skip) base).2 := List.length_take_of_le (Nat.le_of_lt hlt)
        refine ⟨_, _, hsplit.symm, ⟨?_, ?_⟩, ?_, ?_⟩
        · rw [hsame, hlength]
        · rw [hsame]
          exact (utf8_ne_nil_iff _).1 hbytes
        · rw [hsame]
          exact h.1
        · rw [hlength]
          exact h.2
    · cases h
  · rintro ⟨digits, w, hsplit, ⟨hread, hvalue⟩, rfl, rfl⟩
    rw [hsplit, strtoul_semicolon, hread, if_pos]
    refine ⟨?_, (utf8_ne_nil_iff _).2 hvalue⟩
    rw [List.getElem?_append_right (Nat.le_refl _), Nat.sub_self]
    rfl

theorem numeral_head {digits : Str} (h : Numeral 10 digits) : digits[0]? ≠ some 0x78 := by
  rintro hx
  obtain ⟨rest, rfl⟩ : ∃ rest, digits = 0x78 :: rest := by
    rcases digits with _ | ⟨x, rest⟩
    · cases hx
    · exact ⟨rest, by simpa using hx⟩
  have hnone : strtoul (0x78 :: rest) 10 = (0, 0) := by
    have hspace : isspace 0x78 = false := by decide
    have hdigit : isDigit 10 0x78 = false := by decide
    unfold strtoul
    rw [List.dropWhile_cons_of_neg (by simp [hspace])]
    rcases rest with _ | ⟨a, _ | ⟨b, rest⟩⟩ <;> simp [strtoulSign, strtoulPrefix, hdigit]
  have hread := h.1
  rw [hnone] at hread
  cases hread

/-- A character of the source is read as what it stands for, whatever follows. -/
theorem xmlDecodeNext_text {tok : Token} (h : tok.Proper) (t : Str) :
    xmlDecodeNext (tok.text ++ t) = some (tok.bytes, tok.text.length) := by
  cases tok with
  | plain ch => exact if_pos h
  | lt | gt | apos | quot | amp => rfl
  | decimal digits =>
    have hshape : (Token.decimal digits).text ++ t = 0x26 :: 0x23 :: (digits ++ 0x3B :: t) := by
      simp [Token.text, str]
    have hnext : xmlDecodeNext (0x26 :: 0x23 :: (digits ++ 0x3B :: t))
        = if (str "#x").isPrefixOf (0x23 :: (digits ++ 0x3B :: t)) then
            referenceNext 2 16 (0x23 :: (digits ++ 0x3B :: t))
          else referenceNext 1 10 (0x23 :: (digits ++ 0x3B :: t)) := rfl
    have hnot : ¬ (str "#x").isPrefixOf (0x23 :: (digits ++ 0x3B :: t)) = true := by
      rw [isPrefixOf_hexReference]
      rintro ⟨-, hx⟩
      rw [List.getElem?_cons_succ] at hx
      rcases digits with _ | ⟨x, digits⟩
      · simp at hx
      · exact numeral_head h hx
    rw [hshape, hnext, if_neg hnot, referenceNext_iff]
    refine ⟨digits, t, rfl, h, rfl, ?_⟩
    simp [Token.text, str]
    omega
  | hex digits =>
    have hshape : (Token.hex digits).text ++ t
        = 0x26 :: 0x23 :: 0x78 :: (digits ++ 0x3B :: t) := by
      simp [Token.text, str]
    have hnext : xmlDecodeNext (0x26 :: 0x23 :: 0x78 :: (digits ++ 0x3B :: t))
        = referenceNext 2 16 (0x23 :: 0x78 :: (digits ++ 0x3B :: t)) := rfl
    rw [hshape, hnext, referenceNext_iff]
    refine ⟨digits, t, rfl, h, rfl, ?_⟩
    simp [Token.text, str]
    omega

/-- What is read is a character. -/
theorem exists_token {s p : Str} {k : ℕ} (h : xmlDecodeNext s = some (p, k)) :
    ∃ tok : Token, tok.Proper ∧ s = tok.text ++ s.drop k ∧ tok.bytes = p := by
  suffices hsplit : ∃ (tok : Token) (t : Str), tok.Proper ∧ s = tok.text ++ t by
    obtain ⟨tok, t, hproper, rfl⟩ := hsplit
    rw [xmlDecodeNext_text hproper] at h
    obtain ⟨rfl, rfl⟩ := Prod.mk.inj (Option.some.inj h)
    exact ⟨tok, hproper, by rw [List.drop_left], rfl⟩
  rcases s with _ | ⟨ch, t⟩
  · cases h
  by_cases hch : ch ≠ 0x26
  · exact ⟨.plain ch, t, hch, rfl⟩
  obtain rfl := not_not.1 hch
  have hnamed : ∀ tok : Token, tok.Proper → ∀ name, tok.text = 0x26 :: name →
      name.isPrefixOf t = true →
        ∃ (tok : Token) (t' : Str), tok.Proper ∧ 0x26 :: t = tok.text ++ t' := by
    intro tok hproper name htext hname
    obtain ⟨t', rfl⟩ := List.isPrefixOf_iff_prefix.1 hname
    exact ⟨tok, t', hproper, by rw [htext, List.cons_append]⟩
  unfold xmlDecodeNext at h
  simp only [ne_eq, not_true, if_false] at h
  split at h
  · next hlt => exact hnamed .lt trivial (str "lt;") rfl hlt
  split at h
  · next hgt => exact hnamed .gt trivial (str "gt;") rfl hgt
  split at h
  · next hapos => exact hnamed .apos trivial (str "apos;") rfl hapos
  split at h
  · next hquot => exact hnamed .quot trivial (str "quot;") rfl hquot
  split at h
  · next hamp => exact hnamed .amp trivial (str "amp;") rfl hamp
  split at h
  · next hhex =>
      obtain ⟨t, rfl⟩ := List.isPrefixOf_iff_prefix.1 hhex
      obtain ⟨digits, w, hdrop, hnumeral, -, -⟩ := referenceNext_iff.1 h
      refine ⟨.hex digits, w, hnumeral, ?_⟩
      have ht : t = digits ++ 0x3B :: w := hdrop
      rw [ht]
      simp [Token.text, str]
  split at h
  · next hhash =>
      obtain ⟨t, rfl⟩ := List.isPrefixOf_iff_prefix.1 hhash
      obtain ⟨digits, w, hdrop, hnumeral, -, -⟩ := referenceNext_iff.1 h
      refine ⟨.decimal digits, w, hnumeral, ?_⟩
      have ht : t = digits ++ 0x3B :: w := hdrop
      rw [ht]
      simp [Token.text, str]
  · cases h

/-- The characters in front of a place of the source fill the buffer to its end, and the last of
them takes more than one byte. -/
def Fills (source : Str) (buflen : ℕ) : Prop :=
  ∃ (tokens : List Token) (last : Token) (rest : Str),
    (∀ tok ∈ tokens ++ [last], tok.Proper)
      ∧ source = (tokens ++ [last]).flatMap Token.text ++ rest
      ∧ ((tokens ++ [last]).flatMap Token.bytes).length = buflen
      ∧ 2 ≤ last.bytes.length

theorem text_ne_nil (tok : Token) : tok.text ≠ [] := by
  cases tok <;> simp [Token.text, str]

theorem xmlDecodeNext_pos : ∀ s p k, xmlDecodeNext s = some (p, k) → 0 < k :=
  next_pos .xml_decode

/-- The pieces of a source that fill the buffer are characters that do. -/
theorem fills_iff (source : Str) (buflen : ℕ) :
    Fills source buflen
      ↔ ∃ qs q, qs ++ [q] <+: pieces xmlDecodeNext source.length source
        ∧ 0 + (qs ++ [q]).flatten.length = buflen ∧ 2 ≤ q.length := by
  constructor
  · rintro ⟨tokens, last, rest, hproper, rfl, hlength, hlast⟩
    refine ⟨tokens.map Token.bytes, last.bytes, ?_, ?_, hlast⟩
    · rw [Filling.pieces_flatMap_append xmlDecodeNext_pos (fun tok _ => text_ne_nil tok)
        (fun tok htok => xmlDecodeNext_text (hproper tok htok)) (Nat.le_refl _), List.map_append,
        List.map_singleton]
      exact List.prefix_append _ _
    · rw [Nat.zero_add, ← hlength, List.flatMap_def, List.map_append, List.map_singleton]
  · rintro ⟨qs, q, hpieces, hlength, hq⟩
    obtain ⟨l, rest, hproper, hsource, hmap⟩ :=
      Filling.exists_parts Token.text (fun s p k h => exists_token h) hpieces
    obtain ⟨tokens, lasts, rfl, rfl, hlasts⟩ := List.map_eq_append_iff.1 hmap
    obtain ⟨last, rfl, rfl⟩ := List.map_eq_singleton_iff.1 hlasts
    refine ⟨tokens, last, rest, hproper, hsource, ?_, hq⟩
    rw [← hlength, Nat.zero_add, List.flatMap_def, List.map_append, List.map_singleton]

theorem next_of_readsReferences {c : Codec} (h : c.readsReferences = true) :
    c.next = xmlDecodeNext := by
  cases c with
  | html_decode | xml_decode => rfl
  | _ => cases h

/-- A codec stays in its buffer, unless it reads references and they fill it. -/
theorem staysInBuffer_iff (c : Codec) (buflen : ℕ) (source : Str) (hbuflen : 1 ≤ buflen) :
    StaysInBuffer c buflen source ↔ ¬ (c.readsReferences = true ∧ Fills source buflen) := by
  rw [staysInBuffer_iff_length c source hbuflen]
  show (fitting (c.fits buflen) 0 (pieces c.next source.length source)).flatten.length < buflen ↔ _
  by_cases hc : c.readsReferences = true
  · have hfull := Filling.full_iff (show 0 < buflen from hbuflen)
      (pieces xmlDecodeNext source.length source)
    have hmost := Filling.length_fitting_le (Nat.zero_le buflen)
      (pieces xmlDecodeNext source.length source)
    have hfits : c.fits buflen = loosely buflen := if_pos hc
    rw [hfits, next_of_readsReferences hc, fills_iff, ← hfull]
    rw [Nat.zero_add] at hmost ⊢
    constructor
    · intro hlt hfills
      exact Nat.ne_of_lt hlt hfills.2
    · intro hnot
      exact Nat.lt_of_le_of_ne hmost fun heq => hnot ⟨hc, heq⟩
  · have hless := Filling.length_fitting_lt (show 0 < buflen from hbuflen)
      (pieces c.next source.length source)
    have hfits : c.fits buflen = strictly buflen := if_neg hc
    rw [hfits]
    rw [Nat.zero_add] at hless
    exact iff_of_true hless fun hfills => hc hfills.1

/-- `xml_decode` of `&#xE9;` into two bytes. -/
theorem staysInBuffer_two :
    1 ≤ 2 ∧ (StaysInBuffer .xml_decode 2 (str "&#xE9;")
      ↔ ¬ (Codec.xml_decode.readsReferences = true ∧ Fills (str "&#xE9;") 2)) :=
  ⟨by decide, staysInBuffer_iff .xml_decode 2 (str "&#xE9;") (by decide)⟩

/-- The NUL behind it is written behind the buffer. -/
theorem nul_behind_buffer :
    ¬ (∀ (c : Codec) (buflen : ℕ) (source : Str), 1 ≤ buflen → StaysInBuffer c buflen source) := by
  intro h
  obtain ⟨out, hout⟩ := h .xml_decode 2 (str "&#xE9;") (by decide)
  have hrun : Codec.run 2 (str "&#xE9;" ++ []) (str "&#xE9;").length .xml_decode
      = some ⟨[(0xC3, 0), (0xA9, 1), (0, 2)], 2⟩ := by
    decide +kernel
  rw [hout.reads] at hrun
  have hresult := hout.result
  rw [Option.some.inj hrun] at hresult
  exact absurd hresult (by decide)

end Gxmpp.TalkBase.StringEncode
