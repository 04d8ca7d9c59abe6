/-
`talk/base/stringencode.cc`: the codecs that write a buffer from a source, and the tokenizers.

A codec gets memory and how much of it is its source: it reads by position, and nothing in the
model keeps it from reading on behind the source, as `strtoul` does. What it writes is kept with
the places, so that a write outside of the buffer is seen. The ten codecs share the loop, the
room that is asked for and the NUL behind the last byte (`codec`), and each has its own turn.

`unsigned long` has 64 bits.
-/
import Gxmpp.ChatroomModule
import Gxmpp.Filling
import Gxmpp.XmlnsStack

set_option autoImplicit false

namespace Gxmpp.TalkBase.StringEncode

open Filling (Turn)

/-! ## The buffer -/

/-- What a codec wrote, and what it returned. -/
structure Written where
  writes : List (UInt8 × Nat)
  result : Nat
deriving DecidableEq, Repr

/-- The buffer up to the result. -/
def Written.text (w : Written) : Str := Filling.contents w.writes w.result

/-- What the codecs have in common: `while ((srcpos < srclen) && (bufpos + 1 < buflen))`, and
`buffer[bufpos] = '\0'` behind it. -/
def codec (buflen srclen : Nat) (turn : Nat → Nat → Turn UInt8) : Option Written :=
  if buflen ≤ 0 then some ⟨[], 0⟩
  else (Filling.loop srclen buflen turn).map fun out => ⟨(out.put 0).writes, out.pos⟩

/-! ## The C library -/

/-- `strchr(illegal, ch) != NULL`; the terminator is a part of the string. -/
def strchr (illegal : Str) (ch : UInt8) : Bool := ch = 0 || (illegal.takeWhile (· ≠ 0)).contains ch

/-- `memcmp(source + srcpos, text, strlen(text)) == 0`. -/
def memcmp (source : Str) (srcpos : Nat) (text : Str) : Bool :=
  (source.drop srcpos).take text.length = text

def ULONG_MAX : Nat := 2 ^ 64 - 1

/-- The value of a digit for `strtoul`. -/
def digit (ch : UInt8) : Option Nat :=
  if 0x30 ≤ ch ∧ ch ≤ 0x39 then some (ch.toNat - 0x30)
  else if 0x41 ≤ ch ∧ ch ≤ 0x5A then some (ch.toNat - 0x41 + 10)
  else if 0x61 ≤ ch ∧ ch ≤ 0x7A then some (ch.toNat - 0x61 + 10)
  else none

def isDigit (base : Nat) (ch : UInt8) : Bool := (digit ch).any fun d => d < base

/-- A sign, and what is behind it. -/
def strtoulSign : Str → Bool × Str
  | ch :: s => if ch = 0x2D then (true, s) else if ch = 0x2B then (false, s) else (false, ch :: s)
  | [] => (false, [])

/-- What is behind `0x`, if a digit is. -/
def strtoulPrefix (base : Nat) : Str → Str
  | zero :: x :: ch :: s =>
    if base = 16 ∧ zero = 0x30 ∧ (x = 0x78 ∨ x = 0x58) ∧ isDigit 16 ch then ch :: s
    else zero :: x :: ch :: s
  | s => s

def strtoulValue (base : Nat) (negative : Bool) (digits : Str) : Nat :=
  let n := digits.foldl (fun n ch => base * n + (digit ch).getD 0) 0
  if n > ULONG_MAX then ULONG_MAX else if negative then (2 ^ 64 - n) % 2 ^ 64 else n

/-- `strtoul`: the value, and how much was read, which is nothing if there is no digit. -/
def strtoul (s : Str) (base : Nat) : Nat × Nat :=
  let (negative, signed) := strtoulSign (s.dropWhile isspace)
  let number := strtoulPrefix base signed
  let digits := number.takeWhile (isDigit base)
  if digits.isEmpty then (0, 0)
  else (strtoulValue base negative digits, s.length - number.length + digits.length)

/-! ## Digits -/

def HEX : Str := str "0123456789abcdef"

/-- `hex_encode` of one value. -/
def hex_encode (val : Nat) : UInt8 := if val < 16 then HEX.getD val 0 else 0x21

/-- The two digits of a byte. -/
def hexPair (ch : UInt8) : Str :=
  [hex_encode ((ch.toNat >>> 4) &&& 0xF), hex_encode (ch.toNat &&& 0xF)]

/-- `hex_decode` of one digit. -/
def hex_decode (ch : UInt8) : Option Nat :=
  if 0x30 ≤ ch ∧ ch ≤ 0x39 then some (ch.toNat - 0x30)
  else if 0x41 ≤ ch ∧ ch ≤ 0x5A then some (ch.toNat - 0x41 + 10)
  else if 0x61 ≤ ch ∧ ch ≤ 0x7A then some (ch.toNat - 0x61 + 10)
  else none

/-- `(h1 << 4) | h2`, in a byte. -/
def hexByte (h1 h2 : Nat) : UInt8 := UInt8.ofNat (h1 <<< 4 ||| h2)

/-! ## `escape`, `encode` and their inverses -/

def escape (buflen : Nat) (source : Str) (srclen : Nat) (illegal : Str) (escape : UInt8) :
    Option Written :=
  codec buflen srclen fun srcpos bufpos =>
    let ch := source.getD srcpos 0
    if ch = escape ∨ strchr illegal ch then
      if bufpos + 2 ≥ buflen then .stop else .put [escape, ch] (srcpos + 1)
    else .put [ch] (srcpos + 1)

def unescape (buflen : Nat) (source : Str) (srclen : Nat) (escape : UInt8) : Option Written :=
  codec buflen srclen fun srcpos _ =>
    let ch := source.getD srcpos 0
    if ch = escape ∧ srcpos + 1 < srclen then .put [source.getD (srcpos + 1) 0] (srcpos + 2)
    else .put [ch] (srcpos + 1)

def encode (buflen : Nat) (source : Str) (srclen : Nat) (illegal : Str) (escape : UInt8) :
    Option Written :=
  codec buflen srclen fun srcpos bufpos =>
    let ch := source.getD srcpos 0
    if ch ≠ escape ∧ ¬ strchr illegal ch then .put [ch] (srcpos + 1)
    else if bufpos + 3 ≥ buflen then .stop
    else .put (escape :: hexPair ch) (srcpos + 1)

/-- The byte of the two digits at a place of the source, if they are digits. -/
def hexAt (source : Str) (srcpos : Nat) : Option UInt8 :=
  (hex_decode (source.getD srcpos 0)).bind fun h1 =>
    (hex_decode (source.getD (srcpos + 1) 0)).map fun h2 => hexByte h1 h2

def decode (buflen : Nat) (source : Str) (srclen : Nat) (escape : UInt8) : Option Written :=
  codec buflen srclen fun srcpos _ =>
    let ch := source.getD srcpos 0
    if ch = escape ∧ srcpos + 1 + 1 < srclen then
      match hexAt source (srcpos + 1) with
      | some byte => .put [byte] (srcpos + 1 + 2)
      | none => .put [ch] (srcpos + 1)
    else .put [ch] (srcpos + 1)

/-! ## `url_encode` and `url_decode` -/

def URL_UNSAFE : Nat := 0x1
def XML_UNSAFE : Nat := 0x2
def HTML_UNSAFE : Nat := 0x2

def ASCII_CLASS : List Nat :=
  [1,1,1,1,1,1,1,1,1,1,1,1,1,1,1,1,1,1,1,1,1,1,1,1,1,1,1,1,1,1,1,1,
   1,0,3,1,1,1,3,2,0,0,0,1,1,0,0,1,0,0,0,0,0,0,0,0,0,0,1,1,3,1,3,1,
   1,0,0,0,0,0,0,0,0,0,0,0,0,0,0,0,0,0,0,0,0,0,0,0,0,0,0,1,1,1,1,0,
   1,0,0,0,0,0,0,0,0,0,0,0,0,0,0,0,0,0,0,0,0,0,0,0,0,0,0,1,1,1,0,1]

/-- `(ch < 128) && (ASCII_CLASS[ch] & unsafe)`. -/
def isUnsafe (mask : Nat) (ch : UInt8) : Bool :=
  ch < 128 && ASCII_CLASS.getD ch.toNat 0 &&& mask ≠ 0

def url_encode (buflen : Nat) (source : Str) (srclen : Nat) : Option Written :=
  codec buflen srclen fun srcpos bufpos =>
    let ch := source.getD srcpos 0
    if isUnsafe URL_UNSAFE ch then
      if bufpos + 3 ≥ buflen then .stop else .put (0x25 :: hexPair ch) (srcpos + 1)
    else .put [ch] (srcpos + 1)

def url_decode (buflen : Nat) (source : Str) (srclen : Nat) : Option Written :=
  codec buflen srclen fun srcpos _ =>
    let ch := source.getD srcpos 0
    if ch = 0x2B then .put [0x20] (srcpos + 1)
    else if ch = 0x25 ∧ srcpos + 1 + 1 < srclen then
      match hexAt source (srcpos + 1) with
      | some byte => .put [byte] (srcpos + 1 + 2)
      | none => .put [ch] (srcpos + 1)
    else .put [ch] (srcpos + 1)

/-! ## UTF-8 -/

/-- `(s[i] & 0xC0) == 0x80`. -/
def isTrailer (ch : UInt8) : Bool := ch.toNat &&& 0xC0 = 0x80

/-- `utf8_decode`: the value and the number of bytes, or nothing for an invalid encoding. -/
def utf8_decode (s : Str) (srclen : Nat) : Option (Nat × Nat) :=
  let s0 := (s.getD 0 0).toNat
  if s0 &&& 0x80 = 0x00 then some (s0, 1)
  else if srclen < 2 ∨ ¬ isTrailer (s.getD 1 0) then none
  else
    let value16 := (s.getD 1 0).toNat &&& 0x3F
    if s0 &&& 0xE0 = 0xC0 then some ((s0 &&& 0x1F) <<< 6 ||| value16, 2)
    else if srclen < 3 ∨ ¬ isTrailer (s.getD 2 0) then none
    else
      let value16 := value16 <<< 6 ||| (s.getD 2 0).toNat &&& 0x3F
      if s0 &&& 0xF0 = 0xE0 then some ((s0 &&& 0x0F) <<< 12 ||| value16, 3)
      else if srclen < 4 ∨ ¬ isTrailer (s.getD 3 0) then none
      else
        let value16 := value16 <<< 6 ||| (s.getD 3 0).toNat &&& 0x3F
        if s0 &&& 0xF8 = 0xF0 then some ((s0 &&& 0x07) <<< 18 ||| value16, 4)
        else none

/-- `0x80 | (value & 0x3F)`. -/
def trailer (value : Nat) : UInt8 := UInt8.ofNat (0x80 ||| value &&& 0x3F)

/-- `utf8_encode`: what it writes; nothing is the result `0`. -/
def utf8_encode (buflen value : Nat) : Str :=
  if value ≤ 0x7F ∧ buflen ≥ 1 then [UInt8.ofNat value]
  else if value ≤ 0x7FF ∧ buflen ≥ 2 then [UInt8.ofNat (0xC0 ||| value >>> 6), trailer value]
  else if value ≤ 0xFFFF ∧ buflen ≥ 3 then
    [UInt8.ofNat (0xE0 ||| value >>> 12), trailer (value >>> 6), trailer value]
  else if value ≤ 0x1FFFFF ∧ buflen ≥ 4 then
    [UInt8.ofNat (0xF0 ||| value >>> 18), trailer (value >>> 12), trailer (value >>> 6),
      trailer value]
  else []

/-! ## Markup -/

/-- `switch (ch)` of `html_encode`. -/
def htmlEscseq (ch : UInt8) : Str :=
  if ch = 0x3C then str "&lt;"
  else if ch = 0x3E then str "&gt;"
  else if ch = 0x27 then str "&#39;"
  else if ch = 0x22 then str "&quot;"
  else if ch = 0x26 then str "&amp;"
  else []

/-- `switch (ch)` of `xml_encode`. -/
def xmlEscseq (ch : UInt8) : Str :=
  if ch = 0x3C then str "&lt;"
  else if ch = 0x3E then str "&gt;"
  else if ch = 0x27 then str "&apos;"
  else if ch = 0x22 then str "&quot;"
  else if ch = 0x26 then str "&amp;"
  else []

/-- `sprintfn(escseq, 11, "&#%lu;", val)`. -/
def reference (val : Nat) : Str := (str "&#" ++ XmlnsStack.decimal val ++ str ";").take (11 - 1)

def html_encode (buflen : Nat) (source : Str) (srclen : Nat) : Option Written :=
  codec buflen srclen fun srcpos bufpos =>
    let ch := source.getD srcpos 0
    if ch < 128 then
      if isUnsafe HTML_UNSAFE ch then
        let escseq := htmlEscseq ch
        if bufpos + escseq.length ≥ buflen then .stop else .put escseq (srcpos + 1)
      else .put [ch] (srcpos + 1)
    else
      -- Not a valid utf8 sequence, just use the raw character.
      let (val, vallen) := (utf8_decode (source.drop srcpos) (srclen - srcpos)).getD (ch.toNat, 1)
      let escseq := reference val
      if bufpos + escseq.length ≥ buflen then .stop else .put escseq (srcpos + vallen)

def xml_encode (buflen : Nat) (source : Str) (srclen : Nat) : Option Written :=
  codec buflen srclen fun srcpos bufpos =>
    let ch := source.getD srcpos 0
    if isUnsafe XML_UNSAFE ch then
      let escseq := xmlEscseq ch
      if bufpos + escseq.length ≥ buflen then .stop else .put escseq (srcpos + 1)
    else .put [ch] (srcpos + 1)

def xml_decode (buflen : Nat) (source : Str) (srclen : Nat) : Option Written :=
  codec buflen srclen fun srcpos bufpos =>
    let ch := source.getD srcpos 0
    let srcpos := srcpos + 1
    if ch ≠ 0x26 then .put [ch] srcpos
    else if srcpos + 2 < srclen ∧ memcmp source srcpos (str "lt;") then .put [0x3C] (srcpos + 3)
    else if srcpos + 2 < srclen ∧ memcmp source srcpos (str "gt;") then .put [0x3E] (srcpos + 3)
    else if srcpos + 4 < srclen ∧ memcmp source srcpos (str "apos;") then .put [0x27] (srcpos + 5)
    else if srcpos + 4 < srclen ∧ memcmp source srcpos (str "quot;") then .put [0x22] (srcpos + 5)
    else if srcpos + 3 < srclen ∧ memcmp source srcpos (str "amp;") then .put [0x26] (srcpos + 4)
    else if srcpos < srclen ∧ source.getD srcpos 0 = 0x23 then
      let (int_base, srcpos) :=
        if srcpos + 1 < srclen ∧ source.getD (srcpos + 1) 0 = 0x78 then (16, srcpos + 1)
        else (10, srcpos)
      let (val, read) := strtoul (source.drop (srcpos + 1)) int_base
      let ptr := srcpos + 1 + read
      if ptr < srclen ∧ source.getD ptr 0 = 0x3B then
        -- Not enough room to encode the character, or illegal character
        match utf8_encode (buflen - bufpos) val with
        | [] => .stop
        | esc => .put esc (ptr + 1)
      -- Not a valid escape sequence.
      else .stop
    -- Unrecognized escape sequence.
    else .stop

def html_decode (buflen : Nat) (source : Str) (srclen : Nat) : Option Written :=
  xml_decode buflen source srclen

/-! ## Hexadecimal -/

/-- One turn of the loop of `hex_encode_with_delimiter`. -/
def hexEncodeTurn (source : Str) (srclen : Nat) (delimiter : UInt8) (out : Filling.Output UInt8)
    (srcpos : Nat) : Filling.Output UInt8 :=
  let out := out.append (hexPair (source.getD srcpos 0))
  -- Don't write a delimiter after the last byte.
  if delimiter ≠ 0 ∧ srcpos + 1 < srclen then out.put delimiter else out

/-- What `hex_encode_with_delimiter` needs. -/
def hexEncodeNeeded (srclen : Nat) (delimiter : UInt8) : Nat :=
  if delimiter ≠ 0 then srclen * 3 else srclen * 2 + 1

def hex_encode_with_delimiter (buflen : Nat) (source : Str) (srclen : Nat) (delimiter : UInt8) :
    Written :=
  if buflen = 0 ∨ buflen < hexEncodeNeeded srclen delimiter then ⟨[], 0⟩
  else
    let out := (List.range srclen).foldl (hexEncodeTurn source srclen delimiter) .empty
    ⟨(out.put 0).writes, out.pos⟩

/-- One turn of the loop of `hex_decode_with_delimiter`; it may be left with `0`. -/
def hexDecodeRound (source : Str) (srclen : Nat) (delimiter : UInt8) :
    Walking.Round (Nat × Filling.Output UInt8) Written := fun (srcpos, out) =>
  if srcpos < srclen then
    -- This means we have an odd number of bytes.
    if srclen - srcpos < 2 then .inr ⟨out.writes, 0⟩
    else
      match hexAt source srcpos with
      | none => .inr ⟨out.writes, 0⟩
      | some byte =>
        let out := out.put byte
        let srcpos := srcpos + 2
        -- Remove the delimiter if needed.
        if delimiter ≠ 0 ∧ srclen - srcpos > 1 then
          if source.getD srcpos 0 ≠ delimiter then .inr ⟨out.writes, 0⟩
          else .inl (srcpos + 1, out)
        else .inl (srcpos, out)
  else .inr ⟨out.writes, out.pos⟩

/-- What `hex_decode_with_delimiter` needs. -/
def hexDecodeNeeded (srclen : Nat) (delimiter : UInt8) : Nat :=
  if delimiter ≠ 0 then (srclen + 1) / 3 else srclen / 2

def hex_decode_with_delimiter (buflen : Nat) (source : Str) (srclen : Nat) (delimiter : UInt8) :
    Option Written :=
  if buflen = 0 ∨ buflen < hexDecodeNeeded srclen delimiter then some ⟨[], 0⟩
  else Walking.rounds (hexDecodeRound source srclen delimiter) (srclen + 1) (0, .empty)

/-! ## Fields -/

/-- `source.substr(pos, n)`. -/
def substr (source : Str) (pos n : Nat) : Str := (source.drop pos).take n

/-- `source.find(ch, pos)`. -/
def find (source : Str) (ch : UInt8) (pos : Nat) : Option Nat :=
  ((source.drop pos).findIdx? (· = ch)).map (pos + ·)

/-- One turn of the loop of `tokenize`, over `last` and the fields. -/
def tokenizeTurn (source : Str) (delimiter : UInt8) (st : Nat × List Str) (i : Nat) :
    Nat × List Str :=
  let (last, fields) := st
  if source.getD i 0 = delimiter then
    (i + 1, if i ≠ last then fields ++ [substr source last (i - last)] else fields)
  else (last, fields)

def tokenize (source : Str) (delimiter : UInt8) : List Str :=
  let (last, fields) := (List.range source.length).foldl (tokenizeTurn source delimiter) (0, [])
  if last ≠ source.length then fields ++ [substr source last (source.length - last)] else fields

def tokenize_append (source : Str) (delimiter : UInt8) (fields : List Str) : List Str :=
  fields ++ tokenize source delimiter

/-- One turn of the loop of `tokenize` with marks, over `remain_source` and the fields. -/
def tokenizeMarksRound (delimiter start_mark end_mark : UInt8) :
    Walking.Round (Str × List Str) (List Str) := fun (remain_source, fields) =>
  if remain_source.isEmpty then .inr (tokenize_append remain_source delimiter fields)
  else
    match find remain_source start_mark 0 with
    | none => .inr (tokenize_append remain_source delimiter fields)
    | some start_pos =>
      let pre_mark := if start_pos > 0 then substr remain_source 0 (start_pos - 1) else []
      let start_pos := start_pos + 1
      match find remain_source end_mark start_pos with
      | none => .inr (tokenize_append remain_source delimiter fields)
      | some end_pos =>
        -- First tokenize the pre-mask. Then add the marked part as a single field.
        let fields := tokenize_append pre_mark delimiter fields
        .inl (remain_source.drop (end_pos + 1),
          fields ++ [substr remain_source start_pos (end_pos - start_pos)])

/-- `tokenize` with a start and an end mark. -/
def tokenizeMarks (source : Str) (delimiter start_mark end_mark : UInt8) : Option (List Str) :=
  Walking.rounds (tokenizeMarksRound delimiter start_mark end_mark) (source.length + 1) (source, [])

end Gxmpp.TalkBase.StringEncode
