/-
`talk/base/base64.cc`: the encoder and the decoder.

The encoder writes three bytes as four characters and fills the last four up with padding. The
decoder reads one quantum after the other. `GetNextQuantum` counts the characters with a value
and the pads after them, up to four, and what the flags let it skip. A quantum that is not full
is the last one, and what is left of its bits and of the buffer has to be in order.

An `unsigned char` that is shifted is an `int` in the source, and a number here; what is stored
in one again is cut to a byte. The result of the encoder is resized first and written by
position.
-/
import Gxmpp.Walking
import Gxmpp.XmlElement

set_option autoImplicit false

namespace Gxmpp.TalkBase.Base64

/-! ## Tables -/

def kPad : UInt8 := 0x3D

/-- Padding. -/
def pd : Nat := 0xFD

/-- Whitespace. -/
def sp : Nat := 0xFE

/-- Illegal base64 character. -/
def il : Nat := 0xFF

/-- `Base64::Base64Table`. -/
def Base64Table : Str := str "ABCDEFGHIJKLMNOPQRSTUVWXYZabcdefghijklmnopqrstuvwxyz0123456789+/"

/-- `Base64::DecodeTable`: the index of any valid base64 character in the table. -/
def DecodeTable : List Nat :=
  [il, il, il, il, il, il, il, il, il, sp,
    sp, sp, sp, sp, il, il, il, il, il, il,
    il, il, il, il, il, il, il, il, il, il,
    il, il, sp, il, il, il, il, il, il, il,
    il, il, il, 62, il, il, il, 63, 52, 53,
    54, 55, 56, 57, 58, 59, 60, 61, il, il,
    il, pd, il, il, il, 0, 1, 2, 3, 4,
    5, 6, 7, 8, 9, 10, 11, 12, 13, 14,
    15, 16, 17, 18, 19, 20, 21, 22, 23, 24,
    25, il, il, il, il, il, il, 26, 27, 28,
    29, 30, 31, 32, 33, 34, 35, 36, 37, 38,
    39, 40, 41, 42, 43, 44, 45, 46, 47, 48,
    49, 50, 51, il, il, il, il, il, il, il] ++ List.replicate 126 il

/-- The character of a value. -/
def encodeChar (c : Nat) : UInt8 := Base64Table.getD c 0

/-- The value of a character. -/
def decodeChar (ch : UInt8) : Nat := DecodeTable.getD ch.toNat il

/-! ## The flags -/

def DO_PARSE_STRICT : Nat := 1
def DO_PARSE_WHITE : Nat := 2
def DO_PARSE_ANY : Nat := 3
def DO_PARSE_MASK : Nat := 3

def DO_PAD_YES : Nat := 4
def DO_PAD_ANY : Nat := 8
def DO_PAD_NO : Nat := 12
def DO_PAD_MASK : Nat := 12

def DO_TERM_BUFFER : Nat := 16
def DO_TERM_CHAR : Nat := 32
def DO_TERM_ANY : Nat := 48
def DO_TERM_MASK : Nat := 48

/-- The strictest interpretation. -/
def DO_STRICT : Nat := DO_PARSE_STRICT ||| DO_PAD_YES ||| DO_TERM_BUFFER

/-! ## The encoder -/

/-- The variables of the loop of `Base64::EncodeFromArray`. -/
structure Encoding where
  i : Nat
  dest_ix : Nat
  result : Str

/-- `(*result)[dest_ix++] = ch`. -/
def Encoding.put (e : Encoding) (ch : UInt8) : Encoding :=
  { e with result := e.result.set e.dest_ix ch, dest_ix := e.dest_ix + 1 }

/-- One round of the loop of `Base64::EncodeFromArray`. -/
def encodeRound (data : List UInt8) : Walking.Round Encoding Str := fun e =>
  let len := data.length
  let byte_data := fun i => (data.getD i 0).toNat
  if e.i < len then
    let e := e.put (encodeChar (byte_data e.i >>> 2 &&& 0x3f))
    let c := byte_data e.i <<< 4 &&& 0x3f
    let e := { e with i := e.i + 1 }
    let c := if e.i < len then c ||| (byte_data e.i >>> 4 &&& 0x0f) else c
    let e := e.put (encodeChar c)
    let e := if e.i < len then
        let c := byte_data e.i <<< 2 &&& 0x3f
        let e := { e with i := e.i + 1 }
        let c := if e.i < len then c ||| (byte_data e.i >>> 6 &&& 0x03) else c
        e.put (encodeChar c)
      else e.put kPad
    let e := if e.i < len then
        let e := e.put (encodeChar (byte_data e.i &&& 0x3f))
        { e with i := e.i + 1 }
      else e.put kPad
    .inl e
  else .inr e.result

/-- `Base64::EncodeFromArray`: every round takes at least one byte. -/
def encodeFromArray (data : List UInt8) : Option Str :=
  Walking.rounds (encodeRound data) (data.length + 1)
    ⟨0, 0, List.replicate ((data.length + 2) / 3 * 4) 0⟩

/-! ## The decoder -/

/-- The variables of `Base64::GetNextQuantum`. -/
structure Quantum where
  dpos : Nat
  byte_len : Nat
  pad_len : Nat
  pad_start : Nat
  qbuf : List Nat

/-- The loop of `Base64::GetNextQuantum`, over the characters from `dpos` on. -/
def quantumLoop (parse_flags : Nat) (illegal_pads : Bool) : Str → Quantum → Quantum
  | [], q => q
  | ch :: rest, q =>
    if q.byte_len < 4 then
      let value := decodeChar ch
      let q := { q with qbuf := q.qbuf.set q.byte_len value }
      let skipped := { q with dpos := q.dpos + 1 }
      if il = value || (illegal_pads && pd = value) then
        -- illegal characters are ignored
        if parse_flags ≠ DO_PARSE_ANY then q
        else quantumLoop parse_flags illegal_pads rest skipped
      else if sp = value then
        -- spaces are ignored
        if parse_flags = DO_PARSE_STRICT then q
        else quantumLoop parse_flags illegal_pads rest skipped
      else if pd = value then
        if q.byte_len < 2 then
          -- unexpected padding is ignored
          if parse_flags ≠ DO_PARSE_ANY then q
          else quantumLoop parse_flags illegal_pads rest skipped
        else if q.byte_len + q.pad_len ≥ 4 then
          -- extra pads are ignored
          if parse_flags ≠ DO_PARSE_ANY then q
          else quantumLoop parse_flags illegal_pads rest skipped
        else
          quantumLoop parse_flags illegal_pads rest { skipped with
            pad_len := q.pad_len + 1
            pad_start := if q.pad_len = 0 then q.dpos else q.pad_start }
      else if q.pad_len > 0 then
        -- pads which are followed by data are ignored
        if parse_flags ≠ DO_PARSE_ANY then q
        else quantumLoop parse_flags illegal_pads rest { skipped with
          pad_len := 0
          byte_len := q.byte_len + 1 }
      else quantumLoop parse_flags illegal_pads rest { skipped with byte_len := q.byte_len + 1 }
    else q

example (q : Quantum) : quantumLoop DO_PARSE_STRICT false [] q = q := by rw [quantumLoop]

/-- What `Base64::GetNextQuantum` gives back. -/
structure NextQuantum where
  qlen : Nat
  dpos : Nat
  qbuf : List Nat
  padded : Bool

/-- `Base64::GetNextQuantum`. -/
def getNextQuantum (parse_flags : Nat) (illegal_pads : Bool) (data : Str) (dpos : Nat) :
    NextQuantum :=
  let q := quantumLoop parse_flags illegal_pads (data.drop dpos) ⟨dpos, 0, 0, 0, [0, 0, 0, 0]⟩
  let qbuf := q.qbuf.take q.byte_len ++ List.replicate (4 - q.byte_len) 0
  if 4 = q.byte_len + q.pad_len then ⟨q.byte_len, q.dpos, qbuf, true⟩
  -- illegal padding is rolled back
  else if q.pad_len ≠ 0 then ⟨q.byte_len, q.pad_start, qbuf, false⟩
  else ⟨q.byte_len, q.dpos, qbuf, false⟩

/-- The bytes of a quantum are pushed; the bits that are left are in the second part. -/
def pushBytes (qbuf : List Nat) (qlen : Nat) (result : Str) : Str × UInt8 :=
  let qbuf := fun i => qbuf.getD i 0
  let c := UInt8.ofNat (qbuf 0 <<< 2 ||| (qbuf 1 >>> 4 &&& 0x3))
  if qlen ≥ 2 then
    let result := result ++ [c]
    let c := UInt8.ofNat ((qbuf 1 <<< 4 &&& 0xf0) ||| (qbuf 2 >>> 2 &&& 0xf))
    if qlen ≥ 3 then
      let result := result ++ [c]
      let c := UInt8.ofNat ((qbuf 2 <<< 6 &&& 0xc0) ||| qbuf 3)
      if qlen ≥ 4 then (result ++ [c], 0) else (result, c)
    else (result, c)
  else (result, c)

/-- The variables of the loop of `Base64::DecodeFromArrayTemplate`. -/
structure Decoding where
  dpos : Nat
  success : Bool
  result : Str

/-- One round of the loop of `Base64::DecodeFromArrayTemplate`. -/
def decodeRound (flags : Nat) (data : Str) : Walking.Round Decoding Decoding := fun d =>
  if d.dpos < data.length then
    let q := getNextQuantum (flags &&& DO_PARSE_MASK) (DO_PAD_NO = flags &&& DO_PAD_MASK) data
      d.dpos
    let pushed := pushBytes q.qbuf q.qlen d.result
    if q.qlen < 4 then
      -- unused bits, and padding that was expected
      let success := d.success &&
        !(DO_TERM_ANY ≠ flags &&& DO_TERM_MASK && 0 ≠ pushed.2) &&
        !(DO_PAD_YES = flags &&& DO_PAD_MASK && !q.padded)
      .inr ⟨q.dpos, success, pushed.1⟩
    else .inl ⟨q.dpos, d.success, pushed.1⟩
  else .inr d

/-- `Base64::DecodeFromArrayTemplate`: every round but the last takes four characters. -/
def decodeFromArray (data : Str) (flags : Nat) : Option Decoding :=
  (Walking.rounds (decodeRound flags data) (data.length + 1) ⟨0, true, []⟩).map fun d =>
    -- unused chars
    { d with success :=
        d.success && !(DO_TERM_BUFFER = flags &&& DO_TERM_MASK && d.dpos ≠ data.length) }

example : encodeFromArray (str "Ma") = some (str "TWE=") := by decide

end Gxmpp.TalkBase.Base64
