/-
The strings of `talk/base/cryptstring.h`, and what `SaslPlainMechanism` sends.

A write outside of the block that was allocated has no value. The memory of a new block is a
parameter, and sizes do not wrap around.
-/
import Gxmpp.Base64Strict
import Gxmpp.ByteBuffer
import Gxmpp.Sasl

set_option autoImplicit false

namespace Gxmpp.TalkBase

open Ring Walking

/-! ## 1. The class -/

/-- What is written has to be in the block. -/
def writeTo (storage : Str) (i : ℕ) (s : Str) : Option Str :=
  if i + s.length ≤ storage.length then some (put storage i s) else none

/-- `CryptString`, over either of the two implementations. -/
inductive CryptString where
  | empty
  | insecure (password_ : Str)

namespace CryptString

def bytes : CryptString → Str
  | empty => []
  | insecure password_ => password_

def GetLength (s : CryptString) : ℕ := s.bytes.length

def CopyTo (s : CryptString) (storage : Str) (dest : ℕ) (nullterminate : Bool) : Option Str :=
  match s with
  | empty => if nullterminate then writeTo storage dest [0] else some storage
  | insecure password_ => do
    let storage ← writeTo storage dest password_
    if nullterminate then writeTo storage (dest + password_.length) [0] else some storage

end CryptString

structure FormatCryptString where
  storage_ : Str
  capacity_ : ℕ
  length_ : ℕ

/-- The loop of `EnsureStorage`, over `capacity_`. -/
def doubling (n : ℕ) : Walking.Round ℕ ℕ := fun capacity_ =>
  if capacity_ * 2 ≥ n then .inr (capacity_ * 2) else .inl (capacity_ * 2)

namespace FormatCryptString

variable (fresh : ℕ → UInt8)

/-- `FormatCryptString::FormatCryptString`. -/
def init : Option FormatCryptString := do
  let storage_ ← writeTo (ByteBuffer.newBlock fresh 32) 0 [0]
  some ⟨storage_, 32, 0⟩

def EnsureStorage (s : FormatCryptString) (n : ℕ) : Option FormatCryptString :=
  if s.capacity_ ≥ n then some s
  else do
    let capacity_ ← rounds (doubling n) n s.capacity_
    let storage_ := ByteBuffer.newBlock fresh capacity_
    if s.capacity_ ≠ 0 then
      let storage_ ← writeTo storage_ 0 (s.storage_.take s.length_)
      -- the old block is filled with zeros
      let _ ← writeTo s.storage_ 0 (List.replicate s.capacity_ 0)
      some { s with storage_, capacity_ }
    else some { s with storage_, capacity_ }

/-- `Append`, of a string or of raw data. -/
def Append (s : FormatCryptString) (data : Str) : Option FormatCryptString := do
  let s ← s.EnsureStorage fresh (s.length_ + data.length + 1)
  let storage_ ← writeTo s.storage_ s.length_ data
  let length_ := s.length_ + data.length
  let storage_ ← writeTo storage_ length_ [0]
  some { s with storage_, length_ }

/-- `Append`, of a `CryptString`. -/
def AppendPassword (s : FormatCryptString) (password : CryptString) : Option FormatCryptString := do
  let len := password.GetLength
  let s ← s.EnsureStorage fresh (s.length_ + len + 1)
  let storage_ ← password.CopyTo s.storage_ s.length_ true
  some { s with storage_, length_ := s.length_ + len }

/-- `GetData`, as far as the NUL behind `length_` bytes. -/
def GetData (s : FormatCryptString) : Str := s.storage_.take (s.length_ + 1)

def GetLength (s : FormatCryptString) : ℕ := s.length_

end FormatCryptString

/-! ## 2. What is in the block -/

/-- The text, and its NUL, are in the block. -/
structure FormatCryptString.Holds (s : FormatCryptString) (content : Str) : Prop where
  block : s.storage_.length = s.capacity_
  length : s.length_ = content.length
  room : content.length < s.capacity_
  data : s.storage_.take (content.length + 1) = content ++ [0]

theorem writeTo_of_le {storage s : Str} {i : ℕ} (h : i + s.length ≤ storage.length) :
    writeTo storage i s = some (put storage i s) := if_pos h

theorem take_put_end {storage s : Str} {i : ℕ} (h : i + s.length ≤ storage.length) :
    (put storage i s).take (i + s.length) = storage.take i ++ s := by
  have hlen : (storage.take i ++ s).length = i + s.length := by
    rw [List.length_append, List.length_take_of_le (by omega)]
  rw [put, ← hlen, List.take_left]

/-- The capacity is doubled until it is enough. -/
theorem rounds_doubling {n capacity : ℕ} (hpos : 0 < capacity) (hn : capacity < n) :
    ∃ c, rounds (doubling n) n capacity = some c ∧ n ≤ c := by
  have hround : ∀ c c', 0 < c → doubling n c = .inl c' → 0 < c' ∧ n - c' < n - c := by
    intro c c' hc h
    unfold doubling at h
    split at h
    · cases h
    · cases h
      omega
  have hkeeps : Keeps (doubling n) (fun _ => True) (n ≤ ·) := by
    intro c _
    unfold doubling
    split
    · next hc => exact .inr ⟨_, rfl, hc⟩
    · exact .inl ⟨_, rfl, trivial⟩
  obtain ⟨c, hc⟩ := rounds_of_measure (n - ·) hround hpos (show n - capacity < n by omega)
  exact ⟨c, hc, hkeeps.rounds trivial hc⟩

namespace FormatCryptString

variable (fresh : ℕ → UInt8) {s : FormatCryptString} {content : Str}

theorem Holds.getData (h : s.Holds content) :
    s.GetData = content ++ [0] ∧ s.GetLength = content.length := by
  refine ⟨?_, h.length⟩
  rw [GetData, h.length, h.data]

/-- The text is moved, but not its NUL. -/
theorem Holds.ensureStorage (h : s.Holds content) (n : ℕ) :
    ∃ t, s.EnsureStorage fresh n = some t ∧ t.storage_.length = t.capacity_ ∧
      t.length_ = content.length ∧ n ≤ t.capacity_ ∧ t.storage_.take content.length = content := by
  have hblock := h.block
  have hroom := h.room
  have htake : s.storage_.take content.length = content := by
    have hdata := congrArg (List.take content.length) h.data
    rwa [List.take_take, Nat.min_eq_left (Nat.le_succ _), List.take_left] at hdata
  by_cases hn : s.capacity_ ≥ n
  · exact ⟨s, if_pos hn, hblock, h.length, hn, htake⟩
  · obtain ⟨c, hc, hle⟩ := @rounds_doubling n s.capacity_ (by omega) (by omega)
    have hnew := ByteBuffer.length_newBlock fresh c
    have hfits : 0 + content.length ≤ (ByteBuffer.newBlock fresh c).length := by omega
    have hwipe : 0 + (List.replicate s.capacity_ (0 : UInt8)).length ≤ s.storage_.length := by
      simp [hblock]
    refine ⟨⟨put (ByteBuffer.newBlock fresh c) 0 content, c, s.length_⟩, ?_, ?_, h.length, hle, ?_⟩
    · rw [EnsureStorage, if_neg hn, hc, h.length, htake]
      simp only [Option.bind_eq_bind, Option.bind_some, writeTo_of_le hfits, writeTo_of_le hwipe]
      exact if_pos (by omega)
    · rw [length_put hfits, hnew]
    · simpa using take_put_end hfits

theorem Holds.append (h : s.Holds content) (data : Str) :
    ∃ t, s.Append fresh data = some t ∧ t.Holds (content ++ data) := by
  obtain ⟨t, ht, hblock, hlength, hroom, htake⟩ :=
    h.ensureStorage fresh (s.length_ + data.length + 1)
  rw [h.length] at ht hroom
  have hdata : content.length + data.length ≤ t.storage_.length := by omega
  have hboth : content.length + (data ++ [0]).length ≤ t.storage_.length := by
    rw [List.length_append, List.length_singleton]
    omega
  have hnul : content.length + data.length + [(0 : UInt8)].length ≤
      (put t.storage_ content.length data).length := by
    rw [length_put hdata, List.length_singleton]
    omega
  refine ⟨⟨put t.storage_ content.length (data ++ [0]), t.capacity_, content.length + data.length⟩,
    ?_, ?_, (List.length_append ..).symm, ?_, ?_⟩
  · rw [Append, h.length, ht]
    simp only [Option.bind_eq_bind, Option.bind_some, hlength, writeTo_of_le hdata,
      writeTo_of_le hnul]
    rw [put_put (by omega)]
  · rw [length_put hboth, hblock]
  · show (content ++ data).length < t.capacity_
    rw [List.length_append]
    omega
  · have hend := take_put_end hboth
    rw [htake] at hend
    simpa [Nat.add_assoc] using hend

/-- A `CryptString` copies what it is, and a NUL. -/
theorem copyTo_eq (password : CryptString) {storage : Str} {dest : ℕ} (h : dest ≤ storage.length) :
    password.CopyTo storage dest true = (writeTo storage dest password.bytes).bind fun storage =>
      writeTo storage (dest + password.bytes.length) [0] := by
  cases password with
  | insecure password_ => rfl
  | empty =>
    have hnone : writeTo storage dest [] = some storage := by
      rw [writeTo_of_le (by simpa using h), put_nil]
    rw [CryptString.bytes, hnone]
    rfl

theorem Holds.appendPassword (h : s.Holds content) (password : CryptString) :
    s.AppendPassword fresh password = s.Append fresh password.bytes := by
  obtain ⟨t, ht, hblock, hlength, hroom, -⟩ :=
    h.ensureStorage fresh (s.length_ + password.bytes.length + 1)
  have hplace : s.length_ ≤ t.storage_.length := by omega
  have hsame : t.length_ = s.length_ := hlength.trans h.length.symm
  rw [AppendPassword, Append, CryptString.GetLength, ht]
  simp only [Option.bind_eq_bind, Option.bind_some, hsame, copyTo_eq password hplace,
    Option.bind_assoc]

/-! ## 3. Any appends -/

/-- What is appended by one call. -/
inductive Appended where
  | text (data : Str)
  | crypt (password : CryptString)

def Appended.bytes : Appended → Str
  | .text data => data
  | .crypt password => password.bytes

def appendOne (fresh : ℕ → UInt8) (s : FormatCryptString) : Appended → Option FormatCryptString
  | .text data => s.Append fresh data
  | .crypt password => s.AppendPassword fresh password

theorem holds_init (fresh : ℕ → UInt8) : ∃ s, init fresh = some s ∧ s.Holds [] := by
  have hnew := ByteBuffer.length_newBlock fresh 32
  have hfits : 0 + [(0 : UInt8)].length ≤ (ByteBuffer.newBlock fresh 32).length := by simp [hnew]
  refine ⟨⟨put (ByteBuffer.newBlock fresh 32) 0 [0], 32, 0⟩, ?_, ?_, rfl, by simp, ?_⟩
  · simp only [init, writeTo_of_le hfits, Option.bind_eq_bind, Option.bind_some]
  · rw [length_put hfits, hnew]
  · simpa using take_put_end hfits

/-- No write of any of the calls is outside of the block. -/
theorem Holds.foldlM (h : s.Holds content) (l : List Appended) :
    ∃ t, l.foldlM (appendOne fresh) s = some t ∧ t.Holds (content ++ l.flatMap Appended.bytes) := by
  induction l generalizing s content with
  | nil => exact ⟨s, rfl, by simpa using h⟩
  | cons x l ih =>
    have hone : appendOne fresh s x = s.Append fresh x.bytes := by
      cases x with
      | text data => rfl
      | crypt password => exact h.appendPassword fresh password
    obtain ⟨t, ht, hholds⟩ := h.append fresh x.bytes
    obtain ⟨u, hu, hall⟩ := ih hholds
    refine ⟨u, ?_, by simpa using hall⟩
    rw [List.foldlM_cons, hone, ht]
    exact hu

end FormatCryptString

end Gxmpp.TalkBase

/-! ## 4. The mechanism -/

namespace Gxmpp.TalkBase.Base64

open Radix64

theorem base64Char_eq {c : UInt8} {v : ℕ} (h : c.toNat = v) : base64Char c = text (some v) := by
  subst h
  rfl

theorem low_bits (x : ℕ) : x % 256 &&& 63 = x &&& 63 := by
  rw [fourth_digit, fourth_digit]
  omega

/-- The encoder by quanta writes the digits, too. -/
theorem base64Encode_eq (data : Str) :
    base64Encode data = (digits (data.map UInt8.toNat)).map text := by
  have hfirst : ∀ a : UInt8, (hi6 a).toNat = a.toNat / 4 := by
    intro a
    simpa [hi6] using first_digit a.toNat_lt
  have hsecond : ∀ a b : UInt8, (mid6 a b).toNat = a.toNat % 4 * 16 + b.toNat / 16 := by
    intro a b
    simpa [mid6, low_bits] using second_digit (a := a.toNat) b.toNat_lt
  have hthird : ∀ b c : UInt8, (low6 b c).toNat = b.toNat % 16 * 4 + c.toNat / 64 := by
    intro b c
    simpa [low6, low_bits] using third_digit (b := b.toNat) c.toNat_lt
  have hfourth : ∀ c : UInt8, (c &&& 0x3F).toNat = c.toNat % 64 := by
    intro c
    simpa using fourth_digit c.toNat
  induction data using base64Encode.induct with
  | case1 => rfl
  | case2 a =>
    simp [base64Encode, digits, base64Char_eq (hfirst a), base64Char_eq (hsecond a 0), text,
      kPad]
  | case3 a b =>
    simp [base64Encode, digits, base64Char_eq (hfirst a), base64Char_eq (hsecond a b),
      base64Char_eq (hthird b 0), text, kPad]
  | case4 a b c rest ih =>
    simp [base64Encode, digits, base64Char_eq (hfirst a), base64Char_eq (hsecond a b),
      base64Char_eq (hthird b c), base64Char_eq (hfourth c), text, ih]
end Gxmpp.TalkBase.Base64

namespace Gxmpp.TalkBase

/-- `SaslPlainMechanism::StartSaslAuth`. -/
def StartSaslAuth (fresh : ℕ → UInt8) (user_jid_ : Jid) (password_ : CryptString) :
    Option XmlElement := do
  let el := (XmlElement.new QN_SASL_AUTH true).addAttr QN_MECHANISM (str "PLAIN")
  let credential ← FormatCryptString.init fresh
  let credential ← credential.Append fresh [0]
  let credential ← credential.Append fresh user_jid_.node
  let credential ← credential.Append fresh [0]
  let credential ← credential.AppendPassword fresh password_
  let text ← Base64.encodeFromArray (credential.GetData.take credential.GetLength)
  some (el.addText text)

/-- It is the mechanism that the login uses. -/
theorem startSaslAuth_eq (fresh : ℕ → UInt8) (user_jid_ : Jid) (password_ : CryptString) :
    StartSaslAuth fresh user_jid_ password_ =
      (saslPlainMechanism user_jid_ password_.bytes).startSaslAuth := by
  obtain ⟨s, hinit, hs⟩ := FormatCryptString.holds_init fresh
  obtain ⟨t, ht, hholds⟩ := hs.foldlM fresh
    [.text [0], .text user_jid_.node, .text [0], .crypt password_]
  have hcontent := hholds.getData
  have hencode : Base64.encodeFromArray (t.GetData.take t.GetLength) =
      some (base64Encode ([0] ++ user_jid_.node ++ [0] ++ password_.bytes)) := by
    rw [hcontent.1, hcontent.2, List.take_left, Base64.encode_eq, Base64.base64Encode_eq]
    simp [FormatCryptString.Appended.bytes]
  have hbind : StartSaslAuth fresh user_jid_ password_ =
      ([.text [0], .text user_jid_.node, .text [0], .crypt password_].foldlM
        (FormatCryptString.appendOne fresh) s).bind fun credential =>
          (Base64.encodeFromArray (credential.GetData.take credential.GetLength)).bind fun text =>
            some (((XmlElement.new QN_SASL_AUTH true).addAttr QN_MECHANISM (str "PLAIN")).addText
              text) := by
    simp [StartSaslAuth, hinit, FormatCryptString.appendOne, Option.bind_assoc]
  rw [hbind, ht, Option.bind_some, hencode]
  rfl

/-- The text of any appends is in the block with its NUL, and what the mechanism sends is read
back. -/
theorem credential_assembled (fresh : ℕ → UInt8) :
    (∀ l : List FormatCryptString.Appended, ∃ s,
      (FormatCryptString.init fresh).bind (l.foldlM (FormatCryptString.appendOne fresh)) = some s ∧
        s.GetData = l.flatMap FormatCryptString.Appended.bytes ++ [0] ∧
        s.GetLength = (l.flatMap FormatCryptString.Appended.bytes).length ∧
        s.GetLength < s.capacity_ ∧ s.storage_.length = s.capacity_) ∧
    ∀ (user_jid_ : Jid) (password_ : CryptString), ∃ text,
      StartSaslAuth fresh user_jid_ password_ =
        some (((XmlElement.new QN_SASL_AUTH true).addAttr QN_MECHANISM
          (str "PLAIN")).addText text) ∧
      Base64.decodeFromArray text Base64.DO_STRICT =
        some ⟨text.length, true, [0] ++ user_jid_.node ++ [0] ++ password_.bytes⟩ := by
  constructor
  · intro l
    obtain ⟨s, hinit, hs⟩ := FormatCryptString.holds_init fresh
    obtain ⟨t, ht, hholds⟩ := hs.foldlM fresh l
    refine ⟨t, by rw [hinit]; exact ht, hholds.getData.1, hholds.getData.2, ?_, hholds.block⟩
    rw [hholds.getData.2]
    exact hholds.room
  · intro user_jid_ password_
    obtain ⟨text, hencode, hdecode⟩ := Base64.decode_encode
      ([0] ++ user_jid_.node ++ [0] ++ password_.bytes)
    rw [Base64.encode_eq, ← Base64.base64Encode_eq] at hencode
    refine ⟨_, startSaslAuth_eq fresh user_jid_ password_, ?_⟩
    rw [Option.some.inj hencode]
    exact hdecode

end Gxmpp.TalkBase
