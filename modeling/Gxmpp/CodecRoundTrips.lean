/-
The encoders and decoders for URLs, with an escape character and with hexadecimal digits, are
inverse, also where the encoder runs out of its buffer.

An encoder writes one piece for each byte and stops in front of the first piece that does not
fit, so what it writes is always the pieces of a beginning of its source. A decoder reads each
piece as the byte, whatever follows. `reads_back` says what follows from that for any codec that
writes pieces for parts of its source.
-/
import Gxmpp.CodecBuffers

set_option autoImplicit false

namespace Gxmpp.TalkBase.StringEncode

open Filling (pieces fitting)

/-! ## 1. Pieces that are read back -/

/-- Without a buffer nothing is written. -/
theorem run_zero (c : Codec) (source : Str) (srclen : ℕ) :
    c.run 0 source srclen = some ⟨[], 0⟩ := by
  cases c <;> rfl

theorem fits_of_strictly (c : Codec) {buflen pos : ℕ} {p : Str}
    (h : Filling.strictly buflen pos p = true) : c.fits buflen pos p = true := by
  unfold Codec.fits
  split
  · exact Filling.loosely_of_strictly h
  · exact h

section ReadsBack

variable {ι : Type} (enc dec : Codec) {part piece : ι → Str} {l : List ι}

/-- What is written for the parts of a source is the pieces of the first parts. -/
theorem output_flatMap (hpart : ∀ i ∈ l, part i ≠ []) (hpiece : ∀ i ∈ l, piece i ≠ [])
    (henc : ∀ i ∈ l, ∀ t, enc.next (part i ++ t) = some (piece i, (part i).length)) (n : ℕ) :
    ∃ k, (enc.output n (l.flatMap part)).text = (l.take k).flatMap piece
      ∧ ((l.flatMap piece).length < n → l.take k = l) := by
  have hall : pieces enc.next (l.flatMap part).length (l.flatMap part) = l.map piece :=
    Filling.pieces_flatMap (next_pos enc) hpart henc (Nat.le_refl _)
  have hsome := Filling.fitting_prefix (enc.fits n) 0 (l.map piece)
  have htake := List.prefix_iff_eq_take.1 hsome
  rw [← List.map_take] at htake
  refine ⟨(fitting (enc.fits n) 0 (l.map piece)).length, ?_, ?_⟩
  · unfold Codec.output
    rw [text_written, hall, List.flatMap_def, ← htake]
  · intro hn
    rw [Filling.fitting_all (fun _ _ => fits_of_strictly enc) (by simpa using hpiece)
      (by rwa [Nat.zero_add, ← List.flatMap_def]), List.length_map, List.take_length]

/-- What an encoder writes into any buffer is decoded to the first parts of its source, and to
all of it if the buffer is large enough. -/
theorem reads_back (hpart : ∀ i ∈ l, part i ≠ []) (hpiece : ∀ i ∈ l, piece i ≠ [])
    (henc : ∀ i ∈ l, ∀ t, enc.next (part i ++ t) = some (piece i, (part i).length))
    (hdec : ∀ i ∈ l, ∀ t, dec.next (piece i ++ t) = some (part i, (piece i).length)) (n : ℕ) :
    ∃ out k, enc.run n (l.flatMap part) (l.flatMap part).length = some out
      ∧ ((l.flatMap piece).length < n → l.take k = l)
      ∧ ∀ m, ((l.take k).flatMap part).length < m →
        ∃ back, dec.run m out.text out.text.length = some back
          ∧ back.text = (l.take k).flatMap part := by
  have hback : ∀ k m, ((l.take k).flatMap part).length < m →
      ∃ back, dec.run m ((l.take k).flatMap piece) ((l.take k).flatMap piece).length = some back
        ∧ back.text = (l.take k).flatMap part := by
    intro k m hm
    have hmem : ∀ i ∈ l.take k, i ∈ l := fun i hi => List.mem_of_mem_take hi
    obtain ⟨j, htext, hj⟩ := output_flatMap dec (l := l.take k)
      (fun i hi => hpiece i (hmem i hi)) (fun i hi => hpart i (hmem i hi))
      (fun i hi => hdec i (hmem i hi)) m
    have hrun := run_eq dec ((l.take k).flatMap piece) [] (Nat.zero_lt_of_lt hm)
    rw [List.append_nil] at hrun
    rw [hj hm] at htext
    exact ⟨_, hrun, htext⟩
  rcases Nat.eq_zero_or_pos n with rfl | hn
  · refine ⟨⟨[], 0⟩, 0, run_zero enc _ _, fun hlt => absurd hlt (Nat.not_lt_zero _), ?_⟩
    exact hback 0
  · have hrun := run_eq enc (l.flatMap part) [] hn
    rw [List.append_nil] at hrun
    obtain ⟨k, htext, hk⟩ := output_flatMap enc hpart hpiece henc n
    refine ⟨_, k, hrun, hk, ?_⟩
    rw [htext]
    exact hback k

/-- Pieces that are not much longer than their parts. -/
theorem length_flatMap_le {k : ℕ} (h : ∀ i ∈ l, (piece i).length ≤ k * (part i).length) :
    (l.flatMap piece).length ≤ k * (l.flatMap part).length := by
  induction l with
  | nil => exact Nat.zero_le _
  | cons i l ih =>
    have hi := h i List.mem_cons_self
    have hl := ih fun j hj => h j (List.mem_cons_of_mem _ hj)
    rw [List.flatMap_cons, List.flatMap_cons, List.length_append, List.length_append,
      Nat.mul_add]
    exact Nat.add_le_add hi hl

end ReadsBack

/-! ## 2. The pieces of a byte -/

theorem hexHead_hexPair (ch : UInt8) (t : Str) : hexHead (hexPair ch ++ t) = some ch := by
  have hpair : hexHead (hexPair ch) = some ch := by
    simpa using byte_forall (fun ch => hexHead (hexPair ch) = some ch) (by decide +kernel) ch
  exact hpair

theorem decodeNext_encodePiece (illegal : Str) (esc ch : UInt8) (t : Str) :
    decodeNext esc (encodePiece illegal esc ch ++ t)
      = some ([ch], (encodePiece illegal esc ch).length) := by
  unfold encodePiece
  split
  · next hplain =>
      rw [List.singleton_append, decodeNext, if_neg hplain.1]
      rfl
  · rw [List.cons_append, decodeNext, if_pos rfl, hexHead_hexPair]
    rfl

theorem urlDecodeNext_urlPiece (ch : UInt8) (t : Str) :
    urlDecodeNext (urlPiece ch ++ t) = some ([ch], (urlPiece ch).length) := by
  have hplus : isUnsafe URL_UNSAFE 0x2B = true := by decide
  have hpercent : isUnsafe URL_UNSAFE 0x25 = true := by decide
  unfold urlPiece
  by_cases hunsafe : isUnsafe URL_UNSAFE ch = true
  · rw [if_pos hunsafe, List.cons_append, urlDecodeNext, if_neg (by decide), decodeNext,
      if_pos rfl, hexHead_hexPair]
    rfl
  · have hch : ch ≠ 0x2B := fun h => hunsafe (h ▸ hplus)
    have hch' : ch ≠ 0x25 := fun h => hunsafe (h ▸ hpercent)
    rw [if_neg hunsafe, List.singleton_append, urlDecodeNext, if_neg hch, decodeNext, if_neg hch']
    rfl

theorem unescapeNext_escapePiece (illegal : Str) (esc ch : UInt8) (t : Str) :
    unescapeNext esc (escapePiece illegal esc ch ++ t)
      = some ([ch], (escapePiece illegal esc ch).length) := by
  unfold escapePiece
  split
  · exact if_pos rfl
  · next hplain =>
      rcases t with _ | ⟨next, t⟩
      · rfl
      · exact if_neg fun h => hplain (Or.inl h)

/-! ## 3. Round trips -/

/-- An encoder with its decoder. -/
inductive Scheme where
  | url
  | percent (illegal : Str) (escape : UInt8)
  | escaped (illegal : Str) (escape : UInt8)

def Scheme.encoder : Scheme → Codec
  | .url => .url_encode
  | .percent illegal esc => .encode illegal esc
  | .escaped illegal esc => .escape illegal esc

def Scheme.decoder : Scheme → Codec
  | .url => .url_decode
  | .percent _ esc => .decode esc
  | .escaped _ esc => .unescape esc

/-- What is written for a byte. -/
def Scheme.piece : Scheme → UInt8 → Str
  | .url => urlPiece
  | .percent illegal esc => encodePiece illegal esc
  | .escaped illegal esc => escapePiece illegal esc

theorem encoder_next (scheme : Scheme) (ch : UInt8) (t : Str) :
    scheme.encoder.next ([ch] ++ t) = some (scheme.piece ch, 1) := by
  cases scheme <;> rfl

theorem decoder_next (scheme : Scheme) (ch : UInt8) (t : Str) :
    scheme.decoder.next (scheme.piece ch ++ t) = some ([ch], (scheme.piece ch).length) := by
  cases scheme with
  | url => exact urlDecodeNext_urlPiece ch t
  | percent illegal esc => exact decodeNext_encodePiece illegal esc ch t
  | escaped illegal esc => exact unescapeNext_escapePiece illegal esc ch t

theorem length_piece (scheme : Scheme) (ch : UInt8) :
    0 < (scheme.piece ch).length ∧ (scheme.piece ch).length ≤ 3 := by
  cases scheme with
  | url =>
    simp only [Scheme.piece, urlPiece]
    split <;> simp [hexPair]
  | percent illegal esc =>
    simp only [Scheme.piece, encodePiece]
    split <;> simp [hexPair]
  | escaped illegal esc =>
    simp only [Scheme.piece, escapePiece]
    split <;> simp

theorem flatMap_byte (s : Str) : s.flatMap (fun ch => [ch]) = s := by
  induction s with
  | nil => rfl
  | cons ch s ih => rw [List.flatMap_cons, ih, List.singleton_append]

/-- What is encoded into a buffer of any size is decoded to a beginning of the source, and to
the source if the buffer has three places for each byte and one for the NUL. -/
theorem round_trip (scheme : Scheme) (s : Str) (n : ℕ) :
    ∃ out pre, scheme.encoder.run n s s.length = some out ∧ pre <+: s
      ∧ (3 * s.length < n → pre = s)
      ∧ ∀ m, pre.length < m →
        ∃ back, scheme.decoder.run m out.text out.text.length = some back ∧ back.text = pre := by
  have hpiece : ∀ ch ∈ s, scheme.piece ch ≠ [] := fun ch _ =>
    List.ne_nil_of_length_pos (length_piece scheme ch).1
  obtain ⟨out, k, hrun, hall, hback⟩ := reads_back scheme.encoder scheme.decoder
    (fun ch _ => List.cons_ne_nil ch []) hpiece (fun ch _ => encoder_next scheme ch)
    (fun ch _ => decoder_next scheme ch) n
  rw [flatMap_byte] at hrun
  rw [flatMap_byte] at hback
  have hlength : (s.flatMap scheme.piece).length ≤ 3 * (s.flatMap fun ch => [ch]).length :=
    length_flatMap_le fun ch _ => (length_piece scheme ch).2
  rw [flatMap_byte] at hlength
  refine ⟨out, s.take k, hrun, List.take_prefix k s, ?_, hback⟩
  intro hn
  exact hall (Nat.lt_of_le_of_lt hlength hn)

end Gxmpp.TalkBase.StringEncode
