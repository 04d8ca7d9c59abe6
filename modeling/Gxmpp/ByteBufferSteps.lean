/-
What the functions of the byte buffer do.

What can be read is the part of the block that is in use, and a write puts its bytes behind it,
whether the bytes have to move for that or not (`writeBytes_spec`). The numbers go through the
memory of the host, but what is in the buffer is their bytes in the order of the network or of the
host, and is read as the number (`valueOf_bytesOf`).
-/
import Gxmpp.BigEndian
import Gxmpp.ByteBuffer

set_option autoImplicit false

namespace Gxmpp.TalkBase

open BigEndian

/-! ## 1. The memory of the host -/

theorem setBE_eq (w v : ℕ) : SetBE w v = encode w v := by
  induction w with
  | zero => rfl
  | succ w ih =>
    have hrest : ((fun i => UInt8.ofNat (v >>> (8 * (w + 1 - 1 - i)))) ∘ Nat.succ)
        = fun i => UInt8.ofNat (v >>> (8 * (w - 1 - i))) := by
      funext i
      have hplace : w + 1 - 1 - (i + 1) = w - 1 - i := by omega
      show UInt8.ofNat (v >>> (8 * (w + 1 - 1 - (i + 1)))) = _
      rw [hplace]
    unfold SetBE at ih ⊢
    rw [List.range_succ_eq_map, List.map_cons, List.map_map, hrest, ih, encode,
      Nat.shiftRight_eq_div_pow]
    rfl

theorem foldl_or (f : ℕ → ℕ) (l : List ℕ) (n : ℕ) :
    l.foldl (fun v i => v ||| f i) n = n ||| l.foldl (fun v i => v ||| f i) 0 := by
  induction l generalizing n with
  | nil => simp
  | cons i l ih =>
    rw [List.foldl_cons, List.foldl_cons, ih, ih (0 ||| f i), Nat.zero_or, Nat.or_assoc]

theorem getBE_eq (s : Str) : GetBE s.length s = decode s := by
  induction s with
  | nil => rfl
  | cons b s ih =>
    have hrest : ∀ v i,
        v ||| ((b :: s).getD (i + 1) 0).toNat <<< (8 * (s.length + 1 - 1 - (i + 1)))
        = v ||| (s.getD i 0).toNat <<< (8 * (s.length - 1 - i)) := by
      intro v i
      have hplace : s.length + 1 - 1 - (i + 1) = s.length - 1 - i := by omega
      rw [List.getD_cons_succ, hplace]
    unfold GetBE at ih ⊢
    rw [List.length_cons, List.range_succ_eq_map, List.foldl_cons, List.foldl_map]
    simp only [Nat.succ_eq_add_one, hrest]
    rw [foldl_or, ih, decode, List.getD_cons_zero, Nat.zero_or, Nat.shiftLeft_eq,
      Nat.add_sub_cancel, Nat.sub_zero, Nat.mul_comm,
      Nat.two_pow_add_eq_or_of_lt (decode_lt s)]

@[simp] theorem length_store (host : Host) (w v : ℕ) : (host.store w v).length = w := by
  unfold Host.store
  rw [setBE_eq]
  split <;> simp

/-- What is in memory is loaded as a number that is stored as it. -/
theorem store_load (host : Host) (s : Str) : host.store s.length (host.load s.length s) = s := by
  unfold Host.store Host.load
  rw [setBE_eq]
  split
  · rw [getBE_eq, encode_decode]
  · have hback := encode_decode s.reverse
    have hget := getBE_eq s.reverse
    rw [List.length_reverse] at hback hget
    rw [hget, hback, List.reverse_reverse]

/-- The bytes of a number in the order of a buffer. -/
def bytesOf (order : ByteOrder) (host : Host) (w v : ℕ) : Str :=
  if order = .ORDER_NETWORK ∨ host.isBigEndian then encode w v else (encode w v).reverse

/-- The number of some bytes in the order of a buffer. -/
def valueOf (order : ByteOrder) (host : Host) (s : Str) : ℕ :=
  if order = .ORDER_NETWORK ∨ host.isBigEndian then decode s else decode s.reverse

@[simp] theorem length_bytesOf (order : ByteOrder) (host : Host) (w v : ℕ) :
    (bytesOf order host w v).length = w := by
  unfold bytesOf
  split <;> simp

/-- A number is read as it was written. -/
theorem valueOf_bytesOf (order : ByteOrder) (host : Host) (w v : ℕ) :
    valueOf order host (bytesOf order host w v) = v % 2 ^ (8 * w) := by
  unfold valueOf bytesOf
  split
  · exact decode_encode w v
  · rw [List.reverse_reverse, decode_encode]

/-- What is stored to be written is the bytes of the number. -/
theorem written_bytes (order : ByteOrder) (host : Host) (w v : ℕ) :
    host.store w (if order = .ORDER_NETWORK then HostToNetwork host w v else v)
      = bytesOf order host w v := by
  unfold bytesOf
  cases order with
  | ORDER_NETWORK =>
    have hback := store_load host (SetBE w v)
    rw [setBE_eq, length_encode] at hback
    rw [if_pos rfl, if_pos (Or.inl rfl)]
    unfold HostToNetwork
    rw [setBE_eq, hback]
  | ORDER_HOST =>
    unfold Host.store
    rw [setBE_eq]
    simp

/-- What is loaded is the number of the bytes. -/
theorem read_value (order : ByteOrder) (host : Host) (s : Str) :
    (if order = .ORDER_NETWORK then NetworkToHost host s.length (host.load s.length s)
      else host.load s.length s) = valueOf order host s := by
  unfold valueOf
  cases order with
  | ORDER_NETWORK =>
    rw [if_pos rfl, if_pos (Or.inl rfl)]
    unfold NetworkToHost
    rw [store_load, getBE_eq]
  | ORDER_HOST =>
    have hget := getBE_eq s.reverse
    rw [List.length_reverse] at hget
    unfold Host.load
    rw [getBE_eq, hget]
    simp

namespace ByteBuffer

open Ring (put put_zero length_put)

/-- The three bytes of four that `WriteUInt24` writes. -/
theorem written_bytes24 (b : ByteBuffer) (host : Host) (v : ℕ) :
    ((bytesOf b.byte_order_ host 4 v).drop (b.offset24 host)).take 3
      = bytesOf b.byte_order_ host 3 v := by
  unfold bytesOf offset24
  by_cases hbig : b.byte_order_ = .ORDER_NETWORK ∨ host.isBigEndian = true
  · rw [if_pos hbig, if_pos hbig, if_pos hbig]
    rfl
  · rw [if_neg hbig, if_neg hbig, if_neg hbig]
    rfl

/-- The number that `ReadUInt24` makes of three bytes. -/
theorem read_value24 (b : ByteBuffer) (host : Host) {s : Str} (h : s.length = 3) :
    (if b.byte_order_ = .ORDER_NETWORK then
        NetworkToHost host 4 (host.load 4 (put (host.store 4 0) (b.offset24 host) s))
      else host.load 4 (put (host.store 4 0) (b.offset24 host) s))
      = valueOf b.byte_order_ host s := by
  have hzero : host.store 4 0 = [0, 0, 0, 0] := by
    unfold Host.store
    split <;> rfl
  have hvalue := read_value b.byte_order_ host
  obtain ⟨x, y, z, rfl⟩ : ∃ x y z, s = [x, y, z] := by
    rcases s with _ | ⟨x, _ | ⟨y, _ | ⟨z, _ | ⟨u, s⟩⟩⟩⟩ <;> simp at h
    exact ⟨x, y, z, rfl⟩
  rw [hzero]
  unfold offset24
  by_cases hbig : b.byte_order_ = .ORDER_NETWORK ∨ host.isBigEndian = true
  · rw [if_pos hbig]
    refine (hvalue [0, x, y, z]).trans ?_
    unfold valueOf
    rw [if_pos hbig, if_pos hbig]
    simp [decode]
  · rw [if_neg hbig]
    refine (hvalue [x, y, z, 0]).trans ?_
    unfold valueOf
    rw [if_neg hbig, if_neg hbig]
    simp [decode]

/-! ## 2. Room and bytes -/

/-- The part in use is inside of the block. -/
structure Wf (b : ByteBuffer) : Prop where
  start_le : b.start_ ≤ b.end_
  end_le : b.end_ ≤ b.size_
  length_bytes : b.bytes_.length = b.size_

variable {b : ByteBuffer} (fresh : ℕ → UInt8)

theorem Wf.length_data (h : b.Wf) : b.Data.length = b.Length := by
  have hend := h.end_le
  have hbytes := h.length_bytes
  unfold Data Length
  rw [List.length_drop, List.length_take]
  omega

/-- A block that begins with what could be read. -/
theorem moved_spec (h : b.Wf) {block : Str} (hblock : b.Length ≤ block.length)
    (version : UInt32) :
    let moved : ByteBuffer :=
      ⟨put block 0 b.Data, block.length, 0, b.Length, version, b.byte_order_⟩
    moved.Wf ∧ moved.Data = b.Data := by
  have hlength := h.length_data
  refine ⟨⟨Nat.zero_le _, hblock, ?_⟩, ?_⟩
  · exact length_put (show 0 + b.Data.length ≤ block.length by omega)
  · show ((put block 0 b.Data).take b.Length).drop 0 = b.Data
    rw [put_zero, List.drop_zero, ← hlength, List.take_left]

/-- Moved bytes are those that could be read, and there is the room that was asked for. -/
theorem resize_spec (h : b.Wf) {n : ℕ} (hn : b.Length ≤ n) :
    (b.Resize fresh n).Wf ∧ (b.Resize fresh n).Data = b.Data
      ∧ (b.Resize fresh n).start_ = 0 ∧ (b.Resize fresh n).end_ = b.Length
      ∧ n ≤ (b.Resize fresh n).size_ ∧ (b.Resize fresh n).version_ = b.version_ + 1
      ∧ (b.Resize fresh n).byte_order_ = b.byte_order_ := by
  have hbytes := h.length_bytes
  have hmin : min (b.end_ - b.start_) n = b.Length := Nat.min_eq_left hn
  have hmoved : (b.bytes_.drop b.start_).take b.Length = b.Data := by
    unfold Data Length
    rw [List.drop_take]
  unfold Resize
  rw [hmin]
  dsimp only
  rw [hmoved]
  split
  · next hfits =>
      obtain ⟨hwf, hdata⟩ := moved_spec h (show b.Length ≤ b.bytes_.length by omega)
        (b.version_ + 1)
      rw [hbytes] at hwf hdata
      exact ⟨hwf, hdata, rfl, rfl, hfits, rfl, rfl⟩
  · have hsize : n ≤ max n (3 * b.size_ / 2) := Nat.le_max_left _ _
    have hnew := length_newBlock fresh (max n (3 * b.size_ / 2))
    obtain ⟨hwf, hdata⟩ := moved_spec h
      (show b.Length ≤ (newBlock fresh (max n (3 * b.size_ / 2))).length by omega)
      (b.version_ + 1)
    rw [hnew] at hwf hdata
    exact ⟨hwf, hdata, rfl, rfl, hsize, rfl, rfl⟩

/-- Bytes are stored behind what could be read. -/
theorem store_spec (h : b.Wf) {s : Str} (hroom : b.end_ + s.length ≤ b.size_) :
    let stored : ByteBuffer := { b with end_ := b.end_ + s.length, bytes_ := put b.bytes_ b.end_ s }
    stored.Wf ∧ stored.bytes_.take stored.end_ = b.bytes_.take b.end_ ++ s := by
  have hbytes := h.length_bytes
  have htake : (b.bytes_.take b.end_).length = b.end_ := by
    rw [List.length_take]
    omega
  refine ⟨⟨Nat.le_add_right_of_le h.start_le, hroom, ?_⟩, ?_⟩
  · exact (length_put (show b.end_ + s.length ≤ b.bytes_.length by omega)).trans hbytes
  · show (put b.bytes_ b.end_ s).take (b.end_ + s.length) = b.bytes_.take b.end_ ++ s
    have hlength : (b.bytes_.take b.end_ ++ s).length = b.end_ + s.length := by
      rw [List.length_append, htake]
    unfold put
    rw [← hlength, List.take_left]

/-- Room is reserved in the block as it is, or in one that what could be read was moved to. -/
theorem reserve_spec (h : b.Wf) (n : ℕ) :
    ∃ c : ByteBuffer, b.ReserveWriteBuffer fresh n = ({ c with end_ := c.end_ + n }, c.end_)
      ∧ c.Wf ∧ c.Data = b.Data ∧ c.end_ + n ≤ c.size_ ∧ c.byte_order_ = b.byte_order_
      ∧ (c = b ∨ c.version_ = b.version_ + 1) := by
  have hstart := h.start_le
  have hend := h.end_le
  unfold ReserveWriteBuffer
  by_cases hroom : b.Length + n > b.Capacity
  · obtain ⟨hwf, hdata, -, hend', hsize, hversion, horder⟩ :=
      resize_spec fresh h (Nat.le_add_right b.Length n)
    rw [if_pos hroom]
    exact ⟨_, rfl, hwf, hdata, by omega, horder, Or.inr hversion⟩
  · rw [if_neg hroom]
    unfold Length Capacity at hroom
    exact ⟨b, rfl, h, rfl, by omega, rfl, Or.inl rfl⟩

/-- A write puts its bytes behind what could be read. Either nothing is moved for it, and what
was in the block is still there, or something is, and the version tells. -/
theorem writeBytes_spec (h : b.Wf) (s : Str) :
    (b.WriteBytes fresh s).Wf ∧ (b.WriteBytes fresh s).Data = b.Data ++ s
      ∧ (b.WriteBytes fresh s).byte_order_ = b.byte_order_
      ∧ ((b.WriteBytes fresh s).version_ = b.version_
          ∧ (b.WriteBytes fresh s).bytes_.take (b.WriteBytes fresh s).end_
            = b.bytes_.take b.end_ ++ s
        ∨ (b.WriteBytes fresh s).version_ = b.version_ + 1) := by
  obtain ⟨c, hreserve, hwf, hdata, hroom, horder, hmoved⟩ := reserve_spec fresh h s.length
  obtain ⟨hwf', htake⟩ := store_spec hwf hroom
  have hwrite : b.WriteBytes fresh s
      = { c with end_ := c.end_ + s.length, bytes_ := put c.bytes_ c.end_ s } := by
    unfold WriteBytes
    rw [hreserve]
    rfl
  have hstart := hwf.start_le
  have hend := hwf.end_le
  have hbytes := hwf.length_bytes
  rw [hwrite]
  refine ⟨hwf', ?_, horder, ?_⟩
  · have hle : c.start_ ≤ (c.bytes_.take c.end_).length := by
      rw [List.length_take]
      omega
    rw [← hdata]
    exact (congrArg (List.drop c.start_) htake).trans (List.drop_append_of_le_length hle)
  · rcases hmoved with rfl | hversion
    · exact Or.inl ⟨rfl, htake⟩
    · exact Or.inr hversion

/-- A read takes the first bytes, or changes nothing. -/
theorem readBytes_spec (h : b.Wf) (n : ℕ) :
    b.ReadBytes n = if n ≤ b.Data.length then
        ({ b with start_ := b.start_ + n }, some (b.Data.take n))
      else (b, none) := by
  have htake : ∀ (hn : n ≤ b.Length), (b.bytes_.drop b.start_).take n = b.Data.take n := by
    intro hn
    unfold Length at hn
    unfold Data
    rw [List.drop_take, List.take_take, Nat.min_eq_left hn]
  unfold ReadBytes
  rw [h.length_data]
  by_cases hn : n ≤ b.Length
  · rw [if_neg (Nat.not_lt_of_le hn), if_pos hn, htake hn]
  · rw [if_pos (Nat.lt_of_not_le hn), if_neg hn]

/-- Going forward inside of what can be read leaves the rest of it. -/
theorem forward_spec (h : b.Wf) {n : ℕ} (hn : n ≤ b.Data.length) :
    let c : ByteBuffer := { b with start_ := b.start_ + n }
    c.Wf ∧ c.Data = b.Data.drop n := by
  have hlength := h.length_data
  have hstart := h.start_le
  unfold Length at hlength
  refine ⟨⟨show b.start_ + n ≤ b.end_ by omega, h.end_le, h.length_bytes⟩, ?_⟩
  show (b.bytes_.take b.end_).drop (b.start_ + n) = ((b.bytes_.take b.end_).drop b.start_).drop n
  rw [List.drop_drop]

end ByteBuffer

end Gxmpp.TalkBase
