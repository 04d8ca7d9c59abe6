/-
`talk/base/ipaddress.cc`.

An address is what is in the memory of the host: words that are in network order, whatever the
order of the host is. `inet_pton` and `inet_ntop` belong to the system. An `int32` goes round.
-/
import Gxmpp.ByteBufferSteps
import Mathlib.Data.Fintype.Basic

set_option autoImplicit false

namespace Gxmpp.TalkBase

/-! ## 1. Words of the host -/

section Words

variable (host : Host)

def NetworkToHost32 (n : BitVec 32) : BitVec 32 := BitVec.ofNat 32 (NetworkToHost host 4 n.toNat)

def HostToNetwork32 (n : BitVec 32) : BitVec 32 := BitVec.ofNat 32 (HostToNetwork host 4 n.toNat)

theorem load_store (w v : ℕ) : host.load w (host.store w v) = v % 2 ^ (8 * w) := by
  have hload := read_value .ORDER_HOST host (host.store w v)
  have hstore : host.store w v = bytesOf .ORDER_HOST host w v := written_bytes .ORDER_HOST host w v
  rw [length_store] at hload
  rw [← valueOf_bytesOf .ORDER_HOST host, ← hstore]
  exact hload

theorem load_lt (s : Str) : host.load s.length s < 2 ^ (8 * s.length) := by
  unfold Host.load
  split
  · rw [getBE_eq]
    exact BigEndian.decode_lt s
  · have hget := getBE_eq s.reverse
    have hlt := BigEndian.decode_lt s.reverse
    rw [List.length_reverse] at hget hlt
    rw [hget]
    exact hlt

theorem networkToHost32_hostToNetwork32 (n : BitVec 32) :
    NetworkToHost32 host (HostToNetwork32 host n) = n := by
  have hlt : HostToNetwork host 4 n.toNat < 2 ^ 32 := by
    have hload := load_lt host (SetBE 4 n.toNat)
    rwa [setBE_eq, BigEndian.length_encode, ← setBE_eq] at hload
  have hbytes : host.store 4 (HostToNetwork host 4 n.toNat) = BigEndian.encode 4 n.toNat :=
    written_bytes .ORDER_NETWORK host 4 n.toNat
  have hback : GetBE 4 (BigEndian.encode 4 n.toNat) = n.toNat := by
    have hget := getBE_eq (BigEndian.encode 4 n.toNat)
    rw [BigEndian.length_encode] at hget
    rw [hget, BigEndian.decode_encode]
    exact Nat.mod_eq_of_lt n.isLt
  unfold NetworkToHost32 HostToNetwork32 NetworkToHost
  rw [BitVec.toNat_ofNat, Nat.mod_eq_of_lt hlt, hbytes, hback, BitVec.ofNat_toNat]
  exact BitVec.setWidth_eq n

theorem hostToNetwork32_networkToHost32 (n : BitVec 32) :
    HostToNetwork32 host (NetworkToHost32 host n) = n := by
  have hget : GetBE 4 (host.store 4 n.toNat) = BigEndian.decode (host.store 4 n.toNat) := by
    have hget := getBE_eq (host.store 4 n.toNat)
    rwa [length_store] at hget
  have hlt : BigEndian.decode (host.store 4 n.toNat) < 2 ^ 32 := by
    have hlt := BigEndian.decode_lt (host.store 4 n.toNat)
    rwa [length_store] at hlt
  have hback : BigEndian.encode 4 (BigEndian.decode (host.store 4 n.toNat))
      = host.store 4 n.toNat := by
    have hback := BigEndian.encode_decode (host.store 4 n.toNat)
    rwa [length_store] at hback
  unfold NetworkToHost32 HostToNetwork32 NetworkToHost HostToNetwork
  rw [hget, BitVec.toNat_ofNat, Nat.mod_eq_of_lt hlt, setBE_eq, hback, load_store,
    Nat.mod_eq_of_lt n.isLt, BitVec.ofNat_toNat]
  exact BitVec.setWidth_eq n

theorem networkToHost32_inj {m n : BitVec 32}
    (h : NetworkToHost32 host m = NetworkToHost32 host n) : m = n := by
  rw [← hostToNetwork32_networkToHost32 host m, h, hostToNetwork32_networkToHost32]

theorem networkToHost32_zero : NetworkToHost32 host 0 = 0 := by
  obtain ⟨isBigEndian⟩ := host
  cases isBigEndian <;> decide

theorem networkToHost32_ones : NetworkToHost32 host 0xFFFFFFFF = BitVec.allOnes 32 := by
  obtain ⟨isBigEndian⟩ := host
  cases isBigEndian <;> decide

end Words

/-! ## 2. Addresses -/

structure InAddr where
  s_addr : BitVec 32
deriving DecidableEq

structure In6Addr where
  v6_as_ints : Fin 4 → BitVec 32
deriving DecidableEq

inductive IPAddress where
  | unspec
  | inet (ip4 : InAddr)
  | inet6 (ip6 : In6Addr)
deriving DecidableEq

/-- `AF_UNSPEC`, `AF_INET` and `AF_INET6`. -/
inductive AddressFamily where
  | AF_UNSPEC
  | AF_INET
  | AF_INET6
deriving DecidableEq

def INADDR_ANY : BitVec 32 := 0

def in6addr_any : In6Addr := ⟨fun _ => 0⟩

/-- The bytes of the memory. -/
def InAddr.bytes (host : Host) (addr : InAddr) : Str := host.store 4 addr.s_addr.toNat

def In6Addr.s6_addr (host : Host) (addr : In6Addr) : Str :=
  (List.finRange 4).flatMap fun i => host.store 4 (addr.v6_as_ints i).toNat

namespace IPAddress

variable (host : Host)

def family : IPAddress → AddressFamily
  | .unspec => .AF_UNSPEC
  | .inet _ => .AF_INET
  | .inet6 _ => .AF_INET6

def ofHostOrder (ip_in_host_byte_order : BitVec 32) : IPAddress :=
  .inet ⟨HostToNetwork32 host ip_in_host_byte_order⟩

/-- `operator==`. -/
def eq (ip other : IPAddress) : Bool :=
  match ip, other with
  | .inet a, .inet b => a.bytes host = b.bytes host
  | .inet6 a, .inet6 b => a.s6_addr host = b.s6_addr host
  | .unspec, .unspec => true
  | _, _ => false

/-- `operator<`: IPv4 is 'less than' IPv6. -/
def lt (ip other : IPAddress) : Bool :=
  match ip, other with
  | .inet a, .inet b => NetworkToHost32 host a.s_addr < NetworkToHost32 host b.s_addr
  | .inet6 a, .inet6 b => a.s6_addr host < b.s6_addr host
  | .unspec, .inet _ | .unspec, .inet6 _ | .inet _, .inet6 _ => true
  | _, _ => false

end IPAddress

/-- `inet_pton` and `inet_ntop` of the system, for the two families. -/
structure Inet where
  pton4 : Str → Option InAddr
  pton6 : Str → Option In6Addr
  ntop4 : InAddr → Option Str
  ntop6 : In6Addr → Option Str

/-- The text that a `c_str()` shows. -/
def c_str (str : Str) : Str := str.takeWhile (· ≠ 0)

/-- What `*out` is afterwards, and whether the string was an address. -/
def IPFromString (inet : Inet) (str : Str) : IPAddress × Bool :=
  match inet.pton4 (c_str str) with
  | some addr => (.inet addr, true)
  | none =>
    match inet.pton6 (c_str str) with
    | some addr6 => (.inet6 addr6, true)
    | none => (.unspec, false)

def IPAddress.ToString (inet : Inet) : IPAddress → Str
  | .unspec => []
  | .inet ip4 => (inet.ntop4 ip4).getD []
  | .inet6 ip6 => (inet.ntop6 ip6).getD []

section Questions

variable (host : Host)

def IPIsAny (ip : IPAddress) : Bool :=
  match ip with
  | .inet _ => ip.eq host (.ofHostOrder host INADDR_ANY)
  | .inet6 _ => ip.eq host (.inet6 in6addr_any)
  | .unspec => false

def IPIsUnspec (ip : IPAddress) : Bool := ip.family = .AF_UNSPEC

/-- A `size_t` has 64 bits. -/
def HashIP : IPAddress → BitVec 64
  | .inet ip4 => ip4.s_addr.setWidth 64
  | .inet6 v6addr =>
    (v6addr.v6_as_ints 0 ^^^ v6addr.v6_as_ints 1 ^^^ v6addr.v6_as_ints 2
      ^^^ v6addr.v6_as_ints 3).setWidth 64
  | .unspec => 0

end Questions

section Masks

variable (host : Host)

def TruncateIP (ip : IPAddress) (length : Int) : IPAddress :=
  if length < 0 then .unspec
  else match ip with
  | .inet ip4 =>
    if length > 31 then ip
    else if length = 0 then .ofHostOrder host INADDR_ANY
    else
      let mask : BitVec 32 := 0xFFFFFFFF#32 <<< (32 - length).toNat
      let host_order_ip := NetworkToHost32 host ip4.s_addr
      .inet ⟨HostToNetwork32 host (host_order_ip &&& mask)⟩
  | .inet6 v6addr =>
    if length > 127 then ip
    else if length = 0 then .inet6 in6addr_any
    else
      let position := length / 32
      let inner_length := 32 - (length - position * 32)
      -- 64bit mask constant needed to allow possible 32-bit left shift
      let inner_mask := (0xFFFFFFFF#64 <<< inner_length.toNat).setWidth 32
      .inet6 ⟨fun i =>
        if i.val = position then
          let host_order_inner := NetworkToHost32 host (v6addr.v6_as_ints i)
          HostToNetwork32 host (host_order_inner &&& inner_mask)
        else if i.val > position then 0
        else v6addr.v6_as_ints i⟩
  | .unspec => .unspec

/-- The end of `CountIPMaskBits`: the bits of a word are counted from behind. -/
def countWord (bits : ℕ) (word_to_count : BitVec 32) : ℕ :=
  if word_to_count = 0 then bits
  else
    let zeroes := 32
    let word_to_count := word_to_count &&& -word_to_count
    let zeroes := if word_to_count ≠ 0 then zeroes - 1 else zeroes
    let zeroes := if word_to_count &&& 0x0000FFFF ≠ 0 then zeroes - 16 else zeroes
    let zeroes := if word_to_count &&& 0x00FF00FF ≠ 0 then zeroes - 8 else zeroes
    let zeroes := if word_to_count &&& 0x0F0F0F0F ≠ 0 then zeroes - 4 else zeroes
    let zeroes := if word_to_count &&& 0x33333333 ≠ 0 then zeroes - 2 else zeroes
    let zeroes := if word_to_count &&& 0x55555555 ≠ 0 then zeroes - 1 else zeroes
    bits + (32 - zeroes)

def CountIPMaskBits : IPAddress → ℕ
  | .inet ip4 => countWord 0 (NetworkToHost32 host ip4.s_addr)
  | .inet6 v6addr =>
    let i := ((List.finRange 4).takeWhile fun i => v6addr.v6_as_ints i = 0xFFFFFFFF).length
    let word_to_count := if h : i < 4 then NetworkToHost32 host (v6addr.v6_as_ints ⟨i, h⟩) else 0
    countWord (i * 32) word_to_count
  | .unspec => 0

end Masks

end Gxmpp.TalkBase
