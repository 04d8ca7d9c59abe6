/-
`talk/base/socketaddress.cc`, and the order of the addresses.

`ASSERT` does nothing. A string that is not long enough for `at` is an exception, which is `none`.
-/
import Gxmpp.IPAddress
import Gxmpp.StringEncode

set_option autoImplicit false

namespace Gxmpp.TalkBase

structure SocketAddress where
  hostname_ : Str
  ip_ : IPAddress
  port_ : BitVec 16
  scope_id_ : Int
  literal_ : Bool
deriving DecidableEq

namespace SocketAddress

/-- The nil address, as `Clear` makes it. -/
def nil : SocketAddress := ⟨[], .unspec, 0, 0, false⟩

variable (addr : SocketAddress)

/-! ## 1. Setters -/

def SetIP (ip : IPAddress) : SocketAddress :=
  { addr with
    hostname_ := []
    literal_ := false
    ip_ := ip
    scope_id_ := 0 }

/-- `SetIP` with a host name. -/
def SetIPName (inet : Inet) (hostname : Str) : SocketAddress :=
  let (ip, literal) := IPFromString inet hostname
  { addr with
    hostname_ := hostname
    literal_ := literal
    ip_ := if literal then ip else .unspec
    scope_id_ := 0 }

def SetResolvedIP (ip : IPAddress) : SocketAddress :=
  { addr with
    ip_ := ip
    scope_id_ := 0 }

/-- The port is an `int`, of which the lower half is kept. -/
def SetPort (port : BitVec 32) : SocketAddress := { addr with port_ := port.setWidth 16 }

def SetScopeID (id : Int) : SocketAddress := { addr with scope_id_ := id }

/-- The constructor with a host name. -/
def ofName (inet : Inet) (hostname : Str) (port : BitVec 32) : SocketAddress :=
  (nil.SetIPName inet hostname).SetPort port

/-- The constructor with an address. -/
def ofIP (ip : IPAddress) (port : BitVec 32) : SocketAddress := (nil.SetIP ip).SetPort port

/-! ## 2. Comparisons -/

section Comparisons

variable (host : Host)

def IsComplete : Bool := !IPIsAny host addr.ip_ && addr.port_ ≠ 0

def IsAnyIP : Bool := IPIsAny host addr.ip_

def IsUnresolvedIP : Bool := IPIsUnspec addr.ip_ && !addr.literal_ && !addr.hostname_.isEmpty

variable (other : SocketAddress)

def EqualIPs : Bool :=
  addr.ip_.eq host other.ip_ && (!IPIsAny host addr.ip_ || addr.hostname_ = other.hostname_)

def EqualPorts : Bool := addr.port_ = other.port_

/-- `operator==`. -/
def eq : Bool := addr.EqualIPs host other && addr.EqualPorts other

/-- `operator<`. -/
def lt : Bool :=
  if addr.ip_.lt host other.ip_ then true
  else if other.ip_.lt host addr.ip_ then false
  -- We only check hostnames if both IPs are zero.
  else if other.IsAnyIP host && addr.hostname_ < other.hostname_ then true
  else if other.IsAnyIP host && other.hostname_ < addr.hostname_ then false
  else addr.port_ < other.port_

def Hash : BitVec 64 :=
  let port := addr.port_.setWidth 32
  0 ^^^ HashIP addr.ip_ ^^^ (port ||| port <<< 16).signExtend 64

end Comparisons

end SocketAddress

/-! ## 3. Texts -/

/-- `source.rfind(ch)`. -/
def rfind (source : Str) (ch : UInt8) : Option Nat :=
  (source.reverse.findIdx? (· = ch)).map (source.length - 1 - ·)

namespace SocketAddress

open StringEncode (find substr strtoul)

variable (inet : Inet) (addr : SocketAddress)

def HostAsURIString : Str :=
  -- a literal may need square brackets
  if !addr.literal_ && !addr.hostname_.isEmpty then addr.hostname_
  else if addr.ip_.family = .AF_INET6 then [0x5B] ++ addr.ip_.ToString inet ++ [0x5D]
  else addr.ip_.ToString inet

def ToString : Str :=
  addr.HostAsURIString inet ++ [0x3A] ++ XmlnsStack.decimal addr.port_.toNat

/-- `SetPort(strtoul(..))`. -/
def SetPortText (text : Str) : SocketAddress :=
  addr.SetPort (BitVec.ofNat 32 (strtoul (c_str text) 10).1)

def FromString (str : Str) : Option (SocketAddress × Bool) :=
  match str with
  | [] => none
  | first :: _ =>
    if first = 0x5B then
      match rfind str 0x5D with
      | some closebracket =>
        match find str 0x3A closebracket with
        | some colon =>
          if colon > closebracket then
            some ((addr.SetPortText (str.drop (colon + 1))).SetIPName inet
              (substr str 1 (closebracket - 1)), true)
          else some (addr, false)
        | none => some (addr, false)
      | none => some (addr, true)
    else
      match find str 0x3A 0 with
      | none => some (addr, false)
      | some pos =>
        some ((addr.SetPortText (str.drop (pos + 1))).SetIPName inet (substr str 0 pos), true)

end SocketAddress

/-! ## 4. The order of the addresses -/

section Addresses

variable (host : Host)

theorem store_inj {m n : BitVec 32} (h : host.store 4 m.toNat = host.store 4 n.toNat) : m = n := by
  have hload := congrArg (host.load 4) h
  rw [load_store, load_store, Nat.mod_eq_of_lt m.isLt, Nat.mod_eq_of_lt n.isLt] at hload
  exact BitVec.eq_of_toNat_eq hload

theorem s6_addr_eq (addr : In6Addr) :
    addr.s6_addr host = host.store 4 (addr.v6_as_ints 0).toNat
      ++ (host.store 4 (addr.v6_as_ints 1).toNat ++ (host.store 4 (addr.v6_as_ints 2).toNat
        ++ host.store 4 (addr.v6_as_ints 3).toNat)) := by
  have hplaces : List.finRange 4 = [0, 1, 2, 3] := by decide
  unfold In6Addr.s6_addr
  rw [hplaces]
  simp

theorem s6_addr_inj {a b : In6Addr} (h : a.s6_addr host = b.s6_addr host) : a = b := by
  rw [s6_addr_eq, s6_addr_eq] at h
  obtain ⟨h0, h⟩ := List.append_inj h (by rw [length_store, length_store])
  obtain ⟨h1, h⟩ := List.append_inj h (by rw [length_store, length_store])
  obtain ⟨h2, h3⟩ := List.append_inj h (by rw [length_store, length_store])
  obtain ⟨a⟩ := a
  obtain ⟨b⟩ := b
  have hwords : a = b := by
    funext i
    match i with
    | 0 => exact store_inj host h0
    | 1 => exact store_inj host h1
    | 2 => exact store_inj host h2
    | 3 => exact store_inj host h3
  rw [hwords]

namespace IPAddress

/-- Addresses are equal when they are the same. -/
theorem eq_iff (a b : IPAddress) : a.eq host b = true ↔ a = b := by
  cases a with
  | unspec => cases b <;> simp [eq]
  | inet a =>
    cases b with
    | unspec | inet6 => simp [eq]
    | inet b =>
      refine ⟨fun h => ?_, fun h => ?_⟩
      · obtain ⟨a⟩ := a
        obtain ⟨b⟩ := b
        rw [store_inj host (of_decide_eq_true h : host.store 4 a.toNat = host.store 4 b.toNat)]
      · rw [h]
        exact decide_eq_true rfl
  | inet6 a =>
    cases b with
    | unspec | inet => simp [eq]
    | inet6 b =>
      refine ⟨fun h => ?_, fun h => ?_⟩
      · rw [s6_addr_inj host (of_decide_eq_true h)]
      · rw [h]
        exact decide_eq_true rfl

/-- What an address is compared by: its family, and then the number or the bytes. -/
def key : IPAddress → ℕ × ℕ × Str
  | .unspec => (0, 0, [])
  | .inet ip4 => (1, (NetworkToHost32 host ip4.s_addr).toNat, [])
  | .inet6 ip6 => (2, 0, ip6.s6_addr host)

theorem key_inj {a b : IPAddress} (h : a.key host = b.key host) : a = b := by
  cases a with
  | unspec =>
    cases b with
    | unspec => rfl
    | inet | inet6 => cases (Prod.mk.inj h).1
  | inet a =>
    cases b with
    | unspec | inet6 => cases (Prod.mk.inj h).1
    | inet b =>
      have hnumber : (NetworkToHost32 host a.s_addr).toNat
          = (NetworkToHost32 host b.s_addr).toNat := (Prod.mk.inj (Prod.mk.inj h).2).1
      obtain ⟨a⟩ := a
      obtain rfl : a = b.s_addr := networkToHost32_inj host (BitVec.eq_of_toNat_eq hnumber)
      rfl
  | inet6 a =>
    cases b with
    | unspec | inet => cases (Prod.mk.inj h).1
    | inet6 b => rw [s6_addr_inj host (Prod.mk.inj (Prod.mk.inj h).2).2]

/-- The order of the keys. -/
abbrev KeyLt : ℕ × ℕ × Str → ℕ × ℕ × Str → Prop :=
  Prod.Lex (· < ·) (Prod.Lex (· < ·) (· < ·))

theorem lt_iff (a b : IPAddress) : a.lt host b = true ↔ KeyLt (a.key host) (b.key host) := by
  cases a <;> cases b <;> simp [lt, key, Prod.lex_iff, BitVec.lt_def]

end IPAddress

end Addresses

/-- What is compared by a key in a total order is in a weak order, in which the values of one key
are not comparable. -/
theorem weakOrder_of_key {α κ : Type*} {r : κ → κ → Prop} [Std.Irrefl r] [IsTrans κ r]
    [Std.Trichotomous r] (key : α → κ) {lt : α → α → Prop} (h : ∀ a b, lt a b ↔ r (key a) (key b)) :
    IsStrictWeakOrder α lt ∧ ∀ a b, ¬lt a b ∧ ¬lt b a ↔ key a = key b := by
  have hsame : ∀ a b, ¬lt a b ∧ ¬lt b a ↔ key a = key b := by
    intro a b
    rw [h, h]
    constructor
    · rintro ⟨hab, hba⟩
      exact Std.Trichotomous.trichotomous _ _ hab hba
    · intro heq
      rw [heq]
      exact ⟨irrefl_of r _, irrefl_of r _⟩
  refine ⟨{ irrefl := ?_, trans := ?_, incomp_trans := ?_ }, hsame⟩
  · exact fun a hlt => irrefl_of r _ ((h a a).1 hlt)
  · exact fun a b c hab hbc => (h a c).2 (trans_of r ((h a b).1 hab) ((h b c).1 hbc))
  · intro a b c hab hbc
    exact (hsame a c).2 (((hsame a b).1 hab).trans ((hsame b c).1 hbc))

namespace SocketAddress

variable (host : Host)

/-- What an address is compared by: the host name counts where the IP is any. -/
def key (addr : SocketAddress) : (ℕ × ℕ × Str) × Str × ℕ :=
  (addr.ip_.key host, if IPIsAny host addr.ip_ then addr.hostname_ else [], addr.port_.toNat)

/-- The order of the keys. -/
abbrev KeyLt : (ℕ × ℕ × Str) × Str × ℕ → (ℕ × ℕ × Str) × Str × ℕ → Prop :=
  Prod.Lex IPAddress.KeyLt (Prod.Lex (· < ·) (· < ·))

theorem eq_iff (a b : SocketAddress) : a.eq host b = true ↔ a.key host = b.key host := by
  have hkey : a.key host = b.key host ↔ a.ip_ = b.ip_
      ∧ (if IPIsAny host a.ip_ then a.hostname_ else [])
        = (if IPIsAny host b.ip_ then b.hostname_ else []) ∧ a.port_ = b.port_ := by
    constructor
    · intro h
      exact ⟨IPAddress.key_inj host (congrArg Prod.fst h), congrArg (fun k => k.2.1) h,
        BitVec.eq_of_toNat_eq (congrArg (fun k => k.2.2) h)⟩
    · rintro ⟨hip, hname, hport⟩
      unfold key
      rw [hname, hip, hport]
  rw [hkey]
  unfold eq EqualIPs EqualPorts
  rw [Bool.and_eq_true, Bool.and_eq_true, IPAddress.eq_iff, Bool.or_eq_true, decide_eq_true_iff,
    decide_eq_true_iff, and_assoc]
  refine and_congr_right fun hip => and_congr_left fun _ => ?_
  rw [← hip]
  cases IPIsAny host a.ip_ <;> simp

theorem lt_iff (a b : SocketAddress) : a.lt host b = true ↔ KeyLt (a.key host) (b.key host) := by
  unfold KeyLt key
  rw [Prod.lex_iff, Prod.lex_iff]
  -- the cases are those of the source: one IP is less, the other one is, or neither
  by_cases hless : a.ip_.lt host b.ip_ = true
  · unfold lt
    rw [if_pos hless]
    exact iff_of_true rfl (.inl ((IPAddress.lt_iff host _ _).1 hless))
  · by_cases hmore : b.ip_.lt host a.ip_ = true
    · have hkeys := (IPAddress.lt_iff host _ _).1 hmore
      unfold lt
      rw [if_neg hless, if_pos hmore]
      refine iff_of_false Bool.false_ne_true ?_
      rintro (hlt | ⟨heq, -⟩)
      · exact irrefl_of IPAddress.KeyLt _ (trans_of IPAddress.KeyLt hlt hkeys)
      · have heq' : a.ip_.key host = b.ip_.key host := heq
        rw [heq'] at hkeys
        exact irrefl_of IPAddress.KeyLt _ hkeys
    · -- the IPs are the same
      rw [IPAddress.lt_iff] at hless hmore
      have hkeys : a.ip_.key host = b.ip_.key host :=
        Std.Trichotomous.trichotomous (r := IPAddress.KeyLt) _ _ hless hmore
      have hip : a.ip_ = b.ip_ := IPAddress.key_inj host hkeys
      have hself : ¬b.ip_.lt host b.ip_ = true := fun h =>
        irrefl_of IPAddress.KeyLt _ ((IPAddress.lt_iff host _ _).1 h)
      have hnames : ∀ s t : Str, ¬s < t → ¬t < s → s = t := fun s t =>
        Std.Trichotomous.trichotomous (r := (· < ·)) s t
      unfold lt IsAnyIP
      rw [hip, if_neg hself, if_neg hself]
      simp only [irrefl_of IPAddress.KeyLt (b.ip_.key host), false_or, true_and]
      cases hany : IPIsAny host b.ip_ with
      | false => simp [BitVec.lt_def]
      | true =>
        simp only [Bool.true_and, decide_eq_true_eq, if_true]
        by_cases hname : a.hostname_ < b.hostname_
        · rw [if_pos hname]
          exact iff_of_true rfl (.inl hname)
        · by_cases hname' : b.hostname_ < a.hostname_
          · rw [if_neg hname, if_pos hname']
            refine iff_of_false Bool.false_ne_true ?_
            rintro (hlt | ⟨heq, -⟩)
            · exact hname hlt
            · rw [heq] at hname'
              exact List.lt_irrefl _ hname'
          · rw [if_neg hname, if_neg hname', hnames _ _ hname hname']
            simp [BitVec.lt_def]

/-- Equal addresses have one hash. -/
theorem hash_eq {a b : SocketAddress} (h : a.eq host b = true) : a.Hash = b.Hash := by
  have hkey := (eq_iff host a b).1 h
  have hip : a.ip_ = b.ip_ := IPAddress.key_inj host (congrArg Prod.fst hkey)
  have hport : a.port_ = b.port_ := BitVec.eq_of_toNat_eq (congrArg (fun k => k.2.2) hkey)
  unfold Hash
  rw [hip, hport]

/-- Where nothing is resolved the port is all that counts. -/
theorem eq_of_unresolved {a b : SocketAddress} (ha : a.IsUnresolvedIP = true)
    (hb : b.IsUnresolvedIP = true) (hport : a.port_ = b.port_) : a.eq host b = true := by
  have hunspec : ∀ c : SocketAddress, c.IsUnresolvedIP = true → c.ip_ = .unspec := by
    intro c hc
    unfold IsUnresolvedIP at hc
    rw [Bool.and_eq_true, Bool.and_eq_true] at hc
    have hfamily : c.ip_.family = .AF_UNSPEC := of_decide_eq_true hc.1.1
    cases hip : c.ip_ with
    | unspec => rfl
    | inet | inet6 =>
      rw [hip] at hfamily
      cases hfamily
  unfold eq EqualIPs EqualPorts
  rw [hunspec a ha, hunspec b hb, hport]
  simp [IPAddress.eq, IPIsAny]

/-- The addresses are in a weak order of which `operator==` tells what is not comparable, and equal
addresses have one hash. Two that are not resolved are kept apart by their host names in no case but
where they are apart anyhow: where their ports differ. -/
theorem ordered_iff (a b : SocketAddress) :
    (IsStrictWeakOrder SocketAddress fun a b => a.lt host b = true)
    ∧ (∀ a b : SocketAddress,
      ¬a.lt host b = true ∧ ¬b.lt host a = true ↔ a.eq host b = true)
    ∧ (Equivalence fun a b : SocketAddress => a.eq host b = true)
    ∧ (∀ a b : SocketAddress, a.eq host b = true → a.Hash = b.Hash)
    ∧ ((a.IsUnresolvedIP = true → b.IsUnresolvedIP = true → a.port_ = b.port_ →
        a.eq host b = true → a.hostname_ = b.hostname_)
      ↔ ¬(a.IsUnresolvedIP = true ∧ b.IsUnresolvedIP = true ∧ a.port_ = b.port_
        ∧ a.hostname_ ≠ b.hostname_)) := by
  obtain ⟨hweak, hsame⟩ := weakOrder_of_key (r := KeyLt) (key host) (lt_iff host)
  refine ⟨hweak, fun a b => (hsame a b).trans (eq_iff host a b).symm, ?_,
    fun a b => hash_eq host, ?_⟩
  · refine ⟨fun a => (eq_iff host a a).2 rfl, fun h => ?_, fun hab hbc => ?_⟩
    · exact (eq_iff host _ _).2 ((eq_iff host _ _).1 h).symm
    · exact (eq_iff host _ _).2 (((eq_iff host _ _).1 hab).trans ((eq_iff host _ _).1 hbc))
  · constructor
    · rintro h ⟨ha, hb, hport, hname⟩
      exact hname (h ha hb hport (eq_of_unresolved host ha hb hport))
    · intro h ha hb hport _
      by_contra hname
      exact h ⟨ha, hb, hport, hname⟩

/-- A system that knows no address. -/
def noAddress : Inet := ⟨fun _ => none, fun _ => none, fun _ => none, fun _ => none⟩

/-- `a:1` and `b:1`. -/
theorem unresolved_equal :
    (ofName noAddress [97] 1).IsUnresolvedIP = true
    ∧ (ofName noAddress [98] 1).IsUnresolvedIP = true
    ∧ (ofName noAddress [97] 1).port_ = (ofName noAddress [98] 1).port_
    ∧ (ofName noAddress [97] 1).eq ⟨false⟩ (ofName noAddress [98] 1) = true
    ∧ (ofName noAddress [97] 1).hostname_ ≠ (ofName noAddress [98] 1).hostname_ := by
  decide

end SocketAddress

end Gxmpp.TalkBase
