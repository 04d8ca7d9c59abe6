/-
`ToString` and `FromString` of a socket address.

What `FromString` does with a string is told by where its last bracket and its first colon stand
(`fromString_name`, `fromString_bracket` and `refused_false`); then it is seen which strings it
should accept, which it refuses, and that it does neither with the others.
-/
import Gxmpp.MarkupCodecs
import Gxmpp.SocketAddress
import Gxmpp.Tokenize

set_option autoImplicit false

namespace Gxmpp.TalkBase

open StringEncode (find substr strtoul find_first find_none)

/-! ## 1. The last bracket -/

theorem rfind_last {ch : UInt8} {t : Str} (h : ch ∉ t) (s : Str) :
    rfind (s ++ ch :: t) ch = some s.length := by
  have hnone : t.reverse.findIdx? (· = ch) = none := by
    rw [List.findIdx?_eq_none_iff]
    intro x hx
    rw [decide_eq_false_iff_not]
    exact fun hxch => h (hxch ▸ List.mem_reverse.1 hx)
  have hindex : (s ++ ch :: t).reverse.findIdx? (· = ch) = some t.length := by
    rw [List.reverse_append, List.reverse_cons, List.append_assoc, List.findIdx?_append, hnone,
      List.singleton_append, List.findIdx?_cons, decide_eq_true rfl]
    simp
  unfold rfind
  rw [hindex, Option.map_some, List.length_append, List.length_cons]
  congr 1
  omega

theorem rfind_none {ch : UInt8} {s : Str} (h : ch ∉ s) : rfind s ch = none := by
  unfold rfind
  rw [Option.map_eq_none_iff, List.findIdx?_eq_none_iff]
  intro x hx
  rw [decide_eq_false_iff_not]
  exact fun hxch => h (hxch ▸ List.mem_reverse.1 hx)

/-- The last place of a character. -/
theorem exists_last {ch : UInt8} {s : Str} (h : ch ∈ s) : ∃ a b, s = a ++ ch :: b ∧ ch ∉ b := by
  obtain ⟨b, a, hsplit, hfree⟩ := List.eq_append_cons_of_mem (List.mem_reverse.2 h)
  refine ⟨a.reverse, b.reverse, ?_, fun hmem => hfree (List.mem_reverse.1 hmem)⟩
  rw [← List.reverse_reverse s, hsplit]
  simp

namespace SocketAddress

variable (inet : Inet) (addr : SocketAddress)

/-! ## 2. What `FromString` does -/

/-- A name or an address, and a colon. -/
theorem fromString_name {a : Str} (hbracket : a.head? ≠ some 0x5B) (hcolon : 0x3A ∉ a) (b : Str) :
    addr.FromString inet (a ++ 0x3A :: b)
      = some ((addr.SetPortText b).SetIPName inet a, true) := by
  have hfind : find (a ++ 0x3A :: b) 0x3A 0 = some a.length := by
    have hfirst := find_first hcolon [] b
    rwa [List.nil_append, List.length_nil, Nat.zero_add] at hfirst
  have hport : (a ++ 0x3A :: b).drop (a.length + 1) = b := by
    rw [← List.drop_drop, List.drop_left, List.drop_one, List.tail_cons]
  have hname : substr (a ++ 0x3A :: b) 0 a.length = a := by
    unfold substr
    rw [List.drop_zero, List.take_left]
  cases hstr : a ++ 0x3A :: b with
  | nil => simp at hstr
  | cons first rest =>
    have hfirst : first ≠ 0x5B := by
      cases a with
      | nil =>
        rw [← (List.cons.inj hstr).1]
        decide
      | cons ch a =>
        rw [← (List.cons.inj hstr).1]
        exact fun hch => hbracket (hch ▸ rfl)
    rw [hstr] at hfind hport hname
    simp only [FromString, if_neg hfirst, hfind, hport, hname]

/-- What is in brackets, and then the first colon behind them. -/
theorem fromString_bracket {c d : Str} (hlast : 0x5D ∉ c ++ 0x3A :: d) (hcolon : 0x3A ∉ c)
    (a : Str) :
    addr.FromString inet (0x5B :: (a ++ 0x5D :: (c ++ 0x3A :: d)))
      = some ((addr.SetPortText d).SetIPName inet a, true) := by
  have hrfind : rfind (0x5B :: (a ++ 0x5D :: (c ++ 0x3A :: d))) 0x5D = some (a.length + 1) :=
    rfind_last hlast (0x5B :: a)
  have hfind : find (0x5B :: (a ++ 0x5D :: (c ++ 0x3A :: d))) 0x3A (a.length + 1)
      = some (a.length + 1 + (c.length + 1)) := by
    have hfree : (0x3A : UInt8) ∉ 0x5D :: c := by
      rw [List.mem_cons, not_or]
      exact ⟨by decide, hcolon⟩
    have hfirst := find_first hfree (0x5B :: a) d
    rwa [List.length_cons, List.length_cons] at hfirst
  have hport : (0x5B :: (a ++ 0x5D :: (c ++ 0x3A :: d))).drop
      (a.length + 1 + (c.length + 1) + 1) = d := by
    have hshape : 0x5B :: (a ++ 0x5D :: (c ++ 0x3A :: d))
        = (0x5B :: a ++ 0x5D :: c ++ [0x3A]) ++ d := by simp
    rw [hshape]
    apply List.drop_left'
    simp
    omega
  have hname : substr (0x5B :: (a ++ 0x5D :: (c ++ 0x3A :: d))) 1 (a.length + 1 - 1) = a := by
    unfold substr
    rw [List.drop_one, List.tail_cons, Nat.add_sub_cancel, List.take_left]
  have hbehind : a.length + 1 + (c.length + 1) > a.length + 1 := by omega
  simp only [FromString, hrfind, hfind, if_pos hbehind, hport, hname]
  rfl

/-- The strings that are refused: without a colon, or without one behind the last bracket. -/
inductive Refused : Str → Prop where
  | name {s : Str} (hne : s ≠ []) (hbracket : s.head? ≠ some 0x5B) (hcolon : 0x3A ∉ s) : Refused s
  | bracket {a b : Str} (hlast : 0x5D ∉ b) (hcolon : 0x3A ∉ b) : Refused (0x5B :: (a ++ 0x5D :: b))

theorem refused_false {str : Str} (h : Refused str) :
    addr.FromString inet str = some (addr, false) := by
  cases h with
  | name hne hbracket hcolon =>
    have hfind : find str 0x3A 0 = none := (find_none [] str).2 hcolon
    cases str with
    | nil => exact absurd rfl hne
    | cons first rest =>
      have hfirst : first ≠ 0x5B := fun hch => hbracket (hch ▸ rfl)
      simp only [FromString, if_neg hfirst, hfind]
  | @bracket a b hlast hcolon =>
    have hrfind : rfind (0x5B :: (a ++ 0x5D :: b)) 0x5D = some (a.length + 1) :=
      rfind_last hlast (0x5B :: a)
    have hfind : find (0x5B :: (a ++ 0x5D :: b)) 0x3A (a.length + 1) = none := by
      have hfree : (0x3A : UInt8) ∉ 0x5D :: b := by
        rw [List.mem_cons, not_or]
        exact ⟨by decide, hcolon⟩
      exact (find_none (0x5B :: a) (0x5D :: b)).2 hfree
    simp only [FromString, hrfind, hfind]
    rfl

/-- No other string is refused. -/
theorem refused_of_false {str : Str} {out : SocketAddress}
    (h : addr.FromString inet str = some (out, false)) : Refused str := by
  cases str with
  | nil => cases h
  | cons first rest =>
    by_cases hfirst : first = 0x5B
    · subst hfirst
      by_cases hlast : (0x5D : UInt8) ∈ rest
      · obtain ⟨a, b, rfl, hfree⟩ := exists_last hlast
        by_cases hcolon : (0x3A : UInt8) ∈ b
        · obtain ⟨c, d, rfl, hfirst⟩ := List.eq_append_cons_of_mem hcolon
          rw [fromString_bracket inet addr hfree hfirst a] at h
          cases (Prod.mk.inj (Option.some.inj h)).2
        · exact .bracket hfree hcolon
      · -- a bracket that is not closed is taken for an address, and nothing is set
        have hnone : rfind (0x5B :: rest) 0x5D = none := by
          refine rfind_none ?_
          rw [List.mem_cons, not_or]
          exact ⟨by decide, hlast⟩
        simp only [FromString, hnone] at h
        cases h
    · have hbracket : (first :: rest).head? ≠ some 0x5B := fun hch =>
        hfirst (Option.some.inj hch)
      by_cases hcolon : (0x3A : UInt8) ∈ first :: rest
      · obtain ⟨a, b, hsplit, hfree⟩ := List.eq_append_cons_of_mem hcolon
        have hbracket' : a.head? ≠ some 0x5B := by
          cases a with
          | nil => exact nofun
          | cons ch a =>
            rw [(List.cons.inj hsplit).1] at hfirst
            exact fun hch => hfirst (Option.some.inj hch)
        rw [hsplit, fromString_name inet addr hbracket' hfree b] at h
        cases (Prod.mk.inj (Option.some.inj h)).2
      · exact .name (List.cons_ne_nil _ _) hbracket hcolon

/-! ## 3. What it should do -/

/-- The text of a port: figures, of a number that is a port. -/
structure IsPort (text : Str) : Prop where
  ne_nil : text ≠ []
  figures : ∀ ch ∈ text, 0x30 ≤ ch ∧ ch ≤ 0x39
  le : text.foldl (fun n ch => 10 * n + (ch.toNat - 0x30)) 0 ≤ 65535

/-- `host:port` and `[ipv6]:port`. -/
inductive Form (inet : Inet) : Str → Prop where
  | name {host port : Str} (hne : host ≠ []) (hbracket : host.head? ≠ some 0x5B)
      (hcolon : 0x3A ∉ host) (hport : IsPort port) : Form inet (host ++ 0x3A :: port)
  | literal {ip port : Str} (hip : (inet.pton6 ip).isSome = true) (hnul : 0 ∉ ip)
      (hport : IsPort port) : Form inet (0x5B :: (ip ++ 0x5D :: ([] ++ 0x3A :: port)))

/-- A string is read: there is no exception, what is not in form is refused, and the address is as
it was then. -/
def Proper (str : Str) : Prop :=
  ∃ out, addr.FromString inet str = some out ∧ (out.2 = true ↔ Form inet str)
    ∧ (¬Form inet str → out = (addr, false))

theorem not_mem_figures {text : Str} (h : ∀ ch ∈ text, 0x30 ≤ ch ∧ ch ≤ 0x39) {x : UInt8}
    (hx : ¬(0x30 ≤ x ∧ x ≤ 0x39)) : x ∉ text := fun hmem => hx (h x hmem)

theorem form_true {str : Str} (h : Form inet str) :
    ∃ out, addr.FromString inet str = some (out, true) := by
  cases h with
  | name hne hbracket hcolon hport =>
    exact ⟨_, fromString_name inet addr hbracket hcolon _⟩
  | @literal ip port hip hnul hport =>
    have hlast : (0x5D : UInt8) ∉ [] ++ 0x3A :: port := by
      rw [List.nil_append, List.mem_cons, not_or]
      exact ⟨by decide, not_mem_figures hport.figures (by decide)⟩
    exact ⟨_, fromString_bracket inet addr hlast List.not_mem_nil ip⟩

/-- A string is read as it should be exactly if it is in form, or refused. -/
theorem proper_iff (str : Str) :
    Proper inet addr str ↔ Form inet str ∨ Refused str := by
  constructor
  · rintro ⟨⟨out, accepted⟩, hout, hiff, -⟩
    cases accepted with
    | true => exact .inl (hiff.1 rfl)
    | false => exact .inr (refused_of_false inet addr hout)
  · -- no string is both
    rintro (hform | hrefused)
    · obtain ⟨out, hout⟩ := form_true inet addr hform
      exact ⟨(out, true), hout, iff_of_true rfl hform, fun h => absurd hform h⟩
    · have hout := refused_false inet addr hrefused
      have hnot : ¬Form inet str := by
        intro hform
        obtain ⟨out, htrue⟩ := form_true inet addr hform
        rw [hout] at htrue
        cases (Prod.mk.inj (Option.some.inj htrue)).2
      exact ⟨(addr, false), hout, iff_of_false Bool.false_ne_true hnot, fun _ => rfl⟩

/-! ## 4. Round trips -/

/-- The system gives the text of an address and reads it again. An address of the fourth version is
written with figures and points, and one of the sixth is not read as one of the fourth. -/
inductive Readable (inet : Inet) : IPAddress → Prop where
  | inet {ip4 : InAddr} {t : Str} (hntop : inet.ntop4 ip4 = some t)
      (hpton : inet.pton4 t = some ip4) (hnul : 0 ∉ t) (hcolon : 0x3A ∉ t)
      (hbracket : t.head? ≠ some 0x5B) : Readable inet (.inet ip4)
  | inet6 {ip6 : In6Addr} {t : Str} (hntop : inet.ntop6 ip6 = some t)
      (hpton4 : inet.pton4 t = none) (hpton6 : inet.pton6 t = some ip6) (hnul : 0 ∉ t) :
      Readable inet (.inet6 ip6)

/-- An address without a host name, or a host name that is not resolved. -/
inductive Plain (inet : Inet) (addr : SocketAddress) : Prop where
  | address (hname : addr.hostname_ = []) (hip : Readable inet addr.ip_)
  | name (hunresolved : addr.IsUnresolvedIP = true) (hcolon : 0x3A ∉ addr.hostname_)
      (hbracket : addr.hostname_.head? ≠ some 0x5B)
      (hliteral : (IPFromString inet addr.hostname_).2 = false)

theorem c_str_of_not_mem {text : Str} (h : 0 ∉ text) : c_str text = text := by
  unfold c_str
  rw [List.takeWhile_eq_self_iff]
  intro ch hch
  exact decide_eq_true fun hzero => h (hzero ▸ hch)

theorem decimal_figures (n : ℕ) : ∀ ch ∈ XmlnsStack.decimal n, 0x30 ≤ ch ∧ ch ≤ 0x39 := by
  intro ch hch
  simpa [XmlnsStack.isDigit] using XmlnsStack.isDigit_decimal n ch hch

/-- The port is read as it was written. -/
theorem setPortText_decimal (port : BitVec 16) :
    addr.SetPortText (XmlnsStack.decimal port.toNat) = { addr with port_ := port } := by
  have hlt := port.isLt
  have hle : port.toNat ≤ StringEncode.ULONG_MAX := by
    unfold StringEncode.ULONG_MAX
    omega
  have hnul : (0 : UInt8) ∉ XmlnsStack.decimal port.toNat :=
    not_mem_figures (decimal_figures _) (by decide)
  have hback : (BitVec.ofNat 32 port.toNat).setWidth 16 = port := by
    apply BitVec.eq_of_toNat_eq
    rw [BitVec.toNat_setWidth, BitVec.toNat_ofNat]
    omega
  unfold SetPortText SetPort
  rw [c_str_of_not_mem hnul, StringEncode.strtoul_decimal hle, hback]

theorem decimal_no_bracket (n : ℕ) : (0x5D : UInt8) ∉ [] ++ 0x3A :: XmlnsStack.decimal n := by
  rw [List.nil_append, List.mem_cons, not_or]
  exact ⟨by decide, not_mem_figures (decimal_figures n) (by decide)⟩

/-- What was read is equal, where the IP and the port are the same and the IP is not any. -/
theorem eq_of_same {host : Host} {a b : SocketAddress} (hip : a.ip_ = b.ip_)
    (hport : a.port_ = b.port_) (hany : IPIsAny host a.ip_ = false) : a.eq host b = true := by
  unfold eq EqualIPs EqualPorts
  rw [hip] at hany
  rw [(IPAddress.eq_iff host _ _).2 hip, hip, hany, hport]
  simp

theorem fromString_toString {host : Host} (hcomplete : addr.IsComplete host = true)
    (h : Plain inet addr) (old : SocketAddress) :
    ∃ out, old.FromString inet (addr.ToString inet) = some (out, true)
      ∧ addr.eq host out = true := by
  have hany : IPIsAny host addr.ip_ = false := by
    unfold IsComplete at hcomplete
    rw [Bool.and_eq_true, Bool.not_eq_true'] at hcomplete
    exact hcomplete.1
  cases h with
  | address hname hip =>
    have hnoname : (!addr.literal_ && !addr.hostname_.isEmpty) = false := by
      rw [hname]
      exact Bool.and_false _
    generalize hipeq : addr.ip_ = ip at hip
    cases hip with
    | @inet ip4 text hntop hpton hnul hcolon hbracket =>
      have htext : addr.ToString inet
          = text ++ 0x3A :: XmlnsStack.decimal addr.port_.toNat := by
        unfold ToString HostAsURIString
        rw [hnoname, hipeq]
        simp [IPAddress.family, IPAddress.ToString, hntop]
      have hread : IPFromString inet text = (.inet ip4, true) := by
        unfold IPFromString
        rw [c_str_of_not_mem hnul, hpton]
      refine ⟨_, htext ▸ fromString_name inet old hbracket hcolon _, ?_⟩
      rw [setPortText_decimal]
      refine eq_of_same ?_ rfl hany
      simp only [SetIPName, hread, if_true]
      exact hipeq
    | @inet6 ip6 text hntop hpton4 hpton6 hnul =>
      have htext : addr.ToString inet
          = 0x5B :: (text ++ 0x5D :: ([] ++ 0x3A :: XmlnsStack.decimal addr.port_.toNat)) := by
        unfold ToString HostAsURIString
        rw [hnoname, hipeq]
        simp [IPAddress.family, IPAddress.ToString, hntop]
      have hread : IPFromString inet text = (.inet6 ip6, true) := by
        unfold IPFromString
        rw [c_str_of_not_mem hnul, hpton4, hpton6]
      refine ⟨_, htext ▸ fromString_bracket inet old (decimal_no_bracket _)
        List.not_mem_nil text, ?_⟩
      rw [setPortText_decimal]
      refine eq_of_same ?_ rfl hany
      simp only [SetIPName, hread, if_true]
      exact hipeq
  | name hunresolved hcolon hbracket hliteral =>
    have hparts : IPIsUnspec addr.ip_ = true
        ∧ (!addr.literal_ && !addr.hostname_.isEmpty) = true := by
      unfold IsUnresolvedIP at hunresolved
      rwa [Bool.and_assoc, Bool.and_eq_true] at hunresolved
    have hunspec : addr.ip_ = .unspec := by
      have hfamily : addr.ip_.family = .AF_UNSPEC := of_decide_eq_true hparts.1
      cases hip : addr.ip_ with
      | unspec => rfl
      | inet | inet6 =>
        rw [hip] at hfamily
        cases hfamily
    have htext : addr.ToString inet
        = addr.hostname_ ++ 0x3A :: XmlnsStack.decimal addr.port_.toNat := by
      unfold ToString HostAsURIString
      rw [if_pos hparts.2]
      simp
    refine ⟨_, htext ▸ fromString_name inet old hbracket hcolon _, ?_⟩
    rw [setPortText_decimal]
    refine eq_of_same ?_ rfl hany
    simp only [SetIPName, hliteral]
    exact hunspec

/-- A plain address goes through its text, and a string is read as it should be exactly if it is in
form, or refused. -/
theorem fromString_iff (host : Host) :
    (addr.IsComplete host = true → Plain inet addr → ∀ old : SocketAddress,
      ∃ out, old.FromString inet (addr.ToString inet) = some (out, true)
        ∧ addr.eq host out = true)
    ∧ ∀ str, Proper inet addr str ↔ Form inet str ∨ Refused str :=
  ⟨fun hcomplete h old => fromString_toString inet addr hcomplete h old, proper_iff inet addr⟩

/-- The address `::1`, on a host with the lowest byte first. -/
def loopback : In6Addr := ⟨fun i => if i.val = 3 then 0x01000000 else 0⟩

/-- A system that knows `1.2.3.4` and `::1`, on a host with the lowest byte first. -/
def twoAddresses : Inet where
  pton4 text := if text = str "1.2.3.4" then some ⟨0x04030201⟩ else none
  pton6 text := if text = str "::1" then some loopback else none
  ntop4 ip4 := if ip4 = ⟨0x04030201⟩ then some (str "1.2.3.4") else none
  ntop6 ip6 := if ip6 = loopback then some (str "::1") else none

theorem fromString_iff_address :
    (∃ out, nil.FromString twoAddresses
        ((ofIP (.inet ⟨0x04030201⟩) 80).ToString twoAddresses) = some (out, true)
      ∧ (ofIP (.inet ⟨0x04030201⟩) 80).eq ⟨false⟩ out = true)
    ∧ ∀ str, Proper twoAddresses (ofIP (.inet ⟨0x04030201⟩) 80) str
      ↔ Form twoAddresses str ∨ Refused str := by
  have hntop : twoAddresses.ntop4 ⟨0x04030201⟩ = some (str "1.2.3.4") := by
    simp [twoAddresses]
  have hpton : twoAddresses.pton4 (str "1.2.3.4") = some ⟨0x04030201⟩ := by
    simp [twoAddresses]
  have hreadable : Readable twoAddresses (.inet ⟨0x04030201⟩) :=
    .inet hntop hpton (by decide) (by decide) (by decide)
  obtain ⟨hround, hproper⟩ := fromString_iff twoAddresses (ofIP (.inet ⟨0x04030201⟩) 80) ⟨false⟩
  exact ⟨hround (by decide) (.address rfl hreadable) nil, hproper⟩

/-- The empty string. -/
theorem empty_throws : nil.FromString noAddress [] = none ∧ ¬Proper noAddress nil [] := by
  refine ⟨rfl, ?_⟩
  rintro ⟨out, hout, -⟩
  cases hout

end SocketAddress

end Gxmpp.TalkBase
