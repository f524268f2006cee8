import Tronc.HttpClient.Deny

namespace Tronc.HttpClient

open Cidr

/-- `::ffff:a.b.c.d`. -/
def mapped (a : BitVec 32) : BitVec 128 := 0xffff#96 ++ a

/-- The IPv6 addresses that carry an IPv4 address. -/
inductive Carries (a : BitVec 32) : BitVec 128 → Prop where
  | mapped : Carries a (mapped a)
  /-- The deprecated `::a.b.c.d`. -/
  | compatible : Carries a (0#96 ++ a)
  /-- NAT64 under its well-known prefix. -/
  | nat64 : Carries a (0x0064ff9b0000000000000000#96 ++ a)
  /-- NAT64 under a local prefix of 96 bits. -/
  | local96 (net : BitVec 48) : Carries a (0x0064ff9b0001#48 ++ (net ++ a))
  | local64 (net : BitVec 16) (suffix : BitVec 24) :
      Carries a (0x0064ff9b0001#48 ++ (net ++ (0#8 ++ (a ++ suffix))))
  | local56 (net high : BitVec 8) (low : BitVec 24) (suffix : BitVec 32) : high ++ low = a →
      Carries a (0x0064ff9b0001#48 ++ (net ++ (high ++ (0#8 ++ (low ++ suffix)))))
  | local48 (high low : BitVec 16) (suffix : BitVec 40) : high ++ low = a →
      Carries a (0x0064ff9b0001#48 ++ (high ++ (0#8 ++ (low ++ suffix))))
  | sixToFour (rest : BitVec 80) : Carries a (0x2002#16 ++ (a ++ rest))
  /-- The server of a Teredo client. -/
  | teredoServer (rest : BitVec 64) : Carries a (0x20010000#32 ++ (a ++ rest))
  /-- The Teredo client itself, its bits inverted. -/
  | teredoClient (server flags : BitVec 32) :
      Carries a (0x20010000#32 ++ (server ++ (flags ++ ~~~a)))

theorem toIpv4Mapped_mapped (a : BitVec 32) : toIpv4Mapped (mapped a) = some a := by
  unfold toIpv4Mapped mapped
  rw [toNat_append_div 0xffff#96 a, if_pos (by decide), toNat_append_mod 0xffff#96 a, BitVec.ofNat_toNat]
  rfl

/-- No range that is refused whole holds a mapped address. -/
theorem toIpv4Mapped_eq_none {network : Network 128} {ip : BitVec 128} (hn : network ∈ DENIED_V6)
    (h : network.contains ip = true) : toIpv4Mapped ip = none := by
  have hapart : ∀ network ∈ DENIED_V6, network.length ≤ 96 ∧
      0xffff / 2 ^ (96 - network.length) ≠
        network.address.toNat / 2 ^ (128 - network.length) := by decide
  obtain ⟨hlength, hne⟩ := hapart network hn
  rw [Network.contains_iff] at h
  refine if_neg fun hmapped => hne ?_
  rw [← h, ← hmapped, Nat.div_div_eq_div_mul, ← Nat.pow_add]
  congr 2
  omega

theorem isDeniedIp_of_range {network : Network 128} {ip : BitVec 128} (hn : network ∈ DENIED_V6)
    (h : network.contains ip = true) : isDeniedIp (.v6 ip) = true := by
  simp only [isDeniedIp, toIpv4Mapped_eq_none hn h]
  exact List.any_eq_true.mpr ⟨network, hn, h⟩

/-- An address that starts as a range does is in it. -/
theorem contains_append {m n : Nat} {network : Network (m + n)} (hlength : network.length = m)
    (x : BitVec m) (y : BitVec n) (h : network.address.toNat / 2 ^ n = x.toNat) :
    network.contains (x ++ y) = true := by
  rw [Network.contains_iff, hlength, Nat.add_sub_cancel_left, toNat_append_div, h]

/-- What carries a denied address is denied, in whichever form it carries it. -/
theorem isDeniedIp_of_carries {a : BitVec 32} {ip : BitVec 128} (h : Carries a ip)
    (ha : isDeniedIp (.v4 a) = true) : isDeniedIp (.v6 ip) = true := by
  cases h with
  | mapped =>
    simp only [isDeniedIp, toIpv4Mapped_mapped]
    exact ha
  | compatible =>
    have hin : (⟨v6Addr 0 0 0, 96⟩ : Network 128).contains (0#96 ++ a) = true :=
      contains_append rfl _ _ rfl
    exact isDeniedIp_of_range (by decide) hin
  | nat64 =>
    have hin : (⟨v6Addr 0x64 0xff9b 0, 96⟩ : Network 128).contains
        (0x0064ff9b0000000000000000#96 ++ a) = true := contains_append rfl _ _ rfl
    exact isDeniedIp_of_range (by decide) hin
  | local96 | local64 | local56 | local48 =>
    have hin (rest : BitVec 80) : (⟨v6Addr 0x64 0xff9b 1, 48⟩ : Network 128).contains
        (0x0064ff9b0001#48 ++ rest) = true := contains_append rfl _ _ rfl
    exact isDeniedIp_of_range (by decide) (hin _)
  | sixToFour rest =>
    have hin : (⟨v6Addr 0x2002 0 0, 16⟩ : Network 128).contains (0x2002#16 ++ (a ++ rest)) = true :=
      contains_append rfl _ _ rfl
    exact isDeniedIp_of_range (by decide) hin
  | teredoServer | teredoClient =>
    have hin (rest : BitVec 96) : (⟨v6Addr 0x2001 0 0, 32⟩ : Network 128).contains
        (0x20010000#32 ++ rest) = true := contains_append rfl _ _ rfl
    exact isDeniedIp_of_range (by decide) (hin _)

/-- The range holds the address: it is none below its first, and none past its last. -/
def Holds {w : Nat} (network : Network w) (ip : BitVec w) : Prop :=
  network.address.toNat ≤ ip.toNat ∧ ip.toNat ≤ network.last

/-- Every range of a table starts at its address, and shifts by less than the width. -/
structure Listed {w : Nat} (networks : List (Network w)) : Prop where
  between : ∀ network ∈ networks, ∀ ip : BitVec w, network.contains ip = true ↔ Holds network ip
  bounded : ∀ network ∈ networks, network.last < 2 ^ w
  shift : ∀ network ∈ networks, network.length ≤ w ∧ w - network.length < w ∧
    mask w network.length = BitVec.allOnes w <<< (w - network.length)

theorem listed_of_aligned {w : Nat} {networks : List (Network w)}
    (h : ∀ network ∈ networks, 2 ^ (w - network.length) ∣ network.address.toNat)
    (hlength : ∀ network ∈ networks, 0 < network.length ∧ network.length ≤ w) :
    Listed networks where
  between network hn _ := Network.contains_iff_between (h network hn)
  bounded network hn := by
    obtain ⟨q, hq⟩ := h network hn
    obtain ⟨_, hle⟩ := hlength network hn
    have hlt := network.address.isLt
    have hw : 2 ^ w = 2 ^ (w - network.length) * 2 ^ network.length := by
      rw [← Nat.pow_add, Nat.sub_add_cancel hle]
    rw [hq, hw] at hlt
    have hq' : q + 1 ≤ 2 ^ network.length := Nat.lt_of_mul_lt_mul_left hlt
    have hmul := Nat.mul_le_mul_left (2 ^ (w - network.length)) hq'
    have hpos : 0 < 2 ^ (w - network.length) := Nat.two_pow_pos _
    rw [Network.last, hq, hw]
    rw [Nat.mul_succ] at hmul
    omega
  shift network hn := by
    obtain ⟨hpos, hle⟩ := hlength network hn
    have hlt : w - network.length < w := Nat.sub_lt (Nat.lt_of_lt_of_le hpos hle) hpos
    exact ⟨hle, hlt, if_pos hlt⟩

theorem listed_v4 : Listed DENIED_V4 := listed_of_aligned (by decide) (by decide)

theorem listed_v6 : Listed DENIED_V6 := listed_of_aligned (by decide) (by decide)

theorem isDeniedV4_iff {a : BitVec 32} :
    isDeniedIp (.v4 a) = true ↔ ∃ network ∈ DENIED_V4, Holds network a := by
  show (DENIED_V4.any fun network => network.contains a) = true ↔ _
  rw [List.any_eq_true]
  exact exists_congr fun network => and_congr_right fun hn => listed_v4.between network hn a

theorem isDeniedV6_iff {ip : BitVec 128} :
    isDeniedIp (.v6 ip) = true ↔ (∃ network ∈ DENIED_V6, Holds network ip) ∨
      ∃ a, toIpv4Mapped ip = some a ∧ isDeniedIp (.v4 a) = true := by
  constructor
  · intro h
    cases hm : toIpv4Mapped ip with
    | some a =>
      simp only [isDeniedIp, hm] at h
      exact .inr ⟨a, rfl, h⟩
    | none =>
      simp only [isDeniedIp, hm] at h
      obtain ⟨network, hn, hin⟩ := List.any_eq_true.mp h
      exact .inl ⟨network, hn, (listed_v6.between network hn ip).mp hin⟩
  · rintro (⟨network, hn, hin⟩ | ⟨a, hm, ha⟩)
    · exact isDeniedIp_of_range hn ((listed_v6.between network hn ip).mpr hin)
    · simp only [isDeniedIp, hm]
      exact ha

/-- An address is denied where a listed range holds it, an IPv4 address alike in whichever form it
comes, and the masks are those of the ranges. -/
theorem denied_embeddings :
    (∀ a ip, isDeniedIp (.v4 a) = true → Carries a ip → isDeniedIp (.v6 ip) = true) ∧
    (∀ ip a, toIpv4Mapped ip = some a → isDeniedIp (.v6 ip) = isDeniedIp (.v4 a)) ∧
    (∀ a, toIpv4Mapped (mapped a) = some a) ∧ Listed DENIED_V4 ∧ Listed DENIED_V6 ∧
    (∀ a, isDeniedIp (.v4 a) = true ↔ ∃ network ∈ DENIED_V4, Holds network a) ∧
    (∀ ip, isDeniedIp (.v6 ip) = true ↔ (∃ network ∈ DENIED_V6, Holds network ip) ∨
      ∃ a, toIpv4Mapped ip = some a ∧ isDeniedIp (.v4 a) = true) := by
  refine ⟨fun a ip ha hc => isDeniedIp_of_carries hc ha, fun ip a hm => ?_, toIpv4Mapped_mapped,
    listed_v4, listed_v6, fun _ => isDeniedV4_iff, fun _ => isDeniedV6_iff⟩
  simp only [isDeniedIp, hm]

end Tronc.HttpClient
