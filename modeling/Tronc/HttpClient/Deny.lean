import Tronc.Library.Cidr

namespace Tronc.HttpClient

open Cidr

/-- An address, as its bits. -/
inductive IpAddr where
  | v4 (bits : BitVec 32)
  | v6 (bits : BitVec 128)
  deriving DecidableEq

/-- `Ipv4Addr::new`. -/
def v4Addr (a b c d : Nat) : BitVec 32 := .ofNat 32 (((a * 256 + b) * 256 + c) * 256 + d)

/-- `Ipv6Addr::new` of the first three groups, the rest zero. -/
def v6Addr (a b c : Nat) : BitVec 128 := .ofNat 128 (((a * 65536 + b) * 65536 + c) * 65536 ^ 5)

/-- Denied IPv4 ranges. -/
def DENIED_V4 : List (Network 32) :=
  [ -- "This network", including the unspecified address.
    ⟨v4Addr 0 0 0 0, 8⟩,
    -- Private ranges.
    ⟨v4Addr 10 0 0 0, 8⟩, ⟨v4Addr 172 16 0 0, 12⟩, ⟨v4Addr 192 168 0 0, 16⟩,
    -- Carrier-grade NAT.
    ⟨v4Addr 100 64 0 0, 10⟩,
    -- Loopback.
    ⟨v4Addr 127 0 0 0, 8⟩,
    -- Link-local, which holds the cloud metadata address.
    ⟨v4Addr 169 254 0 0, 16⟩,
    -- Protocol assignments.
    ⟨v4Addr 192 0 0 0, 24⟩,
    -- Benchmarking.
    ⟨v4Addr 198 18 0 0, 15⟩,
    -- Multicast, and what is reserved above it.
    ⟨v4Addr 224 0 0 0, 4⟩, ⟨v4Addr 240 0 0 0, 4⟩]

/-- Denied IPv6 ranges that are refused whole. -/
def DENIED_V6 : List (Network 128) :=
  [ -- Unspecified, loopback, and the deprecated v4-compatible addresses.
    ⟨v6Addr 0 0 0, 96⟩,
    -- NAT64, well-known and local-use.
    ⟨v6Addr 0x64 0xff9b 0, 96⟩, ⟨v6Addr 0x64 0xff9b 1, 48⟩,
    -- Teredo and 6to4, which tunnel to an embedded IPv4 address.
    ⟨v6Addr 0x2001 0 0, 32⟩, ⟨v6Addr 0x2002 0 0, 16⟩,
    -- Unique local, link-local, deprecated site-local, multicast.
    ⟨v6Addr 0xfc00 0 0, 7⟩, ⟨v6Addr 0xfe80 0 0, 10⟩, ⟨v6Addr 0xfec0 0 0, 10⟩,
    ⟨v6Addr 0xff00 0 0, 8⟩]

/-- `Ipv6Addr::to_ipv4_mapped`: the address inside `::ffff:a.b.c.d`. -/
def toIpv4Mapped (bits : BitVec 128) : Option (BitVec 32) :=
  if bits.toNat / 2 ^ 32 = 0xffff then some (.ofNat 32 (bits.toNat % 2 ^ 32)) else none

def isDeniedV4 (bits : BitVec 32) : Bool := DENIED_V4.any fun network => network.contains bits

def isDeniedV6 (bits : BitVec 128) : Bool := DENIED_V6.any fun network => network.contains bits

/-- Whether an address lies in a range a guarded fetch must never connect to. -/
def isDeniedIp : IpAddr → Bool
  | .v4 bits => isDeniedV4 bits
  | .v6 bits =>
    match toIpv4Mapped bits with
    | some mapped => isDeniedV4 mapped
    | none => isDeniedV6 bits

/-- `Ipv4Addr::is_loopback`: `127.0.0.0/8`. -/
def isLoopbackV4 (bits : BitVec 32) : Bool := bits.toNat / 2 ^ 24 == 127

def isLoopback : IpAddr → Bool
  | .v4 bits => isLoopbackV4 bits
  | .v6 bits => bits == 1 || (toIpv4Mapped bits).any isLoopbackV4

theorem isDeniedV4_of_loopback {bits : BitVec 32} (h : isLoopbackV4 bits = true) :
    isDeniedV4 bits = true := by
  refine List.any_eq_true.mpr ⟨⟨v4Addr 127 0 0 0, 8⟩, by simp [DENIED_V4], ?_⟩
  rw [Network.contains_iff]
  exact beq_iff_eq.mp h

/-- The deny list holds every loopback address, in either form. -/
theorem isDeniedIp_of_loopback {ip : IpAddr} (h : isLoopback ip = true) :
    isDeniedIp ip = true := by
  cases ip with
  | v4 bits => exact isDeniedV4_of_loopback h
  | v6 bits =>
    rcases (Bool.or_eq_true _ _).mp h with hone | hmapped
    · rw [beq_iff_eq.mp hone]
      decide
    · cases hm : toIpv4Mapped bits with
      | none =>
        rw [hm] at hmapped
        cases hmapped
      | some mapped =>
        rw [hm] at hmapped
        simp only [isDeniedIp, hm]
        exact isDeniedV4_of_loopback hmapped

end Tronc.HttpClient
