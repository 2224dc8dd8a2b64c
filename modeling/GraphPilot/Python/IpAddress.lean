/-
Internet addresses, as `ipaddress` classifies them.

A network is a number of leading bits.  Of two networks one covers the other or they
are apart, which is decided on their first addresses:

* `Network.contains_eq` — the longer one is on one side of the shorter one;
* `inAny_of_covered`, `not_inAny_of_apart` — the same of two tables of networks.

The tables are those of CPython.  A `Release` has what has changed between its patch
releases: whether the properties of an address such as `::ffff:8.8.8.8` are those of the
IPv4 address in it, and whether `3fff::/20` is listed.
-/
import Mathlib.Data.List.Basic
import Mathlib.Tactic.Ring

namespace Python

/-- The addresses of `w` bits whose first `len` bits are those of `base`. -/
structure Network (w : ℕ) where
  base : ℕ
  len : ℕ
deriving DecidableEq

namespace Network

variable {w : ℕ} {net sub : Network w} {n : ℕ}

/-- `address in network`. -/
def contains (net : Network w) (n : ℕ) : Bool :=
  n / 2 ^ (w - net.len) = net.base / 2 ^ (w - net.len)

/-- All of `sub` is in the network, by their first addresses. -/
def covers (net sub : Network w) : Bool := net.len ≤ sub.len && net.contains sub.base

/-- Nothing of `sub` is in the network, where the network is the larger one. -/
def apart (net sub : Network w) : Bool :=
  if net.len ≤ sub.len then !net.contains sub.base else !sub.contains net.base

/-- An address of the smaller network counts as the first one of it. -/
theorem contains_eq (hlen : net.len ≤ sub.len) (hn : sub.contains n = true) :
    net.contains n = net.contains sub.base := by
  have hsub : n / 2 ^ (w - sub.len) = sub.base / 2 ^ (w - sub.len) := of_decide_eq_true hn
  have hsplit : 2 ^ (w - net.len) = 2 ^ (w - sub.len) * 2 ^ ((w - net.len) - (w - sub.len)) := by
    rw [← pow_add]
    congr 1
    omega
  show decide (_ = _) = decide (_ = _)
  rw [hsplit, ← Nat.div_div_eq_div_mul, hsub, Nat.div_div_eq_div_mul]

theorem contains_of_covers (h : net.covers sub = true) (hn : sub.contains n = true) :
    net.contains n = true := by
  obtain ⟨hlen, hbase⟩ := Bool.and_eq_true_iff.mp h
  rw [contains_eq (of_decide_eq_true hlen) hn]
  exact hbase

theorem not_contains_of_apart (h : net.apart sub = true) (hn : sub.contains n = true) :
    net.contains n = false := by
  unfold apart at h
  split at h
  · rename_i hlen
    rw [contains_eq hlen hn]
    exact Bool.not_eq_true' _ ▸ h
  · rename_i hlen
    cases hnet : net.contains n with
    | false => rfl
    | true =>
      have hbase : sub.contains n = sub.contains net.base := contains_eq (by omega) hnet
      rw [hn] at hbase
      rw [← hbase] at h
      exact h.symm

end Network

/-- `any(address in network for network in networks)`. -/
def inAny {w : ℕ} (nets : List (Network w)) (n : ℕ) : Bool := nets.any fun net => net.contains n

section Tables

variable {w : ℕ} {nets subs : List (Network w)} {n : ℕ}

theorem inAny_iff : inAny nets n = true ↔ ∃ net ∈ nets, net.contains n = true := List.any_eq_true

theorem inAny_of_covered (h : ∀ sub ∈ subs, ∃ net ∈ nets, net.covers sub = true)
    (hn : inAny subs n = true) : inAny nets n = true := by
  obtain ⟨sub, hsub, hcontains⟩ := inAny_iff.mp hn
  obtain ⟨net, hnet, hcovers⟩ := h sub hsub
  exact inAny_iff.mpr ⟨net, hnet, Network.contains_of_covers hcovers hcontains⟩

theorem not_inAny_of_apart (h : ∀ sub ∈ subs, ∀ net ∈ nets, net.apart sub = true)
    (hn : inAny subs n = true) : inAny nets n = false := by
  obtain ⟨sub, hsub, hcontains⟩ := inAny_iff.mp hn
  refine List.any_eq_false.mpr fun net hnet => ?_
  rw [Network.not_contains_of_apart (h sub hsub net hnet) hcontains]
  exact Bool.false_ne_true

end Tables

/-- What differs between the patch releases. -/
structure Release where
  /-- `is_multicast`, `is_reserved`, `is_link_local` and `is_unspecified` of an
  IPv4-mapped address are those of the IPv4 address -/
  mappedProperties : Bool
  /-- and `is_loopback` -/
  mappedLoopback : Bool
  /-- `3fff::/20` is in the table of private networks -/
  documentation : Bool

/-- `IPv4Address(…)` and `IPv6Address(…)`; a scope is left out, it counts nowhere here. -/
inductive IpAddress where
  | v4 (n : BitVec 32)
  | v6 (n : BitVec 128)

/-- The number of `a.b.c.d`. -/
def quad (a b c d : ℕ) : ℕ := ((a * 256 + b) * 256 + c) * 256 + d

/-- The number of an address by its first groups, with zeros after them. -/
def groups (gs : List ℕ) : ℕ := (gs.takeD 8 0).foldl (fun n g => n * 65536 + g) 0

/-! ### `_IPv4Constants` and `IPv4Address` -/

namespace V4

def linklocalNetwork : Network 32 := ⟨quad 169 254 0 0, 16⟩

def loopbackNetwork : Network 32 := ⟨quad 127 0 0 0, 8⟩

def multicastNetwork : Network 32 := ⟨quad 224 0 0 0, 4⟩

def privateNetworks : List (Network 32) :=
  [⟨quad 0 0 0 0, 8⟩,
   ⟨quad 10 0 0 0, 8⟩,
   ⟨quad 127 0 0 0, 8⟩,
   ⟨quad 169 254 0 0, 16⟩,
   ⟨quad 172 16 0 0, 12⟩,
   ⟨quad 192 0 0 0, 24⟩,
   ⟨quad 192 0 0 170, 31⟩,
   ⟨quad 192 0 2 0, 24⟩,
   ⟨quad 192 168 0 0, 16⟩,
   ⟨quad 198 18 0 0, 15⟩,
   ⟨quad 198 51 100 0, 24⟩,
   ⟨quad 203 0 113 0, 24⟩,
   ⟨quad 240 0 0 0, 4⟩,
   ⟨quad 255 255 255 255, 32⟩]

def privateNetworksExceptions : List (Network 32) :=
  [⟨quad 192 0 0 9, 32⟩,
   ⟨quad 192 0 0 10, 32⟩]

def reservedNetwork : Network 32 := ⟨quad 240 0 0 0, 4⟩

def isPrivate (n : ℕ) : Bool := inAny privateNetworks n && !inAny privateNetworksExceptions n

def isLoopback (n : ℕ) : Bool := loopbackNetwork.contains n

def isLinkLocal (n : ℕ) : Bool := linklocalNetwork.contains n

def isMulticast (n : ℕ) : Bool := multicastNetwork.contains n

def isReserved (n : ℕ) : Bool := reservedNetwork.contains n

def isUnspecified (n : ℕ) : Bool := n = quad 0 0 0 0

end V4

/-! ### `_IPv6Constants` and `IPv6Address` -/

namespace V6

def linklocalNetwork : Network 128 := ⟨groups [0xfe80], 10⟩

def multicastNetwork : Network 128 := ⟨groups [0xff00], 8⟩

def privateNetworks (release : Release) : List (Network 128) :=
  [⟨groups [0, 0, 0, 0, 0, 0, 0, 1], 128⟩,
   ⟨groups [], 128⟩,
   ⟨groups [0, 0, 0, 0, 0, 0xffff], 96⟩,
   ⟨groups [0x64, 0xff9b, 1], 48⟩,
   ⟨groups [0x100], 64⟩,
   ⟨groups [0x2001], 23⟩,
   ⟨groups [0x2001, 0xdb8], 32⟩,
   ⟨groups [0x2002], 16⟩] ++
  (if release.documentation then [⟨groups [0x3fff], 20⟩] else []) ++
  [⟨groups [0xfc00], 7⟩,
   ⟨groups [0xfe80], 10⟩]

def privateNetworksExceptions : List (Network 128) :=
  [⟨groups [0x2001, 1, 0, 0, 0, 0, 0, 1], 128⟩,
   ⟨groups [0x2001, 1, 0, 0, 0, 0, 0, 2], 128⟩,
   ⟨groups [0x2001, 3], 32⟩,
   ⟨groups [0x2001, 4, 0x112], 48⟩,
   ⟨groups [0x2001, 0x20], 28⟩,
   ⟨groups [0x2001, 0x30], 28⟩]

def reservedNetworks : List (Network 128) :=
  [⟨groups [], 8⟩, ⟨groups [0x100], 8⟩,
   ⟨groups [0x200], 7⟩, ⟨groups [0x400], 6⟩,
   ⟨groups [0x800], 5⟩, ⟨groups [0x1000], 4⟩,
   ⟨groups [0x4000], 3⟩, ⟨groups [0x6000], 3⟩,
   ⟨groups [0x8000], 3⟩, ⟨groups [0xa000], 3⟩,
   ⟨groups [0xc000], 3⟩, ⟨groups [0xe000], 4⟩,
   ⟨groups [0xf000], 5⟩, ⟨groups [0xf800], 6⟩,
   ⟨groups [0xfe00], 9⟩]

/-- `ipv4_mapped`. -/
def ipv4Mapped (n : ℕ) : Option ℕ := if n / 2 ^ 32 = 0xffff then some (n % 2 ^ 32) else none

def isPrivate (release : Release) (n : ℕ) : Bool :=
  match ipv4Mapped n with
  | some m => V4.isPrivate m
  | none => inAny (privateNetworks release) n && !inAny privateNetworksExceptions n

/-- A property that may be the one of the IPv4 address in it. -/
def property (mapped : Bool) (ofV4 ofV6 : ℕ → Bool) (n : ℕ) : Bool :=
  match ipv4Mapped n with
  | some m => if mapped then ofV4 m else ofV6 n
  | none => ofV6 n

def isLoopback (release : Release) : ℕ → Bool :=
  property release.mappedLoopback V4.isLoopback fun n => n = 1

def isLinkLocal (release : Release) : ℕ → Bool :=
  property release.mappedProperties V4.isLinkLocal linklocalNetwork.contains

def isMulticast (release : Release) : ℕ → Bool :=
  property release.mappedProperties V4.isMulticast multicastNetwork.contains

def isReserved (release : Release) : ℕ → Bool :=
  property release.mappedProperties V4.isReserved (inAny reservedNetworks)

def isUnspecified (release : Release) : ℕ → Bool :=
  property release.mappedProperties V4.isUnspecified fun n => n = 0

end V6

/-! ### The properties of an address -/

namespace IpAddress

def isPrivate (release : Release) : IpAddress → Bool
  | .v4 n => V4.isPrivate n.toNat
  | .v6 n => V6.isPrivate release n.toNat

def isLoopback (release : Release) : IpAddress → Bool
  | .v4 n => V4.isLoopback n.toNat
  | .v6 n => V6.isLoopback release n.toNat

def isLinkLocal (release : Release) : IpAddress → Bool
  | .v4 n => V4.isLinkLocal n.toNat
  | .v6 n => V6.isLinkLocal release n.toNat

def isMulticast (release : Release) : IpAddress → Bool
  | .v4 n => V4.isMulticast n.toNat
  | .v6 n => V6.isMulticast release n.toNat

def isReserved (release : Release) : IpAddress → Bool
  | .v4 n => V4.isReserved n.toNat
  | .v6 n => V6.isReserved release n.toNat

def isUnspecified (release : Release) : IpAddress → Bool
  | .v4 n => V4.isUnspecified n.toNat
  | .v6 n => V6.isUnspecified release n.toNat

end IpAddress

end Python
