/-
The address filter against the special-purpose registries.

`NotGlobal4` and `NotGlobal6` are the addresses that the IANA registries mark as not
globally reachable, and `Special` has those that embed such an address of IPv4 as well.
The filter lets three kinds of them through, and no other (`disallowed_iff`): the shared
address space, the IPv4-mapped addresses that are classified by an IPv4 address which is
let through, and `3fff::/20` where the release does not list it.

Each step compares two tables: a registry's network is covered by one of the filter's, or
apart from all exceptions, and that is decided network by network.
-/
import GraphPilot.SafeHttp.Client

namespace GraphPilot.SafeHttp

open Python

/-! ### The registries -/

/-- What `iana-ipv4-special-registry` marks as not globally reachable. -/
def registry4 : List (Network 32) :=
  [⟨quad 0 0 0 0, 8⟩, ⟨quad 0 0 0 0, 32⟩, ⟨quad 10 0 0 0, 8⟩, ⟨quad 100 64 0 0, 10⟩,
   ⟨quad 127 0 0 0, 8⟩, ⟨quad 169 254 0 0, 16⟩, ⟨quad 172 16 0 0, 12⟩, ⟨quad 192 0 0 0, 24⟩,
   ⟨quad 192 0 0 0, 29⟩, ⟨quad 192 0 0 8, 32⟩, ⟨quad 192 0 0 170, 32⟩, ⟨quad 192 0 0 171, 32⟩,
   ⟨quad 192 0 2 0, 24⟩, ⟨quad 192 168 0 0, 16⟩, ⟨quad 198 18 0 0, 15⟩,
   ⟨quad 198 51 100 0, 24⟩, ⟨quad 203 0 113 0, 24⟩, ⟨quad 240 0 0 0, 4⟩,
   ⟨quad 255 255 255 255, 32⟩]

/-- What it marks as globally reachable: of two entries the more specific one counts. -/
def reachable4 : List (Network 32) :=
  [⟨quad 192 0 0 9, 32⟩, ⟨quad 192 0 0 10, 32⟩, ⟨quad 192 31 196 0, 24⟩,
   ⟨quad 192 52 193 0, 24⟩, ⟨quad 192 175 48 0, 24⟩]

/-- What `iana-ipv6-special-registry` marks as not globally reachable. -/
def registry6 : List (Network 128) :=
  [⟨groups [0, 0, 0, 0, 0, 0, 0, 1], 128⟩, ⟨groups [], 128⟩,
   ⟨groups [0, 0, 0, 0, 0, 0xffff], 96⟩, ⟨groups [0x64, 0xff9b, 1], 48⟩, ⟨groups [0x100], 64⟩,
   ⟨groups [0x100, 0, 0, 1], 64⟩, ⟨groups [0x2001], 23⟩, ⟨groups [0x2001, 2], 48⟩,
   ⟨groups [0x2001, 0xdb8], 32⟩, ⟨groups [0x3fff], 20⟩, ⟨groups [0x5f00], 16⟩,
   ⟨groups [0xfc00], 7⟩, ⟨groups [0xfe80], 10⟩]

def reachable6 : List (Network 128) :=
  [⟨groups [0x64, 0xff9b], 96⟩, ⟨groups [0x2001, 1, 0, 0, 0, 0, 0, 1], 128⟩,
   ⟨groups [0x2001, 1, 0, 0, 0, 0, 0, 2], 128⟩, ⟨groups [0x2001, 1, 0, 0, 0, 0, 0, 3], 128⟩,
   ⟨groups [0x2001, 3], 32⟩, ⟨groups [0x2001, 4, 0x112], 48⟩, ⟨groups [0x2001, 0x20], 28⟩,
   ⟨groups [0x2001, 0x30], 28⟩, ⟨groups [0x2620, 0x4f, 0x8000], 48⟩]

def NotGlobal4 (n : ℕ) : Prop := inAny registry4 n = true ∧ inAny reachable4 n = false

def NotGlobal6 (n : ℕ) : Prop := inAny registry6 n = true ∧ inAny reachable6 n = false

/-- The shared address space, `100.64.0.0/10`. -/
def shared : Network 32 := ⟨quad 100 64 0 0, 10⟩

/-- `::ffff:0:0/96` -/
def mapped : Network 128 := ⟨groups [0, 0, 0, 0, 0, 0xffff], 96⟩

/-- `2002::/16`, with an IPv4 address in the bits after it. -/
def sixToFour : Network 128 := ⟨groups [0x2002], 16⟩

/-- `64:ff9b::/96` -/
def nat64 : Network 128 := ⟨groups [0x64, 0xff9b], 96⟩

/-- `3fff::/20` -/
def documentation : Network 128 := ⟨groups [0x3fff], 20⟩

/-- The IPv6 address has the IPv4 address `m` in it. -/
def Embeds (n m : ℕ) : Prop :=
  (mapped.contains n = true ∧ m = n % 2 ^ 32) ∨
    (sixToFour.contains n = true ∧ m = n / 2 ^ 80 % 2 ^ 32) ∨
    (nat64.contains n = true ∧ m = n % 2 ^ 32)

/-- The addresses that are to be rejected. -/
def Special : IpAddress → Prop
  | .v4 n => NotGlobal4 n.toNat
  | .v6 n => NotGlobal6 n.toNat ∨ ∃ m, Embeds n.toNat m ∧ NotGlobal4 m

/-- The addresses that are none of the three kinds. -/
def Filtered (release : Release) : IpAddress → Prop
  | .v4 n => shared.contains n.toNat = false
  | .v6 n =>
    (release.mappedProperties = true → mapped.contains n.toNat = true →
      NotGlobal4 (n.toNat % 2 ^ 32) ∧ shared.contains (n.toNat % 2 ^ 32) = false ∨
        V4.isMulticast (n.toNat % 2 ^ 32) = true) ∧
      (release.documentation = false → documentation.contains n.toNat = false)

/-! ### IPv4 -/

section V4

variable {n : ℕ}

/-- A registry without one of its networks. -/
theorem inAny_filter_ne {w : ℕ} {nets : List (Network w)} {net : Network w}
    (h : inAny nets n = true) (hnet : net.contains n = false) :
    inAny (nets.filter (· ≠ net)) n = true := by
  obtain ⟨other, hother, hcontains⟩ := inAny_iff.mp h
  refine inAny_iff.mpr ⟨other, List.mem_filter.mpr ⟨hother, decide_eq_true ?_⟩, hcontains⟩
  rintro rfl
  rw [hcontains] at hnet
  cases hnet

theorem not_contains {w : ℕ} {subs : List (Network w)} {net : Network w}
    (h : ∀ sub ∈ subs, net.apart sub = true) (hn : inAny subs n = true) :
    net.contains n = false := by
  have hnone : inAny [net] n = false := by
    refine not_inAny_of_apart (fun sub hsub other hother => ?_) hn
    rw [List.mem_singleton.mp hother]
    exact h sub hsub
  exact Bool.eq_false_of_not_eq_true (List.any_eq_false.mp hnone net List.mem_cons_self)

theorem inAny_singleton {w : ℕ} {net : Network w} (h : net.contains n = true) :
    inAny [net] n = true := inAny_iff.mpr ⟨net, List.mem_cons_self, h⟩

theorem reachable4_of_exception (h : inAny V4.privateNetworksExceptions n = true) :
    inAny reachable4 n = true := inAny_of_covered (by decide) h

/-- The private addresses are those of the registry, but for the shared ones. -/
theorem isPrivate4_iff : V4.isPrivate n = true ↔ NotGlobal4 n ∧ shared.contains n = false := by
  unfold V4.isPrivate
  rw [Bool.and_eq_true_iff, Bool.not_eq_true']
  constructor
  · rintro ⟨hprivate, hexception⟩
    have hregistry : inAny registry4 n = true := inAny_of_covered (by decide) hprivate
    have hshared : shared.contains n = false := not_contains (by decide) hprivate
    refine ⟨⟨hregistry, ?_⟩, hshared⟩
    cases hreach : inAny reachable4 n with
    | false => rfl
    | true =>
      -- the other reachable networks are apart from the private ones
      have hother : inAny (reachable4.drop 2) n = false := not_inAny_of_apart (by decide) hprivate
      have hboth : (inAny (reachable4.take 2) n || inAny (reachable4.drop 2) n) = true := by
        unfold inAny at hreach ⊢
        rw [← List.any_append, List.take_append_drop]
        exact hreach
      rw [hother, Bool.or_false] at hboth
      rw [← hexception]
      exact (inAny_of_covered (by decide) hboth).symm
  · rintro ⟨⟨hregistry, hreach⟩, hshared⟩
    refine ⟨inAny_of_covered (by decide) (inAny_filter_ne hregistry hshared), ?_⟩
    cases hexception : inAny V4.privateNetworksExceptions n with
    | false => rfl
    | true =>
      rw [reachable4_of_exception hexception] at hreach
      cases hreach

/-- The other properties of an IPv4 address, but for multicast, are of private addresses. -/
theorem isPrivate4_of_property (h : V4.isLoopback n = true ∨ V4.isLinkLocal n = true ∨
    V4.isReserved n = true ∨ V4.isUnspecified n = true) : V4.isPrivate n = true := by
  have hnets : inAny [V4.loopbackNetwork, V4.linklocalNetwork, V4.reservedNetwork,
      ⟨quad 0 0 0 0, 32⟩] n = true := by
    refine inAny_iff.mpr ?_
    rcases h with h | h | h | h
    · exact ⟨_, by simp, h⟩
    · exact ⟨V4.linklocalNetwork, by simp, h⟩
    · exact ⟨V4.reservedNetwork, by simp, h⟩
    · refine ⟨⟨quad 0 0 0 0, 32⟩, by simp, ?_⟩
      rw [of_decide_eq_true h]
      decide
  unfold V4.isPrivate
  rw [inAny_of_covered (by decide) hnets, not_inAny_of_apart (by decide) hnets]
  rfl

/-- What the disjunction of the properties comes to. -/
theorem disallowed4_iff : (V4.isPrivate n || V4.isLoopback n || V4.isLinkLocal n ||
    V4.isMulticast n || V4.isReserved n || V4.isUnspecified n) = true ↔
      V4.isPrivate n = true ∨ V4.isMulticast n = true := by
  simp only [Bool.or_eq_true]
  constructor
  · rintro (((((h | h) | h) | h) | h) | h)
    · exact .inl h
    · exact .inl (isPrivate4_of_property (.inl h))
    · exact .inl (isPrivate4_of_property (.inr (.inl h)))
    · exact .inr h
    · exact .inl (isPrivate4_of_property (.inr (.inr (.inl h))))
    · exact .inl (isPrivate4_of_property (.inr (.inr (.inr h))))
  · rintro (h | h)
    · simp [h]
    · simp [h]

/-- Of the addresses to be rejected, the shared ones are let through. -/
theorem disallowed4_iff_of_special (h : NotGlobal4 n) :
    V4.isPrivate n = true ∨ V4.isMulticast n = true ↔ shared.contains n = false := by
  rw [isPrivate4_iff]
  constructor
  · rintro (hprivate | hmulticast)
    · exact hprivate.2
    · exact not_contains (by decide) (inAny_singleton hmulticast)
  · intro hshared
    exact .inl ⟨h, hshared⟩

end V4

/-! ### IPv6 -/

section V6

variable {n m : ℕ} {release : Release}

theorem mapped_contains_iff : mapped.contains n = true ↔ n / 2 ^ 32 = 0xffff := by
  have hbase : mapped.base / 2 ^ (128 - mapped.len) = 0xffff := by decide
  constructor
  · intro h
    have hdiv : n / 2 ^ 32 = mapped.base / 2 ^ (128 - mapped.len) := of_decide_eq_true h
    rw [hdiv, hbase]
  · intro h
    exact decide_eq_true (h.trans hbase.symm)

theorem ipv4Mapped_eq : V6.ipv4Mapped n =
    if mapped.contains n = true then some (n % 2 ^ 32) else none :=
  if_congr mapped_contains_iff.symm rfl rfl

theorem property_of_mapped {b : Bool} {f g : ℕ → Bool} (h : mapped.contains n = true) :
    V6.property b f g n = if b then f (n % 2 ^ 32) else g n := by
  unfold V6.property
  rw [ipv4Mapped_eq, if_pos h]

theorem property_of_not_mapped {b : Bool} {f g : ℕ → Bool} (h : mapped.contains n = false) :
    V6.property b f g n = g n := by
  unfold V6.property
  rw [ipv4Mapped_eq, h]
  rfl

/-- The filter on an IPv6 address. -/
def disallowed6 (release : Release) (n : ℕ) : Bool :=
  V6.isPrivate release n || V6.isLoopback release n || V6.isLinkLocal release n ||
    V6.isMulticast release n || V6.isReserved release n || V6.isUnspecified release n

/-- Where the properties are those of the IPv4 address. -/
theorem disallowed6_of_mapped (h : mapped.contains n = true) :
    disallowed6 release n = true ↔ (release.mappedProperties = true →
      V4.isPrivate (n % 2 ^ 32) = true ∨ V4.isMulticast (n % 2 ^ 32) = true) := by
  have hone : n ≠ 1 := by
    rintro rfl
    exact absurd h (by decide)
  have hprivate : V6.isPrivate release n = V4.isPrivate (n % 2 ^ 32) := by
    unfold V6.isPrivate
    rw [ipv4Mapped_eq, if_pos h]
  have hloopback : V6.isLoopback release n = true → V4.isPrivate (n % 2 ^ 32) = true := by
    unfold V6.isLoopback
    rw [property_of_mapped h]
    split
    · intro hloop
      exact isPrivate4_of_property (.inl hloop)
    · intro hloop
      exact absurd (of_decide_eq_true hloop) hone
  cases hmode : release.mappedProperties with
  | false =>
    have hreserved : V6.isReserved release n = true := by
      unfold V6.isReserved
      rw [property_of_mapped h, hmode, if_neg Bool.false_ne_true]
      have hmapped : inAny [mapped] n = true := inAny_singleton h
      exact inAny_of_covered (by decide) hmapped
    simp [disallowed6, hreserved]
  | true =>
    unfold disallowed6 V6.isLinkLocal V6.isMulticast V6.isReserved V6.isUnspecified
    rw [hprivate, property_of_mapped h, property_of_mapped h, property_of_mapped h,
      property_of_mapped h, hmode]
    simp only [if_true, Bool.or_eq_true, forall_const]
    constructor
    · rintro (((((h' | h') | h') | h') | h') | h')
      · exact .inl h'
      · exact .inl (hloopback h')
      · exact .inl (isPrivate4_of_property (.inr (.inl h')))
      · exact .inr h'
      · exact .inl (isPrivate4_of_property (.inr (.inr (.inl h'))))
      · exact .inl (isPrivate4_of_property (.inr (.inr (.inr h'))))
    · rintro (h' | h')
      · exact .inl (.inl (.inl (.inl (.inl h'))))
      · exact .inl (.inl (.inr h'))

/-- An address that is private by the table. -/
theorem disallowed6_of_private (h : mapped.contains n = false)
    (hprivate : inAny (V6.privateNetworks release) n = true)
    (hexception : inAny V6.privateNetworksExceptions n = false) :
    disallowed6 release n = true := by
  have hyes : V6.isPrivate release n = true := by
    unfold V6.isPrivate
    rw [ipv4Mapped_eq, h, if_neg Bool.false_ne_true]
    show (_ && !_) = true
    rw [hprivate, hexception]
    rfl
  unfold disallowed6
  rw [hyes]
  rfl

theorem disallowed6_of_reserved (h : mapped.contains n = false)
    (hreserved : inAny V6.reservedNetworks n = true) : disallowed6 release n = true := by
  have hyes : V6.isReserved release n = true := by
    unfold V6.isReserved
    rw [property_of_not_mapped h]
    exact hreserved
  unfold disallowed6
  rw [hyes]
  simp

theorem not_exception6 (h : inAny reachable6 n = false) :
    inAny V6.privateNetworksExceptions n = false := by
  cases hexception : inAny V6.privateNetworksExceptions n with
  | false => rfl
  | true =>
    have hreach : inAny reachable6 n = true := inAny_of_covered (by decide) hexception
    rw [hreach] at h
    cases h

/-- `3fff::/20` is private exactly where the release lists it. -/
theorem disallowed6_of_documentation (h : documentation.contains n = true) :
    disallowed6 release n = true ↔ release.documentation = true := by
  have hmapped : mapped.contains n = false := not_contains (by decide) (inAny_singleton h)
  have hnone : ∀ net ∈ [V6.linklocalNetwork, V6.multicastNetwork, ⟨groups [], 127⟩],
      net.contains n = false := by
    intro net hnet
    refine not_contains (fun sub hsub => ?_) (inAny_singleton h)
    rw [List.mem_singleton.mp hsub]
    revert hnet net
    decide
  have hexception : inAny V6.privateNetworksExceptions n = false :=
    not_inAny_of_apart (by decide) (inAny_singleton h)
  have hreserved : inAny V6.reservedNetworks n = false :=
    not_inAny_of_apart (by decide) (inAny_singleton h)
  obtain ⟨mappedProperties, mappedLoopback, listed⟩ := release
  cases listed with
  | true =>
    refine iff_of_true (disallowed6_of_private hmapped ?_ hexception) rfl
    refine inAny_of_covered ?_ (inAny_singleton h)
    revert mappedProperties mappedLoopback
    decide
  | false =>
    refine iff_of_false ?_ Bool.false_ne_true
    have hprivate : inAny (V6.privateNetworks ⟨mappedProperties, mappedLoopback, false⟩) n =
        false := by
      refine not_inAny_of_apart ?_ (inAny_singleton h)
      clear hmapped hexception
      revert mappedProperties mappedLoopback
      decide
    have hsmall : n ≠ 0 ∧ n ≠ 1 := by
      have hlast := hnone ⟨groups [], 127⟩ (by simp)
      constructor
      · rintro rfl
        exact absurd hlast (by decide)
      · rintro rfl
        exact absurd hlast (by decide)
    unfold disallowed6 V6.isPrivate V6.isLoopback V6.isLinkLocal V6.isMulticast V6.isReserved
      V6.isUnspecified
    rw [ipv4Mapped_eq, hmapped, if_neg Bool.false_ne_true, property_of_not_mapped hmapped,
      property_of_not_mapped hmapped, property_of_not_mapped hmapped,
      property_of_not_mapped hmapped, property_of_not_mapped hmapped]
    simp [hprivate, hreserved, hnone V6.linklocalNetwork, hnone V6.multicastNetwork, hsmall.1,
      hsmall.2]

/-- Of the IPv6 addresses to be rejected that are not mapped, `3fff::/20` may be let through. -/
theorem disallowed6_iff (h : mapped.contains n = false)
    (hspecial : NotGlobal6 n ∨ ∃ m, Embeds n m ∧ NotGlobal4 m) :
    disallowed6 release n = true ↔
      (release.documentation = false → documentation.contains n = false) := by
  cases hdoc : documentation.contains n with
  | true =>
    rw [disallowed6_of_documentation hdoc]
    cases release.documentation with
    | true => simp
    | false => simp
  | false =>
    refine iff_of_true ?_ fun _ => rfl
    rcases hspecial with ⟨hregistry, hreach⟩ | ⟨m, hembeds, -⟩
    · have hrest := inAny_filter_ne (inAny_filter_ne hregistry h) hdoc
      have htables : inAny (V6.privateNetworks release ++ V6.reservedNetworks) n = true := by
        refine inAny_of_covered ?_ hrest
        obtain ⟨mappedProperties, mappedLoopback, listed⟩ := release
        revert mappedProperties mappedLoopback listed
        decide
      obtain ⟨net, hnet, hcontains⟩ := inAny_iff.mp htables
      rcases List.mem_append.mp hnet with hnet | hnet
      · exact disallowed6_of_private h (inAny_iff.mpr ⟨net, hnet, hcontains⟩)
          (not_exception6 hreach)
      · exact disallowed6_of_reserved h (inAny_iff.mpr ⟨net, hnet, hcontains⟩)
    · rcases hembeds with ⟨hmapped, -⟩ | ⟨hsix, -⟩ | ⟨hnat, -⟩
      · rw [hmapped] at h
        cases h
      · refine disallowed6_of_private h ?_ (not_inAny_of_apart (by decide) (inAny_singleton hsix))
        refine inAny_of_covered ?_ (inAny_singleton hsix)
        obtain ⟨mappedProperties, mappedLoopback, listed⟩ := release
        revert mappedProperties mappedLoopback listed
        decide
      · exact disallowed6_of_reserved h (inAny_of_covered (by decide) (inAny_singleton hnat))

end V6

/-! ### The filter -/

section Filter

variable {host : Host} {text : String} {ip : IpAddress}

theorem isDisallowedIp_v4 {n : BitVec 32} (h : host.ipAddress text = .ok (.v4 n)) :
    isDisallowedIp host text = true ↔
      V4.isPrivate n.toNat = true ∨ V4.isMulticast n.toNat = true := by
  rw [← disallowed4_iff]
  unfold isDisallowedIp
  rw [h]
  rfl

theorem isDisallowedIp_v6 {n : BitVec 128} (h : host.ipAddress text = .ok (.v6 n)) :
    isDisallowedIp host text = disallowed6 host.release n.toNat := by
  unfold isDisallowedIp
  rw [h]
  rfl

theorem special_iff (h : host.ipAddress text = .ok ip) (hspecial : Special ip) :
    isDisallowedIp host text = true ↔ Filtered host.release ip := by
  cases ip with
  | v4 n =>
    rw [isDisallowedIp_v4 h]
    exact disallowed4_iff_of_special hspecial
  | v6 n =>
    rw [isDisallowedIp_v6 h]
    unfold Filtered
    cases hmapped : mapped.contains n.toNat with
    | true =>
      have hdoc : documentation.contains n.toNat = false :=
        not_contains (by decide) (inAny_singleton hmapped)
      rw [disallowed6_of_mapped hmapped, isPrivate4_iff]
      constructor
      · intro hmode
        exact ⟨fun hyes _ => hmode hyes, fun _ => hdoc⟩
      · intro hboth hyes
        exact hboth.1 hyes hmapped
    | false =>
      rw [disallowed6_iff hmapped hspecial]
      constructor
      · intro hdoc
        refine ⟨fun _ hno => ?_, hdoc⟩
        rw [hmapped] at hno
        cases hno
      · exact fun hboth => hboth.2

end Filter

/-- **What the filter rejects of the addresses that are not public**, and that the two
filters agree. -/
theorem disallowed_iff (host : Host) (text : String) (ip : IpAddress)
    (h : host.ipAddress text = .ok ip) (hspecial : Special ip) :
    (isDisallowedIp host text = true ↔ Filtered host.release ip) ∧
      ∀ s, Connector.isDisallowedIp host s = isDisallowedIp host s :=
  ⟨special_iff h hspecial, fun _ => rfl⟩

/-! ### Addresses that are let through -/

namespace Sample

/-- An address of the shared space, and a private one. -/
def ipAddress (s : String) : Except String IpAddress :=
  if s = "100.64.0.1" then .ok (.v4 (BitVec.ofNat 32 (quad 100 64 0 1)))
  else if s = "10.0.0.1" then .ok (.v4 (BitVec.ofNat 32 (quad 10 0 0 1)))
  else .error "no address"

theorem special_shared : Special (.v4 (BitVec.ofNat 32 (quad 100 64 0 1))) :=
  ⟨by decide, by decide⟩

theorem special_private : Special (.v4 (BitVec.ofNat 32 (quad 10 0 0 1))) :=
  ⟨by decide, by decide⟩

end Sample

theorem disallowed_private :
    (isDisallowedIp (Sample.host Sample.ipAddress Sample.url) "10.0.0.1" = true ↔
      Filtered ⟨true, true, true⟩ (.v4 (BitVec.ofNat 32 (quad 10 0 0 1)))) ∧
      ∀ s, Connector.isDisallowedIp (Sample.host Sample.ipAddress Sample.url) s =
        isDisallowedIp (Sample.host Sample.ipAddress Sample.url) s :=
  disallowed_iff (Sample.host Sample.ipAddress Sample.url) "10.0.0.1" _ rfl Sample.special_private

/-- `100.64.0.1` is let through. -/
theorem allows_shared : ¬ ∀ host text ip, host.ipAddress text = .ok ip → Special ip →
    isDisallowedIp host text = true ∧ Connector.isDisallowedIp host text = true := by
  intro h
  have hshared := h (Sample.host Sample.ipAddress Sample.url) "100.64.0.1" _ rfl
    Sample.special_shared
  exact absurd hshared.1 (by decide)

end GraphPilot.SafeHttp
