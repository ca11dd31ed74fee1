import WebhookInbox.Replay.Ssrf

/-!
# What the vetting lets through

Addresses that are not globally reachable are private to `ipaddress`, and so blocked, with
one exception: the shared address space of carriers and clouds is neither private nor
global, and lies in none of the networks that are blocked.
-/

namespace WebhookInbox.Ssrf

open Library IpAddress

/-- The address that is judged lies in the shared address space. -/
def IsShared (address : IpAddress) : Prop :=
  ∃ bits, address.ipv4Mapped.getD address = .v4 bits ∧ v4SharedNetwork.contains bits = true

/-- The networks that block an IPv4 address. -/
def v4BlockedNetworks : List (Network 32) :=
  v4PrivateNetworks ++ [v4Network 127 0 0 0 8, v4Network 169 254 0 0 16, v4Network 224 0 0 0 4,
    v4Network 240 0 0 0 4]

/-- They are apart from the shared address space. -/
theorem shared_apart : ∀ network ∈ v4BlockedNetworks, v4SharedNetwork.apart network = true := by
  decide

/-- What is not global and not blocked is shared. -/
theorem blocked_or_shared {address : IpAddress} (inner : isGlobal address = false)
    (outside : ¬ IsShared address) : isBlocked address = true := by
  unfold isGlobal at inner
  unfold isBlocked
  split at inner
  · next bits judged =>
    have apart : v4SharedNetwork.contains bits = false := by
      rw [← Bool.not_eq_true]
      exact fun inside => outside ⟨bits, judged, inside⟩
    simp only [apart, Bool.not_false, Bool.true_and, Bool.not_eq_false'] at inner
    simp only [judged, inner, Bool.true_or]
  · next bits scope judged =>
    rw [Bool.not_eq_false'] at inner
    simp only [judged, inner, Bool.true_or]

/-- A shared address is neither global nor blocked.

Proof: the networks that are blocked are apart from the space. -/
theorem shared_passes {address : IpAddress} (shared : IsShared address) :
    isGlobal address = false ∧ isBlocked address = false := by
  obtain ⟨bits, judged, inside⟩ := shared
  have missed : ∀ network ∈ v4BlockedNetworks, network.contains bits = false :=
    fun network member => Network.not_contains (shared_apart network member) inside
  have notPrivate : isPrivate (.v4 bits) = false := by
    have none : v4PrivateNetworks.any (·.contains bits) = false := by
      refine List.any_eq_false.mpr ?_
      intro network member
      rw [missed network (List.mem_append_left _ member)]
      exact Bool.false_ne_true
    rw [isPrivate, none, Bool.false_and]
  have notUnspecified : isUnspecified (.v4 bits) = false := by
    refine beq_eq_false_iff_ne.mpr ?_
    rintro rfl
    revert inside
    decide
  constructor
  · simp only [isGlobal, judged, inside, Bool.not_true, Bool.false_and]
  · simp only [isBlocked, judged, notPrivate, notUnspecified, isLoopback, isLinkLocal, isMulticast,
      isReserved, missed _ (by decide : v4Network 127 0 0 0 8 ∈ v4BlockedNetworks),
      missed _ (by decide : v4Network 169 254 0 0 16 ∈ v4BlockedNetworks),
      missed _ (by decide : v4Network 224 0 0 0 4 ∈ v4BlockedNetworks),
      missed _ (by decide : v4Network 240 0 0 0 4 ∈ v4BlockedNetworks), Bool.or_false]

/-- A host that resolves to a blocked address is refused while private networks are. -/
theorem validate_refuses {urls : UrlApi} {resolver : Str → Nat → Resolution} {url : Str}
    {config : ReplayConfig} {parsed : Url} {found : List IpAddress} {address : IpAddress}
    (guarded : config.allowPrivateNetworks = false) (read : urls.parse url = .ok parsed)
    (answered : resolver parsed.host (connectPort parsed) = .addresses found)
    (member : address ∈ found) (blocked : isBlocked address = true) :
    ∃ rejection, validate urls resolver url config = .error rejection := by
  cases validated : validate urls resolver url config with
  | error rejection => exact ⟨rejection, rfl⟩
  | ok target =>
    obtain rfl := Except.ok.inj (read.symm.trans (validate_parse validated))
    obtain ⟨others, _, answer, _, _, unblocked⟩ := (validate_ok validated).pinned
    obtain rfl := Resolution.addresses.inj (answered.symm.trans answer)
    rw [unblocked guarded address member] at blocked
    cases blocked

/-- An address that is not globally reachable is blocked, so that hosts which resolve to it
are refused, exactly if it is not in the shared address space and maps no address there. -/
theorem internal_blocked_iff (address : IpAddress) :
    (isGlobal address = false → isBlocked address = true ∧
        ∀ (urls : UrlApi) (resolver : Str → Nat → Resolution) (url : Str) (config : ReplayConfig)
          (parsed : Url) (found : List IpAddress), config.allowPrivateNetworks = false →
          urls.parse url = .ok parsed →
          resolver parsed.host (connectPort parsed) = .addresses found → address ∈ found →
          ∃ rejection, validate urls resolver url config = .error rejection) ↔
      ¬ IsShared address := by
  constructor
  · intro covered shared
    obtain ⟨inner, passes⟩ := shared_passes shared
    have blocked := (covered inner).1
    rw [passes] at blocked
    cases blocked
  · intro outside inner
    have blocked := blocked_or_shared inner outside
    refine ⟨blocked, ?_⟩
    intro urls resolver url config parsed found guarded read answered member
    exact validate_refuses guarded read answered member blocked

/-- The address 100.100.100.200, under which a cloud serves metadata. -/
def cloudMetadata : IpAddress := .v4 0x646464C8

/-- It is not global, and not blocked. -/
theorem metadata_passes :
    ¬ ∀ address : IpAddress, isGlobal address = false → isBlocked address = true := by
  intro claimed
  have blocked := claimed cloudMetadata (by decide)
  revert blocked
  decide

end WebhookInbox.Ssrf
