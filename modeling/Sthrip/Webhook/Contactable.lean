import Sthrip.Ip.Network
import Sthrip.Python.Values
import Sthrip.Services.UrlValidator

set_option autoImplicit false

/-! # The addresses that may be contacted

The address that a URL resolves to is public: each internal address, in whatever form, is one that the
check refuses, and the address is checked at the lookup that gives it.
-/

namespace Sthrip.UrlValidator

open Ip Ipaddress

/-- An address that is not to be contacted. -/
def Internal : IPAddress → Prop
  | .v4 a => Internal4 a.ip
  | .v6 a => Internal6 a.ip

/-! ## Addresses of four octets -/

theorem isDangerousIp_v4 {a : IPv4Address} (h : Internal4 a.ip) : isDangerousIp (.v4 a) = true := by
  obtain ⟨net, hnet, hin⟩ := h
  -- all but the multicast addresses are private for the library
  have hlisted : ∀ net ∈ internal4, net = multicast ∨
      ((∃ net' ∈ IPv4Address.privateNetworks, net.subnet_of net' = true) ∧
        ∀ e ∈ IPv4Address.privateNetworksExceptions, net.overlaps e = false) := by
    decide
  rcases hlisted net hnet with rfl | ⟨hsub, hdisjoint⟩
  · have hmulticast : a.isMulticast = true := hin
    simp [isDangerousIp, IPAddress.isMulticast, hmulticast]
  · have hprivate : a.isPrivate = true := Network.listed hsub hdisjoint hin
    simp [isDangerousIp, IPAddress.isPrivate, hprivate]

/-! ## Addresses of eight hextets -/

/-- The mapped addresses. -/
def mapped6 : Network 128 := net6 0 0 0 0 0 0xffff 0 0 96

theorem ipv4Mapped_eq_none {a : IPv6Address} (h : mapped6.contains a.ip = false) : a.ipv4Mapped = none := by
  unfold IPv6Address.ipv4Mapped
  refine if_pos fun hmapped => ?_
  have hin : mapped6.contains a.ip = true := by
    rw [Network.contains_iff_div]
    have hshift := congrArg BitVec.toNat hmapped
    rw [BitVec.toNat_ushiftRight, Nat.shiftRight_eq_div_pow] at hshift
    exact hshift
  rw [h] at hin
  cases hin

theorem isDangerousIp_of_reserved {a : IPv6Address} (h : a.isReserved = true) :
    isDangerousIp (.v6 a) = true := by
  simp [isDangerousIp, IPAddress.isReserved, h]

/-- An address of a reserved network. -/
theorem isDangerousIp_of_mem_reserved {a : IPv6Address} {net : Network 128}
    (hnet : net ∈ IPv6Address.reservedNetworks) (hin : net.contains a.ip = true) :
    isDangerousIp (.v6 a) = true :=
  isDangerousIp_of_reserved (List.any_eq_true.mpr ⟨net, hnet, hin⟩)

/-- An address of a part of a private network with no mapped address and no exception in it. -/
theorem isDangerousIp_of_private {a : IPv6Address} {net : Network 128}
    (hsub : ∃ net' ∈ IPv6Address.privateNetworks, net.subnet_of net' = true)
    (hdisjoint : ∀ e ∈ mapped6 :: IPv6Address.privateNetworksExceptions, net.overlaps e = false)
    (hin : net.contains a.ip = true) : isDangerousIp (.v6 a) = true := by
  have hmapped := Network.not_contains_of_disjoint (hdisjoint _ List.mem_cons_self) hin
  have hprivate : a.isPrivate = true := by
    unfold IPv6Address.isPrivate
    rw [ipv4Mapped_eq_none hmapped]
    exact Network.listed hsub (fun e he => hdisjoint e (List.mem_cons_of_mem _ he)) hin
  simp [isDangerousIp, IPAddress.isPrivate, hprivate]

/-- What is not assigned is reserved for the library. -/
theorem isReserved_of_unassigned {a : IPv6Address} (h : Reserved6 a.ip) : a.isReserved = true := by
  have hlt := a.ip.isLt
  have hassigned : ∀ net ∈ assigned6, ¬a.ip.toNat / 2 ^ (128 - net.prefixlen) =
      net.network_address.toNat / 2 ^ (128 - net.prefixlen) := by
    intro net hnet hin
    rw [← Network.contains_iff_div, h net hnet] at hin
    cases hin
  have hbits : ¬a.ip.toNat / 2 ^ 125 = 1 ∧ ¬a.ip.toNat / 2 ^ 121 = 126 ∧ ¬a.ip.toNat / 2 ^ 118 = 1018 ∧
      ¬a.ip.toNat / 2 ^ 120 = 255 ∧ ¬a.ip.toNat / 2 ^ 118 = 1019 := by
    simpa [assigned6, uniqueLocal6, linkLocal6, multicast6, net6, hextets, netmask] using hassigned
  have hreserved : a.ip.toNat < 2 ^ 120 ∨ a.ip.toNat / 2 ^ 120 = 1 ∨ a.ip.toNat / 2 ^ 121 = 1 ∨
      a.ip.toNat / 2 ^ 122 = 1 ∨ a.ip.toNat / 2 ^ 123 = 1 ∨ a.ip.toNat / 2 ^ 124 = 1 ∨
      a.ip.toNat / 2 ^ 125 = 2 ∨ a.ip.toNat / 2 ^ 125 = 3 ∨ a.ip.toNat / 2 ^ 125 = 4 ∨
      a.ip.toNat / 2 ^ 125 = 5 ∨ a.ip.toNat / 2 ^ 125 = 6 ∨ a.ip.toNat / 2 ^ 124 = 14 ∨
      a.ip.toNat / 2 ^ 123 = 30 ∨ a.ip.toNat / 2 ^ 122 = 62 ∨ a.ip.toNat / 2 ^ 119 = 508 := by
    omega
  rw [IPv6Address.isReserved, List.any_eq_true]
  simpa [Network.contains_iff_div, IPv6Address.reservedNetworks, net6, hextets, netmask] using hreserved

/-- An address with one of four octets in it is refused, whichever that is. -/
theorem isDangerousIp_of_embeds {a : IPv6Address} {b : BitVec 32} (h : Embeds a.ip b) :
    isDangerousIp (.v6 a) = true := by
  obtain ⟨x, scope_id⟩ := a
  change Embeds x b at h
  -- most of the forms begin with a reserved octet
  have hzero : (net6 0 0 0 0 0 0 0 0 8).contains x = true → isDangerousIp (.v6 ⟨x, scope_id⟩) = true :=
    isDangerousIp_of_mem_reserved (a := ⟨x, scope_id⟩) (by decide)
  have hteredo : (net6 0x2001 0 0 0 0 0 0 0 32).contains x = true →
      isDangerousIp (.v6 ⟨x, scope_id⟩) = true :=
    isDangerousIp_of_private (a := ⟨x, scope_id⟩) (by decide) (by decide)
  have hsixToFour : (net6 0x2002 0 0 0 0 0 0 0 16).contains x = true →
      isDangerousIp (.v6 ⟨x, scope_id⟩) = true :=
    isDangerousIp_of_private (a := ⟨x, scope_id⟩) (by decide) (by decide)
  cases h with
  | compatible => exact hzero (Network.contains_append (p := 96) (r := 32) (by decide) (by decide) _)
  | mapped => exact hzero (Network.contains_append (p := 96) (r := 32) (by decide) (by decide) _)
  | translated => exact hzero (Network.contains_append (p := 96) (r := 32) (by decide) (by decide) _)
  | nat64 => exact hzero (Network.contains_append (p := 96) (r := 32) (by decide) (by decide) _)
  | localNat64 => exact hzero (Network.contains_append (p := 48) (r := 80) (by decide) (by decide) _)
  | splitNat64 => exact hzero (Network.contains_append (p := 48) (r := 80) (by decide) (by decide) _)
  | sixToFour => exact hsixToFour (Network.contains_append (p := 16) (r := 112) (by decide) (by decide) _)
  | teredoServer => exact hteredo (Network.contains_append (p := 32) (r := 96) (by decide) (by decide) _)
  | teredoClient => exact hteredo (Network.contains_append (p := 32) (r := 96) (by decide) (by decide) _)

theorem isDangerousIp_v6 {a : IPv6Address} (h : Internal6 a.ip) : isDangerousIp (.v6 a) = true := by
  cases h with
  | unspecified h => simp [isDangerousIp, IPAddress.isUnspecified, IPv6Address.isUnspecified, h]
  | loopback h => simp [isDangerousIp, IPAddress.isLoopback, IPv6Address.isLoopback, h]
  | uniqueLocal h => exact isDangerousIp_of_private (by decide) (by decide) h
  | linkLocal h => exact isDangerousIp_of_private (by decide) (by decide) h
  | multicast h =>
      have hmulticast : a.isMulticast = true := h
      simp [isDangerousIp, IPAddress.isMulticast, hmulticast]
  | reserved h => exact isDangerousIp_of_reserved (isReserved_of_unassigned h)
  | embedding b h _ => exact isDangerousIp_of_embeds h

/-- Each internal address is refused. -/
theorem isDangerousIp_of_internal {addr : IPAddress} (h : Internal addr) : isDangerousIp addr = true := by
  cases addr with
  | v4 a => exact isDangerousIp_v4 h
  | v6 a => exact isDangerousIp_v6 h

/-! ## The requests -/

section Requests

variable {parsers : Parsers} {environment url validated hostname : String} {enforce_https : Option Bool}
  {block : Bool} {getaddrinfo : Resolver}

/-- A host that is not refused is no internal address, and has none among its addresses. -/
theorem checkHostnameSafe_ok (h : checkHostnameSafe parsers hostname block getaddrinfo = .ok ()) :
    (∀ addr, parsers.ip_address hostname = some addr → isDangerousIp addr = false) ∧
      ∀ results, parsers.ip_address hostname = none → getaddrinfo hostname = .ok results →
        ∀ sockaddr ∈ results, isDangerousIp sockaddr.addr = false := by
  unfold checkHostnameSafe at h
  constructor
  · intro addr haddr
    rw [haddr] at h
    dsimp only at h
    split at h
    · cases h
    · next hsafe => exact Bool.eq_false_iff.mpr hsafe
  · intro results hnone hresults
    rw [hnone, hresults] at h
    dsimp only at h
    clear hresults
    induction results with
    | nil => exact fun _ he => absurd he List.not_mem_nil
    | cons r results ih =>
        by_cases hr : isDangerousIp r.addr = true
        · rw [List.forM_eq_forM, List.forM_cons, if_pos hr] at h
          cases h
        · rw [List.forM_eq_forM, List.forM_cons, if_neg hr] at h
          exact List.forall_mem_cons.mpr ⟨Bool.eq_false_iff.mpr hr, ih h⟩

/-- A URL that is not refused has a host that is not. -/
theorem validateUrlTarget_ok
    (h : validateUrlTarget parsers environment url enforce_https block getaddrinfo = .ok validated) :
    validated = url ∧ ∃ parsed hostname, parsers.urlparse url = .ok parsed ∧
      parsed.hostname = some hostname ∧ checkHostnameSafe parsers hostname block getaddrinfo = .ok () := by
  unfold validateUrlTarget at h
  obtain ⟨parsed, hparsed, h⟩ := Python.bind_eq_ok.mp h
  dsimp only at h
  split at h
  · cases h
  · split at h
    · cases h
    · split at h
      · cases h
      · next htruthy =>
          obtain ⟨⟨⟩, hsafe, h⟩ := Python.bind_eq_ok.mp h
          cases hhostname : parsed.hostname with
          | none => exact absurd (congrArg truthy hhostname) htruthy
          | some hostname =>
              rw [hhostname] at hsafe
              exact ⟨(Except.ok.inj h).symm, parsed, hostname, hparsed, hhostname, hsafe⟩

end Requests

/-- `example.com` is a name. -/
def exampleParsers : Parsers where
  urlparse _ := .ok ⟨"https", none, none, some "example.com"⟩
  ip_address _ := none
  str _ := ""

def exampleAddr : SockAddr := ⟨"93.184.216.34", .v4 ⟨octets 93 184 216 34⟩⟩

end Sthrip.UrlValidator
