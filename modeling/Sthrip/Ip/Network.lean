import Mathlib.Data.BitVec

set_option autoImplicit false

/-! # Networks of addresses

The addresses of `w` bits that begin like a given one. Two networks are nested or disjoint, so that which
networks an address is in is a question about the networks.
-/

namespace Ip

variable {w : ℕ}

/-- The first `prefixlen` bits. -/
def netmask (w prefixlen : ℕ) : BitVec w := BitVec.allOnes w ^^^ (BitVec.allOnes w >>> prefixlen)

theorem getLsbD_netmask {prefixlen i : ℕ} (hi : i < w) :
    (netmask w prefixlen).getLsbD i = decide (w ≤ prefixlen + i) := by
  unfold netmask
  rw [BitVec.getLsbD_xor, BitVec.getLsbD_ushiftRight, BitVec.getLsbD_allOnes, BitVec.getLsbD_allOnes,
    decide_eq_true hi]
  by_cases h : w ≤ prefixlen + i
  · simp [h]
  · simp [h]
    omega

theorem and_netmask_and (x : BitVec w) (prefixlen : ℕ) :
    x &&& netmask w prefixlen &&& netmask w prefixlen = x &&& netmask w prefixlen := by
  rw [BitVec.and_assoc, BitVec.and_self]

/-- A network has no host bits set. -/
structure Network (w : ℕ) where
  network_address : BitVec w
  prefixlen : ℕ
  strict : network_address &&& netmask w prefixlen = network_address
deriving DecidableEq

namespace Network

variable {a b : Network w} {x y : BitVec w}

/-- The address begins like the network. -/
def contains (net : Network w) (x : BitVec w) : Bool :=
  x &&& netmask w net.prefixlen == net.network_address

/-- The bits of an address of the network, from the first host bit on. -/
theorem contains_iff : a.contains x = true ↔
    ∀ i < w, w ≤ a.prefixlen + i → x.getLsbD i = a.network_address.getLsbD i := by
  unfold contains
  rw [beq_iff_eq]
  constructor
  · intro h i hi hle
    rw [← h, BitVec.getLsbD_and, getLsbD_netmask hi, decide_eq_true hle, Bool.and_true]
  · intro h
    refine BitVec.eq_of_getLsbD_eq fun i hi => ?_
    rw [← a.strict, BitVec.getLsbD_and, BitVec.getLsbD_and, getLsbD_netmask hi]
    by_cases hle : w ≤ a.prefixlen + i
    · rw [h i hi hle]
    · rw [decide_eq_false hle, Bool.and_false, Bool.and_false]

/-- The same, by the numbers. -/
theorem contains_iff_div : a.contains x = true ↔
    x.toNat / 2 ^ (w - a.prefixlen) = a.network_address.toNat / 2 ^ (w - a.prefixlen) := by
  rw [contains_iff]
  constructor
  · intro h
    refine Nat.eq_of_testBit_eq fun i => ?_
    rw [Nat.testBit_div_two_pow, Nat.testBit_div_two_pow, BitVec.testBit_toNat, BitVec.testBit_toNat]
    by_cases hi : i + (w - a.prefixlen) < w
    · exact h _ hi (by omega)
    · rw [BitVec.getLsbD_of_ge _ _ (by omega), BitVec.getLsbD_of_ge _ _ (by omega)]
  · intro h i hi hle
    have hbit := congrArg (fun n => n.testBit (i - (w - a.prefixlen))) h
    simp only [Nat.testBit_div_two_pow, BitVec.testBit_toNat] at hbit
    rwa [Nat.sub_add_cancel (by omega)] at hbit

/-- The first network is part of the second. -/
def subnet_of (a b : Network w) : Bool := decide (b.prefixlen ≤ a.prefixlen) && b.contains a.network_address

theorem contains_of_subnet_of (h : a.subnet_of b = true) (hx : a.contains x = true) :
    b.contains x = true := by
  obtain ⟨hlen, hab⟩ := Bool.and_eq_true_iff.mp h
  rw [contains_iff] at hab hx ⊢
  intro i hi hle
  rw [hx i hi (Nat.le_trans hle (Nat.add_le_add_right (of_decide_eq_true hlen) i)), hab i hi hle]

/-- One of the two networks is part of the other. -/
def overlaps (a b : Network w) : Bool := a.subnet_of b || b.subnet_of a

/-- Networks with an address in common are nested. -/
theorem overlaps_of_contains (ha : a.contains x = true) (hb : b.contains x = true) :
    a.overlaps b = true := by
  rw [contains_iff] at ha hb
  refine Bool.or_eq_true_iff.mpr ?_
  rcases Nat.le_total b.prefixlen a.prefixlen with hlen | hlen
  · refine Or.inl (Bool.and_eq_true_iff.mpr ⟨decide_eq_true hlen, contains_iff.mpr fun i hi hle => ?_⟩)
    rw [← hb i hi hle, ha i hi (Nat.le_trans hle (Nat.add_le_add_right hlen i))]
  · refine Or.inr (Bool.and_eq_true_iff.mpr ⟨decide_eq_true hlen, contains_iff.mpr fun i hi hle => ?_⟩)
    rw [← ha i hi hle, hb i hi (Nat.le_trans hle (Nat.add_le_add_right hlen i))]

theorem not_contains_of_disjoint (h : a.overlaps b = false) (ha : a.contains x = true) :
    b.contains x = false := by
  rw [← Bool.not_eq_true]
  intro hb
  rw [overlaps_of_contains ha hb] at h
  cases h

/-- An address of a part of a network that is listed, when no exception overlaps with the part. -/
theorem listed {nets exceptions : List (Network w)} (hsub : ∃ net ∈ nets, a.subnet_of net = true)
    (hdisjoint : ∀ e ∈ exceptions, a.overlaps e = false) (hx : a.contains x = true) :
    (nets.any (fun net => net.contains x) && exceptions.all fun net => !net.contains x) = true := by
  obtain ⟨net, hnet, hpart⟩ := hsub
  refine Bool.and_eq_true_iff.mpr ⟨?_, List.all_eq_true.mpr fun e he => ?_⟩
  · exact List.any_eq_true.mpr ⟨net, hnet, contains_of_subnet_of hpart hx⟩
  · rw [not_contains_of_disjoint (hdisjoint e he) hx, Bool.not_false]

/-- What comes after the first bits does not matter. -/
theorem contains_append {p r : ℕ} {net : Network (p + r)} {hi : BitVec p} (h : net.prefixlen ≤ p)
    (hin : net.contains (hi ++ 0#r) = true) (lo : BitVec r) : net.contains (hi ++ lo) = true := by
  rw [contains_iff] at hin ⊢
  intro i hi' hle
  rw [← hin i hi' hle, BitVec.getLsbD_append, BitVec.getLsbD_append, if_neg (by omega), if_neg (by omega)]

end Network

/-! ## Addresses and networks as they are written -/

/-- An address of four octets. -/
def octets (a b c d : ℕ) : BitVec 32 := .ofNat 32 (((a * 256 + b) * 256 + c) * 256 + d)

/-- An address of eight hextets. -/
def hextets (a b c d e f g h : ℕ) : BitVec 128 :=
  .ofNat 128 (((((((a * 65536 + b) * 65536 + c) * 65536 + d) * 65536 + e) * 65536 + f) * 65536 + g) *
    65536 + h)

/-- `a.b.c.d/prefixlen`, without the host bits. -/
def net4 (a b c d prefixlen : ℕ) : Network 32 :=
  ⟨octets a b c d &&& netmask 32 prefixlen, prefixlen, and_netmask_and _ _⟩

/-- `a:b:c:d:e:f:g:h/prefixlen`, without the host bits. -/
def net6 (a b c d e f g h prefixlen : ℕ) : Network 128 :=
  ⟨hextets a b c d e f g h &&& netmask 128 prefixlen, prefixlen, and_netmask_and _ _⟩

example : (net4 172 16 0 0 12).contains (octets 172 31 255 1) = true := by decide
example : (net6 0x2001 0 0 0 0 0 0 0 23).subnet_of (net6 0x2000 0 0 0 0 0 0 0 3) = true := by decide

end Ip

/-! ## Addresses that are not public

The ranges by what they are for, and the forms in which an address of six takes one of four with it.
-/

namespace Ip

/-- Private use. -/
def privateUse : List (Network 32) := [net4 10 0 0 0 8, net4 172 16 0 0 12, net4 192 168 0 0 16]

def loopback : Network 32 := net4 127 0 0 0 8

def linkLocal : Network 32 := net4 169 254 0 0 16

def multicast : Network 32 := net4 224 0 0 0 4

/-- For future use, and the limited broadcast. -/
def reserved : Network 32 := net4 240 0 0 0 4

/-- This host on this network; the first is the unspecified address. -/
def thisNetwork : Network 32 := net4 0 0 0 0 8

def internal4 : List (Network 32) :=
  privateUse ++ [loopback, linkLocal, multicast, reserved, thisNetwork]

def Internal4 (a : BitVec 32) : Prop := ∃ net ∈ internal4, net.contains a = true

def uniqueLocal6 : Network 128 := net6 0xfc00 0 0 0 0 0 0 0 7

def linkLocal6 : Network 128 := net6 0xfe80 0 0 0 0 0 0 0 10

def multicast6 : Network 128 := net6 0xff00 0 0 0 0 0 0 0 8

/-- What is assigned to some use; the last is the former site-local range, which is used like a global
one. -/
def assigned6 : List (Network 128) :=
  [net6 0x2000 0 0 0 0 0 0 0 3, uniqueLocal6, linkLocal6, multicast6, net6 0xfec0 0 0 0 0 0 0 0 10]

/-- Nothing is assigned there. -/
def Reserved6 (x : BitVec 128) : Prop := ∀ net ∈ assigned6, net.contains x = false

/-- The forms with an address of four in them. -/
inductive Embeds : BitVec 128 → BitVec 32 → Prop
  | compatible (a : BitVec 32) : Embeds (0#96 ++ a) a
  | mapped (a : BitVec 32) : Embeds (0xffff#96 ++ a) a
  | translated (a : BitVec 32) : Embeds (0xffff0000#96 ++ a) a
  | nat64 (a : BitVec 32) : Embeds (0x0064ff9b0000000000000000#96 ++ a) a
  /-- The local prefix, with the address at the end. -/
  | localNat64 (subnet : BitVec 48) (a : BitVec 32) : Embeds (0x0064ff9b0001#48 ++ (subnet ++ a)) a
  /-- The local prefix, with the address after it, around an octet of zeros. -/
  | splitNat64 (high low : BitVec 16) (suffix : BitVec 40) :
      Embeds (0x0064ff9b0001#48 ++ (high ++ 0#8 ++ low ++ suffix)) (high ++ low)
  | sixToFour (a : BitVec 32) (subnet : BitVec 80) : Embeds (0x2002#16 ++ (a ++ subnet)) a
  | teredoServer (server : BitVec 32) (rest : BitVec 64) : Embeds (0x20010000#32 ++ (server ++ rest)) server
  /-- The client is written with its bits inverted. -/
  | teredoClient (rest : BitVec 64) (client : BitVec 32) :
      Embeds (0x20010000#32 ++ (rest ++ ~~~client)) client

/-- An address of six that is not public. -/
inductive Internal6 (x : BitVec 128) : Prop
  | unspecified : x = 0 → Internal6 x
  | loopback : x = 1 → Internal6 x
  | uniqueLocal : uniqueLocal6.contains x = true → Internal6 x
  | linkLocal : linkLocal6.contains x = true → Internal6 x
  | multicast : multicast6.contains x = true → Internal6 x
  | reserved : Reserved6 x → Internal6 x
  | embedding (a : BitVec 32) : Embeds x a → Internal4 a → Internal6 x

end Ip
