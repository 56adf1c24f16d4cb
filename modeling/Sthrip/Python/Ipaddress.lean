import Sthrip.Ip.Network

set_option autoImplicit false

/-! # Addresses of the standard library

`ipaddress`: the two kinds of addresses and what they say of themselves, with its tables of networks.
-/

namespace Ipaddress

open Ip

/-! ## Addresses of four octets -/

structure IPv4Address where
  ip : BitVec 32
deriving DecidableEq

namespace IPv4Address

def privateNetworks : List (Network 32) :=
  [net4 0 0 0 0 8, net4 10 0 0 0 8, net4 127 0 0 0 8, net4 169 254 0 0 16, net4 172 16 0 0 12,
    net4 192 0 0 0 24, net4 192 0 0 170 31, net4 192 0 2 0 24, net4 192 168 0 0 16, net4 198 18 0 0 15,
    net4 198 51 100 0 24, net4 203 0 113 0 24, net4 240 0 0 0 4, net4 255 255 255 255 32]

def privateNetworksExceptions : List (Network 32) := [net4 192 0 0 9 32, net4 192 0 0 10 32]

variable (a : IPv4Address)

def isPrivate : Bool :=
  privateNetworks.any (fun net => net.contains a.ip) &&
    privateNetworksExceptions.all fun net => !net.contains a.ip

def isLoopback : Bool := (net4 127 0 0 0 8).contains a.ip

def isReserved : Bool := (net4 240 0 0 0 4).contains a.ip

def isLinkLocal : Bool := (net4 169 254 0 0 16).contains a.ip

def isMulticast : Bool := (net4 224 0 0 0 4).contains a.ip

def isUnspecified : Bool := a.ip == octets 0 0 0 0

end IPv4Address

/-! ## Addresses of eight hextets -/

structure IPv6Address where
  ip : BitVec 128
  scope_id : Option String := none
deriving DecidableEq

namespace IPv6Address

def privateNetworks : List (Network 128) :=
  [net6 0 0 0 0 0 0 0 1 128, net6 0 0 0 0 0 0 0 0 128, net6 0 0 0 0 0 0xffff 0 0 96,
    net6 0x64 0xff9b 1 0 0 0 0 0 48, net6 0x100 0 0 0 0 0 0 0 64, net6 0x2001 0 0 0 0 0 0 0 23,
    net6 0x2001 0xdb8 0 0 0 0 0 0 32, net6 0x2002 0 0 0 0 0 0 0 16, net6 0xfc00 0 0 0 0 0 0 0 7,
    net6 0xfe80 0 0 0 0 0 0 0 10]

def privateNetworksExceptions : List (Network 128) :=
  [net6 0x2001 1 0 0 0 0 0 1 128, net6 0x2001 1 0 0 0 0 0 2 128, net6 0x2001 3 0 0 0 0 0 0 32,
    net6 0x2001 4 0x112 0 0 0 0 0 48, net6 0x2001 0x20 0 0 0 0 0 0 28, net6 0x2001 0x30 0 0 0 0 0 0 28]

def reservedNetworks : List (Network 128) :=
  [net6 0 0 0 0 0 0 0 0 8, net6 0x100 0 0 0 0 0 0 0 8, net6 0x200 0 0 0 0 0 0 0 7,
    net6 0x400 0 0 0 0 0 0 0 6, net6 0x800 0 0 0 0 0 0 0 5, net6 0x1000 0 0 0 0 0 0 0 4,
    net6 0x4000 0 0 0 0 0 0 0 3, net6 0x6000 0 0 0 0 0 0 0 3, net6 0x8000 0 0 0 0 0 0 0 3,
    net6 0xa000 0 0 0 0 0 0 0 3, net6 0xc000 0 0 0 0 0 0 0 3, net6 0xe000 0 0 0 0 0 0 0 4,
    net6 0xf000 0 0 0 0 0 0 0 5, net6 0xf800 0 0 0 0 0 0 0 6, net6 0xfe00 0 0 0 0 0 0 0 9]

variable (a : IPv6Address)

def ipv4Mapped : Option IPv4Address :=
  if a.ip >>> 32 ≠ 0xffff then none else some ⟨a.ip.truncate 32⟩

/-- A mapped address is private when the address that it maps is. -/
def isPrivate : Bool :=
  match a.ipv4Mapped with
  | some mapped => mapped.isPrivate
  | none =>
      privateNetworks.any (fun net => net.contains a.ip) &&
        privateNetworksExceptions.all fun net => !net.contains a.ip

def isLoopback : Bool := a.ip == 1

def isReserved : Bool := reservedNetworks.any fun net => net.contains a.ip

def isLinkLocal : Bool := (net6 0xfe80 0 0 0 0 0 0 0 10).contains a.ip

def isMulticast : Bool := (net6 0xff00 0 0 0 0 0 0 0 8).contains a.ip

def isUnspecified : Bool := a.ip == 0

end IPv6Address

/-! ## Both kinds -/

inductive IPAddress
  | v4 (a : IPv4Address)
  | v6 (a : IPv6Address)
deriving DecidableEq

namespace IPAddress

def isPrivate : IPAddress → Bool
  | v4 a => a.isPrivate
  | v6 a => a.isPrivate

def isLoopback : IPAddress → Bool
  | v4 a => a.isLoopback
  | v6 a => a.isLoopback

def isReserved : IPAddress → Bool
  | v4 a => a.isReserved
  | v6 a => a.isReserved

def isLinkLocal : IPAddress → Bool
  | v4 a => a.isLinkLocal
  | v6 a => a.isLinkLocal

def isMulticast : IPAddress → Bool
  | v4 a => a.isMulticast
  | v6 a => a.isMulticast

def isUnspecified : IPAddress → Bool
  | v4 a => a.isUnspecified
  | v6 a => a.isUnspecified

end IPAddress

end Ipaddress
