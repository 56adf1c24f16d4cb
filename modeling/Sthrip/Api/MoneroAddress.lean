import Sthrip.Services.RangeProof

set_option autoImplicit false

/-! # Addresses in the requests

`_monero_base58_decode` and `validate_monero_address` of `schemas.py`. A text is the list of its
characters.
-/

namespace Sthrip.MoneroBase58

open Python

def alphabet : List Char :=
  ['1', '2', '3', '4', '5', '6', '7', '8', '9', 'A', 'B', 'C', 'D', 'E', 'F', 'G', 'H', 'J', 'K', 'L',
    'M', 'N', 'P', 'Q', 'R', 'S', 'T', 'U', 'V', 'W', 'X', 'Y', 'Z', 'a', 'b', 'c', 'd', 'e', 'f', 'g',
    'h', 'i', 'j', 'k', 'm', 'n', 'o', 'p', 'q', 'r', 's', 't', 'u', 'v', 'w', 'x', 'y', 'z']

def fullBlockSize : ℕ := 8

def fullEncodedBlockSize : ℕ := 11

def encodedBlockSizes : List ℕ := [0, 2, 3, 5, 6, 7, 9, 10, 11]

/-- `alphabet.index(ch)`. -/
def alphabetIndex (ch : Char) : Py ℕ :=
  if ch ∈ alphabet then .ok (alphabet.idxOf ch) else .error (.ValueError "substring not found")

def decodeBlock (block : List Char) (target_size : ℕ) : Py (List UInt8) := do
  let num ← block.foldlM
    (fun num ch => do
      let idx ← alphabetIndex ch
      pure (num * 58 + idx))
    0
  toBytes target_size (num : ℕ)

def decode (address : List Char) : Py (List UInt8) := do
  let full_blocks := address.length / fullEncodedBlockSize
  let last_block_size := address.length % fullEncodedBlockSize
  let result ← (List.range full_blocks).mapM fun i =>
    let start := i * fullEncodedBlockSize
    decodeBlock ((address.drop start).take fullEncodedBlockSize) fullBlockSize
  if last_block_size > 0 then
    let last_block := address.drop (full_blocks * fullEncodedBlockSize)
    if last_block_size ∉ encodedBlockSizes then
      .error (.ValueError "Invalid Monero address: bad trailing block size")
    else do
      let target_bytes := encodedBlockSizes.idxOf last_block_size
      let last ← decodeBlock last_block target_bytes
      pure (result.flatten ++ last)
  else pure result.flatten

/-! ## Validation -/

def mainnetPrefixes : List Char := ['4', '8']
def stagenetPrefixes : List Char := ['5', '7']
def testnetPrefixes : List Char := ['9', 'B']

/-- `_NETWORK_PREFIXES.get(network, ...)`. -/
def prefixes (network : String) : List Char :=
  if network = "mainnet" then mainnetPrefixes
  else if network = "stagenet" then stagenetPrefixes
  else if network = "testnet" then testnetPrefixes
  else mainnetPrefixes ++ stagenetPrefixes ++ testnetPrefixes

/-- `_BASE58_ALPHABET.match`; a `$` also stands before a line break at the end. -/
def matches58 (address : List Char) : Bool :=
  let body := if address.getLast? = some '\n' then address.dropLast else address
  body ≠ [] ∧ body.all fun ch => ch ∈ alphabet

def checkChecksum (keccak256 : List UInt8 → List UInt8) (address : List Char) : Py Unit := do
  let decoded ← decode address
  let payload := decoded.take (decoded.length - 4)
  let checksum := decoded.drop (decoded.length - 4)
  let expected_checksum := (keccak256 payload).take 4
  if checksum ≠ expected_checksum then .error (.ValueError "Invalid Monero address checksum") else pure ()

def validate (network environment : String) (keccak256 : List UInt8 → List UInt8)
    (address : List Char) : Py (List Char) :=
  if (prefixes network).any (fun ch => address.head? = some ch) = false then
    .error (.ValueError s!"Invalid address prefix for {network} network")
  else if address.length ∉ [95, 106] then .error (.ValueError "Invalid Monero address length")
  else if matches58 address = false then
    .error (.ValueError "Address contains invalid characters")
  else if environment ≠ "dev" then
    match checkChecksum keccak256 address with
    | .ok () => .ok address
    | .error (.ValueError message) => .error (.ValueError message)
    -- what is left is the error of a block that is too large
    | .error _ => .error (.ValueError "Invalid Monero address: int too big to convert")
  else .ok address

end Sthrip.MoneroBase58
