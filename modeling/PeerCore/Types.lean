import Mathlib

/-!
# Peer ids, addresses and results

Model of `types.hpp` and `types.cpp`: the vocabulary shared by every other
module.

* `std::string`, `std::vector<uint8_t>` and `std::span<const uint8_t>` are
  `Bytes := List UInt8`; a C++ text literal is `ascii "…"`. Protocol ids are
  arbitrary byte strings.
* `std::array<uint8_t, n>` is `List.Vector UInt8 n`.
* `Result<T>` is `Except String T`: the error carries the message text.
* `parseIp4Tcp`: the address parser, with `std::strtol` on the port component.
* `PeerId.toString`, `PeerId.fromString`: the base58 text form of a peer id.
-/

namespace PeerCore

/-- `std::vector<uint8_t>`, and `std::string` as its bytes. -/
abbrev Bytes := List UInt8

/-- The bytes of a C++ string literal. -/
def ascii (s : String) : Bytes := s.toList.map fun c => UInt8.ofNat c.toNat

/-- `Result<T>` (`types.hpp:73-109`). -/
abbrev Result (α : Type) := Except String α

/-- `std::array<uint8_t, 32>`. -/
abbrev Bytes32 := List.Vector UInt8 32

/-- A zero-initialised `std::array<uint8_t, n>` after `std::copy_n` of the
    first `n` bytes of `b`. Every caller has checked `n ≤ b.size()`. -/
def copyN (n : ℕ) (b : Bytes) : List.Vector UInt8 n :=
  ⟨(b ++ List.replicate n 0).take n, by simp⟩

theorem copyN_toList {n : ℕ} {b : Bytes} (h : n ≤ b.length) : (copyN n b).toList = b.take n := by
  simp [copyN, List.Vector.toList, List.take_append_of_le_length h]

@[simp] theorem copyN_append {n : ℕ} (v : List.Vector UInt8 n) (b : Bytes) :
    copyN n (v.toList ++ b) = v := by
  apply List.Vector.toList_injective
  rw [copyN_toList (by simp)]
  simp [List.take_left']

@[simp] theorem copyN_self {n : ℕ} (v : List.Vector UInt8 n) : copyN n v.toList = v := by
  simpa using copyN_append v []

/-- `ConnectionId` (`types.hpp:58`). -/
abbrev ConnectionId := UInt64
/-- `StreamId` (`types.hpp:59`). -/
abbrev StreamId := UInt32
/-- `ProtocolId` (`types.hpp:60`). -/
abbrev ProtocolId := Bytes

/-- `PeerId` (`types.hpp:20-27`). -/
structure PeerId where
  bytes : Bytes32
  deriving DecidableEq

/-- `Identity` (`types.hpp:29-32`); the secret key is `seed ‖ public key`. -/
structure Identity where
  peerId : PeerId
  secretKey : List.Vector UInt8 64

/-- `Multiaddr` (`types.hpp:37-53`): the text of the address. -/
structure Multiaddr where
  bytes : Bytes
  deriving DecidableEq

/-- `Multiaddr::Ip4TcpEndpoint`. -/
structure Ip4TcpEndpoint where
  ip : Bytes
  port : UInt16
  peerId : Option Bytes
  deriving DecidableEq

/-! ## `Multiaddr::parse_ip4_tcp` -/

/-- `isspace` in the C locale. -/
def isSpace (c : UInt8) : Bool := c == 32 || (9 ≤ c && c ≤ 13)

/-- `isdigit`. -/
def isDigit (c : UInt8) : Bool := 48 ≤ c && c ≤ 57

/-- `std::strtol(s.c_str(), &end, 10)`: the value, clamped to `long`, and the
    text from `*end` to the terminating NUL. `c_str` ends at the first NUL; when
    there is no digit, `*end` is the start of the text. -/
def strtol (s : Bytes) : ℤ × Bytes :=
  let cstr := s.takeWhile (· ≠ 0)
  let t := cstr.dropWhile isSpace
  let negative := t.head? == some 45
  let t := if t.head? == some 45 ∨ t.head? == some 43 then t.tail else t
  let digits := t.takeWhile isDigit
  let value : ℤ := digits.foldl (fun acc d => acc * 10 + (d.toNat - 48 : ℕ)) 0
  if digits.isEmpty then (0, cstr)
  else if negative then (max (-value) (-2 ^ 63), t.drop digits.length)
  else (min value (2 ^ 63 - 1), t.drop digits.length)

/-- The non-empty `/`-separated components of an address, at most seven: the
    scan of `parse_ip4_tcp_text` stops once `parts` is full. -/
def addressParts (text : Bytes) : List Bytes :=
  ((text.splitOn 47).filter (· ≠ [])).take 7

/-- `parse_ip4_tcp_text` (`types.cpp:21-60`). -/
def parseIp4TcpText (text : Bytes) : Result Ip4TcpEndpoint :=
  let parts := addressParts text
  let part := fun i => parts.getD i []
  if (parts.length ≠ 4 ∧ parts.length ≠ 6) ∨ part 0 ≠ ascii "ip4" ∨ part 2 ≠ ascii "tcp" then
    .error "only /ip4/<addr>/tcp/<port>[/p2p/<peer-id>] is supported"
  else
    let (port, portEnd) := strtol (part 3)
    if portEnd ≠ [] ∨ port < 0 ∨ port > 65535 then .error "invalid tcp port"
    else if parts.length = 6 then
      if part 4 ≠ ascii "p2p" ∨ part 5 = [] then .error "invalid p2p peer id"
      else .ok ⟨part 1, UInt16.ofNat port.toNat, some (part 5)⟩
    else .ok ⟨part 1, UInt16.ofNat port.toNat, none⟩

/-- `Multiaddr::parse_ip4_tcp` (`types.cpp:186-188`). -/
def Multiaddr.parseIp4Tcp (addr : Multiaddr) : Result Ip4TcpEndpoint := parseIp4TcpText addr.bytes

/-! ## Base58 -/

/-- `kBase58Alphabet`. -/
def base58Alphabet : Bytes := ascii "123456789ABCDEFGHJKLMNPQRSTUVWXYZabcdefghijkmnopqrstuvwxyz"

/-- `base58_value`. -/
def base58Value (c : UInt8) : Option UInt8 :=
  if base58Alphabet.idxOf c < base58Alphabet.length then
    some (UInt8.ofNat (base58Alphabet.idxOf c)) else none

/-- One pass of the inner `for` loop of both directions: multiply the
    little-endian `digits` (in base `outBase`) by `inBase` and add `carry`, then
    `while (carry > 0)` push the remaining digits. The carry is a `uint32_t`. -/
def mulAddDigits (inBase outBase : ℕ) : ℕ → Bytes → Bytes
  | carry, [] => (Nat.digits outBase carry).map UInt8.ofNat
  | carry, d :: ds =>
    let carry := (carry + d.toNat * inBase) % 2 ^ 32
    UInt8.ofNat (carry % outBase) :: mulAddDigits inBase outBase (carry / outBase) ds

/-- `encode_base58` (`types.cpp:68-98`). -/
def encodeBase58 (data : Bytes) : Bytes :=
  let zeroes := (data.takeWhile (· = 0)).length
  let digits := data.foldl (fun ds b => mulAddDigits 256 58 b.toNat ds) []
  let out := List.replicate zeroes 49 ++ digits.reverse.map fun d => base58Alphabet.getD d.toNat 0
  if out.isEmpty then [49] else out

/-- The digit loop of `decode_base58`. -/
def decodeBase58Digits (bytes : Bytes) : Bytes → Result Bytes
  | [] => .ok bytes
  | ch :: rest =>
    match base58Value ch with
    | none => .error "invalid base58 peer id"
    | some value => decodeBase58Digits (mulAddDigits 58 256 value.toNat bytes) rest

/-- `decode_base58` (`types.cpp:100-132`). -/
def decodeBase58 (text : Bytes) : Result Bytes := do
  let zeroes := (text.takeWhile (· = 49)).length
  let bytes ← decodeBase58Digits [] text
  pure (List.replicate zeroes 0 ++ bytes.reverse)

/-! ## `PeerId` -/

/-- `kEd25519PublicKeyPrefix`. -/
def ed25519PublicKeyPrefix : Bytes := [0x08, 0x01, 0x12, 0x20]

/-- `PeerId::to_string` (`types.cpp:138-145`). -/
def PeerId.toString (p : PeerId) : Bytes :=
  encodeBase58 ([0x00, 36] ++ ed25519PublicKeyPrefix ++ p.bytes.toList)

/-- `PeerId::from_string` (`types.cpp:153-172`). -/
def PeerId.fromString (text : Bytes) : Result PeerId := do
  let bytes ← decodeBase58 text
  if bytes.length ≠ 38 then throw "invalid peer id payload"
  if bytes.getD 0 0 ≠ 0x00 ∨ bytes.getD 1 0 ≠ 36 then throw "unsupported peer id multihash"
  if (bytes.drop 2).take 4 ≠ ed25519PublicKeyPrefix then throw "unsupported peer id key type"
  pure ⟨copyN 32 (bytes.drop 6)⟩

end PeerCore
