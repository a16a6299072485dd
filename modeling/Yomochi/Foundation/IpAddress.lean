import Yomochi.Foundation.Text

/-! `ip_address` and network membership, as Python's `ipaddress` computes them. -/

namespace Yomochi.Foundation

inductive IpVersion
  | four
  | six
  deriving DecidableEq, Repr

def IpVersion.bits : IpVersion → Nat
  | .four => 32
  | .six => 128

structure IpAddress where
  version : IpVersion
  value : Nat
  deriving DecidableEq, Repr

/-- The host bits of `value` are zero. -/
structure IpNetwork where
  version : IpVersion
  value : Nat
  prefixLength : Nat
  bounded : prefixLength ≤ version.bits
  masked : value % Nat.pow 2 (version.bits - prefixLength) = 0

def IpNetwork.contains (network : IpNetwork) (address : IpAddress) : Bool :=
  let host := Nat.pow 2 (network.version.bits - network.prefixLength)
  address.version == network.version && address.value / host * host == network.value

def parseOctet (octet : Text) : Option Nat :=
  let value := ofDigits 10 (octet.map fun c => c - '0'.toNat)
  if octet.isEmpty || !octet.all isDigit || 3 < octet.length then none
  else if octet ≠ text "0" ∧ octet.head? = some '0'.toNat then none
  else if 255 < value then none
  else some value

def parseIpv4 (address : Text) : Option Nat := do
  let octets := address.splitOn '.'.toNat
  if octets.length ≠ 4 then none
  else return ofDigits 256 (← octets.mapM parseOctet)

def parseHextet (hextet : Text) : Option Nat := do
  let digits ← hextet.mapM hexDigit
  if 4 < hextet.length ∨ hextet = [] then none else return ofDigits 16 digits

/-- Drops a scope id. An empty one, or a second percent sign, is an error. -/
def splitScopeId (source : Text) : Option Text :=
  match source.splitOn '%'.toNat with
  | [address] => some address
  | [address, scopeId] => if scopeId = [] then none else some address
  | _ => none

/-- An IPv4 address in the last part stands for two hextets. -/
def expandIpv4 (parts : List Text) : Option (List (Option Nat)) :=
  match parts.getLast? with
  | some last =>
      if '.'.toNat ∈ last then
        (parseIpv4 last).map fun value =>
          parts.dropLast.map parseHextet ++ [some (value / 65536), some (value % 65536)]
      else some (parts.map parseHextet)
  | none => none

def emptyParts (parts : List Text) : List Nat :=
  (List.range (parts.length - 1)).filter fun index =>
    decide (0 < index ∧ parts[index]? = some [])

/-- The parts before and after the `::`, and the zero hextets between them. -/
def parseIpv6Parts (parts : List Text) : Option Nat := do
  let hextets ← expandIpv4 parts
  if parts.length < 3 ∨ 9 < hextets.length then none
  else match emptyParts parts with
    | [] =>
        if hextets.length = 8 then return ofDigits 65536 (← hextets.mapM id) else none
    | [skip] => do
        let high ← if parts.head? = some [] then
          if skip = 1 then some [] else none
          else some (hextets.take skip)
        let low ← if parts.getLast? = some [] then
          if skip + 2 = hextets.length then some [] else none
          else some (hextets.drop (skip + 1))
        if 8 ≤ high.length + low.length then none
        else
          let zeros := List.replicate (8 - (high.length + low.length)) 0
          return ofDigits 65536 ((← high.mapM id) ++ zeros ++ (← low.mapM id))
    | _ => none

def parseIpv6 (source : Text) : Option Nat := do
  -- A slash is refused in the whole text, its scope id included.
  if '/'.toNat ∈ source then none
  else parseIpv6Parts ((← splitScopeId source).splitOn ':'.toNat)

/-- `none` stands for the `ValueError`. -/
def ipAddress (source : Text) : Option IpAddress :=
  match parseIpv4 source with
  | some value => some ⟨.four, value⟩
  | none => (parseIpv6 source).map fun value => ⟨.six, value⟩

example : (ipAddress (text "2001:db8::192.0.2.1")).map IpAddress.value =
    some 0x20010db80000000000000000c0000201 := by decide

example : ipAddress (text "fe80::1%a/b") = none := by decide

end Yomochi.Foundation
