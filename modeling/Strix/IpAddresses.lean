import Strix.RustText

/-!
# Internet addresses

Addresses as `std::net::IpAddr` reads and prints them: four decimal octets
without leading zeros, or up to eight groups of hexadecimal digits with at most
one `::` and possibly a trailing dotted quad.  `IpAddr.parse` follows the
standard library's recursive-descent parser, `IpAddr.toString` its `Display`.
-/

namespace Strix

/-- `std::net::IpAddr`, an address as its bits. -/
inductive IpAddr
  | v4 (bits : BitVec 32)
  | v6 (bits : BitVec 128)
  deriving DecidableEq, Repr

namespace IpAddr

/-- `read_number`: at most `maxDigits` digits of a number below `bound`. -/
def readNumber (radix maxDigits bound : Nat) (allowZeroPrefix : Bool) (cs : List Char) :
    Option (Nat × List Char) :=
  let (digits, rest) := readDigits radix cs
  let value := ofDigits radix digits
  if digits.length = 0 ∨ maxDigits < digits.length then none
  else if allowZeroPrefix = false ∧ digits.head? = some 0 ∧ 1 < digits.length then none
  else if value < bound then some (value, rest)
  else none

/-- `read_separator`: every element but the first follows the separator. -/
def readSeparator {α : Type} (separator : Char) (index : Nat)
    (inner : List Char → Option (α × List Char)) (cs : List Char) : Option (α × List Char) :=
  if 0 < index then
    match cs with
    | c :: rest => if c = separator then inner rest else none
    | [] => none
  else inner cs

/-- `read_ipv4_addr`. -/
def readIpv4 (cs : List Char) : Option (List Nat × List Char) := do
  let (first, cs) ← readSeparator '.' 0 (readNumber 10 3 256 false) cs
  let (second, cs) ← readSeparator '.' 1 (readNumber 10 3 256 false) cs
  let (third, cs) ← readSeparator '.' 2 (readNumber 10 3 256 false) cs
  let (fourth, cs) ← readSeparator '.' 3 (readNumber 10 3 256 false) cs
  some ([first, second, third, fourth], cs)

/-- `read_groups`: up to `slots` groups, and whether a dotted quad ended them. -/
def readGroups : Nat → Nat → List Char → List Nat × Bool × List Char
  | 0, _, cs => ([], false, cs)
  | slots + 1, index, cs =>
    match if 0 < slots then readSeparator ':' index readIpv4 cs else none with
    | some (octets, rest) =>
      ([ofDigits 256 (octets.take 2), ofDigits 256 (octets.drop 2)], true, rest)
    | none =>
      match readSeparator ':' index (readNumber 16 4 65536 true) cs with
      | some (group, rest) =>
        let (groups, quad, rest) := readGroups slots (index + 1) rest
        (group :: groups, quad, rest)
      | none => ([], false, cs)

/-- `read_ipv6_addr`. -/
def readIpv6 (cs : List Char) : Option (List Nat × List Char) :=
  let (head, headQuad, rest) := readGroups 8 0 cs
  if head.length = 8 then some (head, rest)
  else if headQuad then none
  else
    match rest with
    | ':' :: ':' :: rest =>
      let limit := 8 - (head.length + 1)
      let (tail, _, rest) := readGroups limit 0 rest
      some (head ++ List.replicate (8 - tail.length - head.length) 0 ++ tail, rest)
    | _ => none

/-- `str::parse::<IpAddr>`: the whole text is one address. -/
def parse (text : String) : Option IpAddr :=
  match readIpv4 text.toList with
  | some (octets, rest) =>
    if rest.isEmpty then some (.v4 (BitVec.ofNat 32 (ofDigits 256 octets))) else none
  | none =>
    match readIpv6 text.toList with
    | some (groups, rest) =>
      if rest.isEmpty then some (.v6 (BitVec.ofNat 128 (ofDigits 65536 groups))) else none
    | none => none

/-- The value's digits in a radix, the highest first. -/
def digitsOf (radix : Nat) : Nat → Nat → List Nat
  | 0, _ => []
  | width + 1, value => digitsOf radix width (value / radix) ++ [value % radix]

/-- `Display for Ipv4Addr`. -/
def showIpv4 (value : Nat) : String :=
  ".".intercalate ((digitsOf 256 4 value).map toString)

/-- A group in lower-case hexadecimal without leading zeros. -/
def showGroup (group : Nat) : String :=
  String.ofList (Nat.toDigits 16 group)

/-- The first longest run of zero groups: where it starts and how long it is. -/
def longestZeroRun (groups : List Nat) : Nat × Nat :=
  let step (state : Nat × (Nat × Nat) × (Nat × Nat)) (group : Nat) :=
    let (index, current, longest) := state
    if group = 0 then
      let current := (if current.2 = 0 then index else current.1, current.2 + 1)
      (index + 1, current, if longest.2 < current.2 then current else longest)
    else (index + 1, (0, 0), longest)
  (groups.foldl step (0, (0, 0), (0, 0))).2.2

/-- `Display for Ipv6Addr`. -/
def showIpv6 (value : Nat) : String :=
  let groups := digitsOf 65536 8 value
  if groups.take 6 = [0, 0, 0, 0, 0, 65535] then
    "::ffff:" ++ showIpv4 (value % 2 ^ 32)
  else
    let (start, length) := longestZeroRun groups
    let shown (part : List Nat) := ":".intercalate (part.map showGroup)
    if 1 < length then
      shown (groups.take start) ++ "::" ++ shown (groups.drop (start + length))
    else shown groups

/-- `Display for IpAddr`. -/
protected def toString : IpAddr → String
  | v4 bits => showIpv4 bits.toNat
  | v6 bits => showIpv6 bits.toNat

end IpAddr

/-- `ip_matches_cidr`. -/
def ipMatchesCidr (ip : IpAddr) (cidr : String) : Bool :=
  match splitOnce '/' cidr with
  | some (network, prefixLen) =>
    match parseUnsigned 8 prefixLen with
    | none => false
    | some len =>
      match ip, IpAddr.parse network with
      | .v4 ip, some (.v4 network) =>
        if 32 < len then false
        else
          let mask : BitVec 32 := if len = 0 then 0 else BitVec.allOnes 32 <<< (32 - len)
          ip &&& mask == network &&& mask
      | .v6 ip, some (.v6 network) =>
        if 128 < len then false
        else
          let mask : BitVec 128 := if len = 0 then 0 else BitVec.allOnes 128 <<< (128 - len)
          ip &&& mask == network &&& mask
      | _, _ => false
  | none => ip.toString == cidr

end Strix
