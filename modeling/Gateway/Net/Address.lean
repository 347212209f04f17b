import Gateway.Text.Digits
/-!
# Network addresses

Addresses of both families, and socket addresses: an address with a port, and for the wide family an
optional zone. The readers follow the strict textual forms: four decimal parts without leading
zeros, or groups of up to four hexadecimal digits of which one run of zeros may be left out and
whose last two may be written as a dotted address. The printer always chooses the shortest form.
-/

namespace Gateway

/-- An address of four bytes. -/
structure Ipv4 where
  a : UInt8
  b : UInt8
  c : UInt8
  d : UInt8
deriving DecidableEq, Repr

/-- An address of eight groups of sixteen bits. -/
structure Ipv6 where
  groups : Vector UInt16 8
deriving DecidableEq, Repr

/-- An address of either family. -/
inductive IpAddress where
  | v4 (a : Ipv4)
  | v6 (a : Ipv6)
deriving DecidableEq, Repr

/-- An address with a port; `zone` is zero for the narrow family. -/
structure SocketAddress where
  ip : IpAddress
  port : UInt16
  zone : UInt32
deriving DecidableEq, Repr

namespace Net

/-! ### Readers

A reader takes the text from some point on and yields what it read and the rest. -/

/-- Reads a numeral below `limit` in a base; `width` bounds the number of digits if given. -/
def number? (base : Nat) (width : Option Nat) (limit : Nat) (s : List Char) :
    Option (Nat × List Char) :=
  let ds := s.takeWhile (Text.isDigitOf base)
  match Text.value? base ds with
  | some n =>
    if n < limit ∧ (width.all fun w => ds.length ≤ w) then
      some (n, s.dropWhile (Text.isDigitOf base))
    else none
  | none => none

/-- Reads a given character. -/
def expect? (c : Char) (s : List Char) : Option (List Char) := Text.afterStart [c] s

/-- Reads one part of a dotted address: up to three digits without a leading zero. -/
def octet? (s : List Char) : Option (UInt8 × List Char) :=
  match number? 10 (some 3) 256 s with
  | some (n, r) =>
    if s.head? = some '0' ∧ (s.drop 1).head?.any Char.isDigit then none else some (n.toUInt8, r)
  | none => none

/-- Reads a dotted address. -/
def ipv4? (s : List Char) : Option (Ipv4 × List Char) := do
  let (a, s) ← octet? s
  let (b, s) ← octet? (← expect? '.' s)
  let (c, s) ← octet? (← expect? '.' s)
  let (d, s) ← octet? (← expect? '.' s)
  return (⟨a, b, c, d⟩, s)

/-- The two groups of a dotted address. -/
def Ipv4.groups (ip : Ipv4) : List Nat :=
  [ip.a.toNat * 256 + ip.b.toNat, ip.c.toNat * 256 + ip.d.toNat]

/-- Reads up to `room` groups with colons between them, the last two perhaps as a dotted address.
Yields the groups, whether they end in a dotted address, and the rest. -/
def groupRun : Nat → Bool → List Char → List Nat × Bool × List Char
  | 0, _, s => ([], false, s)
  | room + 1, isFirst, s =>
    match if isFirst then some s else expect? ':' s with
    | none => ([], false, s)
    | some t =>
      match if 1 ≤ room then ipv4? t else none with
      | some (ip, r) => (Ipv4.groups ip, true, r)
      | none =>
        match number? 16 (some 4) 65536 t with
        | some (g, r) =>
          let (gs, dotted, q) := groupRun room false r
          (g :: gs, dotted, q)
        | none => ([], false, s)

/-- The address of a list of groups, filled up with zeros. -/
def ofGroups (gs : List Nat) : Ipv6 := ⟨Vector.ofFn fun i => (gs[i.val]?.getD 0).toUInt16⟩

/-- Reads an address of groups. -/
def ipv6? (s : List Char) : Option (Ipv6 × List Char) :=
  let (head, dotted, r) := groupRun 8 true s
  if head.length = 8 then some (ofGroups head, r)
  else if dotted then none
  else do
    let r ← expect? ':' (← expect? ':' r)
    let (tail, _, q) := groupRun (7 - head.length) true r
    return (ofGroups (head ++ List.replicate (8 - head.length - tail.length) 0 ++ tail), q)

/-- Reads a colon and a port. -/
def port? (s : List Char) : Option (UInt16 × List Char) := do
  let (n, r) ← number? 10 none 65536 (← expect? ':' s)
  return (n.toUInt16, r)

/-- Reads an optional zone. -/
def zone (s : List Char) : UInt32 × List Char :=
  match (expect? '%' s).bind (number? 10 none (1 <<< 32)) with
  | some (n, r) => (n.toUInt32, r)
  | none => (0, s)

/-- Reads a socket address with a bracketed address of groups. -/
def bracketed? (s : List Char) : Option (SocketAddress × List Char) := do
  let (ip, s) ← ipv6? (← expect? '[' s)
  let (scope, s) := zone s
  let (port, s) ← port? (← expect? ']' s)
  return (⟨.v6 ip, port, scope⟩, s)

/-- Reads a socket address with a dotted address. -/
def dotted? (s : List Char) : Option (SocketAddress × List Char) := do
  let (ip, s) ← ipv4? s
  let (port, s) ← port? s
  return (⟨.v4 ip, port, 0⟩, s)

/-- What a reader read, if it read the whole text. -/
def whole? {α : Type} : Option (α × List Char) → Option α
  | some (a, []) => some a
  | _ => none

/-! ### Printing -/

/-- The length of the run of zeros at the start. -/
def zeroRun (gs : List UInt16) : Nat := (gs.takeWhile (· = 0)).length

/-- The longest run of zeros: its position and length. The first one wins. -/
def longestZeros : List UInt16 → Nat × Nat
  | [] => (0, 0)
  | g :: gs =>
    let here := zeroRun (g :: gs)
    let (i, n) := longestZeros gs
    if n ≤ here then (0, here) else (i + 1, n)

/-- Groups with colons between them. -/
def colonSeparated (gs : List UInt16) : List Char :=
  Text.join [':'] (gs.map fun g => Text.hex g.toNat)

/-- Groups with the longest run of at least two zeros left out. -/
def shortest (gs : List UInt16) : List Char :=
  let (i, n) := longestZeros gs
  if 2 ≤ n then colonSeparated (gs.take i) ++ [':', ':'] ++ colonSeparated (gs.drop (i + n))
  else colonSeparated gs

end Net

/-- The text of a dotted address. -/
def Ipv4.text (ip : Ipv4) : List Char :=
  Text.join ['.'] ([ip.a, ip.b, ip.c, ip.d].map fun p => Text.decimal p.toNat)

/-- The shortest text in groups. -/
def Ipv6.shortest (ip : Ipv6) : List Char := Net.shortest ip.groups.toList

/-- The dotted address that an address of groups stands for, if it is a mapped one. -/
def Ipv6.mapped? (ip : Ipv6) : Option Ipv4 :=
  match ip.groups.toList with
  | [0, 0, 0, 0, 0, 0xffff, x, y] =>
    some ⟨(x.toNat / 256).toUInt8, (x.toNat % 256).toUInt8,
      (y.toNat / 256).toUInt8, (y.toNat % 256).toUInt8⟩
  | _ => none

/-- The text of an address of groups: a mapped one shows its dotted part. -/
def Ipv6.text (ip : Ipv6) : List Char :=
  match ip.mapped? with
  | some v4 => [':', ':', 'f', 'f', 'f', 'f', ':'] ++ v4.text
  | none => ip.shortest

/-- The text of an address. -/
def IpAddress.text : IpAddress → String
  | .v4 ip => String.ofList ip.text
  | .v6 ip => String.ofList ip.text

/-- Whether an address names this machine: a loopback address or the one that stands for all. -/
def IpAddress.isLocal : IpAddress → Bool
  | .v4 ip => ip.a = 127 || ip = ⟨0, 0, 0, 0⟩
  | .v6 ip =>
    match ip.mapped? with
    | some inner => inner.a = 127 || inner = ⟨0, 0, 0, 0⟩
    | none => ip = Net.ofGroups [] || ip = Net.ofGroups [0, 0, 0, 0, 0, 0, 0, 1]

namespace SocketAddress

/-- The socket address of a text. -/
def parse? (s : String) : Option SocketAddress :=
  match Net.whole? (Net.dotted? s.toList) with
  | some a => some a
  | none => Net.whole? (Net.bracketed? s.toList)

/-- The text of a socket address. -/
def text (a : SocketAddress) : String :=
  let port := [':'] ++ Text.decimal a.port.toNat
  match a.ip with
  | .v4 ip => String.ofList (ip.text ++ port)
  | .v6 ip =>
    let zone := if a.zone = 0 then [] else ['%'] ++ Text.decimal a.zone.toNat
    String.ofList (['['] ++ ip.text ++ zone ++ [']'] ++ port)

end SocketAddress

end Gateway
