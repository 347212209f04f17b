import Gateway.Net.Address
import Gateway.Text.Hidden
import Gateway.Url.Percent
import Gateway.Url.Punycode
/-!
# Hosts

A host is a name or an address. Under the schemes of the web a name is brought into its wire form:
escapes are undone, letters are made small, characters that only look different are unified and a
label beyond ASCII is written in Punycode; a name whose last label is a number must then be a dotted
address, of which each part may be decimal, octal or hexadecimal and the last may cover several
bytes. Under any other scheme a name is kept as it is, apart from escapes.

The tables of characters cover the letters of some scripts and the marks that are common in names,
and not all of Unicode: of other characters beyond ASCII some are let through or left as they are
that a full table would refuse or unify.
-/

namespace Gateway.Url

/-- Why a reference is refused. -/
inductive Refusal where
  | emptyHost
  | illegalName
  | illegalPort
  | illegalIpv4
  | illegalIpv6
  | illegalHostChar
  | relativeWithoutBase
  | relativeToOpaque
deriving DecidableEq, Repr

/-- The text of a refusal. -/
def Refusal.text : Refusal → String
  | emptyHost => "empty host"
  | illegalName => "invalid international domain name"
  | illegalPort => "invalid port number"
  | illegalIpv4 => "invalid IPv4 address"
  | illegalIpv6 => "invalid IPv6 address"
  | illegalHostChar => "invalid domain character"
  | relativeWithoutBase => "relative URL without a base"
  | relativeToOpaque => "relative URL with a cannot-be-a-base base"

/-- A host. -/
inductive Host where
  | name (s : List Char)
  | v4 (ip : Ipv4)
  | v6 (ip : Ipv6)
deriving DecidableEq, Repr

/-- The text of a host. -/
def Host.text : Host → List Char
  | name s => s
  | v4 ip => ip.text
  | v6 ip => ['['] ++ ip.shortest ++ [']']

/-! ### Dotted addresses -/

/-- The base and the digits of one part of a dotted address. -/
def partDigits : List Char → Nat × List Char
  | '0' :: 'x' :: r => (16, r)
  | '0' :: 'X' :: r => (16, r)
  | '0' :: c :: r => (8, c :: r)
  | s => (10, s)

/-- The number of one part of a dotted address; a mark for the base without digits is zero. -/
def partValue? (s : List Char) : Option Nat :=
  if s.isEmpty then none
  else
    let (base, ds) := partDigits s
    if ds.isEmpty then some 0 else Text.value? base ds

/-- The labels of a name, without an empty last one. -/
def labelsOf (s : List Char) : List (List Char) :=
  let parts := Text.split '.' s
  if parts.getLast? = some [] then parts.dropLast else parts

/-- Whether the last label of a name is a number, so that the name must be a dotted address. -/
def endsInNumber (s : List Char) : Bool :=
  match (labelsOf s).getLast? with
  | some l => (!l.isEmpty && l.all Char.isDigit) || (partValue? l).isSome
  | none => false

/-- The dotted address of a name: every part but the last is a byte, and the last one covers the
remaining bytes. -/
def dottedValue? (s : List Char) : Option Nat := do
  let parts ← (labelsOf s).mapM partValue?
  let last ← parts.getLast?
  let leading := parts.dropLast
  if 4 < parts.length || leading.any (255 < ·) || 1 <<< (8 * (4 - leading.length)) ≤ last then none
  else
    return leading.zipIdx.foldl (fun acc p => acc + p.1 <<< (8 * (3 - p.2))) last

/-- The address with a given value. -/
def ipv4OfValue (n : Nat) : Ipv4 :=
  ⟨(n >>> 24).toUInt8, (n >>> 16 % 256).toUInt8, (n >>> 8 % 256).toUInt8, (n % 256).toUInt8⟩

/-! ### Names -/

/-- Whether a character of ASCII must not stand in a name. -/
def isForbidden (c : Char) : Bool :=
  isAsciiControl c ||
    [' ', '#', '%', '/', ':', '<', '>', '?', '@', '[', '\\', ']', '^', '|'].contains c

/-- Ranges of characters beyond ASCII that must not stand in a name: controls, separators, marks of
direction, characters for private use and characters without meaning. -/
def refusedRanges : List (Nat × Nat) := [
  (0x80, 0xA0), (0x61C, 0x61C), (0x1680, 0x1680), (0x2000, 0x200A), (0x200C, 0x200F),
  (0x2028, 0x202F), (0x205F, 0x205F), (0x2066, 0x206F), (0x2FF0, 0x2FFF), (0x3000, 0x3000),
  (0xD800, 0xF8FF), (0xFDD0, 0xFDEF), (0xFFF9, 0xFFFF), (0xE0000, 0xE00FF), (0xE01F0, 0x10FFFF)]

/-- Ranges of characters beyond ASCII that stand for several others, of which one is a blank or a
delimiter, so that they must not stand in a name either. -/
def compoundRanges : List (Nat × Nat) := [
  (0xA8, 0xA8), (0xAF, 0xAF), (0xB4, 0xB4), (0xB8, 0xB8), (0x2D8, 0x2DD), (0x37A, 0x37A),
  (0x384, 0x385), (0x1FBD, 0x1FBD), (0x1FBF, 0x1FC1), (0x1FCD, 0x1FCF), (0x1FDD, 0x1FDF),
  (0x1FED, 0x1FEE), (0x1FFD, 0x1FFE), (0x2017, 0x2017), (0x203E, 0x203E), (0x2047, 0x2049),
  (0x2100, 0x2101), (0x2105, 0x2106), (0x2A74, 0x2A74), (0x309B, 0x309C), (0xFC5E, 0xFC63),
  (0xFDFA, 0xFDFB), (0xFE13, 0xFE13), (0xFE16, 0xFE16), (0xFE47, 0xFE4C), (0xFE55, 0xFE56),
  (0xFE5F, 0xFE5F), (0xFE64, 0xFE65), (0xFE68, 0xFE68), (0xFE6A, 0xFE6B), (0xFE70, 0xFE70),
  (0xFE72, 0xFE72), (0xFE74, 0xFE74), (0xFE76, 0xFE76), (0xFE78, 0xFE78), (0xFE7A, 0xFE7A),
  (0xFE7C, 0xFE7C), (0xFE7E, 0xFE7E), (0xFFE3, 0xFFE3)]

/-- Whether a number lies in one of several ranges. -/
def inRanges (rs : List (Nat × Nat)) (n : Nat) : Bool := rs.any fun r => r.1 ≤ n && n ≤ r.2

/-- Characters that are dropped from a name. -/
def droppedRanges : List (Nat × Nat) := [
  (0xAD, 0xAD), (0x34F, 0x34F), (0x180B, 0x180F), (0x200B, 0x200B), (0x2060, 0x2060),
  (0x2064, 0x2064), (0xFE00, 0xFE0F), (0xFEFF, 0xFEFF), (0xE0100, 0xE01EF)]

/-- The code of the unified form of a character: small instead of capital, plain instead of wide. -/
def unifiedCode (n : Nat) : Nat :=
  if 0x41 ≤ n ∧ n ≤ 0x5A then n + 0x20
  else if 0xC0 ≤ n ∧ n ≤ 0xDE ∧ n ≠ 0xD7 then n + 0x20
  else if 0x391 ≤ n ∧ n ≤ 0x3A9 then n + 0x20
  else if 0x400 ≤ n ∧ n ≤ 0x40F then n + 0x50
  else if 0x410 ≤ n ∧ n ≤ 0x42F then n + 0x20
  else if n = 0x3002 ∨ n = 0xFF61 then 0x2E
  else if 0xFF21 ≤ n ∧ n ≤ 0xFF3A then n - 0xFF21 + 0x61
  else if 0xFF01 ≤ n ∧ n ≤ 0xFF5E then n - 0xFF01 + 0x21
  else n

/-- The unified form of a character, if it is not dropped. -/
def unified? (c : Char) : Option Char :=
  if inRanges droppedRanges c.toNat then none else some (Char.ofNat (unifiedCode c.toNat))

/-- Whether a character may stand in a unified name. -/
def isNameChar (c : Char) : Bool :=
  !isForbidden c && !inRanges refusedRanges c.toNat && !inRanges compoundRanges c.toNat

/-- Whether a label is plain ASCII. -/
def isAscii (s : List Char) : Bool := s.all fun c => c.toNat < 0x80

/-- Whether a label begins with a mark that attaches to the character before it. -/
def beginsAttached (s : List Char) : Bool := s.head?.any fun c => 0x80 ≤ c.toNat && Text.isHidden c

/-- The mark of a label in Punycode. -/
def punycodeMark : List Char := ['x', 'n', '-', '-']

/-- Whether a label read from Punycode could have been written so: something beyond ASCII, and
nothing that unifying would change. -/
def isDecodedLabel (s : List Char) : Bool :=
  !isAscii s && !beginsAttached s && s.all fun c => isNameChar c && unified? c == some c

/-- The wire form of a unified label. -/
def wireLabel? (s : List Char) : Option (List Char) :=
  match Text.afterStart punycodeMark s with
  | some r =>
    if isAscii s && (Punycode.decode? r).any isDecodedLabel then some s else none
  | none =>
    if beginsAttached s then none
    else some (if isAscii s then s else punycodeMark ++ Punycode.encode s)

/-- The wire form of a name. -/
def wireName? (s : List Char) : Option (List Char) :=
  let s := s.filterMap unified?
  if s.all isNameChar then
    ((Text.split '.' s).mapM wireLabel?).map (Text.join ['.'])
  else none

/-! ### Hosts -/

/-- The host between brackets, if a text is one. -/
def bracketedHost? (s : List Char) : Except Refusal Host :=
  match s.getLast? with
  | some ']' =>
    match Net.whole? (Net.ipv6? (s.drop 1).dropLast) with
    | some ip => .ok (.v6 ip)
    | none => .error .illegalIpv6
  | _ => .error .illegalIpv6

/-- The host that a text names under a scheme of the web. -/
def webHost (s : List Char) : Except Refusal Host :=
  if s.head? = some '[' then bracketedHost? s
  else
    match (Utf8.decode? (unescape (Utf8.encode s))).bind wireName? with
    | none => .error .illegalName
    | some [] => .error .emptyHost
    | some name =>
      if endsInNumber name then
        match dottedValue? name with
        | some n => .ok (.v4 (ipv4OfValue n))
        | none => .error .illegalIpv4
      else .ok (.name name)

/-- Whether a character must not stand in the host of any scheme. -/
def isHostDelimiter (c : Char) : Bool :=
  c.toNat = 0 ||
    ['\t', '\n', '\r', ' ', '#', '/', ':', '<', '>', '?', '@', '[', '\\', ']', '^', '|'].contains c

/-- The host that a text names under another scheme. -/
def plainHost (s : List Char) : Except Refusal Host :=
  if s.head? = some '[' then bracketedHost? s
  else if s.any isHostDelimiter then .error .illegalHostChar
  else .ok (.name (escape (fun _ => false) s))

end Gateway.Url
