import ReverseProxy.Text.Decimal
import ReverseProxy.Text.Blank

/-!
# Internet addresses

IPv4 and IPv6 addresses and socket addresses, their readers and their written forms. An IPv6
address is written with its longest run of at least two zero groups left out.
-/

namespace ReverseProxy.Net

inductive IpAddr
  | v4 (a b c d : UInt8)
  | v6 (groups : Vector UInt16 8)
deriving DecidableEq, Repr

/-- An address with a port. The scope belongs to an IPv6 address. -/
structure SocketAddr where
  ip : IpAddr
  port : UInt16
  scope : UInt32 := 0
deriving DecidableEq, Repr

/-- The IPv4 address whose octets, from the highest, make up a number. -/
def IpAddr.ofNat (n : Nat) : IpAddr :=
  .v4 (n / 16777216).toUInt8 (n / 65536).toUInt8 (n / 256).toUInt8 n.toUInt8

/-! ## Writing -/

/-- A group in hexadecimal without leading zeros. -/
def hexGroup (g : UInt16) : List Char :=
  let n := g.toNat
  match ((Text.hexPadded 4 n).map Char.toLower).dropWhile (· = '0') with
  | [] => ['0']
  | cs => cs

def joinGroups : List UInt16 → List Char
  | [] => []
  | [g] => hexGroup g
  | g :: gs => hexGroup g ++ ':' :: joinGroups gs

def zeroRun (gs : List UInt16) : Nat := (gs.takeWhile (· = 0)).length

/-- Start and length of the longest run of zeros, the first of those equally long. -/
def longestZeros : Nat → List UInt16 → Nat × Nat
  | _, [] => (0, 0)
  | i, g :: gs =>
    let here := zeroRun (g :: gs)
    let later := longestZeros (i + 1) gs
    if later.2 ≤ here then (i, here) else later

def printV4 (a b c d : UInt8) : List Char :=
  Text.digits a.toNat ++ '.' :: Text.digits b.toNat ++ '.' :: Text.digits c.toNat ++
    '.' :: Text.digits d.toNat

def printV6 (gs : List UInt16) : List Char :=
  match gs with
  | [0, 0, 0, 0, 0, 0xffff, g, h] =>
    [':', ':', 'f', 'f', 'f', 'f', ':'] ++ printV4 (g >>> 8).toUInt8 g.toUInt8 (h >>> 8).toUInt8 h.toUInt8
  | gs =>
    let (start, len) := longestZeros 0 gs
    if len > 1 then
      joinGroups (gs.take start) ++ ':' :: ':' :: joinGroups (gs.drop (start + len))
    else joinGroups gs

def IpAddr.print : IpAddr → List Char
  | .v4 a b c d => printV4 a b c d
  | .v6 gs => printV6 gs.toList

def IpAddr.toText (ip : IpAddr) : String := String.ofList ip.print

def SocketAddr.toText (s : SocketAddr) : String :=
  match s.ip with
  | .v4 .. => s.ip.toText ++ ":" ++ Text.decimal s.port.toNat
  | .v6 _ =>
    let scope := if s.scope = 0 then "" else "%" ++ Text.decimal s.scope.toNat
    "[" ++ s.ip.toText ++ scope ++ "]:" ++ Text.decimal s.port.toNat

/-! ## Reading -/

/-- Reads a number below `limit` of at most `most` digits. -/
def readNumber (base most limit : Nat) (cs : List Char) : Option (Nat × List Char) := do
  let ds := cs.takeWhile fun c => (Text.digitValue? base c).isSome
  let n ← Text.ofDigits? base ds
  if ds.length ≤ most && n < limit then some (n, cs.drop ds.length) else none

/-- Reads one part of a dotted address: up to three digits, and no zero before others. -/
def readOctet (cs : List Char) : Option (UInt8 × List Char) := do
  let (n, r) ← readNumber 10 3 256 cs
  if cs.head? = some '0' && (cs.drop 1).head?.any Text.isDigit then none
  else some (n.toUInt8, r)

def expect (c : Char) : List Char → Option (List Char)
  | d :: cs => if c = d then some cs else none
  | [] => none

def readV4 (cs : List Char) : Option ((UInt8 × UInt8 × UInt8 × UInt8) × List Char) := do
  let (a, cs) ← readOctet cs
  let (b, cs) ← readOctet (← expect '.' cs)
  let (c, cs) ← readOctet (← expect '.' cs)
  let (d, cs) ← readOctet (← expect '.' cs)
  some ((a, b, c, d), cs)

/-- The two groups that an embedded IPv4 address stands for. -/
def groupsOfV4 : UInt8 × UInt8 × UInt8 × UInt8 → List UInt16
  | (a, b, c, d) =>
    [a.toUInt16 * 256 + b.toUInt16, c.toUInt16 * 256 + d.toUInt16]

/-- Reads up to `limit` groups. Only the first has no colon before it; an IPv4 address may stand
for the last two. The flag says whether one did. -/
def readGroups (first : Bool) : Nat → List Char → (List UInt16 × Bool) × List Char
  | 0, cs => (([], false), cs)
  | limit + 1, cs =>
    match if first then some cs else expect ':' cs with
    | none => (([], false), cs)
    | some body =>
      match if limit = 0 then none else readV4 body with
      | some (v4, r) => ((groupsOfV4 v4, true), r)
      | none =>
        match readNumber 16 4 65536 body with
        | none => (([], false), cs)
        | some (g, r) =>
          let ((gs, v4), r) := readGroups false limit r
          ((g.toUInt16 :: gs, v4), r)

def ofGroups? (gs : List UInt16) : Option IpAddr :=
  if h : gs.toArray.size = 8 then some (.v6 ⟨gs.toArray, h⟩) else none

def readV6 (cs : List Char) : Option (IpAddr × List Char) := do
  let ((head, v4), r) := readGroups true 8 cs
  if head.length = 8 then (ofGroups? head).map (·, r)
  else if v4 then none
  else
    let r ← expect ':' (← expect ':' r)
    let ((tail, _), r) := readGroups true (7 - head.length) r
    let zeros := List.replicate (8 - head.length - tail.length) 0
    (ofGroups? (head ++ zeros ++ tail)).map (·, r)

def readPort (cs : List Char) : Option (UInt16 × List Char) :=
  (readNumber 10 cs.length 65536 cs).map fun (n, r) => (n.toUInt16, r)

def SocketAddr.parse? (s : String) : Option SocketAddr :=
  let cs := s.toList
  (do
    let ((a, b, c, d), cs) ← readV4 cs
    let (port, cs) ← readPort (← expect ':' cs)
    if cs.isEmpty then some ⟨.v4 a b c d, port, 0⟩ else none) <|>
  (do
    let (ip, cs) ← readV6 (← expect '[' cs)
    let (scope, cs) ← match cs with
      | '%' :: cs => readNumber 10 cs.length 4294967296 cs
      | cs => some (0, cs)
    let (port, cs) ← readPort (← expect ':' (← expect ']' cs))
    if cs.isEmpty then some ⟨ip, port, scope.toUInt32⟩ else none)

end ReverseProxy.Net
