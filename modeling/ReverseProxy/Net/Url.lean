import ReverseProxy.Net.Address
import ReverseProxy.Net.Domain

/-!
# URLs

`Url.parse` reads a URL the lenient way that browsers do: blanks at the ends, tabs and line breaks
do not count, backslashes stand for slashes where the scheme is a well-known one, and missing
slashes are made up for. Of what it reads, scheme, host and port are kept.
-/

namespace ReverseProxy.Net

inductive Host
  /-- A domain in its normal form, or the opaque host of an unknown scheme. -/
  | domain (name : String)
  | ip (address : IpAddr)
deriving DecidableEq, Repr

/-- Why a text is no URL. -/
inductive UrlError
  | emptyHost
  | invalidPort
  | invalidIpv4
  | invalidIpv6
  | invalidDomain
  | invalidDomainCharacter
  | noScheme
deriving DecidableEq, Repr

def UrlError.message : UrlError → String
  | emptyHost => "empty host"
  | invalidPort => "invalid port number"
  | invalidIpv4 => "invalid IPv4 address"
  | invalidIpv6 => "invalid IPv6 address"
  | invalidDomain => "invalid international domain name"
  | invalidDomainCharacter => "invalid domain character"
  | noScheme => "relative URL without a base"

/-- Scheme, host and port of a URL. A port that is the scheme's own is left out. -/
structure Url where
  scheme : String
  host : Option Host
  port : Option Nat
deriving DecidableEq, Repr

/-! ## Hosts -/

/-- Replaces `%` with two hexadecimal digits by the byte they spell, anything else by its bytes. -/
def percentDecode : List Char → List UInt8
  | [] => []
  | '%' :: a :: b :: cs =>
    match Text.hexValue? a, Text.hexValue? b with
    | some x, some y => (x * 16 + y).toUInt8 :: percentDecode cs
    | _, _ => '%'.toUInt8 :: percentDecode (a :: b :: cs)
  | c :: cs => String.utf8EncodeChar c ++ percentDecode cs

/-- A number of a dotted address: in base 16 after `0x`, in base 8 after `0`, else in base 10. -/
def dottedNumber? (cs : List Char) : Option Nat :=
  match cs with
  | [] => none
  | ['0', 'x'] | ['0', 'X'] => some 0
  | '0' :: 'x' :: r | '0' :: 'X' :: r => Text.ofDigits? 16 r
  | '0' :: c :: r => Text.ofDigits? 8 (c :: r)
  | cs => Text.ofDigits? 10 cs

/-- The parts of a domain between dots, without the empty one after a last dot. -/
def dottedParts (cs : List Char) : List (List Char) :=
  let ps := Text.splitAtChar '.' cs
  if ps.getLast? = some [] then ps.dropLast else ps

/-- Whether the last part of a domain is a number, so that it has to be an address. -/
def endsInNumber (cs : List Char) : Bool :=
  match (dottedParts cs).getLast? with
  | none => false
  | some last => (!last.isEmpty && last.all Text.isDigit) || (dottedNumber? last).isSome

/-- The address spelled by one to four numbers, the last of which fills the remaining octets. -/
def dottedAddress? (cs : List Char) : Option IpAddr := do
  let ns ← (dottedParts cs).mapM dottedNumber?
  let last ← ns.getLast?
  let heads := ns.dropLast
  let room := Nat.pow 256 (4 - heads.length)
  if ns.length > 4 || heads.any (· > 255) || last ≥ room then none
  else some (.ofNat (heads.foldl (fun n h => n * 256 + h) 0 * room + last))

/-- An address in brackets, after the opening one. -/
def bracketed (cs : List Char) : Except UrlError Host :=
  if cs.getLast? = some ']' then
    match readV6 cs.dropLast with
    | some (address, []) => .ok (.ip address)
    | _ => .error .invalidIpv6
  else .error .invalidIpv6

def Host.parse (cs : List Char) : Except UrlError Host :=
  match cs with
  | '[' :: r => bracketed r
  | cs =>
    match (String.fromUTF8? ⟨(percentDecode cs).toArray⟩).bind fun s => Domain.normalize? s.toList with
    | none => .error .invalidDomain
    | some [] => .error .emptyHost
    | some name =>
      if endsInNumber name then
        match dottedAddress? name with
        | some address => .ok (.ip address)
        | none => .error .invalidIpv4
      else .ok (.domain (String.ofList name))

def Host.parseOpaque (cs : List Char) : Except UrlError Host :=
  match cs with
  | '[' :: r => bracketed r
  | cs =>
    if cs.any fun c => c ∈ ['\x00', '\t', '\n', '\r', ' ', '#', '/', ':', '<', '>', '?', '@', '[',
        '\\', ']', '^', '|'] then .error .invalidDomainCharacter
    else .ok (.domain (String.ofList cs))

/-! ## Parts -/

def defaultPort? : String → Option Nat
  | "http" | "ws" => some 80
  | "https" | "wss" => some 443
  | "ftp" => some 21
  | _ => none

/-- Drops blanks and controls at both ends, and tabs and line breaks everywhere. -/
def urlChars (s : String) : List Char :=
  let cs := s.toList.dropWhile (· ≤ ' ')
  let cs := (cs.reverse.dropWhile (· ≤ ' ')).reverse
  cs.filter fun c => c ≠ '\t' && c ≠ '\n' && c ≠ '\r'

def readScheme (cs : List Char) : Option (String × List Char) :=
  let name := cs.takeWhile fun c => c.isAlphanum || c = '+' || c = '-' || c = '.'
  match name.head?, cs.drop name.length with
  | some c, ':' :: r =>
    if c.isAlpha then some (String.ofList (name.map Char.toLower), r) else none
  | _, _ => none

/-- Characters that end the authority. Backslashes do so only for well-known schemes. -/
def endsAuthority (known : Bool) (c : Char) : Bool :=
  c = '/' || c = '?' || c = '#' || (known && c = '\\')

/-- What follows the last `@` of an authority, with what precedes it. -/
def splitUser (authority : List Char) : Option (List Char) × List Char :=
  if '@' ∈ authority then
    let r := authority.reverse
    (some ((r.dropWhile (· ≠ '@')).drop 1).reverse, (r.takeWhile (· ≠ '@')).reverse)
  else (none, authority)

/-- Splits host and port at the first colon outside brackets. -/
def splitHost (inside : Bool) : List Char → List Char × List Char
  | [] => ([], [])
  | c :: cs =>
    if c = ':' && !inside then ([], c :: cs)
    else
      let (h, r) := splitHost (if c = '[' then true else if c = ']' then false else inside) cs
      (c :: h, r)

/-- The port that a text after the host names, if any. A backslash ends it. -/
def parsePort (scheme : String) : List Char → Except UrlError (Option Nat)
  | ':' :: cs =>
    let cs := cs.takeWhile (· ≠ '\\')
    if cs.isEmpty then .ok none
    else match (Text.ofDigits? 10 cs).filter (· < 65536) with
      | none => .error .invalidPort
      | some n => .ok (if defaultPort? scheme = some n then none else some n)
  | _ => .ok none

def parseAuthority (scheme : String) (known : Bool) (cs : List Char) : Except UrlError Url := do
  let (user, rest) := splitUser (cs.takeWhile (!endsAuthority known ·))
  let (host, port) := splitHost false rest
  if host.isEmpty then
    let named := user.any fun u => u ≠ [] && u ≠ [':']
    if known || user = some [] && rest.isEmpty && cs.length > 1 || !port.isEmpty || named then
      throw .emptyHost
    else return ⟨scheme, some (.domain ""), none⟩
  else
    let host ← if known then Host.parse host else Host.parseOpaque host
    return ⟨scheme, some host, ← parsePort scheme port⟩

def isDrive : List Char → Bool
  | [c, d] => c.isAlpha && (d = ':' || d = '|')
  | _ => false

def parseFile (cs : List Char) : Except UrlError Url :=
  match cs with
  | a :: b :: r =>
    if (a = '/' || a = '\\') && (b = '/' || b = '\\') then
      let host := r.takeWhile (!endsAuthority true ·)
      if host.isEmpty || isDrive host then .ok ⟨"file", none, none⟩
      else (Host.parse host).map fun h =>
        ⟨"file", if h = .domain "localhost" then none else some h, none⟩
    else .ok ⟨"file", none, none⟩
  | _ => .ok ⟨"file", none, none⟩

def Url.parse (s : String) : Except UrlError Url :=
  match readScheme (urlChars s) with
  | none => .error .noScheme
  | some (scheme, cs) =>
    if scheme = "file" then parseFile cs
    else if (defaultPort? scheme).isSome then
      parseAuthority scheme true (cs.dropWhile fun c => c = '/' || c = '\\')
    else match cs with
      | '/' :: '/' :: r => parseAuthority scheme false r
      | _ => .ok ⟨scheme, none, none⟩

end ReverseProxy.Net
