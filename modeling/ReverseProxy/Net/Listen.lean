import ReverseProxy.Net.Address

/-!
# Addresses to listen on

An address to listen on is a host and a port. A host is written as an address or as a name, which
the operating system looks up; one with a port but no host listens on every interface. Numbers of an
IPv4 host may be left out or be in base 8 or 16.
-/

namespace ReverseProxy.Net

/-- A lookup of host names. What it finds may change from one lookup to the next. -/
structure Names where
  /-- The addresses of a host with their scopes, or the reason of the operating system. -/
  addresses : String → Except String (List (IpAddr × UInt32))

/-- Where only some hosts have names. -/
def Names.ofHosts (hosts : List (String × List (IpAddr × UInt32))) : Names :=
  ⟨fun host =>
    match hosts.lookup host with
    | some addresses => .ok addresses
    | none => .error "failed to lookup address information: Name or service not known"⟩

/-- Where no host has a name. -/
def Names.none : Names := .ofHosts []

/-- Why a text names no address to listen on. -/
inductive ListenError
  | noPort
  | invalidPort
  | zeroByte
  | unknownHost (reason : String)
  | noAddress (bind : String)
deriving DecidableEq, Repr

def ListenError.message : ListenError → String
  | noPort => "invalid socket address"
  | invalidPort => "invalid port value"
  | zeroByte => "file name contained an unexpected NUL byte"
  | unknownHost reason => reason
  | noAddress bind => "'" ++ bind ++ "' did not resolve to an address"

/-- A number in base 10, in base 16 after `0x`, or in base 8 after `0`. -/
def looseNumber? : List Char → Option Nat
  | '0' :: 'x' :: cs | '0' :: 'X' :: cs => Text.ofDigits? 16 cs
  | '0' :: c :: cs => Text.ofDigits? 8 (c :: cs)
  | cs => Text.ofDigits? 10 cs

/-- The value of up to four numbers, of which the last fills the remaining octets. -/
def looseValue? : Nat → List Nat → Option Nat
  | room, [n] => if n < Nat.pow 256 room then some n else none
  | room + 1, n :: ns => do
    if n < 256 && room > 0 then some (n * Nat.pow 256 room + (← looseValue? room ns)) else none
  | _, _ => none

def numericHost? (host : List Char) : Option IpAddr :=
  (do
    some (.ofNat (← looseValue? 4 (← (Text.splitAtChar '.' host).mapM looseNumber?)))) <|>
  (do
    let (ip, r) ← readV6 host
    if r.isEmpty then some ip else none)

def splitPort? (cs : List Char) : Option (List Char × List Char) :=
  let r := cs.reverse
  if ':' ∈ r then
    some (((r.dropWhile (· ≠ ':')).drop 1).reverse, (r.takeWhile (· ≠ ':')).reverse)
  else none

/-- What a text says of an address: all of it, or a host that has a name and a port. -/
inductive Endpoint
  | address (a : SocketAddr)
  | named (host : List Char) (port : UInt16)
deriving DecidableEq

def readEndpoint (s : String) : Except ListenError Endpoint :=
  match SocketAddr.parse? s with
  | some a => .ok (.address a)
  | none =>
    match splitPort? s.toList with
    | none => .error .noPort
    | some (host, port) =>
      match Text.unsigned? 65536 port with
      | none => .error .invalidPort
      | some n =>
        match numericHost? host with
        | some ip => .ok (.address ⟨ip, n.toUInt16, 0⟩)
        | none => .ok (.named host n.toUInt16)

/-- The first address that is found for a host. -/
def lookUp (s : String) (host : List Char) (names : Names) :
    Except ListenError (IpAddr × UInt32) :=
  if '\x00' ∈ host then .error .zeroByte
  else match names.addresses (String.ofList host) with
    | .ok (a :: _) => .ok a
    | .ok [] => .error (.noAddress s)
    | .error reason => .error (.unknownHost reason)

def resolve (s : String) (names : Names := .none) : Except ListenError SocketAddr :=
  match readEndpoint s with
  | .error e => .error e
  | .ok (.address a) => .ok a
  | .ok (.named host port) => (lookUp s host names).map fun a => ⟨a.1, port, a.2⟩

/-- The address to listen on: blanks at the ends do not count, and a missing host stands for every
interface. -/
def listenAddress (bind : String) (names : Names := .none) : Except ListenError SocketAddr :=
  let bind := Text.trimmed bind
  resolve (if bind.toList.head? = some ':' then "0.0.0.0" ++ bind else bind) names

end ReverseProxy.Net
