import ReverseProxy.Http.Headers
import ReverseProxy.Http.Uri

/-!
# Messages

Requests and responses with their bodies.
-/

namespace ReverseProxy.Http

/-- The name of a method: a non-empty token. -/
structure Method where
  chars : List Char
  token : chars ≠ [] ∧ chars.all isTokenChar = true
deriving DecidableEq

namespace Method

def ofChars? (cs : List Char) : Option Method :=
  if h : cs ≠ [] ∧ cs.all isTokenChar = true then some ⟨cs, h⟩ else none

def toText (m : Method) : String := String.ofList m.chars

def get : Method := ⟨"GET".toList, by decide⟩
def head : Method := ⟨"HEAD".toList, by decide⟩
def connect : Method := ⟨"CONNECT".toList, by decide⟩

end Method

inductive Version
  | http10 | http11 | http2
deriving DecidableEq, Repr

namespace Version

def name : Version → String
  | http10 => "HTTP/1.0"
  | http11 => "HTTP/1.1"
  | http2 => "HTTP/2.0"

def ofName? : String → Option Version
  | "HTTP/1.0" => some http10
  | "HTTP/1.1" => some http11
  | "HTTP/2.0" => some http2
  | _ => none

end Version

structure Status where
  code : Nat
  three : 100 ≤ code ∧ code < 1000
deriving DecidableEq, Repr

namespace Status

def ofNat? (n : Nat) : Option Status := if h : 100 ≤ n ∧ n < 1000 then some ⟨n, h⟩ else none

def ok : Status := ⟨200, by decide⟩
def notFound : Status := ⟨404, by decide⟩
def internalError : Status := ⟨500, by decide⟩
def unavailable : Status := ⟨503, by decide⟩

def isSuccess (s : Status) : Bool := s.code / 100 = 2

def isServerError (s : Status) : Bool := s.code / 100 = 5

end Status

structure Request where
  method : Method
  uri : Uri
  version : Version
  headers : Headers
  body : List UInt8
deriving DecidableEq

structure Response where
  status : Status
  headers : Headers
  body : List UInt8
deriving DecidableEq

namespace Response

def bytesOf (s : String) : List UInt8 := s.toList.flatMap String.utf8EncodeChar

def plainText : FieldValue := ⟨bytesOf "text/plain; charset=utf-8", by decide⟩

def text (status : Status) (s : String) : Response :=
  { status, headers := Headers.empty.set .contentType plainText, body := bytesOf s }

end Response

end ReverseProxy.Http
