import ReverseProxy.Http.Message
import ReverseProxy.Http.Upgrade
import ReverseProxy.Net.Address

/-!
# Requests as they are forwarded

A forwarded request goes to the host of the backend with the path and query it came with. Headers
that concern one hop only are left out, except for upgrades, and the address of the client is added
to `X-Forwarded-For` if wanted.
-/

namespace ReverseProxy.Http

/-- The headers that concern one hop only. -/
def hopByHop : List FieldName :=
  [.connection, .keepAlive, .proxyConnection, .proxyAuthenticate, .proxyAuthorization, .te,
    .trailer, .transferEncoding, .upgrade]

namespace Headers

/-- The headers that `Connection` nominates as concerning one hop only. -/
def nominated (h : Headers) : List FieldName :=
  (h.listElements .connection).filterMap FieldName.ofChars?

def removeAll (h : Headers) (ns : List FieldName) : Headers := ns.foldl remove h

/-- Removes all headers that concern one hop only. -/
def stripHopByHop (h : Headers) : Headers := (h.removeAll h.nominated).removeAll hopByHop

def addressValue? (ip : Net.IpAddr) : Option FieldValue :=
  FieldValue.ofBytes? (ip.print.map fun c => c.toNat.toUInt8)

/-- Folds the values of `X-Forwarded-For` and an address after them into one value. -/
def appendForwardedFor (h : Headers) (ip : Net.IpAddr) : Headers :=
  match addressValue? ip with
  | none => h
  | some own =>
    h.set .forwardedFor
      ((h.getAll .forwardedFor).foldr (fun v w => v.join w) own)

end Headers

namespace Request

def targetAt (r : Request) (host : String) : Except UriError Uri :=
  Uri.parse ("http://" ++ host ++ r.uri.pathAndQuery?.getD "/")

def forwardedHeaders (r : Request) (upgrade : Bool) (peer : Option Net.IpAddr) : Headers :=
  let h := if upgrade then r.headers else r.headers.stripHopByHop
  match peer with
  | some ip => h.appendForwardedFor ip
  | none => h

/-- The request as it is forwarded to a host. `peer` is the address to add to `X-Forwarded-For`. -/
def forwardedTo (r : Request) (host : String) (peer : Option Net.IpAddr) :
    Except UriError Request := do
  let uri ← r.targetAt host
  return { r with
    uri, version := .http11
    headers := r.forwardedHeaders r.headers.asksForWebsocket peer }

end Request

end ReverseProxy.Http
