import ReverseProxy.Http.Outcome

/-!
# Requests to servers

The client sends requests over a network, which is a function from requests to replies. It names
the host if the request does not, and sends nothing whose target names no server. A probe asks for
a page and looks at the status alone.
-/

namespace ReverseProxy.Http

/-- Why a request that was sent has no answer. -/
inductive SendFailure
  /-- The target names no server. -/
  | noServer
  /-- There is no connection to the server. -/
  | unreachable
  /-- The connection broke, or what came over it was no answer. -/
  | broken
deriving DecidableEq, Repr

def SendFailure.message : SendFailure → String
  | noServer => "client error (UserAbsoluteUriRequired)"
  | unreachable => "client error (Connect)"
  | broken => "client error (SendRequest)"

/-- What comes back over a network, and after what time. -/
structure Reply where
  after : Duration
  result : Except SendFailure Response

/-- A network: what it replies to a request. -/
abbrev Network := Request → Reply

/-- A network on which no server can be reached. -/
def Network.deserted : Network := fun _ => ⟨.zero, .error .unreachable⟩

namespace Client

def probeAgent : FieldValue := ⟨Response.bytesOf "droplet-proxy health checker", by decide⟩

/-- Whether a request can be sent anywhere: its target is absolute, or it asks for a tunnel to an
authority. -/
def hasServer (r : Request) : Bool :=
  r.uri.authority.isSome && (r.uri.scheme.isSome || r.method = .connect)

def transmit (net : Network) (r : Request) : Reply :=
  if hasServer r then net r else ⟨.zero, .error .noServer⟩

/-- Names the host that the target names, unless the request names one. -/
def nameHost (r : Request) : Except ClientError Request :=
  if r.headers.contains .host then .ok r
  else match r.uri.authority with
    | none => .error (.invalidRequest ("Outgoing URI has no host: " ++ r.uri.toText))
    | some authority =>
      match FieldValue.ofBytes? (Response.bytesOf authority) with
      | none => .error (.invalidRequest "failed to parse header value")
      | some v => .ok { r with headers := r.headers.set .host v }

/-- Sends a request on to a server. How an answer was framed is left out: whoever passes it on frames
it anew. -/
def send (net : Network) (r : Request) : Outcome Response := do
  let r ← nameHost r
  match (transmit net { r with version := .http11 }).result with
  | .ok a => return { a with headers := a.headers.remove .transferEncoding }
  | .error e => throw (.connection
      ("Request to " ++ r.method.toText ++ " " ++ r.uri.toText ++ " failed: " ++ e.message))

def probeRequest (url : String) : Except ClientError Request :=
  match Uri.parse url with
  | .error e => .error (.invalidRequest e.message)
  | .ok uri => .ok
      { method := .get, uri, version := .http11
        headers := Headers.empty.set .userAgent probeAgent, body := [] }

/-- Probes a page. The answer must have come in full within the limit. -/
def probe (net : Network) (url : String) (limit : Duration) : Outcome Status := do
  let reply := transmit net (← probeRequest url)
  if limit.nanos < reply.after.nanos then throw (.timeout limit)
  match reply.result with
  | .ok a => return a.status
  | .error e => throw (.connection e.message)

end Client

end ReverseProxy.Http
