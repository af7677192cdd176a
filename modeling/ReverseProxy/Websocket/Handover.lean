import ReverseProxy.Http.Message
import ReverseProxy.Websocket.Relay

/-!
# Handing connections over

A request for an upgrade goes to its backend over a connection of its own. Whatever the backend
answers is the answer; if it agrees to switch protocols, the two connections are handed to a relay.
-/

namespace ReverseProxy.Websocket

/-- What a request for an upgrade comes to at its backend. -/
inductive Attempt
  | unreachable
  /-- The backend gives no answer. -/
  | unanswered
  /-- The backend answers; some bytes may follow its answer at once. -/
  | answered (r : Http.Response) (early : List UInt8)
deriving DecidableEq

/-- The request as it is sent over a connection to the backend alone, which needs no authority. -/
def originForm (r : Http.Request) : Http.Request :=
  match Http.Uri.parse (r.uri.pathAndQuery?.getD "/") with
  | .ok uri => { r with uri }
  | .error _ => r

def cannotConnect : Http.Response := .text .unavailable "couldn't connect to backend server"

def failed : Http.Response := .text .unavailable "Error processing request."

def switches (r : Http.Response) : Bool := r.status.code = 101

def Attempt.conclude : Attempt → Http.Response × Option Relay
  | unreachable => (cannotConnect, none)
  | unanswered => (failed, none)
  | answered r early =>
    if switches r then ({ r with body := [] }, some (.start early)) else (r, none)

end ReverseProxy.Websocket
