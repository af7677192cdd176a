import ReverseProxy.Duration.Brief
import ReverseProxy.Http.Message

/-!
# Outcomes of requests to backends

A request to a backend ends in an answer or in an error of the client that sent it. Errors and
answers with a server error count as failures of the backend.
-/

namespace ReverseProxy.Http

/-- Why there is no answer. -/
inductive ClientError
  | connection (reason : String)
  | timeout (after : Duration)
  | invalidRequest (reason : String)
deriving DecidableEq

def ClientError.message : ClientError → String
  | connection reason => "Connection error: " ++ reason
  | timeout d => "Timeout error after " ++ d.brief
  | invalidRequest reason => "Invalid request: " ++ reason

/-- What a request came to: an answer, of which only the status matters to the backend's record, or
an error. -/
abbrev Outcome (α : Type) := Except ClientError α

/-- Whether an outcome counts as a failure of the backend. -/
def isFailure : Outcome Status → Bool
  | .ok s => s.isServerError
  | .error _ => true

end ReverseProxy.Http
