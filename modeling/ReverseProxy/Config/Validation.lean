import ReverseProxy.Config.Settings
import ReverseProxy.Duration.Human
import ReverseProxy.Net.Listen

/-!
# Validation of settings

`Settings.problems` lists everything that is wrong with settings, `Settings.validate` accepts
settings without problems, and `Settings.validateReload` accepts settings that may replace others
while the proxy runs. The host to listen on is looked up each time.
-/

namespace ReverseProxy

/-- One thing that is wrong with settings. -/
inductive Problem
  | missingField (field : String)
  | invalidField (field message : String)
  | invalidBind (address : String) (reason : Net.ListenError)
  | invalidTls (missing : String)
deriving DecidableEq, Repr

def Problem.message : Problem → String
  | missingField field => "Missing required field: " ++ field
  | invalidField field message => "Invalid field '" ++ field ++ "': " ++ message
  | invalidBind address reason =>
    "Invalid bind address '" ++ address ++ "': " ++ reason.message
  | invalidTls missing =>
    "Invalid TLS configuration: HTTPS requested, but no '" ++ missing ++ "' specified"

inductive ValidationError
  | failed (problems : List Problem)
  | fixedChange (field : Settings.Fixed)
deriving DecidableEq, Repr

namespace ValidationError

def numbered : Nat → List Problem → String
  | _, [] => ""
  | i, p :: ps => "  " ++ Text.decimal i ++ ". " ++ p.message ++ "\n" ++ numbered (i + 1) ps

/-- A single problem stands for itself; several are counted and numbered. -/
def listing : List Problem → String
  | [p] => p.message
  | ps => "Found " ++ Text.decimal ps.length ++ " validation errors:\n" ++ numbered 1 ps

def message : ValidationError → String
  | failed ps => "Validation failed: " ++ listing ps
  | fixedChange f =>
    "cannot modify '" ++ f.key ++ "' while server is running. restart to apply."

end ValidationError

namespace BackendSettings

def zeroProblem (isZero : Bool) (field : String) : List Problem :=
  if isZero then [.invalidField field "cannot be 0"] else []

def problems (s : BackendSettings) : List Problem :=
  (if Duration.oneSecond.nanos < s.probeTimeout.nanos then
    [.invalidField "health-check-timeout"
      ("'" ++ Duration.Human.format s.probeTimeout ++ "' cannot be longer than '1s'")]
  else zeroProblem s.probeTimeout.isZero "health-check-timeout") ++
  zeroProblem s.dialTimeout.isZero "dial-timeout" ++
  zeroProblem (s.latencySpan = 0) "latency-average-seconds" ++
  (match s.newHostHealthPath.toList with
    | [] | '/' :: _ => []
    | _ => [.invalidField "new-host-health-path" "must start with '/'"])

end BackendSettings

namespace Settings

def listenAddress (s : Settings) (names : Net.Names := .none) :
    Except Net.ListenError Net.SocketAddr :=
  Net.listenAddress s.bind names

/-- What is wrong with settings apart from the address to listen on. -/
def otherProblems (s : Settings) : List Problem :=
  (if s.https && s.certificate.isNone then [.invalidTls "tls-cert-file"] else []) ++
  (if s.https && s.privateKey.isNone then [.invalidTls "tls-key-file"] else []) ++
  (if s.inventoryFile.text = "" then [.missingField "inventory-file"] else []) ++
  BackendSettings.zeroProblem s.shutdownTimeout.isZero "shutdown-timeout" ++
  s.backend.problems

def problems (s : Settings) (names : Net.Names := .none) : List Problem :=
  (match s.listenAddress names with
    | .ok _ => []
    | .error e => [.invalidBind s.bind e]) ++
  s.otherProblems

def validate (s : Settings) (names : Net.Names := .none) : Except ValidationError Unit :=
  if (s.problems names).isEmpty then .ok () else .error (.failed (s.problems names))

def validateReload (current next : Settings) (names : Net.Names := .none) :
    Except ValidationError Unit := do
  next.validate names
  match current.fixedChange? next with
  | some f => .error (.fixedChange f)
  | none => .ok ()

end Settings

end ReverseProxy
