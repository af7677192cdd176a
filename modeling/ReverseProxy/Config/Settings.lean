import ReverseProxy.Duration
import ReverseProxy.Files.Path

/-!
# Settings

The settings of the proxy and, as a section of their own, those of its backends. Every setting has
a default, so that a file names only what differs.
-/

namespace ReverseProxy

/-- How a backend is chosen for a request. -/
inductive Strategy
  /-- Healthy backends in turn, in the order of the inventory. -/
  | roundRobin
  /-- The healthy backend with the fewest requests in flight. -/
  | leastConnections
  | lowestLatency
deriving DecidableEq, Repr, Inhabited

namespace Strategy

def name : Strategy → String
  | roundRobin => "roundrobin"
  | leastConnections => "leastconn"
  | lowestLatency => "lowestlatency"

def ofName? : String → Option Strategy
  | "roundrobin" => some roundRobin
  | "leastconn" => some leastConnections
  | "lowestlatency" => some lowestLatency
  | _ => none

theorem ofName?_name (s : Strategy) : ofName? s.name = some s := by cases s <;> rfl

end Strategy

structure BackendSettings where
  dialTimeout : Duration := ⟨2000000000, by decide⟩
  latencySpan : UInt64 := 30
  /-- The longest time that one health probe may take. -/
  probeTimeout : Duration := ⟨250000000, by decide⟩
  newHostPort : UInt16 := 80
  newHostHealthPath : String := "/"
  newHostHealthHttps : Bool := false
  /-- Whether backends go unmonitored and so count as healthy. -/
  unmonitored : Bool := false
deriving DecidableEq, Inhabited

structure Settings where
  /-- The address to listen on; `:8080` stands for `0.0.0.0:8080`. -/
  bind : String := ":80"
  https : Bool := false
  certificate : Option FilePath := none
  privateKey : Option FilePath := none
  /-- Whether the client's address is appended to `X-Forwarded-For`. -/
  addForwardedFor : Bool := true
  watchConfig : Bool := true
  strategy : Strategy := .roundRobin
  inventoryFile : FilePath := ⟨"inventory.toml"⟩
  backend : BackendSettings := {}
  /-- The longest time that each wait of a shutdown may take. -/
  shutdownTimeout : Duration := ⟨5000000000, by decide⟩
deriving DecidableEq, Inhabited

namespace Settings

/-- The settings that may not change while the proxy runs. -/
inductive Fixed
  | watchConfig | bind | https | certificate | privateKey
deriving DecidableEq, Repr

def Fixed.key : Fixed → String
  | watchConfig => "watch-config"
  | bind => "bind"
  | https => "https"
  | certificate => "tls-cert-file"
  | privateKey => "tls-key-file"

def fixedChange? (current next : Settings) : Option Fixed :=
  if current.watchConfig ≠ next.watchConfig then some .watchConfig
  else if current.bind ≠ next.bind then some .bind
  else if current.https ≠ next.https then some .https
  else if !FilePath.sameOption current.certificate next.certificate then some .certificate
  else if !FilePath.sameOption current.privateKey next.privateKey then some .privateKey
  else none

def needsNewBackends (current next : Settings) : Bool :=
  !current.inventoryFile.same next.inventoryFile || current.strategy ≠ next.strategy ||
    current.backend ≠ next.backend

end Settings

end ReverseProxy
