import ReverseProxy.Config.Settings
import ReverseProxy.Time.Timestamp
import ReverseProxy.Text.Decimal

/-!
# Droplets

A droplet is a provisioned server as it is recorded in the inventory file.
-/

namespace ReverseProxy

structure Droplet where
  id : Int64
  name : String
  privateIp : String
  publicIp : Option String
  /-- The `host:port` that requests are forwarded to. -/
  serverHost : String
  /-- Empty if the droplet counts as healthy without probes. -/
  healthUrl : String
  startedTime : Option Time.Timestamp
deriving DecidableEq

namespace Droplet

/-- The descriptor of a server just provisioned: host and health URL follow from its private
address and the settings for new hosts. -/
def provisioned (id : Int64) (name privateIp : String) (publicIp : Option String)
    (started : Time.Timestamp) (settings : BackendSettings) : Droplet :=
  let serverHost := privateIp ++ ":" ++ Text.decimal settings.newHostPort.toNat
  let scheme := if settings.newHostHealthHttps then "https" else "http"
  { id, name, privateIp, publicIp, serverHost
    healthUrl := scheme ++ "://" ++ serverHost ++ settings.newHostHealthPath
    startedTime := some started }

end Droplet

end ReverseProxy
