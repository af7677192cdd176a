import ReverseProxy.Main
import ReverseProxy.Reload.Live
import ReverseProxy.Http.Client
import ReverseProxy.Simulation
import ReverseProxy.Websocket.Handover
import ReverseProxy.Proofs.Backend.Accounting
import ReverseProxy.Proofs.Inventory.Registry
import ReverseProxy.Proofs.Reload.Coherence
import ReverseProxy.Proofs.Shutdown.Saves
import ReverseProxy.Proofs.Backend.Health
import ReverseProxy.Proofs.Fleet.Monitors
import ReverseProxy.Proofs.Reload.Monitors
import ReverseProxy.Proofs.Reload.Transaction
import ReverseProxy.Proofs.Balancer.Selection
import ReverseProxy.Proofs.Fleet.Standing
import ReverseProxy.Proofs.Proxy.Session
import ReverseProxy.Proofs.Proxy.Changes
import ReverseProxy.Proofs.Proxy.Journeys
import ReverseProxy.Proofs.Proxy.Requests
import ReverseProxy.Proofs.Inventory.Session
import ReverseProxy.Proofs.Fleet.Closed
import ReverseProxy.Proofs.Watch.Reports
import ReverseProxy.Proofs.Reload.Convergence
import ReverseProxy.Proofs.Fleet.Verdicts
import ReverseProxy.Proofs.Shutdown.Wakeups
import ReverseProxy.Proofs.Balancer.Choice
import ReverseProxy.Proofs.Balancer.Fairness
import ReverseProxy.Proofs.Http.Target
import ReverseProxy.Proofs.Http.Upgrade
import ReverseProxy.Proofs.Backend.Cycles
import ReverseProxy.Proofs.Backend.Probing
import ReverseProxy.Proofs.Droplet.Started
import ReverseProxy.Proofs.Config.Document
import ReverseProxy.Proofs.Watch.Operations
import ReverseProxy.Proofs.CommandLine.Validation
import ReverseProxy.Proofs.Droplet.Provisioned
import ReverseProxy.Proofs.Shutdown.StageTimeline
import ReverseProxy.Proofs.Average
import ReverseProxy.Proofs.Balancer.Evenness
import ReverseProxy.Proofs.Websocket.Tunnel
