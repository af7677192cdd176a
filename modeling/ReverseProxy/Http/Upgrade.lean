import ReverseProxy.Http.Headers

/-!
# Websocket upgrades

A request asks for an upgrade in two headers: `Connection` names the upgrade among its elements and
`Upgrade` names the protocol.
-/

namespace ReverseProxy.Http

def Headers.asksForWebsocket (h : Headers) : Bool :=
  (h.listElements .connection).any (Text.sameLetters · ['u', 'p', 'g', 'r', 'a', 'd', 'e']) &&
    (h.get? .upgrade).any fun v =>
      v.ascii?.any fun cs =>
        Text.sameLetters (Text.trim cs) ['w', 'e', 'b', 's', 'o', 'c', 'k', 'e', 't']

end ReverseProxy.Http
