import Conduit.Config.Types

namespace Conduit.Discovery

structure DiscoveredServer where
  id : String
  url : String
  transport : Option TransportType := none
  command : Option String := none
  args : Option (List String) := none
deriving DecidableEq

structure Registration where
  server : DiscoveredServer
  lastSeen : ℕ

structure HttpRegistryBackend where
  registrations : OrderedMap String Registration := .empty
  staleTimeoutMs : ℕ

namespace HttpRegistryBackend

variable (B : HttpRegistryBackend)

def register (server : DiscoveredServer) (now : ℕ) : HttpRegistryBackend :=
  { B with registrations := B.registrations.set server.id { server, lastSeen := now } }

def deregister (serverId : String) : HttpRegistryBackend :=
  { B with registrations := B.registrations.delete serverId }

def stale (now : ℕ) (reg : Registration) : Bool := B.staleTimeoutMs < now - reg.lastSeen

def alive (now : ℕ) : List DiscoveredServer :=
  (B.registrations.values.filter fun reg => !B.stale now reg).map Registration.server

-- what the poll leaves, besides the servers it answers
def poll (now : ℕ) : HttpRegistryBackend :=
  let expired := B.registrations.entries.filter fun e => B.stale now e.2
  { B with registrations := (expired.map Prod.fst).foldl .delete B.registrations }

end HttpRegistryBackend

structure SrvRecord where
  name : String
  port : ℕ

def srvToServer (record : SrvRecord) : DiscoveredServer where
  id := "dns-" ++ record.name ++ "-" ++ toString record.port
  url := "http://" ++ record.name ++ ":" ++ toString record.port ++ "/mcp"
  transport := some .http

-- DnsDiscoveryBackend.poll; `none` when the lookup fails
def dnsPoll : Option (List SrvRecord) → List DiscoveredServer
  | some records => records.map srvToServer
  | none => []

end Conduit.Discovery
