import Conduit.Auth.Acl
import Conduit.Auth.Authenticator
import Conduit.Connect.Profiles
import Conduit.Governance.Runtime
import Conduit.Guardrails.Evaluator
import Conduit.Identity.Runtime
import Conduit.RateLimit.Types

namespace Conduit

structure ConnectConfig where
  profiles : Option (List Connect.ConnectProfileConfig) := none

structure ConduitGatewayConfig where
  router : RouterConfig := {}
  servers : List ServerConfig
  cache : CacheConfig := {}
  tenantIsolation : TenantIsolationConfig := {}
  auth : Option Auth.AuthConfig := none
  acl : Option Auth.AclConfig := none
  rateLimits : Option RateLimit.RateLimitConfig := none
  connect : Option ConnectConfig := none
  identity : Option Identity.IdentityConfig := none
  governance : Option Governance.GovernanceConfig := none
  guardrails : Option Guardrails.GuardrailsConfig := none

namespace ConduitGatewayConfig

variable (config : ConduitGatewayConfig)

def server? (serverId : String) : Option ServerConfig :=
  config.servers.find? fun s => s.id = serverId

def resolveConnectProfile (profileId : String) : Option Connect.ResolvedConnectProfile :=
  Connect.resolveConnectProfile config.servers ((config.connect.bind (·.profiles)).getD []) profileId

variable {config}

end ConduitGatewayConfig

end Conduit
