import Any2Api.Sse.Interpreter
import Any2Api.Stream.Guarantees
import Any2Api.Bridge.InputForms
import Any2Api.Bridge.StreamShape
import Any2Api.Bridge.NameBijection
import Any2Api.Runtime.Affinity.Leases
import Any2Api.Runtime.Affinity.Continuations
import Any2Api.Runtime.Credential.PermitRuns
import Any2Api.Runtime.GatewayApiKey.RateLimit
import Any2Api.Runtime.Routing.Admission
import Any2Api.Runtime.Routing.WakeWorker
import Any2Api.Runtime.Health.AttemptRuns
import Any2Api.Runtime.Health.CircuitRaces
import Any2Api.Runtime.Health.PathRegistry
import Any2Api.Runtime.PublicRequest.RetryRuns
import Any2Api.Runtime.PublicRequest.SessionWaits
import Any2Api.Runtime.PublicRequest.TierScan
import Any2Api.Runtime.Health.WakeRuns
import Any2Api.Runtime.OAuth.RefreshTurns
import Any2Api.Runtime.OAuth.RefreshRejections
import Any2Api.Runtime.Telemetry.QuotaFence
import Any2Api.Runtime.Lifecycle.Shutdowns
import Any2Api.Runtime.Configuration.Publications
import Any2Api.Updater.RecoveryRuns
import Any2Api.Server.ClientAddress
