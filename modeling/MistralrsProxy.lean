import MistralrsProxy.AuditOrder
import MistralrsProxy.AuditRecord
import MistralrsProxy.BackendCli
import MistralrsProxy.BackendLease
import MistralrsProxy.BackendStateFile
import MistralrsProxy.ControlCertify
import MistralrsProxy.ControlEndpoint
import MistralrsProxy.ControlWatch
import MistralrsProxy.KeyValidators
import MistralrsProxy.LogsPercentile
import MistralrsProxy.LogsTuiViews
import MistralrsProxy.ManageRuns
import MistralrsProxy.ProxyBody
import MistralrsProxy.ProxyExchange
import MistralrsProxy.RegistrationKeys
import MistralrsProxy.RoutingProbes
import MistralrsProxy.RoutingScore
import MistralrsProxy.RoutingTies
import MistralrsProxy.ServeProgress
import MistralrsProxy.TelemetryRender
import MistralrsProxy.Timestamp
import MistralrsProxy.UsageBodies
