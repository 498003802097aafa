import Declaragent.Audit.Writers
import Declaragent.Events.PinnedSessions
import Declaragent.Rpc.Redelivery
import Declaragent.Events.Recovery
import Declaragent.Events.Attempts
import Declaragent.Events.ConcurrentRequeue
import Declaragent.Sources.CommitOrder
import Declaragent.Permission.Escalation
import Declaragent.Channels.Send
import Declaragent.Events.TargetBreaker
import Declaragent.Sources.PauseControl
import Declaragent.Sources.BusPressure
import Declaragent.Events.Mailbox
import Declaragent.Audit.ExportTimers
import Declaragent.Events.DaemonReload
import Declaragent.Session.Reopen
import Declaragent.Hooks.Registry
import Declaragent.Sources.ReplayDispatch
import Declaragent.Sources.TransportKeys
import Declaragent.Sources.RetryBudget
import Declaragent.Rpc.AtLeastOnce
import Declaragent.Rpc.Subscriptions
import Declaragent.ControlPlane.Server
import Declaragent.ControlPlane.Routes
import Declaragent.Mcp.OneLive
import Declaragent.Mcp.Calls
import Declaragent.Mcp.StdioClient
import Declaragent.Observability.LogTail
import Declaragent.Fleet.History
import Declaragent.Builder.Executions
import Declaragent.Tools.Memory
import Declaragent.Tenancy.EraseSubject
import Declaragent.Sources.WebhookAuth
import Declaragent.Sources.WebhookServer
import Declaragent.Channels.InboundBridge
import Declaragent.Channels.Renderers
import Declaragent.Channels.Replies
import Declaragent.Channels.LiveTransport
import Declaragent.Cli.PasteBuffer
import Declaragent.Tools.Edit
import Declaragent.Fleet.Environments
import Declaragent.Fleet.LogsStream
import Declaragent.Daemon.ControlClient
import Declaragent.Channels.OutboundBridge
import Declaragent.Events.Frame
import Declaragent.Builder.SecretGuard
import Declaragent.Sources.FileWatch
import Declaragent.Fleet.PromoteEffects
import Declaragent.Rpc.MqttTopics
import Declaragent.Builder.Scope
import Declaragent.Mcp.StreamableHttp
import Declaragent.Rpc.OidcAuth
import Declaragent.Sources.Cron
import Declaragent.Observability.LogsRoute
import Declaragent.Providers.OpenAICompat
import Declaragent.Observability.Prometheus
import Declaragent.Providers.RateLimit
import Declaragent.Channels.OutboundRateLimiter
import Declaragent.Events.BreakerLog
import Declaragent.Events.Concurrency
import Declaragent.Channels.SessionId
import Declaragent.Channels.SendCache
import Declaragent.Events.FilterPath
import Declaragent.Channels.Splitter
import Declaragent.Channels.Telegram
