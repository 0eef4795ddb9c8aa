import K8s4Claw.Sdk.Replay
import K8s4Claw.Sdk.Reconnect
import K8s4Claw.Sdk.Reader
import K8s4Claw.IpcBus.WalLimit
import K8s4Claw.IpcBus.Registration
import K8s4Claw.IpcBus.Retry
import K8s4Claw.Backpressure.Agreement
import K8s4Claw.AutoUpdate.Forward
import K8s4Claw.AutoUpdate.Rollback
import K8s4Claw.AutoUpdate.HealthCheck
import K8s4Claw.Ops.ReplayProtection
import K8s4Claw.IpcBus.Survival
import K8s4Claw.IpcBus.Isolation
import K8s4Claw.IpcBus.ReplayOrder
import K8s4Claw.IpcBus.Shutdown
import K8s4Claw.IpcBus.StreamBridge
import K8s4Claw.Sdk.Throttle
import K8s4Claw.Sdk.Sending
import K8s4Claw.Sdk.Order
import K8s4Claw.Sdk.Closing
import K8s4Claw.Sdk.Unframed
import K8s4Claw.Operator.Ownership
import K8s4Claw.Operator.Resources
import K8s4Claw.IpcBus.ShutdownCommand
import K8s4Claw.Ops.Budget
import K8s4Claw.Ops.Tenants
import K8s4Claw.IpcBus.RingBufferRuns
import K8s4Claw.IpcBus.DeadLetterRuns
import K8s4Claw.IpcBus.WalFailures
import K8s4Claw.IpcBus.Forwarding
import K8s4Claw.IpcBus.SseBridge
import K8s4Claw.AutoUpdate.BestVersion
import K8s4Claw.Operator.ConfigMerge
import K8s4Claw.Operator.SecretHash
import K8s4Claw.Signet.Receipts
import K8s4Claw.Ops.Proposals
import K8s4Claw.Ops.Retention
import K8s4Claw.Operator.Snapshots
import K8s4Claw.Operator.ChannelStatus
import K8s4Claw.Slack.Inbound
import K8s4Claw.Kubectl.Arguments
import K8s4Claw.Ops.Rejection
import K8s4Claw.Ops.ControllerEngine
