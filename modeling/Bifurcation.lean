import Bifurcation.Lib.Outcome
import Bifurcation.Lib.Table
import Bifurcation.Lib.Growth
import Bifurcation.Lib.Text
import Bifurcation.Lib.Utf8
import Bifurcation.Lib.ValidUtf8
import Bifurcation.Lib.Sha256
import Bifurcation.Lib.Protobuf
import Bifurcation.Lib.Json
import Bifurcation.Lib.JsonRoundTrip
import Bifurcation.Lib.JsonMap
import Bifurcation.Lib.Interruptible
import Bifurcation.Lib.DepthFirst
import Bifurcation.Lib.Interleaving
import Bifurcation.Lib.Javascript
import Bifurcation.Lib.JsLiterals
import Bifurcation.Lib.Calendar
import Bifurcation.Lib.Apportion
import Bifurcation.Lib.Grouping
import Bifurcation.Lib.Suffix
import Bifurcation.Lib.Separated
import Bifurcation.Lib.Versioned
import Bifurcation.Lib.JsStrings
import Bifurcation.Lib.JsonWire
import Bifurcation.Protocol
import Bifurcation.Daemon.Usage
import Bifurcation.Daemon.UsageSpec
import Bifurcation.Daemon.Metering
import Bifurcation.Daemon.Batching
import Bifurcation.Daemon.Outbox
import Bifurcation.Daemon.Core
import Bifurcation.Daemon.Lifecycle
import Bifurcation.Daemon.FinalSample
import Bifurcation.Daemon.Settlement
import Bifurcation.Daemon.Policy
import Bifurcation.Daemon.PolicySpec
import Bifurcation.Daemon.PolicyLaws
import Bifurcation.Daemon.Identity
import Bifurcation.Daemon.Adapter
import Bifurcation.Daemon.AdapterSpec
import Bifurcation.Daemon.PolicySafety
import Bifurcation.Daemon.Acceptable
import Bifurcation.Daemon.Revocation
import Bifurcation.Daemon.StageRelease
import Bifurcation.Daemon.Journal
import Bifurcation.Daemon.Executor
import Bifurcation.Daemon.Logs
import Bifurcation.Daemon.Diagnostic
import Bifurcation.Daemon.Upgrade
import Bifurcation.Daemon.UpgradeSpec
import Bifurcation.Daemon.UpgradeHelper
import Bifurcation.Daemon.UpgradeService
import Bifurcation.Daemon.UpgradeSafety
import Bifurcation.Panel.Schema
import Bifurcation.Panel.Time
import Bifurcation.Panel.Attribution
import Bifurcation.Panel.Machines
import Bifurcation.Panel.MachineCalls
import Bifurcation.Panel.Fencing
import Bifurcation.Panel.TaskQueue
import Bifurcation.Panel.Watch
import Bifurcation.Panel.SingBox
import Bifurcation.Panel.Settings
import Bifurcation.Panel.Template
import Bifurcation.Panel.TemplateSpec
import Bifurcation.Panel.TemplateChecks
import Bifurcation.Panel.Rendering
import Bifurcation.Panel.Editor
import Bifurcation.Panel.Subscriptions
import Bifurcation.Panel.Adoption
import Bifurcation.Panel.SubscriptionCalls
import Bifurcation.Panel.TokenRotation
import Bifurcation.Panel.SubscriptionIsolation
import Bifurcation.Panel.PreviewPublish
import Bifurcation.Panel.Policy
import Bifurcation.Panel.PolicyRuns
import Bifurcation.Panel.Configuration
import Bifurcation.Panel.ConfigurationSpec
import Bifurcation.Panel.ConfigurationInvariant
import Bifurcation.Panel.ConfigurationRuns
import Bifurcation.Panel.Reconciliation
import Bifurcation.Panel.Publishing
import Bifurcation.Panel.Usage
import Bifurcation.Panel.Ledger
import Bifurcation.Panel.UsageQuery
import Bifurcation.Panel.Identity
import Bifurcation.Panel.IdentityCalls
import Bifurcation.Panel.IdentityRuns
import Bifurcation.Panel.OneShot
import Bifurcation.Panel.Administration
import Bifurcation.Panel.LifeCycle
import Bifurcation.Delivery.Tasks
import Bifurcation.Delivery.Acceptance
import Bifurcation.Delivery.Usage
import Bifurcation.Delivery.Documents
import Bifurcation.Delivery.PolicyDelivery
