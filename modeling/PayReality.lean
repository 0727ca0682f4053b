import PayReality.Lib.Program
import PayReality.Lib.Reports
import PayReality.Lib.Records
import PayReality.Lib.FallibleSort
import PayReality.Lib.HashChain
import PayReality.Policy.Validators
import PayReality.Compiler.CompilerV2
import PayReality.Compiler.Meaning
import PayReality.Compiler.Disjoint
import PayReality.Compiler.Totality
import PayReality.Compiler.FieldOverlap
import PayReality.Compiler.Overlap
import PayReality.Compiler.RuleNames
import PayReality.Compiler.Preservation
import PayReality.Rego.Module
import PayReality.Decision.Engine
import PayReality.Decision.FailClosed
import PayReality.Decision.MissingFields
import PayReality.Decision.BundleOutcomes
import PayReality.Decision.FactPaths
import PayReality.Store.History
import PayReality.Lifecycle.LifecycleService
import PayReality.Evidence.Signing
import PayReality.Evidence.Payload
import PayReality.Evidence.Ledger
import PayReality.Evidence.Verify
import PayReality.Evidence.Append
import PayReality.Evidence.Chain
import PayReality.Evidence.Tamper
import PayReality.Evidence.Window
import PayReality.Lifecycle.Contract
import PayReality.Lifecycle.Steps
import PayReality.Lifecycle.Reads
import PayReality.Lifecycle.Reviews
import PayReality.Lifecycle.Deployments
import PayReality.Lifecycle.Activations
import PayReality.Lifecycle.Operations
import PayReality.Lifecycle.Approval
import PayReality.Lifecycle.Scheduling
import PayReality.Lifecycle.Stranding
import PayReality.Lifecycle.Insertions
import PayReality.Lifecycle.Manifests
import PayReality.Lifecycle.Authoring
import PayReality.Lifecycle.RollbackTargets
import PayReality.Lifecycle.ScheduleOutcomes
import PayReality.Integration.Namespaces
import PayReality.Execution.Enforcement
import PayReality.Execution.ReceiptLedger
import PayReality.Execution.Reviews
import PayReality.Execution.ChangeRecords
import PayReality.Execution.KillSwitch
import PayReality.Execution.Historical
import PayReality.Identity.Terminal
import PayReality.Integration.BindingScopes
import PayReality.Capability.Amounts
import PayReality.Integration.Fingerprint
import PayReality.Simulation.Explainer
import PayReality.Simulation.PolicySimulationService
import PayReality.Policy.Schema
import PayReality.Promotion.Promotions
import PayReality.AuthorityGraph.GraphDiff
import PayReality.Promotion.LiveAuthority
import PayReality.AuthorityGraph.Resolution
import PayReality.Identity.Invitations
import PayReality.AuthorityGraph.Approvals
import PayReality.Sdk.Retries
import PayReality.Identity.CertificateRotation
import PayReality.Sdk.KeyRotation
import PayReality.Sdk.ContractShape
import PayReality.Sdk.Enforcement
import PayReality.TimeUtils
import PayReality.Sorting
import PayReality.Canonical
import PayReality.AuthorityGraph.CircularDelegations
import PayReality.Promotion.GateOrder
import PayReality.AuthorityGraph.SnapshotDiff
import PayReality.Lifecycle.ConditionDiff
import PayReality.Lifecycle.BrokenInheritance
import PayReality.Capability.Verification
import PayReality.Capability.RoundTrip
import PayReality.Policy.RoundTrip
import PayReality.Simulation.Batch
import PayReality.Lib.Erasing
import PayReality.Simulation.Opa
import PayReality.Simulation.Isolation
import PayReality.Lib.WriteOnce
import PayReality.Execution.AcceptedReceipts
import PayReality.Execution.ArrivalOrder
import PayReality.Execution.Revocation
import PayReality.Lib.Once
import PayReality.Execution.SingleUse
import PayReality.Lifecycle.DeployConcurrency
import PayReality.Lifecycle.SafetyGate
import PayReality.Lifecycle.DraftEdits
import PayReality.Lifecycle.VersionPinning
import PayReality.Organization.Structure
import PayReality.Facts.Attested
import PayReality.Decision.Grants
import PayReality.Decision.ExplanationService
import PayReality.Access.RateLimit
import PayReality.Access.Tenancy
import PayReality.Lifecycle.Explanations
