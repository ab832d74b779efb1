import Nephio.Kptfile.Ref
import Nephio.Kptfile.ConditionType
import Nephio.Laws.Kptfile.ConditionType
import Nephio.Data.Keyed
import Nephio.Go.Slice
import Nephio.Kptfile.Kptfile
import Nephio.Kptfile.KubeObject
import Nephio.CondKptSdk.Inventory
import Nephio.CondKptSdk.InventoryDiff
import Nephio.CondKptSdk.InventoryReady
import Nephio.CondKptSdk.PopulateInventory
import Nephio.CondKptSdk.Run
import Nephio.Laws.CondKptSdk.Tree
import Nephio.Laws.Go.Slice
import Nephio.Data.Fallible
import Nephio.Laws.CondKptSdk.Roles
import Nephio.Laws.CondKptSdk.Filing
import Nephio.Laws.CondKptSdk.Watches
import Nephio.Laws.CondKptSdk.Writes
import Nephio.Laws.CondKptSdk.Stage1
import Nephio.Laws.CondKptSdk.Stage2
import Nephio.Laws.CondKptSdk.Populate
import Nephio.Data.Loops
import Nephio.Laws.CondKptSdk.Diff
import Nephio.Laws.CondKptSdk.Children
import Nephio.Laws.CondKptSdk.Outcome
import Nephio.Laws.CondKptSdk.Package
import Nephio.Laws.CondKptSdk.Reconcile
import Nephio.Laws.CondKptSdk.Desired
import Nephio.Laws.CondKptSdk.Marked
import Nephio.Laws.CondKptSdk.Run
import Nephio.Laws.CondKptSdk.Local
import Nephio.Laws.CondKptSdk.NotReady
import Nephio.Laws.CondKptSdk.Readiness
import Nephio.Laws.CondKptSdk.Orphans
import Nephio.Laws.CondKptSdk.Touches
import Nephio.Laws.CondKptSdk.Frame
import Nephio.Laws.CondKptSdk.Failures
import Nephio.Laws.CondKptSdk.Answers
import Nephio.Laws.CondKptSdk.Refusals
import Nephio.Laws.CondKptSdk.Returned
import Nephio.Api
import Nephio.Go.Sort
import Nephio.NfDeployFn.Function
import Nephio.Laws.NfDeployFn.Isolation
import Nephio.ClaimFns.Desired
import Nephio.Laws.ClaimFns.Names
import Nephio.Data.OrderedMap
import Nephio.Laws.Kptfile.Store
import Nephio.Kptfile.Document
import Nephio.Laws.Kptfile.Document
import Nephio.Laws.CondKptSdk.FailSafe
import Nephio.Laws.CondKptSdk.Ready
import Nephio.Controllers.Approval
import Nephio.Laws.Controllers.Approval
import Nephio.Controllers.GitResource
import Nephio.Controllers.Token
import Nephio.Laws.Controllers.GitResource
import Nephio.Laws.Controllers.Token
import Nephio.Controllers.Repository
import Nephio.Laws.Controllers.Deletion
import Nephio.Controllers.Focom
import Nephio.Laws.Controllers.Focom
import Nephio.Controllers.Bootstrap
import Nephio.Data.Search
import Nephio.Laws.Controllers.Bootstrap
import Nephio.Controllers.Specializer
import Nephio.Laws.Controllers.Specializer
import Nephio.Laws.CondKptSdk.Reasons
import Nephio.Laws.CondKptSdk.Consistent
import Nephio.Controllers.Finalizer
import Nephio.Laws.Go.Removal
import Nephio.Laws.Removal
import Nephio.KubeObject.Formatting
import Nephio.Laws.KubeObject.Yaml
import Nephio.Laws.KubeObject.Data
import Nephio.Laws.KubeObject.KeyOrder
import Nephio.Laws.KubeObject.Restore
import Nephio.Laws.Go.Sort
import Nephio.Data.Alter
import Nephio.Laws.NfDeployFn.Changes
import Nephio.Laws.NfDeployFn.Spec
import Nephio.Laws.NfDeployFn.Integrity
import Nephio.Laws.NfDeployFn.Idempotent
import Nephio.ClaimFns.Status
import Nephio.Data.Arrival
import Nephio.Laws.ClaimFns.Status
import Nephio.Laws.NfDeployFn.Arrival
import Nephio.Laws.Nad.Setters
import Nephio.NadFn.Function
import Nephio.Laws.NadFn.Gather
import Nephio.Laws.NadFn.Routes
import Nephio.Laws.NadFn.Arrival
import Nephio.ConfigInject.Function
import Nephio.Data.Latest
import Nephio.Laws.ConfigInject.Selection
import Nephio.Laws.ConfigInject.Resolution
import Nephio.GenKustomize.Main
import Nephio.Laws.CondKptSdk.History
import Nephio.Laws.ConfigInject.Children
import Nephio.Laws.GenKustomize.Idempotent
import Nephio.Laws.Ueransim.ConfigMaps
import Nephio.Laws.Controllers.Discarded
import Nephio.O2ims.ProvisioningRequest
import Nephio.Laws.O2ims.Reported
import Nephio.Controllers.SpireBootstrap
import Nephio.Data.Words
import Nephio.Laws.Controllers.ClusterList
import Nephio.Data.Contents
import Nephio.Laws.CondKptSdk.Orders
import Nephio.Laws.CondKptSdk.Isolation
import Nephio.Laws.CondKptSdk.Again
import Nephio.Laws.CondKptSdk.Idempotent
import Nephio.Data.Progress
import Nephio.Laws.CondKptSdk.Back
import Nephio.Laws.CondKptSdk.Phases
import Nephio.Laws.CondKptSdk.Choreography
import Nephio.Controllers.SpireReconciler
import Nephio.Laws.Controllers.SpireWiring
