import Fluxbee.Shm.IchMappingMap
import Fluxbee.Shm.SnapshotAtomicity
import Fluxbee.Stream.SequenceIdentity
import Fluxbee.Identity.Aliases
import Fluxbee.Identity.Replication
import Fluxbee.Identity.TenantInvariants
import Fluxbee.Shm.IdentityTables
import Fluxbee.Stream.Batches
import Fluxbee.Router.Contested
import Fluxbee.Router.Answers
import Fluxbee.Router.VpnIsolation
import Fluxbee.Router.Handover
import Fluxbee.Router.Precedence
import Fluxbee.Identity.Purge
import Fluxbee.Identity.Refusals
import Fluxbee.Timer.Pending
import Fluxbee.Opa.Crashes
import Fluxbee.Workflow.Rows
import Fluxbee.Cognition.Undisturbed
import Fluxbee.Vault.Replaced
import Fluxbee.WfRules.Deploys
import Fluxbee.Opa.Answers
import Fluxbee.Cognition.HotSet
import Fluxbee.Router.Package
import Fluxbee.Stream.Watermark
import Fluxbee.Router.Connections
