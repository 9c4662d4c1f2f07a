import Dockge.Data.History
import Dockge.ComposeEditor.Keys
import Dockge.Data.Program
import Dockge.Updater.Recoverable
import Dockge.Updater.DataRestored
import Dockge.Mcp.AtMostOnce
import Dockge.Delegation.Served
import Dockge.StackStatus.Agreement
import Dockge.Observation.Coverage
import Dockge.Stability.ContainerHistory
import Dockge.StackConfig.LostUpdate
import Dockge.StackWrite.Durable
import Dockge.PanelUpdate.Evidence
import Dockge.PanelUpdate.Machine.Confirmed
import Dockge.PanelUpdate.Machine.Clock
import Dockge.PanelUpdate.Machine.Following
import Dockge.StackLock.FairExclusion
import Dockge.Passwords.Bound
import Dockge.StackConfig.Contained
import Dockge.Settings.Coherence
import Dockge.StackSecrets.Atomic
import Dockge.StackSave.Respected
import Dockge.Observation.Shown
import Dockge.PanelUpdate.Machine.Forward
import Dockge.PanelUpdate.Machine.Resumed
import Dockge.StackStatus.Control
import Dockge.StackWrite.Inexact
import Dockge.Accounts.Owned
import Dockge.Terminals.Owned
import Dockge.Lifecycle.Exclusive
import Dockge.Mcp.Bound
import Dockge.Updater.VersionOrder
import Dockge.Packets.Ordered
import Dockge.Inspector.StackRun
import Dockge.Observation.Batch
import Dockge.Observation.Splitting
import Dockge.StackStatus.FailClosed
import Dockge.DockerRun.Spelling
import Dockge.DockerRun.Report
import Dockge.DockerRun.Effects
import Dockge.DockerRun.Mounts
import Dockge.DockerRun.Carried
import Dockge.Terminals.Buffer
import Dockge.Readings.Fresh
import Dockge.Mcp.Counted
import Dockge.Agents.Removed
import Dockge.Git.Handed
import Dockge.Updater.RecordedMeaning
import Dockge.Images.LocalDigest
import Dockge.Mcp.FileWritten
import Dockge.ChildProcess.Settled
import Dockge.Cache.Held
import Dockge.Git.TreeHash
import Dockge.Shutdown.Visited
import Dockge.Snapshot.Identity
import Dockge.Terminals.LastRequest
import Dockge.Images.Cleared
import Dockge.GitUi.Panes
import Dockge.ComposeProgress.Updated
import Dockge.Mcp.Identified
import Dockge.Inspector.Polled
