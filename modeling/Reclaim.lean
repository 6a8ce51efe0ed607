import Reclaim.Error
import Reclaim.Main
import Reclaim.Session.Run
import Reclaim.Proofs.Path.Text
import Reclaim.Proofs.Path.Collapse
import Reclaim.Proofs.Files.Walk
import Reclaim.Proofs.Files.Removal
import Reclaim.Proofs.Files.Leads
import Reclaim.Proofs.Files.Named
import Reclaim.Proofs.Files.Connected
import Reclaim.Proofs.Files.Creation
import Reclaim.Proofs.Files.Straight
import Reclaim.Proofs.Deletion.Effect
import Reclaim.Proofs.Course.Basic
import Reclaim.Proofs.Course.Change
import Reclaim.Proofs.Course.History
import Reclaim.Proofs.Course.Ledger
import Reclaim.Proofs.Course.Lifecycle
import Reclaim.Proofs.Course.ExactlyOnce
import Reclaim.Proofs.Course.Shutdown
import Reclaim.Proofs.Course.Drain
import Reclaim.Proofs.Course.Deletions
import Reclaim.Proofs.Course.Blind
import Reclaim.Proofs.Course.Order
import Reclaim.Proofs.Course.Conservation
import Reclaim.Proofs.Course.AllOrNothing
import Reclaim.Proofs.Course.Aim
import Reclaim.Proofs.Tracking.Attempt
import Reclaim.Proofs.Tracking.Temporary
import Reclaim.Proofs.Tracking.Stored
import Reclaim.Proofs.Config.Loading
import Reclaim.Proofs.Theme.Styles
import Reclaim.Proofs.Course.EmptyPath
import Reclaim.Proofs.Toml.Writing
import Reclaim.Proofs.Config.Content
import Reclaim.Proofs.Files.Replacement
import Reclaim.Proofs.Host.Calls
import Reclaim.Proofs.Host.Directories
import Reclaim.Proofs.Config.RoundTrip
import Reclaim.Proofs.Theme.Loading
import Reclaim.Proofs.Files.Undoing
import Reclaim.Proofs.Tracking.Orphans
import Reclaim.Proofs.Config.FailedSave
import Reclaim.Proofs.Deletion.Single
import Reclaim.Proofs.Deletion.Extension
import Reclaim.Proofs.Command.Arguments
import Reclaim.Proofs.Command.Rows
import Reclaim.Proofs.Command.Display
import Reclaim.Proofs.Command.Table
import Reclaim.Proofs.Command.DryRun
import Reclaim.Proofs.Deletion.Sweep
import Reclaim.Proofs.Course.Attended
import Reclaim.Proofs.Course.Errands
import Reclaim.Proofs.Host.Sound
import Reclaim.Proofs.Session.Sound
import Reclaim.Proofs.Deletion.Dwindling
import Reclaim.Proofs.Command.Again
import Reclaim.Proofs.Validation
import Reclaim.Proofs.Theme.Checking
import Reclaim.Proofs.Toml.Distinct
import Reclaim.Proofs.Toml.Huge
import Reclaim.Proofs.Config.Language
import Reclaim.Proofs.Theme.Merging
import Reclaim.Proofs.Config.Cleanup
import Reclaim.Proofs.Command.Init
import Reclaim.Proofs.Course.StoredText
import Reclaim.Proofs.Path.Normal
