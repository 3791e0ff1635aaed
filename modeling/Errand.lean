import Errand.Backend.Shared
import Errand.Config.Encode
import Errand.Main
import Errand.Proofs.Backend.Choosing
import Errand.Proofs.Backend.History
import Errand.Proofs.Backend.Verdicts
import Errand.Proofs.CommandLine.ExitStatus
import Errand.Proofs.CommandLine.Options
import Errand.Proofs.Config.Hidden
import Errand.Proofs.Config.RoundTrip
import Errand.Proofs.Local.Ending
import Errand.Proofs.Local.Export
import Errand.Proofs.Local.Forms
import Errand.Proofs.Local.Payload
import Errand.Proofs.Local.Turns
import Errand.Proofs.Local.Wiring
import Errand.Proofs.Output.Chunks
import Errand.Proofs.Output.Clean
import Errand.Proofs.Output.Growth
import Errand.Proofs.Output.Sequences
import Errand.Proofs.Output.Unescaped
import Errand.Proofs.Remote.Connections
import Errand.Proofs.Remote.Course
import Errand.Proofs.Remote.CutOff
import Errand.Proofs.Remote.LastCode
import Errand.Proofs.Remote.Life
import Errand.Proofs.Remote.Remains
import Errand.Proofs.Remote.Retry
import Errand.Proofs.Remote.Reuse
import Errand.Proofs.Remote.ShellOutput
import Errand.Proofs.Shell.Agreement
import Errand.Proofs.Shell.Comment
import Errand.Proofs.Shell.Contexts
import Errand.Proofs.Shell.Dollars
import Errand.Proofs.Shell.Expansion
import Errand.Proofs.Shell.Joining
import Errand.Proofs.Shell.Marking
import Errand.Proofs.Shell.Quoting
import Errand.Proofs.Shell.References
import Errand.Proofs.Shell.Rounds
import Errand.Proofs.Shell.Runs
import Errand.Proofs.Shell.SpacedStages
import Errand.Proofs.Shell.Spelling
import Errand.Proofs.Shell.Trimming
import Errand.Proofs.Shell.Written
import Errand.Proofs.Text.Encoding
import Errand.Proofs.Text.Seams
