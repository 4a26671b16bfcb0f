import ReleaseWarden.CommandLine.Run
import ReleaseWarden.Failure.Listener
import ReleaseWarden.Main
import ReleaseWarden.Proofs.Admission.QueueSafety
import ReleaseWarden.Proofs.Failure.OneAnnouncement
import ReleaseWarden.Quality.Catalog
import ReleaseWarden.Proofs.History.Reading
import ReleaseWarden.Proofs.Failure.Announcements
import ReleaseWarden.Proofs.Failure.ManualMarks
import ReleaseWarden.Proofs.Json.Numbers
import ReleaseWarden.Proofs.Json.Strings
import ReleaseWarden.Proofs.History.Stored
import ReleaseWarden.Proofs.History.Writing
import ReleaseWarden.Proofs.History.Batches
import ReleaseWarden.Proofs.Failure.GrabToFailure
import ReleaseWarden.Proofs.History.AppendOnly
import ReleaseWarden.Proofs.Ranking.Standing
import ReleaseWarden.Proofs.Ranking.Revisions
import ReleaseWarden.Proofs.Admission.Demands
import ReleaseWarden.Proofs.Admission.Leniency
import ReleaseWarden.Proofs.Admission.NoUpgrades
import ReleaseWarden.Proofs.History.ReadBack
import ReleaseWarden.Proofs.Failure.FailedPasses
import ReleaseWarden.Proofs.CommandLine.FailureTasks
import ReleaseWarden.Proofs.Admission.Refusals
import ReleaseWarden.Proofs.Admission.Albums
import ReleaseWarden.Proofs.Admission.JointAcceptance
import ReleaseWarden.Proofs.Admission.Cutoff
import ReleaseWarden.Proofs.Admission.Isolation
import ReleaseWarden.Proofs.Admission.FirstRejection
import ReleaseWarden.Proofs.Ranking.Ascent
import ReleaseWarden.Proofs.Schema.Spelling
import ReleaseWarden.DataModel
import ReleaseWarden.Proofs.Schema.RoundTrip
import ReleaseWarden.Proofs.Schema.Tolerance
import ReleaseWarden.Proofs.Config.Assignments
import ReleaseWarden.Proofs.Config.Layout
import ReleaseWarden.Proofs.Config.Values
import ReleaseWarden.Proofs.Config.Readings
import ReleaseWarden.Proofs.Failure.BlankIds
import ReleaseWarden.Proofs.Admission.QueueRule
import ReleaseWarden.Lists.Copies
import ReleaseWarden.Proofs.Failure.ReportedOrDeclared
import ReleaseWarden.Proofs.Admission.Thresholds
import ReleaseWarden.Proofs.Ranking.Labels
import ReleaseWarden.Proofs.Admission.Labels
import ReleaseWarden.Proofs.Admission.ListingOrder
import ReleaseWarden.Proofs.Failure.Containment
import ReleaseWarden.Proofs.Config.Lines
import ReleaseWarden.Proofs.Config.Safety
import ReleaseWarden.Proofs.Config.Comments
import ReleaseWarden.Proofs.Failure.Replacements
import ReleaseWarden.Proofs.Failure.StaleWarnings
import ReleaseWarden.Proofs.Failure.RecordsCovered
import ReleaseWarden.Proofs.Ranking.StrictRanks
import ReleaseWarden.Proofs.Ranking.ScoreSums
