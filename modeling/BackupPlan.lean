import BackupPlan.Main
import BackupPlan.Proofs.BatchIsolation
import BackupPlan.Proofs.KeySecrecy
import BackupPlan.Proofs.RecordRoundTrip
import BackupPlan.Proofs.Resolution
import BackupPlan.Proofs.ScriptReading
import BackupPlan.Proofs.SpoolDirectory
import BackupPlan.Proofs.Titles
import BackupPlan.Proofs.Verdict
import BackupPlan.Session
import BackupPlan.Job.Source
import BackupPlan.Proofs.Removal
import BackupPlan.Proofs.DestinationAgreement
import BackupPlan.Proofs.Collisions
import BackupPlan.Proofs.LoadedPaths
import BackupPlan.Proofs.Messages
import BackupPlan.Proofs.RunAccount
import BackupPlan.Proofs.BackendFields
import BackupPlan.Proofs.SourcesAndKeys
import BackupPlan.Proofs.SessionRuns
import BackupPlan.Proofs.Reading.Drafts
import BackupPlan.Proofs.JobSpelling
import BackupPlan.Proofs.ScriptNames
import BackupPlan.Proofs.Intervals
import BackupPlan.Proofs.SuggestedTitles
import BackupPlan.Proofs.ValidDefaults
import BackupPlan.Proofs.ScriptAdditions
import BackupPlan.Proofs.ProviderTags
import BackupPlan.Proofs.LogRecords
import BackupPlan.Proofs.ReportLeaves
import BackupPlan.Proofs.ReportNesting
import BackupPlan.Proofs.Shell.BuiltCommands
