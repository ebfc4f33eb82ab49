import MigrationGuard.Main
import MigrationGuard.Proofs.Session.Findings
import MigrationGuard.Proofs.Session.Sources
import MigrationGuard.Proofs.Session.Recording
import MigrationGuard.Proofs.Workflow.Edges
import MigrationGuard.Proofs.Session.Agreement
import MigrationGuard.Proofs.Session.StageAgreement
import MigrationGuard.Proofs.Memory.Changes
import MigrationGuard.Proofs.Session.MemoryAgreement
import MigrationGuard.Proofs.Session.Pausing
import MigrationGuard.Proofs.Decimal.Fields
import MigrationGuard.Proofs.Decimal.Reading
import MigrationGuard.Proofs.Decimal.Shortest
import MigrationGuard.Proofs.Json.Number
import MigrationGuard.Proofs.Json.Reread
import MigrationGuard.Proofs.Json.Stored
import MigrationGuard.Proofs.Session.Stored
import MigrationGuard.Proofs.Text.Utf8
import MigrationGuard.Proofs.Files.Disk
import MigrationGuard.Proofs.Session.Saving
import MigrationGuard.Proofs.Session.Resuming
import MigrationGuard.Proofs.Behavior.Comparison
import MigrationGuard.Proofs.Decimal.Doubles
import MigrationGuard.Proofs.Behavior.Thresholds
import MigrationGuard.Proofs.Behavior.Unchanged
import MigrationGuard.Proofs.Workflow.DeadCode
import MigrationGuard.Proofs.Workflow.EffectPaths
import MigrationGuard.Proofs.Memory.Isolation
import MigrationGuard.Proofs.Memory.Calls
import MigrationGuard.Proofs.Memory.Occurrences
import MigrationGuard.Proofs.Memory.Passes
import MigrationGuard.Proofs.Risk.Score
import MigrationGuard.Proofs.Session.MemoryIndependence
import MigrationGuard.Proofs.Memory.Retries
import MigrationGuard.Proofs.Memory.Overlaps
import MigrationGuard.Proofs.Source.Addresses
import MigrationGuard.Proofs.Source.CallSites
import MigrationGuard.Proofs.Memory.SemanticFailures
import MigrationGuard.Proofs.Decimal.Singles
import MigrationGuard.Proofs.Memory.LastTexts
import MigrationGuard.Proofs.Memory.Ranking
import MigrationGuard.Proofs.Workflow.Reordering
import MigrationGuard.Proofs.Memory.Repetitions
import MigrationGuard.Proofs.Memory.Approvals
import MigrationGuard.Proofs.Session.Omission
import MigrationGuard.Proofs.Source.CommentedCode
import MigrationGuard.Proofs.Harness.SuiteFiles
import MigrationGuard.Proofs.Harness.Outcomes
import MigrationGuard.Proofs.Decimal.SingleRounding
import MigrationGuard.Proofs.Decimal.SingleFields
import MigrationGuard.Proofs.Decimal.SingleArithmetic
import MigrationGuard.Proofs.Memory.UnitVectors
import MigrationGuard.Proofs.Memory.Unreadable
import MigrationGuard.Proofs.Source.Definitions
import MigrationGuard.Proofs.Session.RunHistory
import MigrationGuard.Proofs.Memory.ApprovedDocuments
import MigrationGuard.Proofs.Behavior.Improvement
import MigrationGuard.Proofs.Source.Discovery
import MigrationGuard.Proofs.Settings.NormalForm
import MigrationGuard.Proofs.Risk.Gate
import MigrationGuard.Proofs.Workflow.Exploration
import MigrationGuard.Proofs.Workflow.Backtracking
import MigrationGuard.Proofs.Session.StoredRuns
import MigrationGuard.Proofs.Memory.SignatureTexts
import MigrationGuard.Proofs.Source.LineComments
import MigrationGuard.Proofs.Session.StandingClock
