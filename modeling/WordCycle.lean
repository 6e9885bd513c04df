import WordCycle.DocumentSession
import WordCycle.Buffer.Detached
import WordCycle.Main
import WordCycle.Workspace
import WordCycle.Proofs.Word.Extent
import WordCycle.Proofs.Candidate.Store
import WordCycle.Proofs.Candidate.Ranking
import WordCycle.Proofs.Scan.Collection
import WordCycle.Proofs.Scan.Completeness
import WordCycle.Proofs.Scan.Ranking
import WordCycle.Proofs.Session.Rotation
import WordCycle.Proofs.Session.Step
import WordCycle.Proofs.Session.Run
import WordCycle.Proofs.Session.Coherence
import WordCycle.Proofs.Undo.Steps
import WordCycle.Proofs.Undo.History
import WordCycle.Proofs.Undo.Tracking
import WordCycle.Proofs.Undo.Inverse
import WordCycle.Proofs.Text.WordCase
import WordCycle.Proofs.Scan.WholeWords
import WordCycle.Proofs.Session.Reconfiguration
import WordCycle.Proofs.Session.Restart
import WordCycle.Proofs.Text.CodePoint
import WordCycle.Proofs.Text.Units16
import WordCycle.Proofs.Buffer.Document
import WordCycle.Proofs.Session.Document
import WordCycle.Proofs.Json.Printed
import WordCycle.Proofs.Text.Utf8
import WordCycle.Proofs.Json.Reading
import WordCycle.Proofs.Json.Scalars
import WordCycle.Proofs.Number.Shortest
import WordCycle.Proofs.Json.Floats
import WordCycle.Proofs.Json.RoundTrip
import WordCycle.Proofs.Settings.Group
import WordCycle.Proofs.Settings.Content
import WordCycle.Proofs.File.Tree
import WordCycle.Proofs.Settings.Loading
import WordCycle.Proofs.Settings.Saving
import WordCycle.Proofs.Scan.Distance
import WordCycle.Proofs.Scan.Pass
import WordCycle.Proofs.Session.Outcome
import WordCycle.Proofs.Session.Undoing
import WordCycle.Proofs.Buffer.Settled
import WordCycle.Proofs.Editor.Effect
import WordCycle.Proofs.Editor.Opening
import WordCycle.Proofs.Editor.Parts
import WordCycle.Proofs.Editor.Switch
import WordCycle.Proofs.Scan.Limit
import WordCycle.Proofs.Scan.Kinds
import WordCycle.Proofs.Scan.Nearest
import WordCycle.Proofs.Candidate.Offers
import WordCycle.Proofs.Session.Frame
import WordCycle.Proofs.Candidate.History
import WordCycle.Proofs.Settings.Validity
import WordCycle.Proofs.Undo.Cursor
import WordCycle.Proofs.Session.CachedText
import WordCycle.Proofs.Session.Round
import WordCycle.Proofs.Buffer.Positions
import WordCycle.Proofs.Text.CaseFolding
import WordCycle.Proofs.Scan.FuzzyMatch
import WordCycle.Proofs.Buffer.EditBlocks
import WordCycle.Proofs.Search.Expression
import WordCycle.Proofs.Search.First
import WordCycle.Proofs.Text.CasedSigns
import WordCycle.Proofs.Search.IgnoringCase
import WordCycle.Proofs.Editor.Frame
import WordCycle.Proofs.Editor.Path
import WordCycle.Proofs.Text.LineEnds
import WordCycle.Proofs.Editor.Reopening
import WordCycle.Proofs.Word.Adjunction
import WordCycle.Proofs.Undo.Nesting
import WordCycle.Proofs.Undo.Ledger
import WordCycle.Proofs.Settings.Dialog
import WordCycle.Proofs.Editor.Dialog
