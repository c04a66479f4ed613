import SourceWeave.Main
import SourceWeave.Proofs.ByteOrder
import SourceWeave.Proofs.Closure
import SourceWeave.Proofs.Composition
import SourceWeave.Proofs.Conduct
import SourceWeave.Proofs.Configuration
import SourceWeave.Proofs.Course
import SourceWeave.Proofs.DirectiveGrammar
import SourceWeave.Proofs.Directives
import SourceWeave.Proofs.Directories
import SourceWeave.Proofs.EmissionOrder
import SourceWeave.Proofs.Encounters
import SourceWeave.Proofs.Failure
import SourceWeave.Proofs.FileRecords
import SourceWeave.Proofs.FixedPoint
import SourceWeave.Proofs.HandingOut
import SourceWeave.Proofs.History
import SourceWeave.Proofs.Inclusion
import SourceWeave.Proofs.Insertion
import SourceWeave.Proofs.Joining
import SourceWeave.Proofs.KeptLines
import SourceWeave.Proofs.Keys
import SourceWeave.Proofs.LineEndings
import SourceWeave.Proofs.LockSafety
import SourceWeave.Proofs.NormalForm
import SourceWeave.Proofs.Passes
import SourceWeave.Proofs.Phases
import SourceWeave.Proofs.Precedence
import SourceWeave.Proofs.Preparation
import SourceWeave.Proofs.Processing
import SourceWeave.Proofs.QuotedNames
import SourceWeave.Proofs.QuotedTokens
import SourceWeave.Proofs.Rendering
import SourceWeave.Proofs.Reordering
import SourceWeave.Proofs.Resolving
import SourceWeave.Proofs.SchemeAgreement
import SourceWeave.Proofs.Seeding
import SourceWeave.Proofs.Separators
import SourceWeave.Proofs.SettingHistory
import SourceWeave.Proofs.Spelling
import SourceWeave.Proofs.StoredSettings
import SourceWeave.Proofs.Timing
import SourceWeave.Proofs.Tracking
import SourceWeave.Proofs.Trimming
import SourceWeave.Proofs.Turns
import SourceWeave.Proofs.Visits
import SourceWeave.Proofs.Wildcards
