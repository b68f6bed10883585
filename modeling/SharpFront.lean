import SharpFront.Main
import SharpFront.Pattern.Reader
import SharpFront.Proofs.Checked.Preprocess
import SharpFront.Proofs.Preprocess.Nest
import SharpFront.Proofs.Preprocess.Item
import SharpFront.Proofs.Preprocess.Survivors
import SharpFront.Proofs.Preprocess.Fates
import SharpFront.Proofs.Preprocess.Excluded
import SharpFront.Proofs.Preprocess.Levels
import SharpFront.Proofs.Preprocess.Balance
import SharpFront.Proofs.Form.Opening
import SharpFront.Proofs.Catalog.Consulted
import SharpFront.Proofs.Scan.LongestMatch
import SharpFront.Proofs.Preprocess.LeadingHash
import SharpFront.Proofs.Preprocess.Appearance
import SharpFront.Proofs.Preprocess.DiagnosticOrder
import SharpFront.Proofs.Preprocess.UserMessage
import SharpFront.Proofs.Preprocess.Excerpts
import SharpFront.Proofs.Output
import SharpFront.Proofs.Preprocess.Settings
import SharpFront.Proofs.Preprocess.Defines
import SharpFront.Proofs.Preprocess.RegionTitle
import SharpFront.Proofs.Form.Moved
import SharpFront.Proofs.Scan.Concat
import SharpFront.Proofs.Scan.Literals
import SharpFront.Proofs.Preprocess.Units
import SharpFront.Proofs.Preprocess.Symbols
import SharpFront.Proofs.Scan.Messages
import SharpFront.Proofs.Diagnostic.History
import SharpFront.Proofs.Source.LineEnds
import SharpFront.Proofs.Condition.Symbols
import SharpFront.Proofs.Condition.Recovery
import SharpFront.Proofs.Preprocess.CodeList
import SharpFront.Proofs.Catalog.Precedence
import SharpFront.Proofs.Catalog.Registration
import SharpFront.Proofs.Form.Matching
import SharpFront.Proofs.Scan.Consultation
import SharpFront.Proofs.Scan.Progress
import SharpFront.Proofs.Scan.Stretches
import SharpFront.Proofs.Scan.Blanks
import SharpFront.Proofs.Scan.Unmatched
import SharpFront.Proofs.Diagnostic.Replay
import SharpFront.Proofs.Binary64
import SharpFront.Proofs.Form.Integer
import SharpFront.Proofs.Form.Protected
import SharpFront.Proofs.Scan.ByHand
import SharpFront.Proofs.Condition.GroupStack
import SharpFront.Proofs.Preprocess.HashLines
import SharpFront.Proofs.Source.Trimmed
