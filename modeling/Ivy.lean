import Ivy.Command.FileTree
import Ivy.Command.Run
import Ivy.Main
import Ivy.Proofs.Pieces
import Ivy.Proofs.Remaining
import Ivy.Proofs.Leads
import Ivy.Proofs.PieceRecognition
import Ivy.Proofs.PieceStream
import Ivy.Proofs.Grammar
import Ivy.Proofs.PieceGrammar
import Ivy.Proofs.Lexemes
import Ivy.Proofs.MaximalMunch
import Ivy.Proofs.Boundaries
import Ivy.Proofs.Partition
import Ivy.Proofs.Requests
import Ivy.Proofs.Safety
import Ivy.Proofs.Lines
import Ivy.Proofs.StringExtents
import Ivy.Proofs.SourceLines
import Ivy.Proofs.Layout
import Ivy.Proofs.Walks
import Ivy.Proofs.MoveRuns
import Ivy.Proofs.TokenLists
import Ivy.Proofs.Comments
import Ivy.Proofs.Invariants
import Ivy.Proofs.Relocation
import Ivy.Proofs.Concatenation
import Ivy.Proofs.Lengthening
import Ivy.Proofs.LineEnds
import Ivy.Proofs.Spacing
import Ivy.Proofs.Mixtures
import Ivy.Proofs.TokenSpans
import Ivy.Proofs.LineLimits
import Ivy.Proofs.Causes
import Ivy.Proofs.Logs
import Ivy.Proofs.Readers
import Ivy.Proofs.Quoting
import Ivy.Proofs.OutputLines
import Ivy.Proofs.LineTerminators
import Ivy.Proofs.TokenLines
import Ivy.Proofs.LimitedReports
import Ivy.Proofs.ReportLines
import Ivy.Proofs.Listings
import Ivy.Proofs.FileTrees
import Ivy.Proofs.Arguments
import Ivy.Proofs.ExitCodes
