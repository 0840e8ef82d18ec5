import Lexicon.Lexeme.Sequence
import Lexicon.Main
import Lexicon.Symbol.Sharing
import Lexicon.Proofs.Blanks
import Lexicon.Proofs.Closings
import Lexicon.Proofs.Lexemes
import Lexicon.Proofs.Extension
import Lexicon.Proofs.Division
import Lexicon.Proofs.Rounding
import Lexicon.Proofs.Digits
import Lexicon.Proofs.Rereading
import Lexicon.Proofs.Writing
import Lexicon.Proofs.Concatenation
import Lexicon.Proofs.Partition
import Lexicon.Proofs.FreeQuotes
import Lexicon.Proofs.Overflow
import Lexicon.Proofs.Faults
import Lexicon.Proofs.Spacing
import Lexicon.Proofs.Places
import Lexicon.Proofs.Reports
import Lexicon.Proofs.Readers
import Lexicon.Proofs.Sequence
import Lexicon.Proofs.Sharing
import Lexicon.Proofs.Calls
import Lexicon.Proofs.Replay
import Lexicon.Proofs.Comments
import Lexicon.Proofs.Histories
import Lexicon.Proofs.Interning
import Lexicon.Proofs.Sessions
import Lexicon.Proofs.Lines
import Lexicon.Proofs.Records
import Lexicon.Proofs.Audits
import Lexicon.Proofs.Literals
import Lexicon.Proofs.WholeNumbers
import Lexicon.Proofs.Nearest
import Lexicon.Proofs.PointedNumbers
import Lexicon.Proofs.Names
import Lexicon.Proofs.Precedence
import Lexicon.Proofs.ReservedWords
import Lexicon.Proofs.Following
import Lexicon.Proofs.Refusals
import Lexicon.Proofs.Logs
import Lexicon.Proofs.Progress
