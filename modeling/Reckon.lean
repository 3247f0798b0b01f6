import Reckon.Text.Blank
import Reckon.Text.Words
import Reckon.Text.Printable
import Reckon.Text.DecimalDigit
import Reckon.Text.Quoted
import Reckon.Text.Utf8
import Reckon.Text.Escaped
import Reckon.Text.Integer
import Reckon.Binary64
import Reckon.Decimal.Shortest
import Reckon.Decimal.Notation
import Reckon.Decimal.Numeral
import Reckon.Expr.Operator
import Reckon.Expr.Token
import Reckon.Expr.Postfix
import Reckon.Expr.Error
import Reckon.Expr.Evaluate
import Reckon.Batch
import Reckon.Path.Posix
import Reckon.Path.Results
import Reckon.Path.Lexical
import Reckon.Log.Calendar
import Reckon.Log.Record
import Reckon.Cli.Args
import Reckon.Archive.Checksum
import Reckon.Archive.Stream
import Reckon.Archive.Sha256
import Reckon.Archive.Bits
import Reckon.Archive.Huffman
import Reckon.Archive.Inflate
import Reckon.Archive.Drain
import Reckon.Text.CodePage437
import Reckon.Archive.Zip
import Reckon.Archive.Folder
import Reckon.Archive.Lzma
import Reckon.Archive.Filter
import Reckon.Archive.Xz
import Reckon.Archive.Unpack
import Reckon.Archive.Bzip2
import Reckon.Archive.Tar
import Reckon.Archive.Extract
import Reckon.Input
import Reckon.Session
import Reckon.Payload
import Reckon.Pool
import Reckon.Exchange
import Reckon.Main
import Reckon.Proofs.Tree
import Reckon.Proofs.Tokens
import Reckon.Proofs.Infix
import Reckon.Proofs.Outcome
import Reckon.Proofs.Acceptance
import Reckon.Proofs.Utf8
import Reckon.Proofs.Report
import Reckon.Proofs.Schedule
import Reckon.Proofs.OneProcessor
import Reckon.Proofs.Progress
import Reckon.Proofs.Reply
import Reckon.Proofs.SharedFile
import Reckon.Proofs.Reordering
import Reckon.Proofs.PendingOperators
import Reckon.Proofs.ResultsName
import Reckon.Proofs.Newlines
import Reckon.Proofs.FreshFolder
import Reckon.Proofs.ArchiveMember
import Reckon.Proofs.SevenZipMember
