import Abacus.Address
import Abacus.Answer
import Abacus.Archive
import Abacus.Archive.Unpacking
import Abacus.Client
import Abacus.Client.Batch
import Abacus.Client.Question
import Abacus.Client.Readiness
import Abacus.CommandLine.Command
import Abacus.CommandLine.Grammar
import Abacus.CommandLine.Negative
import Abacus.Expression
import Abacus.Expression.Data
import Abacus.Expression.Evaluation
import Abacus.Expression.Validation
import Abacus.Files
import Abacus.Http.Form
import Abacus.Http.Location
import Abacus.Http.Message
import Abacus.Http.Percent
import Abacus.Http.Status
import Abacus.Http.Target
import Abacus.Http.Url
import Abacus.Json.Display
import Abacus.Json.Encoding
import Abacus.Json.Printer
import Abacus.Json.Reader
import Abacus.Json.Token
import Abacus.Json.Value
import Abacus.Log
import Abacus.Main
import Abacus.Number.Nearest
import Abacus.Number.Notation
import Abacus.Number.Reading
import Abacus.Number.Shortest
import Abacus.Operand
import Abacus.Operator
import Abacus.Path
import Abacus.Program
import Abacus.Program.Report
import Abacus.Proofs.Client.Batch
import Abacus.Proofs.Expression.Grammar
import Abacus.Proofs.Expression.PostOrder
import Abacus.Proofs.Expression.Tree
import Abacus.Proofs.Files
import Abacus.Proofs.Http.Url
import Abacus.Proofs.Json.Encoding
import Abacus.Proofs.Json.Number
import Abacus.Proofs.Json.Prefix
import Abacus.Proofs.Json.Printer
import Abacus.Proofs.Json.Quotation
import Abacus.Proofs.Json.Reader
import Abacus.Proofs.Json.Token
import Abacus.Proofs.Number.Bits
import Abacus.Proofs.Number.Notation
import Abacus.Proofs.Number.Rounding
import Abacus.Proofs.Number.Shortest
import Abacus.Proofs.Operator
import Abacus.Proofs.Outcome
import Abacus.Proofs.Rejection
import Abacus.Proofs.Service.Calculate
import Abacus.Proofs.Service.Verdict
import Abacus.Proofs.Text.Cutting
import Abacus.Proofs.Text.Line
import Abacus.Proofs.Text.Numeral
import Abacus.Proofs.Text.Printable
import Abacus.Proofs.Text.Utf8
import Abacus.Proofs.Text.Writable
import Abacus.Rejection
import Abacus.Schema.Assignment
import Abacus.Schema.Checked
import Abacus.Schema.Issue
import Abacus.Schema.Location
import Abacus.Schema.Scalar
import Abacus.Server
import Abacus.Service
import Abacus.Service.Calculation
import Abacus.Service.Endpoint
import Abacus.Service.Interruption
import Abacus.Service.Site
import Abacus.Session
import Abacus.Settings
import Abacus.Settings.Environment
import Abacus.Settings.Overlay
import Abacus.Text
import Abacus.Text.Blank
import Abacus.Text.Capital
import Abacus.Text.Digit
import Abacus.Text.HostLetter
import Abacus.Text.Integer
import Abacus.Text.Line
import Abacus.Text.Numeral
import Abacus.Text.Printable
import Abacus.Text.Quoted
import Abacus.Text.Utf8
import Abacus.Text.Wide
import Abacus.Proofs.Expression.Defect
import Abacus.Proofs.Expression.LeftNest
import Abacus.Proofs.Expression.Threshold
import Abacus.Proofs.Json.Scalar
import Abacus.Proofs.Service.Agreement
import Abacus.Proofs.Http.Form
import Abacus.Proofs.Number.Reading
import Abacus.Proofs.Number.Size
import Abacus.Proofs.Operand
import Abacus.Proofs.Service.Direct
import Abacus.Proofs.Client.Compute
import Abacus.Proofs.Client.Traffic
import Abacus.Proofs.Client.Readiness
import Abacus.Proofs.Schema
import Abacus.Proofs.Program
import Abacus.Proofs.Service.Failure
import Abacus.Proofs.Expression.Replacement
import Abacus.Proofs.Client.Interruption
import Abacus.Proofs.Expression.Beneath
import Abacus.Proofs.Client.Lines
import Abacus.Proofs.Client.Results
import Abacus.Proofs.Json.Layout
import Abacus.Proofs.Service.Message
import Abacus.Proofs.Number.Nearest
import Abacus.Proofs.Number.Grammar
import Abacus.Proofs.Operand.Notation
import Abacus.Proofs.Path
import Abacus.Proofs.Archive
import Abacus.Proofs.Client.Archive
import Abacus.Proofs.Service.Mount
import Abacus.Proofs.Service.Route
import Abacus.Proofs.Settings.Environment
import Abacus.Proofs.Settings.Overlay
import Abacus.Proofs.Number.Power
import Abacus.Proofs.Service.Journal
import Abacus.Proofs.Expression.Data
import Abacus.Proofs.Path.Results
import Abacus.Proofs.Files.Frame
import Abacus.Proofs.CommandLine
import Abacus.Proofs.Program.Input
import Abacus.Proofs.Http.Authority
import Abacus.Proofs.Client.Connection
import Abacus.Proofs.Path.Alike
import Abacus.Proofs.Program.Results
