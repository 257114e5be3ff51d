import CallContract.Binary64.Basic
import CallContract.Binary64.Rounding
import CallContract.Decimal.Shortest
import CallContract.Decimal.Layout
import CallContract.Entries
import CallContract.Text.Blank
import CallContract.Text.Digit
import CallContract.Json.Basic
import CallContract.Json.Printer
import CallContract.Json.Numeral
import CallContract.Json.Raw
import CallContract.Value.Kind
import CallContract.Value.Basic
import CallContract.Value.Text
import CallContract.Value.Json
import CallContract.Expectation
import CallContract.Arguments
import CallContract.Exception
import CallContract.Config
import CallContract.Report
import CallContract.Fault
import CallContract.Matching
import CallContract.Signature.Basic
import CallContract.Signature.Shape
import CallContract.Validator
import CallContract.Validator.Dynamic
import CallContract.Yaml.Printer
import CallContract.Config.Reader
import CallContract.Signature.Reader
import CallContract.Signature.Printer
import CallContract.CommandLine
import CallContract.Main
import CallContract.Proofs.Expectation
import CallContract.Proofs.Matching
import CallContract.Proofs.Modes
import CallContract.Proofs.Indexing
import CallContract.Proofs.Arguments
import CallContract.Proofs.Dynamic
import CallContract.Proofs.Precedence
import CallContract.Proofs.Blocks
import CallContract.Proofs.Binary64
import CallContract.Proofs.Json.Numeral
import CallContract.Proofs.Json.Spelling
import CallContract.Proofs.Json.RoundTrip
import CallContract.Proofs.Json.Pretty
import CallContract.Proofs.Value.Normal
import CallContract.Proofs.Signature.Document
import CallContract.Proofs.Signature.Loading
import CallContract.Proofs.Signature.Validation
import CallContract.Proofs.Signature.Page
import CallContract.Proofs.Json.Members
import CallContract.Proofs.Report.Encodings
import CallContract.Proofs.Comparison
import CallContract.Proofs.Objections
import CallContract.Proofs.Kinds
import CallContract.Proofs.Widening
import CallContract.Proofs.Expectation.Grammar
import CallContract.Proofs.Expectation.Union
import CallContract.Proofs.Signature.Shorthand
import CallContract.Proofs.Operation
import CallContract.Proofs.CommandLine.Stages
import CallContract.Proofs.CommandLine.ExitCode
import CallContract.Proofs.Report.Log
import CallContract.Proofs.Value.Equality
import CallContract.Proofs.Binary64.Rounding
import CallContract.Proofs.Value.Tame
import CallContract.Proofs.CommandLine.Values
import CallContract.Proofs.Config
import CallContract.Proofs.CommandLine.Path
import CallContract.Proofs.CommandLine.Loading
import CallContract.Proofs.Signature.Violations
import CallContract.Proofs.Value.Leaves
import CallContract.Proofs.Value.Integral
import CallContract.Proofs.Matching.Iterations
import CallContract.Proofs.Matching.Bounds
import CallContract.Proofs.Message
