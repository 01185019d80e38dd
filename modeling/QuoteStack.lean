import QuoteStack.Text.Quoted
import QuoteStack.Text.UpperCase
import QuoteStack.Text.Utf8
import QuoteStack.Text.Lines
import QuoteStack.Decimal.Division
import QuoteStack.Decimal.Notation
import QuoteStack.Token.Scan
import QuoteStack.Value.Json
import QuoteStack.Journal
import QuoteStack.Builtin
import QuoteStack.Host
import QuoteStack.Forest
import QuoteStack.Session
import QuoteStack.Settings
import QuoteStack.Logging.Hub
import QuoteStack.Main
import QuoteStack.Proofs.Arithmetic.Fold
import QuoteStack.Proofs.Arithmetic.Mass
import QuoteStack.Proofs.Arithmetic.Shape
import QuoteStack.Proofs.CommandLine.Agreement
import QuoteStack.Proofs.CommandLine.Output
import QuoteStack.Proofs.Decimal.Notation
import QuoteStack.Proofs.Decimal.Numeral
import QuoteStack.Proofs.Decimal.Quotient
import QuoteStack.Proofs.Decimal.Rational
import QuoteStack.Proofs.Decimal.Rounding
import QuoteStack.Proofs.Decimal.Size
import QuoteStack.Proofs.Forest.InPlace
import QuoteStack.Proofs.Forest.Isolation
import QuoteStack.Proofs.Forest.Scene
import QuoteStack.Proofs.Forest.Store
import QuoteStack.Proofs.Logging.History
import QuoteStack.Proofs.Program.Append
import QuoteStack.Proofs.Program.Item
import QuoteStack.Proofs.Program.Level
import QuoteStack.Proofs.Program.Mass
import QuoteStack.Proofs.Program.Source
import QuoteStack.Proofs.Run.Append
import QuoteStack.Proofs.Run.Below
import QuoteStack.Proofs.Run.Binding
import QuoteStack.Proofs.Run.Cells
import QuoteStack.Proofs.Run.Depth
import QuoteStack.Proofs.Run.Effect
import QuoteStack.Proofs.Run.Failure
import QuoteStack.Proofs.Run.Fresh
import QuoteStack.Proofs.Run.Inline
import QuoteStack.Proofs.Run.Law
import QuoteStack.Proofs.Run.Limit
import QuoteStack.Proofs.Run.Lockstep
import QuoteStack.Proofs.Run.Moment
import QuoteStack.Proofs.Run.Native
import QuoteStack.Proofs.Run.View
import QuoteStack.Proofs.Run.Words
import QuoteStack.Proofs.Session.Activity
import QuoteStack.Proofs.Session.Closure
import QuoteStack.Proofs.Session.Depth
import QuoteStack.Proofs.Session.Failure
import QuoteStack.Proofs.Session.Invariant
import QuoteStack.Proofs.Session.Mirror
import QuoteStack.Proofs.Session.Reset
import QuoteStack.Proofs.Text.Encoding
import QuoteStack.Proofs.Token.Grammar
import QuoteStack.Proofs.Token.Lexeme
import QuoteStack.Proofs.Value.Layout
import QuoteStack.Proofs.Arithmetic.Exact
import QuoteStack.Proofs.Arithmetic.Laws
import QuoteStack.Proofs.Arithmetic.Override
import QuoteStack.Proofs.Value.WorkList
import QuoteStack.Proofs.Text.Numeral
import QuoteStack.Proofs.Run.Precision
import QuoteStack.Proofs.Settings
import QuoteStack.Proofs.Logging.Level
import QuoteStack.Proofs.Run.Printing
import QuoteStack.Proofs.Forest.Printing
