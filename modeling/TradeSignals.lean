import TradeSignals.Calendar.Date
import TradeSignals.Calendar.DateText
import TradeSignals.CommandLine.Arguments
import TradeSignals.CommandLine.Execution
import TradeSignals.Configuration.Defaults
import TradeSignals.Configuration.Ini
import TradeSignals.Decimal.Basic
import TradeSignals.Decimal.Layout
import TradeSignals.Decimal.Reading
import TradeSignals.Dictionary
import TradeSignals.Expr.Basic
import TradeSignals.Expr.ParseError
import TradeSignals.Expr.Parser
import TradeSignals.Expr.Printer
import TradeSignals.Expr.Quote
import TradeSignals.Failure
import TradeSignals.Files.BarFile
import TradeSignals.Files.Csv
import TradeSignals.Files.FileTree
import TradeSignals.Files.Host
import TradeSignals.Main
import TradeSignals.Market.Bar
import TradeSignals.Market.BarTable
import TradeSignals.Market.Indicator
import TradeSignals.Market.Quantity
import TradeSignals.Signals.Evaluation
import TradeSignals.Signals.SeriesSource
import TradeSignals.Strategy.Basic
import TradeSignals.Strategy.Condition
import TradeSignals.Strategy.Field
import TradeSignals.Strategy.Series
import TradeSignals.Text.Blank
import TradeSignals.Text.Cased
import TradeSignals.Text.Letter
import TradeSignals.Text.LowerCase
import TradeSignals.Trades.Backtest
import TradeSignals.Trades.ExitOverlay
import TradeSignals.Trades.Reconciliation
import TradeSignals.Validation.Binding
import TradeSignals.Validation.Changelog
import TradeSignals.Validation.Defaults
import TradeSignals.Validation.DeniedName
import TradeSignals.Validation.Fault
import TradeSignals.Validation.Outcome
import TradeSignals.Validation.Reading
import TradeSignals.Validation.Repair
import TradeSignals.Validation.Report
import TradeSignals.Validation.Ticker
import TradeSignals.Validation.Trusted
import TradeSignals.Validation.Value
import TradeSignals.Validation.Verdict
import TradeSignals.Vocabulary.Choice
import TradeSignals.Vocabulary.Constructor
import TradeSignals.Proofs.Decimal.Nearest
import TradeSignals.Proofs.Decimal.Digits
import TradeSignals.Proofs.Expr.NumberText
import TradeSignals.Proofs.Calendar.DateText
import TradeSignals.Proofs.Expr.Tree
import TradeSignals.Proofs.Expr.Places
import TradeSignals.Proofs.Expr.Spelling
import TradeSignals.Proofs.Expr.Tokens
import TradeSignals.Proofs.Expr.ReadBack
import TradeSignals.Proofs.Decimal.Order
import TradeSignals.Proofs.Strategy.InRange
import TradeSignals.Proofs.Strategy.CanonicalText
import TradeSignals.Proofs.Strategy.Restated
import TradeSignals.Proofs.Validation.DeniedNames
import TradeSignals.Proofs.Validation.Exact
import TradeSignals.Proofs.Validation.Sound
import TradeSignals.Proofs.Validation.Accepted
import TradeSignals.Proofs.Validation.Idempotence
import TradeSignals.Proofs.Validation.Unnoted
import TradeSignals.Proofs.Validation.Faithful
import TradeSignals.Proofs.Validation.Unchanged
import TradeSignals.Proofs.Trades.History
import TradeSignals.Proofs.Trades.Transitions
import TradeSignals.Proofs.Market.Causal
import TradeSignals.Proofs.Market.BarOrder
import TradeSignals.Proofs.Signals.Causal
import TradeSignals.Proofs.Trades.NoLookAhead
import TradeSignals.Proofs.Expr.Unambiguous
import TradeSignals.Proofs.Strategy.SeriesText
import TradeSignals.Proofs.Market.DailyBars
import TradeSignals.Proofs.Market.OtherTicker
import TradeSignals.Proofs.Signals.Reading
import TradeSignals.Proofs.Signals.Indexed
import TradeSignals.Proofs.Trades.Reached
import TradeSignals.Proofs.Trades.Served
import TradeSignals.Proofs.Trades.SharedTable
import TradeSignals.Proofs.Trades.Aligned
import TradeSignals.Proofs.Trades.Questions
import TradeSignals.Proofs.Trades.Reasons
import TradeSignals.Proofs.Signals.Pointwise
import TradeSignals.Proofs.Trades.ExitWindow
import TradeSignals.Proofs.Trades.HeldBars
import TradeSignals.Proofs.Trades.Mirror
import TradeSignals.Proofs.Decimal.NotANumber
import TradeSignals.Proofs.Market.MissingNumbers
import TradeSignals.Proofs.Validation.Refilled
import TradeSignals.Proofs.Trades.Idempotence
import TradeSignals.Proofs.Trades.ReadOnce
import TradeSignals.Proofs.Strategy.Respelling
import TradeSignals.Proofs.Validation.Settings
import TradeSignals.Proofs.Validation.Alike
import TradeSignals.Proofs.Validation.CallsAlike
import TradeSignals.Proofs.Validation.KeywordsAlike
import TradeSignals.Proofs.Validation.Keywords
import TradeSignals.Proofs.Validation.Respelled
import TradeSignals.Proofs.Trades.Loading
import TradeSignals.Proofs.Validation.DateRange
import TradeSignals.Proofs.Configuration.Usable
import TradeSignals.Proofs.Files.Narrowing
import TradeSignals.Proofs.Decimal.ReadBack
import TradeSignals.Proofs.Files.Records
import TradeSignals.Proofs.Files.Written
import TradeSignals.Proofs.Files.RoundTrip
import TradeSignals.Proofs.Market.ExactNumbers
import TradeSignals.Proofs.Market.SlidingMean
import TradeSignals.Proofs.Market.WilderAverages
import TradeSignals.Proofs.Trades.TrailingStop
import TradeSignals.Proofs.Market.Loops
import TradeSignals.Proofs.Market.IndicatorLoops
import TradeSignals.Proofs.Market.Measurements
import TradeSignals.Proofs.Expr.Reread
import TradeSignals.Proofs.Strategy.ConditionText
import TradeSignals.Proofs.Validation.Builders
import TradeSignals.Proofs.Validation.Defended
import TradeSignals.Proofs.Validation.Sides
import TradeSignals.Proofs.Validation.Recording
import TradeSignals.Proofs.Validation.Framed
import TradeSignals.Proofs.Market.GapsInFront
import TradeSignals.Proofs.Validation.EveryArgument
import TradeSignals.Proofs.Expr.IntegerText
import TradeSignals.Proofs.Expr.Cursor
import TradeSignals.Proofs.Expr.CursorReader
import TradeSignals.Proofs.Expr.InBounds
import TradeSignals.Proofs.Validation.Changelog
import TradeSignals.Proofs.Validation.ReportMembers
import TradeSignals.Proofs.Vocabulary.Registry
