import TradeSignals.CommandLine.Arguments
import TradeSignals.Configuration.Defaults
import TradeSignals.Files.BarFile
import TradeSignals.Validation.Report
import TradeSignals.Validation.Trusted

/-!
# Carrying out commands

A command is carried out on a host, on a day. It ends with an exit code; the result goes
one way, and what is to be said about the run goes the other. A run looks at the
configuration first, then at the strategy, and at the bars last, and stops at the first
thing that cannot be used.
-/

namespace TradeSignals.Command

variable {m : Type → Type} [Monad m]

/-- What can be done on a host and may fail. -/
abbrev Action (m : Type → Type) := ExceptT Failure m

/-- Shows a line of the result. -/
def say (host : Host m) (line : String) : Action m Unit := (host.say line : m Unit)

/-- Shows a line about the run. -/
def warn (host : Host m) (line : String) : Action m Unit := (host.warn line : m Unit)

/-- The configuration in a file. -/
def loadIni (host : Host m) (path : String) : Action m Ini := do
  match ← (host.read path : m _) with
  | .error fault => throw (.configFile path (.unreadable fault))
  | .ok text =>
    match Ini.read text with
    | .error fault => throw (.configFile path (.malformed fault))
    | .ok ini => return ini

/-- The configuration that is given, or one that says nothing. -/
def configuration (host : Host m) : Option String → Action m Ini
  | some path => loadIni host path
  | none => return .empty

/-- The text of a file. -/
def readFile (host : Host m) (path : String) : Action m String := do
  match ← (host.read path : m _) with
  | .ok text => return text
  | .error fault => throw (.file fault)

/-- The text of a strategy. -/
def readSource (host : Host m) : Source → Action m String
  | .text text => return text
  | .file path => readFile host path

/-- Shows what was changed. -/
def showChanges (host : Host m) (log : Changelog) : Action m Unit := do
  unless log.isEmpty do
    warn host s!"{log.size} change(s):"
    for change in log.entries do
      warn host s!"  {change.1}: {change.2}"

/-- Validates a strategy and shows the outcome. -/
def runValidate (host : Host m) (today : Date) (source : Source) (config : Option String)
    (json : Bool) : Action m Unit := do
  let defaults ← Defaults.ofIni today (← configuration host config)
  let text ← readSource host source
  let outcome := TradeSignals.validate text defaults today
  if json then say host (Report.ofOutcome .indented outcome)
  else do
    if outcome.ok then say host outcome.sanitized
    showChanges host outcome.changes
  unless outcome.ok do throw .notAccepted

/-- The directory of the bars: the one that is given, or the one that is configured. -/
def dataDirectory (data : Option String) (ini : Ini) : Except Failure String :=
  match data.or (Configured.directory? ini) with
  | some directory => .ok directory
  | none => .error (.configMissing Configured.dataHeading Configured.directoryKey)

/-- The first and the last day of a run: those of the strategy, and the defaults where it has
none. -/
def days (defaults : Defaults) (strategy : Strategy) : Date × Date :=
  (strategy.startDate.getD defaults.startDate, strategy.endDate.getD defaults.endDate)

/-- Shows the trades of a run, each with its day. -/
def showTrades (host : Host m) (t : BarTable) (rows : List TradeRow) : Action m Unit := do
  for event in Reconciliation.events rows do
    let day := (t.bars[event.2]?.map fun bar => bar.date.text).getD ""
    say host (day ++ "\t" ++ event.1.name)

/-- Writes the signals of a run into a file. -/
def writeSignals (host : Host m) (path : String) (t : BarTable) : Action m Unit := do
  match ← (BarFile.write host path t : m _) with
  | .ok () => warn host s!"Signals written to {path}"
  | .error fault => throw (.data fault)

/-- Runs a strategy over bars and shows the trades, or writes the signals. -/
def runBacktest (host : Host m) (today : Date) (file : String)
    (data config output : Option String) : Action m Unit := do
  let ini ← configuration host config
  let defaults ← Defaults.ofIni today ini
  warn host s!"Validating strategy from {file}"
  let text ← readFile host file
  let outcome := TradeSignals.validate text defaults today
  showChanges host outcome.changes
  unless outcome.ok do throw .notAccepted
  let strategy ← Strategy.ofTrusted outcome.sanitized today
  let directory ← dataDirectory data ini
  let (start, finish) := days defaults strategy
  let (t, rows) ← Backtest.run host.warn (BarFile.source host directory) strategy start finish
  warn host s!"{t.size} bars, {(Reconciliation.events rows).length} trade events"
  match output with
  | some path => writeSignals host path t
  | none => showTrades host t rows

/-- Shows the vocabulary. -/
def runSchema (host : Host m) : Action m Unit := do
  for c in Constructor.all do
    say host c.line

/-- Is a failure told by the report already? -/
def isTold (command : Command) (failure : Failure) : Bool :=
  match command with
  | .validate _ _ true => failure = .notAccepted
  | _ => false

/-- What a command does. -/
def action (host : Host m) (today : Date) : Command → Action m Unit
  | .validate source config json => runValidate host today source config json
  | .run file data config output => runBacktest host today file data config output
  | .schema => runSchema host

/-- **Carries out a command** and gives its exit code. -/
def execute (host : Host m) (today : Date) (command : Command) : m UInt8 := do
  match ← (action host today command).run with
  | .ok () => return 0
  | .error failure =>
    unless isTold command failure do host.warn ("error: " ++ failure.message)
    return failure.exitCode

end TradeSignals.Command
