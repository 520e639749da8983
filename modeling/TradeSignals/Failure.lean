import TradeSignals.Calendar.DateText
import TradeSignals.Decimal.Reading
import TradeSignals.Validation.Changelog

/-!
# Failures

Everything that can end a run before its time, as causes: files that cannot be used,
rows that make no bars, configurations that make no defaults, strategies that are not
accepted. Each has a text, and the failures of a whole run have an exit code.
-/

namespace TradeSignals

/-! ### Files -/

/-- Why a file or a directory cannot be used. -/
inductive FileFault where
  /-- It is not there. -/
  | notFound
  /-- It is a directory and should be a file. -/
  | isDirectory
  /-- A file stands where a directory should. -/
  | notDirectory
  /-- Its bytes are not text. -/
  | notText
  /-- Its name, or the path to it, is longer than the system allows. -/
  | nameTooLong
  /-- The path to it holds the null character. -/
  | nullInPath
  /-- Something else that the system reports. -/
  | reported (text : String)
deriving DecidableEq

/-- What the system says about a file. -/
def FileFault.message : FileFault → String
  | .notFound => "No such file or directory (os error 2)"
  | .isDirectory => "Is a directory (os error 21)"
  | .notDirectory => "Not a directory (os error 20)"
  | .notText => "stream did not contain valid UTF-8"
  | .nameTooLong => "File name too long (os error 36)"
  | .nullInPath => "file name contained an unexpected NUL byte"
  | .reported text => text

/-! ### Bars -/

/-- A record with another number of fields than the records before it. -/
structure UnequalRecord where
  /-- How many records come before it. -/
  record : Nat
  /-- The line on which it begins. -/
  line : Nat
  /-- The byte at which it begins. -/
  byte : Nat
  /-- How many fields it has. -/
  fields : Nat
  /-- How many fields the records before it have. -/
  expected : Nat
deriving DecidableEq

/-- What is said about a record of the wrong length. -/
def UnequalRecord.message (r : UnequalRecord) : String :=
  s!"CSV error: record {r.record} (line: {r.line}, byte: {r.byte}): found record with " ++
    s!"{r.fields} fields, but the previous record has {r.expected} fields"

/-- Why there are no bars. -/
inductive DataFault where
  /-- The file of a ticker cannot be read. -/
  | unreadable (path : String) (fault : FileFault)
  /-- The directory of the files cannot be listed. -/
  | unlistable (directory : String) (fault : FileFault)
  /-- The signals cannot be written. -/
  | unwritable (path : String) (fault : FileFault)
  /-- A record has the wrong number of fields. -/
  | unequal (record : UnequalRecord)
  /-- A record ends before a column. -/
  | missingColumn (column : String)
  /-- A date that is none. -/
  | badDate (fault : DateFault)
  /-- A price that is no number. -/
  | badPrice (column : String) (fault : FloatFault)
  /-- A volume that is no integer. -/
  | badVolume (column : String) (fault : IntFault)
  /-- Something else that the source of the bars reports. -/
  | reported (text : String)
deriving DecidableEq

/-- What is said when there are no bars. -/
def DataFault.message : DataFault → String
  | .unreadable path fault => s!"failed to read {path}: " ++ fault.message
  | .unlistable directory fault => s!"failed to read directory {directory}: " ++ fault.message
  | .unwritable path fault => s!"failed to write {path}: " ++ fault.message
  | .unequal record => "CSV parse error: " ++ record.message
  | .missingColumn column => s!"missing {column} column"
  | .badDate fault => "invalid date format: " ++ fault.message
  | .badPrice column fault => s!"invalid {column} value: " ++ fault.message
  | .badVolume column fault => s!"invalid {column} value: " ++ fault.message
  | .reported text => text

/-! ### Configurations -/

/-- Why a text is not a configuration. -/
inductive IniFault where
  /-- A section name without its closing bracket. -/
  | openSection (line : Nat)
  /-- A line that begins with what should follow a key. -/
  | emptyKey (line : Nat)
deriving DecidableEq

/-- What is said about a text that is not a configuration. -/
def IniFault.message : IniFault → String
  | .openSection line =>
    s!"line {line}: Found opening bracket for section name but no closing bracket"
  | .emptyKey line => s!"line {line}:0: Key cannot be empty"

/-- Why a configuration file cannot be used. -/
inductive ConfigFileFault where
  /-- The file cannot be read. -/
  | unreadable (fault : FileFault)
  /-- Its text is not a configuration. -/
  | malformed (fault : IniFault)
deriving DecidableEq

/-- What is said about a configuration file. -/
def ConfigFileFault.message : ConfigFileFault → String
  | .unreadable fault => fault.message
  | .malformed fault => fault.message

/-- Why a configured value cannot be used. -/
inductive ConfigFault where
  /-- It is not a ticker. -/
  | ticker (text : String)
  /-- It is not an interval. -/
  | interval (text : String)
  /-- It is not a date. -/
  | dateFormat (key : String)
  /-- It is a date in the future. -/
  | futureDate (key : String)
  /-- The dates are out of order. -/
  | dateOrder
  /-- It is not a positive number. -/
  | notPositive
  /-- It is not a number. -/
  | notNumber (text : String)
deriving DecidableEq

/-- What is said about a configured value. -/
def ConfigFault.message : ConfigFault → String
  | .ticker text => s!"'{text}' is not a valid ticker"
  | .interval text => s!"'{text}' is not an Interval member"
  | .dateFormat key => s!"invalid {key} format, expected YYYY-MM-DD"
  | .futureDate key => s!"{key} must not be in the future"
  | .dateOrder => "start_date must be before end_date"
  | .notPositive => "initial_capital must be positive"
  | .notNumber text => s!"'{text}' is not a number"

/-! ### Whole runs -/

/-- Why a run ends without a result. -/
inductive Failure where
  /-- The configuration file cannot be used. -/
  | configFile (file : String) (fault : ConfigFileFault)
  /-- A value that is needed is not configured. -/
  | configMissing (heading key : String)
  /-- A configured value cannot be used. -/
  | configInvalid (heading key : String) (fault : ConfigFault)
  /-- The text is no strategy, for reasons that have been told already. -/
  | notAccepted
  /-- The text is no strategy, for these reasons. -/
  | rejected (changes : Changelog)
  /-- The text is a strategy only after changes. -/
  | untrusted (keys : List String)
  /-- There are no bars. -/
  | data (fault : DataFault)
  /-- There are bars for other times or tickers only. -/
  | noData (ticker : String)
  /-- A file cannot be used. -/
  | file (fault : FileFault)
deriving DecidableEq

namespace Failure

/-- What is said about a failure. -/
def message : Failure → String
  | .configFile path fault =>
    s!"config parse error in {path}: couldn't read {path}: " ++ fault.message
  | .configMissing name key => s!"missing config key [{name}] {key}"
  | .configInvalid name key fault => s!"invalid config value [{name}] {key}: " ++ fault.message
  | .notAccepted => "strategy rejected: validation failed"
  | .rejected changes =>
    "strategy rejected: " ++ "; ".intercalate (changes.entries.map fun c => s!"{c.1}: {c.2}")
  | .untrusted keys =>
    "strategy text is not sanitized: validation changed: " ++ ", ".intercalate keys
  | .data fault => "data error: " ++ fault.message
  | .noData ticker => s!"no data for {ticker}"
  | .file fault => fault.message

/-- The exit code of a run that fails: one for files, two for the configuration, three
for the bars, four for the strategy. -/
def exitCode : Failure → UInt8
  | .file _ => 1
  | .configFile _ _ | .configMissing _ _ | .configInvalid _ _ _ => 2
  | .data _ | .noData _ => 3
  | .notAccepted | .rejected _ | .untrusted _ => 4

end Failure

end TradeSignals
