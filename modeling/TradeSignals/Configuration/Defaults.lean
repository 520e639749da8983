import TradeSignals.Configuration.Ini
import TradeSignals.Strategy.Field
import TradeSignals.Validation.Defaults
import TradeSignals.Validation.Ticker

/-!
# Configured defaults

A configuration may say what stands in for the parameters of a strategy, and where the
bars are kept. Everything it says has to be usable, whether it is needed or not; what it
leaves out is as it is without a configuration.
-/

namespace TradeSignals

namespace Configured

/-- The section of the defaults. -/
def defaultsHeading : String := "defaults"

/-- The section of the bars. -/
def dataHeading : String := "data"

/-- The key of the directory of the bars. -/
def directoryKey : String := "directory"

/-- A default that is configured. -/
def value? (ini : Ini) (field : Field) : Option String := ini.get? defaultsHeading field.key

/-- A failure of a configured default. -/
def invalid (field : Field) (fault : ConfigFault) : Failure :=
  .configInvalid defaultsHeading field.key fault

/-- A default that is configured, if it is what it should be. -/
def read? {α : Type} (ini : Ini) (field : Field) (read : String → Except ConfigFault α) :
    Except Failure (Option α) :=
  match value? ini field with
  | none => .ok none
  | some text =>
    match read text with
    | .ok a => .ok (some a)
    | .error fault => .error (invalid field fault)

/-- The ticker in a text. -/
def tickerOf (text : String) : Except ConfigFault String :=
  if Ticker.isValid (Text.trim text) then .ok (Text.trim text) else .error (.ticker text)

/-- The interval in a text. -/
def intervalOf (text : String) : Except ConfigFault Interval :=
  match Choice.ofLabel? (Text.trim text) with
  | some interval => .ok interval
  | none => .error (.interval text)

/-- The date in a text. -/
def dateOf (field : Field) (text : String) : Except ConfigFault Date :=
  (Date.read (Text.trim text)).mapError fun _ => .dateFormat field.key

/-- The capital in a text, which is to be a positive number. -/
def capitalOf (text : String) : Except ConfigFault Float :=
  match readFloat (Text.trim text) with
  | .ok x => if x.isFinite && decide (x > 0) then .ok x else .error .notPositive
  | .error _ => .error (.notNumber text)

/-- A date that is configured must not lie in the future. -/
def checkPast (today : Date) (field : Field) (date : Option Date) : Except Failure Unit :=
  if date.any fun d => decide (today < d) then .error (invalid field (.futureDate field.key))
  else .ok ()

/-- The first day has to come before the last. -/
def checkOrder (start finish : Date) : Except Failure Unit :=
  if start < finish then .ok () else .error (invalid .startDate .dateOrder)

/-- The same for two dates that are both configured. -/
def checkBoth : Option Date → Option Date → Except Failure Unit
  | some start, some finish => checkOrder start finish
  | _, _ => .ok ()

/-- The configured dates. -/
def dates? (today : Date) (ini : Ini) : Except Failure (Option Date × Option Date) := do
  let start ← read? ini .startDate (dateOf .startDate)
  let finish ← read? ini .endDate (dateOf .endDate)
  checkPast today .startDate start
  checkPast today .endDate finish
  checkBoth start finish
  pure (start, finish)

/-- The configured capital, or else the given one. It is read as all numbers of a
configuration are: what is no number counts as not configured. -/
def initialCapital (ini : Ini) (default : Float) : Float :=
  ini.number defaultsHeading Field.initialCapital.key default

/-- The configured directory of the bars, without the blanks around it. -/
def directory? (ini : Ini) : Option String := (ini.get? dataHeading directoryKey).map Text.trim

/-- A directory that is configured must not be empty. -/
def checkDirectory (ini : Ini) : Except Failure Unit :=
  if (directory? ini).any (·.isEmpty) then .error (.configMissing dataHeading directoryKey)
  else .ok ()

/-- What a configuration says, its numbers apart, if all of it is usable. -/
structure Settings where
  /-- The ticker. -/
  ticker : Option String
  /-- The interval. -/
  interval : Option Interval
  /-- The first and the last day. -/
  dates : Option Date × Option Date

/-- **What a configuration says.** The parts are looked at in a fixed order, and the
first that is not usable is reported. -/
def settings (today : Date) (ini : Ini) : Except Failure Settings := do
  let ticker ← read? ini .ticker tickerOf
  let interval ← read? ini .interval intervalOf
  let dates ← dates? today ini
  let _ ← read? ini .initialCapital capitalOf
  checkDirectory ini
  pure ⟨ticker, interval, dates⟩

end Configured

/-- **The defaults of a configuration**, on the day `today`. The dates have to be in
order also where one of them is not configured. -/
def Defaults.ofIni (today : Date) (ini : Ini) : Except Failure Defaults := do
  let s ← Configured.settings today ini
  let start := s.dates.1.getD standard.startDate
  let finish := s.dates.2.getD standard.endDate
  Configured.checkOrder start finish
  pure { standard with
    ticker := s.ticker.getD standard.ticker
    interval := s.interval.getD standard.interval
    startDate := start
    endDate := finish
    initialCapital := Configured.initialCapital ini standard.initialCapital }

end TradeSignals
