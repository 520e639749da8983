import Std.Time
import TradeSignals.CommandLine.Execution

/-!
# The program

Carries out the command of its arguments on the machine it runs on, today.
-/

namespace TradeSignals.Program

/-- What the machine says about a file. -/
def fileFault (e : IO.Error) : FileFault :=
  match e with
  | .noFileOrDirectory _ _ _ | .noSuchThing _ _ _ => .notFound
  | .inappropriateType _ code _ => if code = 21 then .isDirectory else .notDirectory
  | .invalidArgument _ 36 _ => .nameTooLong
  | e => .reported (toString e)

/-- An action on the file at a path, whose error is a value. -/
def attempt {α : Type} (path : String) (act : IO α) : IO (Except FileFault α) := do
  if Path.holdsNull path then return .error .nullInPath
  try return .ok (← act)
  catch e => return .error (fileFault e)

/-- The text of a file. -/
def readText (path : String) : IO (Except FileFault String) := do
  match ← attempt path (do (← IO.FS.Handle.mk path .read).readBinToEnd) with
  | .error fault => return .error fault
  | .ok bytes =>
    match String.fromUTF8? bytes with
    | some text => return .ok text
    | none => return .error .notText

/-- The machine that the program runs on. -/
def machine : Host IO where
  read := readText
  write path text := attempt path (IO.FS.writeFile path text)
  say line := IO.println line
  warn line := IO.eprintln line

/-- The day it is, or the first day of all if the clock shows none. -/
def today : IO Date := do
  let day ← Std.Time.PlainDate.now
  return (Date.of? day.year.toInt day.month.val.toNat day.day.val.toNat).getD
    Defaults.standard.startDate

end TradeSignals.Program

open TradeSignals in
/-- Reads the arguments and carries out the command. -/
def main (arguments : List String) : IO UInt32 := do
  match Command.parse arguments with
  | .ok command => return (← Command.execute Program.machine (← Program.today) command).toUInt32
  | .error fault =>
    if fault = .helpAsked then
      IO.println fault.message
      return 0
    else
      IO.eprintln fault.message
      return 2
