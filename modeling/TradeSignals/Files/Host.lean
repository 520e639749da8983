import TradeSignals.Failure

/-!
# The host of a run

What a run asks of the machine it runs on: to read and write files by their paths and to
show text. A run is written for any host, so it can be studied on one that is a value as
well.
-/

namespace TradeSignals

/-- What a run asks of the machine it runs on. -/
structure Host (m : Type → Type) where
  /-- The text of a file. -/
  read : String → m (Except FileFault String)
  /-- Makes a file with a text, in place of the one that was there. -/
  write : String → String → m (Except FileFault Unit)
  /-- Shows a line of the result. -/
  say : String → m Unit
  /-- Shows a line about the run. -/
  warn : String → m Unit

namespace Path

/-- Does a path begin at the root? -/
def isAbsolute (path : String) : Bool := path.toList.head? = some '/'

/-- Does a path end in a slash? -/
def endsInSlash (path : String) : Bool := path.toList.getLast? = some '/'

/-- A path that is taken from a directory: an absolute one stands for itself. -/
def join (directory path : String) : String :=
  if isAbsolute path || directory.isEmpty then path
  else if endsInSlash directory then directory ++ path
  else directory ++ "/" ++ path

/-- The names on a path, between its slashes. -/
def names (path : String) : List String := (path.toList.splitOn '/').map String.ofList

/-- A path without the slashes at its end. -/
def withoutSlashes (path : String) : String :=
  String.ofList (path.toList.reverse.dropWhile (· = '/')).reverse

/-- The greatest number of bytes in a name. -/
def maxNameBytes : Nat := 255

/-- The greatest number of bytes in a path. -/
def maxBytes : Nat := 4095

/-- Does the null character stand in a path? -/
def holdsNull (path : String) : Bool := path.toList.contains '\x00'

/-- A path that can be followed at all: the null character does not stand in it, it is
not empty, and it is not too long. -/
def check (path : String) : Except FileFault Unit :=
  if holdsNull path then .error .nullInPath
  else if path.isEmpty then .error .notFound
  else if maxBytes < path.utf8ByteSize then .error .nameTooLong
  else .ok ()

end Path

end TradeSignals
