/-!
# Command lines

A command line names a command and its options. An option is given by its long name or
by its letter, with its value behind an equals sign, behind the letter itself, or as the
argument that follows. Nothing may be given twice, and two dashes say that no options
follow, after which there is nothing left that could.

An argument that follows an option as its value is taken in only when the next option
comes or the line ends, so a name that nobody knows is told before a value that cannot
be used.
-/

namespace TradeSignals

/-- Where the text of a strategy is. -/
inductive Source where
  /-- On the command line. -/
  | text (text : String)
  /-- In a file. -/
  | file (path : String)
deriving DecidableEq

/-- What a command line asks for. -/
inductive Command where
  /-- To validate a strategy. -/
  | validate (source : Source) (config : Option String) (json : Bool)
  /-- To run a strategy over bars. -/
  | run (file : String) (data config output : Option String)
  /-- To show the vocabulary. -/
  | schema
deriving DecidableEq

/-- Why a command line asks for nothing that can be done. -/
inductive UsageFault where
  /-- It asks for help. -/
  | helpAsked
  /-- It names no command. -/
  | noCommand
  /-- There is no such command. -/
  | unknownCommand
  /-- There is no such option, or no place for an argument. -/
  | unknownArgument
  /-- An option that is needed is not given. -/
  | missingArgument
  /-- An option is given twice, or together with one that excludes it. -/
  | conflict
  /-- An option has no value, or one that it cannot have. -/
  | badValue
  /-- An option has a value and takes none. -/
  | needlessValue
deriving DecidableEq

/-- How the program is used. -/
def usage : String :=
  "Commands:\n" ++
  "  validate (--expr TEXT | --file PATH) [--config PATH] [--json]\n" ++
  "  run --file PATH [--data DIRECTORY] [--config PATH] [--output PATH]\n" ++
  "  schema\n" ++
  "  help [COMMAND]"

/-- What is said about a command line. -/
def UsageFault.message : UsageFault → String
  | .helpAsked => usage
  | .noCommand => "no command is given\n" ++ usage
  | .unknownCommand => "there is no such command\n" ++ usage
  | .unknownArgument => "there is no place for an argument\n" ++ usage
  | .missingArgument => "an option that is needed is missing\n" ++ usage
  | .conflict => "an option excludes another one\n" ++ usage
  | .badValue => "an option has no value that it can have\n" ++ usage
  | .needlessValue => "an option takes no value\n" ++ usage

namespace CommandLine

/-- The options. -/
inductive Switch where
  /-- The text of a strategy. -/
  | expr
  /-- The file of a strategy. -/
  | file
  /-- The configuration. -/
  | config
  /-- The report as JSON. -/
  | json
  /-- The directory of the bars. -/
  | data
  /-- The file for the signals. -/
  | output
  /-- Help. -/
  | help
deriving DecidableEq

/-- What an option takes. -/
inductive Takes where
  /-- Nothing. -/
  | nothing
  /-- Any text. -/
  | text
  /-- A path, which is not empty. -/
  | path
deriving DecidableEq

namespace Switch

/-- The long name of an option. -/
def name : Switch → String
  | .expr => "expr"
  | .file => "file"
  | .config => "config"
  | .json => "json"
  | .data => "data"
  | .output => "output"
  | .help => "help"

/-- The letter of an option. -/
def letter? : Switch → Option Char
  | .expr => some 'e'
  | .file => some 'f'
  | .config => some 'c'
  | .json => none
  | .data => some 'd'
  | .output => some 'o'
  | .help => some 'h'

/-- What an option takes. -/
def takes : Switch → Takes
  | .expr => .text
  | .file | .config | .data | .output => .path
  | .json | .help => .nothing

end Switch

/-- The commands. -/
inductive Verb where
  /-- To validate a strategy. -/
  | validate
  /-- To run a strategy. -/
  | run
  /-- To show the vocabulary. -/
  | schema
deriving DecidableEq

/-- The command with a name. -/
def Verb.ofName? : String → Option Verb
  | "validate" => some .validate
  | "run" => some .run
  | "schema" => some .schema
  | _ => none

/-- The options of a command. -/
def Verb.switches : Verb → List Switch
  | .validate => [.expr, .file, .config, .json, .help]
  | .run => [.file, .data, .config, .output, .help]
  | .schema => [.help]

/-! ### One argument -/

/-- An argument as it is read where an option may stand. -/
inductive Token where
  /-- Two dashes. -/
  | escape
  /-- A long name, and what stands behind an equals sign. -/
  | long (name : String) (value : Option String)
  /-- Letters behind a dash. -/
  | letters (letters : List Char)
  /-- Anything else. -/
  | word (text : String)

/-- The text before the first equals sign, and what stands behind it. -/
def splitEquals (s : List Char) : String × Option String :=
  (String.ofList (s.takeWhile (· ≠ '=')),
    match s.dropWhile (· ≠ '=') with
    | [] => none
    | _ :: value => some (String.ofList value))

/-- Reads an argument. -/
def Token.of (argument : String) : Token :=
  match argument.toList with
  | ['-', '-'] => .escape
  | '-' :: '-' :: rest => .long (splitEquals rest).1 (splitEquals rest).2
  | '-' :: c :: rest => .letters (c :: rest)
  | _ => .word argument

/-! ### The options of a command -/

/-- What has been given: options with their values, and one whose value is still to
come or has come last. -/
structure Given where
  /-- Options with their values. -/
  options : List (Switch × String)
  /-- The option given last, if it takes its value from an argument of its own. -/
  waiting : Option (Switch × Option String)

namespace Given

/-- Nothing has been given. -/
def nothing : Given := ⟨[], none⟩

/-- An option is given with a value. -/
def accept (g : Given) (switch : Switch) (value : String) : Except UsageFault Given :=
  if (g.options.lookup switch).isSome then .error .conflict
  else if switch.takes = .path ∧ value = "" then .error .badValue
  else .ok { g with options := g.options ++ [(switch, value)] }

/-- The option that is waiting gets what has come for it. -/
def settle (g : Given) : Except UsageFault Given :=
  match g.waiting with
  | none => .ok g
  | some (_, none) => .error .badValue
  | some (switch, some value) => accept ⟨g.options, none⟩ switch value

/-- An option that takes nothing. -/
def flag (g : Given) (switch : Switch) : Except UsageFault Given := do
  let g ← g.settle
  if switch = .help then .error .helpAsked else g.accept switch "true"

/-- An option with its value, or one that waits for it. -/
def option (g : Given) (switch : Switch) (value : Option String) : Except UsageFault Given := do
  let g ← g.settle
  match value with
  | some value => g.accept switch value
  | none => .ok { g with waiting := some (switch, none) }

/-- Letters behind a dash. The value of an option that takes one is the rest of them,
without an equals sign in front. -/
def letters (switches : List Switch) (g : Given) : List Char → Except UsageFault Given
  | [] => .ok g
  | c :: rest =>
    match switches.find? (·.letter? = some c) with
    | none => .error .unknownArgument
    | some switch =>
      if switch.takes = .nothing then do
        letters switches (← g.flag switch) rest
      else
        match rest with
        | [] => g.option switch none
        | '=' :: value => g.option switch (some (String.ofList value))
        | value => g.option switch (some (String.ofList value))

/-- A long name, and what stands behind an equals sign. -/
def long (switches : List Switch) (g : Given) (name : String) (value : Option String) :
    Except UsageFault Given :=
  match switches.find? (·.name = name) with
  | none => .error .unknownArgument
  | some switch =>
    if switch.takes = .nothing then
      if value.isSome then .error .needlessValue else g.flag switch
    else g.option switch value

/-- An argument that is no option: the value that an option waits for, or one too many. -/
def word (g : Given) (text : String) : Except UsageFault Given :=
  match g.waiting with
  | some (switch, none) => .ok { g with waiting := some (switch, some text) }
  | _ => .error .unknownArgument

/-- The arguments of a command. Behind two dashes there is no place for any. -/
def read (switches : List Switch) (g : Given) : List String → Except UsageFault Given
  | [] => g.settle
  | argument :: rest =>
    match Token.of argument with
    | .escape => if rest.isEmpty then g.settle else .error .unknownArgument
    | .long name value => do read switches (← g.long switches name value) rest
    | .letters letters => do read switches (← g.letters switches letters) rest
    | .word text => do read switches (← g.word text) rest

/-- The value of an option. -/
def value? (g : Given) (switch : Switch) : Option String := g.options.lookup switch

/-- The command of the options given. -/
def command (g : Given) : Verb → Except UsageFault Command
  | .validate =>
    match g.value? .expr, g.value? .file with
    | some _, some _ => .error .conflict
    | some text, none => .ok (.validate (.text text) (g.value? .config) (g.value? .json).isSome)
    | none, some path => .ok (.validate (.file path) (g.value? .config) (g.value? .json).isSome)
    | none, none => .error .missingArgument
  | .run =>
    match g.value? .file with
    | some file => .ok (.run file (g.value? .data) (g.value? .config) (g.value? .output))
    | none => .error .missingArgument
  | .schema => .ok .schema

end Given

/-! ### Whole command lines -/

/-- The command that lists the others. -/
def helpName : String := "help"

/-- Is a word the name of a command? -/
def isCommand (word : String) : Bool := (Verb.ofName? word).isSome || word == helpName

/-- What is wrong when help is asked for about the commands named. -/
def helpFor : List String → UsageFault
  | [] => .helpAsked
  | [word] => if isCommand word then .helpAsked else .unknownCommand
  | _ => .unknownCommand

/-- What is wrong with letters before a command. -/
def lettersFault : List Char → UsageFault
  | 'h' :: _ => .helpAsked
  | _ => .unknownArgument

/-- What is wrong with a long name before a command. -/
def longFault (name : String) (value : Option String) : UsageFault :=
  if name = Switch.help.name then
    if value.isSome then .needlessValue else .helpAsked
  else .unknownArgument

/-- What is wrong when two dashes stand before a command. -/
def escapeFault : List String → UsageFault
  | [] => .noCommand
  | word :: _ => if isCommand word then .unknownArgument else .unknownCommand

end CommandLine

/-- **Reads a command line.** -/
def Command.parse : List String → Except UsageFault Command
  | [] => .error .noCommand
  | first :: rest =>
    match CommandLine.Verb.ofName? first with
    | some verb => do
      (← CommandLine.Given.nothing.read verb.switches rest).command verb
    | none =>
      if first = CommandLine.helpName then .error (CommandLine.helpFor rest)
      else .error <|
        match CommandLine.Token.of first with
        | .escape => CommandLine.escapeFault rest
        | .long name value => CommandLine.longFault name value
        | .letters letters => CommandLine.lettersFault letters
        | .word _ => .unknownCommand

end TradeSignals
