import ScopeGraph.Config

/-!
# Command line arguments

Arguments are read from left to right.  Options of the program may stand before or behind the name
of the command, options of a command only behind it.  Asking for help or for the version ends the
reading, and so does the first mistake.
-/
set_option autoImplicit false

namespace ScopeGraph.CommandLine

structure RunOptions where
  input : String
  database? : Option String
  outputDir? : Option String
  baseDir? : Option String
  lenient : Bool
  /-- A script is written to this path in place of the database. -/
  cypher? : Option String
  json : Bool
  deriving DecidableEq, Repr

inductive Command where
  | init (force : Bool)
  | run (options : RunOptions)
  | scope (input : String) (json lenient : Bool)
  | plan (input : String) (cypher : Bool)
  | stats (database? : Option String) (json : Bool)
  deriving DecidableEq, Repr

structure Invocation where
  config? : Option String
  command : Command
  deriving DecidableEq, Repr

inductive Request where
  | help
  | version
  | misuse
  | invoke (invocation : Invocation)
  deriving DecidableEq, Repr

/-! ## Options -/

inductive Opt where
  | help
  | version
  | verbose
  | config
  | force
  | input
  | database
  | outputDir
  | baseDir
  | lenient
  | cypher
  | json
  deriving DecidableEq, Repr

structure Spelling where
  opt : Opt
  long : String
  short? : Option Char
  takesValue : Bool
  deriving DecidableEq, Repr

inductive CommandName where
  | init
  | run
  | scope
  | plan
  | stats
  deriving DecidableEq, Repr

def CommandName.ofText? : String → Option CommandName
  | "init" => some .init
  | "run" => some .run
  | "scope" => some .scope
  | "plan" => some .plan
  | "stats" => some .stats
  | _ => none

namespace Spelling

def everywhere : List Spelling :=
  [⟨.help, "help", some 'h', false⟩, ⟨.verbose, "verbose", some 'v', false⟩,
   ⟨.config, "config", some 'c', true⟩]

def input : Spelling := ⟨.input, "input", some 'i', true⟩

def database : Spelling := ⟨.database, "database", some 'd', true⟩

def lenient : Spelling := ⟨.lenient, "lenient", none, false⟩

def json : Spelling := ⟨.json, "json", none, false⟩

/-- The options of a command; those before any command if there is none. -/
def accepted : Option CommandName → List Spelling
  | none => ⟨.version, "version", some 'V', false⟩ :: everywhere
  | some .init => ⟨.force, "force", none, false⟩ :: everywhere
  | some .run =>
    [input, database, ⟨.outputDir, "output-dir", some 'o', true⟩,
      ⟨.baseDir, "base-dir", none, true⟩, lenient, ⟨.cypher, "cypher", none, true⟩, json] ++
      everywhere
  | some .scope => [input, json, lenient] ++ everywhere
  | some .plan => [input, ⟨.cypher, "cypher", none, false⟩] ++ everywhere
  | some .stats => [database, json] ++ everywhere

end Spelling

structure Given where
  flags : List Opt
  values : List (Opt × String)
  deriving DecidableEq, Repr

namespace Given

def nothing : Given := ⟨[], []⟩

def value? (given : Given) (opt : Opt) : Option String :=
  (given.values.find? (·.1 = opt)).map Prod.snd

/-- Adds a value, which must not be empty; no option is given twice. -/
def addValue? (given : Given) (opt : Opt) (value : String) : Option Given :=
  if value = "" ∨ (given.value? opt).isSome then none
  else some { given with values := given.values ++ [(opt, value)] }

def addFlag? (given : Given) (opt : Opt) : Option Given :=
  if opt ∈ given.flags then none else some { given with flags := given.flags ++ [opt] }

end Given

/-- How far the reading has come after an argument. -/
inductive Progress where
  | help
  | version
  | misuse
  /-- Going on, with the option whose value is to come. -/
  | going (given : Given) (awaited? : Option Opt)
  deriving DecidableEq, Repr

def Progress.ofGiven? : Option Given → Progress
  | some given => .going given none
  | none => .misuse

def Progress.ofFlag (given : Given) (opt : Opt) : Progress :=
  match opt with
  | .help => .help
  | .version => .version
  | _ => .ofGiven? (given.addFlag? opt)

/-- Reads an option in its long form, with or without a value behind the sign of equality. -/
def readLong (spellings : List Spelling) (given : Given) (text : List Char) : Progress :=
  let name := String.ofList (text.takeWhile (· ≠ '='))
  let attached? := (text.dropWhile (· ≠ '=')).tail?
  match spellings.find? (·.long = name) with
  | none => .misuse
  | some spelling =>
    match spelling.takesValue, attached? with
    | true, some value => .ofGiven? (given.addValue? spelling.opt (String.ofList value))
    | true, none => .going given (some spelling.opt)
    | false, some _ => .misuse
    | false, none => .ofFlag given spelling.opt

/-- Reads options in their short form; behind one that takes a value stands its value. -/
def readShort (spellings : List Spelling) (given : Given) : List Char → Progress
  | [] => .going given none
  | letter :: rest =>
    match spellings.find? (·.short? = some letter) with
    | none => .misuse
    | some spelling =>
      if spelling.takesValue then
        match rest with
        | [] => .going given (some spelling.opt)
        | '=' :: value => .ofGiven? (given.addValue? spelling.opt (String.ofList value))
        | value => .ofGiven? (given.addValue? spelling.opt (String.ofList value))
      else
        match Progress.ofFlag given spelling.opt with
        | .going grown _ => readShort spellings grown rest
        | stopped => stopped

def readArgument (spellings : List Spelling) (given : Given) (awaited? : Option Opt)
    (argument : String) : Progress :=
  match argument.toList, awaited? with
  | '-' :: '-' :: text, none => readLong spellings given text
  | '-' :: letter :: letters, none => readShort spellings given (letter :: letters)
  | '-' :: _ :: _, some _ => .misuse
  | _, some opt => .ofGiven? (given.addValue? opt argument)
  | _, none => .misuse

/-! ## Commands -/

/-- Behind a double dash no argument is accepted. -/
def readNothing (given : Given) (awaited? : Option Opt) (rest : List String) : Progress :=
  match rest, awaited? with
  | [], none => .going given none
  | _, _ => .misuse

def readOptions (spellings : List Spelling) (given : Given) (awaited? : Option Opt) :
    List String → Progress
  | [] => if awaited?.isSome then .misuse else .going given none
  | "--" :: rest => readNothing given awaited? rest
  | argument :: rest =>
    match readArgument spellings given awaited? argument with
    | .going grown next => readOptions spellings grown next rest
    | stopped => stopped

def Given.command? (given : Given) : CommandName → Option Command
  | .init => some (.init (.force ∈ given.flags))
  | .run => (given.value? .input).map fun input => .run {
      input
      database? := given.value? .database
      outputDir? := given.value? .outputDir
      baseDir? := given.value? .baseDir
      lenient := .lenient ∈ given.flags
      cypher? := given.value? .cypher
      json := .json ∈ given.flags }
  | .scope => (given.value? .input).map fun input =>
      .scope input (.json ∈ given.flags) (.lenient ∈ given.flags)
  | .plan => (given.value? .input).map fun input => .plan input (.cypher ∈ given.flags)
  | .stats => some (.stats (given.value? .database) (.json ∈ given.flags))

def readCommand (before : Given) (name : CommandName) (arguments : List String) : Request :=
  match readOptions (Spelling.accepted (some name)) .nothing none arguments with
  | .help => .help
  | .version => .version
  | .misuse => .misuse
  | .going given _ =>
    match given.command? name with
    | some command => .invoke ⟨(given.value? .config).or (before.value? .config), command⟩
    | none => .misuse

def readHelp : List String → Request
  | [] => .help
  | [name] => if name = "help" ∨ (CommandName.ofText? name).isSome then .help else .misuse
  | _ => .misuse

def readAll (given : Given) (awaited? : Option Opt) : List String → Request
  | [] => .misuse
  | argument :: rest =>
    match awaited?, CommandName.ofText? argument with
    | none, some name => readCommand given name rest
    | _, _ =>
      if awaited? = none ∧ argument = "help" then readHelp rest
      else if argument = "--" then .misuse
      else
        match readArgument (Spelling.accepted none) given awaited? argument with
        | .help => .help
        | .version => .version
        | .misuse => .misuse
        | .going grown next => readAll grown next rest

def Request.ofArguments (arguments : List String) : Request := readAll .nothing none arguments

end ScopeGraph.CommandLine
