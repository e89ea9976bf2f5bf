import ScopeGraph.Files.Change
import ScopeGraph.Toml.Document
import ScopeGraph.Toml.Quoted

/-!
# Configuration

Settings are read from a TOML file in which every key may be missing, and written to a new one.
-/
set_option autoImplicit false

namespace ScopeGraph

open Files (Tree Changed)

structure Config where
  /-- The file of the graph database. -/
  database : String
  /-- The root directory of the artifacts. -/
  outputDir : String
  /-- Source paths are recorded relative to this directory. -/
  baseDir? : Option String
  /-- Sources with syntax errors are refused. -/
  strictSyntax : Bool
  deriving DecidableEq, Repr

inductive ConfigError where
  | io (refusal : Refusal)
  /-- The text is no TOML, or a setting has the wrong type. -/
  | unreadable
  | alreadyThere (path : String)
  deriving DecidableEq, Repr

def ConfigError.message : ConfigError → String
  | io refusal => refusal.message
  | unreadable => "TOML parse error"
  | alreadyThere path => s!"config already exists at {path} (use --force to overwrite)"

namespace Config

def standard : Config := ⟨"callscope.db", "output", none, true⟩

def standardPath : String := "callscope.toml"

/-- A setting that is a string, if it is there; `none` if it has another type. -/
def string? (table : Toml.Table) (key : String) : Option (Option String) :=
  match table.get? key with
  | none => some none
  | some (.string content) => some (some content)
  | some _ => none

def flag? (table : Toml.Table) (key : String) : Option (Option Bool) :=
  match table.get? key with
  | none => some none
  | some (.boolean value) => some (some value)
  | some _ => none

def ofTable? (table : Toml.Table) : Option Config := do
  let database ← string? table "database"
  let outputDir ← string? table "output_dir"
  let baseDir ← string? table "base_dir"
  let strictSyntax ← flag? table "strict_syntax"
  return {
    database := database.getD standard.database
    outputDir := outputDir.getD standard.outputDir
    baseDir? := baseDir
    strictSyntax := strictSyntax.getD standard.strictSyntax }

def ofText? (text : String) : Option Config := (Toml.parse? text).bind ofTable?

def toText (config : Config) : String :=
  let base := match config.baseDir? with
    | some directory => s!"base_dir = {Toml.quoted directory}\n"
    | none => ""
  s!"database = {Toml.quoted config.database}\n" ++
    s!"output_dir = {Toml.quoted config.outputDir}\n" ++ base ++
    s!"strict_syntax = {config.strictSyntax}\n"

def load (tree : Tree) (path : String) : Except ConfigError (Option Config) :=
  if tree.has path then
    match tree.readText path with
    | .error refusal => .error (.io refusal)
    | .ok text =>
      match ofText? text with
      | some config => .ok (some config)
      | none => .error .unreadable
  else .ok none

/-- Writes the settings to a file, over an existing one only by force. -/
def save (config : Config) (tree : Tree) (path : String) (force : Bool) :
    Except ConfigError Unit × Tree :=
  if tree.has path && !force then (.error (.alreadyThere path), tree)
  else
    match tree.write path (.text config.toText) with
    | ⟨.ok (), written⟩ => (.ok (), written)
    | ⟨.error refusal, left⟩ => (.error (.io refusal), left)

end Config

/-- Makes the directory that a file is to stand in, unless there is something of its name. -/
def ensureParent (tree : Tree) (path : String) : Changed :=
  match Files.Path.parent? path with
  | none => ⟨.ok (), tree⟩
  | some parent =>
    if parent = "" ∨ tree.has parent then ⟨.ok (), tree⟩ else tree.makeDirectories parent

end ScopeGraph
