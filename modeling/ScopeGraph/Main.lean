import ScopeGraph.CommandLine.Printed
import ScopeGraph.CommandLine.SyntaxTrees
import ScopeGraph.Files.Change
import ScopeGraph.Graph.ContentText

/-!
# The program

Reads the current directory into a file tree, runs the command line on it, writes back what has
changed and prints the answer.
-/
set_option autoImplicit false

namespace ScopeGraph.Program

open Files (Body Item Location Tree)

def pathOf (location : Location) : String :=
  "/" ++ "/".intercalate (location.map Files.Name.shown)

def locationOf (path : String) : Location := (Files.Path.names path).map Files.Name.text

/-- A file holds a graph database, a text or other bytes. -/
def bodyOf (bytes : ByteArray) : Body :=
  match String.fromUTF8? bytes with
  | none => .bytes bytes.toList
  | some text =>
    match Content.ofText? text with
    | some content => .graph content
    | none => .text text

partial def load (tree : Tree) (location : Location) : IO Tree := do
  let mut grown := tree
  for name in ← namesIn (pathOf location) do
    let inner := location ++ [.text name]
    match ← kindOf (pathOf inner) with
    | .dir => grown ← load (grown.put inner .directory) inner
    | .file => grown := grown.put inner (.file (bodyOf (← IO.FS.readBinFile (pathOf inner))))
    | .symlink =>
      let target ← (toString <$> IO.FS.realPath (pathOf inner)).toBaseIO
      grown := grown.put inner (.link (target.toOption.getD ""))
    | .other => pure ()
  return grown
where
  namesIn (path : String) : IO (List String) := do
    let directory ← IO.FS.realPath path
    return (← directory.readDir).toList.map (·.fileName)
  kindOf (path : String) : IO IO.FS.FileType := do
    let parent ← IO.FS.realPath ((Files.Path.parent? path).getD "/")
    let name := (Files.Path.names path).getLast?.getD ""
    return (← (parent / name).symlinkMetadata).type

def store (entry : Location × Item) : IO Unit := do
  let path := pathOf entry.1
  match entry.2 with
  | .directory => IO.FS.createDirAll path
  | .file (.text content) => IO.FS.writeFile path content
  | .file (.bytes content) => IO.FS.writeBinFile path ⟨content.toArray⟩
  | .file (.graph content) => IO.FS.writeFile path content.toText
  | .file .unfinished | .link _ => pure ()

end ScopeGraph.Program

open ScopeGraph in
def main (arguments : List String) : IO UInt32 := do
  let here := Program.locationOf (toString (← IO.FS.realPath "."))
  let before ← Program.load (Files.Tree.around here) here
  let (reaction, after) :=
    CommandLine.react (CommandLine.grammarOf before) before arguments
  for location in after.removalsSince before do
    IO.FS.removeFile (Program.pathOf location)
  for change in after.changesSince before do
    Program.store change
  let answer := reaction.printed
  IO.print answer.output
  IO.eprint answer.errors
  return UInt32.ofNat answer.code
