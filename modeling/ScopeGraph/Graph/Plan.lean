import ScopeGraph.Artifact
import ScopeGraph.Graph.Containment
import ScopeGraph.Graph.MergeOp
import ScopeGraph.Scope.Entries

/-!
# The plan of a scope

A plan lists the merges that put a scope into the graph: its folders and its file, the declarations
at file level, the nested declarations, and the calls of all of them.
-/
set_option autoImplicit false

namespace ScopeGraph
namespace Plan

def folderKey (name : String) : NodeKey := ⟨.folder, [("name", name)]⟩

def fileKey (path fileName : String) : NodeKey := ⟨.file, [("name", fileName), ("path", path)]⟩

def calleeKey (path name : String) : NodeKey := ⟨.callee, [("name", name), ("path", path)]⟩

def entryKey (path : String) (entry : Entry) : NodeKey :=
  let name := entry.descriptor.name
  match entry.owner? with
  | none =>
    let label : Label := if entry.descriptor.kind = .classDecl then .classDecl else .function
    ⟨label, [("name", name), ("path", path)]⟩
  | some owner => ⟨.method, [("name", name), ("path", path), ("owner", owner)]⟩

/-- Links each key of a list to the next one. -/
def linkNext (kind : RelKind) : List NodeKey → List MergeOp
  | first :: second :: rest => .link first kind second :: linkNext kind (second :: rest)
  | _ => []

/-- The folders with their links, the file, and the link to the file from the last folder. -/
def containmentOps (path : String) (place : Containment) : List MergeOp :=
  let folders := place.folders.map folderKey
  let file := fileKey path place.fileName
  place.folders.map (fun name => .plainNode (folderKey name) [("name", name)]) ++
    linkNext .folder folders ++
    .plainNode file [("name", place.fileName), ("path", path)] ::
    (folders.getLast?.map fun folder => MergeOp.link folder .contains file).toList

def entryProperties (layout : Layout) (path : String) (entry : Entry) : List (String × String) :=
  let locator := layout.recordedLocator path entry.qualifiedName
  [("name", entry.descriptor.name), ("path", path), ("kind", entry.descriptor.kind.name),
    ("calls", (Json.array (entry.descriptor.chains.map CallChain.toJson)).render),
    ("js", locator .code)] ++
    (entry.owner?.map fun owner => ("owner", owner)).toList ++
    (entry.descriptor.doc?.map fun _ => ("jsdoc", locator .doc)).toList

def entryNode (layout : Layout) (path tag : String) (entry : Entry) : MergeOp :=
  .node ⟨entryKey path entry, some tag, Dictionary.ofList (entryProperties layout path entry)⟩

/-- The node of an entry at file level and its link from the file. -/
def topLevelOps (layout : Layout) (path : String) (place : Containment) (entry : Entry) :
    List MergeOp :=
  match entry.owner? with
  | some _ => []
  | none =>
    [entryNode layout path place.fileName entry,
      .link (fileKey path place.fileName) .contains (entryKey path entry)]

/-- The node of a nested entry and its link to the last entry that its owner names. -/
def memberOps (layout : Layout) (path : String) (place : Containment) (entries : List Entry)
    (entry : Entry) : List MergeOp :=
  match entry.owner? with
  | none => []
  | some owner =>
    entryNode layout path place.fileName entry ::
      ((entries.reverse.find? (·.qualifiedName = owner)).map fun holder =>
        MergeOp.link (entryKey path entry) .parent (entryKey path holder)).toList

/-- The nodes of the segments whose keys have none yet, with the texts of all keys that have one
then. -/
def calleeNodes (path : String) (seen : List String) : List String → List MergeOp × List String
  | [] => ([], seen)
  | segment :: rest =>
    let key := calleeKey path segment
    let text := key.canonical
    if text ∈ seen then calleeNodes path seen rest
    else
      let others := calleeNodes path (text :: seen) rest
      (.plainNode key [("name", segment), ("path", path)] :: others.1, others.2)

/-- The callees of a chain, the call of the last one, and the links along the chain. -/
def chainOps (path : String) (caller : NodeKey) (seen : List String) (chain : CallChain) :
    List MergeOp × List String :=
  match chain.target? with
  | none => ([], seen)
  | some target =>
    let nodes := calleeNodes path seen chain.segments
    (nodes.1 ++
      .relationship ⟨caller, .calls, calleeKey path target,
        Dictionary.ofList [("chain", chain.display)]⟩ ::
      linkNext .calls (chain.segments.map (calleeKey path)), nodes.2)

def chainsOps (path : String) (caller : NodeKey) (seen : List String) :
    List CallChain → List MergeOp × List String
  | [] => ([], seen)
  | chain :: rest =>
    let first := chainOps path caller seen chain
    let others := chainsOps path caller first.2 rest
    (first.1 ++ others.1, others.2)

def callOps (path : String) (seen : List String) : List Entry → List MergeOp
  | [] => []
  | entry :: rest =>
    let first := chainsOps path (entryKey path entry) seen entry.descriptor.chains
    first.1 ++ callOps path first.2 rest

def ops (layout : Layout) (path : String) (place : Containment) (entries : List Entry) :
    List MergeOp :=
  containmentOps path place ++
    entries.flatMap (topLevelOps layout path place) ++
    entries.flatMap (memberOps layout path place entries) ++
    callOps path [] entries

end Plan

def Scope.plan (scope : Scope) (layout : Layout) : Except Error (List MergeOp) :=
  (Containment.ofPath scope.sourcePath).map fun place =>
    Plan.ops layout scope.sourcePath place scope.entries

end ScopeGraph
