import ScopeGraph.Files.Tree

/-!
# Changes to a file tree

A change may fail half way: what was done before stays.  Two trees are compared item by item.
-/
set_option autoImplicit false

namespace ScopeGraph.Files

structure Changed where
  result : Except Refusal Unit
  tree : Tree

namespace Tree

def destination (tree : Tree) (path : String) : Except Refusal Location :=
  match tree.find true path with
  | .ok (.item location (.file _)) | .ok (.vacant location) => .ok location
  | .ok (.item _ _) => .error .isDirectory
  | .error refusal => .error refusal

def write (tree : Tree) (path : String) (body : Body) : Changed :=
  match tree.destination path with
  | .ok location => ⟨.ok (), tree.put location (.file body)⟩
  | .error refusal => ⟨.error refusal, tree⟩

/-- Writes bytes over the front of a file; what was longer keeps its end. -/
def overwrite (tree : Tree) (location : Location) (bytes : List UInt8) : Tree :=
  let before := match tree.item? location with
    | some (.file body) => body.bytes?.getD []
    | _ => []
  tree.put location (.file (.ofBytes (bytes ++ before.drop bytes.length)))

/-- Where a directory of this path is to be made.  Slashes at its end do not matter and its last
name is taken as it is, links not followed. -/
def room (tree : Tree) (path : String) : Except Refusal Location :=
  match Path.fault? path with
  | some refusal => .error refusal
  | none =>
    let steps := (Path.steps path).filter (· ≠ .slash)
    match tree.walk false linkBudget (startOf path tree.here) (steps.dropLast ++ [.stay]) with
    | .error refusal => .error refusal
    | .ok (.vacant _) => .error .notFound
    | .ok (.item directory _) =>
      match steps.getLast? with
      | some (.down name) =>
        if Name.longest < name.size then .error .nameTooLong
        else if (tree.item? (directory ++ [name])).isSome then .error .alreadyExists
        else .ok (directory ++ [name])
      | _ => .error .alreadyExists

def makeDirectory (tree : Tree) (path : String) : Changed :=
  match tree.room path with
  | .ok location => ⟨.ok (), tree.put location .directory⟩
  | .error refusal => ⟨.error refusal, tree⟩

def makeLink (tree : Tree) (path target : String) : Changed :=
  match tree.room path with
  | .ok location => ⟨.ok (), tree.put location (.link target)⟩
  | .error refusal => ⟨.error refusal, tree⟩

/-- Makes a directory unless there is one. -/
def settleDirectory (tree : Tree) (path : String) : Changed :=
  match tree.makeDirectory path with
  | ⟨.ok (), made⟩ => ⟨.ok (), made⟩
  | ⟨.error refusal, _⟩ =>
    if tree.hasDirectory path then ⟨.ok (), tree⟩ else ⟨.error refusal, tree⟩

/-- Makes the first of the paths a directory, given that each next path is its parent; parents
that are missing are made first. -/
def makeNested (tree : Tree) : List String → Changed
  | [] => ⟨.ok (), tree⟩
  | path :: parents =>
    if path = "" then ⟨.ok (), tree⟩
    else
      match tree.makeDirectory path with
      | ⟨.ok (), made⟩ => ⟨.ok (), made⟩
      | ⟨.error .notFound, _⟩ =>
        match tree.makeNested parents with
        | ⟨.error refusal, left⟩ => ⟨.error refusal, left⟩
        | ⟨.ok (), grown⟩ => grown.settleDirectory path
      | ⟨.error _, _⟩ => tree.settleDirectory path

def makeDirectories (tree : Tree) (path : String) : Changed :=
  tree.makeNested (Path.ancestors path)

def writeNested (tree : Tree) (path : String) (body : Body) : Changed :=
  match Path.parent? path with
  | none => tree.write path body
  | some parent =>
    match tree.makeDirectories parent with
    | ⟨.ok (), grown⟩ => grown.write path body
    | failed => failed

def around (here : Location) : Tree :=
  ⟨here, (List.range here.length).map fun n => (here.take (n + 1), .directory)⟩

/-! ## What has changed -/

/-- The items of `after` that are not the same in `before`, in their order. -/
def changesSince (after before : Tree) : List (Location × Item) :=
  after.items.filter fun entry => before.item? entry.1 ≠ some entry.2

/-- The locations of `before` at which nothing is left in `after`. -/
def removalsSince (after before : Tree) : List Location :=
  (before.items.map Prod.fst).filter fun location => after.item? location = none

end Tree
end ScopeGraph.Files
