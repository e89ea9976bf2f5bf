import ScopeGraph.Syntax.Node

/-!
# Comments

Comments are found through the named children of a tree and listed by where they start.  A block
comment that opens with a second star is a doc comment.
-/
set_option autoImplicit false

namespace ScopeGraph.Syntax

inductive CommentKind where
  | block
  | line
  deriving DecidableEq, Repr

structure Comment where
  /-- The whole comment, delimiters included. -/
  text : String
  span : Span
  startRow : Nat
  endRow : Nat
  deriving DecidableEq, Repr

namespace Comment

/-- What follows `front`, if `chars` starts with it. -/
def after? : List Char → List Char → Option (List Char)
  | [], chars => some chars
  | _ :: _, [] => none
  | f :: front, c :: chars => if f = c then after? front chars else none

/-- What precedes `back`, if `chars` ends with it. -/
def before? (back chars : List Char) : Option (List Char) :=
  (after? back.reverse chars.reverse).map List.reverse

def kind (comment : Comment) : CommentKind :=
  if (after? ['/', '*'] comment.text.toList).isSome then .block else .line

def value (comment : Comment) : String :=
  match comment.kind with
  | .block =>
    String.ofList (((after? ['/', '*'] comment.text.toList).bind (before? ['*', '/'])).getD [])
  | .line => String.ofList ((after? ['/', '/'] comment.text.toList).getD comment.text.toList)

def isDoc (comment : Comment) : Bool :=
  comment.kind = .block && comment.value.toList.head? = some '*'

def ofNode (source : String) (node : Node) : Comment where
  text := node.text source
  span := node.span
  startRow := Text.row source node.span.start
  endRow := Text.row source node.span.stop

/-- Puts a comment behind those that start no later. -/
def insert (comment : Comment) : List Comment → List Comment
  | [] => [comment]
  | head :: rest =>
    if comment.span.start < head.span.start then comment :: head :: rest
    else head :: insert comment rest

def sortByStart (comments : List Comment) : List Comment :=
  comments.foldl (fun sorted comment => insert comment sorted) []

end Comment

namespace Node

mutual

/-- The comment nodes reached through named children, in document order. -/
def commentNodes : Node → List Node
  | ⟨kind, field, span, named, faulty, flagged, children⟩ =>
    if kind = .comment then [⟨kind, field, span, named, faulty, flagged, children⟩]
    else commentNodesAll children

def commentNodesAll : List Node → List Node
  | [] => []
  | node :: rest =>
    if node.named then node.commentNodes ++ commentNodesAll rest else commentNodesAll rest

end

def comments (source : String) (root : Node) : List Comment :=
  Comment.sortByStart (root.commentNodes.map (Comment.ofNode source))

end Node
end ScopeGraph.Syntax
