import ScopeGraph.Json.Basic

/-!
# Call chains

A call chain is the callee of a call as a path of names: `this.store.get()` calls
`this`, `store`, `get`.  Chains with the same segments in another order count as one chain, and the
one listed first stands for them.
-/
set_option autoImplicit false

namespace ScopeGraph

structure CallChain where
  segments : List String
  deriving DecidableEq, Repr

namespace CallChain

def target? (chain : CallChain) : Option String := chain.segments.getLast?

def display (chain : CallChain) : String := ".".intercalate chain.segments

def toJson (chain : CallChain) : Json := .array (chain.segments.map .string)

def insertSorted (segment : String) : List String → List String
  | [] => [segment]
  | head :: rest =>
    if segment ≤ head then segment :: head :: rest else head :: insertSorted segment rest

/-- The segments in order of their characters, the same for chains that are reorderings of each
other. -/
def key (chain : CallChain) : List String := chain.segments.foldr insertSorted []

/-- Drops the chains whose key is among `seen` or belongs to an earlier chain. -/
def uniqueBeyond (seen : List (List String)) : List CallChain → List CallChain
  | [] => []
  | chain :: rest =>
    if chain.key ∈ seen then uniqueBeyond seen rest
    else chain :: uniqueBeyond (chain.key :: seen) rest

def unique (chains : List CallChain) : List CallChain := uniqueBeyond [] chains

end CallChain
end ScopeGraph
