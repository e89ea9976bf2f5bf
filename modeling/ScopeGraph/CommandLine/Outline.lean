import ScopeGraph.Json.Basic
import ScopeGraph.Scope.Entries

/-!
# Scopes as text

A scope is shown as an indented list of its declarations with their call chains, followed by its
exports, or as JSON.
-/
set_option autoImplicit false

namespace ScopeGraph

def DeclKind.icon : DeclKind → String
  | function => "ƒ"
  | classDecl => "◆"
  | method => "·"

def Entry.lines (entry : Entry) : List String :=
  let indent := String.ofList (List.replicate (2 * (entry.depth + 1)) ' ')
  let descriptor := entry.descriptor
  let place := s!"L{descriptor.lineStart}-{descriptor.lineEnd}"
  s!"{indent}{descriptor.kind.icon} {descriptor.name} {place}" ::
    descriptor.chains.map fun chain => s!"{indent}  🔗 {chain.display}"

def ExportTable.lines (table : ExportTable) : List String :=
  if table.isEmpty then []
  else
    "" :: "━exports━" :: table.map fun entry =>
      let shown := entry.2.local?.getD "-"
      let mark := if entry.2.isDefault then " (default)" else ""
      s!"  {entry.1} {shown}{mark}"

def Scope.lines (scope : Scope) : List String :=
  s!"📄 {scope.sourcePath}" :: scope.entries.flatMap Entry.lines ++ scope.exports.lines

namespace Descriptor

mutual

def toJson : Descriptor → Json
  | ⟨kind, name, sourcePath, code, doc?, lineStart, lineEnd, members, chains⟩ =>
    .object
      [("kind", .string kind.name), ("name", .string name), ("source_path", .string sourcePath),
       ("raw_code", .string code),
       ("doc_comment", match doc? with | some doc => .string doc | none => .null),
       ("line_start", .number lineStart), ("line_end", .number lineEnd),
       ("members", .object (membersJson members)),
       ("call_chains", .array (chains.map CallChain.toJson))]

def membersJson : List (String × Descriptor) → List (String × Json)
  | [] => []
  | (name, member) :: rest => (name, member.toJson) :: membersJson rest

end

end Descriptor

def ExportBinding.toJson (binding : ExportBinding) : Json :=
  .object
    [("is_default", .bool binding.isDefault),
     ("local_identifier", match binding.local? with | some name => .string name | none => .null)]

def Scope.toJson (scope : Scope) : Json :=
  .object
    [("source_path", .string scope.sourcePath),
     ("functions", .object (Descriptor.membersJson scope.functions)),
     ("classes", .object (Descriptor.membersJson scope.classes)),
     ("exports", .object (scope.exports.map fun entry => (entry.1, entry.2.toJson)))]

end ScopeGraph
