import ScopeGraph.Text.Utf8

/-!
# Names of files

A name is nearly always a text, but the file system takes any bytes.
-/
set_option autoImplicit false

namespace ScopeGraph.Files

inductive Name where
  | text (content : String)
  /-- Bytes that are no text. -/
  | raw (content : List UInt8)
  deriving DecidableEq, Repr

namespace Name

def ofBytes (bytes : List UInt8) : Name :=
  match String.fromUTF8? ⟨bytes.toArray⟩ with
  | some content => .text content
  | none => .raw bytes

def bytes : Name → List UInt8
  | text content => content.toUTF8.toList
  | raw content => content

def size : Name → Nat
  | text content => content.utf8ByteSize
  | raw content => content.length

/-- The name as it is shown, broken characters replaced. -/
def shown : Name → String
  | text content => content
  | raw content => Text.ofBytes content

def extend (name : Name) (ending : String) : Name :=
  match name with
  | text content => .text (content ++ ending)
  | raw content => .raw (content ++ ending.toUTF8.toList)

def longest : Nat := 255

end Name
end ScopeGraph.Files
