/-!
# Reading bytes as text

Bytes that are no UTF-8 are read with U+FFFD in the place of each broken sequence: the longest
start of a character that the bytes hold, or a single byte.
-/
set_option autoImplicit false

namespace ScopeGraph.Text

/-- What a leading byte asks for: its share of the code point, how many bytes follow, and the range
of the first of them. -/
structure Lead where
  share : Nat
  following : Nat
  least : Nat
  greatest : Nat

def lead? (byte : Nat) : Option Lead :=
  if byte < 0x80 then some ⟨byte, 0, 0x80, 0xBF⟩
  else if byte < 0xC2 then none
  else if byte < 0xE0 then some ⟨byte - 0xC0, 1, 0x80, 0xBF⟩
  else if byte = 0xE0 then some ⟨0, 2, 0xA0, 0xBF⟩
  else if byte = 0xED then some ⟨0xD, 2, 0x80, 0x9F⟩
  else if byte < 0xF0 then some ⟨byte - 0xE0, 2, 0x80, 0xBF⟩
  else if byte = 0xF0 then some ⟨0, 3, 0x90, 0xBF⟩
  else if byte < 0xF4 then some ⟨byte - 0xF0, 3, 0x80, 0xBF⟩
  else if byte = 0xF4 then some ⟨4, 3, 0x80, 0x8F⟩
  else none

def replacement : Char := Char.ofNat 0xFFFD

/-- Reads bytes; `started?` is the character that is under way. -/
def readBytes (started? : Option Lead) : List UInt8 → List Char
  | [] => if started?.isSome then [replacement] else []
  | byte :: rest =>
    let b := byte.toNat
    match started? with
    | some lead =>
      if lead.least ≤ b ∧ b ≤ lead.greatest then
        let share := lead.share * 64 + (b - 0x80)
        if lead.following = 1 then Char.ofNat share :: readBytes none rest
        else readBytes (some ⟨share, lead.following - 1, 0x80, 0xBF⟩) rest
      else replacement :: fresh b rest
    | none => fresh b rest
where
  /-- A byte where a character starts. -/
  fresh (b : Nat) (rest : List UInt8) : List Char :=
    match lead? b with
    | none => replacement :: readBytes none rest
    | some lead =>
      if lead.following = 0 then Char.ofNat lead.share :: readBytes none rest
      else readBytes (some lead) rest

def ofBytes (bytes : List UInt8) : String := String.ofList (readBytes none bytes)

end ScopeGraph.Text
