import ScopeGraph.Text.Characters
import ScopeGraph.Text.Utf8

/-!
# Names of databases

A database is named by a path, or by a text that starts with `file:` and holds an escaped path and
settings: `file:path?name=value&name=value#remark`.  An escape is a percent sign and the two
hexadecimal digits of a byte.
-/
set_option autoImplicit false

namespace ScopeGraph.Files

inductive Access where
  | read
  /-- The file has to be there. -/
  | write
  | create
  /-- There is no file. -/
  | memory
  deriving DecidableEq, Repr

namespace Access

def ofName? : String → Option Access
  | "ro" => some read
  | "rw" => some write
  | "rwc" => some create
  | "memory" => some memory
  | _ => none

def rank : Access → Nat
  | read => 1
  | write => 2
  | create => 6
  | memory => 128

/-- An access may be replaced by one that allows no more, and by memory. -/
def replace? (current wanted : Access) : Option Access :=
  if wanted = memory ∨ wanted.rank ≤ current.rank then some wanted else none

end Access

inductive Locking where
  /-- By locks on its file. -/
  | shared
  /-- By a lock on its file that is kept to the end. -/
  | exclusive
  /-- By a directory beside its file. -/
  | directory
  | none
  deriving DecidableEq, Repr

structure DatabaseName where
  path : List UInt8
  access : Access
  /-- Files are reached through memory only. -/
  detached : Bool
  /-- The file is taken never to change: it is neither locked nor written. -/
  frozen : Bool
  locking : Locking
  /-- The index of a log is read but neither made nor changed. -/
  borrowsIndex : Bool
  /-- A path that has to be there. -/
  model? : Option (List UInt8)
  deriving DecidableEq, Repr

namespace DatabaseName

/-- The bytes of an escaped text.  The byte zero ends it. -/
def unescape : List Char → List UInt8
  | [] => []
  | '%' :: high :: low :: rest =>
    match Text.hexValue? high, Text.hexValue? low with
    | some h, some l => if h = 0 ∧ l = 0 then [] else UInt8.ofNat (16 * h + l) :: unescape rest
    | _, _ => 0x25 :: unescape (high :: low :: rest)
  | c :: rest => String.utf8EncodeChar c ++ unescape rest

def cutAt (mark : Char) (chars : List Char) : List Char × List Char :=
  (chars.takeWhile (· ≠ mark), (chars.dropWhile (· ≠ mark)).drop 1)

structure Setting where
  name : String
  value : List UInt8

def Setting.text (setting : Setting) : String := Text.ofBytes setting.value

/-- The settings behind a path in their order, those without a name left out. -/
def settings (query : List Char) : List Setting :=
  ((Text.splitAt '&' query).map fun part =>
    let (name, value) := cutAt '=' part
    ⟨Text.ofBytes (unescape name), unescape value⟩).filter (·.name ≠ "")

def setting? (settings : List Setting) (name : String) : Option Setting :=
  settings.find? (·.name = name)

def heed (access : Access) (setting : Setting) : Option Access :=
  match setting.name, setting.text with
  | "mode", value => (Access.ofName? value).bind access.replace?
  | "cache", value => if value = "shared" ∨ value = "private" then some access else none
  | _, _ => some access

def layer? : String → Option (Option Locking)
  | "unix" => some (some .shared)
  | "unix-excl" => some (some .exclusive)
  | "unix-dotfile" => some (some .directory)
  | "unix-none" => some (some .none)
  | "memdb" => some none
  | _ => none

/-- The number that a text starts with; zero if it does not fit 31 bits. -/
def leadingNumber (chars : List Char) : Nat :=
  let (base, digits) :=
    match chars with
    | '0' :: 'x' :: c :: rest | '0' :: 'X' :: c :: rest =>
      if (Text.hexValue? c).isSome then (16, (c :: rest).takeWhile (Text.hexValue? · |>.isSome))
      else (10, ['0']) -- a zero with something behind it
    | _ => (10, chars.takeWhile Char.isDigit)
  let number := digits.foldl (fun total c => total * base + (Text.hexValue? c).getD 0) 0
  if number < Nat.pow 2 31 then number else 0

/-- A setting is switched on by a word or by a number whose last byte is not zero. -/
def isOn (value : String) : Bool :=
  if value.toList.head?.any Char.isDigit then leadingNumber value.toList % 256 ≠ 0
  else value.map Char.toLower ∈ ["on", "yes", "true"]

def switchedOn (settings : List Setting) (name : String) : Bool :=
  (setting? settings name).any fun setting => isOn setting.text

def ofEscaped? (chars : List Char) : Option DatabaseName := do
  let (path, query) := cutAt '?' (cutAt '#' chars).1
  let settings := settings query
  let access ← settings.foldlM heed .create
  -- Of the layers that are named the last one counts, of other settings the first.
  let layer ← layer? (((setting? settings.reverse "vfs").map Setting.text).getD "unix")
  return {
    path := unescape path
    access
    detached := layer.isNone
    frozen := switchedOn settings "immutable"
    locking := if switchedOn settings "nolock" then .none else layer.getD .none
    borrowsIndex := switchedOn settings "readonly_shm"
    model? := (setting? settings "modeof").map Setting.value }

/-- Skips the authority of a name: none, or the own computer. -/
def skipAuthority? : List Char → Option (List Char)
  | '/' :: '/' :: rest =>
    let host := String.ofList (rest.takeWhile (· ≠ '/'))
    if host = "" ∨ host = "localhost" then some (rest.dropWhile (· ≠ '/')) else none
  | chars => some chars

def ofText? (text : String) : Option DatabaseName :=
  if '\x00' ∈ text.toList then none
  else
    match text.toList with
    | 'f' :: 'i' :: 'l' :: 'e' :: ':' :: rest => (skipAuthority? rest).bind ofEscaped?
    | _ => some ⟨text.toUTF8.toList, .create, false, false, .shared, false, none⟩

def isVolatile (name : DatabaseName) : Bool :=
  name.path = [] || name.path = ":memory:".toUTF8.toList || name.access = .memory

def longestDetached : Nat := 1016

/-- Whether a database without a file can be set up; none if there is a file. -/
def inMemory? (name : DatabaseName) : Option Bool :=
  if name.isVolatile then some (name.access ≠ .read)
  else if name.detached then
    some (name.access ≠ .read && !name.frozen && name.path.length ≤ longestDetached)
  else none

end DatabaseName
end ScopeGraph.Files
