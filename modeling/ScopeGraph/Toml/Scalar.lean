import ScopeGraph.Toml.Scan
import ScopeGraph.Toml.Value

/-!
# Numbers, dates and other bare values of TOML

A bare value is a run of letters, digits and a few signs; what may follow it begins with none of
these.
-/
set_option autoImplicit false

namespace ScopeGraph.Toml

def isBareChar (c : Char) : Bool :=
  c.isAlphanum || c = '_' || c = '+' || c = '-' || c = '.' || c = ':'

/-- Digits with single underscores between them; the underscores are dropped. -/
def grouped (isDigit : Char → Bool) : List Char → Option (List Char)
  | [] => none
  | [c] => if isDigit c then some [c] else none
  | c :: '_' :: rest => if isDigit c then (grouped isDigit rest).map (c :: ·) else none
  | c :: rest => if isDigit c then (grouped isDigit rest).map (c :: ·) else none

def numberIn (base : Nat) (digits : List Char) : Nat :=
  digits.foldl (fun value c => value * base + (Text.hexValue? c).getD 0) 0

def signed : List Char → Bool × List Char
  | '-' :: rest => (true, rest)
  | '+' :: rest => (false, rest)
  | text => (false, text)

/-- Decimal digits without needless zeros in front. -/
def decimalDigits? (text : List Char) : Option (List Char) :=
  match grouped Char.isDigit text with
  | some ('0' :: _ :: _) => none
  | digits => digits

def based? (base : Nat) (isDigit : Char → Bool) (text : List Char) : Option Int :=
  match grouped isDigit text with
  | some digits =>
    let value := numberIn base digits
    if value < Nat.pow 2 63 then some (value : Int) else none
  | none => none

def integer? : List Char → Option Int
  | '0' :: 'x' :: rest => based? 16 (fun c => (Text.hexValue? c).isSome) rest
  | '0' :: 'o' :: rest => based? 8 (fun c => '0' ≤ c && c ≤ '7') rest
  | '0' :: 'b' :: rest => based? 2 (fun c => c = '0' || c = '1') rest
  | text =>
    let (negative, rest) := signed text
    match decimalDigits? rest with
    | none => none
    | some digits =>
      let value := numberIn 10 digits
      if negative then if value ≤ Nat.pow 2 63 then some (-(value : Int)) else none
      else if value < Nat.pow 2 63 then some (value : Int) else none

/-! ## Floats -/

def cutAt (splits : Char → Bool) (text : List Char) : List Char × Option (List Char) :=
  (text.takeWhile (!splits ·), (text.dropWhile (!splits ·)).tail?)

/-- From here on the nearest double is infinite. -/
def floatBound : Nat := Nat.pow 2 1024 - Nat.pow 2 970

/-- The decimal `digits * 10 ^ exponent` lies below the bound of finite doubles. -/
def isFinite (digits : List Char) (exponent : Int) : Bool :=
  let shown := digits.dropWhile (· = '0')
  let size := shown.length + exponent
  if shown = [] ∨ size < 300 then true
  else if 310 < size then false
  else if 0 ≤ exponent then numberIn 10 shown * Nat.pow 10 exponent.toNat < floatBound
  else numberIn 10 shown < floatBound * Nat.pow 10 (-exponent).toNat

def exponent? (text : List Char) : Option Int :=
  let (negative, rest) := signed text
  (grouped Char.isDigit rest).map fun digits =>
    if negative then -(numberIn 10 digits : Int) else numberIn 10 digits

def isDecimalFloat (text : List Char) : Bool :=
  let (negative, number) := signed text
  let (mantissa, power?) := cutAt (fun c => c = 'e' || c = 'E') number
  let (whole, fraction?) := cutAt (· = '.') mantissa
  let power := power?.map exponent?
  let fraction := fraction?.map (grouped Char.isDigit)
  match decimalDigits? whole, fraction, power with
  | some _, none, none => false
  | some _, some none, _ => false
  | some _, _, some none => false
  | some digits, fraction, power =>
    let decimals := (fraction.bind id).getD []
    negative || isFinite (digits ++ decimals) ((power.bind id).getD 0 - decimals.length)
  | none, _, _ => false

def isSpecialFloat (text : List Char) : Bool :=
  let name := (signed text).2
  name = ['i', 'n', 'f'] || name = ['n', 'a', 'n']

/-! ## Dates and times -/

def twoDigits? : Reader Nat
  | a :: b :: rest =>
    if a.isDigit && b.isDigit then some (numberIn 10 [a, b], rest) else none
  | _ => none

def within? (low high : Nat) (text : List Char) : Option (Nat × List Char) :=
  match twoDigits? text with
  | some (value, rest) => if low ≤ value ∧ value ≤ high then some (value, rest) else none
  | none => none

def expect? (c : Char) : List Char → Option (List Char)
  | d :: rest => if d = c then some rest else none
  | [] => none

def daysIn (year month : Nat) : Nat :=
  if month = 2 then
    if year % 4 = 0 ∧ (year % 100 ≠ 0 ∨ year % 400 = 0) then 29 else 28
  else if month = 4 ∨ month = 6 ∨ month = 9 ∨ month = 11 then 30
  else 31

def date? (text : List Char) : Option (List Char) := do
  let (century, rest) ← twoDigits? text
  let (years, rest) ← twoDigits? rest
  let (month, rest) ← within? 1 12 (← expect? '-' rest)
  let (_, rest) ← within? 1 (daysIn (century * 100 + years) month) (← expect? '-' rest)
  return rest

def time? (text : List Char) : Option (List Char) := do
  let (_, rest) ← within? 0 23 text
  let (_, rest) ← within? 0 59 (← expect? ':' rest)
  let (_, rest) ← within? 0 60 (← expect? ':' rest)
  match rest with
  | '.' :: c :: more => if c.isDigit then some (more.dropWhile Char.isDigit) else none
  | '.' :: [] => none
  | _ => some rest

def isOffset : List Char → Bool
  | ['Z'] | ['z'] => true
  | c :: rest =>
    (c = '+' || c = '-') &&
      match within? 0 23 rest with
      | some (_, ':' :: minutes) => (within? 0 59 minutes).map Prod.snd = some []
      | _ => false
  | [] => false

def isDayTime (text : List Char) : Bool :=
  match time? text with
  | some [] => true
  | some rest => isOffset rest
  | none => false

def isDateTime (text : List Char) : Bool :=
  match date? text with
  | some [] => true
  | some (c :: rest) => (c = 'T' || c = 't') && isDayTime rest
  | none => time? text = some []

/-! ## Bare values -/

def bareValue? (word : List Char) : Option Value :=
  if word = ['t', 'r', 'u', 'e'] then some (.boolean true)
  else if word = ['f', 'a', 'l', 's', 'e'] then some (.boolean false)
  else if isDateTime word then some (.dateTime (String.ofList word))
  else if isDecimalFloat word || isSpecialFloat word then some (.float (String.ofList word))
  else (integer? word).map .integer

/-- Reads a bare value; a date may have its time behind a blank. -/
def bare? (text : List Char) : Option (Value × List Char) :=
  let word := text.takeWhile isBareChar
  let rest := text.dropWhile isBareChar
  let second := rest.tail.takeWhile isBareChar
  if date? word = some [] ∧ rest.head? = some ' ' ∧ isDayTime second then
    some (.dateTime (String.ofList (word ++ ' ' :: second)), rest.tail.dropWhile isBareChar)
  else (bareValue? word).map fun value => (value, rest)

end ScopeGraph.Toml
