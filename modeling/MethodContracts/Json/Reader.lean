import MethodContracts.Json.Basic
import MethodContracts.Text.Digit
import MethodContracts.Text.Reader

/-!
# Reading JSON

Arrays and objects nest at most 127 deep. An escape may name a character beyond
the first 65536 by a pair of surrogates; a surrogate on its own is refused.
-/
namespace MethodContracts.Json

open Text

namespace Reader

open Text.Reader

def isSpace (c : Char) : Bool := c == ' ' || c == '\n' || c == '\t' || c == '\r'

def skipSpace : Reader Unit := modify (·.dropWhile isSpace)

/-- Takes four hexadecimal digits. -/
def hex4 : Reader Nat := return ofDigits 16 (← takeExactly (isDigitOf 16) 4)

/-- Takes what follows the letter `u` of an escape. -/
def unicodeEscape : Reader Char := do
  let high ← hex4
  if 0xD800 ≤ high ∧ high < 0xDC00 then
    expectAll ['\\', 'u']
    let low ← hex4
    if 0xDC00 ≤ low ∧ low < 0xE000 then
      return Char.ofNat (0x10000 + (high - 0xD800) * 0x400 + (low - 0xDC00))
    else failure
  else if 0xDC00 ≤ high ∧ high < 0xE000 then failure
  else return Char.ofNat high

/-- Takes what follows the backslash of an escape. -/
def escaped : Reader Char := fun cs =>
  match cs with
  | '"' :: rest => some ('"', rest)
  | '\\' :: rest => some ('\\', rest)
  | '/' :: rest => some ('/', rest)
  | 'b' :: rest => some ('\x08', rest)
  | 'f' :: rest => some ('\x0c', rest)
  | 'n' :: rest => some ('\n', rest)
  | 'r' :: rest => some ('\r', rest)
  | 't' :: rest => some ('\t', rest)
  | 'u' :: rest => unicodeEscape rest
  | _ => none

/-- Takes the rest of a string after its opening quote, at most `limit` characters. -/
def stringRest : Nat → Reader (List Char)
  | 0 => failure
  | limit + 1 => do
    match ← get with
    | [] => failure
    | c :: rest =>
      set rest
      if c = '"' then return []
      else if c = '\\' then return (← escaped) :: (← stringRest limit)
      else if c.val.toNat < 0x20 then failure
      else return c :: (← stringRest limit)

def string : Reader String := do
  expect '"'
  return String.ofList (← stringRest (← get).length)

/-- Takes the digits before the point: zero alone, or digits that do not start with it. -/
def wholeDigits : Reader (List Char) := do
  let digits ← takeWhile1 (isDigitOf 10)
  match digits with
  | ['0'] => return digits
  | '0' :: _ => failure
  | _ => return digits

/-- Takes a point and digits, or nothing. -/
def fraction : Reader (List Char) := do
  if ← accept '.' then return '.' :: (← takeWhile1 (isDigitOf 10))
  else return []

def sign : Reader (List Char) := do
  if ← accept '-' then return ['-']
  else if ← accept '+' then return ['+']
  else return []

/-- Takes an exponent, or nothing. -/
def exponent : Reader (List Char) := do
  match ← peek? with
  | some mark =>
    if mark = 'e' ∨ mark = 'E' then
      expect mark
      return mark :: (← sign) ++ (← takeWhile1 (isDigitOf 10))
    else return []
  | none => return []

/-- The number with these parts: an integer if it is written as one, is not a
negative zero, and fits 64 bits. -/
def numberOf (negative : Bool) (whole fraction exponent : List Char) : Json :=
  let value := ofDigits 10 whole
  let fits :=
    if negative then value != 0 && decide (value ≤ Nat.pow 2 63) else decide (value < Nat.pow 2 64)
  if fraction.isEmpty && exponent.isEmpty && fits then
    .int (if negative then -(value : Int) else value)
  else
    .decimal (String.ofList ((if negative then ['-'] else []) ++ whole ++ fraction ++ exponent))

def number : Reader Json := do
  let negative ← accept '-'
  let whole ← wholeDigits
  let fraction ← fraction
  let exponent ← exponent
  return numberOf negative whole fraction exponent

section Nesting

variable (nested : Reader Json)

/-- Takes a value and the space after it. -/
def item : Reader Json := do
  let json ← nested
  skipSpace
  return json

def array : Reader Json := do
  expect '['
  skipSpace
  if ← accept ']' then return .array []
  let items ← separated ',' (item nested)
  expect ']'
  return .array items

/-- Takes one member of an object and the space around it. -/
def member : Reader (String × Json) := do
  skipSpace
  let name ← string
  skipSpace
  expect ':'
  return (name, ← item nested)

def object : Reader Json := do
  expect '\x7b'
  skipSpace
  if ← accept '\x7d' then return .object []
  let members ← separated ',' (member nested)
  expect '\x7d'
  return .object members

end Nesting

/-- Takes a value that nests no array or object. -/
def scalar : Reader Json := do
  match ← peek? with
  | some '"' => return .string (← string)
  | some 't' =>
    expectAll ['t', 'r', 'u', 'e']
    return .bool true
  | some 'f' =>
    expectAll ['f', 'a', 'l', 's', 'e']
    return .bool false
  | some 'n' =>
    expectAll ['n', 'u', 'l', 'l']
    return .null
  | _ => number

/-- Takes a value that nests arrays and objects at most `depth` deep. -/
def value : Nat → Reader Json
  | 0 => do
    skipSpace
    scalar
  | depth + 1 => do
    skipSpace
    match ← peek? with
    | some '\x7b' => object (value depth)
    | some '[' => array (value depth)
    | _ => scalar

end Reader

/-- The deepest nesting of arrays and objects that is read. -/
def maxDepth : Nat := 127

/-- Reads a text that is one value and nothing else. -/
def parse? (text : String) : Option Json := do
  let (json, rest) ← Reader.value maxDepth text.toList
  if (rest.dropWhile Reader.isSpace).isEmpty then some json else none

end MethodContracts.Json
