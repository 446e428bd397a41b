import MethodContracts.Text.Digit
import MethodContracts.Text.Reader
import MethodContracts.Toml.Document

/-!
# Reading documents

Arrays and tables in braces nest at most 79 deep, and a key has at most 79
parts. Integers have 64 bits with a sign. Control characters other than tabs
stand nowhere, and a carriage return only before a line feed.
-/
namespace MethodContracts.Toml

open Text

/-- How deep arrays and tables in braces may nest, and how many parts a key may have. -/
def maxDepth : Nat := 79

namespace Reader

open Text.Reader

/-! ## Blanks, comments and lines -/

def isBlank (c : Char) : Bool := c == ' ' || c == '\t'

def blanks : Reader Unit := modify (·.dropWhile isBlank)

/-- Characters that may stand in comments and in strings on one line. -/
def isPlain (c : Char) : Bool := c == '\t' || (decide (0x20 ≤ c.val.toNat) && c != '\x7f')

def lineBreak : Reader Unit := do
  discard (accept '\r')
  expect '\n'

def comment : Reader Unit := do
  expect '#'
  discard (takeWhile isPlain)

/-- Takes a line break, or nothing at the end of the text. -/
def lineEnd : Reader Unit := do
  match ← peek? with
  | none => return
  | some _ => lineBreak

/-- Takes what may follow on a line that is complete, and the end of the line. -/
def restOfLine : Reader Unit := do
  blanks
  if (← peek?) = some '#' then comment
  lineEnd

/-- Takes blanks, comments and line breaks, at most `limit` lines. -/
def spaceWithin : Nat → Reader Unit
  | 0 => blanks
  | limit + 1 => do
    blanks
    match ← peek? with
    | some '#' =>
      comment
      lineEnd
      spaceWithin limit
    | some '\n' | some '\r' =>
      lineBreak
      spaceWithin limit
    | _ => return

def space : Reader Unit := do
  spaceWithin (← left)

/-! ## Strings -/

/-- The character with this number, if there is one. -/
def scalar? (n : Nat) : Option Char :=
  if n < 0xD800 ∨ (0xDFFF < n ∧ n < 0x110000) then some (Char.ofNat n) else none

/-- Takes the digits of an escape that gives the number of a character. -/
def numberedChar (digits : Nat) : Reader Char := do
  let digits ← takeExactly (isDigitOf 16) digits
  match scalar? (ofDigits 16 digits) with
  | some c => return c
  | none => failure

/-- Takes what follows the backslash of an escape. -/
def escaped : Reader Char := do
  match ← satisfy fun _ => true with
  | 'b' => return '\x08'
  | 't' => return '\t'
  | 'n' => return '\n'
  | 'f' => return '\x0c'
  | 'r' => return '\r'
  | '"' => return '"'
  | '\\' => return '\\'
  | 'u' => numberedChar 4
  | 'U' => numberedChar 8
  | _ => failure

/-- Takes the rest of a string in double quotes, at most `limit` characters. -/
def basicRest : Nat → Reader (List Char)
  | 0 => failure
  | limit + 1 => do
    let c ← satisfy isPlain
    if c = '"' then return []
    else if c = '\\' then return (← escaped) :: (← basicRest limit)
    else return c :: (← basicRest limit)

/-- Takes a string in double quotes on one line. -/
def basicString : Reader String := do
  expect '"'
  return String.ofList (← basicRest (← left))

/-- Takes a string in single quotes on one line, which has no escapes. -/
def literalString : Reader String := do
  expect '\''
  let content ← takeWhile fun c => isPlain c && c != '\''
  expect '\''
  return String.ofList content

/-- Whether blanks and a line break come next. -/
def atLineBreak : Reader Bool := fun cs =>
  match cs.dropWhile isBlank with
  | '\n' :: _ => some (true, cs)
  | '\r' :: '\n' :: _ => some (true, cs)
  | _ => some (false, cs)

/-- Takes blanks and line breaks, at most `limit` lines. -/
def emptyLines : Nat → Reader Unit
  | 0 => blanks
  | limit + 1 => do
    blanks
    if ← atLineBreak then
      lineBreak
      emptyLines limit

/-- Takes the rest of a string of many lines, at most `limit` pieces. -/
def linesRest (quote : Char) (escapes : Bool) : Nat → Reader (List Char)
  | 0 => failure
  | limit + 1 => do
    match ← peek? with
    | none => failure
    | some c =>
      if c = quote then
        let quotes ← takeWhile (· == quote)
        -- One or two quotes stand for themselves, and so do up to two before the closing three.
        if quotes.length < 3 then return quotes ++ (← linesRest quote escapes limit)
        else if quotes.length < 6 then return quotes.drop 3
        else failure
      else if c = '\\' ∧ escapes then
        expect '\\'
        -- At the end of a line a backslash takes away the break and what is blank after it.
        if ← atLineBreak then
          emptyLines (← left)
          linesRest quote escapes limit
        else return (← escaped) :: (← linesRest quote escapes limit)
      else if c = '\n' ∨ c = '\r' then
        lineBreak
        return '\n' :: (← linesRest quote escapes limit)
      else return (← satisfy isPlain) :: (← linesRest quote escapes limit)

/-- Takes a string between three quotes; a line break right after the first three
does not count. -/
def linesString (quote : Char) (escapes : Bool) : Reader String := do
  expectAll [quote, quote, quote]
  match ← peek? with
  | some '\n' | some '\r' => lineBreak
  | _ => pure ()
  return String.ofList (← linesRest quote escapes (← left))

def string : Reader String := do
  if ← startsWith ['"', '"', '"'] then linesString '"' true
  else if ← startsWith ['\'', '\'', '\''] then linesString '\'' false
  else if ← startsWith ['"'] then basicString
  else literalString

/-! ## Keys -/

/-- Characters of a key that need no quotes. -/
def isBareKey (c : Char) : Bool := c.isAlphanum || c == '-' || c == '_'

/-- Takes a key of one part. -/
def simpleKey : Reader String := do
  match ← peek? with
  | some '"' => basicString
  | some '\'' => literalString
  | _ => return String.ofList (← takeWhile1 isBareKey)

/-- Takes one part of a key and the blanks around it. -/
def keyPart : Reader String := do
  blanks
  let part ← simpleKey
  blanks
  return part

/-- Takes a key, the parts of which are separated by dots. -/
def key : Reader (List String) := do
  let parts ← separated '.' keyPart
  if maxDepth < parts.length then failure
  return parts

/-! ## Numbers and dates -/

/-- Whether underscores stand only between digits. -/
def wellSpaced : List Char → Bool
  | [] => false
  | ['_'] => false
  | [_] => true
  | c :: rest => !(c == '_' && rest.head? == some '_') && wellSpaced rest

/-- Takes digits with single underscores between them. -/
def digitRun (base : Nat) : Reader (List Char) := do
  let run ← takeWhile1 fun c => isDigitOf base c || c == '_'
  if run.head? = some '_' ∨ wellSpaced run = false then failure
  return run.filter (· != '_')

/-- Takes the digits before a point: zero alone, or digits that do not start with it. -/
def wholeDigits : Reader (List Char) := do
  if ← accept '0' then return ['0']
  else digitRun 10

/-- The number, if it fits 64 bits with a sign. -/
def fitting (n : Int) : Reader Value :=
  if -Nat.pow 2 63 ≤ n ∧ n < Nat.pow 2 63 then return .integer n else failure

/-- Takes digits after the point, or nothing. -/
def fraction : Reader (List Char) := do
  if ← accept '.' then digitRun 10 else return []

/-- Takes a sign, and says whether it was a minus. -/
def sign : Reader Bool := do
  if ← accept '-' then return true
  else
    discard (accept '+')
    return false

/-- Takes an exponent, if one comes next. -/
def exponent : Reader (Option Int) := do
  match ← peek? with
  | some mark =>
    if mark = 'e' ∨ mark = 'E' then
      expect mark
      let negative ← sign
      let value := ofDigits 10 (← digitRun 10)
      return some (if negative then -(value : Int) else value)
    else return none
  | none => return none

/-- The number with these parts. What is too large has no value. -/
def float (negative : Bool) (whole fraction : List Char) (exponent : Int) : Reader Value :=
  let value := Binary64.ofDecimal negative (ofDigits 10 (whole ++ fraction))
    (exponent - fraction.length)
  if value = .infinite false then failure else return .float value

def decimal (negative : Bool) : Reader Value := do
  let whole ← wholeDigits
  let fraction ← fraction
  let exponent ← exponent
  if fraction.isEmpty && exponent.isNone then
    let value : Int := ofDigits 10 whole
    fitting (if negative then -value else value)
  else float negative whole fraction (exponent.getD 0)

def number : Reader Value := do
  if ← acceptAll ['0', 'x'] then fitting (ofDigits 16 (← digitRun 16))
  else if ← acceptAll ['0', 'o'] then fitting (ofDigits 8 (← digitRun 8))
  else if ← acceptAll ['0', 'b'] then fitting (ofDigits 2 (← digitRun 2))
  else
    -- Only a decimal number has a sign.
    let negative ← sign
    if ← acceptAll ['i', 'n', 'f'] then return .float (.infinite negative)
    else if ← acceptAll ['n', 'a', 'n'] then return .float .nan
    else decimal negative

/-- Takes a number of exactly `digits` digits from `low` to `high`. -/
def clockPart (digits low high : Nat) : Reader Nat := do
  let value := ofDigits 10 (← takeExactly (isDigitOf 10) digits)
  if low ≤ value ∧ value ≤ high then return value else failure

/-- The number of days of a month. -/
def daysIn (year month : Nat) : Nat :=
  if month = 2 then
    if year % 4 = 0 ∧ (year % 100 ≠ 0 ∨ year % 400 = 0) then 29 else 28
  else if [4, 6, 9, 11].contains month then 30
  else 31

def date : Reader Unit := do
  let year ← clockPart 4 0 9999
  expect '-'
  let month ← clockPart 2 1 12
  expect '-'
  discard (clockPart 2 1 (daysIn year month))

def hoursMinutes : Reader Unit := do
  discard (clockPart 2 0 23)
  expect ':'
  discard (clockPart 2 0 59)

/-- Takes a time with seconds, and maybe parts of a second. -/
def time : Reader Unit := do
  hoursMinutes
  expect ':'
  -- A leap second has the number 60.
  discard (clockPart 2 0 60)
  if ← accept '.' then discard (takeWhile1 (isDigitOf 10))

/-- Takes the distance from universal time, if it comes next. -/
def offset : Reader Unit := do
  match ← peek? with
  | some mark =>
    if mark = 'Z' ∨ mark = 'z' then expect mark
    else if mark = '+' ∨ mark = '-' then
      expect mark
      hoursMinutes
  | none => return

/-- Whether a text starts with digits and then this mark. -/
def startsClock (digits : Nat) (mark : Char) (cs : List Char) : Bool :=
  (cs.take digits).all (isDigitOf 10) && (cs.drop digits).head? == some mark

/-- Takes a date and maybe a time, or a time. -/
def datetime : Reader Value := do
  if startsClock 4 '-' (← get) then
    date
    -- A blank after a date belongs to it only if a time follows.
    match ← get with
    | mark :: rest =>
      if (mark = 'T' ∨ mark = 't' ∨ mark = ' ') ∧ startsClock 2 ':' rest then
        expect mark
        time
        offset
    | [] => pure ()
  else time
  return .datetime

def numberOrDate : Reader Value := do
  let cs ← get
  if startsClock 4 '-' cs || startsClock 2 ':' cs then datetime else number

/-! ## Values -/

/-- Takes a value that nests nothing. -/
def scalar : Reader Value := do
  match ← peek? with
  | some '"' | some '\'' => return .string (← string)
  | some 't' =>
    expectAll ['t', 'r', 'u', 'e']
    return .boolean true
  | some 'f' =>
    expectAll ['f', 'a', 'l', 's', 'e']
    return .boolean false
  | _ => numberOrDate

section Nesting

variable (nested : Reader Value)

/-- Takes the items of an array and the closing bracket, at most `limit`. -/
def items : Nat → Reader (List Value)
  | 0 => failure
  | limit + 1 => do
    space
    if ← accept ']' then return []
    let item ← nested
    space
    if ← accept ',' then return item :: (← items limit)
    else
      expect ']'
      return [item]

def array : Reader Value := do
  expect '['
  return .array (← items nested ((← left) + 1))

def pair : Reader (List String × Value) := do
  let path ← key
  expect '='
  blanks
  return (path, ← nested)

/-- Takes a pair in a table in braces and the blanks after it. -/
def inlinePair : Reader (List String × Value) := do
  let pair ← pair nested
  blanks
  return pair

/-- Takes a table in braces, which stands on one line apart from what is nested
in it. -/
def inlineTable : Reader Value := do
  expect '\x7b'
  blanks
  if ← accept '\x7d' then return .table .inline []
  let pairs ← separated ',' (inlinePair nested)
  expect '\x7d'
  match tableOf .inline pairs with
  | some entries => return .table .inline entries
  | none => failure

end Nesting

/-- Takes a value that nests at most `depth` deep. -/
def value : Nat → Reader Value
  | 0 => scalar
  | depth + 1 => do
    match ← peek? with
    | some '[' => array (value depth)
    | some '\x7b' => inlineTable (value depth)
    | _ => scalar

/-! ## Lines -/

def header : Reader Line := do
  if ← acceptAll ['[', '['] then
    let path ← key
    expectAll [']', ']']
    return .listHeader path
  else
    expect '['
    let path ← key
    expect ']'
    return .header path

/-- Takes lines up to the end, at most `limit`. -/
def linesWithin : Nat → Reader (List Line)
  | 0 => failure
  | limit + 1 => do
    space
    match ← peek? with
    | none => return []
    | some '[' =>
      let line ← header
      restOfLine
      return line :: (← linesWithin limit)
    | some _ =>
      let (path, value) ← pair (value maxDepth)
      restOfLine
      return .pair path value :: (← linesWithin limit)

end Reader

/-- A byte order mark at the front does not count. -/
def withoutMark : List Char → List Char
  | c :: rest => if c.val.toNat = 0xFEFF then rest else c :: rest
  | [] => []

def parse? (text : String) : Option Entries := do
  let cs := withoutMark text.toList
  let (lines, _) ← Reader.linesWithin (cs.length + 1) cs
  ofLines lines

end MethodContracts.Toml
