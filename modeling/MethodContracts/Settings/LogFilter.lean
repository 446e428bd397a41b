import MethodContracts.Settings.Basic
import MethodContracts.Text.Blank
import MethodContracts.Text.Digit
import MethodContracts.Text.Letter
import MethodContracts.Text.Position

/-!
# Log filters

A filter is a list of directives, one for each target and maybe one for all
others. It is written with commas between `level`, `target` and `target=level`;
a target without a level shows everything. The filter in effect is the one of
the settings with that of the environment added; directives that cannot be read
give way to those of the environment, and then to the level `info`.

White space in front of a directive is looked over where its parts are found,
but not where they are cut out: the cuts are then too far to the front, and one
that falls inside a character is a fault, to which nothing gives way.
-/
namespace MethodContracts

inductive LogLevel where
  | off
  | error
  | warn
  | info
  | debug
  | trace
deriving DecidableEq, Repr

namespace LogLevel

def all : List LogLevel := [.off, .error, .warn, .info, .debug, .trace]

def word : LogLevel → String
  | .off => "off"
  | .error => "error"
  | .warn => "warn"
  | .info => "info"
  | .debug => "debug"
  | .trace => "trace"

/-- The level with a number, which may have a plus sign. -/
def ofNumber? (cs : List Char) : Option LogLevel :=
  let digits := if cs.head? = some '+' then cs.drop 1 else cs
  if digits.isEmpty || !digits.all (Text.isDigitOf 10) then none
  else all[Text.ofDigits 10 digits]?

/-- The level with a number or a word, in lower or upper case. -/
def ofText? (cs : List Char) : Option LogLevel :=
  ofNumber? cs <|> all.find? fun level => level.word.toList == cs.map Char.toLower

end LogLevel

/-- What is shown of a target, or of all targets without a directive. -/
structure Directive where
  target : Option (List Char)
  level : LogLevel
deriving DecidableEq, Repr

/-- Why reading directives cannot go on. -/
inductive CutFault where
  | insideCharacter
deriving DecidableEq, Repr

/-- Reading directives: they may be unreadable, or lead to a fault. -/
abbrev Reading := OptionT (Except CutFault)

namespace Directive

/-- Cuts a directive at a byte offset. -/
def cut (offset : Nat) (cs : List Char) : Reading (List Char × List Char) :=
  match Text.cutAt? offset cs with
  | some parts => pure parts
  | none => OptionT.lift (.error .insideCharacter)

/-- Whether a directive may start with a character. -/
def canStart (c : Char) : Bool := Text.isLetterOrNumber c || ['-', ':', '_'].contains c

def ofWord (cs : List Char) : Directive :=
  match LogLevel.ofText? cs with
  | some level => ⟨none, level⟩
  | none => ⟨some cs, .trace⟩

/-- Reads the level of a directive for a target. -/
def withLevel (target level : List Char) : Reading Directive :=
  if level.isEmpty then pure ⟨some target, .trace⟩
  else
    match LogLevel.ofText? level with
    | some level => pure ⟨some target, level⟩
    | none => failure

def parse (cs : List Char) : Reading Directive :=
  let trimmed := Text.trim cs
  if (trimmed.head?.map canStart) != some true then failure
  else
    match Text.splitFirst ['='] trimmed with
    | none => if trimmed.contains '[' then failure else pure (ofWord cs)
    | some (before, _) =>
      if before.contains '[' then failure
      else do
        -- The offset counts from the trimmed text, but what is cut is the text as it was.
        let offset := Text.byteLength before
        let (target, _) ← cut offset cs
        let (_, level) ← cut (offset + 1) cs
        withLevel target level

/-- The length of the target, which tells how special a directive is. -/
def weight (directive : Directive) : Nat :=
  match directive.target with
  | some target => Text.byteLength target + 1
  | none => 0

/-- Whether a directive comes first: it has the longer target, or a later one in
the order of characters. -/
def precedes (left right : Directive) : Bool :=
  if left.weight = right.weight then decide (right.target.getD [] < left.target.getD [])
  else decide (right.weight < left.weight)

def text (directive : Directive) : String :=
  match directive.target with
  | some target => String.ofList target ++ "=" ++ directive.level.word
  | none => directive.level.word

end Directive

/-- Directives with different targets, those with longer targets first. -/
abbrev LogFilter := List Directive

namespace LogFilter

/-- The filter with a directive in its place; it replaces one for its target. -/
def insert (directive : Directive) : LogFilter → LogFilter
  | [] => [directive]
  | first :: rest =>
    if directive.target = first.target then directive :: rest
    else if directive.precedes first then directive :: first :: rest
    else first :: insert directive rest

/-- The filter of directives. Without any it shows errors. -/
def ofDirectives (directives : List Directive) : LogFilter :=
  if directives.isEmpty then [⟨none, .error⟩]
  else directives.foldl (fun filter directive => filter.insert directive) []

def parse (text : String) : Reading LogFilter := do
  let pieces := (Text.splitOn ',' text.toList).filter (!·.isEmpty)
  return ofDirectives (← pieces.mapM Directive.parse)

def text (filter : LogFilter) : String := ",".intercalate (filter.map Directive.text)

end LogFilter

namespace Logging

/-- The directives as written, with names for levels in their usual form. -/
def directives (logging : Logging) : String :=
  let trimmed := Text.trimString logging.level
  let word := String.ofList (trimmed.toList.map Char.toLower)
  if trimmed.isEmpty then Logging.default.level
  else if word = "warning" then "warn"
  else if word = "none" then "off"
  else if LogLevel.all.any (·.word == word) then word
  else trimmed

/-- The filter of the settings alone. -/
def ownFilter (logging : Logging) : Reading LogFilter :=
  LogFilter.parse logging.directives <|> pure [⟨none, .info⟩]

/-- The filter in effect, given the directives of the environment. It can always
be read, but for a fault. -/
def filter (logging : Logging) (environment : Option String) : Reading LogFilter :=
  let added := (environment.map Text.trimString).getD ""
  if added.isEmpty then logging.ownFilter
  else
    LogFilter.parse (logging.directives ++ "," ++ added) <|> LogFilter.parse added <|>
      logging.ownFilter

end Logging
end MethodContracts
