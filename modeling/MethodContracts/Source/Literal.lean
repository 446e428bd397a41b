import MethodContracts.Text.Split

/-!
# The value of a string literal

A quoted literal stands between double quotes, a text block between triples of
them; either may lack its end. A text block drops everything up to its first
line feed and keeps indentation. A backslash stands for the character that
`escapeValue` gives for the one after it.
-/
namespace MethodContracts.Source

open Text

/-- What a backslash followed by this character stands for. -/
def escapeValue (c : Char) : Char :=
  if c = 'n' then '\n' else if c = 't' then '\t' else if c = 'r' then '\r'
  else if c = '0' then '\x00' else c

/-- The characters that a literal's inside stands for; a last lone backslash
stands for itself. -/
def unescape : List Char → List Char
  | [] => []
  | '\\' :: c :: rest => escapeValue c :: unescape rest
  | c :: rest => c :: unescape rest

/-- The text without `front` at its start and `back` at its end, where it has them. -/
def strip (front back cs : List Char) : List Char :=
  let inner := (withoutFront? front cs).getD cs
  (withoutBack? back inner).getD inner

/-- The characters between the quotes of a string token. -/
def literalInside (cs : List Char) : List Char :=
  let triple := ['"', '"', '"']
  match withoutFront? triple cs with
  | some block =>
    let block := (withoutBack? triple block).getD block
    match splitFirst ['\n'] block with
    | some (_, lines) => lines
    | none => block
  | none => strip ['"'] ['"'] cs

def literalValue (text : String) : String :=
  String.ofList (unescape (literalInside text.toList))

/-- The escaped form of one character inside a quoted literal. -/
def escapeChar (c : Char) : List Char :=
  if c = '\\' then ['\\', '\\'] else if c = '"' then ['\\', '"']
  else if c = '\n' then ['\\', 'n'] else if c = '\r' then ['\\', 'r']
  else if c = '\t' then ['\\', 't'] else [c]

/-- The escaped form of a text, which `unescape` undoes. -/
def escape (cs : List Char) : List Char := cs.flatMap escapeChar

theorem unescape_cons {c : Char} (rest : List Char) (plain : c ≠ '\\') :
    unescape (c :: rest) = c :: unescape rest :=
  unescape.eq_3 c rest fun _ _ backslash _ => plain backslash

theorem unescape_escapeChar (c : Char) (rest : List Char) :
    unescape (escapeChar c ++ rest) = c :: unescape rest := by
  by_cases backslash : c = '\\'
  · subst backslash
    rfl
  · unfold escapeChar
    rw [if_neg backslash]
    repeat' split
    all_goals first
      | (subst_vars; rfl)
      | exact unescape_cons rest backslash

theorem unescape_escape (cs : List Char) : unescape (escape cs) = cs := by
  induction cs with
  | nil => rfl
  | cons c rest ih =>
    simp only [escape, List.flatMap_cons, unescape_escapeChar] at *
    rw [ih]

end MethodContracts.Source
