import MethodContracts.Source.Declaration
import MethodContracts.Source.Scan

/-!
# Parsing source text

Each entry point reads one construct and yields it with the errors found on the
way, in order. Spans count from the offset at which the text is said to start.
-/
namespace MethodContracts.Source

open Text

/-- What was read, and the errors found. -/
structure Parsed (α : Type) where
  value : α
  errors : List SyntaxError

/-- The cursor at the start of a text. -/
def Cursor.ofText (text : String) (offset : Nat) : Cursor :=
  .start (tokens text offset) (offset + byteLength text.toList)

/-- Runs a parser at the start of a text. -/
def parseWith (parser : Parser α) (text : String) (offset : Nat) : Parsed α :=
  let (value, c) := parser (.ofText text offset)
  ⟨value, c.errors⟩

def parse (text : String) : Parsed CompilationUnit := parseWith Parser.compilationUnit text 0

def parseBlock (text : String) (offset : Nat) : Parsed Block := parseWith Parser.block text offset

/-- Parses an expression; what follows it is left alone. -/
def parseExpression (text : String) (offset : Nat) : Parsed Expr :=
  parseWith Parser.expr text offset

/-- Parses one method declaration without a type around it. Another member, or
anything after the method, is an error. -/
def parseMethod (text : String) : Parsed (Option MethodDecl) :=
  let textEnd := byteLength text.toList
  let (member, c) := Parser.member? "" (.ofText text 0)
  match member with
  | some (.method decl) =>
    let trailing := ⟨.trailingInput, ⟨decl.span.stop, textEnd⟩⟩
    ⟨some decl, if c.atEnd then c.errors else c.errors ++ [trailing]⟩
  | other =>
    let span := (other.map Member.span).getD ⟨0, textEnd⟩
    ⟨none, c.errors ++ [⟨.expected .methodDeclaration, span⟩]⟩

end MethodContracts.Source
