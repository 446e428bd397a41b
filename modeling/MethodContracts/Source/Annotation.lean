import MethodContracts.Source.Literal
import MethodContracts.Source.TypeRef

/-!
# Annotations and modifiers

An annotation argument is a single string literal or any other tokens up to a
comma or a closing parenthesis outside the brackets among them.
-/
namespace MethodContracts.Source

/-- Words that may stand before a declaration. -/
def modifiers : List String :=
  ["public", "protected", "private", "static", "final", "abstract", "default", "synchronized",
    "native", "transient", "volatile", "sealed", "non", "strictfp"]

namespace Cursor

def atAnnotationType (c : Cursor) : Bool := c.atKind .atSign && c.nthWord 1 "interface"

def atModifier (c : Cursor) : Bool := c.atKind .ident && modifiers.contains c.word

def atNonSealed (c : Cursor) : Bool :=
  c.atWord "non" && c.atNth 1 .minus && c.nthWord 2 "sealed"

def atStaticBlock (c : Cursor) : Bool := c.atWord "static" && c.atNth 1 .openBrace

end Cursor

namespace Parser

/-- The tokens of an annotation value: their texts, and how deep they nest. -/
structure ValueText where
  parts : List String
  depth : Nat
deriving DecidableEq, Repr

/-- Reads one token of an annotation value. -/
def valueStep (value : ValueText) : Parser (Option ValueText) := do
  match (← get).rest with
  | [] => return none
  | token :: _ =>
    if value.depth = 0 ∧ (token.kind = .comma ∨ token.kind = .closeParen) then return none
    advance
    let depth :=
      if token.kind = .openParen ∨ token.kind = .openBrace then value.depth + 1
      else if token.kind = .closeParen ∨ token.kind = .closeBrace then value.depth - 1
      else value.depth
    return some ⟨value.parts ++ [token.text], depth⟩

/-- Reads the value of an annotation argument. -/
def annotationValue : Parser AnnotationValue := do
  let c ← get
  if c.atKind .string && (c.atNth 1 .comma || c.atNth 1 .closeParen) then
    let token ← expect .string
    return .string (literalValue token.text)
  else
    let value ← iterate valueStep ⟨[], 0⟩
    return .other (" ".intercalate value.parts)

/-- Reads the name of an annotation argument and the equals sign, if they are there. -/
def argumentName : Parser (Option String) := do
  let c ← get
  if c.atKind .ident && c.atNth 1 .assign then
    let name ← expect .ident
    advance
    return some name.text
  else return none

def annotationArgument : Parser AnnotationArgument := do
  let start := (← get).here
  let name ← argumentName
  let value ← annotationValue
  return ⟨name, value, (← get).since start⟩

/-- Reads one argument and the comma after it. -/
def annotationArgumentStep : Parser (Option (List AnnotationArgument)) := do
  let c ← get
  if c.atEnd || c.atKind .closeParen then return none
  let argument ← annotationArgument
  skip .comma
  return some [argument]

/-- Reads an annotation from its at sign on. -/
def annotation : Parser Annotation := do
  let sign ← expect .atSign
  let (name, nameSpan) ← qualifiedName
  if (← get).atKind .openParen then
    advance
    let arguments ← collect annotationArgumentStep
    let close ← expect .closeParen
    return ⟨name, arguments, ⟨sign.span.start, max close.span.stop nameSpan.stop⟩⟩
  else return ⟨name, [], ⟨sign.span.start, nameSpan.stop⟩⟩

/-- Reads one annotation or modifier. -/
def modifierStep : Parser (Option (List Annotation)) := do
  let c ← get
  if c.atKind .atSign then
    if c.atAnnotationType then return none
    let found ← annotation
    return some [found]
  else if c.atModifier then
    if c.atNonSealed then
      advanceBy 3
      return some []
    else if c.atStaticBlock then return none
    else
      advance
      return some []
  else return none

/-- Skips modifiers and yields the annotations among them. -/
def modifiersAndAnnotations : Parser (List Annotation) := collect modifierStep

/-- Skips one annotation or `final`. -/
def variableModifierStep (_ : Unit) : Parser (Option Unit) := do
  let c ← get
  if c.atKind .atSign then
    discard annotation
    return some ()
  else if c.atWord "final" then
    advance
    return some ()
  else return none

/-- Skips what may stand before the type of a variable. -/
def variableModifiers : Parser Unit := iterate variableModifierStep ()

end Parser
end MethodContracts.Source
