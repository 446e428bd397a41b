import MethodContracts.Source.Group
import MethodContracts.Source.Tree

/-!
# Names and types

A qualified name is words with dots between them. A type is a qualified name,
generic arguments as text, and pairs of brackets.
-/
namespace MethodContracts.Source
namespace Parser

/-- A name that grows: its text and its end. -/
structure NameText where
  text : String
  stop : Nat
deriving DecidableEq, Repr

def dottedStep (name : NameText) : Parser (Option NameText) := do
  let c ← get
  if c.atKind .dot && c.atNth 1 .ident then
    advance
    let part ← expect .ident
    return some ⟨name.text ++ "." ++ part.text, part.span.stop⟩
  else return none

/-- Reads words with dots between them; the first word is wanted. -/
def qualifiedName : Parser (String × Span) := do
  let first ← expect .ident
  let name ← iterate dottedStep ⟨first.text, first.span.stop⟩
  return (name.text, ⟨first.span.start, name.stop⟩)

def bracketsStep (type : NameText) : Parser (Option NameText) := do
  let c ← get
  if c.atKind .openBracket && c.atNth 1 .closeBracket then
    advance
    let close ← expect .closeBracket
    return some ⟨type.text ++ "[]", close.span.stop⟩
  else return none

/-- Reads a type if the cursor is at a word. -/
def typeRef? : Parser (Option TypeRef) := do
  if (← get).atKind .ident then
    let (name, span) ← qualifiedName
    let generic ←
      if (← get).atKind .less then
        let (text, stop) ← groupText .less .greater
        pure ⟨name ++ text, stop⟩
      else pure (⟨name, span.stop⟩ : NameText)
    let type ← iterate bracketsStep generic
    return some ⟨type.text, ⟨span.start, type.stop⟩⟩
  else return none

/-- Reads a type; where none stands, reports it and yields an empty one. -/
def typeAfter (keyword : String) : Parser TypeRef := do
  match ← typeRef? with
  | some type => return type
  | none =>
    report (.typeAfter keyword)
    return ⟨"", .point (← get).here⟩

end Parser
end MethodContracts.Source
