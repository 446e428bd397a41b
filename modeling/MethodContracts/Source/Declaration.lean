import MethodContracts.Source.Statement

/-!
# Declarations

A type has members between braces. A member is an initializer, a nested type, a
constructor of the type around it, a method, or else a field. A member nested in
another starts at least one token after it, so a reader of a depth that exceeds
the number of tokens left reads every member.
-/
namespace MethodContracts.Source
namespace Parser

/-- Reads one parameter and the comma after it. Where no type stands a token is
reported and skipped. -/
def paramStep : Parser (Option (List ParamDecl)) := do
  let c ← get
  if c.atEnd || c.atKind .closeParen then return none
  variableModifiers
  match ← typeRef? with
  | none =>
    report .parameter
    advance
    skip .comma
    return some []
  | some type =>
    let c ← get
    let type ←
      if c.atKind .ellipsis then
        advance
        pure (⟨type.text ++ "...", ⟨type.span.start, c.place.stop⟩⟩ : TypeRef)
      else pure type
    let name ← expect .ident
    skip .comma
    return some [⟨type, name.text, name.span, ⟨type.span.start, name.span.stop⟩⟩]

def paramList : Parser (List ParamDecl) := do
  discard (expect .openParen)
  let params ← collect paramStep
  discard (expect .closeParen)
  return params

def throwsClause : Parser Unit := do
  if (← get).atWord "throws" then
    advance
    skipWhile fun c => !c.atKind .openBrace && !c.atKind .semicolon

/-- Skips one constant of an enum with its arguments, its body and the comma
after it. -/
def constantStep (_ : Unit) : Parser (Option Unit) := do
  let c ← get
  if c.atKind .semicolon then
    advance
    return none
  else if c.atKind .closeBrace then return none
  else
    discard modifiersAndAnnotations
    if (← get).atKind .ident then
      advance
      skipGroup .openParen .closeParen
      skipGroup .openBrace .closeBrace
      let c ← get
      if c.atKind .semicolon then
        advance
        return none
      else if c.atKind .closeBrace then return none
      else
        advance
        return some ()
    else return none

def enumConstants : Parser Unit := do
  if (← get).atKind .semicolon then advance
  else iterate constantStep ()

/-- Skips one token of a field, or a group in braces. -/
def fieldStep (_ : Unit) : Parser (Option Unit) := do
  let c ← get
  if c.atEnd || c.atKind .semicolon then return none
  else if c.atKind .openBrace then
    skipGroup .openBrace .closeBrace
    return some ()
  else
    advance
    return some ()

/-- Reads the rest of a field after its name. -/
def fieldRest (start : Nat) (type : TypeRef) (name : Token) : Parser Member := do
  iterate fieldStep ()
  let closing ← expect .semicolon
  return .field ⟨type, name.text, name.span, ⟨start, closing.span.stop⟩⟩

/-- Reads a body in braces, or the semicolon in its place. -/
def methodBody : Parser (Option Block) := do
  if (← get).atKind .openBrace then some <$> block
  else
    discard (expectAs .semicolon .semicolonOrBody)
    return none

def defaultValue : Parser Unit := do
  if (← get).atWord "default" then skipWhile fun c => !c.atKind .semicolon

/-- Reads the rest of a method after its name. -/
def methodRest (start : Nat) (annotations : List Annotation) (type : TypeRef) (name : Token) :
    Parser Member := do
  let params ← paramList
  throwsClause
  defaultValue
  let body ← methodBody
  return .method ⟨annotations, type, name.text, name.span, params, body, (← get).since start⟩

/-- Reads a constructor from its name on. -/
def constructorRest (start : Nat) : Parser Member := do
  let name ← expect .ident
  let params ← paramList
  throwsClause
  let body ← block
  return .constructor ⟨name.text, name.span, params, body, ⟨start, body.span.stop⟩⟩

/-- The kind of type that a word declares. -/
def typeKeyword? (word : String) : Option TypeKind :=
  if word = "class" then some .classType
  else if word = "interface" then some .interfaceType
  else if word = "enum" then some .enumType
  else if word = "record" then some .recordType
  else none

/-- Reads the words that declare a type, if they stand here. -/
def typeKind? : Parser (Option TypeKind) := do
  let c ← get
  if c.atAnnotationType then
    advanceBy 2
    return some .annotationType
  else
    match c.rest.head?.bind fun token => typeKeyword? token.text with
    | none => return none
    | some kind =>
      advance
      return some kind

section Nesting

variable (nested : String → Parser (Option Member))

/-- Reads one member. Where none can be read a token is skipped. -/
def memberStep (typeName : String) : Parser (Option (List Member)) := do
  let c ← get
  if c.atEnd || c.atKind .closeBrace then return none
  let member ← nested typeName
  -- A token that begins no member is given up, so that the body ends.
  if (← get).left == c.left then advance
  return some member.toList

/-- Reads members between braces, with the span of the braces. -/
def typeBody (typeName : String) (isEnum : Bool) : Parser (List Member × Span) := do
  -- Type parameters, supertypes and components are passed over.
  skipWhile fun c => !c.atKind .openBrace
  let opening ← expect .openBrace
  if isEnum then enumConstants
  let members ← collect (memberStep nested typeName)
  let closing ← expect .closeBrace
  return (members, ⟨opening.span.start, closing.span.stop⟩)

/-- Reads a type declaration if one stands here; otherwise moves nowhere. Errors
in what stands before it are kept. -/
def typeDecl? : Parser (Option TypeDecl) := do
  let before ← get
  discard modifiersAndAnnotations
  match ← typeKind? with
  | none =>
    modify fun c => { before with errors := c.errors }
    return none
  | some kind =>
    let name ← expect .ident
    let (members, bodySpan) ← typeBody nested name.text (kind == .enumType)
    return some ⟨⟨kind, name.text, ⟨before.here, bodySpan.stop⟩, bodySpan⟩, members⟩

/-- Reads the type and the name of a method or field, and the rest of it. -/
def typedMember (start : Nat) (annotations : List Annotation) : Parser (Option Member) := do
  match ← typeRef? with
  | none => return none
  | some type =>
    let name ← expect .ident
    if (← get).atKind .openParen then some <$> methodRest start annotations type name
    else some <$> fieldRest start type name

/-- Reads an initializer from its opening brace on. -/
def initializerRest (start : Nat) (isStatic : Bool) : Parser Member := do
  let body ← block
  return .initializer ⟨isStatic, body, ⟨start, body.span.stop⟩⟩

/-- Reads a constructor, a method or a field of the type `enclosing`. -/
def plainMember (start : Nat) (annotations : List Annotation) (enclosing : String) :
    Parser (Option Member) := do
  let c ← get
  -- The name of the type in front of parentheses makes a constructor.
  if enclosing ≠ "" ∧ c.atWord enclosing ∧ c.atNth 1 .openParen then
    some <$> constructorRest start
  else typedMember start annotations

/-- Reads a member of the type `enclosing`, if one can be read. -/
def memberOf (enclosing : String) : Parser (Option Member) := do
  let start ← get
  if start.atEnd then return none
  else
    let annotations ← modifiersAndAnnotations
    -- The type parameters of a method are passed over.
    skipGroup .less .greater
    let c ← get
    if c.atStaticBlock then
      advance
      some <$> initializerRest start.here true
    else if c.atKind .openBrace then some <$> initializerRest start.here false
    else if c.atAnnotationType || (typeKeyword? c.word).isSome then
      match ← typeDecl? nested with
      | some decl => return some (.type decl.header decl.members)
      | none => plainMember start.here annotations enclosing
    else plainMember start.here annotations enclosing

end Nesting

/-- Reads members that nest less than `depth` deep. -/
def memberWithin : Nat → String → Parser (Option Member)
  | 0, _ => pure none
  | depth + 1, enclosing => memberOf (memberWithin depth) enclosing

/-- Reads a member of the type `enclosing`, if one can be read. -/
def member? (enclosing : String) : Parser (Option Member) := do
  memberWithin ((← get).left + 1) enclosing

/-- Skips one package or import declaration. -/
def importStep (_ : Unit) : Parser (Option Unit) := do
  let c ← get
  if c.atWord "package" || c.atWord "import" then
    skipWhile fun c => !c.atKind .semicolon
    discard (expect .semicolon)
    return some ()
  else return none

/-- Reads one type declaration. Where none stands a token is reported and skipped. -/
def unitStep : Parser (Option (List TypeDecl)) := do
  if (← get).atEnd then return none
  match ← typeDecl? member? with
  | some decl => return some [decl]
  | none =>
    report .typeDeclaration
    advance
    return some []

def compilationUnit : Parser CompilationUnit := do
  let c ← get
  let start := (c.rest.head?.map (·.span.start)).getD 0
  iterate importStep ()
  let types ← collect unitStep
  return ⟨types, ⟨start, c.textEnd⟩⟩

end Parser
end MethodContracts.Source
