import MethodContracts.Body.Validity
import MethodContracts.Text.Split

/-!
# Methods

A method as inference sees it: its parameters, its annotations and, if it has
one, its body.
-/
namespace MethodContracts

structure Param where
  name : String
  /-- The type as written; empty if unknown. -/
  type : String
deriving DecidableEq, Repr

structure MethodAnnotation where
  /-- The name as written, possibly with dots. -/
  name : String
  /-- The element `value`, if it is a string. -/
  value : Option String
  span : Span
deriving DecidableEq, Repr

/-- The last part of the name. -/
def MethodAnnotation.simpleName (note : MethodAnnotation) : String :=
  String.ofList ((Text.splitOn '.' note.name.toList).getLastD [])

structure Method where
  name : String
  /-- The name of the type around the method, with dots for nested types. -/
  owner : Option String
  params : List Param
  annotations : List MethodAnnotation
  body : Option Body
  span : Span
deriving DecidableEq, Repr

namespace Method

/-- The position of the first parameter of this name. -/
def paramIndex? (method : Method) (name : String) : Option Nat :=
  method.params.findIdx? (·.name == name)

/-- Owner, name and parameters in one line. A parameter shows its type, or its
name if the type is unknown. -/
def signature (method : Method) : String :=
  let shown := method.params.map fun param => if param.type = "" then param.name else param.type
  let owner :=
    match method.owner with
    | some owner => owner ++ "."
    | none => ""
  owner ++ method.name ++ "(" ++ ", ".intercalate shown ++ ")"

/-- The first fault of the body, if there is a body. -/
def bodyFault? (method : Method) : Option BodyError := method.body.bind Body.fault?

end Method
end MethodContracts
