import MethodContracts.Contract.Basic
import MethodContracts.Json.Decode

/-!
# Contracts as JSON

A constraint is its written form, and a contract an object of its arguments and
its result. Any constraint may stand anywhere.
-/
namespace MethodContracts

open Json

def Constraint.toJson (constraint : Constraint) : Json := .string constraint.text

def Constraint.ofJson? (json : Json) : Option Constraint := do
  let word ← word? json
  Constraint.all.find? (·.text == word)

def Arguments.toJson (arguments : Arguments) : Json := .ofList Constraint.toJson arguments

def Arguments.ofJson? (json : Json) : Option Arguments := listOf? Constraint.ofJson? json

namespace Contract

def toJson (contract : Contract) : Json :=
  .object [("arguments", contract.arguments.toJson), ("return_value", contract.result.toJson)]

def ofJson? (json : Json) : Option Contract :=
  match fields? ["arguments", "return_value"] json with
  | some [arguments, result] => do
    let arguments ← required Arguments.ofJson? arguments
    let result ← required Constraint.ofJson? result
    return ⟨arguments, result⟩
  | _ => none

end Contract
end MethodContracts
