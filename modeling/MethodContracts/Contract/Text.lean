import MethodContracts.Contract.Basic
import MethodContracts.Text.Split

/-!
# Contracts as text

A contract is written `c, c -> r`, without arguments `-> r`, and a list of
contracts has `;` between its members. White space around every part is free
when reading; blank text is the empty list. The first contract at fault decides
the error: a missing arrow, then an empty result, then an unknown result, then
the first argument that is unknown or `fail`.
-/
namespace MethodContracts

open Text

/-- Why a text is no list of contracts. -/
inductive ContractError where
  | missingArrow (clause : String)
  | unknownConstraint (token : String)
  | failingArgument (clause : String)
  | emptyResult (clause : String)
deriving DecidableEq, Repr

def ContractError.message : ContractError → String
  | .missingArrow clause => s!"contract clause `{clause}` has no `->`"
  | .unknownConstraint token => s!"unknown constraint `{token}`"
  | .failingArgument clause => s!"`fail` cannot constrain an argument in `{clause}`"
  | .emptyResult clause => s!"contract clause `{clause}` has no return value"

def Constraint.parse (cs : List Char) : Except ContractError Constraint :=
  match Constraint.ofText? cs with
  | some constraint => .ok constraint
  | none => .error (.unknownConstraint (String.ofList (trim cs)))

namespace Contract

/-- Reads the argument constraints of `clause`, of which none may be `fail`. -/
def parseArguments (clause : List Char) : List (List Char) → Except ContractError Arguments
  | [] => .ok []
  | token :: tokens => do
    let constraint ← Constraint.parse token
    if constraint = .fail then throw (.failingArgument (String.ofList clause))
    let others ← parseArguments clause tokens
    return constraint :: others

def parse (cs : List Char) : Except ContractError Contract :=
  let clause := trim cs
  match splitFirst ['-', '>'] clause with
  | none => .error (.missingArrow (String.ofList clause))
  | some (before, after) => do
    if trim after = [] then throw (.emptyResult (String.ofList clause))
    let result ← Constraint.parse after
    let arguments ←
      if trim before = [] then pure [] else parseArguments clause (splitOn ',' (trim before))
    return ⟨arguments, result⟩

def render (contract : Contract) : List Char :=
  joinWith [',', ' '] (contract.arguments.map (·.text.toList)) ++
    (if contract.arguments.isEmpty then [] else [' ']) ++ ['-', '>', ' '] ++
    contract.result.text.toList

def text (contract : Contract) : String := String.ofList contract.render

end Contract

namespace Contracts

def parse (text : String) : Except ContractError (List Contract) :=
  let cs := text.toList
  if trim cs = [] then .ok [] else (splitOn ';' cs).mapM Contract.parse

def text (contracts : List Contract) : String :=
  String.ofList (joinWith [';', ' '] (contracts.map Contract.render))

end Contracts
end MethodContracts
