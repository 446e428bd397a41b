import MethodContracts.Contract.Constraint

/-!
# Contracts

A contract relates one constraint per parameter to a constraint on the result.
A method has a list of contracts, and the first one that matches applies.
-/
namespace MethodContracts

/-- One constraint per parameter, in the order of declaration. -/
abbrev Arguments := List Constraint

namespace Arguments

/-- Nothing is known of any of `count` arguments. -/
def unknown (count : Nat) : Arguments := List.replicate count .any

/-- The arguments with one slot replaced; `none` if there is no such slot. -/
def pin? (arguments : Arguments) (slot : Nat) (constraint : Constraint) : Option Arguments :=
  if slot < arguments.length then some (arguments.set slot constraint) else none

/-- The names of the constraints in brackets, where people debug. -/
def display (arguments : Arguments) : String :=
  "[" ++ ", ".intercalate (arguments.map Constraint.name) ++ "]"

theorem length_of_pin {arguments pinned : Arguments} {slot : Nat} {constraint : Constraint}
    (found : arguments.pin? slot constraint = some pinned) :
    pinned.length = arguments.length := by
  simp only [pin?] at found
  split at found
  · cases found
    exact List.length_set
  · cases found

end Arguments

structure Contract where
  arguments : Arguments
  result : Constraint
deriving DecidableEq, Repr

end MethodContracts
