import MethodContracts.Text.Blank

/-!
# Constraints on values

A constraint says what is known of an argument or of a result. Each has one
written form, and the forms are told apart by their text.
-/
namespace MethodContracts

inductive Constraint where
  /-- Nothing is known. -/
  | any
  | null
  | notNull
  | isTrue
  | isFalse
  /-- The method ends with an exception; a result only. -/
  | fail
deriving DecidableEq, Repr

namespace Constraint

def all : List Constraint := [.any, .null, .notNull, .isTrue, .isFalse, .fail]

/-- The opposite of a constraint that has one; the others are their own. -/
def negate : Constraint → Constraint
  | .null => .notNull
  | .notNull => .null
  | .isTrue => .isFalse
  | .isFalse => .isTrue
  | .any => .any
  | .fail => .fail

theorem negate_negate (constraint : Constraint) : constraint.negate.negate = constraint := by
  cases constraint <;> rfl

def text : Constraint → String
  | .any => "_"
  | .null => "null"
  | .notNull => "!null"
  | .isTrue => "true"
  | .isFalse => "false"
  | .fail => "fail"

/-- The name shown where people debug. -/
def name : Constraint → String
  | .any => "Any"
  | .null => "Null"
  | .notNull => "NotNull"
  | .isTrue => "True"
  | .isFalse => "False"
  | .fail => "Throw"

/-- The constraint with this written form, white space around it left out. -/
def ofText? (cs : List Char) : Option Constraint :=
  all.find? fun constraint => constraint.text.toList == Text.trim cs

theorem mem_all (constraint : Constraint) : constraint ∈ all := by
  cases constraint <;> decide

end Constraint
end MethodContracts
