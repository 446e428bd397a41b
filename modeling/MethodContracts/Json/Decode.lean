import MethodContracts.Json.Basic

/-!
# Reading values out of JSON

A record is written as an object or as an array of its fields in order. In an
object, unknown members are left out and a repeated field is an error; in an
array, fields at the end may be missing and too many items are an error. A
value of several kinds, a node, is a record that gives its kind, as the member
`kind` or as the first item.
-/
namespace MethodContracts.Json

/-- The value of one member: an error if it is repeated. -/
def member? (members : List (String × Json)) (name : String) : Option (Option Json) :=
  match members.filter fun member => member.1 == name with
  | [] => some none
  | [(_, value)] => some (some value)
  | _ => none

/-- The fields of a record, in the order of `names`; missing ones are `none`. -/
def fields? (names : List String) : Json → Option (List (Option Json))
  | .object members => names.mapM (member? members)
  | .array items =>
    if items.length ≤ names.length then
      some (items.map some ++ List.replicate (names.length - items.length) none)
    else none
  | _ => none

/-- How a node may give its kind. -/
inductive KindForm where
  | named
  /-- By its name, or by its number among all kinds, counted from zero. -/
  | numbered
deriving DecidableEq, Repr

/-- The kind that a value stands for, among these. -/
def kind? (form : KindForm) (kinds : List String) : Json → Option String
  | .string kind => some kind
  | .int n => if form = .numbered ∧ 0 ≤ n then kinds[n.toNat]? else none
  | _ => none

/-- The kind of a node, and the record without it. -/
def tagged? (form : KindForm) (kinds : List String) : Json → Option (String × Json)
  | .object members => do
    let kind ← (← member? members "kind").bind (kind? form kinds)
    return (kind, .object (members.filter fun member => member.1 != "kind"))
  | .array (kind :: items) => do
    let kind ← kind? form kinds kind
    return (kind, .array items)
  | _ => none

/-- The word that stands for a case without fields: a string, or an object with
that name and null. -/
def word? : Json → Option String
  | .string word => some word
  | .object [(word, .null)] => some word
  | _ => none

/-- A word inside a node, where an empty object does for null. -/
def wordInNode? : Json → Option String
  | .object [(word, .object [])] => some word
  | json => word? json

def string? : Json → Option String
  | .string text => some text
  | _ => none

/-- A number from zero up to, and not including, `bound`. -/
def natBelow? (bound : Nat) : Json → Option Nat
  | .int n => if 0 ≤ n ∧ n < bound then some n.toNat else none
  | _ => none

def listOf? (decode : Json → Option α) : Json → Option (List α)
  | .array items => items.mapM decode
  | _ => none

/-- A field that has to be there. -/
def required (decode : Json → Option α) (field : Option Json) : Option α := field.bind decode

/-- A field that may be missing. -/
def withDefault (default : α) (decode : Json → Option α) : Option Json → Option α
  | some json => decode json
  | none => some default

/-- A field that may be missing or null. -/
def optional (decode : Json → Option α) : Option Json → Option (Option α)
  | some .null => some none
  | some json => (decode json).map some
  | none => some none

end MethodContracts.Json
