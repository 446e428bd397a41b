/-!
# JSON values

Objects keep their members in the order they were written, repeated names
included. Numbers are exact integers of at most 64 bits; any other number is
kept as it was written.
-/
namespace MethodContracts

inductive Json where
  | null
  | bool (value : Bool)
  | int (value : Int)
  /-- A number that is no integer of 64 bits, as written. -/
  | decimal (text : String)
  | string (value : String)
  | array (items : List Json)
  | object (members : List (String × Json))

namespace Json

def nat (n : Nat) : Json := .int n

/-- The last value given for a member of an object. -/
def get? (json : Json) (name : String) : Option Json :=
  match json with
  | .object members => (members.reverse.find? fun member => member.1 == name).map (·.2)
  | _ => none

def ofOption (encode : α → Json) : Option α → Json
  | some value => encode value
  | none => .null

def ofList (encode : α → Json) (values : List α) : Json := .array (values.map encode)

end Json
end MethodContracts
