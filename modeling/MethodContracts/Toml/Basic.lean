import MethodContracts.Number.Binary64

/-!
# Values of a settings document

A table remembers how it came about, because that decides whether later lines
may add to it. Entries keep the order in which they were written.
-/
namespace MethodContracts.Toml

/-- How a table came about. -/
inductive Origin where
  /-- Its own header, or the root of the document. -/
  | header
  /-- The longer header of a table inside it. -/
  | implied
  /-- A key with dots. -/
  | dotted
  /-- Braces. -/
  | inline
deriving DecidableEq, Repr

inductive Value where
  | string (text : String)
  | integer (value : Int)
  | float (value : Binary64)
  | boolean (value : Bool)
  /-- A date, a time or both. -/
  | datetime
  | array (items : List Value)
  | table (origin : Origin) (entries : List (String × Value))
  /-- Tables with one header each, at least one. -/
  | tables (items : List (List (String × Value)))

abbrev Entries := List (String × Value)

namespace Entries

def get? (entries : Entries) (key : String) : Option Value := entries.lookup key

/-- The entries with the value of a key replaced, which moves nothing, or with a
new key at the end. -/
def insert (entries : Entries) (key : String) (value : Value) : Entries :=
  if (entries.get? key).isSome then
    entries.map fun entry => if entry.1 = key then (key, value) else entry
  else entries ++ [(key, value)]

def erase (entries : Entries) (key : String) : Entries := entries.filter (·.1 != key)

end Entries
end MethodContracts.Toml
