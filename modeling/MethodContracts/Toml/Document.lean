import MethodContracts.Toml.Basic

/-!
# Documents

A document is a list of lines: headers and pairs of a key and a value. Every
table is defined once. A header may define a table that only longer headers
have implied so far; a key with dots may add to tables that came about by keys
with dots or by longer headers, but its last table must be one of the former.
-/
namespace MethodContracts.Toml

/-- One line that is not blank. -/
inductive Line where
  | header (path : List String)
  /-- The header of one more table of a list. -/
  | listHeader (path : List String)
  | pair (path : List String) (value : Value)

/-- Changes the table at a path. Tables that do not exist yet come about as
`origin`; where `open?` refuses the origin of a table, or where something other
than a table stands, there is no such table. In a list the last table counts. -/
def descend (origin : Origin) (open? : Origin → Bool)
    (change : Origin → Entries → Option Entries) :
    List String → Origin → Entries → Option Entries
  | [], current, entries => change current entries
  | key :: path, _, entries =>
    match entries.get? key with
    | none => do
      let child ← descend origin open? change path origin []
      return entries.insert key (.table origin child)
    | some (.table found child) =>
      if open? found then do
        let child ← descend origin open? change path found child
        return entries.insert key (.table found child)
      else none
    | some (.tables items) =>
      -- A list stands for its last table.
      match items.getLast? with
      | none => none
      | some last => do
        let last ← descend origin open? change path .header last
        return entries.insert key (.tables (items.dropLast ++ [last]))
    | some _ => none

/-- A header passes through any table but one in braces. -/
def opensForHeader (origin : Origin) : Bool := origin != .inline

/-- A key with dots passes through tables without a header of their own. -/
def opensForKey (origin : Origin) : Bool := origin == .implied || origin == .dotted

/-- Adds a pair to a table, whose key must be new. With dots, the last table
must have come about by a key with dots. -/
def insertPair (path : List String) (key : String) (value : Value) (origin : Origin)
    (entries : Entries) : Option Entries :=
  descend .dotted opensForKey
    (fun current entries =>
      -- Tables made by keys with dots are open to such keys, and all others to plain keys.
      if (current == .dotted) == path.isEmpty || (entries.get? key).isSome then none
      else some (entries.insert key value))
    path origin entries

/-- The table that pairs make. -/
def tableOf (origin : Origin) : List (List String × Value) → Option Entries
  | pairs => pairs.foldlM
      (fun entries (path, value) => do
        let key ← path.getLast?
        insertPair path.dropLast key value origin entries) []

/-- A document as far as it has been read. -/
structure Draft where
  root : Entries
  /-- The table that pairs go to. -/
  current : List String

namespace Draft

def empty : Draft := ⟨[], []⟩

/-- Changes the table around the last key of a header. -/
def changeAround (draft : Draft) (path : List String)
    (change : String → Entries → Option Entries) : Option Draft := do
  let key ← path.getLast?
  let root ←
    descend .implied opensForHeader (fun _ entries => change key entries) path.dropLast
      .header draft.root
  return ⟨root, path⟩

/-- Defines the table of a header. One that was implied moves to the end. -/
def define (key : String) (entries : Entries) : Option Entries :=
  match entries.get? key with
  | none => some (entries.insert key (.table .header []))
  | some (.table .implied child) => some ((entries.erase key).insert key (.table .header child))
  | some _ => none

/-- Adds one more table to a list. -/
def defineNext (key : String) (entries : Entries) : Option Entries :=
  match entries.get? key with
  | none => some (entries.insert key (.tables [[]]))
  | some (.tables items) => some (entries.insert key (.tables (items ++ [[]])))
  | some _ => none

def step (draft : Draft) : Line → Option Draft
  | .header path => draft.changeAround path define
  | .listHeader path => draft.changeAround path defineNext
  | .pair path value => do
    let key ← path.getLast?
    let root ←
      descend .implied opensForHeader
        (fun _ entries => insertPair path.dropLast key value .header entries)
        draft.current .header draft.root
    return ⟨root, draft.current⟩

end Draft

/-- The root table of a document, if its lines define every table and key once. -/
def ofLines (lines : List Line) : Option Entries := (lines.foldlM Draft.step .empty).map (·.root)

end MethodContracts.Toml
