import MethodContracts.Text.Split

/-!
# Paths

A path is text with slashes between its parts. Only text is looked at: empty
parts, a slash at the end and parts that are a single dot count for nothing, but
for a dot at the front of a relative path, and nothing is resolved.
-/
namespace MethodContracts

structure Path where
  text : String
deriving DecidableEq, Repr

namespace Path

def isAbsolute (path : Path) : Bool := path.text.toList.head? == some '/'

/-- Whether a null character makes the path useless. -/
def hasNull (path : Path) : Bool := path.text.toList.contains (Char.ofNat 0)

/-- The text between slashes; a leading slash yields an empty part. -/
def parts (path : Path) : List String := (Text.splitOn '/' path.text.toList).map String.ofList

/-- The path of `path` inside the directory `dir`; an absolute path stays. -/
def join (dir path : Path) : Path :=
  if path.isAbsolute || dir.text.isEmpty then path
  else if dir.text.toList.getLast? == some '/' then ⟨dir.text ++ path.text⟩
  else ⟨dir.text ++ "/" ++ path.text⟩

/-- The parts without those at the end that count for nothing. -/
def trimParts (absolute : Bool) : List String → List String
  | [] => []
  | part :: rest =>
    match trimParts true rest with
    | [] => if part = "" ∨ (part = "." ∧ absolute) then [] else [part]
    | rest => part :: rest

/-- The path with these parts after the root, or relative with these parts. -/
def ofParts (absolute : Bool) (parts : List String) : Path :=
  ⟨(if absolute then "/" else "") ++ "/".intercalate parts⟩

/-- The parts that count, up to the last that does. -/
def counted (path : Path) : List String :=
  trimParts path.isAbsolute (if path.isAbsolute then path.parts.drop 1 else path.parts)

/-- The path without its last part; the root and the empty path have none. -/
def parent? (path : Path) : Option Path :=
  if path.counted.isEmpty then none
  else some (ofParts path.isAbsolute (trimParts path.isAbsolute path.counted.dropLast))

/-- The path, the path without its last part, and so on; at most `limit` steps. -/
def ancestorsWithin : Nat → Path → List Path
  | 0, path => [path]
  | limit + 1, path =>
    match path.parent? with
    | some parent => path :: ancestorsWithin limit parent
    | none => [path]

def ancestors (path : Path) : List Path := ancestorsWithin path.parts.length path

/-- The last part, if it is a name. -/
def fileName? (path : Path) : Option String :=
  match path.counted.getLast? with
  | some name => if name = "." ∨ name = ".." then none else some name
  | none => none

/-- What follows the last dot of the name, unless the dot comes first. -/
def extension? (path : Path) : Option String := do
  let name ← path.fileName?
  let pieces := Text.splitOn '.' name.toList
  let before := Text.joinWith ['.'] pieces.dropLast
  if before.isEmpty then none
  else pieces.getLast?.map String.ofList

end Path
end MethodContracts
