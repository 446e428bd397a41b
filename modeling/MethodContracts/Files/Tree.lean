import MethodContracts.Files.Basic

/-!
# Files in memory

A tree of files is a list of absolute places with what stands there. The root
is a directory, and so is every place around another one.
-/
namespace MethodContracts

/-- An absolute place: the names on the way from the root. -/
abbrev Place := List String

inductive FileEntry where
  | file (text : String)
  | directory
deriving DecidableEq, Repr

structure FileTree where
  /-- Where relative paths start. -/
  workingDirectory : Place
  /-- A place that is written again comes first. -/
  entries : List (Place × FileEntry)
deriving DecidableEq, Repr

namespace FileTree

def get? (tree : FileTree) (place : Place) : Option FileEntry :=
  if place.isEmpty then some .directory else tree.entries.lookup place

/-- The most bytes that a name may have. -/
def nameLimit : Nat := 255

/-- The most bytes that a path may have. -/
def pathLimit : Nat := 4095

/-- Follows parts from a place. All but the last must lead to directories. -/
def walk (tree : FileTree) (place : Place) : List String → Except FileError Place
  | [] => .ok place
  | part :: parts =>
    match tree.get? place with
    | none => .error .notFound
    | some (.file _) => .error .notDirectory
    | some .directory =>
      if part = "" ∨ part = "." then walk tree place parts
      else if part = ".." then walk tree place.dropLast parts
      else if nameLimit < part.utf8ByteSize then .error .nameTooLong
      else walk tree (place ++ [part]) parts

/-- Where a path starts. -/
def start (tree : FileTree) (path : Path) : Place :=
  if path.isAbsolute then [] else tree.workingDirectory

/-- The place of a path of any length, where something may stand or not. -/
def follow (tree : FileTree) (path : Path) : Except FileError Place :=
  if path.hasNull then .error .nullInName
  else if path.text.isEmpty then .error .notFound
  else tree.walk (tree.start path) path.parts

/-- The place of a path, where something may stand or not. -/
def place (tree : FileTree) (path : Path) : Except FileError Place :=
  if pathLimit < path.text.utf8ByteSize ∧ !path.hasNull then .error .nameTooLong
  else tree.follow path

def find (tree : FileTree) (path : Path) : Except FileError FileEntry := do
  match tree.get? (← tree.place path) with
  | some entry => return entry
  | none => throw .notFound

def read (tree : FileTree) (path : Path) : Except FileError String :=
  match tree.find path with
  | .error error => .error error
  | .ok (.file text) => .ok text
  | .ok .directory => .error .isDirectory

def isFile (tree : FileTree) (path : Path) : Bool :=
  match tree.find path with
  | .ok (.file _) => true
  | _ => false

def isDirectory (tree : FileTree) (path : Path) : Bool :=
  match tree.find path with
  | .ok .directory => true
  | _ => false

def pathOf (place : Place) : Path := .ofParts true place

/-- The path of a place that exists. It must not be too long, but the path that
leads there may be. -/
def canonical? (tree : FileTree) (path : Path) : Option Path :=
  match tree.follow path with
  | .error _ => none
  | .ok place =>
    let found := pathOf place
    if (tree.get? place).isNone || decide (pathLimit < found.text.utf8ByteSize) then none
    else some found

def put (tree : FileTree) (place : Place) (entry : FileEntry) : FileTree :=
  { tree with entries := (place, entry) :: tree.entries.filter (·.1 != place) }

/-- The tree with a directory at a place and all around it; what is there stays. -/
def makeDirectories (tree : FileTree) (place : Place) : FileTree :=
  (List.range (place.length + 1)).foldl
    (fun tree count =>
      if (tree.get? (place.take count)).isSome then tree
      else tree.put (place.take count) .directory) tree

def write (tree : FileTree) (place : Place) (text : String) : FileTree :=
  (tree.makeDirectories place.dropLast).put place (.file text)

def remove (tree : FileTree) (place : Place) : FileTree :=
  { tree with entries := tree.entries.filter fun entry => !place.isPrefixOf entry.1 }

/-- The tree with an empty file at a path, if nothing stands there and the
directory around it exists. -/
def touch (tree : FileTree) (path : Path) : FileTree :=
  match tree.place path with
  | .error _ => tree
  | .ok place => if (tree.get? place).isSome then tree else tree.put place (.file "")

def files (tree : FileTree) : List Place :=
  tree.entries.filterMap fun
    | (place, .file _) => some place
    | (_, .directory) => none

def fileSystem : FileSystem (StateM FileTree) where
  read path := fun tree => (tree.read path, tree)
  isFile path := fun tree => (tree.isFile path, tree)
  isDirectory path := fun tree => (tree.isDirectory path, tree)
  canonical? path := fun tree => (tree.canonical? path, tree)
  touch path := fun tree => ((), tree.touch path)

end FileTree
end MethodContracts
