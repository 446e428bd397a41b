import MethodContracts.Files.Path

/-!
# Access to files

What the program needs of a file system, for whatever provides it.
-/
namespace MethodContracts

/-- Why a file cannot be read. -/
inductive FileError where
  | notFound
  | notDirectory
  | isDirectory
  /-- The path or one of its names is too long. -/
  | nameTooLong
  /-- The path has a null character in it. -/
  | nullInName
  | other (message : String)
deriving DecidableEq, Repr

def FileError.message : FileError → String
  | .notFound => "No such file or directory (os error 2)"
  | .notDirectory => "Not a directory (os error 20)"
  | .isDirectory => "Is a directory (os error 21)"
  | .nameTooLong => "File name too long (os error 36)"
  | .nullInName => "file name contained an unexpected NUL byte"
  | .other message => message

structure FileSystem (m : Type → Type) where
  read : Path → m (Except FileError String)
  isFile : Path → m Bool
  isDirectory : Path → m Bool
  /-- The absolute path without dots of what exists at a path. -/
  canonical? : Path → m (Option Path)
  /-- Opens a file to write at its end, and creates it if need be; nothing is
  written. -/
  touch : Path → m Unit

end MethodContracts
