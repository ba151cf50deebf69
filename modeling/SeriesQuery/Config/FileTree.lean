import SeriesQuery.Config.Files

/-!
# Files held in memory

A tree of files below a working directory, for runs that must not touch the disk. A file implies
the directories above it. A name has at most 255 bytes and a path at most 4095.
-/

namespace SeriesQuery.Config

inductive TreeEntry where
  | directory
  | file (bytes : ByteArray)

structure FileTree where
  /-- The absolute path of the working directory. -/
  workingDirectory : String
  /-- The entries by their paths, as the names on the way to them. -/
  entries : List (List String × TreeEntry)

namespace FileTree

def names (path : String) : List String := (path.splitOn "/").filter fun s => !s.isEmpty

/-- A tree whose entries have paths relative to the working directory. -/
def ofEntries (workingDirectory : String) (entries : List (String × TreeEntry)) : FileTree :=
  ⟨workingDirectory,
    (names workingDirectory, .directory) ::
      entries.map fun (path, entry) => (names workingDirectory ++ names path, entry)⟩

/-- What stands at an absolute path given by names. -/
def find? (t : FileTree) (path : List String) : Option TreeEntry :=
  match t.entries.find? fun entry => entry.1 == path with
  | some entry => some entry.2
  | none =>
    if t.entries.any fun entry => path.isPrefixOf entry.1 then some .directory else none

/-- Follows names from a directory on. -/
def follow (t : FileTree) (directory : List String) : List String → FileState
  | [] => .directory
  | name :: rest =>
    if name = "" ∨ name = "." then follow t directory rest
    else if name = ".." then follow t directory.dropLast rest
    else if 255 < name.utf8ByteSize then .missing .nameTooLong
    else
      match t.find? (directory ++ [name]) with
      | none => .missing .notFound
      | some .directory => follow t (directory ++ [name]) rest
      | some (.file bytes) => if rest.isEmpty then .contents bytes else .missing .notDirectory

/-- What stands at a path, absolute or relative to the working directory. -/
def files (t : FileTree) : Files := fun path =>
  if path.isEmpty then .missing .notFound
  else if 4095 < path.utf8ByteSize then .missing .nameTooLong
  else
    follow t (if isAbsolute path then [] else names t.workingDirectory) (path.splitOn "/")

end FileTree

end SeriesQuery.Config
