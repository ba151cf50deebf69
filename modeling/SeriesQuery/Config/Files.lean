/-!
# Files as a program finds them

What stands at a path, and what reading it as text gives.
-/

namespace SeriesQuery.Config

inductive FileFault where
  | notFound
  | notDirectory
  | isDirectory
  | nameTooLong
  | notText
  /-- Any other fault, in the words of the system. -/
  | system (message : String)
  deriving DecidableEq, Repr

def FileFault.message : FileFault → String
  | .notFound => "No such file or directory (os error 2)"
  | .notDirectory => "Not a directory (os error 20)"
  | .isDirectory => "Is a directory (os error 21)"
  | .nameTooLong => "File name too long (os error 36)"
  | .notText => "stream did not contain valid UTF-8"
  | .system message => message

inductive FileState where
  | missing (fault : FileFault)
  | directory
  | unreadable (fault : FileFault)
  | contents (bytes : ByteArray)

def FileState.isPresent : FileState → Bool
  | .missing _ => false
  | _ => true

def FileState.readText : FileState → Except FileFault String
  | .missing fault => .error fault
  | .directory => .error .isDirectory
  | .unreadable fault => .error fault
  | .contents bytes =>
    match String.fromUTF8? bytes with
    | some text => .ok text
    | none => .error .notText

/-- What stands at each path. -/
abbrev Files := String → FileState

/-- The path of a name below a directory. -/
def joinPath (directory name : String) : String :=
  if directory.isEmpty || directory.endsWith "/" then directory ++ name
  else directory ++ "/" ++ name

def isAbsolute (path : String) : Bool := path.startsWith "/"

end SeriesQuery.Config
