namespace NodeFlow

inductive FileError
  | notFound
  | denied
  | notFolder
  | isFolder
  | nameTooLong
  | notText
  | other (message : String)
  deriving DecidableEq

def FileError.message : FileError → String
  | .notFound => "No such file or directory (os error 2)"
  | .denied => "Permission denied (os error 13)"
  | .notFolder => "Not a directory (os error 20)"
  | .isFolder => "Is a directory (os error 21)"
  | .nameTooLong => "File name too long (os error 36)"
  | .notText => "stream did not contain valid UTF-8"
  | .other message => message

structure Folder where
  files : List (String × String)

namespace Folder

inductive Place
  | here
  -- A folder of the system, of which nothing more is known.
  | elsewhere
  | file (text : String)

def longestName : Nat := 255

def longestPath : Nat := 4095

def child (folder : Folder) (name : String) : Except FileError Place :=
  if longestName < name.utf8ByteSize then .error .nameTooLong
  else match folder.files.lookup name with
    | some text => .ok (.file text)
    | none => .error .notFound

-- An empty part, as between two slashes, goes nowhere.
def enter (folder : Folder) (place : Place) (part : String) : Except FileError Place :=
  match place with
  | .file _ => .error .notFolder
  | .here =>
    if part = "" || part = "." then .ok .here
    else if part = ".." then .ok .elsewhere
    else folder.child part
  | .elsewhere =>
    if part = "" || part = "." || part = ".." then .ok .elsewhere
    else if longestName < part.utf8ByteSize then .error .nameTooLong
    else .error .notFound

def follow (folder : Folder) : Place → List String → Except FileError Place
  | place, [] => .ok place
  | place, part :: rest => do
    let place ← folder.enter place part
    folder.follow place rest

def start (path : String) : Place := if path.startsWith "/" then .elsewhere else .here

def nullDevice : String := "/dev/null"

def read (folder : Folder) (path : String) : Except FileError String :=
  if path = nullDevice then .ok ""
  else if path.isEmpty then .error .notFound
  else if longestPath < path.utf8ByteSize then .error .nameTooLong
  else match folder.follow (start path) (path.splitOn "/") with
    | .ok (.file text) => .ok text
    | .ok _ => .error .isFolder
    | .error error => .error error

end Folder

end NodeFlow
