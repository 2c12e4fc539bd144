/-!
# Files of a run

A run reads files by name and may write one. What the file system answers is given as a `Disk`: the
content of each file or the reason why it cannot be read, and the reason why a file cannot be
written, if there is one. A `Directory` is a disk made of a list of files.
-/

namespace MiniC.Command

inductive FileError where
  | missing
  | notDirectory
  | isDirectory
  | nameTooLong
  | notText
  | other (reason : String)
  deriving DecidableEq, Repr

namespace FileError

def message : FileError → String
  | .missing => "No such file or directory (os error 2)"
  | .notDirectory => "Not a directory (os error 20)"
  | .isDirectory => "Is a directory (os error 21)"
  | .nameTooLong => "File name too long (os error 36)"
  | .notText => "stream did not contain valid UTF-8"
  | .other reason => reason

end FileError

structure Disk where
  read : String → Except FileError ByteArray
  /-- Why a file cannot be written. -/
  refusal : String → Option FileError

/-- The text of a file, which must be UTF-8. -/
def Disk.readText (disk : Disk) (path : String) : Except FileError String := do
  let bytes ← disk.read path
  match String.fromUTF8? bytes with
  | some text => return text
  | none => throw .notText

/-- A directory with files and nothing else, in which a command runs. Of the directories around it
no file is known, but names in them can be written. -/
structure Directory where
  files : List (String × ByteArray)

/-- A path, taken apart. -/
structure Path where
  isAbsolute : Bool
  names : List String
  /-- A slash at the end asks for a directory. -/
  endsInSlash : Bool
  deriving DecidableEq, Repr

namespace Path

/-- A path has at least one byte and at most 4095. -/
def parse (text : String) : Except FileError Path :=
  if text.isEmpty then .error .missing
  else if 4095 < text.utf8ByteSize then .error .nameTooLong
  else .ok {
    isAbsolute := text.toList.head? = some '/'
    names := (text.splitOn "/").filter (· ≠ "")
    endsInSlash := text.toList.getLast? = some '/' }

end Path

/-- The directory itself or one around it. -/
inductive Folder where
  | here
  | above
  deriving DecidableEq, Repr

namespace Directory

def isTooLong (name : String) : Bool := 255 < name.utf8ByteSize

def find? (directory : Directory) (folder : Folder) (name : String) : Option ByteArray :=
  match folder with
  | .here => (directory.files.find? (·.1 = name)).map (·.2)
  | .above => none

/-- A step of a path through a folder. No name but the dots leads to another folder. -/
def enter (directory : Directory) (folder : Folder) (name : String) : Except FileError Folder :=
  if name = "." then .ok folder
  else if name = ".." then .ok .above
  else if isTooLong name then .error .nameTooLong
  else if (directory.find? folder name).isSome then .error .notDirectory
  else .error .missing

/-- The folder and the name that a path ends with, or only a folder. -/
def locate (directory : Directory) (path : Path) : Except FileError (Folder × Option String) := do
  let start : Folder := if path.isAbsolute then .above else .here
  let folder ← path.names.dropLast.foldlM directory.enter start
  match path.names.getLast? with
  | none => return (folder, none)
  | some name =>
    if name = "." ∨ name = ".." then return (← directory.enter folder name, none)
    else return (folder, some name)

def read (directory : Directory) (text : String) : Except FileError ByteArray := do
  let path ← Path.parse text
  match ← directory.locate path with
  | (_, none) => throw .isDirectory
  | (folder, some name) =>
    if isTooLong name then throw .nameTooLong
    else
      match directory.find? folder name with
      | none => throw .missing
      | some bytes => if path.endsInSlash then throw .notDirectory else return bytes

/-- The folder and the name of a file that is to be written. What a slash follows is taken for a
directory, whether it is there or not. -/
def target (directory : Directory) (text : String) : Except FileError (Folder × String) := do
  let path ← Path.parse text
  match ← directory.locate path with
  | (_, none) => throw .isDirectory
  | (folder, some name) =>
    if path.endsInSlash then throw .isDirectory
    else if isTooLong name then throw .nameTooLong
    else return (folder, name)

def refusal (directory : Directory) (text : String) : Option FileError :=
  match directory.target text with
  | .error e => some e
  | .ok _ => none

def disk (directory : Directory) : Disk :=
  ⟨directory.read, directory.refusal⟩

/-- The directory with a file replaced or added. -/
def write (directory : Directory) (text : String) (bytes : ByteArray) : Directory :=
  match directory.target text with
  | .ok (.here, name) => ⟨directory.files.filter (·.1 ≠ name) ++ [(name, bytes)]⟩
  | _ => directory

/-- The directory in which files were written one after the other. -/
def ofFiles (files : List (String × ByteArray)) : Directory :=
  files.foldl (fun directory (name, bytes) => directory.write name bytes) ⟨[]⟩

end Directory

end MiniC.Command
