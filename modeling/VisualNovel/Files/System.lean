/-!
# File systems

What the program asks of the files around it.

* `FileError`    why a file cannot be read or written;
* `FileSystem`   reading, writing and listing files;
* `readText`     the text of a file.
-/

namespace VisualNovel

inductive FileError
  | notFound
  | notAFolder
  | isAFolder
  | nameTooLong
  | nulInPath
  | notText
  | other (message : String)
deriving DecidableEq

def FileError.message : FileError → String
  | notFound => "No such file or directory (os error 2)"
  | notAFolder => "Not a directory (os error 20)"
  | isAFolder => "Is a directory (os error 21)"
  | nameTooLong => "File name too long (os error 36)"
  | nulInPath => "file name contained an unexpected NUL byte"
  | notText => "stream did not contain valid UTF-8"
  | other message => message

class FileSystem (m : Type → Type) where
  pathExists : String → m Bool
  readBytes : String → m (Except FileError ByteArray)
  writeText : (path text : String) → m (Except FileError Unit)
  /-- the names on the way to every file below a folder, folder by folder in the order of the names -/
  filesBelow : String → m (List (List String))

variable {m : Type → Type} [Monad m] [FileSystem m]

instance {ε : Type} : FileSystem (ExceptT ε m) where
  pathExists path := ExceptT.lift (FileSystem.pathExists path)
  readBytes path := ExceptT.lift (FileSystem.readBytes path)
  writeText path text := ExceptT.lift (FileSystem.writeText path text)
  filesBelow path := ExceptT.lift (FileSystem.filesBelow path)

def readText (path : String) : m (Except FileError String) := do
  match ← FileSystem.readBytes path with
  | .error e => return .error e
  | .ok bytes =>
    match String.fromUTF8? bytes with
    | some text => return .ok text
    | none => return .error .notText

end VisualNovel
