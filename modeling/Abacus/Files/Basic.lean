import Abacus.Files.Path

/-!
# File stores

What the program asks of a store of files. The pure `Disk` is one such store.
-/

namespace Abacus

inductive FileFault where
  | notFound
  | alreadyExists
  | notDirectory
  | isDirectory
  | noSpace
  | nameTooLong
  | nameWithNul
  | notText
  | other (reason : String)
deriving DecidableEq

def FileFault.message : FileFault → String
  | .notFound => "No such file or directory (os error 2)"
  | .alreadyExists => "File exists (os error 17)"
  | .notDirectory => "Not a directory (os error 20)"
  | .isDirectory => "Is a directory (os error 21)"
  | .noSpace => "No space left on device (os error 28)"
  | .nameTooLong => "File name too long (os error 36)"
  | .nameWithNul => "file name contained an unexpected NUL byte"
  | .notText => "stream did not contain valid UTF-8"
  | .other reason => reason

class FileStore (m : Type → Type) where
  present : Path → m Bool
  read : Path → m (Except FileFault ByteArray)
  /-- Makes a directory and those above it, as far as they are missing. -/
  makeDirectories : Path → m (Except FileFault Unit)
  /-- Gives a file a new content; a write that fails may leave a part of it. -/
  write : Path → ByteArray → m (Except FileFault Unit)
  /-- Moves a file to another place, in one step, and replaces a file that is there. -/
  rename : Path → Path → m (Except FileFault Unit)

end Abacus
