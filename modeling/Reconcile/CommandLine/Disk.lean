/-!
# Disks

What the program does with files, whatever keeps them, and why that may fail.
-/

namespace Reconcile

inductive FileFault where
  | notFound
  | exists
  | notDirectory
  | isDirectory
  | nameTooLong
  /-- The path has a null character in it. -/
  | nullInPath
  | other (reason : String)
deriving DecidableEq, Repr

def FileFault.message : FileFault → String
  | .notFound => "No such file or directory (os error 2)"
  | .exists => "File exists (os error 17)"
  | .notDirectory => "Not a directory (os error 20)"
  | .isDirectory => "Is a directory (os error 21)"
  | .nameTooLong => "File name too long (os error 36)"
  | .nullInPath => "file name contained an unexpected NUL byte"
  | .other reason => reason

structure Disk (m : Type → Type) where
  read : String → m (Except FileFault String)
  /-- Creates a directory and those it lies in, as far as they are missing. -/
  createDirectories : String → m (Except FileFault Unit)
  /-- Replaces a file, or makes it in a directory that is there. -/
  write : String → String → m (Except FileFault Unit)

end Reconcile
