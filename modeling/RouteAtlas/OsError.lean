/-!
# What the operating system refuses

The causes for which reaching, reading or starting a file fails, with their standard wording.
-/

set_option autoImplicit false

namespace RouteAtlas

inductive OsError
  | notFound
  | notDirectory
  | isDirectory
  | tooManyLinks
  | nameTooLong
  | permissionDenied
  | notExecutable
  | invalidText
  | nulInName
  deriving DecidableEq, Repr, Inhabited

/-- The standard wording of a cause. -/
def OsError.message : OsError → String
  | .notFound => "No such file or directory (os error 2)"
  | .notDirectory => "Not a directory (os error 20)"
  | .isDirectory => "Is a directory (os error 21)"
  | .tooManyLinks => "Too many levels of symbolic links (os error 40)"
  | .nameTooLong => "File name too long (os error 36)"
  | .permissionDenied => "Permission denied (os error 13)"
  | .notExecutable => "Exec format error (os error 8)"
  | .invalidText => "stream did not contain valid UTF-8"
  | .nulInName => "file name contained an unexpected NUL byte"

end RouteAtlas
