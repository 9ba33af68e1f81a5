import RouteAtlas.OsError

/-!
# Failures

Why a file could not be read for routes or a search gave no answer, with the wording of each cause.
-/

set_option autoImplicit false

namespace RouteAtlas

inductive Failure
  | unreadable (path : String) (cause : OsError)
  | unsupportedExtension (extension : String)
  /-- A search program could not be started. -/
  | notStarted (program : String) (cause : OsError)
  /-- A search program reported an error and named no file. -/
  | refused (program : String)
  | invalidPattern
  | invalidGlob
  /-- The time for a search ran out, in milliseconds. -/
  | timedOut (budget : Nat)
  deriving DecidableEq, Repr, Inhabited

/-- The wording of a failure. -/
def Failure.message : Failure → String
  | unreadable path cause => path ++ ": " ++ cause.message
  | unsupportedExtension extension => "unsupported extension: ." ++ extension
  | notStarted program cause => "search: spawn " ++ program ++ ": " ++ cause.message
  | refused program => "search: " ++ program ++ " exited with status 2"
  | invalidPattern => "search: invalid pattern"
  | invalidGlob => "invalid glob"
  | timedOut budget => "search timed out after " ++ toString budget ++ "ms"

/-- Whether the search itself failed, and not the time or the question. -/
def Failure.isOfSearch : Failure → Bool
  | notStarted .. | refused .. | invalidPattern => true
  | _ => false

end RouteAtlas
