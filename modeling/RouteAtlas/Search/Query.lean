import RouteAtlas.Failure
import RouteAtlas.FilePath

/-!
# Search queries

A query asks for the files below a root whose contents match one of several patterns, with globs for
the paths that count and for those that do not.
-/

set_option autoImplicit false

namespace RouteAtlas.Search

inductive Mode
  | regex
  /-- Plain texts; one without capital letters also finds capital ones. -/
  | literal
  deriving DecidableEq, Repr, Inhabited

structure Query where
  root : FilePath
  patterns : List String
  mode : Mode
  /-- The paths that count; none means all. -/
  includeGlobs : List String
  excludeGlobs : List String
  /-- Time to search, in milliseconds. -/
  budget : Nat
  deriving Inhabited

/-- The source files that may register routes. -/
def sourceFileGlobs : List String :=
  ["**/*.\x7bts,tsx,js,jsx,mjs,cjs,mts,cts\x7d"]

/-- Lines that look like a registration on a router or an app. -/
def routeCandidatePatterns : List String :=
  ["express\\.Router\\(", "\\bRouter\\(", "\\bexpress\\(",
    "\\.(use|route|all|get|post|put|delete|patch|options|head)\\("]

/-- The query for files that may register routes. -/
def Query.routeCandidates (root : FilePath) (exclude : List String) (budget : Nat) : Query :=
  ⟨root, routeCandidatePatterns, .regex, sourceFileGlobs, exclude, budget⟩

end RouteAtlas.Search
