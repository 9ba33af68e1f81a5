import RouteAtlas.Search.Walk
import RouteAtlas.Shell.Launch

/-!
# Search engines

The ways to answer a query: by a walk, by another program, or by a walk where the program fails.
-/

set_option autoImplicit false

namespace RouteAtlas.Search

inductive Engine
  | walk
  | program (binary : FilePath)
  /-- A walk takes over when the program cannot search. -/
  | programOrWalk (binary : FilePath)
  deriving DecidableEq, Repr, Inhabited

namespace Engine

/-- The environment of a search program beside what it inherits. -/
def environment : List (String × String) := [("CI", "1")]

/-- The files that a program finds.  A query without patterns finds nothing and starts nothing. -/
def askProgram (t : FileTree) (binary : FilePath) (q : Query) : Except Failure (List FilePath) :=
  if q.patterns.isEmpty then .ok []
  else
    Program.answer binary q
      (Shell.launch t q.root binary (Program.arguments q) environment q.budget)

/-- The files that match a query. -/
def search (t : FileTree) (q : Query) : Engine → Except Failure (List FilePath)
  | walk => Walk.search t q
  | program binary => askProgram t binary q
  | programOrWalk binary =>
    match askProgram t binary q with
    | .error e => if e.isOfSearch then Walk.search t q else .error e
    | found => found

end Engine

end RouteAtlas.Search
