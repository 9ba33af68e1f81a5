import RouteAtlas.HttpPath
import RouteAtlas.Search.Engine
import RouteAtlas.SortedMap

/-!
# Finding tests of routes

The test files that mention a route.  A test rarely spells a route as it is registered, so a route
is looked for under several texts: itself, what comes before its first parameter, and what is above
its last segment, the last two with and without a slash behind.
-/

set_option autoImplicit false

namespace RouteAtlas.TestDiscovery

open Search

/-- The files that hold tests. -/
def testFileGlobs : List String :=
  ["**/*.\x7btest,spec\x7d.\x7bts,tsx,js,jsx,mjs,cjs\x7d", "**/__tests__/**/*.\x7bts,tsx,js,jsx\x7d",
    "tests/**/*.\x7bts,tsx,js,jsx\x7d"]

/-- What comes before the first parameter. -/
def beforeParameter : List Char → Option (List Char)
  | '/' :: ':' :: _ => some []
  | c :: cs => (beforeParameter cs).map (c :: ·)
  | [] => none

/-- What is above the last segment; nothing is above a single segment. -/
def aboveLast (cs : List Char) : Option (List Char) :=
  let above := (cs.reverse.dropWhile (· ≠ '/')).drop 1
  if above.isEmpty then none else some above.reverse

/-- The texts a test may mention a route by, the most telling first. -/
def tokens (route : String) : List String :=
  let cs := (HttpPath.normalize route).toList
  let start := match beforeParameter cs with
    | some p => [p ++ ['/'], p]
    | none => []
  let above := match aboveLast cs with
    | some p => [p, p ++ ['/']]
    | none => []
  (((cs :: start ++ above).map String.ofList).filter fun s => 1 < s.utf8ByteSize).eraseDups

/-- The query for the tests of some routes. -/
def query (root : FilePath) (routes : List String) (exclude : List String) (budget : Nat) : Query :=
  ⟨root, routes.flatMap tokens, .literal, testFileGlobs, exclude, budget⟩

/-- The tests that mention one of the routes, by their canonical paths.  A search that fails finds
nothing. -/
def tests (t : FileTree) (engine : Engine) (root : FilePath) (routes exclude : List String)
    (budget : Nat) : List String :=
  let q := query root routes exclude budget
  if q.patterns.isEmpty then []
  else
    match engine.search t q with
    | .ok files => (SortedSet.ofList (files.map t.key)).toList
    | .error _ => []

end RouteAtlas.TestDiscovery
