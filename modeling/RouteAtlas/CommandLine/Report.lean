import RouteAtlas.CommandLine.Request
import RouteAtlas.Route.Store
import RouteAtlas.TestDiscovery
import RouteAtlas.WorkTree

/-!
# Reports

What the command prints for a request.  The answer to a question is its text on a line of its own,
and below it, two blanks in, what was found.
-/

set_option autoImplicit false

namespace RouteAtlas.CommandLine

structure Report where
  code : Nat
  output : String
  errors : String
  deriving DecidableEq, Repr, Inhabited

/-- The lines that tell how to use the command. -/
def help : List String :=
  ["routescope: map HTTP routes to the files that serve them",
    "Usage: routescope [options] [/route ...] [file ...]",
    "",
    "Options:",
    "  --route PATH         Files serving PATH (e.g. /api/users/42)",
    "  --source, -s FILE    Routes served by FILE",
    "  --tests, -t          Also list test files mentioning the routes",
    "  --list, -l           List every discovered route",
    "  --root, -r DIR       Repository root (default: git root or cwd)",
    "  --timeout MS         Search budget in milliseconds",
    "  -h, --help           Show help",
    "",
    "Environment:",
    "  ROUTESCOPE_LOG                 Log filter (falls back to RUST_LOG, default warn)",
    "  ROUTESCOPE_RG                  Search binary (default rg)",
    "  ROUTESCOPE_SEARCH_TIMEOUT_MS   Search budget in milliseconds"]

/-- Lines as text. -/
def textOf (lines : List String) : String := String.join (lines.map (· ++ "\n"))

/-- A path as it is shown: without the text of the canonical root at its start, and then without
slashes at its start. -/
def displayPath (t : FileTree) (root : FilePath) (path : String) : String :=
  let above := (t.key root).toList
  let cs := path.toList
  if above.isPrefixOf cs then String.ofList ((cs.drop above.length).dropWhile (· = '/')) else path

/-- A method key as it is shown. -/
def displayMethod (key : String) : String :=
  if key = HttpMethod.all.key then "ALL" else String.ofList (key.toList.map Char.toUpper)

/-- A text filled up with blanks. -/
def padded (width : Nat) (text : String) : String :=
  text ++ String.ofList (List.replicate (width - text.length) ' ')

/-- The line of a route in the list of all routes. -/
def listLine (route : String) (methods : List String) : String :=
  padded 8 (",".intercalate (methods.map displayMethod)) ++ " " ++ route

/-- A heading and what was found, or what is said when nothing was. -/
def found (heading nothing : String) (items : List String) : List String :=
  heading :: (if items.isEmpty then [nothing] else items).map ("  " ++ ·)

/-- What a request is answered from. -/
structure Setting where
  tree : FileTree
  root : FilePath
  options : Options
  deriving Inhabited

/-- The working directory. -/
def here (t : FileTree) : FilePath := FileTree.pathOf t.workingDirectory

namespace Setting

def engine (s : Setting) : Search.Engine := .programOrWalk ⟨s.options.searchBinary⟩

/-- The setting for a request.  Without a root of its own it is about the work tree that the working
directory is in, or else about the working directory. -/
def ofRequest (t : FileTree) (env : String → Option String) (r : Request) : Setting where
  tree := t
  root := (r.root <|> WorkTree.top? t t.workingDirectory).getD (here t)
  options :=
    let o := Options.ofEnvironment env
    (r.timeout.map o.withTimeout).getD o

def listing (s : Setting) (store : IndexStore) : List String :=
  (store.indexFor s.tree s.root).1.routes.map fun (route, methods) => listLine route methods

/-- What is found for a route. -/
def ofRoute (s : Setting) (route : String) : StateM IndexStore (List String) := do
  let sources ← modifyGet fun store => store.sourcesForPaths s.tree s.root [route]
  return found route "(no sources)" (sources.toList.map (displayPath s.tree s.root))

/-- The routes of a source, which is seen from the working directory. -/
def routesOf (s : Setting) (source : String) : StateM IndexStore (List String) :=
  modifyGet fun store => store.routesForSource s.tree s.root ((here s.tree).join source)

/-- The tests of routes. -/
def ofTests (s : Setting) (routes : List String) : List String :=
  let tests := TestDiscovery.tests s.tree s.engine s.root (SortedSet.ofList routes).toList
    s.options.excludeGlobs s.options.searchTimeout
  found "tests" "(none)" (tests.map (displayPath s.tree s.root))

/-- The lines that answer a request. -/
def answer (s : Setting) (r : Request) : StateM IndexStore (List String) := do
  if r.list then return s.listing (← get)
  else
    let ofRoutes ← r.routes.mapM s.ofRoute
    let served ← r.sources.mapM s.routesOf
    let ofSources := List.zipWith (fun source routes => found source "(no routes)" routes)
      r.sources served
    let ofTests := if r.tests then s.ofTests (r.routes ++ served.flatten) else []
    return ofRoutes.flatten ++ ofSources.flatten ++ ofTests

end Setting

/-- What the command does with its arguments. -/
def report (t : FileTree) (env : String → Option String) (args : List String) : Report :=
  if args.isEmpty || args.head? = some "-h" || args.head? = some "--help" then ⟨0, "", textOf help⟩
  else
    match Request.ofArguments (fun arg => t.isThere ⟨arg⟩) args with
    | .error e => ⟨1, "", textOf ["routescope: " ++ e.message]⟩
    | .ok r =>
      let s := Setting.ofRequest t env r
      let (lines, _) := (s.answer r).run (.new s.options s.engine)
      ⟨0, textOf lines, ""⟩

end RouteAtlas.CommandLine
