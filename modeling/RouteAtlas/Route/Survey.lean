import RouteAtlas.Options
import RouteAtlas.Route.Graph
import RouteAtlas.Search.Engine
import RouteAtlas.Source.Extraction

/-!
# Surveying a repository

From a root to the route graph of the files below it: a search names the files that may register
routes, each of them is read for its facts, and the facts together make the graph.  A survey never
fails: a search that fails finds no file, and a file that cannot be read says nothing.
-/

set_option autoImplicit false

namespace RouteAtlas

open Search

namespace Survey

/-- The files below a root that may register routes. -/
def candidates (t : FileTree) (engine : Engine) (options : Options) (root : FilePath) :
    List FilePath :=
  match engine.search t (.routeCandidates root options.excludeGlobs options.searchTimeout) with
  | .ok files => files
  | .error _ => []

/-- The facts of files, those that say something, and the answers of their lookups. -/
def readFiles (t : FileTree) (root : FilePath) (cache : Alias.Cache) :
    List FilePath → List FileRoutes × Alias.Cache
  | [] => ([], cache)
  | p :: ps =>
    match FileRoutes.ofFile t root p cache with
    | .ok (f, cache) =>
      let (fs, cache) := readFiles t root cache ps
      (if f.isEmpty then fs else f :: fs, cache)
    | .error _ => readFiles t root cache ps

/-- The facts of files by their canonical paths. -/
def files (t : FileTree) (root : FilePath) (ps : List FilePath) : Traversal.Files :=
  .ofList ((readFiles t root .empty ps).1.map fun f => (f.path, f))

/-- The route graph of a repository. -/
def graph (t : FileTree) (engine : Engine) (options : Options) (root : FilePath) : RouteGraph :=
  Traversal.routeGraph (files t root (candidates t engine options root))

end Survey

end RouteAtlas
