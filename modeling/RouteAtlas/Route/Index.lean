import RouteAtlas.FileTree
import RouteAtlas.Route.Graph
import RouteAtlas.Route.Trie

/-!
# The route index

A route graph made ready for questions in both directions.  A request path is looked up in the
trie of all routes, where `/users/42` meets the pattern `/users/:id`; a file is looked up by its
canonical path.  The trie is the forward map in another shape: each route and method is stored
once, with all its files.
-/

set_option autoImplicit false

namespace RouteAtlas

structure RouteIndex where
  trie : RouteTrie SortedSet
  forward : ForwardMap
  reverse : ReverseMap
  deriving Inhabited

namespace RouteIndex

def empty : RouteIndex := ⟨.empty, ∅, ∅⟩

/-- The files of a graph's routes, each with the route's segments and a method key. -/
def trieEntries (forward : ForwardMap) : List (List String × String × SortedSet) :=
  forward.toList.flatMap fun (route, methods) =>
    methods.toList.map fun (method, sources) => (HttpPath.segments route, method, sources)

def ofGraph (g : RouteGraph) : RouteIndex where
  trie := (trieEntries g.forward).foldl (fun t (segs, method, v) => t.put segs method v) .empty
  forward := g.forward
  reverse := g.reverse

/-- The union of the file sets along the best branch, for one method key. -/
def sourcesForKey (ix : RouteIndex) (segments : List String) (method : String) : SortedSet :=
  (ix.trie.lookup segments method).foldl SortedSet.union ∅

/-- The files that serve a request path, whatever its method. -/
def sourcesForPath (ix : RouteIndex) (path : String) : SortedSet :=
  (HttpMethod.keys.map (ix.sourcesForKey (HttpPath.segments path))).foldl SortedSet.union ∅

/-- The files that serve a request path for one method; `all` asks for wildcard handlers alone. -/
def sourcesFor (ix : RouteIndex) (method : HttpMethod) (path : String) : SortedSet :=
  ix.sourcesForKey (HttpPath.segments path) method.key

/-- The files that serve any of some request paths. -/
def sourcesForPaths (ix : RouteIndex) (paths : List String) : SortedSet :=
  (paths.map fun p => ix.sourcesForPath (HttpPath.normalize p)).foldl SortedSet.union ∅

/-- The routes that a file serves, the file given by its key. -/
def routesForKey (ix : RouteIndex) (key : String) : List String :=
  ((ix.reverse.get? key).getD ∅).toList

/-- The routes that a file serves, by any path that leads to it. -/
def routesForSource (ix : RouteIndex) (tree : FileTree) (path : FilePath) : List String :=
  ix.routesForKey (tree.key path)

/-- Every route with the method keys it has. -/
def routes (ix : RouteIndex) : List (String × List String) :=
  ix.forward.toList.map fun (route, methods) => (route, methods.keys)

def isEmpty (ix : RouteIndex) : Bool := ix.forward.isEmpty

end RouteIndex

end RouteAtlas
