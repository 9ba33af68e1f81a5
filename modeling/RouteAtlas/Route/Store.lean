import RouteAtlas.Route.Index
import RouteAtlas.Route.Survey

/-!
# The index store

One index for each root that was asked about, kept under the root's canonical path: an index is built
when it is first needed and stays as it is, whatever becomes of the files, until it is rebuilt.
-/

set_option autoImplicit false

namespace RouteAtlas

structure IndexStore where
  options : Options
  engine : Search.Engine
  indexes : SortedMap RouteIndex
  deriving Inhabited

namespace IndexStore

/-- A store that has built nothing yet. -/
def new (options : Options) (engine : Search.Engine) : IndexStore := ⟨options, engine, ∅⟩

/-- The index of the files as they are now, for a root given by its key. -/
def build (s : IndexStore) (t : FileTree) (key : String) : RouteIndex :=
  .ofGraph (Survey.graph t s.engine s.options ⟨key⟩)

/-- Builds the index of a root anew. -/
def rebuild (s : IndexStore) (t : FileTree) (root : FilePath) : RouteIndex × IndexStore :=
  let key := t.key root
  let ix := s.build t key
  (ix, { s with indexes := s.indexes.insert key ix })

/-- The index of a root, built if there is none. -/
def indexFor (s : IndexStore) (t : FileTree) (root : FilePath) : RouteIndex × IndexStore :=
  match s.indexes.get? (t.key root) with
  | some ix => (ix, s)
  | none => s.rebuild t root

/-- The files that serve any of some request paths. -/
def sourcesForPaths (s : IndexStore) (t : FileTree) (root : FilePath) (paths : List String) :
    SortedSet × IndexStore :=
  let (ix, s) := s.indexFor t root
  (ix.sourcesForPaths paths, s)

/-- The routes that a file serves; a relative path is seen from the root. -/
def routesForSource (s : IndexStore) (t : FileTree) (root source : FilePath) :
    List String × IndexStore :=
  let (ix, s) := s.indexFor t root
  (ix.routesForSource t (root.join source.text), s)

/-- The canonical paths of the roots that have an index, in order. -/
def roots (s : IndexStore) : List String := s.indexes.keys

end IndexStore

end RouteAtlas
