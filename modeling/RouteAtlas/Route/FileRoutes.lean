import RouteAtlas.HttpMethod
import RouteAtlas.SortedMap

/-!
# Route facts of one file

What a source file says about routes: which names hold routers and apps, what was registered on
them in source order, which files its imported names come from, and whether it exports a router.
Registrations are kept for routers and apps only; a receiver such as an HTTP client that merely
looks like one is dropped before these facts are made.
-/

set_option autoImplicit false

namespace RouteAtlas

/-- One call on a router or an app. -/
inductive Registration
  /-- `container.use([path,] …targets)` -/
  | mount (path : String) (targets : List String)
  /-- `container.get(path, …targets)` and its likes -/
  | handler (method : HttpMethod) (path : String) (targets : List String)
  deriving DecidableEq, Repr, Inhabited

namespace Registration

def isMount : Registration → Bool
  | mount .. => true
  | handler .. => false

end Registration

structure FileRoutes where
  /-- The canonical path of the file. -/
  path : String
  /-- Local name to canonical path of the file it is imported from. -/
  imports : SortedMap String
  routers : SortedSet
  apps : SortedSet
  /-- Registrations by container name, in source order. -/
  containers : SortedMap (List Registration)
  exportsRouter : Bool
  deriving Inhabited

namespace FileRoutes

/-- Whether something is registered on an app of the file. -/
def hasApp (f : FileRoutes) : Bool :=
  f.apps.toList.any f.containers.contains

/-- Whether the file holds nothing a route graph could use. -/
def isEmpty (f : FileRoutes) : Bool :=
  f.containers.isEmpty && !f.exportsRouter

end FileRoutes

end RouteAtlas
