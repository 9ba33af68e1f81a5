import RouteAtlas.HttpPath
import RouteAtlas.Route.FileRoutes

/-!
# The route graph

From the facts of all files to the routes they serve.  A *visit* reads the registrations of one
file in one scope under one base path: every handler in scope becomes facts, and every mount of a
router leads to further visits under a longer base.  Visits start at `/`, at the apps of every file
that has one and at the routers of every file that exports one, so a router that no app mounts
still shows up.

A mount that leads back to a file and scope already on its own chain is not followed, and a
file, scope and base are read once.  The first rule is what makes the walk end: chains do not
repeat a pair, there are finitely many pairs, and so the number of visits is below
`Traversal.fuel`.
-/

set_option autoImplicit false

namespace RouteAtlas

/-- The sum of a measure over a list. -/
def sumOver {α : Type} (measure : α → Nat) (xs : List α) : Nat :=
  xs.foldr (fun x n => measure x + n) 0

/-- Route to method key to the files that serve it. -/
abbrev ForwardMap := SortedMap (SortedMap SortedSet)

/-- File to the routes it serves. -/
abbrev ReverseMap := SortedMap SortedSet

/-- One file serves one route under one method key. -/
structure Fact where
  route : String
  method : String
  source : String
  deriving DecidableEq, Repr, Inhabited

structure RouteGraph where
  forward : ForwardMap
  reverse : ReverseMap
  deriving DecidableEq, Inhabited

namespace RouteGraph

def empty : RouteGraph := ⟨∅, ∅⟩

/-- Adds a fact to both directions. -/
def record (g : RouteGraph) (f : Fact) : RouteGraph where
  forward := g.forward.update f.route fun methods =>
    (methods.getD ∅).update f.method fun sources => (sources.getD ∅).insert f.source
  reverse := g.reverse.update f.source fun routes => (routes.getD ∅).insert f.route

def recordAll (g : RouteGraph) (fs : List Fact) : RouteGraph :=
  fs.foldl record g

/-- The files recorded for a route and method key. -/
def sources (g : RouteGraph) (route method : String) : SortedSet :=
  ((g.forward.get? route).bind (·.get? method)).getD ∅

/-- The routes recorded for a file. -/
def routes (g : RouteGraph) (source : String) : SortedSet :=
  (g.reverse.get? source).getD ∅

/-- How many pairs of a route and a method key there are. -/
def routeCount (g : RouteGraph) : Nat :=
  sumOver SortedMap.size g.forward.values

end RouteGraph

namespace Traversal

/-- Which containers of a file a visit reads. -/
inductive Scope
  | apps
  | routers
  /-- A router declared and mounted in the same file. -/
  | only (name : String)
  deriving DecidableEq, Repr, Inhabited

/-- The containers in a scope. -/
def Scope.covers (s : Scope) (f : FileRoutes) (name : String) : Bool :=
  match s with
  | apps => f.apps.contains name
  | routers => f.routers.contains name
  | only n => n = name

structure Visit where
  file : String
  base : String
  scope : Scope
  /-- The files and scopes whose mounts led here, the nearest last. -/
  chain : List (String × Scope)
  deriving DecidableEq, Repr, Inhabited

/-- The files a route graph is made from, by path. -/
abbrev Files := SortedMap FileRoutes

namespace Visit

/-- A visit that no mount led to. -/
def seed (file : String) (scope : Scope) : Visit := ⟨file, "/", scope, []⟩

/-- The file and scope of the visit. -/
def site (v : Visit) : String × Scope := (v.file, v.scope)

/-- What makes two visits read the same thing. -/
def reading (v : Visit) : String × String × Scope := (v.file, v.base, v.scope)

/-- The visit that a mount leads to, unless it is on the chain already. -/
def child? (v : Visit) (file base : String) (scope : Scope) : Option Visit :=
  if (file, scope) = v.site ∨ (file, scope) ∈ v.chain then none
  else some ⟨file, base, scope, v.chain ++ [v.site]⟩

end Visit

/-- Whether a path names a file that exports a router. -/
def isRouterFile (files : Files) (path : String) : Bool :=
  (files.get? path).any (·.exportsRouter)

/-- What one registration under a base path says. -/
def registrationFacts (files : Files) (f : FileRoutes) (base : String) : Registration → List Fact
  | .handler method path targets =>
    let route := HttpPath.join base path
    (f.path :: targets.filterMap f.imports.get?).map (⟨route, method.key, ·⟩)
  | .mount path targets =>
    (targets.filterMap f.imports.get?).filterMap fun target =>
      if isRouterFile files target || target = f.path then none
      else some ⟨HttpPath.join base path, HttpMethod.wildcardKey, target⟩

/-- Where one target of a mount leads: to the routers of an imported file that exports one, or,
for a name that is not imported, to another router of the same file. -/
def mountSite? (files : Files) (f : FileRoutes) (container target : String) :
    Option (String × Scope) :=
  match f.imports.get? target with
  | some file => if isRouterFile files file then some (file, .routers) else none
  | none =>
    if target ≠ container ∧ f.routers.contains target then some (f.path, .only target) else none

/-- The sites that one registration on a container mounts, each with its base path. -/
def registrationMounts (files : Files) (f : FileRoutes) (base container : String) :
    Registration → List ((String × Scope) × String)
  | .handler .. => []
  | .mount path targets =>
    (targets.filterMap (mountSite? files f container)).map (·, HttpPath.join base path)

/-- The containers that a visit reads, each with its registrations. -/
def inScope (f : FileRoutes) (scope : Scope) : List (String × List Registration) :=
  f.containers.toList.filter fun c => scope.covers f c.1

namespace Visit

/-- What a visit records. -/
def facts (files : Files) (v : Visit) : List Fact :=
  match files.get? v.file with
  | none => []
  | some f => (inScope f v.scope).flatMap fun c => c.2.flatMap (registrationFacts files f v.base)

/-- The mounts that a visit meets, followed or not. -/
def mounts (files : Files) (v : Visit) : List ((String × Scope) × String) :=
  match files.get? v.file with
  | none => []
  | some f =>
    (inScope f v.scope).flatMap fun c => c.2.flatMap (registrationMounts files f v.base c.1)

/-- The visits that a visit leads to. -/
def children (files : Files) (v : Visit) : List Visit :=
  (v.mounts files).filterMap fun ((file, scope), base) => v.child? file base scope

end Visit

/-- Where the walk starts: apps first, then exported routers, each in path order. -/
def seeds (files : Files) : List Visit :=
  ((files.values.filter (·.hasApp)).map fun f => Visit.seed f.path .apps) ++
    ((files.values.filter (·.exportsRouter)).map fun f => Visit.seed f.path .routers)

/-- A walk in progress. -/
structure Walk where
  queue : List Visit
  seen : List (String × String × Scope)
  graph : RouteGraph
  deriving Inhabited

/-- Takes the next visit off the queue; one that was read before is passed over. -/
def Walk.step (files : Files) (w : Walk) : Walk :=
  match w.queue with
  | [] => w
  | v :: rest =>
    if v.reading ∈ w.seen then { w with queue := rest }
    else
      { queue := rest ++ v.children files
        seen := v.reading :: w.seen
        graph := w.graph.recordAll (v.facts files) }

/-- At most `n` steps. -/
def Walk.run (files : Files) : Nat → Walk → Walk
  | 0, w => w
  | n + 1, w => if w.queue.isEmpty then w else Walk.run files n (w.step files)

/-- How many targets all mounts of a file name together. -/
def mountTargets (f : FileRoutes) : Nat :=
  sumOver (sumOver fun
    | Registration.mount _ targets => targets.length
    | .handler .. => 0) f.containers.values

/-- How many files and scopes a visit can have. -/
def siteCount (files : Files) : Nat :=
  sumOver (fun f => f.routers.toList.length + 2) files.values

/-- More steps than any walk takes: a visit leads to at most as many visits as there are mount
targets, and a chain is no longer than the number of sites. -/
def fuel (files : Files) : Nat :=
  (seeds files).length * Nat.pow (sumOver mountTargets files.values + 1) (siteCount files + 1)

/-- The routes that a set of files serves. -/
def routeGraph (files : Files) : RouteGraph :=
  (Walk.run files (fuel files) ⟨seeds files, [], .empty⟩).graph

end Traversal

end RouteAtlas
