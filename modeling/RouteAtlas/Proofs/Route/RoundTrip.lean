import RouteAtlas.Proofs.HttpPath
import RouteAtlas.Proofs.Route.Walk
import RouteAtlas.Proofs.Trie.Pattern
import RouteAtlas.Route.Index

/-!
# What a recorded route answers for itself

The index keeps a graph twice.  The reverse map is the graph's own.  The forward map is folded
into a trie, and there routes compete: a request for a route is answered along one branch, whose
pattern need not be the route's, and two routes with one address overwrite each other.

`source_answers_own_route_iff` says exactly when a source that is recorded for a route is among
the answers for the route.  It has to be kept at some address on the pattern that prevails for the
route (`Prevails`, `Kept`).  Nothing here speaks of nodes: both conditions are about the recorded
routes alone.  **They can fail** (`own_route_not_answered`): where one file serves
`/files/:name` and another `/files/*`, the path `/files/*` is taken by the parameter.
-/

set_option autoImplicit false

namespace RouteAtlas

theorem HttpMethod.key_mem_keys (m : HttpMethod) : m.key ∈ keys := by
  cases m <;> decide

/-! ## Reading the last of ordered entries -/

/-- In an ordered list, searching from the end finds what no later member outdoes. -/
theorem reverse_find?_eq_some_iff {α : Type} {R : α → α → Prop} {q : α → Bool} {xs : List α}
    (hasymm : ∀ a b, R a b → ¬R b a) (hxs : xs.Pairwise R) {x : α} :
    xs.reverse.find? q = some x ↔ x ∈ xs ∧ q x = true ∧ ∀ y ∈ xs, R x y → q y = false := by
  induction xs using List.reverseRecOn with
  | nil => simp
  | append_singleton xs z ih =>
    obtain ⟨hxs, -, hz⟩ := List.pairwise_append.mp hxs
    have hz : ∀ y ∈ xs, R y z := fun y hy => hz y hy z (List.mem_singleton.mpr rfl)
    have hzz : ¬R z z := fun h => hasymm z z h h
    rw [List.reverse_concat]
    cases hq : q z with
    | true =>
      -- `z` is found at once, and as the last member it outdoes every other.
      rw [List.find?_cons_of_pos hq]
      constructor
      · intro h
        obtain rfl : z = x := Option.some.inj h
        refine ⟨by simp, hq, fun y hy hlt => ?_⟩
        rcases List.mem_append.mp hy with hy | hy
        · exact absurd (hz y hy) (hasymm z y hlt)
        · exact absurd (List.mem_singleton.mp hy ▸ hlt) hzz
      · rintro ⟨hx, -, hlast⟩
        rcases List.mem_append.mp hx with hx | hx
        · have hzf := hlast z (by simp) (hz x hx)
          rw [hq] at hzf
          cases hzf
        · rw [List.mem_singleton.mp hx]
    | false =>
      rw [List.find?_cons_of_neg (by simp [hq]), ih hxs]
      constructor
      · rintro ⟨hx, hqx, hlast⟩
        refine ⟨List.mem_append_left _ hx, hqx, fun y hy hlt => ?_⟩
        rcases List.mem_append.mp hy with hy | hy
        · exact hlast y hy hlt
        · rw [List.mem_singleton.mp hy, hq]
      · rintro ⟨hx, hqx, hlast⟩
        rcases List.mem_append.mp hx with hx | hx
        · exact ⟨hx, hqx, fun y hy => hlast y (List.mem_append_left _ hy)⟩
        · rw [List.mem_singleton.mp hx, hq] at hqx
          cases hqx

theorem exists_last {α : Type} {R : α → α → Prop} {q : α → Bool} {xs : List α}
    (hasymm : ∀ a b, R a b → ¬R b a) (hxs : xs.Pairwise R) {x : α} (hx : x ∈ xs)
    (hq : q x = true) : ∃ y ∈ xs, q y = true ∧ ∀ z ∈ xs, R y z → q z = false := by
  have hsome : (xs.reverse.find? q).isSome :=
    List.find?_isSome.mpr ⟨x, List.mem_reverse.mpr hx, hq⟩
  obtain ⟨y, hy⟩ := Option.isSome_iff_exists.mp hsome
  exact ⟨y, (reverse_find?_eq_some_iff hasymm hxs).mp hy⟩

/-! ## The entries of a graph -/

namespace RouteGraph

/-- The recorded sets with their routes and method keys, as the index reads them. -/
def cells (g : RouteGraph) : List (String × String × SortedSet) :=
  g.forward.toList.flatMap fun (route, methods) =>
    methods.toList.map fun (method, sources) => (route, method, sources)

theorem mem_cells_iff {g : RouteGraph} {route method : String} {set : SortedSet} :
    (route, method, set) ∈ g.cells ↔ g.cell? route method = some set := by
  rw [cells, cell?, List.mem_flatMap, Option.bind_eq_some_iff]
  constructor
  · rintro ⟨⟨r, methods⟩, hr, hm⟩
    obtain ⟨⟨m, s⟩, hs, he⟩ := List.mem_map.mp hm
    cases he
    exact ⟨methods, SortedMap.mem_toList_iff.mp hr, SortedMap.mem_toList_iff.mp hs⟩
  · rintro ⟨methods, hr, hm⟩
    exact ⟨(route, methods), SortedMap.mem_toList_iff.mpr hr,
      List.mem_map.mpr ⟨(method, set), SortedMap.mem_toList_iff.mpr hm, rfl⟩⟩

/-- By route, and for one route by method. -/
def Before (a b : String × String × SortedSet) : Prop :=
  a.1 < b.1 ∨ (a.1 = b.1 ∧ a.2.1 < b.2.1)

theorem Before.asymm (a b : String × String × SortedSet) (h : Before a b) : ¬Before b a := by
  rintro (h' | ⟨he', h'⟩) <;> rcases h with h | ⟨he, h⟩
  · exact String.lt_irrefl _ (String.lt_trans h h')
  · exact String.lt_irrefl _ (he ▸ h')
  · exact String.lt_irrefl _ (he' ▸ h)
  · exact String.lt_irrefl _ (String.lt_trans h h')

theorem pairwise_cells (g : RouteGraph) : g.cells.Pairwise Before := by
  rw [cells, List.pairwise_flatMap]
  constructor
  · rintro ⟨route, methods⟩ -
    exact List.pairwise_map.mpr (methods.ordered.imp fun h => .inr ⟨rfl, h⟩)
  · refine g.forward.ordered.imp fun hlt x hx y hy => ?_
    obtain ⟨_, -, rfl⟩ := List.mem_map.mp hx
    obtain ⟨_, -, rfl⟩ := List.mem_map.mp hy
    exact .inl hlt

theorem exists_cell?_of_mem_sources {g : RouteGraph} {route method source : String}
    (h : source ∈ g.sources route method) :
    ∃ set, g.cell? route method = some set ∧ source ∈ set := by
  rw [sources_eq_getD] at h
  cases hc : g.cell? route method with
  | none =>
    rw [hc] at h
    exact absurd h (SortedSet.not_mem_empty source)
  | some set =>
    rw [hc] at h
    exact ⟨set, rfl, h⟩

theorem mem_sources_of_cell? {g : RouteGraph} {route method source : String} {set : SortedSet}
    (hc : g.cell? route method = some set) (hs : source ∈ set) :
    source ∈ g.sources route method := by
  rw [sources_eq_getD, hc]
  exact hs

theorem mem_keys_of_cell? {g : RouteGraph} {route method : String} {set : SortedSet}
    (h : g.cell? route method = some set) : route ∈ g.forward.keys := by
  obtain ⟨methods, hm, -⟩ := Option.bind_eq_some_iff.mp h
  exact SortedMap.mem_keys_iff.mpr ⟨methods, hm⟩

/-- A method that is there for a route has a source. -/
theorem Filled.isSome_cell?_iff {g : RouteGraph} (h : g.Filled) {route method : String} :
    (g.cell? route method).isSome ↔ ∃ source, source ∈ g.sources route method := by
  constructor
  · intro hsome
    obtain ⟨set, hc⟩ := Option.isSome_iff_exists.mp hsome
    obtain ⟨source, hs⟩ := h.sources route method set hc
    exact ⟨source, mem_sources_of_cell? hc hs⟩
  · rintro ⟨source, hs⟩
    obtain ⟨set, hc, -⟩ := exists_cell?_of_mem_sources hs
    rw [hc]
    rfl

/-- A route that is there has a method. -/
theorem Filled.exists_isSome_cell? {g : RouteGraph} (h : g.Filled) {route : String}
    (hr : route ∈ g.forward.keys) : ∃ method, (g.cell? route method).isSome := by
  obtain ⟨methods, hm⟩ := SortedMap.mem_keys_iff.mp hr
  obtain ⟨method, set, hset⟩ := h.methods route methods hm
  exact ⟨method, by rw [cell?, hm, Option.bind_some, hset]; rfl⟩

/-! ## Where routes are stored -/

/-- The address of a route: its segments, up to the first splat. -/
def addressOf (route : String) : List String := RouteTrie.address (HttpPath.segments route)

/-- A pattern that some recorded route goes through.  The root is always there. -/
def Laid (g : RouteGraph) (p : List String) : Prop :=
  p = [] ∨ ∃ route method, (g.cell? route method).isSome ∧ p <+: addressOf route

/-- No later route has the same address and a set for the method: what is stored for the route
stays. -/
def Kept (g : RouteGraph) (route method : String) : Prop :=
  ∀ route', route < route' → addressOf route' = addressOf route → g.cell? route' method = none

end RouteGraph

namespace RouteIndex

open RouteGraph RouteTrie

theorem ofGraph_trie (g : RouteGraph) :
    (ofGraph g).trie = putAll (g.cells.map fun c => (HttpPath.segments c.1, c.2)) := by
  have hentries : trieEntries g.forward = g.cells.map fun c => (HttpPath.segments c.1, c.2) := by
    rw [trieEntries, cells, List.map_flatMap]
    simp only [List.map_map, Function.comp_def]
  rw [ofGraph, hentries]
  rfl

theorem isSome_node?_ofGraph {g : RouteGraph} {p : List String} :
    ((ofGraph g).trie.node? p).isSome ↔ g.Laid p := by
  rw [ofGraph_trie, isSome_node?_putAll, Laid]
  refine or_congr_right ⟨?_, ?_⟩
  · rintro ⟨e, he, hp⟩
    obtain ⟨⟨route, method, set⟩, hc, rfl⟩ := List.mem_map.mp he
    exact ⟨route, method, by rw [mem_cells_iff.mp hc]; rfl, hp⟩
  · rintro ⟨route, method, hc, hp⟩
    obtain ⟨set, hset⟩ := Option.isSome_iff_exists.mp hc
    exact ⟨_, List.mem_map.mpr ⟨(route, method, set), mem_cells_iff.mpr hset, rfl⟩, hp⟩

/-- What the trie has at an address is what the last route there was recorded with. -/
theorem handler?_ofGraph_eq_some_iff {g : RouteGraph} {p : List String} {method : String}
    {set : SortedSet} :
    (ofGraph g).trie.handler? p method = some set ↔
      ∃ route, g.cell? route method = some set ∧ addressOf route = p ∧ g.Kept route method := by
  rw [ofGraph_trie, handler?_putAll, ← List.map_reverse, List.find?_map, Option.map_map]
  simp only [Option.map_eq_some_iff, reverse_find?_eq_some_iff Before.asymm g.pairwise_cells,
    Function.comp_apply, decide_eq_true_eq, decide_eq_false_iff_not]
  constructor
  · rintro ⟨⟨route, m, s⟩, ⟨hc, ⟨hp, rfl⟩, hlast⟩, rfl⟩
    refine ⟨route, mem_cells_iff.mp hc, hp, fun route' hlt ha => ?_⟩
    cases hc' : g.cell? route' m with
    | none => rfl
    | some s' => exact absurd ⟨ha.trans hp, rfl⟩ (hlast _ (mem_cells_iff.mpr hc') (.inl hlt))
  · rintro ⟨route, hc, hp, hkept⟩
    refine ⟨(route, method, set), ⟨mem_cells_iff.mpr hc, ⟨hp, rfl⟩, ?_⟩, rfl⟩
    rintro ⟨route', m, s'⟩ hc' (hlt | ⟨-, hlt⟩) ⟨ha, rfl⟩
    · -- An entry that came later for the address would have made the route give way.
      have hnone := hkept route' hlt (ha.trans hp.symm)
      rw [mem_cells_iff.mp hc'] at hnone
      cases hnone
    · exact String.lt_irrefl _ hlt

/-! ## What a path is answered -/

theorem mem_sourcesForKey_iff {ix : RouteIndex} {path method source : String} :
    source ∈ ix.sourcesForKey (HttpPath.segments path) method ↔
      ∃ n ∈ (best (HttpPath.segments path) ix.trie).nodes,
        ∃ set, contribution method n = some set ∧ source ∈ set := by
  rw [sourcesForKey, SortedSet.mem_foldl_union, lookup, HttpPath.filter_segments]
  simp only [SortedSet.not_mem_empty, false_or, List.mem_filterMap]
  constructor
  · rintro ⟨set, ⟨n, hn, hc⟩, hs⟩
    exact ⟨n, hn, set, hc, hs⟩
  · rintro ⟨n, hn, set, hc, hs⟩
    exact ⟨set, ⟨n, hn, hc⟩, hs⟩

/-- Asking for every method finds every handler on the branch, the wildcard's among them. -/
theorem mem_sourcesForPath_iff {ix : RouteIndex} {path source : String} :
    source ∈ ix.sourcesForPath path ↔
      ∃ n ∈ (best (HttpPath.segments path) ix.trie).nodes, ∃ method ∈ HttpMethod.keys,
        ∃ set, n.handlers.get? method = some set ∧ source ∈ set := by
  rw [sourcesForPath, SortedSet.mem_foldl_union]
  simp only [SortedSet.not_mem_empty, false_or, List.mem_map, exists_exists_and_eq_and,
    mem_sourcesForKey_iff]
  constructor
  · rintro ⟨method, hm, n, hn, set, hc, hs⟩
    rcases Option.or_eq_some_iff.mp hc with hc | ⟨-, hc⟩
    · exact ⟨n, hn, method, hm, set, hc, hs⟩
    · exact ⟨n, hn, HttpMethod.wildcardKey, HttpMethod.key_mem_keys .all, set, hc, hs⟩
  · rintro ⟨n, hn, method, hm, set, hc, hs⟩
    exact ⟨method, hm, n, hn, set, Option.or_eq_some_iff.mpr (.inl hc), hs⟩

/-- The branch that a lookup follows, said about the routes of a graph. -/
theorem prevails_best_ofGraph {g : RouteGraph} {q p : List String} (hp : g.Laid p)
    (hq : Covers p q) :
    Prevails g.Laid q (best q (ofGraph g).trie).pattern ∧
      ∀ n, n ∈ (best q (ofGraph g).trie).nodes ↔
        ∃ a, a <+: (best q (ofGraph g).trie).pattern ∧ (ofGraph g).trie.node? a = some n := by
  have ho : (ofGraph g).trie.Ordered := ofGraph_trie g ▸ ordered_putAll _
  have hlaid : (fun p => ((ofGraph g).trie.node? p).isSome = true) = g.Laid :=
    funext fun p => propext isSome_node?_ofGraph
  exact hlaid ▸ prevails_best ho (isSome_node?_ofGraph.mpr hp) hq

/-- **A path is answered by the pattern that prevails for it**, with the sources of every route
that is kept at a beginning of the pattern. -/
theorem mem_sourcesForPath_ofGraph_iff {g : RouteGraph} {path source : String}
    {p : List String} (hp : Prevails g.Laid (HttpPath.segments path) p) :
    source ∈ (ofGraph g).sourcesForPath path ↔
      ∃ route, ∃ method ∈ HttpMethod.keys, g.Kept route method ∧ addressOf route <+: p ∧
        source ∈ g.sources route method := by
  obtain ⟨hbest, hnodes⟩ := prevails_best_ofGraph hp.1 hp.2.1
  rw [hp.unique hbest, mem_sourcesForPath_iff]
  constructor
  · rintro ⟨n, hn, method, hm, set, hset, hs⟩
    obtain ⟨a, ha, hna⟩ := (hnodes n).mp hn
    have hhandler : (ofGraph g).trie.handler? a method = some set := by
      rw [handler?, hna, Option.bind_some, hset]
    obtain ⟨route, hc, rfl, hkept⟩ := handler?_ofGraph_eq_some_iff.mp hhandler
    exact ⟨route, method, hm, hkept, ha, mem_sources_of_cell? hc hs⟩
  · rintro ⟨route, method, hm, hkept, ha, hs⟩
    obtain ⟨set, hc, hs⟩ := exists_cell?_of_mem_sources hs
    obtain ⟨n, hna, hset⟩ := Option.bind_eq_some_iff.mp
      (handler?_ofGraph_eq_some_iff.mpr ⟨route, hc, rfl, hkept⟩)
    exact ⟨n, (hnodes n).mpr ⟨_, ha, hna⟩, method, hm, set, hset, hs⟩

/-- Whatever a recorded route is, some pattern prevails for it. -/
theorem exists_prevails {g : RouteGraph} {route method source : String}
    (h : source ∈ g.sources route method) :
    ∃ p, Prevails g.Laid (HttpPath.segments route) p := by
  obtain ⟨set, hc, -⟩ := exists_cell?_of_mem_sources h
  have hlaid : g.Laid (addressOf route) :=
    .inr ⟨route, method, by rw [hc]; rfl, List.prefix_rfl⟩
  have hcovers := covers_address (HttpPath.segments route)
  rw [HttpPath.filter_segments] at hcovers
  exact ⟨_, (prevails_best_ofGraph hlaid hcovers).1⟩

end RouteIndex

/-! ## The round trip -/

namespace Traversal

open RouteGraph RouteTrie

theorem Serves.method_mem_keys {files : Files} {v : Visit} {x : Fact} (h : Serves files v x) :
    x.method ∈ HttpMethod.keys := by
  cases h with
  | own | target => exact HttpMethod.key_mem_keys _
  | middleware => exact HttpMethod.key_mem_keys .all

theorem method_mem_keys {files : Files} {route method source : String}
    (h : source ∈ (routeGraph files).sources route method) : method ∈ HttpMethod.keys := by
  obtain ⟨v, -, hserves⟩ := mem_sources_routeGraph_iff.mp h
  exact hserves.method_mem_keys

/-- **When a recorded source comes back**: the reverse map always has the route under the source.
The route is answered with the source if and only if the source is kept, for this route or any
other and under any method, at a beginning of the pattern that prevails for the route. -/
theorem source_answers_own_route_iff {files : Files} {route method source : String}
    (h : source ∈ (routeGraph files).sources route method) :
    route ∈ (RouteIndex.ofGraph (routeGraph files)).routesForKey source ∧
      (source ∈ (RouteIndex.ofGraph (routeGraph files)).sourcesForPath route ↔
        ∃ p, Prevails (routeGraph files).Laid (HttpPath.segments route) p ∧
          ∃ route' method', (routeGraph files).Kept route' method' ∧ addressOf route' <+: p ∧
            source ∈ (routeGraph files).sources route' method') := by
  constructor
  · have hroute : route ∈ (routeGraph files).routes source := by
      rw [routeGraph_eq_recordAll] at h ⊢
      exact mem_routes_iff_mem_sources.mpr ⟨method, h⟩
    exact hroute
  · obtain ⟨p, hp⟩ := RouteIndex.exists_prevails h
    rw [RouteIndex.mem_sourcesForPath_ofGraph_iff hp]
    constructor
    · rintro ⟨route', method', -, hkept, ha, hs⟩
      exact ⟨p, hp, route', method', hkept, ha, hs⟩
    · rintro ⟨p', hp', route', method', hkept, ha, hs⟩
      exact ⟨route', method', method_mem_keys hs, hkept, hp.unique hp' ▸ ha, hs⟩

/-- One router serves each file by its name, another one all files together. -/
def rivalPatterns : Files :=
  .ofList ([
    routerFile "/r/a.js" [] [.handler .get "/files/:name" []],
    routerFile "/r/b.js" [] [.handler .get "/files/*" []]].map fun f => (f.path, f))

theorem source_answers_own_route_iff_rivalPatterns :
    "/r/b.js" ∈ (routeGraph rivalPatterns).sources "/files/*" "get" ∧
      "/files/*" ∈ (RouteIndex.ofGraph (routeGraph rivalPatterns)).routesForKey "/r/b.js" ∧
      ("/r/b.js" ∈ (RouteIndex.ofGraph (routeGraph rivalPatterns)).sourcesForPath "/files/*" ↔
        ∃ p, Prevails (routeGraph rivalPatterns).Laid (HttpPath.segments "/files/*") p ∧
          ∃ route' method', (routeGraph rivalPatterns).Kept route' method' ∧
            addressOf route' <+: p ∧
            "/r/b.js" ∈ (routeGraph rivalPatterns).sources route' method') := by
  have h : "/r/b.js" ∈ (routeGraph rivalPatterns).sources "/files/*" "get" := by decide +kernel
  exact ⟨h, source_answers_own_route_iff h⟩

/-- The parameter takes the text `*` like any other, and is preferred to the splat. -/
theorem own_route_not_answered :
    KeyedByPath rivalPatterns ∧
      "/r/b.js" ∈ (routeGraph rivalPatterns).sources "/files/*" "get" ∧
      "/r/b.js" ∉ (RouteIndex.ofGraph (routeGraph rivalPatterns)).sourcesForPath "/files/*" := by
  decide +kernel

end Traversal

end RouteAtlas
