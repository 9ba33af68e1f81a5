import RouteAtlas.Proofs.HttpPath
import RouteAtlas.Proofs.Route.RoundTrip

/-!
# What the index holds at an address

The trie keeps one set for a method at an address, and a route that is put there later replaces what
was there.  Each route comes once for each of its methods, with all its sources, so nothing is lost
where no two routes share an address.  But they can: what a pattern says after a splat is not part
of its address, and a blank at the end of a route is cut off when the route is cut into segments.

`held_eq_unionAt_iff` says **when an address holds all that was recorded for its routes**: if and
only if whatever was recorded for any of them was recorded for the last one, too.  So it is wherever
the routes are `Plain`, because a plain route is told by its address (`eq_of_addressOf_eq`).  It can
fail (`sources_replaced_at_address`): where one file serves `/static/*` and another `/static/*/x`,
the index knows the second file only.
-/

set_option autoImplicit false

namespace RouteAtlas

open RouteGraph RouteTrie

/-! ## What was recorded for an address -/

namespace RouteGraph

/-- All that was recorded under a method key for the routes of an address. -/
def unionAt (g : RouteGraph) (p : List String) (method : String) : SortedSet :=
  ((g.forward.keys.filter fun route => addressOf route = p).map (g.sources · method)).foldl
    SortedSet.union ∅

theorem mem_unionAt_iff {g : RouteGraph} {p : List String} {method source : String} :
    source ∈ g.unionAt p method ↔
      ∃ route, addressOf route = p ∧ source ∈ g.sources route method := by
  rw [unionAt, SortedSet.mem_foldl_union]
  simp only [SortedSet.not_mem_empty, false_or, List.mem_map, exists_exists_and_eq_and,
    List.mem_filter, decide_eq_true_eq]
  constructor
  · rintro ⟨route, ⟨-, ha⟩, hs⟩
    exact ⟨route, ha, hs⟩
  · rintro ⟨route, ha, hs⟩
    obtain ⟨set, hc, -⟩ := exists_cell?_of_mem_sources hs
    exact ⟨route, ⟨mem_keys_of_cell? hc, ha⟩, hs⟩

/-- A route whose text is all in its segments and whose segments are all in its address: no blank
ends it, and a splat is only its last segment. -/
structure Plain (route : String) : Prop where
  blank : ∀ c ∈ route.toList.getLast?, Text.isBlank c = false
  splat : ∀ s ∈ (HttpPath.segments route).dropLast, SegmentKind.ofSegment s ≠ .splat

theorem Plain.addressOf_eq {route : String} (h : Plain route) :
    addressOf route = HttpPath.segments route := by
  rw [addressOf, address, HttpPath.filter_segments, cutAtSplat_eq_self h.splat]

end RouteGraph

/-! ## What is held -/

namespace RouteIndex

/-- The sources that the trie has for a method at an address. -/
def held (ix : RouteIndex) (p : List String) (method : String) : SortedSet :=
  (ix.trie.handler? p method).getD ∅

/-- The index holds what was recorded for the one route that is kept. -/
theorem mem_held_ofGraph_iff {g : RouteGraph} {p : List String} {method source : String} :
    source ∈ (ofGraph g).held p method ↔
      ∃ route, addressOf route = p ∧ g.Kept route method ∧ source ∈ g.sources route method := by
  constructor
  · intro h
    cases hset : (ofGraph g).trie.handler? p method with
    | none =>
      rw [held, hset] at h
      exact absurd h (SortedSet.not_mem_empty source)
    | some set =>
      obtain ⟨route, hc, ha, hkept⟩ := handler?_ofGraph_eq_some_iff.mp hset
      rw [held, hset] at h
      exact ⟨route, ha, hkept, mem_sources_of_cell? hc h⟩
  · rintro ⟨route, ha, hkept, hs⟩
    obtain ⟨set, hc, hs⟩ := exists_cell?_of_mem_sources hs
    rwa [held, handler?_ofGraph_eq_some_iff.mpr ⟨route, hc, ha, hkept⟩]

/-- There is an entry for a method at an address as soon as one of its routes has the method. -/
theorem isSome_handler?_ofGraph_iff {g : RouteGraph} {p : List String} {method : String} :
    ((ofGraph g).trie.handler? p method).isSome ↔
      ∃ route, addressOf route = p ∧ (g.cell? route method).isSome := by
  rw [ofGraph_trie, handler?_putAll, Option.isSome_map, List.find?_isSome]
  simp only [addressOf, List.mem_reverse, List.mem_map, decide_eq_true_eq, exists_exists_and_eq_and]
  constructor
  · rintro ⟨⟨route, m, set⟩, hc, ha, rfl⟩
    exact ⟨route, ha, by rw [mem_cells_iff.mp hc]; rfl⟩
  · rintro ⟨route, ha, hsome⟩
    obtain ⟨set, hc⟩ := Option.isSome_iff_exists.mp hsome
    exact ⟨(route, method, set), mem_cells_iff.mpr hc, ha, rfl⟩

/-- Holding all that was recorded is having it all recorded for kept routes. -/
theorem held_ofGraph_eq_unionAt_iff {g : RouteGraph} {p : List String} {method : String} :
    (ofGraph g).held p method = g.unionAt p method ↔
      ∀ route source, addressOf route = p → source ∈ g.sources route method →
        ∃ route', addressOf route' = p ∧ g.Kept route' method ∧
          source ∈ g.sources route' method := by
  constructor
  · intro he route source ha hs
    exact mem_held_ofGraph_iff.mp (he ▸ mem_unionAt_iff.mpr ⟨route, ha, hs⟩)
  · intro h
    refine SortedSet.ext_mem fun source => ?_
    rw [mem_held_ofGraph_iff, mem_unionAt_iff]
    constructor
    · rintro ⟨route, ha, -, hs⟩
      exact ⟨route, ha, hs⟩
    · rintro ⟨route, ha, hs⟩
      exact h route source ha hs

end RouteIndex

/-! ## Building the index -/

namespace Traversal

/-- Routes are served at the join of a base path and the path that was registered. -/
theorem Serves.route_eq_join {files : Files} {v : Visit} {x : Fact} (h : Serves files v x) :
    ∃ path, x.route = HttpPath.join v.base path := by
  cases h <;> exact ⟨_, rfl⟩

/-- A plain route is told by its address. -/
theorem eq_of_addressOf_eq {files : Files} {route route' method method' source source' : String}
    (hs : source ∈ (routeGraph files).sources route method)
    (hs' : source' ∈ (routeGraph files).sources route' method') (hp : Plain route)
    (hp' : Plain route') (ha : addressOf route = addressOf route') : route = route' := by
  have hnormal : ∀ {r m s}, s ∈ (routeGraph files).sources r m → Plain r →
      HttpPath.normalize r = r := by
    intro r m s hs hp
    obtain ⟨v, -, hserves⟩ := mem_sources_routeGraph_iff.mp hs
    obtain ⟨path, hr⟩ := hserves.route_eq_join
    obtain rfl : r = HttpPath.join v.base path := hr
    exact HttpPath.normalize_join hp.blank
  rw [hp.addressOf_eq, hp'.addressOf_eq] at ha
  rw [← hnormal hs hp, ← hnormal hs' hp', HttpPath.normalize_eq_of_segments_eq ha]

/-- Where all routes of an address are plain there is only one, and it is kept. -/
theorem kept_of_plain {files : Files} {p : List String} {route method source : String}
    (hplain : ∀ route source, addressOf route = p →
      source ∈ (routeGraph files).sources route method → Plain route)
    (ha : addressOf route = p) (hs : source ∈ (routeGraph files).sources route method) :
    (routeGraph files).Kept route method := by
  intro route' hlt ha'
  by_contra hne
  obtain ⟨source', hs'⟩ :=
    (filled_routeGraph files).isSome_cell?_iff.mp (Option.isSome_iff_ne_none.mpr hne)
  have heq := eq_of_addressOf_eq hs hs' (hplain route source ha hs)
    (hplain route' source' (ha'.trans ha) hs') ha'.symm
  exact String.lt_irrefl route' (heq ▸ hlt)

/-- **When an address holds all that was recorded for its routes.**  It has an entry for a method
exactly when something was recorded; the entry is the union over the routes of the address if and
only if each source is also recorded for the route that is kept; and so it is if the routes are
plain. -/
theorem held_eq_unionAt_iff (files : Files) (p : List String) (method : String) :
    (((RouteIndex.ofGraph (routeGraph files)).trie.handler? p method).isSome ↔
        ∃ source, source ∈ (routeGraph files).unionAt p method) ∧
      ((RouteIndex.ofGraph (routeGraph files)).held p method =
          (routeGraph files).unionAt p method ↔
        ∀ route source, addressOf route = p → source ∈ (routeGraph files).sources route method →
          ∃ route', addressOf route' = p ∧ (routeGraph files).Kept route' method ∧
            source ∈ (routeGraph files).sources route' method) ∧
      ((∀ route source, addressOf route = p →
          source ∈ (routeGraph files).sources route method → Plain route) →
        (RouteIndex.ofGraph (routeGraph files)).held p method =
          (routeGraph files).unionAt p method) := by
  refine ⟨?_, RouteIndex.held_ofGraph_eq_unionAt_iff, fun hplain => ?_⟩
  · rw [RouteIndex.isSome_handler?_ofGraph_iff]
    simp only [mem_unionAt_iff, (filled_routeGraph files).isSome_cell?_iff]
    constructor
    · rintro ⟨route, ha, source, hs⟩
      exact ⟨source, route, ha, hs⟩
    · rintro ⟨source, route, ha, hs⟩
      exact ⟨route, ha, source, hs⟩
  · exact RouteIndex.held_ofGraph_eq_unionAt_iff.mpr fun route source ha hs =>
      ⟨route, ha, kept_of_plain hplain ha hs, hs⟩

/-- Two routers serve each user. -/
def sharedPattern : Files :=
  .ofList ([
    routerFile "/r/a.js" [] [.handler .get "/users/:id" []],
    routerFile "/r/b.js" [] [.handler .get "/users/:id" []]].map fun f => (f.path, f))

theorem held_eq_unionAt_iff_sharedPattern :
    (∀ route source, addressOf route = ["users", ":id"] →
        source ∈ (routeGraph sharedPattern).sources route "get" → Plain route) ∧
      (RouteIndex.ofGraph (routeGraph sharedPattern)).held ["users", ":id"] "get" =
        (routeGraph sharedPattern).unionAt ["users", ":id"] "get" ∧
      ((routeGraph sharedPattern).unionAt ["users", ":id"] "get").toList =
        ["/r/a.js", "/r/b.js"] := by
  have hplain : ∀ route source, addressOf route = ["users", ":id"] →
      source ∈ (routeGraph sharedPattern).sources route "get" → Plain route := by
    intro route source _ hs
    obtain ⟨set, hc, -⟩ := exists_cell?_of_mem_sources hs
    have hkeys : (routeGraph sharedPattern).forward.keys = ["/users/:id"] := by decide +kernel
    obtain rfl : route = "/users/:id" := by
      simpa only [hkeys, List.mem_singleton] using mem_keys_of_cell? hc
    have hlast : "/users/:id".toList.getLast? = some 'd' := by decide +kernel
    refine ⟨fun c hc => ?_, by decide +kernel⟩
    rw [hlast] at hc
    obtain rfl := Option.mem_some_iff.mp hc
    decide
  exact ⟨hplain, (held_eq_unionAt_iff sharedPattern ["users", ":id"] "get").2.2 hplain,
    by decide +kernel⟩

/-- One router serves all static files, another one what it takes to be some of them. -/
def splatTails : Files :=
  .ofList ([
    routerFile "/r/a.js" [] [.handler .get "/static/*" []],
    routerFile "/r/b.js" [] [.handler .get "/static/*/x" []]].map fun f => (f.path, f))

/-- Both routes have one address, and the second one takes it. -/
theorem sources_replaced_at_address :
    "/r/a.js" ∈ (routeGraph splatTails).sources "/static/*" "get" ∧
      addressOf "/static/*" = ["static", "*"] ∧
      "/r/a.js" ∉ (RouteIndex.ofGraph (routeGraph splatTails)).held ["static", "*"] "get" ∧
      (RouteIndex.ofGraph (routeGraph splatTails)).held ["static", "*"] "get" ≠
        (routeGraph splatTails).unionAt ["static", "*"] "get" := by
  decide +kernel

end Traversal

end RouteAtlas
