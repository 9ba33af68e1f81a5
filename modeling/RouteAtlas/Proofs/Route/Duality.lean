import RouteAtlas.Proofs.Route.RoundTrip

/-!
# The two directions of a route graph

A route graph is kept twice, by route and by source, and the walk writes both at every fact it
records.  What is read from one direction can therefore be read from the other, whatever the mounts
between the files are, and neither direction holds an entry that says nothing
(`forward_reverse_agree`).
-/

set_option autoImplicit false

namespace RouteAtlas.Traversal

open RouteGraph

/-- **Both directions of a route graph hold the same facts**: a file is recorded for a route under
some method exactly when the route is recorded for the file.  Nothing is recorded empty, neither a
route nor a method of one nor a source, and every method key is the key of an HTTP method. -/
theorem forward_reverse_agree (files : Files) :
    (∀ route source,
      (∃ method, source ∈ (routeGraph files).sources route method) ↔
        route ∈ (routeGraph files).routes source) ∧
    (∀ route ms, (routeGraph files).forward.get? route = some ms →
      (∃ method, method ∈ ms.keys) ∧
      ∀ method set, ms.get? method = some set →
        (∃ source, source ∈ set) ∧ method ∈ HttpMethod.keys) ∧
    (∀ source rs, (routeGraph files).reverse.get? source = some rs → ∃ route, route ∈ rs) := by
  have hfilled := filled_routeGraph files
  refine ⟨?_, ?_, hfilled.routes⟩
  · intro route source
    rw [routeGraph_eq_recordAll]
    exact mem_routes_iff_mem_sources.symm
  · intro route ms hms
    constructor
    · obtain ⟨method, set, hset⟩ := hfilled.methods route ms hms
      exact ⟨method, SortedMap.mem_keys_iff.mpr ⟨set, hset⟩⟩
    · intro method set hset
      have hcell : (routeGraph files).cell? route method = some set := by
        rw [cell?, hms, Option.bind_some, hset]
      obtain ⟨source, hsource⟩ := hfilled.sources route method set hcell
      exact ⟨⟨source, hsource⟩, method_mem_keys (mem_sources_of_cell? hcell hsource)⟩

end RouteAtlas.Traversal
