import RouteAtlas.Proofs.SortedMap
import RouteAtlas.Route.Graph

/-!
# A route graph is the set of its facts

`record` writes one fact into two maps of maps.  Read back through `sources` and `routes`, a graph
made by `recordAll` says of every fact whether it was recorded and nothing else: neither the order
of the facts nor their number can be seen (`recordAll_congr`).  Both directions hold the same facts,
which is `mem_routes_iff_mem_sources`.

`cell?` is the finer view of the forward map, in which a method without a source can be told from
one that is not there.  A recorded graph has no such gaps in either map (`Filled`), and that is why
its facts make all of it.
-/

set_option autoImplicit false

namespace RouteAtlas.RouteGraph

/-- The set recorded for a route and method key, where there is one. -/
def cell? (g : RouteGraph) (route method : String) : Option SortedSet :=
  (g.forward.get? route).bind (·.get? method)

theorem sources_eq_getD (g : RouteGraph) (route method : String) :
    g.sources route method = (g.cell? route method).getD ∅ := rfl

@[simp] theorem cell?_empty (route method : String) : empty.cell? route method = none := rfl

theorem cell?_record (g : RouteGraph) (x : Fact) (route method : String) :
    (g.record x).cell? route method =
      if route = x.route ∧ method = x.method then
        some ((g.sources route method).insert x.source)
      else g.cell? route method := by
  unfold cell? record sources
  rw [SortedMap.get?_update]
  by_cases hr : route = x.route
  · subst hr
    by_cases hm : method = x.method
    · subst hm
      cases g.forward.get? x.route <;> simp [SortedMap.get?_update]
    · cases g.forward.get? x.route <;> simp [hm, SortedMap.get?_update]
  · simp [hr]

theorem mem_sources_record {g : RouteGraph} {x : Fact} {route method source : String} :
    source ∈ (g.record x).sources route method ↔
      source ∈ g.sources route method ∨ ⟨route, method, source⟩ = x := by
  rw [sources_eq_getD (g.record x), cell?_record]
  obtain ⟨r, m, s⟩ := x
  by_cases h : route = r ∧ method = m
  · obtain ⟨rfl, rfl⟩ := h
    simp [or_comm]
  · -- The cell stays as it was, and the fact is about another one.
    rw [if_neg h, ← sources_eq_getD]
    have hne : (⟨route, method, source⟩ : Fact) ≠ ⟨r, m, s⟩ := by
      rintro he
      cases he
      exact h ⟨rfl, rfl⟩
    simp [hne]

theorem mem_routes_record {g : RouteGraph} {x : Fact} {route source : String} :
    route ∈ (g.record x).routes source ↔
      route ∈ g.routes source ∨ (x.route = route ∧ x.source = source) := by
  unfold routes record
  rw [SortedMap.get?_update]
  by_cases h : source = x.source
  · subst h
    simp [or_comm, eq_comm]
  · simp [h, Ne.symm h]

theorem mem_sources_recordAll {xs : List Fact} {g : RouteGraph} {route method source : String} :
    source ∈ (g.recordAll xs).sources route method ↔
      source ∈ g.sources route method ∨ ⟨route, method, source⟩ ∈ xs := by
  unfold recordAll
  induction xs generalizing g with
  | nil => simp
  | cons x xs ih =>
    rw [List.foldl_cons, ih, mem_sources_record, List.mem_cons]
    exact or_assoc

theorem mem_routes_recordAll {xs : List Fact} {g : RouteGraph} {route source : String} :
    route ∈ (g.recordAll xs).routes source ↔
      route ∈ g.routes source ∨ ∃ x ∈ xs, x.route = route ∧ x.source = source := by
  unfold recordAll
  induction xs generalizing g with
  | nil => simp
  | cons x xs ih =>
    rw [List.foldl_cons, ih, mem_routes_record]
    simp [or_assoc]

@[simp] theorem not_mem_sources_empty (route method source : String) :
    source ∉ empty.sources route method := SortedSet.not_mem_empty source

@[simp] theorem not_mem_routes_empty (route source : String) :
    route ∉ empty.routes source := SortedSet.not_mem_empty route

/-- **The two directions of a recorded graph agree**: a file that serves a route under some method
key has the route among its own. -/
theorem mem_routes_iff_mem_sources {xs : List Fact} {route source : String} :
    route ∈ (empty.recordAll xs).routes source ↔
      ∃ method, source ∈ (empty.recordAll xs).sources route method := by
  simp only [mem_routes_recordAll, mem_sources_recordAll, not_mem_routes_empty,
    not_mem_sources_empty, false_or]
  constructor
  · rintro ⟨⟨r, m, s⟩, hx, rfl, rfl⟩
    exact ⟨m, hx⟩
  · rintro ⟨m, hx⟩
    exact ⟨_, hx, rfl, rfl⟩

/-! ## Nothing is recorded empty -/

/-- No route is without a method, no method of a route without a source, and no source without a
route. -/
structure Filled (g : RouteGraph) : Prop where
  methods : ∀ route ms, g.forward.get? route = some ms → ∃ method set, ms.get? method = some set
  sources : ∀ route method set, g.cell? route method = some set → ∃ source, source ∈ set
  routes : ∀ source rs, g.reverse.get? source = some rs → ∃ route, route ∈ rs

theorem filled_empty : empty.Filled where
  methods := fun _ _ h => nomatch h
  sources := fun _ _ _ h => nomatch h
  routes := fun _ _ h => nomatch h

theorem Filled.record {g : RouteGraph} (h : g.Filled) (x : Fact) : (g.record x).Filled where
  methods := by
    intro route ms hms
    rw [RouteGraph.record, SortedMap.get?_update] at hms
    split at hms
    · cases hms
      exact ⟨x.method, _, by rw [SortedMap.get?_update, if_pos rfl]⟩
    · exact h.methods route ms hms
  sources := by
    intro route method set hset
    rw [cell?_record] at hset
    split at hset
    · cases hset
      exact ⟨x.source, SortedSet.mem_insert.mpr (.inl rfl)⟩
    · exact h.sources route method set hset
  routes := by
    intro source rs hrs
    rw [RouteGraph.record, SortedMap.get?_update] at hrs
    split at hrs
    · cases hrs
      exact ⟨x.route, SortedSet.mem_insert.mpr (.inl rfl)⟩
    · exact h.routes source rs hrs

theorem Filled.recordAll {g : RouteGraph} (h : g.Filled) (xs : List Fact) :
    (g.recordAll xs).Filled := by
  unfold RouteGraph.recordAll
  induction xs generalizing g with
  | nil => exact h
  | cons x xs ih => exact ih (h.record x)

/-! ## Equal graphs -/

/-- Where no set is empty, its members also tell whether it is there. -/
theorem eq_of_forall_mem_getD_iff {o o' : Option SortedSet}
    (hne : ∀ set, o = some set → ∃ k, k ∈ set) (hne' : ∀ set, o' = some set → ∃ k, k ∈ set)
    (h : ∀ k, k ∈ o.getD ∅ ↔ k ∈ o'.getD ∅) : o = o' := by
  cases o with
  | none =>
    cases o' with
    | none => rfl
    | some set' =>
      obtain ⟨k, hk⟩ := hne' set' rfl
      exact absurd ((h k).mpr hk) (SortedSet.not_mem_empty k)
  | some set =>
    cases o' with
    | none =>
      obtain ⟨k, hk⟩ := hne set rfl
      exact absurd ((h k).mp hk) (SortedSet.not_mem_empty k)
    | some set' => exact congrArg some (SortedSet.ext_mem h)

/-- A route that is there has a method, and the method a set. -/
theorem Filled.get?_forward_eq_none_iff {g : RouteGraph} (h : g.Filled) {route : String} :
    g.forward.get? route = none ↔ ∀ method, g.cell? route method = none := by
  constructor
  · intro hnone method
    rw [cell?, hnone, Option.bind_none]
  · intro hcells
    cases hms : g.forward.get? route with
    | none => rfl
    | some ms =>
      obtain ⟨method, set, hset⟩ := h.methods route ms hms
      have hcell := hcells method
      rw [cell?, hms, Option.bind_some, hset] at hcell
      cases hcell

theorem Filled.eq_of_forall_mem_iff {g g' : RouteGraph} (hg : g.Filled) (hg' : g'.Filled)
    (hsources : ∀ route method source,
      source ∈ g.sources route method ↔ source ∈ g'.sources route method)
    (hroutes : ∀ source route, route ∈ g.routes source ↔ route ∈ g'.routes source) : g = g' := by
  have hcell : ∀ route method, g.cell? route method = g'.cell? route method := fun route method =>
    eq_of_forall_mem_getD_iff (hg.sources route method) (hg'.sources route method)
      (hsources route method)
  have hforward : g.forward = g'.forward := by
    refine SortedMap.ext_get? fun route => ?_
    have hnone : g.forward.get? route = none ↔ g'.forward.get? route = none := by
      rw [hg.get?_forward_eq_none_iff, hg'.get?_forward_eq_none_iff]
      simp only [hcell]
    cases hms : g.forward.get? route with
    | none => exact (hnone.mp hms).symm
    | some ms =>
      cases hms' : g'.forward.get? route with
      | none => exact absurd (hms.symm.trans (hnone.mpr hms')) (Option.some_ne_none ms)
      | some ms' =>
        refine congrArg some (SortedMap.ext_get? fun method => ?_)
        have heq := hcell route method
        rwa [cell?, cell?, hms, hms'] at heq
  have hreverse : g.reverse = g'.reverse := SortedMap.ext_get? fun source =>
    eq_of_forall_mem_getD_iff (hg.routes source) (hg'.routes source) (hroutes source)
  cases g
  cases g'
  exact congr (congrArg RouteGraph.mk hforward) hreverse

/-- **A recorded graph is the set of its facts**: the same facts, in whatever order and however
often, make the same graph. -/
theorem recordAll_congr {xs ys : List Fact} (h : ∀ x, x ∈ xs ↔ x ∈ ys) :
    empty.recordAll xs = empty.recordAll ys := by
  refine (filled_empty.recordAll xs).eq_of_forall_mem_iff (filled_empty.recordAll ys) ?_ ?_
  · intro route method source
    rw [mem_sources_recordAll, mem_sources_recordAll, h]
  · intro source route
    simp only [mem_routes_recordAll, h]

end RouteAtlas.RouteGraph
