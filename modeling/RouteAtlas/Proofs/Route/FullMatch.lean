import RouteAtlas.Proofs.Route.RoundTrip

/-!
# Paths that a route takes in full

A request path that some registered route takes from end to end should find its files.  The lookup
chooses its branch by the segments alone: it asks neither whether anything is registered where the
branch ends nor under which method.  So a longer route can put a node in the way.

`answered_where_pattern_registered` says what is left.  One pattern prevails for the path.  **If a
route is registered under that pattern, the answer has all sources of a route that takes the whole
path.**  If none is, the answer comes from routes that take a beginning of the path and from no
others.  The second case is real (`full_match_unanswered`): `/users/new/edit` hides `/users/:id`
from the path `/users/new`, and nothing is answered at all.
-/

set_option autoImplicit false

namespace RouteAtlas

open RouteGraph RouteTrie

namespace RouteGraph

/-- A route's pattern takes a whole request path.  A splat takes all that is left of the path, and
what the pattern says after it counts for nothing. -/
def Matches (route path : String) : Prop :=
  Covers (addressOf route) (HttpPath.segments path)

theorem Filled.laid_addressOf {g : RouteGraph} (h : g.Filled) {route : String}
    (hr : route ∈ g.forward.keys) : g.Laid (addressOf route) := by
  obtain ⟨method, hsome⟩ := h.exists_isSome_cell? hr
  exact .inr ⟨route, method, hsome, List.prefix_rfl⟩

/-- The last of the routes with one address is kept for every method. -/
theorem exists_kept_route {g : RouteGraph} {p : List String} {route : String}
    (hr : route ∈ g.forward.keys) (ha : addressOf route = p) :
    ∃ last ∈ g.forward.keys, addressOf last = p ∧ ∀ method, g.Kept last method := by
  have hasymm : ∀ a b : String, a < b → ¬b < a := fun a _ h h' =>
    String.lt_irrefl a (String.lt_trans h h')
  obtain ⟨last, hlast, ha', hafter⟩ := exists_last (q := fun r => decide (addressOf r = p)) hasymm
    g.forward.pairwise_keys hr (decide_eq_true ha)
  have hlastAt : addressOf last = p := of_decide_eq_true ha'
  refine ⟨last, hlast, hlastAt, fun method route' hlt heq => ?_⟩
  by_contra hne
  obtain ⟨set, hc⟩ := Option.ne_none_iff_exists'.mp hne
  exact of_decide_eq_false (hafter route' (mem_keys_of_cell? hc) hlt) (heq.trans hlastAt)

end RouteGraph

namespace Traversal

/-- **What a path is answered that some route takes in full.**  There is one pattern that prevails
for the path.  Where routes are registered under that very pattern, all sources of one of them
are answered; and where none is, each source that is answered was recorded for a route that does not
take the whole path. -/
theorem answered_where_pattern_registered {files : Files} {path route₀ : String}
    (hr : route₀ ∈ (routeGraph files).forward.keys) (hm : Matches route₀ path) :
    ∃ p, Prevails (routeGraph files).Laid (HttpPath.segments path) p ∧
      ((∃ route ∈ (routeGraph files).forward.keys, addressOf route = p) →
        ∃ route ∈ (routeGraph files).forward.keys, Matches route path ∧
          ∀ method source, source ∈ (routeGraph files).sources route method →
            source ∈ (RouteIndex.ofGraph (routeGraph files)).sourcesForPath path) ∧
      ((∀ route ∈ (routeGraph files).forward.keys, addressOf route ≠ p) →
        ∀ source ∈ (RouteIndex.ofGraph (routeGraph files)).sourcesForPath path,
          ∃ route ∈ (routeGraph files).forward.keys, addressOf route <+: p ∧
            ¬Matches route path ∧ ∃ method, source ∈ (routeGraph files).sources route method) := by
  have hlaid := (filled_routeGraph files).laid_addressOf hr
  obtain ⟨p, hp⟩ : ∃ p, Prevails (routeGraph files).Laid (HttpPath.segments path) p :=
    ⟨_, (RouteIndex.prevails_best_ofGraph hlaid hm).1⟩
  refine ⟨p, hp, ?_, fun hfree source hs => ?_⟩
  · rintro ⟨route, hroute, ha⟩
    obtain ⟨last, hlast, rfl, hkept⟩ := exists_kept_route hroute ha
    refine ⟨last, hlast, hp.2.1, fun method source hs => ?_⟩
    exact (RouteIndex.mem_sourcesForPath_ofGraph_iff hp).mpr
      ⟨last, method, method_mem_keys hs, hkept method, List.prefix_rfl, hs⟩
  · obtain ⟨route, method, -, -, hprefix, hs⟩ :=
      (RouteIndex.mem_sourcesForPath_ofGraph_iff hp).mp hs
    obtain ⟨set, hc, -⟩ := exists_cell?_of_mem_sources hs
    have hroute := mem_keys_of_cell? hc
    exact ⟨route, hroute, hprefix, fun hcovers =>
      hfree route hroute (hp.2.1.eq_of_isPrefix hcovers hprefix), method, hs⟩

/-- One router serves each user, another one the form for a new one. -/
def editForm : Files :=
  .ofList ([
    routerFile "/r/a.js" [] [.handler .get "/users/:id" []],
    routerFile "/r/b.js" [] [.handler .get "/users/new/edit" []]].map fun f => (f.path, f))

theorem matches_editForm {s : String} (h : HttpPath.segments ("/users/" ++ s) = ["users", s]) :
    Matches "/users/:id" ("/users/" ++ s) := by
  have ha : addressOf "/users/:id" = ["users", ":id"] := by decide +kernel
  rw [Matches, ha, h]
  exact .literal (by decide) (.param (by decide) .nil)

theorem answered_where_pattern_registered_editForm :
    "/users/:id" ∈ (routeGraph editForm).forward.keys ∧ Matches "/users/:id" "/users/7" ∧
    ∃ p, Prevails (routeGraph editForm).Laid (HttpPath.segments "/users/7") p ∧
      ((∃ route ∈ (routeGraph editForm).forward.keys, addressOf route = p) →
        ∃ route ∈ (routeGraph editForm).forward.keys, Matches route "/users/7" ∧
          ∀ method source, source ∈ (routeGraph editForm).sources route method →
            source ∈ (RouteIndex.ofGraph (routeGraph editForm)).sourcesForPath "/users/7") ∧
      ((∀ route ∈ (routeGraph editForm).forward.keys, addressOf route ≠ p) →
        ∀ source ∈ (RouteIndex.ofGraph (routeGraph editForm)).sourcesForPath "/users/7",
          ∃ route ∈ (routeGraph editForm).forward.keys, addressOf route <+: p ∧
            ¬Matches route "/users/7" ∧
            ∃ method, source ∈ (routeGraph editForm).sources route method) := by
  have hr : "/users/:id" ∈ (routeGraph editForm).forward.keys := by decide +kernel
  have hm : Matches "/users/:id" "/users/7" := matches_editForm (s := "7") (by decide +kernel)
  exact ⟨hr, hm, answered_where_pattern_registered hr hm⟩

/-- `new` is a user to the first route, but the lookup prefers the node above `edit`, where nothing
is registered. -/
theorem full_match_unanswered :
    "/users/:id" ∈ (routeGraph editForm).forward.keys ∧ Matches "/users/:id" "/users/new" ∧
      ¬∃ route ∈ (routeGraph editForm).forward.keys, Matches route "/users/new" ∧
        ∀ method source, source ∈ (routeGraph editForm).sources route method →
          source ∈ (RouteIndex.ofGraph (routeGraph editForm)).sourcesForPath "/users/new" := by
  refine ⟨by decide +kernel, matches_editForm (s := "new") (by decide +kernel), ?_⟩
  rintro ⟨route, hr, -, hall⟩
  have hmissing : ∀ route ∈ (routeGraph editForm).forward.keys,
      ∃ source ∈ ((routeGraph editForm).sources route "get").toList,
        source ∉ (RouteIndex.ofGraph (routeGraph editForm)).sourcesForPath "/users/new" := by
    decide +kernel
  obtain ⟨source, hs, hnot⟩ := hmissing route hr
  exact hnot (hall "get" source hs)

end Traversal

end RouteAtlas
