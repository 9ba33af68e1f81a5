import RouteAtlas.Proofs.Route.RoundTrip

/-!
# A path is answered with all that its branch holds

A lookup is made for one method, and at a node that has a handler for the method the node's wildcard
handler is passed over.  A request path is answered for every method at once, and **then nothing on
the branch is passed over** (`sourcesForPath_eq_payloads`): what one method does not show another
one does, since all methods are looked up along the same branch, and the wildcard is looked up by
itself, too.

This is so for the methods a request can have.  A handler under any other key is never looked up, so
the graph is asked to have none.
-/

set_option autoImplicit false

namespace RouteAtlas

/-- Whether every method key of a graph is the key of a method. -/
def RouteGraph.MethodsKnown (g : RouteGraph) : Prop :=
  ∀ methods ∈ g.forward.values, ∀ key ∈ methods.keys, ∃ m : HttpMethod, m.key = key

theorem HttpMethod.mem_keys_iff {key : String} : key ∈ keys ↔ ∃ m : HttpMethod, m.key = key := by
  constructor
  · intro h
    rcases List.mem_append.mp h with h | h
    · obtain ⟨m, -, hm⟩ := List.mem_map.mp h
      exact ⟨m, hm⟩
    · exact ⟨all, (List.mem_singleton.mp h).symm⟩
  · rintro ⟨m, rfl⟩
    exact key_mem_keys m

/-- The file sets that the nodes of a branch hold, whatever the method. -/
def RouteTrie.Branch.payloads (b : RouteTrie.Branch SortedSet) : List SortedSet :=
  b.nodes.flatMap fun n => n.handlers.values

theorem RouteTrie.Branch.mem_payloads_iff {b : RouteTrie.Branch SortedSet} {set : SortedSet} :
    set ∈ b.payloads ↔ ∃ n ∈ b.nodes, ∃ key, n.handlers.get? key = some set := by
  simp only [payloads, List.mem_flatMap, SortedMap.mem_values_iff]

namespace RouteIndex

open RouteTrie

/-- No node that a branch of the index goes through has a handler for anything but a method. -/
theorem key_mem_keys_of_isBranch {g : RouteGraph} (h : g.MethodsKnown) {segs : List String}
    {turns : List Nat} {b : Branch SortedSet} (hb : IsBranch (ofGraph g).trie segs turns b)
    {n : RouteTrie SortedSet} (hn : n ∈ b.nodes) {key : String} {set : SortedSet}
    (hset : n.handlers.get? key = some set) : key ∈ HttpMethod.keys := by
  have ho : (ofGraph g).trie.Ordered := ofGraph_trie g ▸ ordered_putAll _
  obtain ⟨p, -, hp⟩ := (hb.mem_nodes_iff ho).mp hn
  have hhandler : (ofGraph g).trie.handler? p key = some set := by
    rw [handler?, hp, Option.bind_some, hset]
  obtain ⟨route, hcell, -⟩ := handler?_ofGraph_eq_some_iff.mp hhandler
  obtain ⟨methods, hmethods, hkey⟩ := Option.bind_eq_some_iff.mp hcell
  exact HttpMethod.mem_keys_iff.mpr <|
    h methods (SortedMap.mem_values_iff.mpr ⟨route, hmethods⟩) key
      (SortedMap.mem_keys_iff.mpr ⟨set, hkey⟩)

/-- Asking without a method is asking for each. -/
theorem mem_sourcesForPath_iff_exists_method {ix : RouteIndex} {path source : String} :
    source ∈ ix.sourcesForPath path ↔ ∃ m : HttpMethod, source ∈ ix.sourcesFor m path := by
  rw [sourcesForPath, SortedSet.mem_foldl_union]
  simp only [SortedSet.not_mem_empty, false_or, List.mem_map, exists_exists_and_eq_and,
    HttpMethod.mem_keys_iff]
  constructor
  · rintro ⟨-, ⟨m, rfl⟩, hs⟩
    exact ⟨m, hs⟩
  · rintro ⟨m, hs⟩
    exact ⟨m.key, ⟨m, rfl⟩, hs⟩

/-- **A request path is answered with everything on the branch that is preferred to all others**:
the answer is the sorted union of what the nodes of that branch hold, under whichever method, and
the union of the answers for each of the methods.  So what a node holds for all methods is in the
answer whatever else the node holds. -/
theorem sourcesForPath_eq_payloads {g : RouteGraph} (h : g.MethodsKnown) (path : String) :
    ∃ turns b, IsBranch (ofGraph g).trie (HttpPath.segments path) turns b ∧
      (∀ turns' b', IsBranch (ofGraph g).trie (HttpPath.segments path) turns' b' →
        (turns' = turns ∧ b' = b) ∨ Preferred turns b turns' b') ∧
      (ofGraph g).sourcesForPath path = .ofList (b.payloads.flatMap SortedSet.toList) ∧
      (∀ source, source ∈ (ofGraph g).sourcesForPath path ↔
        ∃ m : HttpMethod, source ∈ (ofGraph g).sourcesFor m path) ∧
      ∀ n ∈ b.nodes, ∀ wild, n.handlers.get? "*" = some wild →
        ∀ source ∈ wild, source ∈ (ofGraph g).sourcesForPath path := by
  obtain ⟨turns, hbest⟩ := exists_bestBy (HttpPath.segments path) (ofGraph g).trie
  have hunion : ∀ source, source ∈ (ofGraph g).sourcesForPath path ↔
      ∃ set ∈ (best (HttpPath.segments path) (ofGraph g).trie).payloads, source ∈ set := by
    intro source
    simp only [mem_sourcesForPath_iff, Branch.mem_payloads_iff]
    constructor
    · rintro ⟨n, hn, key, -, set, hset, hs⟩
      exact ⟨set, ⟨n, hn, key, hset⟩, hs⟩
    · rintro ⟨set, ⟨n, hn, key, hset⟩, hs⟩
      exact ⟨n, hn, key, key_mem_keys_of_isBranch h hbest.1 hn hset, set, hset, hs⟩
  refine ⟨turns, _, hbest.1, fun turns' b' h' => hbest.preferred h',
    SortedSet.ext_mem fun source => ?_, fun source => mem_sourcesForPath_iff_exists_method,
    fun n hn wild hwild source hs => ?_⟩
  · rw [hunion, SortedSet.mem_ofList, List.mem_flatMap]
    rfl
  · exact (hunion source).mpr ⟨wild, Branch.mem_payloads_iff.mpr ⟨n, hn, "*", hwild⟩, hs⟩

/-- Middleware for all of `/admin`, a page there, and one route below. -/
def guardedPages : RouteGraph :=
  .recordAll .empty [⟨"/admin", "*", "/r/auth.js"⟩, ⟨"/admin", "get", "/r/home.js"⟩,
    ⟨"/admin/users", "post", "/r/users.js"⟩]

/-- The middleware is not looked up for `get`, and is in the answer all the same. -/
theorem sourcesForPath_eq_payloads_guardedPages :
    guardedPages.MethodsKnown ∧
      (ofGraph guardedPages).sourcesFor .get "/admin/users" = .ofList ["/r/home.js"] ∧
      ∃ turns b, IsBranch (ofGraph guardedPages).trie ["admin", "users"] turns b ∧
        (ofGraph guardedPages).sourcesForPath "/admin/users" =
          .ofList (b.payloads.flatMap SortedSet.toList) ∧
        ((ofGraph guardedPages).sourcesForPath "/admin/users").toList =
          ["/r/auth.js", "/r/home.js", "/r/users.js"] := by
  have hknown : guardedPages.MethodsKnown := by
    intro methods hmethods key hkey
    have hall : ∀ methods ∈ guardedPages.forward.values, ∀ key ∈ methods.keys,
        key ∈ HttpMethod.keys := by decide +kernel
    exact HttpMethod.mem_keys_iff.mp (hall methods hmethods key hkey)
  have hsegments : HttpPath.segments "/admin/users" = ["admin", "users"] := by decide +kernel
  obtain ⟨turns, b, hb, -, hunion, -⟩ := sourcesForPath_eq_payloads hknown "/admin/users"
  exact ⟨hknown, by decide +kernel, turns, b, hsegments ▸ hb, hunion, by decide +kernel⟩

end RouteIndex

end RouteAtlas
