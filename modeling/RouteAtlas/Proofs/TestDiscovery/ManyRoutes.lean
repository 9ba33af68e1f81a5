import RouteAtlas.Proofs.Search.Needles
import RouteAtlas.Proofs.Search.Walk
import RouteAtlas.TestDiscovery

/-!
# The tests of several routes

The tests of several routes are looked for all at once: one walk, with the tokens of all routes as
its patterns.  Every token keeps its own rule for capital letters, and what makes a walk fail, a
glob that means nothing or no time at all, makes it fail whatever the routes are.  So a test is
found for several routes exactly if it is a test of one of them (`mem_tests_iff`), and **the tests
of two lists of routes together are those of the one and of the other** (`tests_distribute`).
-/

set_option autoImplicit false

namespace RouteAtlas

/-- A walk that looks for something and finds files has globs and patterns that mean something, and
time. -/
theorem Search.Walk.compiles_of_search {t : FileTree} {q : Query} {found : List FilePath}
    (hpatterns : q.patterns ≠ []) (h : search t q = .ok found) :
    q.budget ≠ 0 ∧ ∃ including exclude needles, Compiles q including exclude needles := by
  unfold search at h
  rw [if_neg (by simpa using hpatterns)] at h
  split at h
  · cases h
  · cases h
  · cases h
  · rename_i including exclude needles hincluding hexclude hneedles
    refine ⟨?_, including, exclude, needles, hincluding, hexclude, hneedles⟩
    intro hbudget
    rw [if_pos hbudget] at h
    cases h

namespace TestDiscovery

open Search

/-! ## One route -/

/-- Whether a text mentions a route: one of the tokens of the route is found in it. -/
def Mentions (text route : String) : Prop :=
  ∃ token ∈ tokens route,
    (Needle.ofLiteral token).isIn text.toList (Text.lower text.toList) = true

/-- Whether a key is that of a test of a route: of a file met on a walk from the root that is a test
by its path, is not excluded, and mentions the route. -/
def IsTestOf (t : FileTree) (root : FilePath) (exclude : List String) (route key : String) : Prop :=
  ∃ including excluded, testFileGlobs.mapM Glob.parse? = some including ∧
    exclude.mapM Glob.parse? = some excluded ∧
      ∃ m ∈ Walk.metFrom t excluded root, Walk.counts including excluded m.relative = true ∧
        t.key m.path = key ∧ ∃ text, String.fromUTF8? m.content = some text ∧ Mentions text route

/-! ## Several routes -/

section Routes

variable {t : FileTree} {engine : Engine} {root : FilePath} {routes routes' exclude : List String}
  {budget : Nat} {key : String}

/-- A text holds a needle of several routes if it mentions one of them. -/
theorem anyIn_tokens_iff {text : String} :
    Needle.anyIn ((routes.flatMap tokens).map Needle.ofLiteral) text = true ↔
      ∃ route ∈ routes, Mentions text route := by
  simp only [Needle.anyIn_iff, List.mem_map, List.mem_flatMap, Mentions]
  constructor
  · rintro ⟨_, ⟨token, ⟨route, hroute, htoken⟩, rfl⟩, hin⟩
    exact ⟨route, hroute, token, htoken, hin⟩
  · rintro ⟨route, hroute, token, htoken, hin⟩
    exact ⟨_, ⟨token, ⟨route, hroute, htoken⟩, rfl⟩, hin⟩

/-- Tests are listed in order, each once. -/
theorem exists_tests_eq_toList (t : FileTree) (engine : Search.Engine) (root : FilePath)
    (routes exclude : List String) (budget : Nat) :
    ∃ found : SortedSet, tests t engine root routes exclude budget = found.toList := by
  unfold tests
  dsimp only
  split
  · exact ⟨∅, rfl⟩
  · split
    · exact ⟨_, rfl⟩
    · exact ⟨∅, rfl⟩

/-- They are the keys of the files that a search finds, if there is something to look for. -/
theorem mem_tests_iff_search :
    key ∈ tests t engine root routes exclude budget ↔
      routes.flatMap tokens ≠ [] ∧
        ∃ found, engine.search t (query root routes exclude budget) = .ok found ∧
          ∃ p ∈ found, t.key p = key := by
  unfold tests
  dsimp only
  split
  · rename_i hnone
    exact iff_of_false List.not_mem_nil fun h => h.1 (List.isEmpty_iff.mp hnone)
  · rename_i hsome
    have hpatterns : routes.flatMap tokens ≠ [] := mt List.isEmpty_iff.mpr hsome
    rw [and_iff_right hpatterns]
    cases engine.search t (query root routes exclude budget) with
    | ok found => simp [SortedSet.mem_ofList]
    | error e => simp

/-- **A walk finds the tests of each of the routes.** -/
theorem mem_tests_iff :
    key ∈ tests t .walk root routes exclude budget ↔
      budget ≠ 0 ∧ ∃ route ∈ routes, IsTestOf t root exclude route key := by
  have hneedles : Needle.ofQuery? (query root routes exclude budget) =
      some ((routes.flatMap tokens).map Needle.ofLiteral) := rfl
  rw [mem_tests_iff_search]
  constructor
  · rintro ⟨hpatterns, found, hfound, p, hp, rfl⟩
    obtain ⟨hbudget, including, excluded, needles, hq⟩ := Walk.compiles_of_search hpatterns hfound
    obtain rfl := Option.some.inj (hneedles.symm.trans hq.needles)
    cases (Walk.search_eq hpatterns hq hbudget).symm.trans hfound
    obtain ⟨m, hm, rfl⟩ := List.mem_map.mp (FilePath.mem_sort.mp hp)
    obtain ⟨hmet, hcounts⟩ := List.mem_filter.mp hm
    obtain ⟨hcounts, hholds⟩ := Bool.and_eq_true_iff.mp hcounts
    obtain ⟨text, htext, hany⟩ := Walk.holds_iff.mp hholds
    obtain ⟨route, hroute, hmentions⟩ := anyIn_tokens_iff.mp hany
    exact ⟨hbudget, route, hroute, including, excluded, hq.including, hq.exclude, m, hmet, hcounts,
      rfl, text, htext, hmentions⟩
  · rintro ⟨hbudget, route, hroute, including, excluded, hincluding, hexcluded, m, hmet, hcounts,
      rfl, text, htext, hmentions⟩
    have hpatterns : routes.flatMap tokens ≠ [] := by
      obtain ⟨token, htoken, -⟩ := hmentions
      exact List.ne_nil_of_mem (List.mem_flatMap.mpr ⟨route, hroute, htoken⟩)
    have hholds : Walk.holds ((routes.flatMap tokens).map Needle.ofLiteral) m.content = true :=
      Walk.holds_iff.mpr ⟨text, htext, anyIn_tokens_iff.mpr ⟨route, hroute, hmentions⟩⟩
    refine ⟨hpatterns, _, Walk.search_eq hpatterns ⟨hincluding, hexcluded, hneedles⟩ hbudget,
      m.path, FilePath.mem_sort.mpr (List.mem_map_of_mem ?_), rfl⟩
    exact List.mem_filter.mpr ⟨hmet, Bool.and_eq_true_iff.mpr ⟨hcounts, hholds⟩⟩

/-- What a search answers is told by the tests that it finds. -/
theorem tests_eq_of_mem_iff
    (h : ∀ key, key ∈ tests t engine root routes exclude budget ↔
      key ∈ tests t engine root routes' exclude budget) :
    tests t engine root routes exclude budget = tests t engine root routes' exclude budget := by
  obtain ⟨found, hfound⟩ := exists_tests_eq_toList t engine root routes exclude budget
  obtain ⟨found', hfound'⟩ := exists_tests_eq_toList t engine root routes' exclude budget
  rw [hfound, hfound'] at h ⊢
  exact congrArg SortedSet.toList (SortedSet.ext_mem h)

end Routes

/-- **Looking for the tests of routes distributes over the routes.**  A walk finds the tests of each
route that is asked for and no others.  So it finds for two lists of routes together, in order and
each once, what it finds for the one and for the other; for more routes it finds no less; and
neither the order of the routes nor a route that is asked for twice makes a difference. -/
theorem tests_distribute (t : FileTree) (root : FilePath) (exclude : List String) (budget : Nat) :
    let found (routes : List String) := tests t .walk root routes exclude budget
    (∀ routes key, key ∈ found routes ↔
        budget ≠ 0 ∧ ∃ route ∈ routes, IsTestOf t root exclude route key) ∧
      (∀ routes routes', found (routes ++ routes') =
        ((SortedSet.ofList (found routes)).union (.ofList (found routes'))).toList) ∧
      (∀ routes routes', routes ⊆ routes' → found routes ⊆ found routes') ∧
      ∀ routes routes', (∀ route, route ∈ routes ↔ route ∈ routes') →
        found routes = found routes' := by
  intro found
  refine ⟨fun routes key => mem_tests_iff, fun routes routes' => ?_, fun routes routes' h key => ?_,
    fun routes routes' h => tests_eq_of_mem_iff fun key => ?_⟩
  · obtain ⟨together, htogether⟩ :=
      exists_tests_eq_toList t .walk root (routes ++ routes') exclude budget
    refine htogether.trans (congrArg SortedSet.toList (SortedSet.ext_mem fun key => ?_))
    rw [← SortedSet.mem_toList, ← htogether, SortedSet.mem_union, SortedSet.mem_ofList,
      SortedSet.mem_ofList, mem_tests_iff, mem_tests_iff, mem_tests_iff, ← and_or_left]
    simp only [List.mem_append, or_and_right, exists_or]
  · rw [mem_tests_iff, mem_tests_iff]
    rintro ⟨hbudget, route, hroute, htest⟩
    exact ⟨hbudget, route, h hroute, htest⟩
  · rw [mem_tests_iff, mem_tests_iff]
    simp only [h]

/-- A file with routes and the tests of them. -/
def suite : FileTree :=
  let file (text : String) : Entry := .file text.toUTF8 false
  ⟨.directory [("r", .directory [
    ("src", .directory [("shop.js", file "r.get('/users/:id', show); r.get('/orders', list);")]),
    ("tests", .directory [
      ("orders.js", file "get('/orders');"),
      ("users.js", file "get('/Users/42');")])])], []⟩

/-- The tests of both routes are those of either. -/
theorem tests_distribute_suite :
    let found (routes : List String) := tests suite .walk ⟨"/r"⟩ routes [] 1000
    found ["/users/:id"] = ["/r/tests/users.js"] ∧ found ["/orders"] = ["/r/tests/orders.js"] ∧
      found ["/users/:id", "/orders"] = ["/r/tests/orders.js", "/r/tests/users.js"] ∧
      ["/orders"] ⊆ ["/users/:id", "/orders"] ∧
      found ["/orders"] ⊆ found ["/users/:id", "/orders"] ∧
      (∀ route, route ∈ ["/orders", "/users/:id"] ↔ route ∈ ["/users/:id", "/orders"]) ∧
      found ["/orders", "/users/:id"] = found ["/users/:id", "/orders"] := by
  intro found
  obtain ⟨-, happend, hmore, horder⟩ := tests_distribute suite ⟨"/r"⟩ [] 1000
  have husers : found ["/users/:id"] = ["/r/tests/users.js"] := by decide +kernel
  have horders : found ["/orders"] = ["/r/tests/orders.js"] := by decide +kernel
  have hboth : found ["/users/:id", "/orders"] = ((SortedSet.ofList (found ["/users/:id"])).union
      (.ofList (found ["/orders"]))).toList := happend ["/users/:id"] ["/orders"]
  rw [husers, horders] at hboth
  have hsub : ["/orders"] ⊆ ["/users/:id", "/orders"] := by simp
  have hsame : ∀ route, route ∈ ["/orders", "/users/:id"] ↔ route ∈ ["/users/:id", "/orders"] := by
    simp [or_comm]
  exact ⟨husers, horders, hboth.trans (by decide +kernel), hsub, hmore _ _ hsub, hsame,
    horder _ _ hsame⟩

end TestDiscovery

end RouteAtlas
