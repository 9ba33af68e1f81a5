import Mathlib.Logic.Basic
import RouteAtlas.Proofs.SortedMap
import RouteAtlas.Route.Graph

/-!
# Mount chains, said without the walk

What a set of files means for its routes, as relations: where a mount leads (`Leads`, `Mounts`),
which files and scopes are reached one mount after another (`MountChain`), and what is served at
the end of such a chain (`Serves`).  None of them mentions a queue, a record of what was read, or
a bound on steps, so they are what the walk can be compared with.

The second half ties the pieces of the walk to these relations, one `iff` for each:
`mem_facts_iff`, `mem_mounts_iff` and `mem_children_iff`.  Proofs about the walk use these and
open neither `registrationFacts` nor `mountSite?`.
-/

set_option autoImplicit false

namespace RouteAtlas.Traversal

/-! ## The relations -/

/-- Every file is listed under its own path. -/
def KeyedByPath (files : Files) : Prop :=
  ∀ path f, files.get? path = some f → f.path = path

theorem keyedByPath_iff {files : Files} :
    KeyedByPath files ↔ ∀ e ∈ files.toList, e.2.path = e.1 := by
  constructor
  · intro h e he
    exact h e.1 e.2 (SortedMap.mem_toList_iff.mp he)
  · intro h path f hf
    exact h (path, f) (SortedMap.mem_toList_iff.mpr hf)

instance (files : Files) : Decidable (KeyedByPath files) :=
  decidable_of_iff _ keyedByPath_iff.symm

/-- Files listed the way a survey lists them are. -/
theorem keyedByPath_ofList (fs : List FileRoutes) :
    KeyedByPath (.ofList (fs.map fun f => (f.path, f))) := by
  intro path f hf
  obtain ⟨g, _, hg⟩ := List.mem_map.mp (SortedMap.mem_of_get?_ofList hf)
  cases hg
  rfl

/-- A registration on a container that is in scope. -/
def Registered (f : FileRoutes) (scope : Scope) (container : String) (r : Registration) : Prop :=
  scope.covers f container = true ∧ ∃ rs, f.containers.get? container = some rs ∧ r ∈ rs

/-- Where a target named in a mount leads: an imported name to the routers of its file, if that
file exports one; any other name to the router so called in the same file. -/
inductive Leads (files : Files) (f : FileRoutes) (container target : String) :
    String × Scope → Prop
  | imported {file : String} {g : FileRoutes} :
      f.imports.get? target = some file → files.get? file = some g → g.exportsRouter = true →
      Leads files f container target (file, .routers)
  | sameFile :
      f.imports.get? target = none → target ≠ container → target ∈ f.routers →
      Leads files f container target (f.path, .only target)

/-- A visit meets a mount of `site` under `base`. -/
inductive Mounts (files : Files) (v : Visit) (site : String × Scope) : String → Prop
  | intro {f : FileRoutes} {container path target : String} {targets : List String} :
      files.get? v.file = some f →
      Registered f v.scope container (.mount path targets) → target ∈ targets →
      Leads files f container target site →
      Mounts files v site (HttpPath.join v.base path)

/-- The files and scopes of a whole chain, the visit's own last. -/
def Visit.trail (v : Visit) : List (String × Scope) := v.chain ++ [v.site]

/-- The visit one mount further. -/
def Visit.next (v : Visit) (site : String × Scope) (base : String) : Visit :=
  ⟨site.1, base, site.2, v.trail⟩

@[simp] theorem Visit.trail_seed (file : String) (scope : Scope) :
    (Visit.seed file scope).trail = [(file, scope)] := rfl

@[simp] theorem Visit.trail_next (v : Visit) (site : String × Scope) (base : String) :
    (v.next site base).trail = v.trail ++ [site] := rfl

/-- A chain of mounts that starts at `/`, in the apps of a file that has one or in the routers of
a file that exports one, and never comes back to a file and scope it has passed.  A chain is told
by the visit it ends in, which keeps the files and scopes passed and the paths joined so far. -/
inductive MountChain (files : Files) : Visit → Prop
  | app {f : FileRoutes} :
      f ∈ files.values → f.hasApp = true → MountChain files (.seed f.path .apps)
  | router {f : FileRoutes} :
      f ∈ files.values → f.exportsRouter = true → MountChain files (.seed f.path .routers)
  | mount {v : Visit} {site : String × Scope} {base : String} :
      MountChain files v → Mounts files v site base → site ∉ v.trail →
      MountChain files (v.next site base)

/-- What is served where a chain ends: the route of every handler in scope, by the file itself
and by the file of every imported target, and the path of every mount, under the wildcard key, by
an imported target that is another file and exports no router. -/
inductive Serves (files : Files) (v : Visit) : Fact → Prop
  | own {f : FileRoutes} {container path : String} {method : HttpMethod}
      {targets : List String} :
      files.get? v.file = some f →
      Registered f v.scope container (.handler method path targets) →
      Serves files v ⟨HttpPath.join v.base path, method.key, f.path⟩
  | target {f : FileRoutes} {container path target source : String} {method : HttpMethod}
      {targets : List String} :
      files.get? v.file = some f →
      Registered f v.scope container (.handler method path targets) →
      target ∈ targets → f.imports.get? target = some source →
      Serves files v ⟨HttpPath.join v.base path, method.key, source⟩
  | middleware {f : FileRoutes} {container path target source : String}
      {targets : List String} :
      files.get? v.file = some f →
      Registered f v.scope container (.mount path targets) →
      target ∈ targets → f.imports.get? target = some source →
      (∀ g, files.get? source = some g → g.exportsRouter = false) → source ≠ f.path →
      Serves files v ⟨HttpPath.join v.base path, HttpMethod.wildcardKey, source⟩

/-! ## The pieces of the walk -/

theorem isRouterFile_eq_true {files : Files} {path : String} :
    isRouterFile files path = true ↔
      ∃ g, files.get? path = some g ∧ g.exportsRouter = true := by
  unfold isRouterFile
  cases files.get? path <;> simp

theorem isRouterFile_eq_false {files : Files} {path : String} :
    isRouterFile files path = false ↔
      ∀ g, files.get? path = some g → g.exportsRouter = false := by
  unfold isRouterFile
  cases files.get? path <;> simp

theorem mem_inScope_iff {f : FileRoutes} {scope : Scope} {container : String}
    {rs : List Registration} :
    (container, rs) ∈ inScope f scope ↔
      scope.covers f container = true ∧ f.containers.get? container = some rs := by
  unfold inScope
  rw [List.mem_filter, SortedMap.mem_toList_iff]
  exact and_comm

/-- What the containers in scope yield, registration by registration, is what registered ones
yield. -/
theorem mem_flatMap_inScope_iff {β : Type} {f : FileRoutes} {scope : Scope}
    (yields : String → Registration → List β) {x : β} :
    (x ∈ (inScope f scope).flatMap fun c => c.2.flatMap (yields c.1)) ↔
      ∃ container r, Registered f scope container r ∧ x ∈ yields container r := by
  simp only [List.mem_flatMap, Registered]
  constructor
  · rintro ⟨⟨container, rs⟩, hc, r, hr, hx⟩
    obtain ⟨hcov, hrs⟩ := mem_inScope_iff.mp hc
    exact ⟨container, r, ⟨hcov, rs, hrs, hr⟩, hx⟩
  · rintro ⟨container, r, ⟨hcov, rs, hrs, hr⟩, hx⟩
    exact ⟨(container, rs), mem_inScope_iff.mpr ⟨hcov, hrs⟩, r, hr, hx⟩

theorem mountSite?_eq_some_iff {files : Files} {f : FileRoutes} {container target : String}
    {site : String × Scope} :
    mountSite? files f container target = some site ↔ Leads files f container target site := by
  unfold mountSite?
  constructor
  · intro h
    split at h
    · rename_i file himp
      split at h
      · rename_i hr
        obtain ⟨g, hg, he⟩ := isRouterFile_eq_true.mp hr
        cases h
        exact .imported himp hg he
      · cases h
    · -- Only a name that is not imported can mean a router of the same file.
      rename_i himp
      split at h
      · rename_i hr
        cases h
        exact .sameFile himp hr.1 (SortedSet.contains_iff.mp hr.2)
      · cases h
  · intro h
    cases h with
    | imported himp hg he =>
      simp only [himp]
      exact if_pos (isRouterFile_eq_true.mpr ⟨_, hg, he⟩)
    | sameFile himp hne hr =>
      simp only [himp]
      exact if_pos ⟨hne, SortedSet.contains_iff.mpr hr⟩

theorem mem_registrationMounts_iff {files : Files} {f : FileRoutes} {base container : String}
    {r : Registration} {m : (String × Scope) × String} :
    m ∈ registrationMounts files f base container r ↔
      ∃ path targets target, r = .mount path targets ∧ target ∈ targets ∧
        Leads files f container target m.1 ∧ m.2 = HttpPath.join base path := by
  cases r with
  | handler method path targets => simp [registrationMounts]
  | mount path targets =>
    obtain ⟨site, b⟩ := m
    simp only [registrationMounts, List.mem_map, List.mem_filterMap, mountSite?_eq_some_iff]
    constructor
    · rintro ⟨site', ⟨target, ht, hl⟩, he⟩
      cases he
      exact ⟨path, targets, target, rfl, ht, hl, rfl⟩
    · rintro ⟨path', targets', target, he, ht, hl, hb⟩
      cases he
      exact ⟨site, ⟨target, ht, hl⟩, by rw [← hb]⟩

theorem mem_mounts_iff {files : Files} {v : Visit} {site : String × Scope} {base : String} :
    (site, base) ∈ v.mounts files ↔ Mounts files v site base := by
  unfold Visit.mounts
  constructor
  · intro h
    split at h
    · simp at h
    · rename_i f hf
      obtain ⟨container, r, hreg, hm⟩ :=
        (mem_flatMap_inScope_iff (registrationMounts files f v.base)).mp h
      obtain ⟨path, targets, target, rfl, ht, hl, hb⟩ := mem_registrationMounts_iff.mp hm
      subst hb
      exact .intro hf hreg ht hl
  · intro h
    cases h with
    | intro hf hreg ht hl =>
      rw [hf]
      exact (mem_flatMap_inScope_iff _).mpr
        ⟨_, _, hreg, mem_registrationMounts_iff.mpr ⟨_, _, _, rfl, ht, hl, rfl⟩⟩

theorem child?_eq_some_iff {v w : Visit} {site : String × Scope} {base : String} :
    v.child? site.1 base site.2 = some w ↔ site ∉ v.trail ∧ w = v.next site base := by
  unfold Visit.child? Visit.next Visit.trail
  by_cases h : site = v.site ∨ site ∈ v.chain
  · have hm : site ∈ v.chain ++ [v.site] := by simpa [or_comm] using h
    simp [h, hm]
  · have hm : site ∉ v.chain ++ [v.site] := by simpa [or_comm] using h
    simp only [h, hm, if_false, Option.some.injEq, not_false_eq_true, true_and]
    exact eq_comm

theorem mem_children_iff {files : Files} {v w : Visit} :
    w ∈ v.children files ↔
      ∃ site base, Mounts files v site base ∧ site ∉ v.trail ∧ w = v.next site base := by
  unfold Visit.children
  rw [List.mem_filterMap]
  constructor
  · rintro ⟨⟨site, base⟩, hm, hc⟩
    obtain ⟨hn, hw⟩ := child?_eq_some_iff.mp hc
    exact ⟨site, base, mem_mounts_iff.mp hm, hn, hw⟩
  · rintro ⟨site, base, hm, hn, hw⟩
    exact ⟨(site, base), mem_mounts_iff.mpr hm, child?_eq_some_iff.mpr ⟨hn, hw⟩⟩

/-- The chain of a child is longer than that of its visit. -/
theorem length_chain_of_mem_children {files : Files} {v w : Visit} (h : w ∈ v.children files) :
    v.chain.length < w.chain.length := by
  obtain ⟨site, base, _, _, rfl⟩ := mem_children_iff.mp h
  simp [Visit.next, Visit.trail]

theorem mem_seeds_iff {files : Files} {v : Visit} :
    v ∈ seeds files ↔
      (∃ f ∈ files.values, f.hasApp = true ∧ v = .seed f.path .apps) ∨
        ∃ f ∈ files.values, f.exportsRouter = true ∧ v = .seed f.path .routers := by
  simp only [seeds, List.mem_append, List.mem_map, List.mem_filter, and_assoc]
  simp only [eq_comm]

/-- Seeds are chains, and a child continues the chain of its visit. -/
theorem MountChain.of_mem_seeds {files : Files} {v : Visit} (h : v ∈ seeds files) :
    MountChain files v := by
  rcases mem_seeds_iff.mp h with ⟨f, hf, ha, rfl⟩ | ⟨f, hf, he, rfl⟩
  · exact .app hf ha
  · exact .router hf he

theorem MountChain.of_mem_children {files : Files} {v w : Visit} (hv : MountChain files v)
    (h : w ∈ v.children files) : MountChain files w := by
  obtain ⟨site, base, hm, hn, rfl⟩ := mem_children_iff.mp h
  exact .mount hv hm hn

/-! ## What a visit records -/

theorem mem_registrationFacts_handler {files : Files} {f : FileRoutes} {base path : String}
    {method : HttpMethod} {targets : List String} {x : Fact} :
    x ∈ registrationFacts files f base (.handler method path targets) ↔
      ∃ source, (source = f.path ∨ ∃ target ∈ targets, f.imports.get? target = some source) ∧
        x = ⟨HttpPath.join base path, method.key, source⟩ := by
  simp only [registrationFacts, List.mem_map, List.mem_cons, List.mem_filterMap]
  simp only [eq_comm (a := x)]

theorem mem_registrationFacts_mount {files : Files} {f : FileRoutes} {base path : String}
    {targets : List String} {x : Fact} :
    x ∈ registrationFacts files f base (.mount path targets) ↔
      ∃ source, (∃ target ∈ targets, f.imports.get? target = some source) ∧
        isRouterFile files source = false ∧ source ≠ f.path ∧
        x = ⟨HttpPath.join base path, HttpMethod.wildcardKey, source⟩ := by
  simp only [registrationFacts, List.mem_filterMap]
  constructor
  · rintro ⟨source, hs, h⟩
    split at h
    · cases h
    · rename_i hn
      simp only [Bool.or_eq_true, decide_eq_true_eq, not_or, Bool.not_eq_true] at hn
      exact ⟨source, hs, hn.1, hn.2, (Option.some.inj h).symm⟩
  · rintro ⟨source, hs, hr, hne, rfl⟩
    exact ⟨source, hs, by simp [hr, hne]⟩

theorem mem_facts_of_registered {files : Files} {v : Visit} {f : FileRoutes} {container : String}
    {r : Registration} {x : Fact} (hf : files.get? v.file = some f)
    (hreg : Registered f v.scope container r) (hx : x ∈ registrationFacts files f v.base r) :
    x ∈ v.facts files := by
  unfold Visit.facts
  rw [hf]
  exact (mem_flatMap_inScope_iff fun _ => registrationFacts files f v.base).mpr
    ⟨container, r, hreg, hx⟩

theorem mem_facts_iff {files : Files} {v : Visit} {x : Fact} :
    x ∈ v.facts files ↔ Serves files v x := by
  constructor
  · intro h
    unfold Visit.facts at h
    split at h
    · simp at h
    · rename_i f hf
      obtain ⟨container, r, hreg, hx⟩ :=
        (mem_flatMap_inScope_iff fun _ => registrationFacts files f v.base).mp h
      cases r with
      | handler method path targets =>
        obtain ⟨source, hs, rfl⟩ := mem_registrationFacts_handler.mp hx
        rcases hs with rfl | ⟨target, ht, hi⟩
        · exact .own hf hreg
        · exact .target hf hreg ht hi
      | mount path targets =>
        obtain ⟨source, ⟨target, ht, hi⟩, hr, hne, rfl⟩ := mem_registrationFacts_mount.mp hx
        exact .middleware hf hreg ht hi (isRouterFile_eq_false.mp hr) hne
  · intro h
    cases h with
    | own hf hreg =>
      exact mem_facts_of_registered hf hreg
        (mem_registrationFacts_handler.mpr ⟨_, .inl rfl, rfl⟩)
    | target hf hreg ht hi =>
      exact mem_facts_of_registered hf hreg
        (mem_registrationFacts_handler.mpr ⟨_, .inr ⟨_, ht, hi⟩, rfl⟩)
    | middleware hf hreg ht hi hr hne =>
      exact mem_facts_of_registered hf hreg (mem_registrationFacts_mount.mpr
        ⟨_, ⟨_, ht, hi⟩, isRouterFile_eq_false.mpr hr, hne, rfl⟩)

/-! ## A case to look at -/

/-- A file that exports one router, with the names it imports. -/
def routerFile (path : String) (imports : List (String × String)) (rs : List Registration) :
    FileRoutes where
  path := path
  imports := .ofList imports
  routers := .ofList ["router"]
  apps := ∅
  containers := .ofList [("router", rs)]
  exportsRouter := true

/-- Two routers that mount each other, and a caller that mounts one of them just as the other
does. -/
def mutualMounts (caller : String) : Files :=
  .ofList ([
    routerFile "/r/f.js" [("x", "/r/x.js")] [.mount "/b" ["x"]],
    routerFile "/r/x.js" [("f", "/r/f.js")] [.mount "/a" ["f"], .handler .get "/h" []],
    routerFile caller [("f", "/r/f.js")] [.mount "/a" ["f"]]].map fun f => (f.path, f))

end RouteAtlas.Traversal
