import Mathlib.Data.Multiset.Basic
import RouteAtlas.Proofs.Route.Expansion

/-!
# The order of registrations does not matter

A file lists what is registered on a container in source order, and a registration its targets.  The
walk reads both in that order, but a route graph is a set of facts, and where mounts have no cycle
it holds every fact that any chain of mounts leads to.  So **for acyclic files the graph is what
plain expansion makes it, in any order of recording, and the order in the files cannot be seen in
it** (`routeGraph_eq_recordAll_expansion`).

What is left of a file when order is forgotten is `FileRoutes.unordered`.  Everything the relations
of `Proofs/Route/MountChain` ask of a file can be asked of that, so files that agree in it have the
same mounts, chains and facts.  With a cycle none of this holds: which of two chains arrives first
can then decide what is recorded (`order_of_names_loses_a_route`).
-/

set_option autoImplicit false

namespace RouteAtlas

/-! ## Forgetting the order -/

/-- A registration with its targets in no order; mounts have no method. -/
def Registration.unordered : Registration → Option HttpMethod × String × Multiset String
  | .mount path targets => (none, path, targets)
  | .handler method path targets => (some method, path, targets)

theorem Registration.unordered_eq_mount_iff {r : Registration} {path : String}
    {targets : List String} :
    r.unordered = (Registration.mount path targets).unordered ↔
      ∃ targets', r = .mount path targets' ∧ targets'.Perm targets := by
  cases r <;> simp [unordered, Multiset.coe_eq_coe]

theorem Registration.unordered_eq_handler_iff {r : Registration} {method : HttpMethod}
    {path : String} {targets : List String} :
    r.unordered = (Registration.handler method path targets).unordered ↔
      ∃ targets', r = .handler method path targets' ∧ targets'.Perm targets := by
  cases r <;> simp [unordered, Multiset.coe_eq_coe, and_assoc]

/-- Registrations in no order. -/
def Registration.unorderedAll (rs : List Registration) :
    Multiset (Option HttpMethod × String × Multiset String) :=
  rs.map unordered

/-- The facts of a file, the registrations on each container in no order. -/
structure UnorderedRoutes where
  path : String
  imports : SortedMap String
  routers : SortedSet
  apps : SortedSet
  containers : List (String × Multiset (Option HttpMethod × String × Multiset String))
  exportsRouter : Bool

-- A derived instance would carry its answer along an equation of multisets, where evaluation ends.
instance : DecidableEq UnorderedRoutes := fun u u' =>
  decidable_of_iff
    (u.path = u'.path ∧ u.imports = u'.imports ∧ u.routers = u'.routers ∧ u.apps = u'.apps ∧
      u.containers = u'.containers ∧ u.exportsRouter = u'.exportsRouter)
    (by cases u; cases u'; simp)

def FileRoutes.unordered (f : FileRoutes) : UnorderedRoutes where
  path := f.path
  imports := f.imports
  routers := f.routers
  apps := f.apps
  containers := f.containers.toList.map fun c => (c.1, Registration.unorderedAll c.2)
  exportsRouter := f.exportsRouter

/-- A lookup among changed values finds the changed value. -/
theorem lookup_map_snd {β γ : Type} (k : String) (g : β → γ) (es : List (String × β)) :
    (es.map fun e => (e.1, g e.2)).lookup k = (es.lookup k).map g := by
  induction es with
  | nil => rfl
  | cons e es ih =>
    rw [List.map_cons, lookup_cons_eq_ite, ih, lookup_cons_eq_ite]
    split <;> rfl

namespace Traversal

/-- The same files, but for the order of the registrations on each container and of the targets of
each registration. -/
def Rearranged (files files' : Files) : Prop :=
  (files.toList.map fun e => (e.1, e.2.unordered)) =
    files'.toList.map fun e => (e.1, e.2.unordered)

instance (files files' : Files) : Decidable (Rearranged files files') :=
  inferInstanceAs (Decidable (_ = _))

theorem Rearranged.symm {files files' : Files} (h : Rearranged files files') :
    Rearranged files' files := Eq.symm h

theorem Rearranged.exists_get? {files files' : Files} (h : Rearranged files files') {path : String}
    {f : FileRoutes} (hf : files.get? path = some f) :
    ∃ f', files'.get? path = some f' ∧ f'.unordered = f.unordered := by
  have hmap : (files'.get? path).map FileRoutes.unordered =
      (files.get? path).map FileRoutes.unordered := by
    have hlookup := congrArg (List.lookup path) h.symm
    rwa [lookup_map_snd, lookup_map_snd] at hlookup
  rw [hf] at hmap
  exact Option.map_eq_some_iff.mp hmap

/-! ## What does not change -/

section SameFile

variable {f f' : FileRoutes} (h : f'.unordered = f.unordered)

include h

theorem path_eq_of_unordered_eq : f'.path = f.path := congrArg UnorderedRoutes.path h

theorem imports_eq_of_unordered_eq : f'.imports = f.imports := congrArg UnorderedRoutes.imports h

theorem map_containers_of_unordered_eq (name : String) :
    (f'.containers.get? name).map Registration.unorderedAll =
      (f.containers.get? name).map Registration.unorderedAll := by
  have hlookup := congrArg (fun u => u.containers.lookup name) h
  simp only [FileRoutes.unordered] at hlookup
  rwa [lookup_map_snd, lookup_map_snd] at hlookup

theorem covers_eq_of_unordered_eq (scope : Scope) (name : String) :
    scope.covers f' name = scope.covers f name := by
  have hrouters : f'.routers = f.routers := congrArg UnorderedRoutes.routers h
  have happs : f'.apps = f.apps := congrArg UnorderedRoutes.apps h
  cases scope <;> simp only [Scope.covers, hrouters, happs]

theorem hasApp_eq_of_unordered_eq : f'.hasApp = f.hasApp := by
  have happs : f'.apps = f.apps := congrArg UnorderedRoutes.apps h
  have hcontains : f'.containers.contains = f.containers.contains := by
    funext name
    have hmap := congrArg Option.isSome (map_containers_of_unordered_eq h name)
    rwa [Option.isSome_map, Option.isSome_map] at hmap
  rw [FileRoutes.hasApp, FileRoutes.hasApp, happs, hcontains]

/-- Whatever is registered is registered still, perhaps with its targets in another order. -/
theorem Registered.of_unordered_eq {scope : Scope} {container : String} {r : Registration}
    (hreg : Registered f scope container r) :
    ∃ r', r'.unordered = r.unordered ∧ Registered f' scope container r' := by
  obtain ⟨hcov, rs, hrs, hr⟩ := hreg
  have hmap := map_containers_of_unordered_eq h container
  rw [hrs] at hmap
  obtain ⟨rs', hrs', heq⟩ := Option.map_eq_some_iff.mp hmap
  have hr' : r.unordered ∈ rs'.map Registration.unordered :=
    (Multiset.coe_eq_coe.mp heq).mem_iff.mpr (List.mem_map_of_mem hr)
  obtain ⟨r', hr', hrr⟩ := List.mem_map.mp hr'
  exact ⟨r', hrr, by rwa [covers_eq_of_unordered_eq h], rs', hrs', hr'⟩

end SameFile

namespace Rearranged

variable {files files' : Files} (h : Rearranged files files')

include h

theorem exportsRouter {path : String} {f : FileRoutes} (hf : files.get? path = some f)
    (he : f.exportsRouter = true) : ∃ f', files'.get? path = some f' ∧ f'.exportsRouter = true := by
  obtain ⟨f', hf', hu⟩ := h.exists_get? hf
  exact ⟨f', hf', (congrArg UnorderedRoutes.exportsRouter hu).trans he⟩

theorem leads {f f' : FileRoutes} (hu : f'.unordered = f.unordered) {container target : String}
    {site : String × Scope} (hl : Leads files f container target site) :
    Leads files' f' container target site := by
  cases hl with
  | imported hi hg he =>
    obtain ⟨g', hg', he'⟩ := h.exportsRouter hg he
    exact .imported (by rwa [imports_eq_of_unordered_eq hu]) hg' he'
  | sameFile hi hne hr =>
    rw [← path_eq_of_unordered_eq hu]
    have hrouters : f'.routers = f.routers := congrArg UnorderedRoutes.routers hu
    exact .sameFile (by rwa [imports_eq_of_unordered_eq hu]) hne (hrouters ▸ hr)

theorem mounts {v : Visit} {site : String × Scope} {base : String}
    (hm : Mounts files v site base) : Mounts files' v site base := by
  cases hm with
  | intro hf hreg ht hl =>
    obtain ⟨f', hf', hu⟩ := h.exists_get? hf
    obtain ⟨r', hr', hreg'⟩ := hreg.of_unordered_eq hu
    obtain ⟨targets', rfl, hperm⟩ := Registration.unordered_eq_mount_iff.mp hr'
    exact .intro hf' hreg' (hperm.mem_iff.mpr ht) (h.leads hu hl)

theorem mem_values {f : FileRoutes} (hf : f ∈ files.values) :
    ∃ f' ∈ files'.values, f'.unordered = f.unordered := by
  obtain ⟨path, hf⟩ := SortedMap.mem_values_iff.mp hf
  obtain ⟨f', hf', hu⟩ := h.exists_get? hf
  exact ⟨f', SortedMap.mem_values_iff.mpr ⟨path, hf'⟩, hu⟩

theorem mountChain {v : Visit} (hv : MountChain files v) : MountChain files' v := by
  induction hv with
  | app hf ha =>
    obtain ⟨f', hf', hu⟩ := h.mem_values hf
    rw [← path_eq_of_unordered_eq hu]
    exact .app hf' ((hasApp_eq_of_unordered_eq hu).trans ha)
  | router hf he =>
    obtain ⟨f', hf', hu⟩ := h.mem_values hf
    rw [← path_eq_of_unordered_eq hu]
    exact .router hf' ((congrArg UnorderedRoutes.exportsRouter hu).trans he)
  | mount _ hm hn ih => exact .mount ih (h.mounts hm) hn

theorem serves {v : Visit} {x : Fact} (hs : Serves files v x) : Serves files' v x := by
  cases hs with
  | own hf hreg =>
    obtain ⟨f', hf', hu⟩ := h.exists_get? hf
    obtain ⟨r', hr', hreg'⟩ := hreg.of_unordered_eq hu
    obtain ⟨targets', rfl, -⟩ := Registration.unordered_eq_handler_iff.mp hr'
    rw [← path_eq_of_unordered_eq hu]
    exact .own hf' hreg'
  | target hf hreg ht hi =>
    obtain ⟨f', hf', hu⟩ := h.exists_get? hf
    obtain ⟨r', hr', hreg'⟩ := hreg.of_unordered_eq hu
    obtain ⟨targets', rfl, hperm⟩ := Registration.unordered_eq_handler_iff.mp hr'
    exact .target hf' hreg' (hperm.mem_iff.mpr ht) (by rwa [imports_eq_of_unordered_eq hu])
  | middleware hf hreg ht hi hr hne =>
    obtain ⟨f', hf', hu⟩ := h.exists_get? hf
    obtain ⟨r', hr', hreg'⟩ := hreg.of_unordered_eq hu
    obtain ⟨targets', rfl, hperm⟩ := Registration.unordered_eq_mount_iff.mp hr'
    refine .middleware hf' hreg' (hperm.mem_iff.mpr ht) (by rwa [imports_eq_of_unordered_eq hu]) ?_
      (by rwa [path_eq_of_unordered_eq hu])
    -- Here the other direction is needed: a router file there is one here.
    intro g' hg'
    obtain ⟨g, hg, hu'⟩ := h.symm.exists_get? hg'
    exact (congrArg UnorderedRoutes.exportsRouter hu').symm.trans (hr g hg)

theorem keyedByPath (hk : KeyedByPath files) : KeyedByPath files' := by
  intro path f' hf'
  obtain ⟨f, hf, hu⟩ := h.symm.exists_get? hf'
  exact (path_eq_of_unordered_eq hu).symm.trans (hk path f hf)

theorem acyclic (ha : Acyclic files) : Acyclic files' := by
  have hmounted : ∀ site' site, MountedBy files' site' site → MountedBy files site' site := by
    rintro site' site ⟨v, base, hv, hm⟩
    exact ⟨v, base, hv, h.symm.mounts hm⟩
  exact fun site hcycle => ha site (Relation.TransGen.mono hmounted site site hcycle)

end Rearranged

/-! ## The graph of acyclic files -/

/-- **The walk over acyclic files is plain expansion, in any order**: its graph is what recording
the expansion of the seeds gives, one fact after another in whatever order, and it stays what it is
however the registrations on a container and the targets of a registration are rearranged. -/
theorem routeGraph_eq_recordAll_expansion {files : Files} (hk : KeyedByPath files)
    (ha : Acyclic files) :
    (∀ xs, xs.Perm (expansion files ha.wellFounded) →
      routeGraph files = RouteGraph.empty.recordAll xs) ∧
    ∀ files', Rearranged files files' → routeGraph files' = routeGraph files := by
  constructor
  · intro xs hxs
    exact ha.routeGraph_eq_recordAll hk fun x => hxs.mem_iff.trans ha.mem_expansion_iff
  · intro files' h
    have hsame : ∀ x, (∃ v, MountChain files v ∧ Serves files v x) ↔
        ∃ v, MountChain files' v ∧ Serves files' v x := fun x =>
      ⟨fun ⟨v, hv, hs⟩ => ⟨v, h.mountChain hv, h.serves hs⟩,
        fun ⟨v, hv, hs⟩ => ⟨v, h.symm.mountChain hv, h.symm.serves hs⟩⟩
    calc routeGraph files'
        = RouteGraph.empty.recordAll (expansion files ha.wellFounded) :=
          (h.acyclic ha).routeGraph_eq_recordAll (h.keyedByPath hk) fun x =>
            ha.mem_expansion_iff.trans (hsame x)
      _ = routeGraph files := (ha.routeGraph_eq_recordAll hk fun x => ha.mem_expansion_iff).symm

/-- A router that is mounted three times, twice under one base. -/
def sharedRouter (rs : List Registration) : Files :=
  .ofList ([
    routerFile "/r/all.js" [("users", "/r/users.js"), ("admin", "/r/admin.js")] rs,
    routerFile "/r/admin.js" [("users", "/r/users.js")]
      [.mount "/" ["users"], .handler .get "/log" []],
    routerFile "/r/users.js" [] [.handler .get "/users" []]].map fun f => (f.path, f))

theorem acyclic_sharedRouter :
    Acyclic (sharedRouter [.mount "/v1" ["users", "admin"], .mount "/v2" ["users"]]) :=
  acyclic_of_rank
    (fun path => if path = "/r/all.js" then 2 else if path = "/r/admin.js" then 1 else 0)
    (by decide +kernel)

theorem routeGraph_eq_recordAll_expansion_sharedRouter :
    KeyedByPath (sharedRouter [.mount "/v1" ["users", "admin"], .mount "/v2" ["users"]]) ∧
      routeGraph (sharedRouter [.mount "/v1" ["users", "admin"], .mount "/v2" ["users"]]) =
        RouteGraph.empty.recordAll (expansion _ acyclic_sharedRouter.wellFounded) ∧
      routeGraph (sharedRouter [.mount "/v2" ["users"], .mount "/v1" ["admin", "users"]]) =
        routeGraph (sharedRouter [.mount "/v1" ["users", "admin"], .mount "/v2" ["users"]]) := by
  have hk : KeyedByPath
      (sharedRouter [.mount "/v1" ["users", "admin"], .mount "/v2" ["users"]]) := by decide +kernel
  obtain ⟨hexpansion, hrearranged⟩ := routeGraph_eq_recordAll_expansion hk acyclic_sharedRouter
  exact ⟨hk, hexpansion _ (.refl _), hrearranged _ (by decide +kernel)⟩

end Traversal

end RouteAtlas
