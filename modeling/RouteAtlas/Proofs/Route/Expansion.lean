import Mathlib.Logic.Relation
import Mathlib.Order.WellFoundedSet
import RouteAtlas.Proofs.Route.ReadingOrder

/-!
# Expansion without memory

The plain way to read an application is to follow every mount wherever it leads: no queue, no record
of what was read before, no look at the chain that led here (`expand`).  On mounts that come back to
where they started that never ends, so the expansion is a function only where they do not, and takes
as its argument that going down ends (`Acyclic.wellFounded`).

There **the walk finds what the expansion finds**: both hold what is served at the ends of chains of
mounts (`mem_expansion_iff`, `mem_facts_visits_iff`).  The two rules by which the walk leaves a
visit unread are harmless for the same reason.  No mount leads back onto its own chain
(`Acyclic.not_mem_trail`), so no chain is cut off, and then a reading that was read has been read
with all that follows from it (`Acyclic.followed`).
-/

set_option autoImplicit false

namespace RouteAtlas.Traversal

/-! ## Mounts without a cycle -/

/-- A visit to the second file and scope meets a mount of the first, under whatever base. -/
def MountedBy (files : Files) (site' site : String × Scope) : Prop :=
  ∃ v base, v.site = site ∧ Mounts files v site' base

/-- No file and scope is reached again from itself. -/
def Acyclic (files : Files) : Prop := ∀ site, ¬Relation.TransGen (MountedBy files) site site

theorem Mounts.mountedBy {files : Files} {v : Visit} {site : String × Scope} {base : String}
    (h : Mounts files v site base) : MountedBy files site v.site :=
  ⟨v, base, rfl, h⟩

theorem MountedBy.mem_places {files : Files} {site site' : String × Scope}
    (h : MountedBy files site' site) : site' ∈ places files := by
  obtain ⟨v, base, -, hm⟩ := h
  exact hm.mem_places

/-- Files are acyclic if they can be ranked so that each mounts lower ones only. -/
theorem acyclic_of_rank {files : Files} (rank : String → Nat)
    (hrank : ∀ e ∈ files.toList, ∀ c ∈ e.2.containers.toList, ∀ r ∈ c.2,
      ∀ m ∈ registrationMounts files e.2 "/" c.1 r, rank m.1.1 < rank e.1) : Acyclic files := by
  have hstep : ∀ site' site, MountedBy files site' site → rank site'.1 < rank site.1 := by
    rintro site' site ⟨v, base, rfl, hm⟩
    cases hm with
    | @intro f container path target targets hf hreg ht hl =>
      obtain ⟨-, rs, hrs, hr⟩ := hreg
      exact hrank (v.file, f) (SortedMap.mem_toList_iff.mpr hf) (container, rs)
        (SortedMap.mem_toList_iff.mpr hrs) _ hr (site', HttpPath.join "/" path)
        (mem_registrationMounts_iff.mpr ⟨path, targets, target, rfl, ht, hl, rfl⟩)
  have hdown : ∀ site' site, Relation.TransGen (MountedBy files) site' site →
      rank site'.1 < rank site.1 := by
    intro site' site h
    induction h with
    | single h => exact hstep _ _ h
    | tail _ h ih => exact Nat.lt_trans ih (hstep _ _ h)
  exact fun site hcycle => Nat.lt_irrefl _ (hdown site site hcycle)

/-- There are finitely many places to be mounted, so without a cycle going down ends. -/
theorem Acyclic.wellFounded {files : Files} (h : Acyclic files) :
    WellFounded (MountedBy files) := by
  have hstrict : IsStrictOrder (String × Scope) (Relation.TransGen (MountedBy files)) :=
    { irrefl := h, trans := fun _ _ _ => Relation.TransGen.trans }
  have hplaces : ∀ site ∈ (places files).toFinset, Acc (MountedBy files) site := by
    intro site hsite
    have hfinite : Set.WellFoundedOn ((places files).toFinset : Set (String × Scope))
        (Relation.TransGen (MountedBy files)) := Finset.wellFoundedOn _
    refine hfinite.induction hsite fun s _ ih => .intro s fun s' hs' => ?_
    exact ih s' (List.mem_toFinset.mpr hs'.mem_places) (.single hs')
  exact ⟨fun site => .intro site fun s hs => hplaces s (List.mem_toFinset.mpr hs.mem_places)⟩

/-! ## The expansion -/

/-- What is served at a file and scope under a base, and then what each of its mounts leads to, one
after the other. -/
def expand (files : Files) (wf : WellFounded (MountedBy files)) (site : String × Scope)
    (base : String) : List Fact :=
  (Visit.mk site.1 base site.2 []).facts files ++
    ((Visit.mk site.1 base site.2 []).mounts files).attach.flatMap fun m =>
      expand files wf m.1.1 m.1.2
termination_by wf.wrap site
decreasing_by exact (mem_mounts_iff.mp m.2).mountedBy

/-- All seeds expanded. -/
def expansion (files : Files) (wf : WellFounded (MountedBy files)) : List Fact :=
  (seeds files).flatMap fun v => expand files wf v.site v.base

/-- What a visit expands to does not depend on the chain that led to it. -/
theorem mem_expand_iff {files : Files} {wf : WellFounded (MountedBy files)} {v : Visit} {x : Fact} :
    x ∈ expand files wf v.site v.base ↔
      Serves files v x ∨ ∃ site base, Mounts files v site base ∧ x ∈ expand files wf site base := by
  have hreading : (Visit.mk v.site.1 v.base v.site.2 []).reading = v.reading := rfl
  rw [expand, List.mem_append, facts_congr hreading, mem_facts_iff, List.mem_flatMap]
  refine or_congr_right ⟨?_, ?_⟩
  · rintro ⟨⟨⟨site, base⟩, hm⟩, -, hx⟩
    rw [mounts_congr hreading, mem_mounts_iff] at hm
    exact ⟨site, base, hm, hx⟩
  · rintro ⟨site, base, hm, hx⟩
    rw [← mem_mounts_iff, ← mounts_congr hreading] at hm
    exact ⟨⟨(site, base), hm⟩, List.mem_attach _ _, hx⟩

/-! ## No mount leads back -/

/-- Whatever a chain passed leads to where it ends. -/
theorem MountChain.reflTransGen {files : Files} {v : Visit} (h : MountChain files v) :
    ∀ site ∈ v.trail, Relation.ReflTransGen (MountedBy files) v.site site := by
  induction h with
  | app | router => exact fun site hs => List.mem_singleton.mp hs ▸ .refl
  | @mount v site' base _ hm _ ih =>
    intro site hs
    rw [Visit.trail_next] at hs
    rcases List.mem_append.mp hs with hs | hs
    · exact (ih site hs).head hm.mountedBy
    · exact List.mem_singleton.mp hs ▸ .refl

theorem Acyclic.not_mem_trail {files : Files} (ha : Acyclic files) {v : Visit}
    (hv : MountChain files v) {site : String × Scope} {base : String}
    (hm : Mounts files v site base) : site ∉ v.trail := fun hs =>
  ha site (.head' hm.mountedBy (hv.reflTransGen site hs))

/-- Every chain is followed: no reading is cut short, whichever chain reached it first. -/
theorem Acyclic.followed {files : Files} (ha : Acyclic files) {order : List Visit}
    (horder : ∀ u ∈ order, MountChain files u) {v : Visit} (hv : MountChain files v) :
    Followed files order v := by
  induction hv with
  | app hf hp => exact .seed (mem_seeds_iff.mpr (.inl ⟨_, hf, hp, rfl⟩))
  | router hf hp => exact .seed (mem_seeds_iff.mpr (.inr ⟨_, hf, hp, rfl⟩))
  | mount hv hm hn ih =>
    refine .mount ih hm hn fun u hu hr => ?_
    rw [← mem_mounts_iff, ← mounts_congr hr, mem_mounts_iff] at hm
    exact ha.not_mem_trail (horder u hu) hm

/-! ## What both find -/

/-- What an expansion finds below the end of a chain is served at the end of a chain. -/
theorem Acyclic.exists_served_of_mem_expand {files : Files} (ha : Acyclic files)
    {wf : WellFounded (MountedBy files)} {x : Fact} (site : String × Scope) :
    ∀ v, MountChain files v → v.site = site → x ∈ expand files wf v.site v.base →
      ∃ w, MountChain files w ∧ Serves files w x := by
  induction site using wf.induction with
  | _ site ih =>
    rintro v hv rfl hx
    rcases mem_expand_iff.mp hx with hs | ⟨site, base, hm, hx⟩
    · exact ⟨v, hv, hs⟩
    · exact ih site hm.mountedBy (v.next site base) (.mount hv hm (ha.not_mem_trail hv hm)) rfl hx

/-- Whatever the end of a chain expands to is found by expanding the seeds. -/
theorem MountChain.expand_subset {files : Files} {wf : WellFounded (MountedBy files)} {v : Visit}
    (h : MountChain files v) : expand files wf v.site v.base ⊆ expansion files wf := by
  induction h with
  | app hf hp =>
    exact fun x hx => List.mem_flatMap.mpr ⟨_, mem_seeds_iff.mpr (.inl ⟨_, hf, hp, rfl⟩), hx⟩
  | router hf hp =>
    exact fun x hx => List.mem_flatMap.mpr ⟨_, mem_seeds_iff.mpr (.inr ⟨_, hf, hp, rfl⟩), hx⟩
  | mount _ hm _ ih => exact fun x hx => ih (mem_expand_iff.mpr (.inr ⟨_, _, hm, hx⟩))

/-- **The expansion of acyclic files holds what is served at the ends of chains of mounts.** -/
theorem Acyclic.mem_expansion_iff {files : Files} (ha : Acyclic files)
    {wf : WellFounded (MountedBy files)} {x : Fact} :
    x ∈ expansion files wf ↔ ∃ v, MountChain files v ∧ Serves files v x := by
  constructor
  · intro hx
    obtain ⟨v, hv, hx⟩ := List.mem_flatMap.mp hx
    exact ha.exists_served_of_mem_expand v.site v (.of_mem_seeds hv) rfl hx
  · rintro ⟨v, hv, hs⟩
    exact hv.expand_subset (mem_expand_iff.mpr (.inl hs))

/-- **The walk over acyclic files reads every chain of mounts to its end.** -/
theorem Acyclic.mem_facts_visits_iff {files : Files} (ha : Acyclic files) (hk : KeyedByPath files)
    {x : Fact} :
    x ∈ (visits files).flatMap (·.facts files) ↔ ∃ v, MountChain files v ∧ Serves files v x := by
  simp only [List.mem_flatMap, mem_facts_iff]
  constructor
  · rintro ⟨v, hv, hs⟩
    exact ⟨v, mountChain_of_mem_visits hv, hs⟩
  · rintro ⟨v, hv, hs⟩
    have hfollowed : Followed files (visits files) v :=
      ha.followed (fun u => mountChain_of_mem_visits) hv
    obtain ⟨u, hu, hr⟩ := (readingOrder_visits hk).exists_mem_of_followed hfollowed
    rw [← mem_facts_iff, ← facts_congr hr, mem_facts_iff] at hs
    exact ⟨u, hu, hs⟩

/-- The route graph of acyclic files is that of any list with the facts of their chains. -/
theorem Acyclic.routeGraph_eq_recordAll {files : Files} (ha : Acyclic files)
    (hk : KeyedByPath files) {xs : List Fact}
    (hxs : ∀ x, x ∈ xs ↔ ∃ v, MountChain files v ∧ Serves files v x) :
    routeGraph files = RouteGraph.empty.recordAll xs := by
  rw [Traversal.routeGraph_eq_recordAll]
  exact RouteGraph.recordAll_congr fun x => (ha.mem_facts_visits_iff hk).trans (hxs x).symm

end RouteAtlas.Traversal
