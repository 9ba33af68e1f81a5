import RouteAtlas.Proofs.HttpPath.Joining
import RouteAtlas.Proofs.Route.MountChain

/-!
# The base of a mount chain

Along a chain of mounts the base is joined from the left, one mount path after another.  Each join
reads its base as a path again, which is harmless because **canonical paths are a monoid under
joining** and lists of segments its image (`joins_in_any_grouping`): the base is what the mount
paths are joined to in any grouping.

A mount path that a blank ends once its slashes are dropped is outside of this, and there the
grouping does show.
-/

set_option autoImplicit false

namespace RouteAtlas.Traversal

open HttpPath

/-- The mount paths of a chain, as they are written, the first mount first. -/
inductive MountPaths (files : Files) : Visit → List String → Prop
  | seed {v : Visit} : v ∈ seeds files → MountPaths files v []
  | mount {v : Visit} {paths : List String} {f : FileRoutes} {container path target : String}
      {targets : List String} {site : String × Scope} :
      MountPaths files v paths → files.get? v.file = some f →
      Registered f v.scope container (.mount path targets) → target ∈ targets →
      Leads files f container target site → site ∉ v.trail →
      MountPaths files (v.next site (join v.base path)) (paths ++ [path])

/-- The chains with mount paths are the mount chains. -/
theorem mountChain_iff_exists_mountPaths {files : Files} {v : Visit} :
    MountChain files v ↔ ∃ paths, MountPaths files v paths := by
  constructor
  · intro h
    induction h with
    | app hf ha => exact ⟨[], .seed (mem_seeds_iff.mpr (.inl ⟨_, hf, ha, rfl⟩))⟩
    | router hf he => exact ⟨[], .seed (mem_seeds_iff.mpr (.inr ⟨_, hf, he, rfl⟩))⟩
    | mount _ hm hnew ih =>
      obtain ⟨paths, hpaths⟩ := ih
      cases hm with
      | intro hf hreg ht hl => exact ⟨_, .mount hpaths hf hreg ht hl hnew⟩
  · rintro ⟨paths, h⟩
    induction h with
    | seed hv => exact .of_mem_seeds hv
    | mount _ hf hreg ht hl hnew ih => exact .mount ih (.intro hf hreg ht hl) hnew

theorem base_of_mem_seeds {files : Files} {v : Visit} (h : v ∈ seeds files) : v.base = "/" := by
  rcases mem_seeds_iff.mp h with ⟨f, -, -, rfl⟩ | ⟨f, -, -, rfl⟩ <;> rfl

/-- The base of a chain is canonical and has the segments of its mount paths, one after another. -/
theorem MountPaths.segments_base {files : Files} {v : Visit} {paths : List String}
    (h : MountPaths files v paths) (hs : ∀ p ∈ paths, Settled p) :
    normalize v.base = v.base ∧ segments v.base = paths.flatMap segments := by
  induction h with
  | seed hv =>
    rw [base_of_mem_seeds hv]
    exact ⟨normalize_root, segments_root⟩
  | @mount v paths f container path target targets site _ _ _ _ _ _ ih =>
    obtain ⟨hbase, hsegments⟩ := ih fun p hp => hs p (List.mem_append_left _ hp)
    have hv : Settled v.base := settled_of_normalize_eq hbase
    have hpath : Settled path := hs path List.mem_concat_self
    refine ⟨normalize_join_of_settled hv hpath, ?_⟩
    show segments (join v.base path) = _
    rw [segments_join_of_settled hv hpath, hsegments, List.flatMap_append, List.flatMap_singleton]

/-- **Joining canonical paths is a monoid that segments respect.**  The paths that are their own
canonical form are closed under joining, which appends their segments, is associative and has the
root for its neutral element.  So it does not matter how the joins along a mount chain are grouped;
for that it is enough that the canonical form of each mount path is kept when it is read again, as
it is for those that are canonical themselves. -/
theorem joins_in_any_grouping :
    (∀ path, normalize path = path ↔ IsCanonical path ∧ ¬HasTrailingBlank path) ∧
      (∀ a b, normalize a = a → normalize b = b →
        normalize (join a b) = join a b ∧ segments (join a b) = segments a ++ segments b) ∧
      (∀ a b c, normalize a = a → normalize b = b → normalize c = c →
        join (join a b) c = join a (join b c)) ∧
      (normalize "/" = "/" ∧ ∀ a, normalize a = a → join "/" a = a ∧ join a "/" = a) ∧
      ∀ (files : Files) (v : Visit) (paths : List String), MountPaths files v paths →
        (∀ p ∈ paths, normalize (normalize p) = normalize p) →
        ∀ g : Grouping, g.paths = "/" :: paths → g.joined = v.base := by
  refine ⟨fun path => normalize_eq_self_iff, fun a b ha hb => ?_, fun a b c ha hb hc => ?_,
    ⟨normalize_root, fun a ha => ⟨(root_join a).trans ha, (join_root a).trans ha⟩⟩, ?_⟩
  · have ha' := settled_of_normalize_eq ha
    have hb' := settled_of_normalize_eq hb
    exact ⟨normalize_join_of_settled ha' hb', segments_join_of_settled ha' hb'⟩
  · exact join_assoc_of_settled (settled_of_normalize_eq ha) (settled_of_normalize_eq hb)
      (settled_of_normalize_eq hc)
  · intro files v paths hv hs g hg
    have hsettled : ∀ p ∈ g.paths, Settled p := by
      rw [hg]
      exact List.forall_mem_cons.mpr ⟨settled_of_normalize_eq normalize_root, hs⟩
    have hroot : g.paths.head? = some "/" := by
      rw [hg]
      rfl
    obtain ⟨hbase, hsegments⟩ := hv.segments_base hs
    have hjoined : normalize g.joined = g.joined :=
      Grouping.normalize_joined hsettled fun p hp => by
        rw [hroot] at hp
        exact Option.some.inj hp ▸ normalize_root
    rw [← hjoined, ← hbase, normalize_eq_iff, (g.segments_joined hsettled).2, hg,
      List.flatMap_cons, segments_root, List.nil_append, hsegments]

/-- Segments with a blank inside and one that looks like a scheme, and the chain of the caller in
`mutualMounts` with its two mount paths joined to each other first. -/
theorem joins_in_any_grouping_mutualMounts :
    join (join "/a b" "/http:/:id") "/*" = join "/a b" (join "/http:/:id" "/*") ∧
      join "/" (join "/a" "/b") = "/a/b" := by
  obtain ⟨-, -, hassoc, -, hgroup⟩ := joins_in_any_grouping
  refine ⟨hassoc _ _ _ (by decide +kernel) (by decide +kernel) (by decide +kernel), ?_⟩
  let files : Files := mutualMounts "/r/y.js"
  let f := routerFile "/r/f.js" [("x", "/r/x.js")] [.mount "/b" ["x"]]
  let y := routerFile "/r/y.js" [("f", "/r/f.js")] [.mount "/a" ["f"]]
  let caller : Visit := .seed "/r/y.js" .routers
  let shared : Visit := caller.next ("/r/f.js", .routers) (join "/" "/a")
  let last : Visit := shared.next ("/r/x.js", .routers) (join (join "/" "/a") "/b")
  have hyreg : Registered y .routers "router" (.mount "/a" ["f"]) :=
    ⟨by decide +kernel, _, rfl, List.mem_cons_self⟩
  have hfreg : Registered f .routers "router" (.mount "/b" ["x"]) :=
    ⟨by decide +kernel, _, rfl, List.mem_cons_self⟩
  have hylead : Leads files y "router" "f" ("/r/f.js", .routers) :=
    .imported rfl (show files.get? "/r/f.js" = some f from rfl) rfl
  have hflead : Leads files f "router" "x" ("/r/x.js", .routers) :=
    .imported rfl (show files.get? "/r/x.js" = some _ from rfl) rfl
  have hcaller : MountPaths files caller [] := .seed (by decide +kernel)
  have hshared : MountPaths files shared ["/a"] :=
    .mount hcaller rfl hyreg List.mem_cons_self hylead (by decide +kernel)
  have hlast : MountPaths files last ["/a", "/b"] :=
    .mount hshared rfl hfreg List.mem_cons_self hflead (by decide +kernel)
  have hbase : last.base = "/a/b" := by decide +kernel
  exact (hgroup files last _ hlast (by decide +kernel)
    (.pair (.path "/") (.pair (.path "/a") (.path "/b"))) rfl).trans hbase

/-- Where the slash behind a blank is dropped, the blank ends the base or stands inside of it. -/
example :
    join (join "/" "/a /") "/b" = "/a/b" ∧ join "/" (join "/a /" "/b") = "/a /b" := by
  decide +kernel

end RouteAtlas.Traversal
