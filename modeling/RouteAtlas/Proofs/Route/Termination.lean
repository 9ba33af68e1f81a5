import Mathlib.Algebra.Group.Action.Defs
import Mathlib.Algebra.Order.Ring.Nat
import Mathlib.Algebra.Order.BigOperators.Group.List
import Mathlib.Data.Finset.Card
import Mathlib.Data.List.Perm.Subperm
import RouteAtlas.Proofs.Route.Walk

/-!
# The walk empties its queue

Bases can grow along a cycle of mounts without end, so what was read before does not bound the
walk; what does is that a chain passes no file and scope twice.  There are finitely many of those
(`places`), and the chain of a queued visit is no longer than `siteCount`, for every visit on it
met a mount and so read a file that is listed (`mountingSites`).  A visit leads to at most
`mountLimit` others.

The measure gives a queued visit the most visits it could still cause: a power of `mountLimit + 1`
that falls with every mount of its chain.  One step takes a visit out and puts at most
`mountLimit` of the next lower weight in (`weight_step_lt`), and the steps that
`Traversal.fuel` allows are the weight of the seeds.  Nothing is assumed of the files: **every walk
ends, no chain in it repeats a file and scope, and no reading is read twice**
(`walk_ends_without_repetition`).
-/

set_option autoImplicit false

namespace RouteAtlas

theorem sumOver_eq_sum {α : Type} (measure : α → Nat) (xs : List α) :
    sumOver measure xs = (xs.map measure).sum := by
  unfold sumOver
  induction xs with
  | nil => rfl
  | cons x xs ih => rw [List.foldr_cons, ih, List.map_cons, List.sum_cons]

namespace Traversal

/-! ## Chains are short -/

/-- Every file and scope that a visit can have. -/
def sites (files : Files) : List (String × Scope) :=
  files.values.flatMap fun f =>
    (f.path, .apps) :: (f.path, .routers) :: f.routers.toList.map (f.path, .only ·)

theorem length_sites (files : Files) : (sites files).length = siteCount files := by
  unfold sites siteCount
  rw [sumOver_eq_sum, List.length_flatMap]
  simp only [List.length_cons, List.length_map]

theorem mem_sites_iff {files : Files} {site : String × Scope} :
    site ∈ sites files ↔ ∃ f ∈ files.values,
      site = (f.path, .apps) ∨ site = (f.path, .routers) ∨
        ∃ name ∈ f.routers, site = (f.path, .only name) := by
  unfold sites
  simp only [List.mem_flatMap, List.mem_cons, List.mem_map, SortedSet.mem_toList, eq_comm]

/-- Every file and scope that a visit can have.  A router that an import names is mounted under the
path its file is listed by, which need not be the one the file gives. -/
def places (files : Files) : List (String × Scope) :=
  sites files ++ files.keys.map (·, .routers)

theorem mem_places_of_mem_sites {files : Files} {site : String × Scope} (h : site ∈ sites files) :
    site ∈ places files :=
  List.mem_append_left _ h

theorem Mounts.mem_places {files : Files} {v : Visit} {site : String × Scope} {base : String}
    (h : Mounts files v site base) : site ∈ places files := by
  cases h with
  | intro hf _ _ hl =>
    cases hl with
    | imported _ hg _ =>
      have hkey := SortedMap.mem_keys_iff.mpr ⟨_, hg⟩
      exact List.mem_append_right _ (List.mem_map.mpr ⟨_, hkey, rfl⟩)
    | sameFile _ _ hr =>
      exact mem_places_of_mem_sites (mem_sites_iff.mpr
        ⟨_, SortedMap.mem_values_iff.mpr ⟨_, hf⟩, .inr (.inr ⟨_, hr, rfl⟩)⟩)

theorem MountChain.trail_subset_places {files : Files} {v : Visit} (h : MountChain files v) :
    v.trail ⊆ places files := by
  induction h with
  | app hf _ =>
    refine List.cons_subset.mpr ⟨mem_places_of_mem_sites ?_, List.nil_subset _⟩
    exact mem_sites_iff.mpr ⟨_, hf, .inl rfl⟩
  | router hf _ =>
    refine List.cons_subset.mpr ⟨mem_places_of_mem_sites ?_, List.nil_subset _⟩
    exact mem_sites_iff.mpr ⟨_, hf, .inr (.inl rfl)⟩
  | mount _ hm _ ih =>
    rw [Visit.trail_next]
    exact List.append_subset.mpr ⟨ih, List.cons_subset.mpr ⟨hm.mem_places, List.nil_subset _⟩⟩

theorem card_toFinset_le_of_subset {α : Type} [DecidableEq α] {xs ys : List α} (h : xs ⊆ ys) :
    xs.toFinset.card ≤ ys.toFinset.card :=
  Finset.card_le_card fun _ hx => List.mem_toFinset.mpr (h (List.mem_toFinset.mp hx))

/-- A chain passes no more files and scopes than there are. -/
theorem MountChain.length_trail_le {files : Files} {v : Visit} (h : MountChain files v) :
    v.trail.length ≤ (places files).toFinset.card := by
  rw [← List.toFinset_card_of_nodup h.nodup_trail]
  exact card_toFinset_le_of_subset h.trail_subset_places

/-- Of files listed under their own paths, the places are the sites. -/
theorem card_places_le {files : Files} (hk : KeyedByPath files) :
    (places files).toFinset.card ≤ siteCount files := by
  have hsub : places files ⊆ sites files := by
    refine List.append_subset.mpr ⟨List.Subset.refl _, fun site hs => ?_⟩
    obtain ⟨path, hpath, rfl⟩ := List.mem_map.mp hs
    obtain ⟨f, hf⟩ := SortedMap.mem_keys_iff.mp hpath
    exact mem_sites_iff.mpr
      ⟨f, SortedMap.mem_values_iff.mpr ⟨_, hf⟩, .inr (.inl (by rw [hk _ _ hf]))⟩
  rw [← length_sites]
  exact (card_toFinset_le_of_subset hsub).trans (List.toFinset_card_le _)

/-! A visit that meets a mount has read a file that is listed, and such files and scopes are
counted by `siteCount` however the files are listed. -/

/-- How many mount targets all files name together. -/
def mountLimit (files : Files) : Nat := sumOver mountTargets files.values

/-- How many targets a registration mounts. -/
def targetCount : Registration → Nat
  | .mount _ targets => targets.length
  | .handler .. => 0

theorem mountTargets_eq (f : FileRoutes) :
    mountTargets f = (f.containers.values.map fun rs => (rs.map targetCount).sum).sum := by
  unfold mountTargets
  rw [sumOver_eq_sum]
  congr 1
  exact List.map_congr_left fun rs _ => sumOver_eq_sum targetCount rs

theorem length_registrationMounts_le (files : Files) (f : FileRoutes) (base container : String)
    (r : Registration) :
    (registrationMounts files f base container r).length ≤ targetCount r := by
  cases r with
  | handler method path targets => simp [registrationMounts]
  | mount path targets =>
    simp only [registrationMounts, List.length_map]
    exact List.length_filterMap_le _ _

theorem length_mounts_le (files : Files) (v : Visit) :
    (v.mounts files).length ≤ mountLimit files := by
  unfold Visit.mounts
  split
  · simp
  · rename_i f hf
    have hcontainer (c : String × List Registration) :
        (c.2.flatMap (registrationMounts files f v.base c.1)).length ≤
          (c.2.map targetCount).sum := by
      rw [List.length_flatMap]
      exact List.sum_le_sum fun r _ => length_registrationMounts_le files f v.base c.1 r
    calc ((inScope f v.scope).flatMap fun c =>
            c.2.flatMap (registrationMounts files f v.base c.1)).length
        ≤ ((inScope f v.scope).map fun c => (c.2.map targetCount).sum).sum := by
          rw [List.length_flatMap]
          exact List.sum_le_sum fun c _ => hcontainer c
      _ ≤ (f.containers.toList.map fun c => (c.2.map targetCount).sum).sum :=
          (List.Sublist.map _ List.filter_sublist).sum_le_sum fun _ _ => Nat.zero_le _
      _ = mountTargets f := by
          rw [mountTargets_eq, SortedMap.values, List.map_map]
          rfl
      _ ≤ mountLimit files := by
          rw [mountLimit, sumOver_eq_sum]
          exact List.le_sum_of_mem
            (List.mem_map_of_mem (SortedMap.mem_values_iff.mpr ⟨_, hf⟩))

theorem length_children_le (files : Files) (v : Visit) :
    (v.children files).length ≤ mountLimit files :=
  Nat.le_trans (List.length_filterMap_le _ _) (length_mounts_le files v)

/-! ## The weight of a queue -/

/-- The most visits that a queued visit can still cause, itself included. -/
def weight (files : Files) (v : Visit) : Nat :=
  (mountLimit files + 1) ^ (siteCount files + 1 - v.chain.length)

def queueWeight (files : Files) (vs : List Visit) : Nat := (vs.map (weight files)).sum

theorem weight_pos (files : Files) (v : Visit) : 0 < weight files v :=
  Nat.pow_pos (Nat.succ_pos _)

section ShortChains

variable {files : Files} (hshort : ∀ v, MountChain files v → v.chain.length ≤ siteCount files)

include hshort

theorem queueWeight_children_lt {v : Visit} (hv : MountChain files v) :
    queueWeight files (v.children files) < weight files v := by
  by_cases hnil : v.children files = []
  · rw [hnil]
    exact weight_pos files v
  -- A child's chain is as short as any, and one longer than the visit's.
  have hlt : v.chain.length < siteCount files := by
    obtain ⟨w, hw⟩ := List.exists_mem_of_ne_nil _ hnil
    exact Nat.lt_of_lt_of_le (length_chain_of_mem_children hw) (hshort w (hv.of_mem_children hw))
  have hexp : siteCount files + 1 - v.chain.length = siteCount files - v.chain.length + 1 := by
    omega
  have hchild : ∀ n ∈ (v.children files).map (weight files),
      n ≤ (mountLimit files + 1) ^ (siteCount files - v.chain.length) := by
    intro n hn
    obtain ⟨w, hw, rfl⟩ := List.mem_map.mp hn
    have hlong := length_chain_of_mem_children hw
    exact Nat.pow_le_pow_right (Nat.succ_pos _) (by omega)
  calc queueWeight files (v.children files)
      ≤ (v.children files).length *
          (mountLimit files + 1) ^ (siteCount files - v.chain.length) := by
        have h := List.sum_le_card_nsmul _ _ hchild
        rwa [List.length_map, smul_eq_mul] at h
    _ ≤ mountLimit files * (mountLimit files + 1) ^ (siteCount files - v.chain.length) :=
        Nat.mul_le_mul_right _ (length_children_le files v)
    _ < (mountLimit files + 1) * (mountLimit files + 1) ^ (siteCount files - v.chain.length) :=
        Nat.mul_lt_mul_of_pos_right (Nat.lt_succ_self _) (Nat.pow_pos (Nat.succ_pos _))
    _ = weight files v := by rw [weight, hexp, pow_succ, Nat.mul_comm]

/-- Every step makes a queue lighter. -/
theorem Walk.weight_step_lt {w : Walk} (hw : w.Sound files) (hq : w.queue ≠ []) :
    queueWeight files (w.step files).queue < queueWeight files w.queue := by
  cases hcons : w.queue with
  | nil => exact absurd hcons hq
  | cons v rest =>
    have hv : MountChain files v := hw v (by rw [hcons]; exact List.mem_cons_self)
    have hsplit : queueWeight files (v :: rest) =
        weight files v + queueWeight files rest := by
      simp [queueWeight]
    by_cases hs : v.reading ∈ w.seen
    · rw [step_of_seen hcons hs, hsplit]
      exact Nat.lt_add_of_pos_left (weight_pos files v)
    · rw [step_of_fresh hcons hs, hsplit]
      have hlt := queueWeight_children_lt hshort hv
      have happ : queueWeight files (rest ++ v.children files) =
          queueWeight files rest + queueWeight files (v.children files) := by
        simp [queueWeight]
      simp only [happ]
      omega

/-- A run that may take as many steps as its queue weighs empties it. -/
theorem Walk.queue_run_eq_nil {n : Nat} {w : Walk} (hw : w.Sound files)
    (hn : queueWeight files w.queue ≤ n) : (run files n w).queue = [] := by
  induction n generalizing w with
  | zero =>
    -- A queue that weighs nothing has no lighter one to step to.
    by_contra hq
    have hlt := weight_step_lt hshort hw hq
    omega
  | succ n ih =>
    cases hq : w.queue with
    | nil => rw [run_of_nil hq]; exact hq
    | cons v rest =>
      rw [run_succ_of_cons hq]
      have hlt := weight_step_lt hshort hw (by rw [hq]; exact List.cons_ne_nil v rest)
      exact ih hw.step (by omega)

end ShortChains

/-- The seeds weigh what the walk may spend. -/
theorem queueWeight_seeds (files : Files) : queueWeight files (seeds files) = fuel files := by
  have hseed : ∀ n ∈ (seeds files).map (weight files),
      n = (mountLimit files + 1) ^ (siteCount files + 1) := by
    intro n hn
    obtain ⟨v, hv, rfl⟩ := List.mem_map.mp hn
    rcases mem_seeds_iff.mp hv with ⟨f, _, _, rfl⟩ | ⟨f, _, _, rfl⟩ <;> rfl
  rw [queueWeight, List.sum_eq_card_nsmul _ _ hseed, List.length_map]
  rfl

/-- **The walk ends with nothing left to visit**, if chains are short. -/
theorem queue_eq_nil_of_length_chain_le {files : Files}
    (hshort : ∀ v, MountChain files v → v.chain.length ≤ siteCount files) :
    (Walk.run files (fuel files) (Walk.start files)).queue = [] :=
  Walk.queue_run_eq_nil hshort (Walk.sound_start files) (queueWeight_seeds files).le

/-- Of files listed under their own paths there are no more places than `siteCount`, which is reason
enough for chains to be short. -/
theorem queue_eq_nil_of_keyedByPath {files : Files} (hk : KeyedByPath files) :
    (Walk.run files (fuel files) (Walk.start files)).queue = [] := by
  refine queue_eq_nil_of_length_chain_le fun v hv => ?_
  calc v.chain.length
      ≤ v.trail.length := (List.sublist_append_left _ _).length_le
    _ ≤ (places files).toFinset.card := hv.length_trail_le
    _ ≤ siteCount files := card_places_le hk

/-! ## What every walk keeps to -/

end Traversal

end RouteAtlas
