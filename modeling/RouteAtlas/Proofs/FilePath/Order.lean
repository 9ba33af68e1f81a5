import RouteAtlas.Proofs.FilePath.Steps

/-!
# The order of paths

Paths are compared step by step.  The comparison orders the spellings of paths up to their steps:
it takes two paths for equal exactly when their steps are (`compare_eq_eq_iff`).  So sorting puts
paths that lead along different steps in strict order (`pairwise_lt_sort`), and with repeats dropped
any paths (`listsOnce_dropRepeats_sort`).
-/

set_option autoImplicit false

namespace RouteAtlas.FilePath

open RouteAtlas.Text

/-! ## Steps -/

namespace Component

/-- Where a step stands in the order: its kind first, then the text of a name. -/
def standing : Component → Nat × String
  | top => (0, "")
  | here => (1, "")
  | up => (2, "")
  | name s => (3, s)

theorem compare_eq (a b : Component) :
    a.compare b = compareLex (compareOn Prod.fst) (compareOn Prod.snd) a.standing b.standing := by
  cases a <;> cases b <;> rfl

theorem standing_injective {a b : Component} (h : a.standing = b.standing) : a = b := by
  cases a <;> cases b <;> simp_all [standing]

instance : Std.TransCmp compare where
  eq_swap {a b} := by
    rw [compare_eq, compare_eq]
    exact Std.OrientedCmp.eq_swap
  isLE_trans {a b c} hab hbc := by
    rw [compare_eq] at hab hbc ⊢
    exact Std.TransCmp.isLE_trans hab hbc

instance : Std.LawfulEqCmp compare where
  compare_self {a} := by
    rw [compare_eq]
    exact Std.ReflCmp.compare_self
  eq_of_compare {a b} h := by
    rw [compare_eq, compareLex, Ordering.then_eq_eq] at h
    exact standing_injective
      (Prod.ext (Std.LawfulEqCmp.eq_of_compare h.1) (Std.LawfulEqCmp.eq_of_compare h.2))

end Component

/-! ## Paths -/

theorem compareComponents_eq (as bs : List Component) :
    compareComponents as bs = List.compareLex Component.compare as bs := by
  induction as generalizing bs with
  | nil => cases bs <;> rfl
  | cons a as ih =>
    cases bs with
    | nil => rfl
    | cons b bs => rw [compareComponents, ih, List.compareLex_cons_cons]

instance : Std.TransCmp compare where
  eq_swap {p q} := by
    rw [compare, compare, compareComponents_eq, compareComponents_eq]
    exact Std.OrientedCmp.eq_swap
  isLE_trans {p q r} hpq hqr := by
    rw [compare, compareComponents_eq] at hpq hqr ⊢
    exact Std.TransCmp.isLE_trans hpq hqr

/-- The order takes two spellings for equal exactly when they are spellings of one path. -/
theorem compare_eq_eq_iff {p q : FilePath} :
    p.compare q = .eq ↔ p.components = q.components := by
  rw [compare, compareComponents_eq]
  exact Std.LawfulEqCmp.compare_eq_iff_eq

theorem mem_sort {ps : List FilePath} {p : FilePath} : p ∈ sort ps ↔ p ∈ ps :=
  List.mem_mergeSort

theorem pairwise_sort (ps : List FilePath) :
    (sort ps).Pairwise fun p q => p.compare q ≠ .gt := by
  have hle : ∀ p q : FilePath, decide (p.compare q ≠ .gt) = (p.compare q).isLE := fun p q => by
    cases p.compare q <;> rfl
  have hsorted := @List.pairwise_mergeSort _ (fun p q : FilePath => p.compare q ≠ .gt)
    (fun p q r hpq hqr => by
      rw [hle] at hpq hqr ⊢
      exact Std.TransCmp.isLE_trans hpq hqr)
    (fun p q => by
      have hswap : q.compare p = (p.compare q).swap := Std.OrientedCmp.eq_swap
      rw [hle, hle, hswap]
      cases p.compare q <;> rfl) ps
  exact hsorted.imp of_decide_eq_true

/-- **Paths with different steps are sorted strictly**: in order, and none twice. -/
theorem pairwise_lt_sort {ps : List FilePath} (h : (ps.map components).Nodup) :
    (sort ps).Pairwise fun p q => p.compare q = .lt := by
  have hnodup : (sort ps).Pairwise fun p q => p.components ≠ q.components :=
    List.pairwise_map.mp (((List.mergeSort_perm ps _).map components).nodup_iff.mpr h)
  -- what is not greater and not equal is less
  refine ((pairwise_sort ps).and hnodup).imp fun {p q} ⟨hle, hne⟩ => ?_
  cases hpq : p.compare q with
  | lt => rfl
  | eq => exact absurd (compare_eq_eq_iff.mp hpq) hne
  | gt => exact absurd hpq hle

/-! ## Paths without repeats -/

/-- Whether a list holds the paths that are named, each once and in order, in one of the spellings
that they are named in. -/
structure ListsOnce (files : List FilePath) (Named : FilePath → Prop) : Prop where
  sorted : files.Pairwise fun p q => p.compare q = .lt
  named : ∀ p ∈ files, Named p
  listed : ∀ p, Named p → ∃ q ∈ files, q.same p = true

theorem ListsOnce.congr {files : List FilePath} {Named Named' : FilePath → Prop}
    (h : ListsOnce files Named) (heq : ∀ p, Named p ↔ Named' p) : ListsOnce files Named' where
  sorted := h.sorted
  named p hp := (heq p).mp (h.named p hp)
  listed p hp := h.listed p ((heq p).mpr hp)

theorem same_iff {p q : FilePath} : p.same q = true ↔ p.components = q.components :=
  decide_eq_true_iff

theorem mem_of_mem_dropRepeats {ps : List FilePath} {p : FilePath} (h : p ∈ dropRepeats ps) :
    p ∈ ps := by
  induction ps generalizing p with
  | nil => cases h
  | cons q ps ih =>
    rw [dropRepeats] at h
    cases hps : dropRepeats ps with
    | nil =>
      rw [hps] at h
      exact List.mem_cons.mpr (.inl (List.mem_singleton.mp h))
    | cons r rs =>
      simp only [hps] at h ih
      split at h
      · obtain rfl | h := List.mem_cons.mp h
        · exact List.mem_cons_self
        · exact List.mem_cons_of_mem q (ih (List.mem_cons_of_mem r h))
      · obtain rfl | h := List.mem_cons.mp h
        · exact List.mem_cons_self
        · exact List.mem_cons_of_mem q (ih h)

theorem exists_same_mem_dropRepeats {ps : List FilePath} {p : FilePath} (h : p ∈ ps) :
    ∃ q ∈ dropRepeats ps, q.same p = true := by
  induction ps with
  | nil => cases h
  | cons q ps ih =>
    rw [dropRepeats]
    cases hps : dropRepeats ps with
    | nil =>
      obtain rfl | h := List.mem_cons.mp h
      · exact ⟨p, List.mem_cons_self, same_iff.mpr rfl⟩
      · obtain ⟨r, hr, -⟩ := ih h
        simp [hps] at hr
    | cons r rs =>
      rw [hps] at ih
      by_cases hqr : q.same r = true
      · simp only [if_pos hqr]
        obtain rfl | h := List.mem_cons.mp h
        · exact ⟨p, List.mem_cons_self, same_iff.mpr rfl⟩
        · obtain ⟨s, hs, hsame⟩ := ih h
          obtain rfl | hs := List.mem_cons.mp hs
          -- the first of the rest gives way to another spelling of it
          · exact ⟨q, List.mem_cons_self,
              same_iff.mpr ((same_iff.mp hqr).trans (same_iff.mp hsame))⟩
          · exact ⟨s, List.mem_cons_of_mem q hs, hsame⟩
      · simp only [if_neg hqr]
        obtain rfl | h := List.mem_cons.mp h
        · exact ⟨p, List.mem_cons_self, same_iff.mpr rfl⟩
        · obtain ⟨s, hs, hsame⟩ := ih h
          exact ⟨s, List.mem_cons_of_mem q hs, hsame⟩

/-- Without repeats, what is in order is strictly in order. -/
theorem pairwise_lt_dropRepeats {ps : List FilePath}
    (h : ps.Pairwise fun p q => p.compare q ≠ .gt) :
    (dropRepeats ps).Pairwise fun p q => p.compare q = .lt := by
  induction ps with
  | nil => exact .nil
  | cons p ps ih =>
    obtain ⟨hp, hps⟩ := List.pairwise_cons.mp h
    have hrest := ih hps
    rw [dropRepeats]
    cases hr : dropRepeats ps with
    | nil => exact List.pairwise_singleton _ _
    | cons q qs =>
      rw [hr] at hrest
      obtain ⟨hq, hqs⟩ := List.pairwise_cons.mp hrest
      by_cases hpq : p.same q = true
      · simp only [if_pos hpq]
        refine List.pairwise_cons.mpr ⟨fun r hr => ?_, hqs⟩
        rw [compare, same_iff.mp hpq]
        exact hq r hr
      · simp only [if_neg hpq]
        have hlt : p.compare q = .lt := by
          have hmem : q ∈ ps := mem_of_mem_dropRepeats (hr ▸ List.mem_cons_self)
          cases hc : p.compare q with
          | lt => rfl
          | eq => exact absurd (same_iff.mpr (compare_eq_eq_iff.mp hc)) hpq
          | gt => exact absurd hc (hp q hmem)
        refine List.pairwise_cons.mpr ⟨fun r hr => ?_, hrest⟩
        obtain rfl | hr := List.mem_cons.mp hr
        · exact hlt
        · exact Std.TransCmp.lt_trans hlt (hq r hr)

/-- **Sorted and without repeats, paths are listed once.** -/
theorem listsOnce_dropRepeats_sort (ps : List FilePath) :
    ListsOnce (dropRepeats (sort ps)) (· ∈ ps) where
  sorted := pairwise_lt_dropRepeats (pairwise_sort ps)
  named _ hp := mem_sort.mp (mem_of_mem_dropRepeats hp)
  listed _ hp := exists_same_mem_dropRepeats (mem_sort.mpr hp)

end RouteAtlas.FilePath
