import Mathlib.Data.List.Basic
import Mathlib.Order.Bounds.Defs
import RouteAtlas.Proofs.FilePath.Steps

/-!
# Resolving `.` and `..` by text

A normal form says where a path leads and nothing else, so a path can be resolved before it is
joined or after that (`normalize_join`).  What is left of the steps is told without walking them:
each `..` removes the nearest name before it that is still there, or nothing when no name is
(`Removes`, `removes_iff`), and **the names that nothing removes are those of the normal form**
(`normalize_compositional`).
-/

set_option autoImplicit false

namespace RouteAtlas.FilePath

open RouteAtlas.Text Location

/-! ## Which name a `..` removes -/

/-- Whether the name at `i` is still there after the first `j` steps: it is from when it is taken
until a `..` finds it the nearest. -/
def Stands (cs : List Component) : Nat → Nat → Prop
  | 0, _ => False
  | j + 1, i =>
    (i = j ∧ ∃ s, cs[j]? = some (.name s)) ∨
      (Stands cs j i ∧ ¬(cs[j]? = some .up ∧ IsGreatest {k | Stands cs j k} i))

/-- The `..` at `j` removes the name at `i`. -/
def Removes (cs : List Component) (j i : Nat) : Prop :=
  cs[j]? = some .up ∧ IsGreatest {k | Stands cs j k} i

theorem lt_of_stands {cs : List Component} {j i : Nat} (h : Stands cs j i) : i < j := by
  induction j with
  | zero => cases h
  | succ j ih =>
    rcases h with ⟨rfl, -⟩ | ⟨h, -⟩
    · exact Nat.lt_succ_self i
    · exact Nat.lt_succ_of_lt (ih h)

/-- What stands is what was taken and not removed. -/
theorem stands_iff {cs : List Component} {j i : Nat} :
    Stands cs j i ↔
      i < j ∧ (∃ s, cs[i]? = some (.name s)) ∧ ∀ j' < j, ¬Removes cs j' i := by
  induction j with
  | zero => exact iff_of_false id fun h => Nat.not_lt_zero i h.1
  | succ j ih =>
    constructor
    · rintro (⟨rfl, hname⟩ | ⟨h, hkept⟩)
      · refine ⟨Nat.lt_succ_self i, hname, fun j' hj' hremoved => ?_⟩
        exact absurd (lt_of_stands hremoved.2.1) (Nat.not_lt.mpr (Nat.le_of_lt_succ hj'))
      · obtain ⟨hlt, hname, hbefore⟩ := ih.mp h
        refine ⟨Nat.lt_succ_of_lt hlt, hname, fun j' hj' => ?_⟩
        rcases Nat.lt_succ_iff_lt_or_eq.mp hj' with hj' | rfl
        · exact hbefore j' hj'
        · exact hkept
    · rintro ⟨hlt, hname, hkept⟩
      rcases Nat.lt_succ_iff_lt_or_eq.mp hlt with hlt | rfl
      · exact .inr ⟨ih.mpr ⟨hlt, hname, fun j' hj' => hkept j' (Nat.lt_succ_of_lt hj')⟩,
          hkept j (Nat.lt_succ_self j)⟩
      · exact .inl ⟨rfl, hname⟩

/-- **A `..` removes the nearest name before it that no `..` before it has removed.** -/
theorem removes_iff {cs : List Component} {j i : Nat} :
    Removes cs j i ↔
      cs[j]? = some .up ∧
        IsGreatest {k | k < j ∧ (∃ s, cs[k]? = some (.name s)) ∧ ∀ j' < j, ¬Removes cs j' k} i := by
  have hstanding : {k | Stands cs j k} =
      {k | k < j ∧ (∃ s, cs[k]? = some (.name s)) ∧ ∀ j' < j, ¬Removes cs j' k} :=
    Set.ext fun k => stands_iff
  rw [← hstanding]
  rfl

/-! ## What is left -/

/-- The positions whose names stand after the first `j` steps, in order. -/
structure ListsStanding (cs : List Component) (j : Nat) (ks : List Nat) : Prop where
  increasing : ks.Pairwise (· < ·)
  mem_iff : ∀ k, k ∈ ks ↔ Stands cs j k

namespace ListsStanding

variable {cs : List Component} {i j : Nat} {ks : List Nat}

/-- Any step but a name and a `..` leaves what stands as it is. -/
theorem idle (h : ListsStanding cs j ks) (hname : ∀ s, cs[j]? ≠ some (.name s))
    (hup : cs[j]? ≠ some .up) : ListsStanding cs (j + 1) ks := by
  refine ⟨h.increasing, fun k => (h.mem_iff k).trans ⟨fun hk => .inr ⟨hk, fun h' => hup h'.1⟩, ?_⟩⟩
  rintro (⟨-, s, hs⟩ | ⟨hk, -⟩)
  · exact absurd hs (hname s)
  · exact hk

theorem concat (h : ListsStanding cs j ks) {s : String} (hname : cs[j]? = some (.name s)) :
    ListsStanding cs (j + 1) (ks ++ [j]) := by
  constructor
  · refine List.pairwise_append.mpr ⟨h.increasing, List.pairwise_singleton _ _, ?_⟩
    intro k hk j' hj'
    rw [List.mem_singleton.mp hj']
    exact lt_of_stands ((h.mem_iff k).mp hk)
  · intro k
    rw [List.mem_append, List.mem_singleton, h.mem_iff]
    constructor
    · rintro (hk | rfl)
      · exact .inr ⟨hk, fun h' => by simp [hname] at h'⟩
      · exact .inl ⟨rfl, s, hname⟩
    · rintro (⟨rfl, -⟩ | ⟨hk, -⟩)
      · exact .inr rfl
      · exact .inl hk

/-- The last of the positions is the greatest, so it is the one that a `..` removes. -/
theorem removes (h : ListsStanding cs j (ks ++ [i])) (hup : cs[j]? = some .up) :
    Removes cs j i := by
  refine ⟨hup, (h.mem_iff i).mp List.mem_concat_self, fun k hk => ?_⟩
  rcases List.mem_append.mp ((h.mem_iff k).mpr hk) with hk | hk
  · exact Nat.le_of_lt ((List.pairwise_append.mp h.increasing).2.2 k hk i List.mem_cons_self)
  · exact Nat.le_of_eq (List.mem_singleton.mp hk)

theorem dropLast (h : ListsStanding cs j ks) (hup : cs[j]? = some .up) :
    ListsStanding cs (j + 1) ks.dropLast := by
  have hname (s : String) : cs[j]? ≠ some (.name s) := by simp [hup]
  rcases List.eq_nil_or_concat' ks with rfl | ⟨front, i, rfl⟩
  · refine ⟨.nil, fun k => iff_of_false List.not_mem_nil ?_⟩
    rintro (⟨-, s, hs⟩ | ⟨hk, -⟩)
    · exact hname s hs
    · exact List.not_mem_nil ((h.mem_iff k).mpr hk)
  · obtain ⟨hfront, -, hlt⟩ := List.pairwise_append.mp h.increasing
    have hremoves := h.removes hup
    rw [List.dropLast_concat]
    refine ⟨hfront, fun k => ⟨fun hk => ?_, ?_⟩⟩
    · refine .inr ⟨(h.mem_iff k).mp (List.mem_append_left _ hk), fun h' => ?_⟩
      exact Nat.not_lt.mpr (h'.2.2 hremoves.2.1) (hlt k hk i List.mem_cons_self)
    · rintro (⟨-, s, hs⟩ | ⟨hk, hkept⟩)
      · exact absurd hs (hname s)
      · refine (List.mem_append.mp ((h.mem_iff k).mpr hk)).resolve_right fun hi => ?_
        rw [List.mem_singleton.mp hi] at hkept
        exact hkept hremoves

/-- Every position that stands is that of a name. -/
theorem filterMap_dropLast (h : ListsStanding cs j ks) :
    ks.dropLast.filterMap (cs[·]?) = (ks.filterMap (cs[·]?)).dropLast := by
  rcases List.eq_nil_or_concat' ks with rfl | ⟨front, i, rfl⟩
  · rfl
  · obtain ⟨s, hs⟩ := (stands_iff.mp ((h.mem_iff i).mp List.mem_concat_self)).2.1
    rw [List.dropLast_concat, List.filterMap_append, List.filterMap_cons_some hs,
      List.filterMap_nil, List.dropLast_concat]

end ListsStanding

/-- After each step the names of the location are those that stand, in order. -/
theorem exists_listsStanding {cs : List Component} (htop : ∀ j, cs[j]? = some .top → j = 0)
    (j : Nat) :
    ∃ ks, ListsStanding cs j ks ∧
      (ofComponents (cs.take j)).names.map .name = ks.filterMap (cs[·]?) := by
  induction j with
  | zero => exact ⟨[], ⟨.nil, fun k => iff_of_false List.not_mem_nil id⟩, rfl⟩
  | succ j ih =>
    obtain ⟨ks, hks, hnames⟩ := ih
    rw [List.take_add_one]
    cases hc : cs[j]? with
    | none =>
      refine ⟨ks, hks.idle (by simp [hc]) (by simp [hc]), ?_⟩
      rwa [Option.toList_none, List.append_nil]
    | some c =>
      have hstep : ofComponents (cs.take j ++ (some c).toList) =
          (ofComponents (cs.take j)).step c := List.foldl_append
      rw [hstep]
      cases c with
      | top =>
        refine ⟨ks, hks.idle (by simp [hc]) (by simp [hc]), ?_⟩
        obtain rfl := htop j hc
        exact hnames
      | here => exact ⟨ks, hks.idle (by simp [hc]) (by simp [hc]), hnames⟩
      | up =>
        refine ⟨ks.dropLast, hks.dropLast hc, ?_⟩
        rw [hks.filterMap_dropLast, ← hnames, ← List.map_dropLast]
        rfl
      | name s =>
        refine ⟨ks ++ [j], hks.concat hc, ?_⟩
        rw [List.filterMap_append, List.filterMap_cons_some hc, ← hnames]
        exact List.map_append

/-! ## Normal forms -/

/-- Only the first step of a path can be the top. -/
theorem eq_zero_of_top {p : FilePath} {j : Nat} (h : p.components[j]? = some .top) : j = 0 := by
  have hlead : p.lead.length ≤ 1 := by
    unfold lead
    split
    · exact Nat.le_refl 1
    · split <;> decide
  have hstep : ¬p.lead.length ≤ j := by
    intro hle
    rw [components_eq, List.getElem?_append_right hle] at h
    obtain ⟨q, -, hq⟩ := List.mem_filterMap.mp (List.mem_of_getElem? h)
    exact stepOfPiece_ne_top q hq
  omega

theorem absolute_location (p : FilePath) : p.location.absolute = p.isAbsolute := by
  have hkeep : ∀ (cs : List Component) (l : Location), .top ∉ cs →
      (cs.foldl step l).absolute = l.absolute := by
    intro cs
    induction cs with
    | nil => exact fun _ _ => rfl
    | cons c cs ih =>
      intro l hcs
      rw [List.foldl_cons, ih _ fun h => hcs (List.mem_cons_of_mem c h)]
      cases c with
      | top => exact absurd List.mem_cons_self hcs
      | here | up | name => rfl
  rw [location_eq, hkeep]
  intro htop
  obtain ⟨q, -, hq⟩ := List.mem_filterMap.mp htop
  exact stepOfPiece_ne_top q hq

theorem isAbsolute_normalize (p : FilePath) : p.normalize.isAbsolute = p.isAbsolute :=
  (isAbsolute_toPath (isProper_location p)).trans (absolute_location p)

theorem location_normalize (p : FilePath) : p.normalize.location = p.location :=
  location_toPath (isProper_location p)

theorem normalize_normalize (p : FilePath) : p.normalize.normalize = p.normalize :=
  congrArg toPath (location_normalize p)

/-- A path may be resolved before something is joined to it. -/
theorem normalize_join (a : FilePath) (q : String) :
    (a.join q).normalize = (a.normalize.join q).normalize := by
  by_cases hq : q.toList.head? = some '/'
  · rw [join, join, if_pos hq, if_pos hq]
  · refine congrArg toPath ?_
    rw [location_join a hq, location_join a.normalize hq, location_normalize]

theorem components_normalize (p : FilePath) :
    p.normalize.components =
      (if p.isAbsolute then [.top] else []) ++ p.location.names.map .name := by
  rw [normalize, components_toPath (isProper_location p), absolute_location]

/-- **Resolving a path by text** can be done before or after something is joined to it, and again
without effect.  The result has no `.` and no `..`, starts at the top exactly if the path does, and
has the names of the path that no `..` removes.  Each `..` removes the nearest name before it that
is still there; where there is none, as at the top, it removes nothing. -/
theorem normalize_compositional :
    (∀ (a : FilePath) (q : String), (a.join q).normalize = (a.normalize.join q).normalize) ∧
      (∀ p : FilePath, p.normalize.normalize = p.normalize) ∧
      (∀ p : FilePath, .here ∉ p.normalize.components ∧ .up ∉ p.normalize.components) ∧
      (∀ p : FilePath, p.normalize.isAbsolute = p.isAbsolute) ∧
      ∀ p : FilePath,
        (∀ j i, Removes p.components j i ↔ p.components[j]? = some .up ∧
          IsGreatest {k | k < j ∧ (∃ s, p.components[k]? = some (.name s)) ∧
            ∀ j' < j, ¬Removes p.components j' k} i) ∧
        ∃ ks : List Nat, ks.Pairwise (· < ·) ∧
          (∀ k, k ∈ ks ↔ (∃ s, p.components[k]? = some (.name s)) ∧
            ∀ j, ¬Removes p.components j k) ∧
          p.normalize.components =
            (if p.isAbsolute then [.top] else []) ++ ks.filterMap (p.components[·]?) := by
  refine ⟨normalize_join, normalize_normalize, fun p => ?_, isAbsolute_normalize,
    fun p => ⟨fun j i => removes_iff, ?_⟩⟩
  · rw [components_normalize]
    cases p.isAbsolute <;> simp
  · obtain ⟨ks, hks, hnames⟩ :=
      exists_listsStanding (fun _ => eq_zero_of_top (p := p)) p.components.length
    rw [List.take_length] at hnames
    refine ⟨ks, hks.increasing, fun k => ?_, by rw [components_normalize, location, hnames]⟩
    rw [hks.mem_iff, stands_iff]
    constructor
    · rintro ⟨-, hname, hkept⟩
      refine ⟨hname, fun j hj => hkept j ?_ hj⟩
      exact (List.getElem?_eq_some_iff.mp hj.1).1
    · rintro ⟨⟨s, hs⟩, hkept⟩
      exact ⟨(List.getElem?_eq_some_iff.mp hs).1, ⟨s, hs⟩, fun j _ => hkept j⟩

/-- The third `..` finds no name that is still there. -/
example : ((FilePath.mk "/a/b").join "../.././../c/d/..").normalize = ⟨"/c"⟩ := by
  decide +kernel

end RouteAtlas.FilePath
