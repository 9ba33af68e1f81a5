import Mathlib.Data.List.Nodup
import RouteAtlas.Alias.Tsconfig
import RouteAtlas.Proofs.Text

/-!
# The order in which mapped paths are tried

A specifier can match several keys of `paths`, and unlike a table of aliases all of them are tried:
the targets of the longest key first, each in the order in which it was declared, then those of
shorter keys, and the base directory last.  The first that probing finds is the answer
(`Tsconfig.resolve_eq_first_found`).

The order of the keys is told without a sorting function: it puts longer keys first, and at any one
length it has the keys that were declared, in that order (`Ranks`).  There is one such order, and
where no two keys that match have the same length it hangs on the keys alone.
-/

set_option autoImplicit false

namespace RouteAtlas.Alias

/-! ## Ranking -/

section

variable {α : Type} {size : α → Nat} {declared ranked : List α}

/-- Whether a list ranks another by size: larger ones first, those of one size as they were. -/
structure Ranks (size : α → Nat) (declared ranked : List α) : Prop where
  decreasing : ranked.Pairwise fun a b => size b ≤ size a
  stable : ∀ n, (ranked.filter fun a => size a = n) = declared.filter fun a => size a = n

/-- Two decreasing lists with the same members at every size are the same. -/
theorem eq_of_filter_size_eq {l l' : List α} (h : l.Pairwise fun a b => size b ≤ size a)
    (h' : l'.Pairwise fun a b => size b ≤ size a)
    (hsame : ∀ n, (l.filter fun a => size a = n) = l'.filter fun a => size a = n) : l = l' := by
  induction l generalizing l' with
  | nil =>
    refine (List.eq_nil_iff_forall_not_mem.mpr fun a ha => ?_).symm
    simpa [ha] using congrArg (a ∈ ·) (hsame (size a))
  | cons a l ih =>
    have hmem (b : α) : b ∈ a :: l ↔ b ∈ l' := by
      simpa using congrArg (b ∈ ·) (hsame (size b))
    cases l' with
    | nil => simpa using hmem a
    | cons b l' =>
      rw [List.pairwise_cons] at h h'
      -- the first of either list is the largest of both
      have hsize : size a = size b := by
        refine Nat.le_antisymm ?_ ?_
        · rcases List.mem_cons.mp ((hmem a).mp List.mem_cons_self) with rfl | ha
          · exact Nat.le_refl _
          · exact h'.1 a ha
        · rcases List.mem_cons.mp ((hmem b).mpr List.mem_cons_self) with rfl | hb
          · exact Nat.le_refl _
          · exact h.1 b hb
      have hfirst := hsame (size a)
      simp only [List.filter_cons, hsize, decide_true, if_true] at hfirst
      obtain ⟨rfl, -⟩ := List.cons.inj hfirst
      refine congrArg (a :: ·) (ih h.2 h'.2 fun n => ?_)
      by_cases hn : size a = n
      · simpa [List.filter_cons, hn] using hsame n
      · simpa [List.filter_cons, hn] using hsame n

theorem Ranks.unique {ranked' : List α} (h : Ranks size declared ranked)
    (h' : Ranks size declared ranked') : ranked = ranked' :=
  eq_of_filter_size_eq h.decreasing h'.decreasing fun n => (h.stable n).trans (h'.stable n).symm

/-- Sorting ranks, since it is stable. -/
theorem ranks_mergeSort (size : α → Nat) (declared : List α) :
    Ranks size declared (declared.mergeSort fun a b => size b ≤ size a) := by
  have htrans (a b c : α) : decide (size b ≤ size a) = true → decide (size c ≤ size b) = true →
      decide (size c ≤ size a) = true := by
    simpa using fun hab hbc => Nat.le_trans hbc hab
  have htotal (a b : α) : (decide (size b ≤ size a) || decide (size a ≤ size b)) = true := by
    simpa using Nat.le_total (size b) (size a)
  refine ⟨by simpa using List.pairwise_mergeSort htrans htotal declared, fun n => ?_⟩
  -- those of one size are sorted as they are, so they are found again in their order
  have hequal : (declared.filter fun a => size a = n).Pairwise fun a b =>
      decide (size b ≤ size a) = true := by
    refine List.pairwise_of_forall_mem_list fun a ha b hb => ?_
    simp only [List.mem_filter, decide_eq_true_eq] at ha hb ⊢
    omega
  have hsub := (List.sublist_mergeSort htrans htotal hequal List.filter_sublist).filter
    fun a => decide (size a = n)
  rw [List.filter_filter] at hsub
  have hperm := (List.mergeSort_perm declared fun a b => size b ≤ size a).filter
    fun a => decide (size a = n)
  simp only [Bool.and_self] at hsub
  exact (hsub.eq_of_length hperm.length_eq.symm).symm

/-- Where no two sizes are equal it does not matter in which order things are declared. -/
theorem Ranks.of_perm {declared' : List α} (h : Ranks size declared ranked)
    (hperm : declared'.Perm declared) (hnodup : (declared.map size).Nodup) :
    Ranks size declared' ranked := by
  refine ⟨h.decreasing, fun n => (h.stable n).trans ?_⟩
  have hdistinct : declared.Pairwise fun a b => size a ≠ size b := List.pairwise_map.mp hnodup
  have hdistinct' : declared'.Pairwise fun a b => size a ≠ size b :=
    List.pairwise_map.mp ((hperm.map size).nodup_iff.mpr hnodup)
  refine (hperm.symm.filter _).eq_of_pairwise (fun a b ha hb hne _ => ?_) (hdistinct.filter _)
    (hdistinct'.filter _)
  simp only [List.mem_filter, decide_eq_true_eq] at ha hb
  exact absurd (ha.2.trans hb.2.symm) hne

end

namespace Tsconfig

/-! ## Keys that match -/

/-- Whether a key matches a specifier, with a star that stands for a text.  A key without a star
matches itself; only the first star counts. -/
def Captures (key specifier captured : List Char) : Prop :=
  (∃ start tail, key = start ++ '*' :: tail ∧ '*' ∉ start ∧
    specifier = start ++ captured ++ tail) ∨
  '*' ∉ key ∧ specifier = key ∧ captured = []

theorem captured?_star_eq_some_iff {start tail specifier captured : List Char} (h : '*' ∉ start) :
    captured? (start ++ '*' :: tail) specifier = some captured ↔
      specifier = start ++ captured ++ tail := by
  have hcaptured : captured? (start ++ '*' :: tail) specifier =
      (start.isPrefixOf? specifier).bind fun rest =>
        (tail.reverse.isPrefixOf? rest.reverse).map List.reverse := by
    simp only [captured?, Text.breakAt_append_cons h]
  rw [hcaptured]
  constructor
  · intro hsome
    obtain ⟨rest, hrest, htail⟩ := Option.bind_eq_some_iff.mp hsome
    obtain ⟨r, hr, rfl⟩ := Option.map_eq_some_iff.mp htail
    rw [List.isPrefixOf?_eq_some_iff_append_eq] at hrest hr
    have hrest' : rest = r.reverse ++ tail := by
      simpa using (congrArg List.reverse hr).symm
    rw [← hrest, hrest', List.append_assoc]
  · rintro rfl
    have hback : tail.reverse.isPrefixOf? (captured ++ tail).reverse = some captured.reverse := by
      rw [List.reverse_append, Text.isPrefixOf?_append]
    rw [List.append_assoc, Text.isPrefixOf?_append, Option.bind_some, hback, Option.map_some,
      List.reverse_reverse]

theorem captured?_eq_some_iff {key specifier captured : List Char} :
    captured? key specifier = some captured ↔ Captures key specifier captured := by
  by_cases hstar : '*' ∈ key
  · obtain ⟨start, tail, rfl, hstart⟩ := List.eq_append_cons_of_mem hstar
    rw [captured?_star_eq_some_iff hstart]
    constructor
    · exact fun h => .inl ⟨start, tail, rfl, hstart, h⟩
    · rintro (⟨start', tail', hkey, hstart', h⟩ | ⟨hnone, -, -⟩)
      · have hcut := (Text.breakAt_append_cons hstart tail).symm.trans
          (hkey ▸ Text.breakAt_append_cons hstart' tail')
        cases hcut
        exact h
      · exact absurd hstar hnone
  · have hcaptured : captured? key specifier = if key = specifier then some [] else none := by
      simp only [captured?, Text.breakAt_eq_none hstar]
    rw [hcaptured]
    constructor
    · intro h
      split at h
      · rename_i heq
        cases h
        exact .inr ⟨hstar, heq.symm, rfl⟩
      · cases h
    · rintro (⟨start, tail, rfl, -, -⟩ | ⟨-, rfl, rfl⟩)
      · simp at hstar
      · exact if_pos rfl

/-- A key that matches a specifier, with its targets and what its star stands for. -/
structure Hit where
  key : String
  targets : List String
  captured : List Char
  deriving DecidableEq

namespace Hit

def size (h : Hit) : Nat := h.key.utf8ByteSize

/-- The paths that are tried for a key, seen from a directory. -/
def tried (dir : FilePath) (h : Hit) : List FilePath :=
  h.targets.map fun target =>
    dir.join (String.ofList (Text.replaceFirst '*' h.captured target.toList))

end Hit

/-- The keys that match a specifier, in the order in which they are declared. -/
def hits (paths : List (String × List String)) (specifier : String) : List Hit :=
  paths.filterMap fun (key, targets) =>
    (captured? key.toList specifier.toList).map fun captured => ⟨key, targets, captured⟩

/-- The paths that are tried for a specifier, given the keys in the order of their rank. -/
def tried (c : Tsconfig) (specifier : String) (ranked : List Hit) : List FilePath :=
  ranked.flatMap (Hit.tried c.pathsBase) ++ (c.baseUrl.map (·.join specifier)).toList

/-- Which keys match does not hang on their order. -/
theorem perm_hits {paths paths' : List (String × List String)} (h : paths'.Perm paths)
    (specifier : String) : (hits paths' specifier).Perm (hits paths specifier) :=
  h.filterMap _

theorem targets_eq (c : Tsconfig) (specifier : String) :
    c.targets specifier =
      ((hits c.paths specifier).mergeSort fun a b => b.size ≤ a.size).flatMap fun h =>
        h.targets.map fun target =>
          String.ofList (Text.replaceFirst '*' h.captured target.toList) := by
  have hsorted := List.map_mergeSort (l := hits c.paths specifier)
    (f := fun h => (h.size, h.targets, h.captured)) (r := fun a b => b.size ≤ a.size)
    (s := fun a b => b.1 ≤ a.1) fun a _ b _ => rfl
  have hhits : (hits c.paths specifier).map (fun h => (h.size, h.targets, h.captured)) =
      c.paths.filterMap fun (key, ts) =>
        (captured? key.toList specifier.toList).map fun rest => (key.utf8ByteSize, ts, rest) := by
    simp [hits, List.map_filterMap, Function.comp_def, Hit.size]
  rw [hhits] at hsorted
  rw [targets, ← hsorted, List.flatMap_map]

theorem resolve_eq (c : Tsconfig) (t : FileTree) (specifier : String) :
    c.resolve t specifier =
      (c.tried specifier ((hits c.paths specifier).mergeSort fun a b => b.size ≤ a.size)).findSome?
        (probe t) := by
  have hbase : (c.baseUrl.bind fun base => probe t (base.join specifier)) =
      (c.baseUrl.map (·.join specifier)).toList.findSome? (probe t) := by
    cases c.baseUrl with
    | none => rfl
    | some base => simp
  have htried (ranked : List Hit) : ranked.flatMap (Hit.tried c.pathsBase) =
      (ranked.flatMap fun h => h.targets.map fun target =>
        String.ofList (Text.replaceFirst '*' h.captured target.toList)).map c.pathsBase.join := by
    simp only [List.map_flatMap, List.map_map]
    rfl
  rw [resolve, targets_eq, hbase, tried, List.findSome?_append, htried, List.findSome?_map]
  rfl

/-- **The first path that is found is the answer**, longer keys before shorter ones and the base
directory behind them all; the order of the declarations counts only between keys of one length. -/
theorem resolve_eq_first_found (c : Tsconfig) (t : FileTree) (specifier : String) :
    (∀ key captured, captured? key specifier.toList = some captured ↔
      Captures key specifier.toList captured) ∧
    (∃! ranked, Ranks Hit.size (hits c.paths specifier) ranked) ∧
    (∀ ranked, Ranks Hit.size (hits c.paths specifier) ranked →
      c.resolve t specifier = (c.tried specifier ranked).findSome? (probe t)) ∧
    ∀ paths, paths.Perm c.paths → ((hits c.paths specifier).map Hit.size).Nodup →
      Tsconfig.resolve { c with paths := paths } t specifier = c.resolve t specifier := by
  have hranks := ranks_mergeSort Hit.size (hits c.paths specifier)
  refine ⟨fun key captured => captured?_eq_some_iff, ⟨_, hranks, fun _ h => h.unique hranks⟩,
    fun ranked h => ?_, fun paths hperm hnodup => ?_⟩
  · rw [h.unique hranks]
    exact resolve_eq c t specifier
  · have hsame := (ranks_mergeSort Hit.size (hits paths specifier)).unique
      (hranks.of_perm (perm_hits hperm specifier) hnodup)
    rw [resolve_eq, resolve_eq, hsame]
    rfl

/-- Three keys that match the same specifier; the longer ones lead nowhere. -/
def overlapping : Tsconfig :=
  ⟨some ⟨"/app"⟩, ⟨"/app"⟩,
    [("@/*", ["src/*"]), ("@/*.mock", ["mocks/*"]), ("@/r/*", ["routes/*"])]⟩

def overlappingTree : FileTree :=
  ⟨.directory [("app", .directory [
    ("src", .directory [("r", .directory [("a.mock.ts", .file ⟨#[]⟩ false)])])])], []⟩

theorem resolve_eq_first_found_overlapping :
    let ranked : List Hit := [⟨"@/*.mock", ["mocks/*"], "r/a".toList⟩,
      ⟨"@/r/*", ["routes/*"], "a.mock".toList⟩, ⟨"@/*", ["src/*"], "r/a.mock".toList⟩]
    Ranks Hit.size (hits overlapping.paths "@/r/a.mock") ranked ∧
      ((hits overlapping.paths "@/r/a.mock").map Hit.size).Nodup ∧
      overlapping.resolve overlappingTree "@/r/a.mock" = some ⟨"/app/src/r/a.mock.ts"⟩ ∧
      Tsconfig.resolve { overlapping with paths := overlapping.paths.reverse } overlappingTree
        "@/r/a.mock" = some ⟨"/app/src/r/a.mock.ts"⟩ := by
  intro ranked
  obtain ⟨-, -, hfirst, hperm⟩ := resolve_eq_first_found overlapping overlappingTree "@/r/a.mock"
  have hpermuted : (hits overlapping.paths "@/r/a.mock").Perm ranked := by decide +kernel
  have hself : Ranks Hit.size ranked ranked := ⟨by decide +kernel, fun _ => rfl⟩
  have hranks : Ranks Hit.size (hits overlapping.paths "@/r/a.mock") ranked :=
    hself.of_perm hpermuted (by decide +kernel)
  have hnodup : ((hits overlapping.paths "@/r/a.mock").map Hit.size).Nodup := by decide +kernel
  have hfound : overlapping.resolve overlappingTree "@/r/a.mock" =
      some ⟨"/app/src/r/a.mock.ts"⟩ :=
    (hfirst ranked hranks).trans (by decide +kernel)
  exact ⟨hranks, hnodup, hfound, (hperm _ (List.reverse_perm _) hnodup).trans hfound⟩

end Tsconfig

end RouteAtlas.Alias
