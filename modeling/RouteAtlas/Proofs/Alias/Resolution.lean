import Mathlib.Data.List.Chain
import RouteAtlas.Proofs.Alias.Cache
import RouteAtlas.Proofs.FilePath.Steps

/-!
# Where a bare specifier leads

A bare specifier is looked up in the configurations of directories.  Which directories, and in what
order, is a matter of paths alone (`Ascent`): from that of the importing file to its parent, and so
on, up to the root.  **The nearest directory with a configuration that maps the specifier decides,
and in one directory the first dialect** (`resolve_bare`).

What else a resolution does is told apart from that: `resolveUnder` says which file a specifier
names when directories have given configurations, wherever these are read or remembered.  A cache
resolves under what it gives (`resolveAnew_fst`).
-/

set_option autoImplicit false

namespace RouteAtlas.Alias

open FilePath

/-! ## Resolving under given configurations -/

/-- What a configuration of a place, if it has one, maps a specifier to. -/
def mappedUnder (configs : Dialect → FilePath → Option Config) (t : FileTree) (specifier : String)
    (place : FilePath × Dialect) : Option FilePath :=
  (configs place.2 place.1).bind fun f => f.resolve t specifier

/-- The file that a specifier names for an importing file, when directories have these
configurations. -/
def resolveUnder (configs : Dialect → FilePath → Option Config) (t : FileTree)
    (root importer : FilePath) (specifier : String) : Option FilePath :=
  if isBare (Text.trim specifier) then
    (placesOf root importer specifier).findSome? (mappedUnder configs t (Text.trim specifier))
  else pointedTo t importer specifier

section

variable {t : FileTree} {root importer : FilePath} {specifier : String}

/-- A cache resolves under the configurations that it gives. -/
theorem resolveAnew_fst (c : Cache) :
    (resolveAnew t root importer specifier c).1 =
      resolveUnder (c.given t) t root importer specifier := by
  unfold resolveUnder
  by_cases h : isBare (Text.trim specifier)
  · rw [if_pos h, resolveAnew_of_isBare h,
      firstHit_fst fun place hplace => isNormal_of_mem_placesOf hplace]
    rfl
  · rw [if_neg h, resolveAnew_of_not_isBare (eq_false_of_ne_true h)]

/-- Only the configurations of directories in normal form matter. -/
theorem resolveUnder_congr {configs configs' : Dialect → FilePath → Option Config}
    (h : ∀ d dir, dir.IsNormal → configs d dir = configs' d dir) :
    resolveUnder configs t root importer specifier =
      resolveUnder configs' t root importer specifier := by
  unfold resolveUnder
  by_cases hbare : isBare (Text.trim specifier)
  · rw [if_pos hbare, if_pos hbare]
    apply findSome?_congr
    intro place hplace
    rw [mappedUnder, mappedUnder, h place.2 place.1 (isNormal_of_mem_placesOf hplace)]
  · rw [if_neg hbare, if_neg hbare]

end

/-- The configurations that are in a file tree are what an empty cache gives. -/
theorem given_empty (t : FileTree) :
    Cache.empty.given t = fun (d : Dialect) (dir : FilePath) => d.load t dir := rfl

/-- A question put to an empty cache is resolved under them. -/
theorem resolve_empty_fst (t : FileTree) (root importer : FilePath) (specifier : String) :
    (resolve t root importer specifier .empty).1 =
      resolveUnder (fun d dir => d.load t dir) t root importer specifier := by
  have hnew : Cache.empty.answers.lookup (importer.components, specifier) = none := rfl
  rw [resolve_fst, hnew, Option.getD_none, resolveAnew_fst, given_empty]

/-! ## Spellings of the importing file -/

theorem head?_ne_slash_of_isRelative {specifier : String} (h : isRelative specifier = true) :
    specifier.toList.head? ≠ some '/' := by
  have hdot : specifier.toList.head? = some '.' := by
    simp only [isRelative, Bool.or_eq_true, decide_eq_true_eq, String.startsWith_string_iff] at h
    rcases h with ((rfl | rfl) | ⟨rest, hrest⟩) | ⟨rest, hrest⟩
    · rfl
    · rfl
    · rw [← hrest]
      rfl
    · rw [← hrest]
      rfl
  rw [hdot]
  decide

/-- The places depend on where the parent of the importing file leads. -/
theorem placesOf_eq (root importer : FilePath) (specifier : String) :
    placesOf root importer specifier =
      (importer.parent?.map location).elim [] fun l =>
        if isBare (Text.trim specifier) then
          (levels root.normalize l.toPath).flatMap fun dir => Dialect.order.map (dir, ·)
        else [] := by
  unfold placesOf
  cases importer.parent? with
  | none => rfl
  | some parent => simp only [Option.map_some, Option.elim_some, FilePath.normalize]

/-- So does the file that a specifier points to. -/
theorem pointedTo_eq (t : FileTree) (importer : FilePath) (specifier : String) :
    pointedTo t importer specifier =
      (importer.parent?.map location).bind fun l =>
        if isRelative (Text.trim specifier) then
          probe t ((FilePath.mk (Text.trim specifier)).components.foldl Location.step l).toPath
        else if (Text.trim specifier).startsWith "/" then probe t ⟨Text.trim specifier⟩
        else none := by
  unfold pointedTo
  cases importer.parent? with
  | none => rfl
  | some parent =>
    rw [Option.map_some, Option.bind_some, Option.bind_some]
    split
    · rename_i hrelative
      rw [FilePath.normalize, location_join parent (head?_ne_slash_of_isRelative hrelative)]
    · rfl

/-- Spellings of one importing file have the same answers. -/
theorem resolveUnder_eq_of_components_eq (configs : Dialect → FilePath → Option Config)
    (t : FileTree) (root : FilePath) {importer importer' : FilePath}
    (h : importer.components = importer'.components) (specifier : String) :
    resolveUnder configs t root importer specifier =
      resolveUnder configs t root importer' specifier := by
  unfold resolveUnder
  rw [placesOf_eq, placesOf_eq, pointedTo_eq, pointedTo_eq, map_location_parent?_congr h]

/-! ## Directory by directory -/

/-- What the configurations found directly in a directory map a specifier to: the first that maps
it, in the order of the dialects. -/
def mappedIn (t : FileTree) (specifier : String) (dir : FilePath) : Option FilePath :=
  [Dialect.tsconfig, .babel, .jest, .metro].findSome? fun d =>
    (d.load t dir).bind fun config => config.resolve t specifier

/-- Directory by directory, the nearest first. -/
theorem findSome?_places (t : FileTree) (specifier : String) (dirs : List FilePath) :
    (dirs.flatMap fun dir => Dialect.order.map (dir, ·)).findSome?
        (mappedUnder (fun d dir => d.load t dir) t specifier) =
      dirs.findSome? (mappedIn t specifier) := by
  rw [← List.head?_filterMap, List.filterMap_flatMap, List.head?_flatMap]
  congr 1
  funext dir
  rw [List.head?_filterMap, List.findSome?_map]
  rfl

/-! ## The ascent -/

/-- The directories from one up to another: each is followed by its parent. -/
structure Ascent (low high : FilePath) (dirs : List FilePath) : Prop where
  starts : dirs.head? = some low
  climbs : dirs.IsChain fun dir up => dir.parent? = some up
  ends : dirs.getLast? = some high

/-- A location and those above it, nearest first. -/
def above (l : Location) : List FilePath :=
  (List.range (l.names.length + 1)).map fun n =>
    (Location.mk l.absolute (l.names.take (l.names.length - n))).toPath

theorem above_nil (absolute : Bool) : above ⟨absolute, []⟩ = [(Location.mk absolute []).toPath] :=
  rfl

theorem above_concat (absolute : Bool) (names : List String) (s : String) :
    above ⟨absolute, names ++ [s]⟩ =
      (Location.mk absolute (names ++ [s])).toPath :: above ⟨absolute, names⟩ := by
  have hlength : (names ++ [s]).length = names.length + 1 := List.length_append
  unfold above
  dsimp only
  rw [hlength, List.range_succ_eq_map, List.map_cons, List.map_map, Nat.sub_zero,
    List.take_of_length_le hlength.le]
  congr 1
  apply List.map_congr_left
  intro n _
  simp only [Function.comp_apply, Nat.succ_eq_add_one, Nat.add_sub_add_right]
  rw [List.take_append_of_le_length (Nat.sub_le _ _)]

theorem head?_above (l : Location) : (above l).head? = some l.toPath := by
  obtain ⟨absolute, names⟩ := l
  cases names using List.reverseRecOn with
  | nil => rfl
  | append_singleton names s => rw [above_concat, List.head?_cons]

theorem levels_toPath (root : FilePath) {l : Location} (h : l.IsProper) :
    levels root l.toPath = (above l).takeWhile (·.isWithin root) := by
  unfold levels
  rw [location_toPath h]
  rfl

theorem isWithin_iff {p q : FilePath} : q.isWithin p = true ↔ p.components <+: q.components :=
  List.isPrefixOf_iff_prefix

/-- There is nothing to consult for a directory that is not within the root. -/
theorem levels_eq_nil {root : FilePath} {l : Location} (h : l.IsProper)
    (hout : l.toPath.isWithin root = false) : levels root l.toPath = [] := by
  rw [levels_toPath root h]
  have hhead := head?_above l
  cases habove : above l with
  | nil => rfl
  | cons p ps =>
    rw [habove] at hhead
    cases hhead
    rw [List.takeWhile_cons_of_neg (by simp [hout])]

/-- Where the ascent from a directory ends: at the root; or at the top, for an absolute directory
and a root that is the empty path, which every path is within. -/
def highest (root dir : FilePath) : FilePath :=
  if root.isAbsolute = dir.isAbsolute then root else ⟨"/"⟩

namespace Ascent

variable {low next high : FilePath} {dirs dirs' : List FilePath}

theorem single (dir : FilePath) : Ascent dir dir [dir] :=
  ⟨rfl, List.isChain_singleton dir, rfl⟩

theorem cons (h : Ascent next high dirs) (hnext : low.parent? = some next) :
    Ascent low high (low :: dirs) := by
  obtain ⟨rest, rfl⟩ := List.head?_eq_some_iff.mp h.starts
  exact ⟨rfl, List.isChain_cons_cons.mpr ⟨hnext, h.climbs⟩, by
    rw [List.getLast?_cons_cons, h.ends]⟩

theorem tail (h : Ascent low high (low :: next :: dirs)) :
    low.parent? = some next ∧ Ascent next high (next :: dirs) := by
  obtain ⟨hnext, hrest⟩ := List.isChain_cons_cons.mp h.climbs
  exact ⟨hnext, rfl, hrest, List.getLast?_cons_cons.symm.trans h.ends⟩

/-- A directory is above those that an ascent to it has passed. -/
theorem length_components_lt (h : Ascent low high (low :: next :: dirs)) :
    high.components.length < low.components.length := by
  induction dirs generalizing low next with
  | nil =>
    obtain ⟨hnext, hrest⟩ := h.tail
    cases hrest.ends
    exact length_components_parent? hnext
  | cons dir dirs ih =>
    obtain ⟨hnext, hrest⟩ := h.tail
    exact (ih hrest).trans (length_components_parent? hnext)

/-- There is one way up. -/
theorem unique (h : Ascent low high dirs) (h' : Ascent low high dirs') : dirs' = dirs := by
  induction dirs generalizing low dirs' with
  | nil => cases h.starts
  | cons dir dirs ih =>
    cases h.starts
    obtain ⟨dirs', rfl⟩ := List.head?_eq_some_iff.mp h'.starts
    cases dirs with
    | nil =>
      cases h.ends
      cases dirs' with
      | nil => rfl
      | cons next dirs' => exact absurd h'.length_components_lt (lt_irrefl _)
    | cons next dirs =>
      cases dirs' with
      | nil =>
        cases h'.ends
        exact absurd h.length_components_lt (lt_irrefl _)
      | cons next' dirs' =>
        obtain ⟨hnext, hrest⟩ := h.tail
        obtain ⟨hnext', hrest'⟩ := h'.tail
        cases hnext.symm.trans hnext'
        rw [ih hrest hrest']

end Ascent

section

variable {l r : Location} (hl : l.IsProper) (hr : r.IsProper)

include hl hr

/-- What a path in normal form can be within: a path that starts where it starts, or the empty
path. -/
theorem isWithin_toPath_iff :
    l.toPath.isWithin r.toPath = true ↔
      (r.absolute = l.absolute ∧ r.names <+: l.names) ∨
        (r = ⟨false, []⟩ ∧ l.absolute = true) := by
  obtain ⟨absolute, names⟩ := l
  obtain ⟨absolute', names'⟩ := r
  have hmap {ns ns' : List String} :
      ns'.map Component.name <+: ns.map Component.name ↔ ns' <+: ns :=
    List.prefix_map_iff_of_injective fun _ _ => Component.name.inj
  rw [isWithin_iff, components_toPath hl, components_toPath hr]
  cases absolute <;> cases absolute'
  · simpa using hmap
  · cases names <;> simp
  · cases names' <;> simp
  · simpa using hmap

/-- **The directories that are consulted are those of an ascent**, which always ends. -/
theorem ascent_levels (h : l.toPath.isWithin r.toPath = true) :
    Ascent l.toPath (highest r.toPath l.toPath) (levels r.toPath l.toPath) := by
  obtain ⟨absolute, names⟩ := l
  have habsolute : (Location.mk absolute names).toPath.isAbsolute = absolute := isAbsolute_toPath hl
  induction names using List.reverseRecOn with
  | nil =>
    have hhigh : highest r.toPath (Location.mk absolute []).toPath =
        (Location.mk absolute []).toPath := by
      rw [highest, isAbsolute_toPath hr, habsolute]
      rcases (isWithin_toPath_iff hl hr).mp h with ⟨hsame, hnames⟩ | ⟨rfl, habs⟩
      · rw [if_pos hsame]
        cases r
        cases hsame
        cases List.prefix_nil.mp hnames
        rfl
      · cases habs
        rfl
    rw [levels_toPath _ hl, above_nil, List.takeWhile_cons, if_pos h, List.takeWhile_nil, hhigh]
    exact .single _
  | append_singleton names s ih =>
    have hup : (Location.mk absolute names).IsProper :=
      fun s' hs' => hl s' (List.mem_append_left _ hs')
    have hsame : highest r.toPath (Location.mk absolute (names ++ [s])).toPath =
        highest r.toPath (Location.mk absolute names).toPath := by
      rw [highest, highest, habsolute, isAbsolute_toPath hup]
    have hlevels : levels r.toPath (Location.mk absolute (names ++ [s])).toPath =
        (Location.mk absolute (names ++ [s])).toPath ::
          levels r.toPath (Location.mk absolute names).toPath := by
      rw [levels_toPath _ hl, above_concat, List.takeWhile_cons, if_pos h, levels_toPath _ hup]
    rw [hlevels]
    by_cases hwithin : (Location.mk absolute names).toPath.isWithin r.toPath = true
    · rw [hsame]
      exact (ih hup hwithin (isAbsolute_toPath hup)).cons (parent?_toPath_concat hl)
    · -- the parent is out, so this directory is the root
      have hroot : r = ⟨absolute, names ++ [s]⟩ := by
        rw [isWithin_toPath_iff hup hr] at hwithin
        rcases (isWithin_toPath_iff hl hr).mp h with ⟨habs, hnames⟩ | hempty
        · rcases List.prefix_concat_iff.mp hnames with hnames | hnames
          · cases r
            cases habs
            cases hnames
            rfl
          · exact absurd (.inl ⟨habs, hnames⟩) hwithin
        · exact absurd (.inr hempty) hwithin
      rw [levels_eq_nil hup (eq_false_of_ne_true hwithin), hroot, highest, if_pos rfl]
      exact .single _

end

/-! ## Bare specifiers -/

/-- **A bare specifier names what the nearest directory says**, and in one directory what the first
dialect says: from the directory of the importing file, all the way up to the root, and never above
it.  Where no directory maps it, and where the importing file is not under the root, it names
nothing. -/
theorem resolve_bare (t : FileTree) (root importer : FilePath) (specifier : String)
    (h : isBare (Text.trim specifier) = true) :
    (importer.parent? = none → (resolve t root importer specifier .empty).1 = none) ∧
      ∀ parent, importer.parent? = some parent →
        (parent.normalize.isWithin root.normalize = false →
          (resolve t root importer specifier .empty).1 = none) ∧
        (parent.normalize.isWithin root.normalize = true →
          ∃ dirs, Ascent parent.normalize (highest root.normalize parent.normalize) dirs ∧
            (∀ dirs', Ascent parent.normalize (highest root.normalize parent.normalize) dirs' →
              dirs' = dirs) ∧
            (resolve t root importer specifier .empty).1 =
              dirs.findSome? (mappedIn t (Text.trim specifier))) := by
  have hanswer : (resolve t root importer specifier .empty).1 =
      (placesOf root importer specifier).findSome?
        (mappedUnder (fun d dir => d.load t dir) t (Text.trim specifier)) := by
    rw [resolve_empty_fst, resolveUnder, if_pos h]
  rw [hanswer, placesOf]
  refine ⟨fun hnone => by rw [hnone]; rfl, fun parent hparent => ?_⟩
  simp only [hparent, if_pos h, findSome?_places]
  refine ⟨fun hout => ?_, fun hwithin => ?_⟩
  · have hnil : levels root.normalize parent.normalize = [] :=
      levels_eq_nil (isProper_location parent) hout
    rw [hnil, List.findSome?_nil]
  · have hascent := ascent_levels (isProper_location parent) (isProper_location root) hwithin
    exact ⟨_, hascent, fun dirs' hdirs' => hascent.unique hdirs', rfl⟩

/-- A project inside another: both have a configuration, and both keep a `lib/db.ts`. -/
def nestedProjects : FileTree :=
  let config : Entry :=
    .file "\x7b\"compilerOptions\": \x7b\"baseUrl\": \".\"\x7d\x7d".toUTF8 false
  let source : Entry := .file ByteArray.empty false
  let lib : Entry := .directory [("db.ts", source)]
  ⟨.directory [("r", .directory [
    ("a", .directory [("lib", lib), ("tsconfig.json", config), ("x.ts", source)]),
    ("lib", lib), ("tsconfig.json", config)])], []⟩

/-- In the inner project its own file is meant. -/
theorem resolve_bare_nestedProjects :
    isBare (Text.trim "lib/db") = true ∧
      ∃ dirs, Ascent ⟨"/r/a"⟩ ⟨"/r"⟩ dirs ∧
        dirs.findSome? (mappedIn nestedProjects "lib/db") = some ⟨"/r/a/./lib/db.ts"⟩ := by
  have hbare : isBare (Text.trim "lib/db") = true := by decide +kernel
  have hparent : (FilePath.mk "/r/a/x.ts").parent? = some ⟨"/r/a"⟩ := by decide +kernel
  have hwithin : (FilePath.mk "/r/a").normalize.isWithin (FilePath.mk "/r").normalize = true := by
    decide +kernel
  obtain ⟨dirs, hascent, -, hanswer⟩ :=
    ((resolve_bare nestedProjects ⟨"/r"⟩ ⟨"/r/a/x.ts"⟩ "lib/db" hbare).2 _ hparent).2 hwithin
  exact ⟨hbare, dirs, hascent, hanswer.symm.trans (by decide +kernel)⟩

end RouteAtlas.Alias
