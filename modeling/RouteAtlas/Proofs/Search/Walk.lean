import RouteAtlas.Proofs.FilePath.Order
import RouteAtlas.Proofs.FileTree
import RouteAtlas.Proofs.Glob
import RouteAtlas.Search.Walk

/-!
# What a walk finds

A walk drops whole directories before it looks at their files: hidden ones, and those in which a
file called `_` would be excluded.  What it finds is told file by file: the wanted files
(`Walk.Wanted`) that do not lie in the shadow of such a `_` (`Walk.Shadowed`).

The shadow is harmless when the globs that exclude speak of whole directories
(`not_shadowed_of_endsBelow`).  It is not when they tell the names in a directory apart: `**/_*`
excludes no file but those whose names begin with an underscore, and hides all others that do not
lie in the root itself.
-/

set_option autoImplicit false

namespace RouteAtlas

/-! ## Paths below a directory -/

namespace FilePath

/-- The path that goes from a directory through names. -/
def below (dir : FilePath) (names : List String) : FilePath :=
  names.foldl join dir

@[simp] theorem below_nil (dir : FilePath) : dir.below [] = dir := rfl

@[simp] theorem below_cons (dir : FilePath) (name : String) (names : List String) :
    dir.below (name :: names) = (dir.join name).below names := rfl

theorem components_below (dir : FilePath) {names : List String} (h : ∀ s ∈ names, IsName s) :
    (dir.below names).components = dir.components ++ names.map .name := by
  induction names generalizing dir with
  | nil => simp
  | cons s names ih =>
    rw [below_cons, ih _ fun r hr => h r (List.mem_cons_of_mem s hr),
      components_join_name dir (h s List.mem_cons_self), List.append_assoc]
    rfl

/-- Different names lead along different steps. -/
theorem below_inj {dir : FilePath} {names names' : List String} (h : ∀ s ∈ names, IsName s)
    (h' : ∀ s ∈ names', IsName s)
    (heq : (dir.below names).components = (dir.below names').components) : names = names' := by
  rw [components_below dir h, components_below dir h'] at heq
  exact List.map_injective_iff.mpr (fun _ _ => Component.name.inj) (List.append_cancel_left heq)

end FilePath

namespace Search.Walk

open FilePath (Component)

/-! ## Files met -/

section Met

variable {enter : String → String → Bool}

theorem metBelow_eq (dir : FilePath) (above : String) (entries : List (String × Entry)) :
    metBelow enter dir above entries =
      entries.flatMap fun e => metAt enter (dir.join e.1) (above ++ e.1) e.1 e.2 := by
  induction entries with
  | nil => rfl
  | cons e entries ih =>
    obtain ⟨name, e⟩ := e
    rw [metBelow, ih, List.flatMap_cons]

/-- Whether every directory on the way through names is entered. -/
def Entered (enter : String → String → Bool) (above : String) (names : List String) : Prop :=
  ∀ dirs d, dirs ++ [d] <+: names.dropLast →
    enter d (above ++ String.intercalate "/" (dirs ++ [d])) = true

theorem entered_singleton (above name : String) : Entered enter above [name] := by
  intro dirs d h
  simp at h

/-- The first directory on the way is entered, and then the rest. -/
theorem entered_cons_iff {above name : String} {names : List String} (h : names ≠ []) :
    Entered enter above (name :: names) ↔
      enter name (above ++ name) = true ∧ Entered enter (above ++ name ++ "/") names := by
  unfold Entered
  rw [List.dropLast_cons_of_ne_nil h]
  constructor
  · intro hall
    refine ⟨by simpa using hall [] name (by simp), fun dirs d hd => ?_⟩
    have hname := hall (name :: dirs) d (List.cons_prefix_cons.mpr ⟨rfl, hd⟩)
    rw [List.cons_append, String.intercalate_cons_of_ne_nil (List.concat_ne_nil d dirs)] at hname
    simpa [String.append_assoc] using hname
  · rintro ⟨hname, hall⟩ dirs d hd
    cases dirs with
    | nil =>
      obtain ⟨rfl, -⟩ := List.cons_prefix_cons.mp hd
      simpa using hname
    | cons s dirs =>
      obtain ⟨rfl, hrest⟩ := List.cons_prefix_cons.mp hd
      rw [List.cons_append, String.intercalate_cons_of_ne_nil (List.concat_ne_nil d dirs)]
      simpa [String.append_assoc] using hall dirs d hrest

/-- Whether names lead a walk from a directory to what it meets. -/
structure Leads (enter : String → String → Bool) (dir : FilePath) (above : String)
    (entries : List (String × Entry)) (names : List String) (m : Met) : Prop where
  isFile : ∃ executable,
    (Entry.directory entries).at? names = some (.file m.content executable)
  path : m.path = dir.below names
  relative : m.relative = above ++ String.intercalate "/" names
  entered : Entered enter above names

section Leads

variable {dir : FilePath} {above : String} {entries : List (String × Entry)} {names : List String}
  {m : Met}

theorem Leads.ne_nil (h : Leads enter dir above entries names m) : names ≠ [] := by
  rintro rfl
  obtain ⟨executable, hat⟩ := h.isFile
  cases hat

/-- A file in the directory itself is met under its name. -/
theorem mem_metAt_file_iff (h : (Entry.directory entries).WellNamed) {name : String}
    {content : ByteArray} {executable : Bool} (hfile : (name, .file content executable) ∈ entries) :
    m ∈ metAt enter (dir.join name) (above ++ name) name (.file content executable) ↔
      Leads enter dir above entries [name] m := by
  rw [metAt, List.mem_singleton]
  constructor
  · rintro rfl
    exact ⟨⟨executable, h.at?_cons_of_mem hfile []⟩, rfl,
      by rw [String.intercalate_singleton], entered_singleton above name⟩
  · rintro ⟨⟨executable', hat⟩, hpath, hrelative, -⟩
    rw [h.at?_cons_of_mem hfile, Entry.at?_nil] at hat
    rw [String.intercalate_singleton] at hrelative
    cases m
    cases hat
    exact congrArg₂ (Met.mk · · _) hpath hrelative

/-- The way to a file further below goes through a directory that is entered. -/
theorem leads_cons_iff (h : (Entry.directory entries).WellNamed) {name : String}
    {entries' : List (String × Entry)} (hdir : (name, .directory entries') ∈ entries)
    (hne : names ≠ []) :
    Leads enter dir above entries (name :: names) m ↔
      enter name (above ++ name) = true ∧
        Leads enter (dir.join name) (above ++ name ++ "/") entries' names m := by
  have hrelative : above ++ String.intercalate "/" (name :: names) =
      above ++ name ++ "/" ++ String.intercalate "/" names := by
    rw [String.intercalate_cons_of_ne_nil hne]
    simp [String.append_assoc]
  constructor
  · rintro ⟨⟨executable, hat⟩, hpath, hrel, hentered⟩
    rw [h.at?_cons_of_mem hdir] at hat
    obtain ⟨henter, hentered⟩ := (entered_cons_iff hne).mp hentered
    exact ⟨henter, ⟨executable, hat⟩, hpath, hrel.trans hrelative, hentered⟩
  · rintro ⟨henter, ⟨executable, hat⟩, hpath, hrel, hentered⟩
    rw [← h.at?_cons_of_mem hdir] at hat
    exact ⟨⟨executable, hat⟩, hpath, hrel.trans hrelative.symm,
      (entered_cons_iff hne).mpr ⟨henter, hentered⟩⟩

/-- **A walk meets the files that it has a way to**, through directories that it enters. -/
theorem mem_metBelow_iff (h : (Entry.directory entries).WellNamed) :
    m ∈ metBelow enter dir above entries ↔ ∃ names, Leads enter dir above entries names m := by
  -- by the shape of the tree, for every place where the walk may stand
  generalize hdir : Entry.directory entries = e at h
  induction h generalizing entries dir above with
  | file => cases hdir
  | link => cases hdir
  | @directory entries distinct isName below ih =>
    cases hdir
    have h : (Entry.directory entries).WellNamed := .directory distinct isName below
    rw [metBelow_eq, List.mem_flatMap]
    constructor
    · rintro ⟨⟨name, c⟩, hc, hm⟩
      cases c with
      | file content executable => exact ⟨[name], (mem_metAt_file_iff h hc).mp hm⟩
      | link target => simp [metAt] at hm
      | directory entries' =>
        rw [metAt] at hm
        split at hm
        · rename_i henter
          obtain ⟨names, hleads⟩ := (ih _ hc rfl).mp hm
          exact ⟨name :: names, (leads_cons_iff h hc hleads.ne_nil).mpr ⟨henter, hleads⟩⟩
        · cases hm
    · rintro ⟨names, hleads⟩
      obtain ⟨name, names, rfl⟩ := List.exists_cons_of_ne_nil hleads.ne_nil
      obtain ⟨executable, hat⟩ := hleads.isFile
      obtain ⟨c, hc, hat⟩ := h.exists_mem_of_at?_cons hat
      refine ⟨(name, c), hc, ?_⟩
      cases c with
      | file content executable' =>
        obtain ⟨rfl, -⟩ := Entry.at?_file_eq_some_iff.mp hat
        exact (mem_metAt_file_iff h hc).mpr hleads
      | link target => cases (Entry.at?_link_eq_some_iff.mp hat).2
      | directory entries' =>
        have hne : names ≠ [] := by
          rintro rfl
          cases hat
        obtain ⟨henter, hleads⟩ := (leads_cons_iff h hc hne).mp hleads
        rw [metAt, if_pos henter]
        exact (ih _ hc rfl).mpr ⟨names, hleads⟩

end Leads

/-- The way to what is met goes on from where the walk stands. -/
theorem isPrefix_of_mem_metAt {e : Entry} (h : e.WellNamed) {path : FilePath}
    {relative name : String} {m : Met} (hm : m ∈ metAt enter path relative name e) :
    path.components <+: m.path.components := by
  cases e with
  | file content executable =>
    rw [metAt, List.mem_singleton] at hm
    subst hm
    exact List.prefix_refl _
  | link target => simp [metAt] at hm
  | directory entries =>
    rw [metAt] at hm
    split at hm
    · obtain ⟨names, ⟨executable, hat⟩, hpath, -, -⟩ := (mem_metBelow_iff h).mp hm
      rw [hpath, FilePath.components_below path (h.isName_of_at? hat)]
      exact List.prefix_append _ _
    · cases hm

/-- No file is met twice. -/
theorem nodup_metBelow {entries : List (String × Entry)}
    (h : (Entry.directory entries).WellNamed) (dir : FilePath) (above : String) :
    ((metBelow enter dir above entries).map fun m => m.path.components).Nodup := by
  generalize hdir : Entry.directory entries = e at h
  induction h generalizing entries dir above with
  | file => cases hdir
  | link => cases hdir
  | @directory entries distinct isName below ih =>
    cases hdir
    rw [metBelow_eq, List.map_flatMap, List.nodup_flatMap]
    constructor
    · rintro ⟨name, c⟩ hc
      cases c with
      | file content executable => exact List.nodup_singleton _
      | link target => exact List.nodup_nil
      | directory entries' =>
        rw [metAt]
        split
        · exact ih _ hc _ _ rfl
        · exact List.nodup_nil
    · -- what is met below two entries goes on from two different names
      refine (List.pairwise_map.mp distinct).imp_of_mem fun {a b} ha hb hne => ?_
      rintro steps hsteps hsteps'
      obtain ⟨m, hm, rfl⟩ := List.mem_map.mp hsteps
      obtain ⟨m', hm', heq⟩ := List.mem_map.mp hsteps'
      have hprefix := isPrefix_of_mem_metAt (below a ha) hm
      have hprefix' := heq ▸ isPrefix_of_mem_metAt (below b hb) hm'
      rw [FilePath.components_join_name dir (isName a ha)] at hprefix
      rw [FilePath.components_join_name dir (isName b hb)] at hprefix'
      have hsame : dir.components ++ [.name a.1] = dir.components ++ [.name b.1] :=
        (List.prefix_of_prefix_length_le hprefix hprefix' (by simp)).eq_of_length (by simp)
      exact hne (Component.name.inj (List.singleton_inj.mp (List.append_cancel_left hsame)))

end Met

/-! ## Wanted files -/

/-- A path from the root, through names, as globs see it. -/
def relativePath (names : List String) : String :=
  posix (String.intercalate "/" names)

/-- Whether the globs and the patterns of a query mean something, and what. -/
structure Compiles (q : Query) (including exclude : List Glob) (needles : List Needle) : Prop where
  including : q.includeGlobs.mapM Glob.parse? = some including
  exclude : q.excludeGlobs.mapM Glob.parse? = some exclude
  needles : Needle.ofQuery? q = some needles

/-- Whether the names below a directory lead to a file that a query asks for: one that is no link,
whose text matches, in no hidden directory, with a path that counts and is not excluded. -/
structure Wanted (entries : List (String × Entry)) (including exclude : List Glob)
    (needles : List Needle) (names : List String) : Prop where
  isFile : ∃ content executable text,
    (Entry.directory entries).at? names = some (.file content executable) ∧
      String.fromUTF8? content = some text ∧ Needle.anyIn needles text = true
  visible : ∀ d ∈ names.dropLast, d.startsWith "." = false
  included : including = [] ∨ Glob.anyMatch including (relativePath names) = true
  notExcluded : Glob.anyMatch exclude (relativePath names) = false

/-- Whether one of the directories on the way through names is not entered because a file called
`_` would be excluded there. -/
def Shadowed (exclude : List Glob) (names : List String) : Prop :=
  ∃ dirs, dirs ≠ [] ∧ dirs <+: names.dropLast ∧
    Glob.anyMatch exclude (relativePath dirs ++ "/_") = true

theorem entered_mayEnter_iff {exclude : List Glob} {names : List String} :
    Entered (mayEnter exclude) "" names ↔
      (∀ d ∈ names.dropLast, d.startsWith "." = false) ∧ ¬Shadowed exclude names := by
  simp only [Entered, mayEnter, String.empty_append, Bool.and_eq_true, Bool.not_eq_true']
  constructor
  · intro h
    constructor
    · intro d hd
      obtain ⟨dirs, rest, hnames⟩ := List.append_of_mem hd
      exact (h dirs d ⟨rest, by simp [hnames]⟩).1
    · rintro ⟨dirs, hne, hdirs, hmatch⟩
      rw [← List.dropLast_concat_getLast hne] at hdirs hmatch
      rw [relativePath, (h _ _ hdirs).2] at hmatch
      cases hmatch
  · rintro ⟨hvisible, hshadow⟩ dirs d hd
    refine ⟨hvisible d (hd.subset (by simp)), ?_⟩
    exact eq_false_of_ne_true fun hmatch => hshadow ⟨_, List.concat_ne_nil d dirs, hd, hmatch⟩

theorem relativePath_append {dirs rest : List String} (hdirs : dirs ≠ []) (hrest : rest ≠ []) :
    relativePath (dirs ++ rest) = relativePath dirs ++ "/" ++ relativePath rest := by
  unfold relativePath posix FilePath.posixText
  rw [String.intercalate_append_of_ne_nil hdirs hrest]
  simp [String.toList_append, String.ofList_append, String.append_assoc]

/-- **Globs for all that lies below some directory throw no shadow** on a file that they do not
exclude. -/
theorem not_shadowed_of_endsBelow {exclude : List Glob} (h : ∀ g ∈ exclude, g.EndsBelow)
    {names : List String} (hnames : Glob.anyMatch exclude (relativePath names) = false) :
    ¬Shadowed exclude names := by
  rintro ⟨dirs, hne, hdirs, hmatch⟩
  obtain ⟨g, hg, hmatch⟩ := List.any_eq_true.mp hmatch
  obtain ⟨rest, rfl⟩ := hdirs.trans (List.dropLast_prefix names)
  have hrest : rest ≠ [] := by
    rintro rfl
    have hlength := hdirs.length_le
    rw [List.append_nil, List.length_dropLast] at hlength
    have hpos := List.length_pos_iff.mpr hne
    omega
  have hbelow := (h g hg).isMatch_below hmatch (relativePath rest)
  rw [← relativePath_append hne hrest] at hbelow
  rw [Glob.anyMatch, List.any_eq_false] at hnames
  exact hnames g hg hbelow

/-! ## What is found -/

section Found

variable {t : FileTree} {q : Query} {entries : List (String × Entry)}
  {including exclude : List Glob} {needles : List Needle}

/-- The files met that count. -/
def hits (t : FileTree) (q : Query) (including exclude : List Glob) (needles : List Needle) :
    List Met :=
  (metFrom t exclude q.root).filter fun m =>
    counts including exclude m.relative && holds needles m.content

theorem search_eq (hpatterns : q.patterns ≠ []) (hq : Compiles q including exclude needles)
    (hbudget : q.budget ≠ 0) :
    search t q =
      .ok (FilePath.sort ((hits t q including exclude needles).map Met.path)) := by
  unfold search
  rw [if_neg (by simpa using hpatterns), hq.including, hq.exclude, hq.needles]
  exact if_neg hbudget

theorem metFrom_directory (h : t.entry q.root = .ok (.directory entries)) :
    metFrom t exclude q.root = metBelow (mayEnter exclude) q.root "" entries := by
  rw [metFrom, h]

theorem holds_iff {content : ByteArray} :
    holds needles content = true ↔
      ∃ text, String.fromUTF8? content = some text ∧ Needle.anyIn needles text = true :=
  Option.any_eq_true _ _

theorem counts_iff {relative : String} :
    counts including exclude relative = true ↔
      (including = [] ∨ Glob.anyMatch including (posix relative) = true) ∧
        Glob.anyMatch exclude (posix relative) = false := by
  simp [counts]

/-- The hits are the files that are wanted and do not lie in the shadow. -/
theorem exists_hit_iff (hroot : t.entry q.root = .ok (.directory entries))
    (hnames : (Entry.directory entries).WellNamed) {p : FilePath} :
    (∃ m ∈ hits t q including exclude needles, m.path = p) ↔
      ∃ names, Wanted entries including exclude needles names ∧ ¬Shadowed exclude names ∧
        p = q.root.below names := by
  simp only [hits, metFrom_directory hroot, List.mem_filter, mem_metBelow_iff hnames,
    Bool.and_eq_true, counts_iff, holds_iff]
  constructor
  · rintro ⟨m, ⟨⟨names, ⟨executable, hat⟩, hpath, hrelative, hentered⟩,
      ⟨hincluded, hexcluded⟩, text, htext, hmatch⟩, rfl⟩
    obtain ⟨hvisible, hshadow⟩ := entered_mayEnter_iff.mp hentered
    rw [hrelative, String.empty_append] at hincluded hexcluded
    exact ⟨names, ⟨⟨_, _, text, hat, htext, hmatch⟩, hvisible, hincluded, hexcluded⟩, hshadow,
      hpath⟩
  · rintro ⟨names, ⟨⟨content, executable, text, hat, htext, hmatch⟩, hvisible, hincluded,
      hexcluded⟩, hshadow, rfl⟩
    exact ⟨⟨_, _, content⟩, ⟨⟨names, ⟨executable, hat⟩, rfl, String.empty_append.symm,
      entered_mayEnter_iff.mpr ⟨hvisible, hshadow⟩⟩, ⟨hincluded, hexcluded⟩, text, htext, hmatch⟩,
      rfl⟩

/-- **A walk finds the wanted files that do not lie in the shadow of a `_`**, in strict path order.
So it finds exactly the wanted files when, and only when, no wanted file lies in such a shadow; none
does when the globs that exclude are all for what lies below some directory. -/
theorem search_finds_wanted_unless_shadowed
    (hroot : t.entry q.root = .ok (.directory entries))
    (hnames : (Entry.directory entries).WellNamed) (hpatterns : q.patterns ≠ [])
    (hq : Compiles q including exclude needles) (hbudget : q.budget ≠ 0) :
    ∃ found, search t q = .ok found ∧
      (found.Pairwise fun p p' => p.compare p' = .lt) ∧
      (∀ p, p ∈ found ↔ ∃ names, Wanted entries including exclude needles names ∧
        ¬Shadowed exclude names ∧ p = q.root.below names) ∧
      ((∀ p, p ∈ found ↔ ∃ names, Wanted entries including exclude needles names ∧
          p = q.root.below names) ↔
        ∀ names, Wanted entries including exclude needles names → ¬Shadowed exclude names) ∧
      ((∀ g ∈ exclude, g.EndsBelow) →
        ∀ p, p ∈ found ↔ ∃ names, Wanted entries including exclude needles names ∧
          p = q.root.below names) := by
  have hfound {p : FilePath} :
      p ∈ FilePath.sort ((hits t q including exclude needles).map Met.path) ↔
        ∃ names, Wanted entries including exclude needles names ∧ ¬Shadowed exclude names ∧
          p = q.root.below names := by
    rw [FilePath.mem_sort, List.mem_map]
    exact exists_hit_iff hroot hnames
  have hexact (h : ∀ names, Wanted entries including exclude needles names →
      ¬Shadowed exclude names) (p : FilePath) :
      p ∈ FilePath.sort ((hits t q including exclude needles).map Met.path) ↔
        ∃ names, Wanted entries including exclude needles names ∧ p = q.root.below names := by
    rw [hfound]
    exact exists_congr fun names =>
      ⟨fun ⟨hw, _, hp⟩ => ⟨hw, hp⟩, fun ⟨hw, hp⟩ => ⟨hw, h names hw, hp⟩⟩
  refine ⟨_, search_eq hpatterns hq hbudget, FilePath.pairwise_lt_sort ?_, fun _ => hfound,
    ⟨fun h names hwanted hshadow => ?_, hexact⟩, fun h => hexact fun names hwanted =>
      not_shadowed_of_endsBelow h hwanted.notExcluded⟩
  · -- the hits are among the files met, and those are met once
    rw [List.map_map, hits, metFrom_directory hroot]
    exact (nodup_metBelow hnames q.root "").sublist (List.filter_sublist.map _)
  · -- a wanted file in the shadow is found, and so under names that lead to it without a shadow
    obtain ⟨names', hwanted', hclear, heq⟩ := hfound.mp ((h _).mpr ⟨names, hwanted, rfl⟩)
    obtain ⟨_, _, _, hat, -⟩ := hwanted.isFile
    obtain ⟨_, _, _, hat', -⟩ := hwanted'.isFile
    have hsame := FilePath.below_inj (hnames.isName_of_at? hat) (hnames.isName_of_at? hat')
      (congrArg FilePath.components heq)
    exact hclear (hsame ▸ hshadow)

end Found

/-! ## A site -/

/-- A library and an app, both of which use routers. -/
def siteEntries : List (String × Entry) :=
  let file (text : String) : Entry := .file text.toUTF8 false
  [("node_modules", .directory [("lib.js", file "lib.use('/y', r);")]),
    ("src", .directory [("app.js", file "app.use('/x', r);")])]

def site : FileTree :=
  ⟨.directory [("site", .directory siteEntries)], []⟩

/-- Looks for uses in all files of the site that are not excluded. -/
def siteQuery (exclude : List String) : Query :=
  ⟨⟨"/site"⟩, ["use"], .literal, [], exclude, 1000⟩

theorem entry_site : site.entry ⟨"/site"⟩ = .ok (.directory siteEntries) := by
  rfl

theorem wellNamed_siteEntries : (Entry.directory siteEntries).WellNamed := by
  have hname {s : String} (h : '/' ∉ s.toList ∧ FilePath.stepOfPiece s.toList = some (.name s)) :
      FilePath.IsName s := ⟨h.1, h.2⟩
  have hone {name text : String}
      (h : '/' ∉ name.toList ∧ FilePath.stepOfPiece name.toList = some (.name name)) :
      (Entry.directory [(name, .file text.toUTF8 false)]).WellNamed :=
    .directory (List.nodup_singleton _) (by simpa using hname h) (by simpa using .file _ _)
  refine .directory (by decide +kernel) ?_ ?_
  · simp only [siteEntries, List.mem_cons, List.not_mem_nil, or_false, forall_eq_or_imp, forall_eq]
    exact ⟨hname (by decide +kernel), hname (by decide +kernel)⟩
  · simp only [siteEntries, List.mem_cons, List.not_mem_nil, or_false, forall_eq_or_imp, forall_eq]
    exact ⟨hone (by decide +kernel), hone (by decide +kernel)⟩

/-- Excluding what lies below `node_modules` leaves the app, which is then all that is wanted. -/
theorem search_finds_wanted_unless_shadowed_site :
    let q := siteQuery ["**/node_modules/**"]
    site.entry q.root = .ok (.directory siteEntries) ∧ (Entry.directory siteEntries).WellNamed ∧
      q.patterns ≠ [] ∧ q.budget ≠ 0 ∧ ∃ exclude needles, Compiles q [] exclude needles ∧
        (∀ g ∈ exclude, g.EndsBelow) ∧
        search site q = .ok [⟨"/site/src/app.js"⟩] ∧
        ∀ p, p ∈ [(⟨"/site/src/app.js"⟩ : FilePath)] ↔
          ∃ names, Wanted siteEntries [] exclude needles names ∧ p = q.root.below names := by
  intro q
  have hpatterns : q.patterns ≠ [] := List.cons_ne_nil _ _
  have hbudget : q.budget ≠ 0 := by decide
  have hglobs : (q.excludeGlobs.mapM Glob.parse?).any (fun gs => ∀ g ∈ gs, g.EndsBelow) = true :=
    by decide +kernel
  have hneedles : (Needle.ofQuery? q).isSome = true := by decide +kernel
  obtain ⟨exclude, hexclude, hbelow⟩ := (Option.any_eq_true _ _).mp hglobs
  obtain ⟨needles, hneedles⟩ := Option.isSome_iff_exists.mp hneedles
  have hq : Compiles q [] exclude needles := ⟨rfl, hexclude, hneedles⟩
  have hbelow : ∀ g ∈ exclude, g.EndsBelow := of_decide_eq_true hbelow
  have hsearch : search site q = .ok [⟨"/site/src/app.js"⟩] := by decide +kernel
  obtain ⟨found, hfound, -, -, -, hexact⟩ := search_finds_wanted_unless_shadowed entry_site
    wellNamed_siteEntries hpatterns hq hbudget
  obtain rfl : found = [⟨"/site/src/app.js"⟩] := Except.ok.inj (hfound.symm.trans hsearch)
  exact ⟨entry_site, wellNamed_siteEntries, hpatterns, hbudget, exclude, needles, hq, hbelow,
    hsearch, hexact hbelow⟩

/-- A glob for names that begin with an underscore excludes no file of the site, and hides all. -/
theorem underscore_glob_hides_directory :
    let q := siteQuery ["**/_*"]
    site.entry q.root = .ok (.directory siteEntries) ∧
      ∃ exclude needles, Compiles q [] exclude needles ∧
        Wanted siteEntries [] exclude needles ["src", "app.js"] ∧ search site q = .ok [] := by
  intro q
  have hglobs : (q.excludeGlobs.mapM Glob.parse?).any
      (!Glob.anyMatch · (relativePath ["src", "app.js"])) = true := by decide +kernel
  have hmatch : (Needle.ofQuery? q).any (Needle.anyIn · "app.use('/x', r);") = true := by
    decide +kernel
  obtain ⟨exclude, hexclude, hkept⟩ := (Option.any_eq_true _ _).mp hglobs
  obtain ⟨needles, hneedles, hmatch⟩ := (Option.any_eq_true _ _).mp hmatch
  refine ⟨entry_site, exclude, needles, ⟨rfl, hexclude, hneedles⟩, ⟨?_, ?_, .inl rfl, ?_⟩,
    by decide +kernel⟩
  · exact ⟨_, _, "app.use('/x', r);", rfl, by decide +kernel, hmatch⟩
  · decide +kernel
  · simpa using hkept

end Search.Walk

end RouteAtlas
