import RouteAtlas.FileTree
import RouteAtlas.Proofs.FilePath.Steps
import RouteAtlas.Proofs.SortedMap

/-!
# Trees with names

Nothing in a tree says that the entries of a directory have names, or names of their own.  In a
file system they do (`Entry.WellNamed`), and then the names on the way to an entry say which one it
is: every name is a step, and a directory lists what its names find.

Whatever a tree is, its regular files lie in directories: the path of one has a parent
(`FileTree.exists_parent?_of_isFile`).
-/

set_option autoImplicit false

namespace RouteAtlas

open Text

namespace Entry

/-- Whether in every directory each entry has a name, and no two of them the same. -/
inductive WellNamed : Entry → Prop
  | file (content : ByteArray) (executable : Bool) : WellNamed (file content executable)
  | link (target : String) : WellNamed (link target)
  | directory {entries : List (String × Entry)} (distinct : (entries.map Prod.fst).Nodup)
      (isName : ∀ e ∈ entries, FilePath.IsName e.1) (below : ∀ e ∈ entries, WellNamed e.2) :
      WellNamed (directory entries)

@[simp] theorem at?_nil (e : Entry) : e.at? [] = some e := rfl

theorem at?_directory_cons (entries : List (String × Entry)) (name : String)
    (names : List String) :
    (directory entries).at? (name :: names) = (entries.lookup name).bind (·.at? names) := rfl

/-- A way through names ends where something other than a directory stands. -/
theorem at?_file_eq_some_iff {content : ByteArray} {executable : Bool} {names : List String}
    {e : Entry} :
    (file content executable).at? names = some e ↔ names = [] ∧ e = file content executable := by
  cases names <;> simp [at?, child?, eq_comm]

theorem at?_link_eq_some_iff {target : String} {names : List String} {e : Entry} :
    (link target).at? names = some e ↔ names = [] ∧ e = link target := by
  cases names <;> simp [at?, child?, eq_comm]

/-- The way to what is below an entry of a directory begins with the name of the entry. -/
theorem WellNamed.at?_cons_of_mem {entries : List (String × Entry)}
    (h : (Entry.directory entries).WellNamed) {name : String} {e : Entry}
    (he : (name, e) ∈ entries) (names : List String) :
    (Entry.directory entries).at? (name :: names) = e.at? names := by
  cases h with
  | directory distinct _ _ =>
    rw [at?_directory_cons, (lookup_eq_some_iff_mem distinct).mpr he]
    rfl

/-- And no way begins otherwise. -/
theorem WellNamed.exists_mem_of_at?_cons {entries : List (String × Entry)}
    (h : (Entry.directory entries).WellNamed) {name : String} {names : List String} {e : Entry}
    (hat : (Entry.directory entries).at? (name :: names) = some e) :
    ∃ c, (name, c) ∈ entries ∧ c.at? names = some e := by
  cases h with
  | directory distinct _ _ =>
    obtain ⟨c, hc, hat⟩ := Option.bind_eq_some_iff.mp hat
    exact ⟨c, (lookup_eq_some_iff_mem distinct).mp hc, hat⟩

/-- All names on the way to an entry are names. -/
theorem WellNamed.isName_of_at? {e e' : Entry} (h : e.WellNamed) {names : List String}
    (hat : e.at? names = some e') : ∀ s ∈ names, FilePath.IsName s := by
  induction h generalizing names with
  | file => simp [(at?_file_eq_some_iff.mp hat).1]
  | link => simp [(at?_link_eq_some_iff.mp hat).1]
  | @directory entries distinct isName below ih =>
    cases names with
    | nil => exact nofun
    | cons name names =>
      have h : (Entry.directory entries).WellNamed := .directory distinct isName below
      obtain ⟨c, hc, hat⟩ := h.exists_mem_of_at?_cons hat
      intro s hs
      rcases List.mem_cons.mp hs with rfl | hs
      · exact isName _ hc
      · exact ih _ hc hat s hs

theorem exists_directory_of_at?_cons {e c : Entry} {name : String} {names : List String}
    (h : e.at? (name :: names) = some c) : ∃ entries, e = directory entries := by
  cases e with
  | directory entries => exact ⟨entries, rfl⟩
  | file content executable => simp [at?, child?] at h
  | link target => simp [at?, child?] at h

end Entry

/-! ## Files lie in directories -/

namespace FileTree

variable {t : FileTree} {p : FilePath}

/-- What is walked are the pieces that are not empty, and a dot for a slash at the end. -/
theorem mem_steps {text s : String} (h : s ∈ steps text) :
    s = "." ∨ ∃ q ∈ pieces '/' text.toList, s = String.ofList q ∧ q ≠ [] := by
  obtain ⟨q, hq, rfl⟩ := List.mem_map.mp h
  have hpiece (hq : q ∈ (pieces '/' text.toList).filter fun p => !p.isEmpty) :
      q ∈ pieces '/' text.toList ∧ q ≠ [] := by simpa using hq
  split at hq
  · obtain hq | hq := List.mem_append.mp hq
    · exact .inr ⟨q, (hpiece hq).1, rfl, (hpiece hq).2⟩
    · rw [List.mem_singleton.mp hq]
      exact .inl rfl
  · exact .inr ⟨q, (hpiece hq).1, rfl, (hpiece hq).2⟩

/-- A name in a path is walked. -/
theorem steps_ne_nil {s : String} (h : .name s ∈ p.components) : steps p.text ≠ [] := by
  have hlead : .name s ∉ p.lead := by
    rw [FilePath.lead]
    split
    · simp
    · split <;> simp
  rw [FilePath.components_eq, FilePath.filterMap_stepOfPiece_body] at h
  obtain ⟨q, hq, hs⟩ := List.mem_filterMap.mp ((List.mem_append.mp h).resolve_left hlead)
  have hne : q ≠ [] := by
    rintro rfl
    cases hs
  have hmem : q ∈ (pieces '/' p.text.toList).filter fun p => !p.isEmpty :=
    List.mem_filter.mpr ⟨hq, by simpa using hne⟩
  unfold steps
  dsimp only
  split
  · simp
  · exact mt List.map_eq_nil_iff.mp (List.ne_nil_of_mem hmem)

/-- A path to the top is walked by dots. -/
theorem eq_dot_of_mem_steps (h : p.components = [.top]) {s : String} (hs : s ∈ steps p.text) :
    s = "." := by
  obtain rfl | ⟨q, hq, rfl, hne⟩ := mem_steps hs
  · rfl
  · have habsolute : p.isAbsolute = true :=
      FilePath.isAbsolute_iff_head?_components.mpr (by rw [h]; rfl)
    rw [FilePath.components_eq, FilePath.lead, if_pos habsolute,
      FilePath.filterMap_stepOfPiece_body, List.singleton_append, List.cons.injEq] at h
    have hidle := FilePath.stepOfPiece_eq_none_iff.mp (List.filterMap_eq_nil_iff.mp h.2 q hq)
    rw [show q = ['.'] by simpa [hne] using hidle]

/-- Dots lead nowhere else. -/
theorem descend_dots {top : Entry}
    {follow : List String → List String → Except OsError (List String)} {place : List String}
    {entries : List (String × Entry)} (hplace : top.at? place = some (.directory entries))
    {steps : List String} (h : ∀ s ∈ steps, s = ".") :
    descend top follow place steps = .ok place := by
  induction steps with
  | nil => rfl
  | cons s steps ih =>
    rw [descend, hplace]
    simp only [if_pos (h s List.mem_cons_self)]
    exact ih fun r hr => h r (List.mem_cons_of_mem s hr)

/-- A step is taken in a directory only, and then the top is one. -/
theorem exists_directory_of_descend_cons {top : Entry}
    {follow : List String → List String → Except OsError (List String)} {place : List String}
    {s : String} {rest reached : List String}
    (h : descend top follow place (s :: rest) = .ok reached) :
    ∃ entries, top = .directory entries := by
  rw [descend] at h
  cases hat : top.at? place with
  | none => simp [hat] at h
  | some e =>
    cases place with
    | nil =>
      cases e with
      | directory entries => exact ⟨entries, Option.some.inj hat⟩
      | file content executable => simp [hat] at h
      | link target => simp [hat] at h
    | cons name names => exact Entry.exists_directory_of_at?_cons hat

/-- A path that leads anywhere is walked from the top or from the working directory. -/
theorem descend_of_place {reached : List String} (h : t.place p = .ok reached) :
    p.text ≠ "" ∧
      descend t.top (follow t.top linkLimit) (if p.isAbsolute then [] else t.workingDirectory)
        (steps p.text) = .ok reached := by
  unfold place at h
  split at h
  · cases h
  · split at h
    · cases h
    · rename_i hne
      exact ⟨fun heq => hne (by rw [heq]; rfl), h⟩

theorem place_of_entry {e : Entry} (h : t.entry p = .ok e) :
    ∃ place, t.place p = .ok place ∧ t.top.at? place = some e := by
  unfold entry at h
  cases hplace : t.place p with
  | error cause => simp [hplace, bind, Except.bind] at h
  | ok place =>
    refine ⟨place, rfl, ?_⟩
    simp only [hplace, bind, Except.bind] at h
    split at h
    · rename_i e' he
      cases h
      exact he
    · cases h

theorem place_of_isFile (h : t.isFile p = true) :
    ∃ place content executable, t.place p = .ok place ∧
      t.top.at? place = some (.file content executable) := by
  unfold isFile at h
  split at h
  · rename_i e he
    obtain ⟨place, hplace, hat⟩ := place_of_entry he
    cases e with
    | file content executable => exact ⟨place, content, executable, hplace, hat⟩
    | directory entries => cases h
    | link target => cases h
  · cases h

/-- Where a file is reached by a name, the top is a directory. -/
theorem exists_directory_of_isFile (h : t.isFile p = true) {name : String}
    (hname : .name name ∈ p.components) : ∃ entries, t.top = .directory entries := by
  obtain ⟨place, content, executable, hplace, -⟩ := place_of_isFile h
  obtain ⟨s, rest, hcons⟩ := List.exists_cons_of_ne_nil (steps_ne_nil hname)
  have hdescend := (descend_of_place hplace).2
  rw [hcons] at hdescend
  exact exists_directory_of_descend_cons hdescend

/-- **A regular file lies in a directory**, so its path has a parent. -/
theorem exists_parent?_of_isFile {entries : List (String × Entry)}
    (htop : t.top = .directory entries) (h : t.isFile p = true) :
    ∃ dir, p.parent? = some dir := by
  obtain ⟨place, content, executable, hplace, hat⟩ := place_of_isFile h
  obtain ⟨hne, hdescend⟩ := descend_of_place hplace
  refine FilePath.exists_parent? (mt FilePath.text_of_components_eq_nil hne) fun hcomponents => ?_
  have habsolute : p.isAbsolute = true :=
    FilePath.isAbsolute_iff_head?_components.mpr (by rw [hcomponents]; rfl)
  -- what is reached by dots from the top is the top, which is no file
  have hat_top : t.top.at? [] = some (.directory entries) := congrArg some htop
  rw [if_pos habsolute, descend_dots hat_top fun _ => eq_dot_of_mem_steps hcomponents] at hdescend
  cases hdescend
  rw [htop] at hat
  cases hat

end FileTree

end RouteAtlas
