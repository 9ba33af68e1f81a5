import RouteAtlas.Proofs.SortedMap
import RouteAtlas.Route.Store

/-!
# A store over a whole run

A store is asked for several roots, in several spellings, while the files change.  **Which files the
index of a root was built from is a matter of the history alone** (`indexFor_in_run`): the files at
the last rebuild of the root's key, or, where it was never rebuilt, those at the first call that was
about the key.  A key is that of a root at the time of the call, so two roots can be one at one time
and two at another.

A call says nothing about any other key, and a call that does not rebuild only adds what is missing
(`get?_step`).
-/

set_option autoImplicit false

namespace RouteAtlas.IndexStore

/-! ## Histories -/

/-- What a store can be asked for. -/
inductive Call
  | indexFor (root : FilePath)
  | rebuild (root : FilePath)
  | sourcesForPaths (root : FilePath) (paths : List String)
  | routesForSource (root source : FilePath)
  | roots

/-- The root that a call is about. -/
def Call.root? : Call → Option FilePath
  | indexFor root | rebuild root | sourcesForPaths root _ | routesForSource root _ => some root
  | roots => none

def Call.isRebuild : Call → Bool
  | rebuild _ => true
  | _ => false

/-- A call, and the files at that time.  Between one moment and the next the files may have become
any other. -/
structure Moment where
  tree : FileTree
  call : Call

/-- The key that a call is about. -/
def Moment.key? (m : Moment) : Option String := m.call.root?.map m.tree.key

/-- The store after a call. -/
def step (s : IndexStore) (m : Moment) : IndexStore :=
  match m.call with
  | .indexFor root => (s.indexFor m.tree root).2
  | .rebuild root => (s.rebuild m.tree root).2
  | .sourcesForPaths root paths => (s.sourcesForPaths m.tree root paths).2
  | .routesForSource root source => (s.routesForSource m.tree root source).2
  | .roots => s

/-- The store after many calls. -/
def run (s : IndexStore) (history : List Moment) : IndexStore := history.foldl step s

/-- The files when a key was last rebuilt. -/
def lastRebuilt (history : List Moment) (key : String) : Option FileTree :=
  (history.reverse.find? fun m => m.call.isRebuild && m.key? = some key).map Moment.tree

/-- The files when a call was first about a key. -/
def firstUsed (history : List Moment) (key : String) : Option FileTree :=
  (history.find? fun m => m.key? = some key).map Moment.tree

/-- The files that the index of a key is built from. -/
def origin (history : List Moment) (key : String) : Option FileTree :=
  (lastRebuilt history key).or (firstUsed history key)

theorem origin_concat (history : List Moment) (m : Moment) (key : String) :
    origin (history ++ [m]) key =
      if m.call.isRebuild ∧ m.key? = some key then some m.tree
      else (origin history key).or (if m.key? = some key then some m.tree else none) := by
  unfold origin lastRebuilt firstUsed
  rw [List.reverse_concat, List.find?_append, List.find?_singleton, Option.map_or]
  by_cases hkey : m.key? = some key
  · cases hrebuild : m.call.isRebuild <;> simp [hkey, hrebuild]
  · simp [hkey]

/-! ## What a call does to a store -/

section Step

variable (s : IndexStore) (t : FileTree)

theorem get?_rebuild (root : FilePath) (key : String) :
    (s.rebuild t root).2.indexes.get? key =
      if t.key root = key then some (s.build t key) else s.indexes.get? key := by
  rw [rebuild, SortedMap.get?_insert]
  by_cases hkey : key = t.key root
  · rw [if_pos hkey, if_pos hkey.symm, hkey]
  · rw [if_neg hkey, if_neg (Ne.symm hkey)]

/-- The index of a root is the one that is there, or else it is built. -/
theorem indexFor_fst (root : FilePath) :
    (s.indexFor t root).1 = (s.indexes.get? (t.key root)).getD (s.build t (t.key root)) := by
  unfold indexFor
  cases s.indexes.get? (t.key root) <;> rfl

theorem get?_indexFor (root : FilePath) (key : String) :
    (s.indexFor t root).2.indexes.get? key =
      (s.indexes.get? key).or (if t.key root = key then some (s.build t key) else none) := by
  unfold indexFor
  cases hthere : s.indexes.get? (t.key root) with
  | some ix =>
    by_cases hkey : t.key root = key
    · simp [← hkey, hthere]
    · simp [hkey]
  | none =>
    dsimp only
    rw [get?_rebuild]
    by_cases hkey : t.key root = key
    · simp [← hkey, hthere]
    · simp [hkey]

/-- **What a store has after a call**: the rebuilt index, where the call rebuilds the key; else what
it had, and where it had nothing and the call is about the key, a new index. -/
theorem get?_step (m : Moment) (key : String) :
    (s.step m).indexes.get? key =
      if m.call.isRebuild ∧ m.key? = some key then some (s.build m.tree key)
      else (s.indexes.get? key).or
        (if m.key? = some key then some (s.build m.tree key) else none) := by
  obtain ⟨t, call⟩ := m
  cases call with
  | rebuild root =>
    refine (get?_rebuild s t root key).trans ?_
    simp only [Moment.key?, Call.root?, Call.isRebuild, Option.map_some, Option.some.injEq,
      true_and]
    by_cases hkey : t.key root = key <;> simp [hkey]
  | roots => simp [step, Moment.key?, Call.root?]
  | indexFor root | sourcesForPaths root | routesForSource root =>
    refine (get?_indexFor s t root key).trans ?_
    simp [Moment.key?, Call.root?, Call.isRebuild]

/-- No call changes how indexes are built. -/
theorem build_step (m : Moment) : (s.step m).build = s.build := by
  have hindexFor (root : FilePath) : (s.indexFor m.tree root).2.build = s.build := by
    unfold indexFor
    cases s.indexes.get? (m.tree.key root) <;> rfl
  unfold step
  split
  · exact hindexFor _
  · rfl
  · exact hindexFor _
  · exact hindexFor _
  · rfl

end Step

/-! ## Runs -/

variable (options : Options) (engine : Search.Engine)

theorem build_run (history : List Moment) :
    ((new options engine).run history).build = (new options engine).build := by
  induction history using List.reverseRecOn with
  | nil => rfl
  | append_singleton history m ih =>
    rw [run, List.foldl_concat, ← run, build_step, ih]

/-- A store has an index for every key that a call was about. -/
theorem get?_run (history : List Moment) (key : String) :
    ((new options engine).run history).indexes.get? key =
      (origin history key).map fun t => (new options engine).build t key := by
  induction history using List.reverseRecOn with
  | nil => rfl
  | append_singleton history m ih =>
    rw [run, List.foldl_concat, ← run, get?_step, build_run, ih, origin_concat]
    split
    · rfl
    · rw [Option.map_or]
      split <;> rfl

theorem isSome_origin_iff (history : List Moment) (key : String) :
    (origin history key).isSome ↔ ∃ m ∈ history, m.key? = some key := by
  simp only [origin, lastRebuilt, firstUsed, Option.isSome_or, Option.isSome_map, Bool.or_eq_true,
    List.find?_isSome, List.mem_reverse, Bool.and_eq_true, decide_eq_true_eq]
  constructor
  · rintro (⟨m, hm, -, hkey⟩ | ⟨m, hm, hkey⟩) <;> exact ⟨m, hm, hkey⟩
  · exact .inr

/-- **Which files the index of a root is built from, at any point of any run**: those at the last
rebuild of the root's key, or else those at the first call about the key, or else those that are
there now.  A call leaves the indexes of all other keys as they are; one that is no rebuild leaves
every index as it is, and builds that of its own key where it is missing.  The roots that are listed
are the keys that calls were about, in order and each once. -/
theorem indexFor_in_run (history : List Moment) :
    let s := (new options engine).run history
    let built (t : FileTree) (key : String) :=
      RouteIndex.ofGraph (Survey.graph t engine options ⟨key⟩)
    (∀ t root, (s.indexFor t root).1 =
      built (((lastRebuilt history (t.key root)).or (firstUsed history (t.key root))).getD t)
        (t.key root)) ∧
      (∀ m key, m.key? ≠ some key → (s.step m).indexes.get? key = s.indexes.get? key) ∧
      (∀ m key, m.call.isRebuild = false →
        (s.step m).indexes.get? key =
          (s.indexes.get? key).or (if m.key? = some key then some (built m.tree key) else none)) ∧
      s.roots.Pairwise (· < ·) ∧ ∀ key, key ∈ s.roots ↔ ∃ m ∈ history, m.key? = some key := by
  intro s built
  have hbuilt : s.build = built := build_run options engine history
  refine ⟨fun t root => ?_, fun m key hkey => ?_, fun m key hrebuild => ?_,
    s.indexes.pairwise_keys, fun key => ?_⟩
  · rw [indexFor_fst, hbuilt, get?_run, ← origin]
    cases origin history (t.key root) <;> rfl
  · rw [get?_step, if_neg fun h => hkey h.2, if_neg hkey, Option.or_none]
  · rw [get?_step, if_neg fun h => absurd h.1 (by rw [hrebuild]; exact Bool.false_ne_true), hbuilt]
  · rw [roots, SortedMap.mem_keys_iff, get?_run, ← isSome_origin_iff]
    cases origin history key <;> simp

/-- A root with a route. -/
def servedRoot : FileTree :=
  ⟨.directory [("r", .directory [
    ("a.js", .file "const r = Router(); r.get('/a', f); module.exports = r;".toUTF8 false)])], []⟩

/-- The root when its files are gone. -/
def emptiedRoot : FileTree :=
  ⟨.directory [("r", .directory [])], []⟩

/-- One index serves two spellings of a root, and outlives its files until the root is rebuilt. -/
theorem indexFor_in_run_emptiedRoot :
    let history : List Moment := [⟨servedRoot, .indexFor ⟨"/r"⟩⟩, ⟨emptiedRoot, .roots⟩]
    let s := (new .default .walk).run history
    (s.indexFor emptiedRoot ⟨"/r/."⟩).1 =
        RouteIndex.ofGraph (Survey.graph servedRoot .walk .default ⟨"/r"⟩) ∧
      (s.step ⟨emptiedRoot, .rebuild ⟨"/"⟩⟩).indexes.get? "/r" = s.indexes.get? "/r" ∧
      (s.step ⟨emptiedRoot, .indexFor ⟨"/"⟩⟩).indexes.get? "/r" = s.indexes.get? "/r" ∧
      (s.indexFor emptiedRoot ⟨"/r/."⟩).1.forward.keys = ["/a"] ∧
      (s.rebuild emptiedRoot ⟨"/r/."⟩).1.forward.keys = [] := by
  intro history s
  obtain ⟨hindexFor, hother, hkept, -⟩ := indexFor_in_run .default .walk history
  have hserved : servedRoot.key ⟨"/r"⟩ = "/r" := by decide +kernel
  have hemptied : emptiedRoot.key ⟨"/r/."⟩ = "/r" := by decide +kernel
  have hfirst : firstUsed history "/r" = some servedRoot := by
    simp [history, firstUsed, Moment.key?, Call.root?, hserved]
  have htop : ∀ call : Call, call.root? = some ⟨"/"⟩ →
      (Moment.mk emptiedRoot call).key? ≠ some "/r" := by
    intro call hcall
    have hkey : emptiedRoot.key ⟨"/"⟩ ≠ "/r" := by decide +kernel
    simpa [Moment.key?, hcall] using hkey
  refine ⟨?_, hother _ _ (htop _ rfl), ?_, by decide +kernel, by decide +kernel⟩
  · rw [hindexFor, hemptied, hfirst]
    rfl
  · rw [hkept ⟨emptiedRoot, .indexFor ⟨"/"⟩⟩ _ rfl, if_neg (htop _ rfl), Option.or_none]

end RouteAtlas.IndexStore
