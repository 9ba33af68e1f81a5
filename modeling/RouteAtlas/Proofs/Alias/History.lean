import Mathlib.Data.List.Dedup
import RouteAtlas.Proofs.Alias.Resolution

/-!
# A cache over a whole run

A cache outlives changes of the files.  What it answers then is not what the files say, nor what
they said at any one time: every answer is kept from when its question was first asked, and every
configuration, or the lack of one, from when its place was first consulted.  Which places a
question consults depends in turn on what was kept before.

`firstConsulted` tells, from the questions that were asked and the files at that time, when a place
was first consulted.  Nothing else of a run matters for what is answered next (`resolve_in_run`).
-/

set_option autoImplicit false

namespace RouteAtlas.Alias

open FilePath

/-! ## Places that are consulted -/

/-- The beginning of a list up to its first hit, with it. -/
def upToHit {α β : Type} (f : α → Option β) : List α → List α
  | [] => []
  | x :: xs => if (f x).isSome then [x] else x :: upToHit f xs

theorem upToHit_congr {α β : Type} {f g : α → Option β} {xs : List α}
    (h : ∀ x ∈ xs, f x = g x) : upToHit f xs = upToHit g xs := by
  induction xs with
  | nil => rfl
  | cons x xs ih =>
    rw [upToHit, upToHit, h x List.mem_cons_self, ih fun y hy => h y (List.mem_cons_of_mem x hy)]

/-- The places whose configurations are looked at for a question, when places have these. -/
def consulted (configs : Dialect → FilePath → Option Config) (t : FileTree)
    (root importer : FilePath) (specifier : String) : List (FilePath × Dialect) :=
  upToHit (mappedUnder configs t (Text.trim specifier)) (placesOf root importer specifier)

/-- Only what directories in normal form have matters. -/
theorem consulted_congr {configs configs' : Dialect → FilePath → Option Config}
    (h : ∀ d dir, dir.IsNormal → configs d dir = configs' d dir) {t : FileTree}
    {root importer : FilePath} {specifier : String} :
    consulted configs t root importer specifier = consulted configs' t root importer specifier := by
  apply upToHit_congr
  intro place hplace
  rw [mappedUnder, mappedUnder, h place.2 place.1 (isNormal_of_mem_placesOf hplace)]

section

variable {t : FileTree} {d : Dialect} {dir : FilePath} (hdir : dir.IsNormal)

include hdir

/-- Asking for a configuration remembers that one. -/
theorem lookup_configs_config (c : Cache) (d' : Dialect) {dir' : FilePath} (hdir' : dir'.IsNormal) :
    (c.config t d' dir').2.configs.lookup (d, dir.components) =
      (c.configs.lookup (d, dir.components)).or
        (if (dir, d) = (dir', d') then some (d.load t dir) else none) := by
  unfold Cache.config
  dsimp only
  by_cases hplace : (dir, d) = (dir', d')
  · cases hplace
    rw [if_pos rfl]
    cases hknown : c.configs.lookup (d, dir.components) with
    | some known => exact hknown
    | none => exact List.lookup_cons_self
  · have hkey : ((d, dir.components) == (d', dir'.components)) = false := by
      apply beq_false_of_ne
      intro heq
      obtain ⟨rfl, hsteps⟩ := Prod.mk.inj heq
      exact hplace (by rw [hdir.eq_of_components_eq hdir' hsteps])
    rw [if_neg hplace, Option.or_none]
    cases c.configs.lookup (d', dir'.components) with
    | some known => rfl
    | none => exact List.lookup_cons.trans (by rw [hkey])

/-- Looking for the first hit remembers the configurations of all places up to it. -/
theorem lookup_configs_firstHit {specifier : String} {places : List (FilePath × Dialect)}
    (h : ∀ place ∈ places, place.1.IsNormal) (c : Cache) :
    (firstHit t specifier places c).2.configs.lookup (d, dir.components) =
      (c.configs.lookup (d, dir.components)).or
        (if (dir, d) ∈ upToHit (c.mapped t specifier) places then some (d.load t dir)
          else none) := by
  induction places generalizing c with
  | nil => simp [firstHit, upToHit]
  | cons place places ih =>
    obtain ⟨dir', d'⟩ := place
    have hdir' : dir'.IsNormal := h _ List.mem_cons_self
    have hrest : ∀ p ∈ places, p.1.IsNormal := fun p hp => h p (List.mem_cons_of_mem _ hp)
    have halike : Cache.Alike t c (c.config t d' dir').2 := Cache.alike_config c t d' hdir'
    have hmapped : (c.given t d' dir').bind (fun f => f.resolve t specifier) =
        c.mapped t specifier (dir', d') := rfl
    rw [firstHit, upToHit]
    dsimp only
    rw [Cache.config_fst, hmapped]
    cases c.mapped t specifier (dir', d') with
    | some hit => simpa using lookup_configs_config hdir c d' hdir'
    | none =>
      dsimp only
      rw [ih hrest, lookup_configs_config hdir c d' hdir', Option.or_assoc,
        upToHit_congr fun p hp => halike.mapped_eq (hrest p hp) specifier]
      congr 1
      by_cases hplace : (dir, d) = (dir', d') <;> simp [hplace]

variable (root importer : FilePath) (specifier : String)

theorem lookup_configs_resolveAnew (c : Cache) :
    (resolveAnew t root importer specifier c).2.configs.lookup (d, dir.components) =
      (c.configs.lookup (d, dir.components)).or
        (if (dir, d) ∈ consulted (c.given t) t root importer specifier then some (d.load t dir)
          else none) := by
  unfold consulted
  by_cases h : isBare (Text.trim specifier)
  · rw [resolveAnew_of_isBare h,
      lookup_configs_firstHit hdir fun place hplace => isNormal_of_mem_placesOf hplace]
    rfl
  · have hplaces : placesOf root importer specifier = [] := by
      unfold placesOf
      split
      · rfl
      · rw [if_neg h]
    rw [resolveAnew_of_not_isBare (eq_false_of_ne_true h), hplaces]
    simp [upToHit]

end

/-! ## Runs -/

/-- What happens in a run: a question is asked, or the files are changed in any way, such as by a
write or a removal. -/
inductive Event
  | ask (importer : FilePath) (specifier : String)
  | edit (change : FileTree → FileTree)

/-- A question that was asked: the files at that time, and the answer that was given. -/
structure Moment where
  tree : FileTree
  importer : FilePath
  specifier : String
  answer : Option FilePath

/-- What is the same for questions that are taken for one. -/
def Moment.key (m : Moment) : List Component × String :=
  (m.importer.components, m.specifier)

/-- The files, the cache, and what was asked, the latest first. -/
structure Run where
  tree : FileTree
  cache : Cache
  log : List Moment

namespace Run

def start (t : FileTree) : Run := ⟨t, .empty, []⟩

def step (root : FilePath) (r : Run) : Event → Run
  | .ask importer specifier =>
    let (answer, cache) := resolve r.tree root importer specifier r.cache
    ⟨r.tree, cache, ⟨r.tree, importer, specifier, answer⟩ :: r.log⟩
  | .edit change => { r with tree := change r.tree }

/-- The run after these events, in order. -/
def after (root : FilePath) (t : FileTree) (events : List Event) : Run :=
  events.foldl (step root) (start t)

end Run

/-- The answer that was given when a question was first asked. -/
def firstAnswer (log : List Moment) (key : List Component × String) : Option (Option FilePath) :=
  (log.reverse.find? fun m => decide (m.key = key)).map Moment.answer

/-- The files as they were when the configuration of a place was first consulted.  A question that
was asked before consults nothing; another one consults places as far as the configurations say,
each as it was when first consulted before, or else as it is at that time. -/
def firstConsulted (root : FilePath) : List Moment → FilePath × Dialect → Option FileTree
  | [] => fun _ => none
  | m :: earlier =>
    let before := firstConsulted root earlier
    let configs (d : Dialect) (dir : FilePath) := d.load ((before (dir, d)).getD m.tree) dir
    fun place => (before place).or
      (if m.key ∉ earlier.map Moment.key ∧
          place ∈ consulted configs m.tree root m.importer m.specifier then some m.tree
        else none)

/-- The configurations as they were when first consulted; those never consulted, as they are. -/
def frozen (root : FilePath) (log : List Moment) (now : FileTree) (d : Dialect) (dir : FilePath) :
    Option Config :=
  d.load ((firstConsulted root log (dir, d)).getD now) dir

theorem firstAnswer_cons (m : Moment) (log : List Moment) (key : List Component × String) :
    firstAnswer (m :: log) key =
      (firstAnswer log key).or (if m.key = key then some m.answer else none) := by
  unfold firstAnswer
  rw [List.reverse_cons, List.find?_append, List.find?_singleton, Option.map_or]
  by_cases hkey : m.key = key <;> simp [hkey]

/-- What a cache holds at the end of a run. -/
structure Run.Kept (root : FilePath) (r : Run) : Prop where
  asked : r.cache.answers.map Prod.fst = (r.log.map Moment.key).dedup
  answers : ∀ key, r.cache.answers.lookup key = firstAnswer r.log key
  configs : ∀ (d : Dialect) (dir : FilePath), dir.IsNormal →
    r.cache.configs.lookup (d, dir.components) =
      (firstConsulted root r.log (dir, d)).map fun t => d.load t dir

namespace Run.Kept

variable {root : FilePath} {r : Run} (h : r.Kept root)

include h

theorem given_eq_frozen (now : FileTree) {d : Dialect} {dir : FilePath} (hdir : dir.IsNormal) :
    r.cache.given now d dir = frozen root r.log now d dir := by
  rw [Cache.given, h.configs d dir hdir, frozen]
  cases firstConsulted root r.log (dir, d) <;> rfl

theorem lookup_answers_eq_none_iff (key : List Component × String) :
    r.cache.answers.lookup key = none ↔ key ∉ r.log.map Moment.key := by
  rw [← List.mem_dedup, ← h.asked, List.lookup_eq_none_iff, List.mem_map]
  simp only [bne_iff_ne]
  exact ⟨fun hne ⟨p, hp, heq⟩ => hne p hp heq.symm, fun hne p hp heq => hne ⟨p, hp, heq.symm⟩⟩

/-- A question that was asked before adds nothing. -/
theorem ask_known {m : Moment} (hknown : r.cache.answers.lookup m.key = some m.answer) :
    (Run.mk r.tree r.cache (m :: r.log)).Kept root := by
  have hmem : m.key ∈ r.log.map Moment.key := by
    by_contra hnew
    rw [(h.lookup_answers_eq_none_iff m.key).mpr hnew] at hknown
    cases hknown
  refine ⟨?_, fun key => ?_, fun d dir hdir => ?_⟩
  · rw [List.map_cons, List.dedup_cons_of_mem hmem]
    exact h.asked
  · rw [firstAnswer_cons, ← h.answers]
    by_cases hkey : m.key = key
    · rw [← hkey, hknown, Option.some_or]
    · rw [if_neg hkey, Option.or_none]
  · rw [firstConsulted]
    dsimp only
    rw [if_neg fun hnew => hnew.1 hmem, Option.or_none]
    exact h.configs d dir hdir

/-- Another one adds its answer, and the configurations that it consults. -/
theorem ask_new {m : Moment} {c : Cache} (hnew : m.key ∉ r.log.map Moment.key)
    (hc : resolveAnew m.tree root m.importer m.specifier r.cache = (m.answer, c)) :
    (Run.mk r.tree { c with answers := (m.key, m.answer) :: c.answers } (m :: r.log)).Kept
      root := by
  obtain rfl : (resolveAnew m.tree root m.importer m.specifier r.cache).2 = c := by rw [hc]
  refine ⟨?_, fun key => ?_, fun d dir hdir => ?_⟩
  · dsimp only
    rw [List.map_cons, List.map_cons, List.dedup_cons_of_notMem hnew, answers_resolveAnew, h.asked]
  · rw [firstAnswer_cons, ← h.answers]
    dsimp only
    rw [List.lookup_cons, answers_resolveAnew]
    by_cases hkey : m.key = key
    · rw [← hkey, (h.lookup_answers_eq_none_iff m.key).mpr hnew, BEq.rfl, if_pos rfl,
        Option.none_or]
    · rw [if_neg hkey, Option.or_none, beq_false_of_ne (Ne.symm hkey)]
  · -- what is kept decides how far the question looks, and what is kept is what is frozen
    have hgiven : consulted (r.cache.given m.tree) m.tree root m.importer m.specifier =
        consulted (frozen root r.log m.tree) m.tree root m.importer m.specifier :=
      consulted_congr fun d dir hdir => h.given_eq_frozen m.tree hdir
    rw [firstConsulted]
    dsimp only
    rw [lookup_configs_resolveAnew hdir, h.configs d dir hdir, hgiven, Option.map_or]
    apply congrArg (Option.or _)
    unfold frozen
    simp only [hnew, not_false_eq_true, true_and]
    split <;> rfl

theorem step (e : Event) : (r.step root e).Kept root := by
  cases e with
  | edit change => exact ⟨h.asked, h.answers, h.configs⟩
  | ask importer specifier =>
    cases hknown : r.cache.answers.lookup (importer.components, specifier) with
    | some known =>
      rw [Run.step, resolve_of_known hknown]
      exact h.ask_known (m := ⟨r.tree, importer, specifier, known⟩) hknown
    | none =>
      rw [Run.step, resolve_of_new hknown]
      have hnew := (h.lookup_answers_eq_none_iff _).mp hknown
      generalize hanswered : resolveAnew r.tree root importer specifier r.cache = answered
      exact h.ask_new (m := ⟨r.tree, importer, specifier, answered.1⟩) hnew hanswered

end Run.Kept

theorem Run.kept_after (root : FilePath) (t : FileTree) (events : List Event) :
    (Run.after root t events).Kept root := by
  have hrun : ∀ (events : List Event) (r : Run), r.Kept root →
      (events.foldl (Run.step root) r).Kept root := by
    intro events
    induction events with
    | nil => exact fun r h => h
    | cons e events ih => exact fun r h => ih (r.step root e) (h.step e)
  exact hrun events _ ⟨rfl, fun key => rfl, fun d dir hdir => rfl⟩

/-- A cache has an answer for every question that was asked, and none twice. -/
theorem Run.Kept.size_eq {root : FilePath} {r : Run} (h : r.Kept root) :
    r.cache.size = (r.log.map Moment.key).dedup.length := by
  rw [← h.asked, List.length_map, Cache.size]

theorem size_le_resolve (t : FileTree) (root importer : FilePath) (specifier : String) (c : Cache) :
    c.size ≤ (resolve t root importer specifier c).2.size := by
  cases hknown : c.answers.lookup (importer.components, specifier) with
  | some known => rw [resolve_of_known hknown]
  | none =>
    rw [resolve_of_new hknown]
    show c.answers.length ≤ (_ :: (resolveAnew t root importer specifier c).2.answers).length
    rw [answers_resolveAnew]
    exact Nat.le_succ c.answers.length

theorem Run.size_le_foldl (root : FilePath) (events : List Event) (r : Run) :
    r.cache.size ≤ (events.foldl (step root) r).cache.size := by
  induction events generalizing r with
  | nil => exact le_rfl
  | cons e events ih =>
    apply le_trans _ (ih (r.step root e))
    cases e with
    | ask importer specifier =>
      rw [step]
      exact size_le_resolve r.tree root importer specifier r.cache
    | edit change => exact le_rfl

/-- **What a question is answered with at any point of any run.**  One that was asked before has the
answer it was first given.  Another one is resolved anew (`resolveAnew_fst`) with the files as they
are, under configurations that are kept, present or not, from when they were first consulted.  The
cache has as many answers as different questions were asked, and never fewer than before. -/
theorem resolve_in_run (root : FilePath) (t : FileTree) (events : List Event) :
    let r := Run.after root t events
    (∀ (importer : FilePath) (specifier : String),
      (resolve r.tree root importer specifier r.cache).1 =
        (firstAnswer r.log (importer.components, specifier)).getD
          (resolveUnder (frozen root r.log r.tree) r.tree root importer specifier)) ∧
      r.cache.size = (r.log.map Moment.key).dedup.length ∧
      ∀ more, r.cache.size ≤ (Run.after root t (events ++ more)).cache.size := by
  intro r
  have hkept : r.Kept root := Run.kept_after root t events
  refine ⟨fun importer specifier => ?_, hkept.size_eq, fun more => ?_⟩
  · rw [resolve_fst, hkept.answers, resolveAnew_fst,
      resolveUnder_congr fun d dir hdir => hkept.given_eq_frozen r.tree hdir]
  · rw [Run.after, List.foldl_append]
    exact Run.size_le_foldl root more r

/-- A configuration that was looked for in vain is not seen when it is there later. -/
example :
    let source : Entry := .file ByteArray.empty false
    let files : FileTree :=
      ⟨.directory [("r", .directory [("db.ts", source), ("x.ts", source), ("y.ts", source)])], []⟩
    let config := "\x7b\"compilerOptions\": \x7b\"baseUrl\": \".\"\x7d\x7d".toUTF8
    let r := Run.after ⟨"/r"⟩ files
      [.ask ⟨"/r/x.ts"⟩ "db", .edit (·.write ⟨"/r/tsconfig.json"⟩ config false),
        .ask ⟨"/r/y.ts"⟩ "db"]
    r.log.map Moment.answer = [none, none] ∧
      (resolve r.tree ⟨"/r"⟩ ⟨"/r/y.ts"⟩ "db" .empty).1 = some ⟨"/r/./db.ts"⟩ := by
  decide +kernel

end RouteAtlas.Alias
