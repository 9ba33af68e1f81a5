import Mathlib.Logic.Relation
import RouteAtlas.Proofs.Alias.Resolution
import RouteAtlas.Proofs.Source.StatementOrder
import RouteAtlas.Route.Survey

/-!
# Reading files in any order

A survey reads its files with one cache, which each of them asks and fills.  While the files stay as
they are a cache is `Honest`: it answers every question as an empty one does, whichever files have
asked whichever questions before.  So what a file says is what it says alone, whether the files are
read one after the other, in another order, or by turns, one question at a time (`Turn`).

With one file for each canonical path, the order does not show in the map of the facts either
(`files_in_any_order`).
-/

set_option autoImplicit false

namespace RouteAtlas

/-! ## Honest caches -/

namespace Alias

variable {t : FileTree} {root : FilePath} {c : Cache}

/-- Whether a cache answers every question as an empty one does. -/
structure Cache.Honest (t : FileTree) (root : FilePath) (c : Cache) : Prop where
  answers (importer : FilePath) (specifier : String) :
    (resolve t root importer specifier c).1 = (resolve t root importer specifier .empty).1

theorem Cache.honest_empty : Cache.empty.Honest t root := ⟨fun _ _ => rfl⟩

/-- **A question leaves a cache honest.**  It remembers the answer for every spelling of the
importing file, but all of them have that answer. -/
theorem Cache.Honest.resolve (h : c.Honest t root) (importer : FilePath) (specifier : String) :
    (resolve t root importer specifier c).2.Honest t root := by
  constructor
  intro importer' specifier'
  rw [resolve_fst, lookup_answers_resolve]
  split
  · rename_i hkey
    obtain ⟨hsteps, rfl⟩ := Prod.mk.inj hkey
    rw [Option.getD_some, h.answers, resolve_empty_fst, resolve_empty_fst,
      resolveUnder_eq_of_components_eq _ t root hsteps]
  · have halike := alike_resolve t root importer specifier c
    rw [resolveAnew_fst_eq_of_alike t root importer' specifier' halike, ← resolve_fst]
    exact h.answers importer' specifier'

end Alias

open Alias (Cache)

variable {t : FileTree} {root : FilePath} {c : Cache}

/-! ## One file -/

namespace FileRoutes

section

variable (path : FilePath) {s r : SortedMap String × Cache} (h : s.2.Honest t root)

include h

theorem honest_withBinding (binding : String × String) :
    (withBinding t root path s binding).2.Honest t root := by
  unfold withBinding
  split
  · exact h
  · exact h.resolve path binding.2

theorem honest_foldl_withBinding (bindings : List (String × String)) :
    (bindings.foldl (withBinding t root path) s).2.Honest t root := by
  induction bindings generalizing s with
  | nil => exact h
  | cons binding bindings ih => exact ih (honest_withBinding path h binding)

variable (h' : r.2.Honest t root) (hfound : s.1 = r.1)

include h' hfound

/-- Which honest cache is asked does not matter for what is found. -/
theorem withBinding_fst_eq (binding : String × String) :
    (withBinding t root path s binding).1 = (withBinding t root path r binding).1 := by
  unfold withBinding
  rw [hfound]
  split
  · exact hfound
  · dsimp only
    rw [h.answers path binding.2, h'.answers path binding.2]

theorem foldl_withBinding_fst_eq (bindings : List (String × String)) :
    (bindings.foldl (withBinding t root path) s).1 =
      (bindings.foldl (withBinding t root path) r).1 := by
  induction bindings generalizing s r with
  | nil => exact hfound
  | cons binding bindings ih =>
    exact ih (honest_withBinding path h binding) (honest_withBinding path h' binding)
      (withBinding_fst_eq path h h' hfound binding)

end

/-- The facts that findings amount to, with these imports. -/
def withImports (t : FileTree) (root path : FilePath) (fs : List Finding)
    (imports : SortedMap String) : FileRoutes :=
  { (ofFindings t root path fs .empty).1 with imports := imports }

theorem ofFindings_eq (path : FilePath) (fs : List Finding) (c : Cache) :
    ofFindings t root path fs c =
      let read := (Finding.bindings fs).foldl (withBinding t root path) (∅, c)
      (withImports t root path fs read.1, read.2) := by
  rw [← importsOf_eq]
  rfl

theorem ofFile_eq (path : FilePath) (c : Cache) :
    ofFile t root path c =
      (readSource t path).map fun source =>
        ofFindings t root path (Finding.ofTree (Syntax.tree source.1 source.2)) c := by
  unfold ofFile
  cases readSource t path <;> rfl

/-- The facts of a file that is read alone, with a cache of its own. -/
def alone (t : FileTree) (root path : FilePath) : Option FileRoutes :=
  (ofFile t root path .empty).toOption.map Prod.fst

theorem alone_eq (t : FileTree) (root path : FilePath) :
    alone t root path =
      (readSource t path).toOption.map fun source =>
        (ofFindings t root path (Finding.ofTree (Syntax.tree source.1 source.2)) .empty).1 := by
  rw [alone, ofFile_eq]
  cases readSource t path with
  | error e => rfl
  | ok source => rw [Except.map, Except.toOption, Except.toOption, Option.map_some, Option.map_some]

theorem alone_eq_some_iff {path : FilePath} {f : FileRoutes} :
    alone t root path = some f ↔ ∃ c, ofFile t root path .empty = .ok (f, c) := by
  unfold alone
  cases ofFile t root path .empty with
  | error e => simp [Except.toOption]
  | ok read => simp [Except.toOption, Prod.ext_iff]

theorem path_of_alone {path : FilePath} {f : FileRoutes} (h : alone t root path = some f) :
    f.path = t.key path := by
  rw [alone_eq, Option.map_eq_some_iff] at h
  obtain ⟨source, -, rfl⟩ := h
  rfl

/-- Findings amount to the same whichever honest cache is asked. -/
theorem ofFindings_fst_eq (h : c.Honest t root) (path : FilePath) (fs : List Finding) :
    (ofFindings t root path fs c).1 = (ofFindings t root path fs .empty).1 := by
  have hfound : ((Finding.bindings fs).foldl (withBinding t root path) (∅, c)).1 =
      ((Finding.bindings fs).foldl (withBinding t root path) (∅, .empty)).1 :=
    foldl_withBinding_fst_eq (s := (∅, c)) (r := (∅, .empty)) path h Cache.honest_empty rfl _
  rw [ofFindings_eq, ofFindings_eq]
  dsimp only
  rw [hfound]

theorem honest_ofFindings (h : c.Honest t root) (path : FilePath) (fs : List Finding) :
    (ofFindings t root path fs c).2.Honest t root := by
  rw [ofFindings_eq]
  exact honest_foldl_withBinding path h _

/-- **A file says what it says alone, whichever honest cache is asked**, and leaves it honest. -/
theorem ofFile_cases (h : c.Honest t root) (path : FilePath) :
    (∃ e, ofFile t root path c = .error e ∧ alone t root path = none) ∨
      ∃ f c', ofFile t root path c = .ok (f, c') ∧ alone t root path = some f ∧
        c'.Honest t root := by
  rw [ofFile_eq, alone_eq]
  cases readSource t path with
  | error e => exact .inl ⟨e, rfl, rfl⟩
  | ok source =>
    have hsame := ofFindings_fst_eq h path (Finding.ofTree (Syntax.tree source.1 source.2))
    have hlater := honest_ofFindings h path (Finding.ofTree (Syntax.tree source.1 source.2))
    rw [Except.map, Except.toOption, Option.map_some, ← hsame]
    generalize ofFindings t root path _ c = read at hlater ⊢
    exact .inr ⟨read.1, read.2, rfl, rfl, hlater⟩

end FileRoutes

/-! ## One file after the other -/

namespace Survey

open FileRoutes

/-- What the files of a survey say, each of them alone. -/
def sayings (t : FileTree) (root : FilePath) (ps : List FilePath) : List FileRoutes :=
  (ps.filterMap (alone t root)).filter fun f => !f.isEmpty

theorem readFiles_fst (h : c.Honest t root) (ps : List FilePath) :
    (readFiles t root c ps).1 = sayings t root ps := by
  induction ps generalizing c with
  | nil => rfl
  | cons p ps ih =>
    unfold readFiles sayings
    rcases ofFile_cases h p with ⟨e, hfile, halone⟩ | ⟨f, c', hfile, halone, hc'⟩
    · rw [hfile, List.filterMap_cons_none halone]
      exact ih h
    · rw [hfile, List.filterMap_cons_some halone, List.filter_cons]
      dsimp only
      rw [ih hc']
      cases f.isEmpty <;> rfl

theorem files_eq (t : FileTree) (root : FilePath) (ps : List FilePath) :
    files t root ps = .ofList ((sayings t root ps).map fun f => (f.path, f)) := by
  rw [files, readFiles_fst Cache.honest_empty]

theorem mem_sayings_iff {ps : List FilePath} {f : FileRoutes} :
    f ∈ sayings t root ps ↔ ∃ p ∈ ps, alone t root p = some f ∧ f.isEmpty = false := by
  rw [sayings, List.mem_filter, List.mem_filterMap, Bool.not_eq_true']
  exact ⟨fun ⟨⟨p, hp, halone⟩, hne⟩ => ⟨p, hp, halone, hne⟩,
    fun ⟨p, hp, halone, hne⟩ => ⟨⟨p, hp, halone⟩, hne⟩⟩

/-- Files with different canonical paths are entered under different keys. -/
theorem nodup_keys {ps : List FilePath} (h : (ps.map t.key).Nodup) :
    (((sayings t root ps).map fun f => (f.path, f)).map Prod.fst).Nodup := by
  have hsub : ((ps.filterMap (alone t root)).map FileRoutes.path).Sublist (ps.map t.key) := by
    clear h
    induction ps with
    | nil => exact .slnil
    | cons p ps ih =>
      cases halone : alone t root p with
      | none =>
        rw [List.filterMap_cons_none halone]
        exact ih.cons _
      | some f =>
        rw [List.filterMap_cons_some halone, List.map_cons, List.map_cons, path_of_alone halone]
        exact ih.cons_cons _
  rw [List.map_map]
  exact h.sublist ((List.filter_sublist.map FileRoutes.path).trans hsub)

end Survey

/-! ## By turns -/

/-- A file that is being read: the files of its bindings that are found so far, and the bindings
that are still to be looked up. -/
structure Reading where
  path : FilePath
  findings : List Finding
  found : SortedMap String
  pending : List (String × String)

namespace Reading

open FileRoutes

/-- A file before its first question; none when it cannot be read. -/
def start? (t : FileTree) (path : FilePath) : Option Reading :=
  (readSource t path).toOption.map fun source =>
    let findings := Finding.ofTree (Syntax.tree source.1 source.2)
    ⟨path, findings, ∅, Finding.bindings findings⟩

/-- What the file says with what is found so far. -/
def facts (t : FileTree) (root : FilePath) (r : Reading) : FileRoutes :=
  withImports t root r.path r.findings r.found

/-- What it says when it is read to the end alone. -/
def outcome (t : FileTree) (root : FilePath) (r : Reading) : FileRoutes :=
  withImports t root r.path r.findings
    (r.pending.foldl (withBinding t root r.path) (r.found, .empty)).1

theorem map_outcome_start? (t : FileTree) (root path : FilePath) :
    (start? t path).map (outcome t root) = alone t root path := by
  rw [alone_eq, start?, Option.map_map]
  congr 1
  funext source
  rw [ofFindings_eq]
  rfl

end Reading

/-- Some file looks up its next binding. -/
inductive Turn (t : FileTree) (root : FilePath) :
    List Reading × Cache → List Reading × Cache → Prop
  | mk (before after : List Reading) (r : Reading) (binding : String × String)
      (rest : List (String × String)) (found : SortedMap String) (c later : Cache)
      (hpending : r.pending = binding :: rest)
      (hlookup : FileRoutes.withBinding t root r.path (r.found, c) binding = (found, later)) :
      Turn t root (before ++ r :: after, c)
        (before ++ { r with found := found, pending := rest } :: after, later)

namespace Turn

open Relation (ReflTransGen)
open FileRoutes

variable {s s' : List Reading × Cache}

/-- A turn leaves the cache honest, and does not change what any file will say in the end. -/
theorem preserves (h : Turn t root s s') (hs : s.2.Honest t root) :
    s'.2.Honest t root ∧ s'.1.map (Reading.outcome t root) = s.1.map (Reading.outcome t root) := by
  obtain ⟨before, after, r, binding, rest, found, c, later, hpending, hlookup⟩ := h
  have hlater := honest_withBinding r.path (s := (r.found, c)) hs binding
  have hfound := withBinding_fst_eq (s := (r.found, c)) (r := (r.found, .empty)) r.path hs
    Cache.honest_empty rfl binding
  rw [hlookup] at hlater hfound
  refine ⟨hlater, ?_⟩
  have houtcome : Reading.outcome t root { r with found := found, pending := rest } =
      r.outcome t root := by
    unfold Reading.outcome
    rw [hpending, List.foldl_cons]
    apply congrArg (withImports t root r.path r.findings)
    exact foldl_withBinding_fst_eq (s := (found, .empty)) r.path Cache.honest_empty
      (honest_withBinding r.path Cache.honest_empty binding) hfound rest
  simp only [List.map_append, List.map_cons, houtcome]

theorem preserves_run (h : ReflTransGen (Turn t root) s s') (hs : s.2.Honest t root) :
    s'.2.Honest t root ∧ s'.1.map (Reading.outcome t root) = s.1.map (Reading.outcome t root) := by
  induction h with
  | refl => exact ⟨hs, rfl⟩
  | tail _ hturn ih =>
    obtain ⟨hhonest, houtcome⟩ := ih
    obtain ⟨hhonest', houtcome'⟩ := hturn.preserves hhonest
    exact ⟨hhonest', houtcome'.trans houtcome⟩

/-- Files can always be read to the end. -/
theorem exists_finished (t : FileTree) (root : FilePath) (rs : List Reading) (c : Cache) :
    ∃ rs' c', ReflTransGen (Turn t root) (rs, c) (rs', c') ∧ ∀ r ∈ rs', r.pending = [] := by
  -- each turn leaves one binding less to be looked up
  induction hn : (rs.map fun r => r.pending.length).sum using Nat.strong_induction_on
    generalizing rs c with
  | h n ih =>
    by_cases hdone : ∀ r ∈ rs, r.pending = []
    · exact ⟨rs, c, .refl, hdone⟩
    · obtain ⟨r, hr, hne⟩ : ∃ r ∈ rs, r.pending ≠ [] := by simpa using hdone
      obtain ⟨binding, rest, hpending⟩ := List.exists_cons_of_ne_nil hne
      obtain ⟨before, after, rfl⟩ := List.append_of_mem hr
      rcases hlookup : withBinding t root r.path (r.found, c) binding with ⟨found, later⟩
      have hturn := Turn.mk before after r binding rest found c later hpending hlookup
      have hless : ((before ++ { r with found := found, pending := rest } :: after).map
          fun r => r.pending.length).sum < n := by
        rw [← hn]
        simp [hpending]
      obtain ⟨rs', c', hrun, hdone⟩ := ih _ hless _ later rfl
      exact ⟨rs', c', .head hturn hrun, hdone⟩

end Turn

namespace Survey

open Relation (ReflTransGen)
open FileRoutes

/-- The map of the facts of files that have been read. -/
def collected (t : FileTree) (root : FilePath) (rs : List Reading) : Traversal.Files :=
  .ofList (((rs.map (Reading.facts t root)).filter fun f => !f.isEmpty).map fun f => (f.path, f))

/-- Files that were read by turns say what each of them says alone. -/
theorem map_facts_eq {ps : List FilePath} {rs : List Reading}
    (h : ReflTransGen (Turn t root) (ps.filterMap (Reading.start? t), .empty) (rs, c))
    (hdone : ∀ r ∈ rs, r.pending = []) :
    rs.map (Reading.facts t root) = ps.filterMap (alone t root) := by
  have houtcome := (Turn.preserves_run h Cache.honest_empty).2
  dsimp only at houtcome
  rw [List.map_filterMap] at houtcome
  simp only [Reading.map_outcome_start?] at houtcome
  rw [← houtcome]
  apply List.map_congr_left
  intro r hr
  rw [Reading.facts, Reading.outcome, hdone r hr, List.foldl_nil]

/-- **What a survey makes of its files does not depend on their order, nor on the cache that they
share.**  The map is the same for every permutation of the files and for every order in which they
take turns to ask; and it holds what each file says when it is read alone with a fresh cache, where
that is anything. -/
theorem files_in_any_order (t : FileTree) (root : FilePath) (ps : List FilePath)
    (h : (ps.map t.key).Nodup) :
    (∀ qs, ps.Perm qs → files t root qs = files t root ps) ∧
      (∀ rs c, ReflTransGen (Turn t root) (ps.filterMap (Reading.start? t), .empty) (rs, c) →
        (∀ r ∈ rs, r.pending = []) → collected t root rs = files t root ps) ∧
      (∃ rs c, ReflTransGen (Turn t root) (ps.filterMap (Reading.start? t), .empty) (rs, c) ∧
        ∀ r ∈ rs, r.pending = []) ∧
      ∀ k f, (files t root ps).get? k = some f ↔
        ∃ p ∈ ps, t.key p = k ∧
          (∃ c, FileRoutes.ofFile t root p .empty = .ok (f, c)) ∧ f.isEmpty = false := by
  refine ⟨fun qs hp => ?_, fun rs c hrun hdone => ?_, Turn.exists_finished .., fun k f => ?_⟩
  · rw [files_eq, files_eq]
    exact SortedMap.ofList_eq_of_perm (nodup_keys h)
      (((hp.filterMap (alone t root)).filter _).map _)
  · rw [files_eq, collected, map_facts_eq hrun hdone]
    rfl
  · rw [files_eq, SortedMap.get?_ofList_eq_some_iff (nodup_keys h), List.mem_map]
    simp only [← alone_eq_some_iff, mem_sayings_iff, Prod.mk.injEq]
    constructor
    · rintro ⟨f, ⟨p, hp, halone, hne⟩, rfl, rfl⟩
      exact ⟨p, hp, (path_of_alone halone).symm, halone, hne⟩
    · rintro ⟨p, hp, rfl, halone, hne⟩
      exact ⟨f, ⟨p, hp, halone, hne⟩, path_of_alone halone, rfl⟩

/-- An app, and the router that it mounts. -/
def appAndRouter : FileTree :=
  let file (text : String) : Entry := .file text.toUTF8 false
  ⟨.directory [("r", .directory [
    ("app.js", file "const app = express(); app.use('/u', require('./users'));"),
    ("users.js", file "const r = Router(); r.get('/', f); module.exports = r;")])], []⟩

/-- They can be read in either order, and by turns. -/
theorem files_in_any_order_appAndRouter :
    let ps : List FilePath := [⟨"/r/app.js"⟩, ⟨"/r/users.js"⟩]
    (ps.map appAndRouter.key).Nodup ∧
      files appAndRouter ⟨"/r"⟩ ps.reverse = files appAndRouter ⟨"/r"⟩ ps ∧
      (∃ rs c, ReflTransGen (Turn appAndRouter ⟨"/r"⟩)
          (ps.filterMap (Reading.start? appAndRouter), .empty) (rs, c) ∧
        collected appAndRouter ⟨"/r"⟩ rs = files appAndRouter ⟨"/r"⟩ ps) ∧
      (files appAndRouter ⟨"/r"⟩ ps).keys = ["/r/app.js", "/r/users.js"] := by
  intro ps
  have hkeys : (ps.map appAndRouter.key).Nodup := by decide +kernel
  obtain ⟨hperm, hturns, ⟨rs, c, hrun, hdone⟩, -⟩ :=
    files_in_any_order appAndRouter ⟨"/r"⟩ ps hkeys
  exact ⟨hkeys, hperm _ (List.reverse_perm ps).symm, ⟨rs, c, hrun, hturns rs c hrun hdone⟩,
    by decide +kernel⟩

end Survey

end RouteAtlas
