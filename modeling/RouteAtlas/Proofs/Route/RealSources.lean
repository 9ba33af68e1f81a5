import RouteAtlas.Proofs.Alias.RealFiles
import RouteAtlas.Proofs.Route.RoundTrip
import RouteAtlas.Proofs.Route.Survey
import RouteAtlas.Route.Index

/-!
# Every source is a file

A graph names its sources by text, and nothing in the graph says that a text names a file.  It does:
**each source of a survey is the key of a regular file** (`sources_are_files`), in both directions.
A source is either a file that was read or a file that an imported name stands for.  A file that was
read is there, whichever engine found it.  An imported name stands for what its specifier was
resolved to, and that is a file too.
-/

set_option autoImplicit false

namespace RouteAtlas

variable {t : FileTree} {root : FilePath}

/-- The key of a regular file. -/
def FileTree.IsFileKey (t : FileTree) (key : String) : Prop :=
  ∃ p, t.isFile p = true ∧ t.key p = key

theorem FileTree.isFile_of_readText {p : FilePath} {text : String} (h : t.readText p = .ok text) :
    t.isFile p = true := by
  unfold FileTree.readText at h
  unfold FileTree.isFile
  cases hentry : t.entry p with
  | error e =>
    rw [hentry] at h
    cases h
  | ok e =>
    rw [hentry] at h
    cases e with
    | file content executable => rfl
    | directory entries => cases h
    | link target => cases h

namespace FileRoutes

variable {path : FilePath} {f : FileRoutes}

theorem isFile_of_readSource {source : Syntax.Language × String}
    (h : readSource t path = .ok source) : t.isFile path = true := by
  unfold readSource at h
  cases htext : t.readText path with
  | error e =>
    rw [htext] at h
    cases h
  | ok text => exact FileTree.isFile_of_readText htext

/-- A file that says something was read. -/
theorem isFile_of_alone (h : alone t root path = some f) : t.isFile path = true := by
  rw [alone_eq, Option.map_eq_some_iff] at h
  obtain ⟨source, hsource, -⟩ := h
  cases hread : readSource t path with
  | error e =>
    rw [hread] at hsource
    cases hsource
  | ok source => exact isFile_of_readSource hread

theorem isFileKey_of_fileOf {name key : String} {binding : String × String}
    (h : fileOf t root path .empty name binding = some key) : t.IsFileKey key := by
  unfold fileOf at h
  split at h
  · obtain ⟨file, hfile, hkey⟩ := Option.map_eq_some_iff.mp h
    exact ⟨file, Alias.isFile_of_resolve rfl hfile, hkey⟩
  · cases h

/-- Its imported names stand for files. -/
theorem isFileKey_of_imports (h : alone t root path = some f) {name key : String}
    (himport : f.imports.get? name = some key) : t.IsFileKey key := by
  rw [alone_eq, Option.map_eq_some_iff] at h
  obtain ⟨source, -, rfl⟩ := h
  have hfound := (get?_importsOf t root path (Finding.bindings
    (Finding.ofTree (Syntax.tree source.1 source.2))) .empty name).symm.trans himport
  obtain ⟨binding, -, hbinding⟩ := List.exists_of_findSome?_eq_some hfound
  exact isFileKey_of_fileOf hbinding

end FileRoutes

namespace Survey

open FileRoutes Traversal

/-- What is kept of a survey is what some file says. -/
theorem exists_alone_of_get?_files {ps : List FilePath} {key : String} {f : FileRoutes}
    (h : (files t root ps).get? key = some f) : ∃ p, alone t root p = some f := by
  rw [files_eq] at h
  obtain ⟨f', hf', heq⟩ := List.mem_map.mp (SortedMap.mem_of_get?_ofList h)
  obtain rfl : f' = f := congrArg Prod.snd heq
  obtain ⟨p, -, halone, -⟩ := mem_sayings_iff.mp hf'
  exact ⟨p, halone⟩

/-- A visit serves its file or a file of an imported name. -/
theorem isFileKey_of_serves {ps : List FilePath} {v : Visit} {x : Fact}
    (h : Serves (files t root ps) v x) : t.IsFileKey x.source := by
  cases h with
  | own hfile _ =>
    obtain ⟨p, halone⟩ := exists_alone_of_get?_files hfile
    exact ⟨p, isFile_of_alone halone, (path_of_alone halone).symm⟩
  | target hfile _ _ himport =>
    obtain ⟨p, halone⟩ := exists_alone_of_get?_files hfile
    exact isFileKey_of_imports halone himport
  | middleware hfile _ _ himport _ _ =>
    obtain ⟨p, halone⟩ := exists_alone_of_get?_files hfile
    exact isFileKey_of_imports halone himport

theorem isFileKey_of_mem_sources {ps : List FilePath} {route method source : String}
    (h : source ∈ (routeGraph (files t root ps)).sources route method) : t.IsFileKey source := by
  obtain ⟨v, -, hserves⟩ := mem_sources_routeGraph_iff.mp h
  exact isFileKey_of_serves hserves

theorem isFileKey_of_mem_keys_reverse {ps : List FilePath} {source : String}
    (h : source ∈ (routeGraph (files t root ps)).reverse.keys) : t.IsFileKey source := by
  obtain ⟨routes, hroutes⟩ := SortedMap.mem_keys_iff.mp h
  obtain ⟨route, hroute⟩ := (filled_routeGraph _).routes source routes hroutes
  have hmem : route ∈ (routeGraph (files t root ps)).routes source := by
    rw [RouteGraph.routes, hroutes]
    exact hroute
  rw [routeGraph_eq_recordAll] at hmem
  obtain ⟨method, hsource⟩ := RouteGraph.mem_routes_iff_mem_sources.mp hmem
  rw [← routeGraph_eq_recordAll] at hsource
  exact isFileKey_of_mem_sources hsource

/-- **What is resolved is a file, and so is every source of an index.**  A configuration of any
dialect, whatever it says, maps specifiers to regular files only, and so does the resolver with an
empty cache.  In an index of the files as they are, made with any engine, every source of a route
and every source that has routes is the key of a regular file. -/
theorem sources_are_files (t : FileTree) :
    (∀ (c : Alias.Config) specifier p, c.resolve t specifier = some p → t.isFile p = true) ∧
      (∀ root importer specifier p,
        (Alias.resolve t root importer specifier .empty).1 = some p → t.isFile p = true) ∧
      ∀ engine options root,
        let ix := RouteIndex.ofGraph (graph t engine options root)
        (∀ route methods method sources source, ix.forward.get? route = some methods →
          methods.get? method = some sources → source ∈ sources →
            ∃ p, t.isFile p = true ∧ t.key p = source) ∧
          ∀ source ∈ ix.reverse.keys, ∃ p, t.isFile p = true ∧ t.key p = source := by
  refine ⟨fun c specifier p h => c.isFile_of_resolve h,
    fun root importer specifier p h => Alias.isFile_of_resolve rfl h,
    fun engine options root => ⟨?_, fun source h => isFileKey_of_mem_keys_reverse h⟩⟩
  intro route methods method sources source hmethods hsources hsource
  have hcell : (graph t engine options root).cell? route method = some sources :=
    Option.bind_eq_some_iff.mpr ⟨methods, hmethods, hsources⟩
  exact isFileKey_of_mem_sources (RouteGraph.mem_sources_of_cell? hcell hsource)

/-- An app that names the handler of its route by an alias. -/
def aliasedApp : FileTree :=
  let file (text : String) : Entry := .file text.toUTF8 false
  ⟨.directory [("r", .directory [
    ("app.js", file
      "const show = require('@app/show'); const app = express(); app.get('/u', show);"),
    ("src", .directory [("show.ts", file "export = (req, res) => res.end();")]),
    ("tsconfig.json", file
      "\x7b\"compilerOptions\": \x7b\"paths\": \x7b\"@app/*\": [\"src/*\"]\x7d\x7d\x7d")])], []⟩

/-- What the alias leads to is there, and so are both files that serve the route. -/
theorem sources_are_files_aliasedApp :
    let ix := RouteIndex.ofGraph (graph aliasedApp .walk .default ⟨"/r"⟩)
    (Alias.resolve aliasedApp ⟨"/r"⟩ ⟨"/r/app.js"⟩ "@app/show" .empty).1 =
        some ⟨"/r/src/show.ts"⟩ ∧
      aliasedApp.isFile ⟨"/r/src/show.ts"⟩ = true ∧
      ix.reverse.keys = ["/r/app.js", "/r/src/show.ts"] ∧
      ∀ source ∈ ix.reverse.keys, ∃ p, aliasedApp.isFile p = true ∧ aliasedApp.key p = source := by
  intro ix
  obtain ⟨-, hresolve, hindex⟩ := sources_are_files aliasedApp
  have hfound : (Alias.resolve aliasedApp ⟨"/r"⟩ ⟨"/r/app.js"⟩ "@app/show" .empty).1 =
      some ⟨"/r/src/show.ts"⟩ := by decide +kernel
  exact ⟨hfound, hresolve _ _ _ _ hfound, by decide +kernel, (hindex .walk .default ⟨"/r"⟩).2⟩

end Survey

end RouteAtlas
