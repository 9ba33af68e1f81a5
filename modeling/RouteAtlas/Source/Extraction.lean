import RouteAtlas.Alias.Resolver
import RouteAtlas.Failure
import RouteAtlas.Source.Finding
import RouteAtlas.Syntax.Program

/-!
# Route facts of a source file

From the text of a file to what it says about routes.  The findings are sorted into the parts of a
`FileRoutes`; of several bindings of a name the first whose module has a file counts, those written
as bindings before those made for modules required on the spot; registrations are kept for names
that hold a container.
-/

set_option autoImplicit false

namespace RouteAtlas

open Syntax

/-- The language of a file, by its extension. -/
def languageOf (path : FilePath) : Except Failure Language :=
  let extension := path.extension?.getD ""
  match Language.ofExtension? extension with
  | some l => .ok l
  | none => .error (.unsupportedExtension extension)

/-- The text of a source file.  A file that cannot be read is reported before its extension is. -/
def readSource (t : FileTree) (path : FilePath) : Except Failure (Language × String) :=
  match t.readText path with
  | .ok text => (languageOf path).map (·, text)
  | .error cause => .error (.unreadable path.text cause)

namespace Finding

/-- The names of the containers of a kind. -/
def containers (kind : ContainerKind) (fs : List Finding) : SortedSet :=
  .ofList (fs.filterMap fun
    | container k name => if k = kind then some name else none
    | _ => none)

/-- Names with the modules they are bound to, in the order in which they count. -/
def bindings (fs : List Finding) : List (String × String) :=
  (fs.filterMap fun
    | imported name specifier => some (name, specifier)
    | _ => none) ++
  fs.filterMap fun
    | required specifier => some (requiredName specifier, specifier)
    | _ => none

/-- The names that are handed out. -/
def publishedNames (fs : List Finding) : List String :=
  fs.filterMap fun
    | published name => some name
    | _ => none

/-- Registrations by the name they were made on. -/
def registrations (fs : List Finding) : SortedMap (List Registration) :=
  fs.foldl (fun m f =>
    match f with
    | registered receiver r => m.update receiver fun rs => rs.getD [] ++ [r]
    | _ => m) ∅

end Finding

namespace FileRoutes

/-- The files of bound names: a name keeps the first file that is found for it. -/
def importsOf (t : FileTree) (root path : FilePath) (bindings : List (String × String))
    (cache : Alias.Cache) : SortedMap String × Alias.Cache :=
  bindings.foldl (fun (found, cache) (name, specifier) =>
    if found.contains name then (found, cache)
    else
      match Alias.resolve t root path specifier cache with
      | (some file, cache) => (found.insert name (t.key file), cache)
      | (none, cache) => (found, cache)) (∅, cache)

/-- The facts that findings in a file amount to. -/
def ofFindings (t : FileTree) (root path : FilePath) (fs : List Finding) (cache : Alias.Cache) :
    FileRoutes × Alias.Cache :=
  let (imports, cache) := importsOf t root path (Finding.bindings fs) cache
  let routers := Finding.containers .router fs
  let apps := Finding.containers .app fs
  let facts : FileRoutes :=
    { path := t.key path
      imports := imports
      routers := routers
      apps := apps
      containers := (Finding.registrations fs).filter fun name _ =>
        routers.contains name || apps.contains name
      exportsRouter := (Finding.publishedNames fs).any routers.contains }
  (facts, cache)

/-- The facts of a text that is taken to be in a file. -/
def ofText (t : FileTree) (root path : FilePath) (text : String) (cache : Alias.Cache) :
    Except Failure (FileRoutes × Alias.Cache) :=
  (languageOf path).map fun language =>
    ofFindings t root path (Finding.ofTree (tree language text)) cache

/-- The facts of a file. -/
def ofFile (t : FileTree) (root path : FilePath) (cache : Alias.Cache) :
    Except Failure (FileRoutes × Alias.Cache) := do
  let (language, text) ← readSource t path
  return ofFindings t root path (Finding.ofTree (tree language text)) cache

end FileRoutes

end RouteAtlas
