import RouteAtlas.Alias.ConfigText
import RouteAtlas.Alias.Probe
import RouteAtlas.Json

/-!
# Path mappings of `tsconfig.json`

The compiler options `baseUrl` and `paths`, read from a configuration and those it extends.  Of each
option the first configuration in the chain that has it counts.  The files are JSON with comments
and trailing commas.
-/

set_option autoImplicit false

namespace RouteAtlas.Alias

structure Tsconfig where
  baseUrl : Option FilePath
  /-- The directory that the targets of `paths` are relative to. -/
  pathsBase : FilePath
  paths : List (String × List String)
  deriving DecidableEq, Repr, Inhabited

namespace Tsconfig

/-- What a key captures of a specifier: the text its star stands for, nothing for a key without
a star. -/
def captured? (key specifier : List Char) : Option (List Char) :=
  match Text.breakAt '*' key with
  | some (start, tail) =>
    (start.isPrefixOf? specifier).bind fun rest =>
      (tail.reverse.isPrefixOf? rest.reverse).map List.reverse
  | none => if key = specifier then some [] else none

/-- The targets of the keys that match, longer keys first, each with what its key captured. -/
def targets (c : Tsconfig) (specifier : String) : List String :=
  let hits := c.paths.filterMap fun (key, ts) =>
    (captured? key.toList specifier.toList).map fun rest => (key.utf8ByteSize, ts, rest)
  let hits := hits.mergeSort fun a b => b.1 ≤ a.1
  hits.flatMap fun (_, ts, rest) =>
    ts.map fun target => String.ofList (Text.replaceFirst '*' rest target.toList)

/-- The file that a specifier is mapped to. -/
def resolve (c : Tsconfig) (t : FileTree) (specifier : String) : Option FilePath :=
  ((c.targets specifier).findSome? fun target => probe t (c.pathsBase.join target)).or
    (c.baseUrl.bind fun base => probe t (base.join specifier))

/-! ## Reading -/

/-- The two options as far as a chain of configurations has them. -/
structure Options where
  baseUrl : Option FilePath
  paths : Option (FilePath × List (String × List String))

/-- How many configurations may be extended one after the other. -/
def extendsLimit : Nat := 5

/-- The value of a configuration file. -/
def document? (t : FileTree) (file : FilePath) : Option Json :=
  match t.readText file with
  | .ok text =>
    Json.parse? (String.ofList
      (ConfigText.stripTrailingCommas (ConfigText.stripComments text.toList)))
  | .error _ => none

/-- The file that a configuration extends: as it is named, or with `.json` behind. -/
def extended? (t : FileTree) (dir : FilePath) (document : Json) : Option FilePath := do
  let name ← (document.get? "extends").bind Json.string?
  guard (name.startsWith ".")
  let target := dir.join name
  return if t.isFile target then target else ⟨target.text ++ ".json"⟩

/-- The `paths` of a configuration. -/
def mappings (paths : List (String × Json)) : List (String × List String) :=
  paths.map fun (key, targets) => (key, (targets.array?.map Json.strings).getD [])

/-- The options that a configuration in `dir` has itself, over those it inherits. -/
def Options.override (inherited : Options) (dir : FilePath) (document : Json) : Options :=
  match document.get? "compilerOptions" with
  | none => inherited
  | some compiler =>
    let baseUrl := ((compiler.get? "baseUrl").bind Json.string?).map dir.join
    let paths := ((compiler.get? "paths").bind Json.object?).map fun ps => (dir, mappings ps)
    ⟨baseUrl.or inherited.baseUrl, paths.or inherited.paths⟩

/-- The options of a configuration file, following at most `n` extensions. -/
def options? (t : FileTree) : Nat → FilePath → Option Options
  | n, file => do
    let document ← document? t file
    let dir ← file.parent?
    let inherited :=
      match n with
      | 0 => none
      | n + 1 => (extended? t dir document).bind (options? t n)
    return (inherited.getD ⟨none, none⟩).override dir document

/-- The mappings configured directly in a directory. -/
def load (t : FileTree) (dir : FilePath) : Option Tsconfig := do
  let file ← (["tsconfig.json", "jsconfig.json"].map dir.join).find? t.isFile
  let options ← options? t extendsLimit file
  let home ← file.parent?
  let (pathsDir, paths) := options.paths.getD (home, [])
  guard (options.baseUrl.isSome || !paths.isEmpty)
  return ⟨options.baseUrl, options.baseUrl.getD pathsDir, paths⟩

end Tsconfig

end RouteAtlas.Alias
