import RouteAtlas.Alias.ConfigText
import RouteAtlas.Alias.Probe
import RouteAtlas.Json

/-!
# Aliases of the Babel module resolver

The options `alias`, `root` and `extensions` of the plugin `module-resolver`, from a JSON
configuration, a configuration module read as text, or a package description.  The longest key that
matches decides; when its target holds no file the roots are tried.
-/

set_option autoImplicit false

namespace RouteAtlas.Alias

open Text

structure Babel where
  dir : FilePath
  aliases : List (String × String)
  roots : List FilePath
  /-- Extensions without their dot; none means the usual ones. -/
  extensions : List String
  deriving DecidableEq, Repr, Inhabited

/-- Among entries with a length, the last of those that are longest. -/
def lastLongest {α : Type} : List (Nat × α) → Option (Nat × α)
  | [] => none
  | e :: es =>
    match lastLongest es with
    | none => some e
    | some best => if best.1 < e.1 then some e else some best

namespace Babel

/-- A target with a rest of the specifier below it. -/
def below (target rest : List Char) : List Char :=
  dropTrailing (· = '/') target ++ '/' :: rest

/-- What an alias makes of a specifier.  A key with a star at its end matches every specifier that
starts with what is before the star; any other key matches itself and what is below it. -/
def expand? (key target specifier : List Char) : Option (List Char) :=
  if key.getLast? = some '*' then
    (key.dropLast.isPrefixOf? specifier).map fun rest =>
      if '*' ∈ target then replaceFirst '*' rest target else below target rest
  else if specifier = key then some target
  else
    match key.isPrefixOf? specifier with
    | some ('/' :: rest) => some (below target rest)
    | _ => none

/-- The file a name stands for under the configured extensions. -/
def find (c : Babel) (t : FileTree) (base : FilePath) : Option FilePath :=
  if c.extensions.isEmpty then probe t base else probeWith t ("" :: c.extensions) base

/-- The file of a target; a bare target names a package and holds none. -/
def target? (c : Babel) (t : FileTree) (target : String) : Option FilePath :=
  if target.startsWith "/" then c.find t ⟨target⟩
  else if target.startsWith "." then c.find t (c.dir.join target)
  else none

/-- The expansion by the alias that decides. -/
def expansion? (c : Babel) (specifier : String) : Option String :=
  (lastLongest (c.aliases.filterMap fun (key, target) =>
    (expand? key.toList target.toList specifier.toList).map fun e =>
      (key.utf8ByteSize, String.ofList e))).map (·.2)

/-- The file that a specifier is mapped to. -/
def resolve (c : Babel) (t : FileTree) (specifier : String) : Option FilePath :=
  ((c.expansion? specifier).bind (c.target? t)).or
    (c.roots.findSome? fun root => c.find t (root.join specifier))

/-! ## Reading -/

/-- Roots with a star are no directories; extensions lose their dots. -/
def build (dir : FilePath) (aliases : List (String × String)) (roots extensions : List String) :
    Babel where
  dir := dir
  aliases := aliases
  roots := (roots.filter fun r => !r.contains '*').map dir.join
  extensions := (extensions.map fun e => String.ofList (e.toList.dropWhile (· = '.'))).filter
    fun e => !e.isEmpty

/-- The options of the first entry of the plugin that has any. -/
def pluginOptions? (plugins : List Json) : Option Json :=
  plugins.findSome? fun plugin => do
    let entry ← plugin.array?
    let name ← entry.head?.bind Json.string?
    guard (["module-resolver", "babel-plugin-module-resolver"].contains name)
    entry[1]?

def ofJson (dir : FilePath) (document : Json) : Option Babel := do
  let plugins ← (document.get? "plugins").bind Json.array?
  let options ← pluginOptions? plugins
  let aliases := ((options.get? "alias").bind Json.object?).getD [] |>.filterMap fun (k, v) =>
    v.string?.map (k, ·)
  let roots :=
    match options.get? "root" with
    | some (.string s) => [s]
    | some (.array xs) => Json.strings xs
    | _ => []
  let extensions := (((options.get? "extensions").bind Json.array?).map Json.strings).getD []
  return build dir aliases roots extensions

/-- The options of a configuration module, found by their shape. -/
def ofModule (dir : FilePath) (text : List Char) : Option Babel :=
  if !occursIn "module-resolver".toList text then none
  else
    let text := ConfigText.stripComments text
    let entries := ((ConfigText.objectBody text "alias".toList).map ConfigText.entries).getD []
    let aliases := entries.filterMap fun (k, v) =>
      (ConfigText.soleLiteral v).map fun v => (String.ofList k, String.ofList v)
    let roots := ((ConfigText.arrayBody text "root".toList).map ConfigText.literals).or
      ((ConfigText.stringValue text "root".toList).map fun r => [r])
    let extensions := (ConfigText.arrayBody text "extensions".toList).map ConfigText.literals
    some (build dir aliases ((roots.getD []).map String.ofList)
      ((extensions.getD []).map String.ofList))

def jsonFiles : List String := [".babelrc", ".babelrc.json", "babel.config.json"]

def moduleFiles : List String :=
  ["babel.config.js", "babel.config.cjs", "babel.config.mjs", ".babelrc.js", ".babelrc.cjs"]

/-- The aliases configured directly in a directory; the first file that is there counts. -/
def load (t : FileTree) (dir : FilePath) : Option Babel :=
  match (jsonFiles.map dir.join).find? t.isFile with
  | some file => do
    let text ← (t.readText file).toOption
    ofJson dir (← Json.parse? (String.ofList (ConfigText.stripComments text.toList)))
  | none =>
    match (moduleFiles.map dir.join).find? t.isFile with
    | some file => do
      let text ← (t.readText file).toOption
      ofModule dir text.toList
    | none => do
      let file := dir.join "package.json"
      guard (t.isFile file)
      let text ← (t.readText file).toOption
      let document ← Json.parse? text
      ofJson dir (← document.get? "babel")

end Babel

end RouteAtlas.Alias
