import RouteAtlas.Alias.ConfigText
import RouteAtlas.Alias.Probe
import RouteAtlas.Json
import RouteAtlas.Regex.Parse

/-!
# Module names of Jest

The options `moduleNameMapper` and `moduleDirectories`.  The mappers are patterns in the order they
are written; the first that matches decides, and only its targets are tried.
-/

set_option autoImplicit false

namespace RouteAtlas.Alias

open Text

/-- A pattern as it is written, what it means, and where it leads. -/
structure Jest.Mapper where
  text : String
  pattern : Regex
  targets : List String
  deriving Inhabited

structure Jest where
  rootDir : FilePath
  mappers : List Jest.Mapper
  moduleDirectories : List String
  deriving Inhabited

namespace Jest

/-- A target with `$0` to `$9` replaced by what the groups matched. -/
def substitute (group : Nat → List Char) : List Char → List Char
  | '$' :: d :: cs =>
    if d.isDigit then group (d.toNat - '0'.toNat) ++ substitute group cs
    else '$' :: substitute group (d :: cs)
  | c :: cs => c :: substitute group cs
  | [] => []

/-- The file of a target.  A bare target names a package and holds none. -/
def target? (c : Jest) (t : FileTree) (group : Nat → List Char) (target : String) :
    Option FilePath :=
  let mapped := replaceAll "<rootDir>".toList c.rootDir.text.toList (substitute group target.toList)
  match mapped with
  | '/' :: _ => probe t ⟨String.ofList mapped⟩
  | '.' :: _ => probe t (c.rootDir.join (String.ofList mapped))
  | _ => none

/-- The file that a specifier is mapped to. -/
def resolve (c : Jest) (t : FileTree) (specifier : String) : Option FilePath :=
  let hit := c.mappers.findSome? fun m =>
    (Regex.groups? m.pattern specifier.toList).map fun groups => (m, groups)
  match hit with
  | some (m, groups) => m.targets.findSome? (c.target? t groups)
  | none =>
    (c.moduleDirectories.filter (· ≠ "node_modules")).findSome? fun d =>
      probe t ((c.rootDir.join d).join specifier)

/-! ## Reading -/

/-- Patterns that mean nothing are left out; without patterns and directories there is nothing. -/
def build (rootDir : FilePath) (mappers : List (String × List String)) (dirs : List String) :
    Option Jest :=
  let mappers := mappers.filterMap fun (text, targets) =>
    (Regex.parse? text).map fun r => ⟨text, r, targets⟩
  if mappers.isEmpty && dirs.all (· = "node_modules") then none else some ⟨rootDir, mappers, dirs⟩

def ofJson (dir : FilePath) (document : Json) : Option Jest :=
  let rootDir := (((document.get? "rootDir").bind Json.string?).map dir.join).getD dir
  let mappers := ((document.get? "moduleNameMapper").bind Json.object?).getD [] |>.map fun (k, v) =>
    match v with
    | .string s => (k, [s])
    | .array xs => (k, Json.strings xs)
    | _ => (k, [])
  let dirs := (((document.get? "moduleDirectories").bind Json.array?).map Json.strings).getD []
  build rootDir mappers dirs

/-- The options of a configuration module, found by their shape. -/
def ofModule (dir : FilePath) (text : List Char) : Option Jest :=
  let text := ConfigText.stripComments text
  let root := (ConfigText.stringValue text "rootDir".toList).filter fun r =>
    !occursIn "<rootDir>".toList r
  let rootDir := (root.map fun r => dir.join (String.ofList r)).getD dir
  let entries := ((ConfigText.objectBody text "moduleNameMapper".toList).map
    ConfigText.entries).getD []
  let mappers := entries.map fun (k, v) =>
    (String.ofList k, (ConfigText.literals v).map String.ofList)
  let dirs := ((ConfigText.arrayBody text "moduleDirectories".toList).map
    ConfigText.literals).getD []
  build rootDir mappers (dirs.map String.ofList)

def moduleFiles : List String :=
  ["jest.config.js", "jest.config.ts", "jest.config.cjs", "jest.config.mjs"]

/-- The options configured directly in a directory; the first file that is there counts. -/
def load (t : FileTree) (dir : FilePath) : Option Jest :=
  let file := dir.join "jest.config.json"
  if t.isFile file then do
    let text ← (t.readText file).toOption
    ofJson dir (← Json.parse? text)
  else
    match (moduleFiles.map dir.join).find? t.isFile with
    | some file => do
      let text ← (t.readText file).toOption
      ofModule dir text.toList
    | none => do
      let file := dir.join "package.json"
      guard (t.isFile file)
      let text ← (t.readText file).toOption
      let document ← Json.parse? text
      ofJson dir (← document.get? "jest")

end Jest

end RouteAtlas.Alias
