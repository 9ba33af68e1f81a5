import RouteAtlas.FileTree

/-!
# Probing for a module's file

A module is named without saying which file holds it: the extension may be missing, a directory
stands for its `index` file, and a script extension stands for the typed source it is made from.
Probing tries the files that a name may stand for, in a fixed order, and answers the first that is
a regular file.
-/

set_option autoImplicit false

namespace RouteAtlas.Alias

/-- The extensions that are tried; the empty one tries the name as it is written. -/
def extensions : List String :=
  ["", "ts", "tsx", "js", "jsx", "mjs", "cjs", "mts", "cts", "json"]

/-- The extensions of the sources from which scripts with an extension are made. -/
def typedExtensions : String → List String
  | "js" => ["ts", "tsx"]
  | "jsx" => ["tsx"]
  | "mjs" => ["mts"]
  | "cjs" => ["cts"]
  | _ => []

/-- The files that a name may stand for, in the order in which they are tried. -/
def candidates (exts : List String) (base : FilePath) : List FilePath :=
  exts.map base.appendExtension ++
    (exts.filter fun e => !e.isEmpty).map (fun e => base.join ("index." ++ e)) ++
      (base.extension?.map typedExtensions |>.getD []).map base.withExtension

/-- The first file that a name stands for under the given extensions. -/
def probeWith (t : FileTree) (exts : List String) (base : FilePath) : Option FilePath :=
  (candidates exts base).find? t.isFile

/-- The first file that a name stands for. -/
def probe (t : FileTree) (base : FilePath) : Option FilePath :=
  probeWith t extensions base

theorem isFile_of_probeWith {t : FileTree} {exts : List String} {base p : FilePath}
    (h : probeWith t exts base = some p) : t.isFile p = true :=
  List.find?_some h

end RouteAtlas.Alias
