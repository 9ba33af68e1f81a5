import RouteAtlas.Alias.Babel

/-!
# Extra modules of Metro

The option `extraNodeModules`, whose values are path expressions in a configuration module.  The
usual ones are understood by their shape; an entry whose value is anything else is left out.
-/

set_option autoImplicit false

namespace RouteAtlas.Alias

open Text

structure Metro where
  aliases : List (String × FilePath)
  deriving DecidableEq, Repr, Inhabited

namespace Metro

/-- What is below a key in a specifier: nothing for the key itself. -/
def below? (key specifier : List Char) : Option (List Char) :=
  if specifier = key then some []
  else
    match key.isPrefixOf? specifier with
    | some ('/' :: rest) => some rest
    | _ => none

/-- The target of the key that decides, with what is below it. -/
def hit? (c : Metro) (specifier : String) : Option (FilePath × List Char) :=
  (lastLongest (c.aliases.filterMap fun (key, target) =>
    (below? key.toList specifier.toList).map fun rest =>
      (key.utf8ByteSize, target, rest))).map (·.2)

/-- The file that a specifier is mapped to. -/
def resolve (c : Metro) (t : FileTree) (specifier : String) : Option FilePath :=
  (c.hit? specifier).bind fun (target, rest) =>
    probe t (if rest.isEmpty then target else target.join (String.ofList rest))

/-! ## Reading -/

/-- Parts below a directory, one after the other; leading slashes and empty parts do not count. -/
def joinParts (dir : FilePath) (parts : List (List Char)) : FilePath :=
  parts.foldl (fun p part =>
    let part := part.dropWhile (· = '/')
    if part.isEmpty then p else p.join (String.ofList part)) dir

/-- `__dirname` in a template literal. -/
def directoryMark : List Char := "$\x7b__dirname\x7d".toList

/-- The path that an expression denotes in a module of `dir`. -/
def path? (dir : FilePath) (expr : List Char) : Option FilePath :=
  match ConfigText.soleLiteral expr with
  | some literal =>
    match directoryMark.isPrefixOf? literal with
    | some rest => some (joinParts dir [rest])
    | none =>
      if occursIn "$\x7b".toList literal then none
      else
        match literal with
        | '/' :: _ => some ⟨String.ofList literal⟩
        | '.' :: _ => some (dir.join (String.ofList literal))
        | _ => none
  | none =>
    if occursIn "__dirname".toList expr then some (joinParts dir (ConfigText.literals expr)) else none

/-- The aliases configured directly in a directory. -/
def load (t : FileTree) (dir : FilePath) : Option Metro := do
  let file ← (["metro.config.js", "metro.config.cjs"].map dir.join).find? t.isFile
  let text ← (t.readText file).toOption
  let body ← ConfigText.objectBody (ConfigText.stripComments text.toList) "extraNodeModules".toList
  let aliases := (ConfigText.entries body).filterMap fun (k, v) =>
    (path? dir v).map fun p => (String.ofList k, p)
  guard (!aliases.isEmpty)
  return ⟨aliases⟩

end Metro

end RouteAtlas.Alias
