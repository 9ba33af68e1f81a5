import RouteAtlas.Alias.Dialect

/-!
# Resolving modules

From the specifier of an import to the file it names.  A relative or absolute specifier is probed
where it points.  A bare one is tried against the configurations found in the directories from the
importing file up to the root, the nearest directory first, and in one directory in the order of the
dialects; what no configuration maps is a package and has no file.

A `Cache` remembers every answer, and every configuration once it has been asked for, present or
not.  Directories and files are told apart by the steps of their paths, not by their spelling.
-/

set_option autoImplicit false

namespace RouteAtlas.Alias

open FilePath

structure Cache where
  configs : List ((Dialect × List Component) × Option Config)
  answers : List ((List Component × String) × Option FilePath)
  deriving Inhabited

namespace Cache

def empty : Cache := ⟨[], []⟩

/-- How many questions have been answered. -/
def size (c : Cache) : Nat := c.answers.length

/-- The configuration of a directory, read when it is asked for the first time. -/
def config (c : Cache) (t : FileTree) (d : Dialect) (dir : FilePath) : Option Config × Cache :=
  let key := (d, dir.components)
  match c.configs.lookup key with
  | some known => (known, c)
  | none =>
    let loaded := d.load t dir
    (loaded, { c with configs := (key, loaded) :: c.configs })

end Cache

/-- The directories from one up to the root, nearest first; none when it is not under the root. -/
def levels (root dir : FilePath) : List FilePath :=
  let l := dir.location
  let above := (List.range (l.names.length + 1)).map fun n =>
    (Location.mk l.absolute (l.names.take (l.names.length - n))).toPath
  above.takeWhile (·.isWithin root)

/-- The first configuration among these that maps a specifier. -/
def firstHit (t : FileTree) (specifier : String) :
    List (FilePath × Dialect) → Cache → Option FilePath × Cache
  | [], c => (none, c)
  | (dir, d) :: rest, c =>
    let (config, c) := c.config t d dir
    match config.bind fun f => f.resolve t specifier with
    | some hit => (some hit, c)
    | none => firstHit t specifier rest c

/-- Whether a specifier is relative to the importing file. -/
def isRelative (specifier : String) : Bool :=
  specifier = "." || specifier = ".." || specifier.startsWith "./" || specifier.startsWith "../"

/-- The file that a specifier names for an importing file, without looking at earlier answers. -/
def resolveAnew (t : FileTree) (root importer : FilePath) (specifier : String) (c : Cache) :
    Option FilePath × Cache :=
  let specifier := Text.trim specifier
  if specifier.isEmpty then (none, c)
  else
    match importer.parent? with
    | none => (none, c)
    | some parent =>
      if isRelative specifier then (probe t (parent.join specifier).normalize, c)
      else if specifier.startsWith "/" then (probe t ⟨specifier⟩, c)
      else
        let places := (levels root.normalize parent.normalize).flatMap fun dir =>
          Dialect.order.map (dir, ·)
        firstHit t specifier places c

/-- The file that a specifier names for an importing file; a question asked before has the answer
it had. -/
def resolve (t : FileTree) (root importer : FilePath) (specifier : String) (c : Cache) :
    Option FilePath × Cache :=
  let key := (importer.components, specifier)
  match c.answers.lookup key with
  | some known => (known, c)
  | none =>
    let (answer, c) := resolveAnew t root importer specifier c
    (answer, { c with answers := (key, answer) :: c.answers })

end RouteAtlas.Alias
