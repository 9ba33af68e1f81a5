import RouteAtlas.Alias.Babel
import RouteAtlas.Alias.Jest
import RouteAtlas.Alias.Metro
import RouteAtlas.Alias.Tsconfig

/-!
# Alias dialects

The four conventions by which a project can name its modules, in the order in which they are tried
in one directory, and a configuration of any of them.
-/

set_option autoImplicit false

namespace RouteAtlas.Alias

inductive Dialect
  | tsconfig
  | babel
  | jest
  | metro
  deriving DecidableEq, Repr, Inhabited

/-- The dialects in the order in which they are tried. -/
def Dialect.order : List Dialect := [.tsconfig, .babel, .jest, .metro]

/-- A configuration of some dialect. -/
inductive Config
  | tsconfig (c : Tsconfig)
  | babel (c : Babel)
  | jest (c : Jest)
  | metro (c : Metro)
  deriving Inhabited

namespace Config

/-- The file that a specifier is mapped to. -/
def resolve : Config → FileTree → String → Option FilePath
  | tsconfig c => c.resolve
  | babel c => c.resolve
  | jest c => c.resolve
  | metro c => c.resolve

end Config

/-- The configuration of a dialect found directly in a directory.  One that is missing and one that
cannot be read are the same. -/
def Dialect.load (t : FileTree) (dir : FilePath) : Dialect → Option Config
  | tsconfig => (Tsconfig.load t dir).map .tsconfig
  | babel => (Babel.load t dir).map .babel
  | jest => (Jest.load t dir).map .jest
  | metro => (Metro.load t dir).map .metro

end RouteAtlas.Alias
