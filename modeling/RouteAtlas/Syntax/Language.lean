/-!
# Languages

The dialects that source files are written in.  Both read plain modules and type annotations; they
differ in what `<` means in front of an expression.
-/

set_option autoImplicit false

namespace RouteAtlas.Syntax

inductive Language
  | typed
  /-- With markup in expressions. -/
  | typedMarkup
  deriving DecidableEq, Repr, Inhabited

namespace Language

/-- The language of the files with an extension. -/
def ofExtension? : String → Option Language
  | "tsx" | "jsx" => some typedMarkup
  | "ts" | "mts" | "cts" | "js" | "mjs" | "cjs" => some typed
  | _ => none

/-- The name of a language. -/
def name : Language → String
  | typed => "typescript"
  | typedMarkup => "tsx"

end Language

end RouteAtlas.Syntax
