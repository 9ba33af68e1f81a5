import RouteAtlas.Text.Blank

/-!
# Options of an index build

Which program searches file contents, how long a search may take, and which files are never looked
at.  Two environment variables override the defaults; a value that makes no sense is passed over.
-/

set_option autoImplicit false

namespace RouteAtlas

/-- A decimal number below 2^64, perhaps with a plus sign. -/
def decimal64? (s : String) : Option Nat :=
  let cs := match s.toList with
    | '+' :: rest => rest
    | cs => cs
  if cs.isEmpty || !cs.all Char.isDigit then none
  else
    let n := cs.foldl (fun n c => n * 10 + (c.toNat - '0'.toNat)) 0
    if n < Nat.pow 2 64 then some n else none

structure Options where
  searchBinary : String
  /-- In milliseconds. -/
  searchTimeout : Nat
  excludeGlobs : List String
  parallel : Bool
  deriving DecidableEq, Repr, Inhabited

namespace Options

/-- Directories that hold no route registrations worth reading. -/
def defaultExcludeGlobs : List String :=
  ["**/node_modules/**", "**/dist/**", "**/build/**", "**/.next/**", "**/coverage/**"]

def default : Options := ⟨"rg", 10000, defaultExcludeGlobs, true⟩

/-- The variable that names the search program. -/
def binaryVariable : String := "ROUTESCOPE_RG"

/-- The variable that holds the time a search may take, in milliseconds. -/
def timeoutVariable : String := "ROUTESCOPE_SEARCH_TIMEOUT_MS"

/-- The defaults, overridden by what the environment says. -/
def ofEnvironment (env : String → Option String) : Options :=
  let binary := ((env binaryVariable).map Text.trim).filter fun b => !b.isEmpty
  let timeout := ((env timeoutVariable).map Text.trim).bind decimal64?
  { default with
    searchBinary := binary.getD default.searchBinary
    searchTimeout := timeout.getD default.searchTimeout }

def withTimeout (o : Options) (milliseconds : Nat) : Options :=
  { o with searchTimeout := milliseconds }

end Options

end RouteAtlas
