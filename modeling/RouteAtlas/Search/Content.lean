import RouteAtlas.Regex.Parse
import RouteAtlas.Search.Query

/-!
# Matching contents

What a query looks for in the text of a file.  A literal with a capital letter is looked for as it
is; any other is looked for in the text with its capital letters lowered.
-/

set_option autoImplicit false

namespace RouteAtlas.Search

open Text

/-- One thing to look for. -/
inductive Needle
  | pattern (r : Regex)
  | exact (text : List Char)
  | caseless (lowered : List Char)
  deriving Inhabited

namespace Needle

/-- The needle for a literal. -/
def ofLiteral (text : String) : Needle :=
  let cs := text.toList
  if cs.any isUpper then exact cs else caseless (lower cs)

def isIn (text lowered : List Char) : Needle → Bool
  | pattern r => r.isIn text
  | exact needle => occursIn needle text
  | caseless needle => occursIn needle lowered

/-- What a query looks for; none when a pattern means nothing. -/
def ofQuery? (q : Query) : Option (List Needle) :=
  match q.mode with
  | .regex => q.patterns.mapM fun p => (Regex.parse? p).map pattern
  | .literal => some (q.patterns.map ofLiteral)

/-- Whether a text holds one of the needles. -/
def anyIn (needles : List Needle) (text : String) : Bool :=
  let cs := text.toList
  let lowered := if needles.any (fun | caseless _ => true | _ => false) then lower cs else []
  needles.any (isIn cs lowered)

end Needle

end RouteAtlas.Search
