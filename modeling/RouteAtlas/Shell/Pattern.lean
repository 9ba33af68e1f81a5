/-!
# File patterns of the shell

A pattern is matched against the whole of a text: `*` stands for any text, `?` for any character and
brackets for one of those listed.  A quoted character stands for itself.
-/

set_option autoImplicit false

namespace RouteAtlas.Shell

/-- A character and whether it is quoted. -/
abbrev Letter := Char × Bool

inductive PatternItem
  | many
  | one
  | oneOf (negated : Bool) (ranges : List (Char × Char))
  | char (c : Char)
  deriving DecidableEq, Repr, Inhabited

abbrev Pattern := List PatternItem

namespace Pattern

/-- The ranges listed between brackets, and what follows the closing one. -/
def ranges? : List Letter → Option (List (Char × Char) × List Letter)
  | [] => none
  | (a, qa) :: (d, qd) :: (b, qb) :: rest =>
    if a = ']' && !qa then some ([], (d, qd) :: (b, qb) :: rest)
    else if d = '-' && !qd && !(b = ']' && !qb) then
      (ranges? rest).map fun (rs, after) => ((a, b) :: rs, after)
    else (ranges? ((d, qd) :: (b, qb) :: rest)).map fun (rs, after) => ((a, a) :: rs, after)
  | (a, qa) :: rest =>
    if a = ']' && !qa then some ([], rest)
    else (ranges? rest).map fun (rs, after) => ((a, a) :: rs, after)

/-- The item that opens with a bracket, and what follows it. -/
def bracket? (ls : List Letter) : Option (PatternItem × List Letter) := do
  let (negated, ls) := match ls with
    | ('!', false) :: rest => (true, rest)
    | _ => (false, ls)
  -- A closing bracket that comes first is one of the characters.
  let (first, ls) := match ls with
    | (']', false) :: rest => ([(']', ']')], rest)
    | _ => ([], ls)
  let (rs, after) ← ranges? ls
  return (.oneOf negated (first ++ rs), after)

/-- Reads at most `n` items. -/
def ofLettersAtMost : Nat → List Letter → Pattern
  | 0, _ => []
  | _, [] => []
  | n + 1, (c, quoted) :: rest =>
    if quoted then .char c :: ofLettersAtMost n rest
    else if c = '*' then .many :: ofLettersAtMost n rest
    else if c = '?' then .one :: ofLettersAtMost n rest
    else if c = '[' then
      match bracket? rest with
      | some (item, after) => item :: ofLettersAtMost n after
      | none => .char c :: ofLettersAtMost n rest
    else .char c :: ofLettersAtMost n rest

def ofLetters (ls : List Letter) : Pattern := ofLettersAtMost ls.length ls

/-- Whether a pattern can match other texts than its own. -/
def isOpen (p : Pattern) : Bool :=
  p.any fun
    | .char _ => false
    | _ => true

def accepts (c : Char) : PatternItem → Bool
  | .many => false
  | .one => true
  | .oneOf negated ranges => ranges.any (fun r => r.1 ≤ c && c ≤ r.2) != negated
  | .char d => c = d

/-- Whether a pattern matches a whole text. -/
def isMatch : Pattern → List Char → Bool
  | [], cs => cs.isEmpty
  | .many :: ps, [] => isMatch ps []
  | .many :: ps, c :: cs => isMatch ps (c :: cs) || isMatch (.many :: ps) cs
  | _ :: _, [] => false
  | p :: ps, c :: cs => accepts c p && isMatch ps cs
termination_by ps cs => ps.length + cs.length

/-- A text without the shortest, or the longest, part at its start that matches. -/
def dropStart (p : Pattern) (longest : Bool) (cs : List Char) : List Char :=
  let cuts := List.range (cs.length + 1)
  match (if longest then cuts.reverse else cuts).find? fun i => p.isMatch (cs.take i) with
  | some i => cs.drop i
  | none => cs

/-- A text without the shortest, or the longest, part at its end that matches. -/
def dropEnd (p : Pattern) (longest : Bool) (cs : List Char) : List Char :=
  let cuts := List.range (cs.length + 1)
  match (if longest then cuts else cuts.reverse).find? fun i => p.isMatch (cs.drop i) with
  | some i => cs.take i
  | none => cs

/-- The steps between slashes. -/
def steps : Pattern → List Pattern
  | [] => [[]]
  | .char '/' :: ps => [] :: steps ps
  | p :: ps =>
    match steps ps with
    | s :: ss => (p :: s) :: ss
    | [] => [[p]]

/-- The text of a pattern that is not open. -/
def text (p : Pattern) : List Char :=
  p.filterMap fun
    | .char c => some c
    | _ => none

end Pattern

end RouteAtlas.Shell
