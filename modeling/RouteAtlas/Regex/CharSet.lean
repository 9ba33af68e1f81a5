import RouteAtlas.Text.Blank
import RouteAtlas.Text.Category
import RouteAtlas.Text.LetterCase
import RouteAtlas.Text.WordChar

/-!
# Sets of characters

What one position of a pattern accepts, as a value: ranges, the named classes, and the operations
of bracketed classes.  Case is settled at the ranges: a range without case holds a character when
it holds one that differs from it only in case, so a complement is taken after that.
-/

set_option autoImplicit false

namespace RouteAtlas.Regex

open RouteAtlas.Text

inductive CharSet
  | range (lo hi : Char) (ignoreCase : Bool)
  | digit
  | space
  | word
  /-- The characters whose general category starts with these letters. -/
  | category (code : List Char) (ignoreCase : Bool)
  | union (s t : CharSet)
  | inter (s t : CharSet)
  | compl (s : CharSet)
  deriving DecidableEq, Repr, Inhabited

namespace CharSet

/-- Membership. -/
def contains : CharSet → Char → Bool
  | range lo hi ignoreCase, c =>
    if ignoreCase then (c :: caseVariants c).any fun d => lo ≤ d && d ≤ hi else lo ≤ c && c ≤ hi
  | digit, c => isDecimalDigit c
  | space, c => isBlank c
  | word, c => isWordChar c
  | category code ignoreCase, c =>
    (c :: if ignoreCase then caseVariants c else []).any fun d => code.isPrefixOf (Text.category d)
  | union s t, c => s.contains c || t.contains c
  | inter s t, c => s.contains c && t.contains c
  | compl s, c => !s.contains c

/-- The set of one character. -/
def single (c : Char) (ignoreCase : Bool) : CharSet := range c c ignoreCase

/-- The ASCII characters. -/
def ascii : CharSet := range '\x00' '\x7f' false

/-- The set of all characters. -/
def all : CharSet := compl (inter digit (compl digit))

/-- The set of no character. -/
def none : CharSet := inter digit (compl digit)

def diff (s t : CharSet) : CharSet := inter s (compl t)

/-- What is in exactly one of two sets. -/
def symmDiff (s t : CharSet) : CharSet := union (diff s t) (diff t s)

def unions : List CharSet → CharSet
  | [] => none
  | [s] => s
  | s :: ss => union s (unions ss)

def ranges (ignoreCase : Bool) (rs : List (Char × Char)) : CharSet :=
  unions (rs.map fun r => range r.1 r.2 ignoreCase)

/-- The set that a property names, if it is one: a general category or one of a few sets that are
told without a table.  Names are compared in lower case and without blanks, underscores, dashes and
a leading `is`. -/
def property? (ignoreCase : Bool) (text : String) : Option CharSet :=
  let plain := (text.toList.filter fun c => c ≠ ' ' && c ≠ '_' && c ≠ '-').map Char.toLower
  let plain := if ['i', 's'].isPrefixOf plain then plain.drop 2 else plain
  match String.ofList plain with
  | "any" => some all
  | "ascii" => some ascii
  | "assigned" => some (compl (category ['C', 'n'] false))
  | "whitespace" | "space" | "wspace" => some space
  | "lc" | "casedletter" =>
    some (unions (["Lu", "Ll", "Lt"].map fun code => category code.toList ignoreCase))
  | name => (categoryCode? name).map (category · ignoreCase)

/-- The classes that are named in brackets; they are all ASCII. -/
def named? (ignoreCase : Bool) : String → Option CharSet
  | "alnum" => some (ranges ignoreCase [('0', '9'), ('A', 'Z'), ('a', 'z')])
  | "alpha" => some (ranges ignoreCase [('A', 'Z'), ('a', 'z')])
  | "ascii" => some (ranges ignoreCase [('\x00', '\x7f')])
  | "blank" => some (ranges ignoreCase [('\t', '\t'), (' ', ' ')])
  | "cntrl" => some (ranges ignoreCase [('\x00', '\x1f'), ('\x7f', '\x7f')])
  | "digit" => some (ranges ignoreCase [('0', '9')])
  | "graph" => some (ranges ignoreCase [('!', '~')])
  | "lower" => some (ranges ignoreCase [('a', 'z')])
  | "print" => some (ranges ignoreCase [(' ', '~')])
  | "punct" => some (ranges ignoreCase [('!', '/'), (':', '@'), ('[', '\x60'), ('\x7b', '~')])
  | "space" => some (ranges ignoreCase [('\t', '\r'), (' ', ' ')])
  | "upper" => some (ranges ignoreCase [('A', 'Z')])
  | "word" => some (ranges ignoreCase [('0', '9'), ('A', 'Z'), ('_', '_'), ('a', 'z')])
  | "xdigit" => some (ranges ignoreCase [('0', '9'), ('A', 'F'), ('a', 'f')])
  | _ => Option.none

end CharSet

end RouteAtlas.Regex
