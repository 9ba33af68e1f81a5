import RouteAtlas.Regex.CharSet

/-!
# Regular expressions

Patterns and how they match.  A pattern is run from a place in a text by trying its ways in their
order of preference (left before right, more before fewer unless it is lazy), each with what has to
follow, so the first success is the preferred match.  A repetition without a bound goes on only
while it consumes something, which bounds it by the length of the text.
-/

set_option autoImplicit false

namespace RouteAtlas

/-- What a place between two characters must be. -/
inductive Regex.Anchor
  | textStart
  | textEnd
  | lineStart
  | lineEnd
  /-- The same where a carriage return, alone or before a line feed, ends a line too. -/
  | lineStartCrlf
  | lineEndCrlf
  | wordEdge
  | wordInside
  | wordStart
  | wordEnd
  /-- No word character before. -/
  | wordStartHalf
  /-- No word character after. -/
  | wordEndHalf
  deriving DecidableEq, Repr, Inhabited

inductive Regex
  | empty
  | one (s : Regex.CharSet)
  /-- A place; `ascii` tells whether only ASCII letters and digits make words. -/
  | anchor (a : Regex.Anchor) (ascii : Bool)
  | seq (r s : Regex)
  | alt (r s : Regex)
  /-- At least `least` and at most `most` times. -/
  | many (r : Regex) (least : Nat) (most : Option Nat) (greedy : Bool)
  | group (index : Nat) (r : Regex)
  deriving DecidableEq, Repr, Inhabited

namespace Regex

open RouteAtlas.Text

/-- A place in a text, with what the groups have matched so far, the latest first. -/
structure Place where
  offset : Nat
  before : Option Char
  rest : List Char
  groups : List (Nat × List Char)
  deriving Inhabited

namespace Place

/-- What `f` answers at the first place, from this one on, where it answers anything. -/
def findFrom (f : Place → Option Place) : Nat → Option Char → List Char → Option Place
  | n, b, [] => f ⟨n, b, [], []⟩
  | n, b, c :: cs =>
    match f ⟨n, b, c :: cs, []⟩ with
    | some q => some q
    | none => findFrom f (n + 1) (some c) cs

/-- The latest text of a group. -/
def group? (p : Place) (index : Nat) : Option (List Char) :=
  p.groups.lookup index

end Place

/-- Whether a place is what an anchor asks for. -/
def Anchor.holds (a : Anchor) (ascii : Bool) (p : Place) : Bool :=
  let isWord (c : Char) := isWordChar c && (!ascii || c.toNat < 128)
  let wordBefore := p.before.any isWord
  let wordAfter := p.rest.head?.any isWord
  match a with
  | textStart => p.before.isNone
  | textEnd => p.rest.isEmpty
  | lineStart => p.before.all (· = '\n')
  | lineEnd => p.rest.head?.all (· = '\n')
  | lineStartCrlf =>
    p.before.all fun c => c = '\n' || (c = '\r' && p.rest.head? ≠ some '\n')
  | lineEndCrlf =>
    p.rest.head?.all fun c => c = '\r' || (c = '\n' && p.before ≠ some '\r')
  | wordEdge => wordBefore != wordAfter
  | wordInside => wordBefore == wordAfter
  | wordStart => !wordBefore && wordAfter
  | wordEnd => wordBefore && !wordAfter
  | wordStartHalf => !wordBefore
  | wordEndHalf => !wordAfter

/-- A way to go on from a place to a result. -/
abbrev Onward := Place → Option Place

/-- A pattern as a transformer of what follows it. -/
abbrev Matcher := Place → Onward → Option Place

namespace Matcher

/-- Exactly `n` times. -/
def times (m : Matcher) : Nat → Matcher
  | 0, p, k => k p
  | n + 1, p, k => m p fun q => m.times n q k

/-- Up to `n` times; a round that consumes nothing is the last. -/
def upTo (m : Matcher) (greedy : Bool) : Nat → Matcher
  | 0, p, k => k p
  | n + 1, p, k =>
    let more (_ : Unit) := m p fun q =>
      if p.offset < q.offset then m.upTo greedy n q k else none
    if greedy then more () <|> k p else k p <|> more ()

end Matcher

/-- The ways a pattern can match from a place, followed by what comes next. -/
def run : Regex → Matcher
  | empty, p, k => k p
  | one s, p, k =>
    match p.rest with
    | c :: cs => if s.contains c then k ⟨p.offset + 1, some c, cs, p.groups⟩ else none
    | [] => none
  | anchor a ascii, p, k => if a.holds ascii p then k p else none
  | seq r s, p, k => r.run p fun q => s.run q k
  | alt r s, p, k => r.run p k <|> s.run p k
  | many r least most greedy, p, k =>
    Matcher.times r.run least p fun q =>
      Matcher.upTo r.run greedy ((most.map (· - least)).getD q.rest.length) q k
  | group index r, p, k =>
    r.run p fun q =>
      k { q with groups := (index, p.rest.take (q.offset - p.offset)) :: q.groups }

/-- The end of the first match in a text. -/
def find? (r : Regex) (text : List Char) : Option Place :=
  Place.findFrom (fun p => r.run p some) 0 none text

/-- What the groups of the first match hold; group zero is the match itself, and a group that took
no part holds nothing. -/
def groups? (r : Regex) (text : List Char) : Option (Nat → List Char) :=
  ((group 0 r).find? text).map fun p index => (p.group? index).getD []

/-- Whether the pattern matches somewhere in a text. -/
def isIn (r : Regex) (text : List Char) : Bool :=
  (r.find? text).isSome

end Regex

end RouteAtlas
