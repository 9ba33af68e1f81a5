/-!
# Globs

Patterns over slash-separated relative paths.  A star and a question mark also stand for slashes;
two stars between slashes stand for any number of directories.  A path is matched byte by byte, so a
question mark is one byte and a bracketed set of characters is the set of their bytes.

A pattern is refused when a bracket or a brace does not close, a brace closes that was not opened, a
range is out of order, or nothing follows a backslash.
-/

set_option autoImplicit false

namespace RouteAtlas

namespace Glob

inductive Piece
  | literal (bytes : List UInt8)
  /-- One byte. -/
  | any
  /-- Any number of bytes. -/
  | anyRun
  /-- Nothing, or whole directories with their slash, at the start. -/
  | anyPath
  /-- A slash, or whole directories between slashes. -/
  | anyBetween
  /-- A slash and whatever is below. -/
  | anyBelow
  | set (negated : Bool) (ranges : List (UInt8 × UInt8))
  | choice (alternatives : List (List Piece))
  deriving Repr, Inhabited

/-! ## Matching -/

def slash : UInt8 := 47

/-- Whether `k` accepts what follows some number of bytes. -/
def afterSome (k : List UInt8 → Bool) : List UInt8 → Bool
  | [] => k []
  | b :: s => k (b :: s) || afterSome k s

/-- Whether `k` accepts what follows some slash. -/
def afterSlash (k : List UInt8 → Bool) : List UInt8 → Bool
  | [] => false
  | b :: s => (b = slash && k s) || afterSlash k s

/-- Whether the bytes start with a slash and `k` accepts what follows it. -/
def afterFirstSlash (k : List UInt8 → Bool) : List UInt8 → Bool
  | [] => false
  | b :: s => b = slash && k s

mutual

/-- Whether a piece can take a beginning of the bytes so that `k` accepts what follows. -/
def accepts : Piece → (List UInt8 → Bool) → List UInt8 → Bool
  | .literal bs, k, s =>
    match bs.isPrefixOf? s with
    | some rest => k rest
    | none => false
  | .any, k, s =>
    match s with
    | _ :: rest => k rest
    | [] => false
  | .anyRun, k, s => afterSome k s
  | .anyPath, k, s => k s || afterSlash k s
  | .anyBetween, k, s => afterFirstSlash (fun rest => k rest || afterSlash k rest) s
  | .anyBelow, k, s => afterFirstSlash (afterSome k) s
  | .set negated ranges, k, s =>
    match s with
    | b :: rest => (ranges.any (fun r => r.1 ≤ b && b ≤ r.2) != negated) && k rest
    | [] => false
  | .choice alternatives, k, s => alternatives.isEmpty && k s || acceptsOne alternatives k s

/-- The same for pieces one after the other. -/
def acceptsAll : List Piece → (List UInt8 → Bool) → List UInt8 → Bool
  | [], k, s => k s
  | p :: ps, k, s => accepts p (acceptsAll ps k) s

/-- The same for one of several alternatives. -/
def acceptsOne : List (List Piece) → (List UInt8 → Bool) → List UInt8 → Bool
  | [], _, _ => false
  | ps :: rest, k, s => acceptsAll ps k s || acceptsOne rest k s

end

/-! ## Reading -/

/-- The bytes of a character. -/
def bytesOf (c : Char) : List UInt8 := (String.singleton c).toUTF8.toList

/-- An open brace: what stands before it and the alternatives so far, all in reverse. -/
structure Brace where
  before : List Piece
  alternatives : List (List Piece)

/-- What has been read: the open braces and the pieces of the innermost alternative, in reverse. -/
structure Reading where
  braces : List Brace
  pieces : List Piece

namespace Reading

def push (r : Reading) (p : Piece) : Reading := { r with pieces := p :: r.pieces }

/-- A choice without alternatives stands for nothing. -/
def isVoid : Piece → Bool
  | .choice [] => true
  | _ => false

def openBrace (r : Reading) : Reading := ⟨⟨r.pieces, []⟩ :: r.braces, []⟩

/-- A comma separates alternatives in braces and is itself elsewhere. -/
def comma (r : Reading) : Reading :=
  match r.braces with
  | [] => r.push (.literal (bytesOf ','))
  | b :: rest => ⟨{ b with alternatives := r.pieces.reverse :: b.alternatives } :: rest, []⟩

/-- A closing brace; alternatives that stand for nothing are dropped. -/
def closeBrace (r : Reading) : Option Reading :=
  match r.braces with
  | [] => none
  | b :: rest =>
    let all := (r.pieces.reverse :: b.alternatives).reverse
    some ⟨rest, .choice (all.filter fun ps => !ps.all isVoid) :: b.before⟩

/-- Two stars with the character before them; answers how many characters behind them are taken
too. -/
def stars (r : Reading) (before : Option Char) (after : List Char) : Reading × Nat :=
  let plain := ((r.push .anyRun).push .anyRun, 0)
  if r.pieces.isEmpty then
    match after with
    | [] => (r.push .anyPath, 0)
    | '/' :: _ => (r.push .anyPath, 1)
    | _ => plain
  else
    let inBraces := !r.braces.isEmpty
    let mayFollow := before = some '/' || inBraces && (before = some ',' || before = some '\x7b')
    let atEnd := match after with
      | [] => true
      | c :: _ => inBraces && (c = ',' || c = '\x7d')
    let atSlash := after.head? = some '/'
    if !mayFollow || !(atEnd || atSlash) then plain
    else
      let taken := if atEnd then 0 else 1
      match r.pieces with
      | .anyPath :: rest => (⟨r.braces, .anyPath :: rest⟩, taken)
      | .anyBelow :: rest => (⟨r.braces, .anyBelow :: rest⟩, taken)
      | _ :: rest => (⟨r.braces, (if atEnd then .anyBelow else .anyBetween) :: rest⟩, taken)
      | [] => plain

end Reading

/-- The ranges of a bracketed set up to its closing bracket, the last first, and what follows.
`isFirst` and `inRange` tell whether nothing has been read and whether a range is open. -/
def setRanges : Bool → Bool → List (Char × Char) → List Char →
    Option (List (Char × Char) × List Char)
  | _, _, _, [] => none
  | isFirst, inRange, ranges, c :: cs =>
    if c = ']' && !isFirst then some (if inRange then ('-', '-') :: ranges else ranges, cs)
    else if c = '-' && !isFirst && !inRange then setRanges false true ranges cs
    else
      match inRange, ranges with
      | true, (lo, _) :: rest =>
        if c < lo then none else setRanges false false ((lo, c) :: rest) cs
      | _, _ => setRanges false false ((c, c) :: ranges) cs

/-- A range of characters as ranges of bytes: only the bytes next to the dash form a range. -/
def byteRanges (r : Char × Char) : List (UInt8 × UInt8) :=
  let lo := bytesOf r.1
  let hi := bytesOf r.2
  if r.1 = r.2 then lo.map fun b => (b, b)
  else
    lo.dropLast.map (fun b => (b, b)) ++
      [(lo.getLast?.getD 0, hi.head?.getD 0)] ++ hi.tail.map fun b => (b, b)

/-- A bracketed set and what follows it. -/
def bracketed (cs : List Char) : Option (Piece × List Char) :=
  let negated := cs.head? = some '!' || cs.head? = some '^'
  (setRanges true false [] (if negated then cs.tail else cs)).map fun (ranges, rest) =>
    (.set negated (ranges.reverse.flatMap byteRanges), rest)

/-- Reads on, at most `n` steps; `before` is the character before. -/
def read : Nat → Option Char → Reading → List Char → Option Reading
  | _, _, r, [] => some r
  | 0, _, _, _ => none
  | n + 1, before, r, c :: cs =>
    match c with
    | '?' => read n (some c) (r.push .any) cs
    | '*' =>
      match cs with
      | '*' :: after =>
        let (r, taken) := r.stars before after
        read n (some (if taken = 0 then '*' else '/')) r (after.drop taken)
      | _ => read n (some c) (r.push .anyRun) cs
    | '[' =>
      match bracketed cs with
      | some (p, rest) => read n (some ']') (r.push p) rest
      | none => none
    | '\x7b' => read n (some c) r.openBrace cs
    | '\x7d' =>
      match r.closeBrace with
      | some r => read n (some c) r cs
      | none => none
    | ',' => read n (some c) r.comma cs
    | '\\' =>
      match cs with
      | d :: cs => read n (some d) (r.push (.literal (bytesOf d))) cs
      | [] => none
    | _ => read n (some c) (r.push (.literal (bytesOf c))) cs

end Glob

/-- A pattern over relative paths. -/
structure Glob where
  pieces : List Glob.Piece
  deriving Inhabited

namespace Glob

/-- The pattern that a text denotes, if it is one. -/
def parse? (text : String) : Option Glob := do
  let cs := text.toList
  let r ← read (cs.length + 1) none ⟨[], []⟩ cs
  if r.braces.isEmpty then some ⟨r.pieces.reverse⟩ else none

/-- Whether a path matches.  Two stars alone match everything. -/
def isMatch (g : Glob) (path : String) : Bool :=
  match g.pieces with
  | [.anyPath] => true
  | ps => acceptsAll ps List.isEmpty path.toUTF8.toList

/-- Whether a path matches one of several patterns. -/
def anyMatch (gs : List Glob) (path : String) : Bool :=
  gs.any (·.isMatch path)

end Glob

end RouteAtlas
