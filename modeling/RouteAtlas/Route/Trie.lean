import RouteAtlas.HttpMethod
import RouteAtlas.SortedMap

/-!
# The route trie

Route patterns share their leading segments in a trie.  A segment is a literal, a parameter
(`:id`) or a splat (`*`), told by its text alone; siblings stand in the order in which they are
preferred, literals before parameters before splats, and by text within a kind.  A splat takes
the rest of a path, so nothing is ever stored below one.

Looking a path up follows the one *branch* that takes the most segments.  A branch may stop
early, where no child takes the next segment; among branches that take equally many, the one
with the preferred kind at the first difference wins.  Every node on the branch contributes the
handler it has for the method, or else its wildcard handler.
-/

set_option autoImplicit false

namespace RouteAtlas

/-- The kinds of a segment, in order of preference. -/
inductive SegmentKind
  | literal
  | param
  | splat
  deriving DecidableEq, Repr, Inhabited

namespace SegmentKind

def rank : SegmentKind → Nat
  | literal => 0
  | param => 1
  | splat => 2

def name : SegmentKind → String
  | literal => "literal"
  | param => "param"
  | splat => "splat"

/-- The kind that the text of a segment shows. -/
def ofSegment (segment : String) : SegmentKind :=
  match segment.toList with
  | ':' :: _ => param
  | '*' :: _ => splat
  | _ => literal

/-- Lexicographic order of kind sequences; a proper beginning comes first. -/
def less : List SegmentKind → List SegmentKind → Bool
  | [], [] => false
  | [], _ :: _ => true
  | _ :: _, [] => false
  | a :: as, b :: bs =>
    if a.rank < b.rank then true else if a.rank = b.rank then less as bs else false

end SegmentKind

/-- The name of a parameter segment, without the marks of an optional one. -/
def paramName? (segment : String) : Option String :=
  match segment.toList with
  | ':' :: rest => some (String.ofList ((rest.reverse.dropWhile (· = '?')).reverse))
  | _ => none

/-- Whether segment `a` stands before segment `b` among siblings. -/
def segmentPrecedes (a b : String) : Bool :=
  let ka := (SegmentKind.ofSegment a).rank
  let kb := (SegmentKind.ofSegment b).rank
  ka < kb || (ka = kb && a < b)

inductive RouteTrie (V : Type)
  | node (segment : String) (handlers : SortedMap V) (children : List (RouteTrie V))

namespace RouteTrie

variable {V : Type}

def segment : RouteTrie V → String
  | node s _ _ => s

def handlers : RouteTrie V → SortedMap V
  | node _ h _ => h

def children : RouteTrie V → List (RouteTrie V)
  | node _ _ cs => cs

def kind (t : RouteTrie V) : SegmentKind := .ofSegment t.segment

def leaf (segment : String) : RouteTrie V := node segment ∅ []

/-- The trie without any route. -/
def empty : RouteTrie V := leaf ""

instance : Inhabited (RouteTrie V) := ⟨empty⟩

/-! ## Building -/

/-- The segments up to and with the first splat. -/
def cutAtSplat : List String → List String
  | [] => []
  | s :: rest => if SegmentKind.ofSegment s = .splat then [s] else s :: cutAtSplat rest

/-- The node that a list of segments names: empty segments name nothing, and a splat takes
whatever follows it. -/
def address (segments : List String) : List String :=
  cutAtSplat (segments.filter fun s => !s.isEmpty)

/-- Changes the child with a given segment, which is made in its place if it is missing. -/
def changeChild (segment : String) (f : RouteTrie V → RouteTrie V) :
    List (RouteTrie V) → List (RouteTrie V)
  | [] => [f (leaf segment)]
  | c :: cs =>
    if c.segment = segment then f c :: cs
    else if segmentPrecedes segment c.segment then f (leaf segment) :: c :: cs
    else c :: changeChild segment f cs

/-- Stores a value at an address, replacing what the method had there. -/
def putAt : List String → String → V → RouteTrie V → RouteTrie V
  | [], method, v, node s h cs => node s (h.insert method v) cs
  | seg :: rest, method, v, node s h cs => node s h (changeChild seg (putAt rest method v) cs)

def put (t : RouteTrie V) (segments : List String) (method : String) (v : V) : RouteTrie V :=
  t.putAt (address segments) method v

/-- Why a route cannot be stored. -/
inductive InsertError
  | missingMethod
  deriving DecidableEq, Repr

def InsertError.message : InsertError → String
  | missingMethod => "route trie insert requires a method key"

/-- Stores a value for a route and a method, which must not be empty. -/
def insert (t : RouteTrie V) (segments : List String) (method : String) (v : V) :
    Except InsertError (RouteTrie V) :=
  if method.isEmpty then .error .missingMethod else .ok (t.put segments method v)

/-! ## Looking up -/

/-- A way down from a node: how many segments it takes, the kinds of the nodes that take them,
and the nodes from its start to where it stops. -/
structure Branch (V : Type) where
  consumed : Nat
  kinds : List SegmentKind
  nodes : List (RouteTrie V)

namespace Branch

/-- The branch that goes nowhere. -/
def none : Branch V := ⟨0, [], []⟩

/-- More segments win; with equally many, the preferred kinds. -/
def beats (a b : Branch V) : Bool :=
  a.consumed > b.consumed || (a.consumed = b.consumed && SegmentKind.less a.kinds b.kinds)

/-- The better of two branches, the first when neither beats the other. -/
def better (a b : Branch V) : Branch V :=
  if b.beats a then b else a

/-- The branch below a child that took one segment. -/
def under (kind : SegmentKind) (b : Branch V) : Branch V :=
  ⟨b.consumed + 1, kind :: b.kinds, b.nodes⟩

end Branch

/-- The best branch that enters a child for the segment `s`, with `below` for the rest. -/
def enter (s : String) (remaining : Nat) (below : RouteTrie V → Branch V) (child : RouteTrie V) :
    Option (Branch V) :=
  match child.kind with
  | .literal => if child.segment = s then some ((below child).under .literal) else none
  | .param => some ((below child).under .param)
  | .splat => some ⟨remaining + 1, [.splat], [child]⟩

/-- The best branch from a node. -/
def best : List String → RouteTrie V → Branch V
  | [], t => ⟨0, [], [t]⟩
  | s :: rest, t =>
    let b := (t.children.filterMap (enter s rest.length (best rest))).foldl Branch.better .none
    ⟨b.consumed, b.kinds, t :: b.nodes⟩

/-- What a node gives for a method: its own handler, or else its wildcard handler. -/
def contribution (method : String) (t : RouteTrie V) : Option V :=
  (t.handlers.get? method).or (t.handlers.get? HttpMethod.wildcardKey)

/-- The values along the best branch for a path and a method, from the root down. -/
def lookup (t : RouteTrie V) (segments : List String) (method : String) : List V :=
  (t.best (segments.filter fun s => !s.isEmpty)).nodes.filterMap (contribution method)

/-! ## Reading out -/

mutual

/-- All nodes with their depth, each before its children. -/
def preorder (depth : Nat) : RouteTrie V → List (Nat × RouteTrie V)
  | node s h cs => (depth, node s h cs) :: preorderAll (depth + 1) cs

def preorderAll (depth : Nat) : List (RouteTrie V) → List (Nat × RouteTrie V)
  | [] => []
  | c :: cs => preorder depth c ++ preorderAll depth cs

end

end RouteTrie

end RouteAtlas
