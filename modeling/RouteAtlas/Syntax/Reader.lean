import RouteAtlas.Syntax.Token

/-!
# Reading nodes

The reading of a text into nodes, one token ahead.  A `Node` is a tree that still knows where it
stands in the text; comments are set aside while nodes are read, and are put back at the end, each
into the innermost node that began before it and ended after it (`Node.toTree`).

A `Reader` may fail, and an alternative then starts over from the same place.  Grammar rules call
each other through a parameter (`Grammar`), so that each is a plain definition; `Program` ties the
knot with a bound on the depth.
-/

set_option autoImplicit false

namespace RouteAtlas.Syntax

inductive Node
  | mk (kind : Kind) (label : Label) (text : String) (span : Span) (children : List Node)
  deriving Inhabited

namespace Node

def kind : Node → Kind
  | mk k .. => k

def span : Node → Span
  | mk _ _ _ s _ => s

def children : Node → List Node
  | mk _ _ _ _ cs => cs

/-- The node in another role. -/
def as (l : Label) : Node → Node
  | mk k _ t s cs => mk k l t s cs

/-- The node as one of another kind. -/
def ofKind (k : Kind) : Node → Node
  | mk _ l t s cs => mk k l t s cs

mutual

/-- The tree of a node, given the comments that stand inside it. -/
def toTree (comments : List Span) : Node → Tree
  | mk kind label text _ children => .node kind label text (placeComments comments children)

/-- The trees of neighbouring nodes with comments between and inside them. -/
def placeComments (comments : List Span) : List Node → List Tree
  | [] => comments.map fun _ => .node .comment .plain "" []
  | n :: ns =>
    let before := comments.takeWhile fun c => c.start < n.span.start
    let inside := (comments.drop before.length).takeWhile fun c => c.start < n.span.stop
    let after := comments.drop (before.length + inside.length)
    before.map (fun _ => .node .comment .plain "" []) ++ n.toTree inside :: placeComments after ns

end

end Node

/-! ## Readers -/

/-- What stays the same during a reading. -/
structure Setting where
  /-- Whether `<` in front of an expression opens markup. -/
  markup : Bool
  /-- More than the number of tokens, a bound for every repetition. -/
  limit : Nat

/-- How far a reading has come. -/
structure Progress where
  /-- The position behind the last token that was taken. -/
  position : Nat
  /-- The text from there on. -/
  rest : List Char
  /-- The next token. -/
  ahead : Token
  /-- The comments passed so far, the last first. -/
  comments : List Span

abbrev Reader := ReaderT Setting (StateT Progress Option)

namespace Reader

def ahead : Reader Token := return (← get).ahead

/-- The token behind the next one. -/
def second : Reader Token := return (← get).ahead.next

/-- The position behind the last token. -/
def position : Reader Nat := return (← get).position

/-- The position of the next token. -/
def start : Reader Nat := return (← get).ahead.span.start

/-- Goes on at another place of the text. -/
def goTo (position : Nat) (rest : List Char) : Reader Unit :=
  modify fun p => ⟨position, rest, Token.scan position rest, p.comments⟩

/-- Passes the comments before the next token and its first `n` characters. -/
def takeChars (n : Nat) : Reader Unit := do
  let t ← ahead
  modify fun p => { p with comments := t.comments.reverse ++ p.comments }
  goTo (t.span.start + n) (t.here.drop n)

/-- Takes the next token. -/
def take : Reader Token := do
  let t ← ahead
  takeChars (t.span.stop - t.span.start)
  return t

/-- Whether the next token is the given word or mark. -/
def sees (s : String) : Reader Bool := return (← ahead).is s

def seesOneOf (ss : List String) : Reader Bool := return (← ahead).isOneOf ss

/-- Takes the given word or mark. -/
def expect (s : String) : Reader Unit := do
  if ← sees s then discard take else failure

/-- Takes the given word or mark if it is next. -/
def accept (s : String) : Reader Bool := do
  if ← sees s then discard take; return true else return false

/-- The next token as a leaf. -/
def leaf (kind : Kind) (label : Label) : Reader Node := do
  let t ← take
  return .mk kind label t.text t.span []

/-- The next token as a leaf, when it is of the given kind. -/
def leafOf (token : TokenKind) (kind : Kind) (label : Label) : Reader Node := do
  if (← ahead).kind = token then leaf kind label else failure

/-- A node from a place up to the last token. -/
def close (kind : Kind) (label : Label) (start : Nat) (children : List Node) : Reader Node :=
  return .mk kind label "" ⟨start, ← position⟩ children

/-- What `item` answers until it answers nothing, at most `n` times. -/
def collectAtMost {α : Type} (item : Reader (Option α)) : Nat → Reader (List α)
  | 0 => failure
  | n + 1 => do
    match ← item with
    | none => return []
    | some a => return a :: (← collectAtMost item n)

def limit : Reader Nat := return (← read).limit

def collect {α : Type} (item : Reader (Option α)) : Reader (List α) := do
  collectAtMost item (← limit)

/-- A list up to the closing mark, which is taken; separators are optional where the grammar allows
holes. -/
def listUpTo (closing separator : String) (item : Reader (List Node)) : Reader (List Node) := do
  let items ← collect do
    if ← accept closing then return none
    if ← accept separator then return some []
    let ns ← item
    if !(← sees closing) then expect separator
    return some ns
  return items.flatten

/-- Repeats a step on a node until it answers nothing, at most `n` times. -/
def growAtMost (step : Node → Reader (Option Node)) : Nat → Node → Reader Node
  | 0, _ => failure
  | n + 1, node => do
    match ← step node with
    | none => return node
    | some node => growAtMost step n node

def grow (step : Node → Reader (Option Node)) (node : Node) : Reader Node := do
  growAtMost step (← limit) node

/-- The result of a reader, if it succeeds; otherwise nothing is taken. -/
def attempt {α : Type} (item : Reader α) : Reader (Option α) :=
  (some <$> item) <|> pure none

end Reader

/-! ## The grammar as a parameter -/

/-- What an expression must not take. -/
structure Limits where
  /-- No `in` at the top level: the head of a loop. -/
  noIn : Bool
  /-- No result type of an arrow function: the middle of a conditional. -/
  noArrowType : Bool
  deriving DecidableEq, Inhabited

def Limits.none : Limits := ⟨false, false⟩

/-- What a grammar rule can ask for. -/
inductive Goal
  | statement
  /-- Expressions separated by commas. -/
  | expression (limits : Limits)
  | assignment (limits : Limits)
  /-- An expression up to the binary operators, with the prefix operators. -/
  | unary (limits : Limits)
  /-- An expression without operators. -/
  | operand
  /-- A name or a pattern that binds names. -/
  | binding
  | block
  | type

abbrev Grammar := Goal → Reader Node

end RouteAtlas.Syntax
