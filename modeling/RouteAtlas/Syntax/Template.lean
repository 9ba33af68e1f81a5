import RouteAtlas.Syntax.Reader

/-!
# Template literals

The running text of a template literal is no sequence of tokens, so it is read by characters, and
the grammar takes over between `$` with an opening brace and the closing one.
-/

set_option autoImplicit false

namespace RouteAtlas.Syntax.Template

open Reader

/-- What stands at a place of a template literal. -/
inductive Piece
  | characters (n : Nat)
  | escape (n : Nat)
  | substitution
  | closing

/-- The number of characters that stand for themselves. -/
def plainLength : List Char → Nat
  | '$' :: '\x7b' :: _ => 0
  | c :: cs => if c = '\\' || c = '\x60' then 0 else 1 + plainLength cs
  | [] => 0

def piece? : List Char → Option Piece
  | '\\' :: '\r' :: '\n' :: _ => some (.escape 3)
  | '\\' :: _ :: _ => some (.escape 2)
  | '$' :: '\x7b' :: _ => some .substitution
  | c :: cs => some (if c = '\x60' then .closing else .characters (plainLength (c :: cs)))
  | [] => none

/-- Goes `n` characters on inside a template literal. -/
def passText (n : Nat) : Reader Span := do
  let p ← get
  goTo (p.position + n) (p.rest.drop n)
  return ⟨p.position, p.position + n⟩

/-- The pieces of a template literal up to its closing quote. -/
def pieces (g : Grammar) : Reader (List Node) :=
  collect do
    match piece? (← get).rest with
    | some (.characters n) | some (.escape n) =>
      return some (.mk .fragment .plain "" (← passText n) [])
    | some .substitution =>
      let at_ := (← passText 2).start
      let inner ← g (.expression .none)
      expect "\x7d"
      return some (← close .substitution .plain at_ [inner])
    | some .closing =>
      discard (passText 1)
      return none
    | none => failure

def literal (g : Grammar) (label : Label) : Reader Node := do
  let t ← take
  let found ← pieces g
  let stop ← position
  return .mk .template label (String.ofList (t.here.take (stop - t.span.start)))
    ⟨t.span.start, stop⟩ found

end RouteAtlas.Syntax.Template
