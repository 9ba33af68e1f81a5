import RouteAtlas.Syntax.Language
import RouteAtlas.Syntax.Statement

/-!
# Programs

The whole grammar, tied together with a bound on its depth, and the tree of a text.  Where no
statement can be read, one token is left out and the reading goes on behind it, so that every text
has a tree.
-/

set_option autoImplicit false

namespace RouteAtlas.Syntax

open Reader

/-- One level of the grammar over the levels below. -/
def grammarLevel (g : Grammar) : Grammar
  | .statement => Statement.statement g
  | .expression limits => Expression.expression g limits
  | .assignment limits => Expression.assignment g limits
  | .unary limits => Expression.unary g limits
  | .operand => Expression.operand g .none
  | .binding => Binding.binding g
  | .block => Statement.block g
  | .type => Annotation.type g

/-- The grammar down to a depth. -/
def grammar : Nat → Grammar
  | 0 => fun _ => failure
  | n + 1 => grammarLevel (grammar n)

/-- Statements up to the end of the text; a token that starts none is left out. -/
def statements (g : Grammar) : Reader (List Node) := do
  let found ← collect do
    if (← ahead).kind = .ending then return none
    match ← attempt (g .statement) with
    | some n => return some [n]
    | none =>
      discard take
      return some []
  return found.flatten

/-- Takes the line that names an interpreter. -/
def passInterpreterLine : Reader Unit := do
  let p ← get
  match p.rest with
  | '#' :: '!' :: cs =>
    let n := (cs.takeWhile fun c => !Token.endsLine c).length
    goTo (p.position + n + 2) (cs.drop n)
  | _ => pure ()

/-- The tree of a text. -/
def tree (language : Language) (text : String) : Tree :=
  let cs := text.toList
  let size := cs.length
  let setting : Setting := ⟨language = .typedMarkup, size + 2⟩
  let begin : Progress := ⟨0, cs, Token.scan 0 cs, []⟩
  let reading := do
    passInterpreterLine
    statements (grammar (8 * size + 64))
  match (reading.run setting).run begin with
  | some (nodes, progress) =>
    .node .program .plain ""
      (Node.placeComments (progress.comments.reverse ++ progress.ahead.comments) nodes)
  | none => .node .program .plain "" []

end RouteAtlas.Syntax
