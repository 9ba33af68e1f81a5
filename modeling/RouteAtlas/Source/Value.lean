import RouteAtlas.Alias.ConfigText
import RouteAtlas.Syntax.Tree

/-!
# Values in source

What a part of a tree denotes when that can be told from its shape: the text of a literal, the
expression inside wrappers, the arguments of a call and the module a `require` asks for.
-/

set_option autoImplicit false

namespace RouteAtlas.Syntax.Tree

/-- The text of a quoted literal, or of a template literal that is constant. -/
def literal? (t : Tree) : Option String :=
  let unquoted := String.ofList (Text.trimBoth Alias.ConfigText.isQuote t.text.toList)
  match t.kind with
  | .string => some unquoted
  | .template => if t.children.any (·.kind = .substitution) then none else some unquoted
  | _ => none

/-- Whether an expression of this kind denotes what the expression in it denotes. -/
def isWrapper : Kind → Bool
  | .parenthesized | .asCast | .satisfies | .nonNull | .await | .typeAssertion => true
  | _ => false

/-- Whether a child of this kind is passed over in the search for the wrapped expression. -/
def isPadding : Kind → Bool
  | .comment | .typeArguments | .token => true
  | _ => false

mutual

/-- The expression without the wrappers around it. -/
def unwrapped : Tree → Tree
  | node k l s cs => if isWrapper k then unwrappedAmong (node k l s cs) cs else node k l s cs

/-- The first proper child without wrappers; `whole` when there is none. -/
def unwrappedAmong (whole : Tree) : List Tree → Tree
  | [] => whole
  | c :: cs => if isPadding c.kind then unwrappedAmong whole cs else unwrapped c

end

/-- The arguments of a call. -/
def callArguments (t : Tree) : List Tree :=
  match t.child? .arguments with
  | some a => a.parts.filter fun c => !c.isComment
  | none => []

/-- Whether this is a plain name, and which. -/
def isNamed (t : Tree) (name : String) : Bool :=
  t.kind = .identifier && t.text = name

/-- The module that `require('…')` asks for.  What counts is the first thing in the parentheses. -/
def requiredModule? (t : Tree) : Option String := do
  guard (t.kind = .call)
  let callee ← t.child? .callee
  guard (callee.isNamed "require")
  let given ← t.child? .arguments
  let first ← given.parts.head?
  first.literal?

end RouteAtlas.Syntax.Tree
