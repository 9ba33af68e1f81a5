import RouteAtlas.Text.Pieces

/-!
# Syntax trees

The tree of a module written in JavaScript or TypeScript, down to the shapes that say something
about routes: calls, member accesses, bindings, imports, exports, functions and the wrappers around
expressions that do not change what they denote.  Every other shape is `other` and keeps its
children, so that a walk still finds what stands inside it.

A node carries the role it plays for its parent as a `Label`; a parent has at most one child of a
label.  Only leaves and template literals carry text.  Comments are nodes as well, wherever they
stand, because some readers of a tree look at the first child and a comment is one.
-/

set_option autoImplicit false

namespace RouteAtlas.Syntax

inductive Kind
  | program
  | comment
  /-- A mark of punctuation that a reader of the tree may ask for. -/
  | token
  -- names and literals
  | identifier
  | propertyName
  | privateName
  | string
  | template
  | fragment
  | substitution
  -- expressions
  | call
  | member
  | subscript
  | arguments
  | array
  | object
  | pair
  | shorthand
  | spread
  | assignment
  | arrowFunction
  | functionExpression
  | generatorFunction
  | classExpression
  | method
  -- wrappers
  | parenthesized
  | asCast
  | satisfies
  | nonNull
  | await
  | typeAssertion
  | typeArguments
  -- bindings
  | declarator
  | objectPattern
  | shorthandPattern
  | pairPattern
  | assignmentPattern
  | objectAssignmentPattern
  -- statements
  | lexicalDeclaration
  | variableDeclaration
  | functionDeclaration
  | generatorDeclaration
  | classDeclaration
  | returnStatement
  | block
  -- imports and exports
  | importStatement
  | importClause
  | importRequire
  | namespaceImport
  | namedImports
  | importSpecifier
  | exportStatement
  | exportClause
  | exportSpecifier
  | other
  deriving DecidableEq, Repr, Inhabited

/-- The role of a node for its parent. -/
inductive Label
  | plain
  | name
  | value
  | callee
  | arguments
  | object
  | property
  | left
  | right
  | source
  | rename
  | body
  | declaration
  deriving DecidableEq, Repr, Inhabited

inductive Tree
  | node (kind : Kind) (label : Label) (text : String) (children : List Tree)
  deriving Repr, Inhabited

namespace Tree

def kind : Tree → Kind
  | node k _ _ _ => k

def label : Tree → Label
  | node _ l _ _ => l

def text : Tree → String
  | node _ _ t _ => t

def children : Tree → List Tree
  | node _ _ _ cs => cs

/-- The children that stand for more than a mark of punctuation. -/
def parts (t : Tree) : List Tree :=
  t.children.filter fun c => c.kind ≠ .token

/-- The child that plays a role. -/
def child? (t : Tree) (l : Label) : Option Tree :=
  t.children.find? fun c => c.label = l

def isComment (t : Tree) : Bool :=
  t.kind = .comment

theorem child?_label {t c : Tree} {l : Label} (h : t.child? l = some c) : c.label = l := by
  simpa using List.find?_some h

theorem mem_children_of_child? {t c : Tree} {l : Label} (h : t.child? l = some c) :
    c ∈ t.children :=
  List.mem_of_find?_eq_some h

/-- A tree taken as a child is smaller than its parent. -/
theorem sizeOf_lt_of_mem {t c : Tree} (h : c ∈ t.children) : sizeOf c < sizeOf t := by
  obtain ⟨k, l, s, cs⟩ := t
  have := List.sizeOf_lt_of_mem (show c ∈ cs from h)
  simp only [node.sizeOf_spec]
  omega

end Tree

end RouteAtlas.Syntax
