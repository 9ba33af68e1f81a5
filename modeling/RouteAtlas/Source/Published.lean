import RouteAtlas.Source.Value

/-!
# Published names

The names whose values a module hands out: the names an exported value refers to, seen through
wrappers, object literals and chained assignments, and through what an exported function returns.
Only the function's own `return`s count; the code of a function inside it is not entered.
-/

set_option autoImplicit false

namespace RouteAtlas.Syntax.Tree

/-- Whether `return` in a node of this kind belongs to another function. -/
def isOtherFunction : Kind → Bool
  | .arrowFunction | .functionExpression | .functionDeclaration | .generatorFunction
  | .generatorDeclaration | .classDeclaration | .classExpression => true
  | _ => false

mutual

/-- The names that an exported value refers to. -/
def published : Tree → List String
  | node k _ s cs =>
    if isWrapper k then publishedWrapped cs
    else
      match k with
      | .identifier => [s]
      | .object => publishedMembers cs
      | .assignment => publishedAs .right cs
      | .arrowFunction => publishedBody cs
      | .functionExpression | .generatorFunction => publishedBody cs
      | _ => []

/-- The names that the expression in a wrapper refers to. -/
def publishedWrapped : List Tree → List String
  | [] => []
  | c :: cs => if isPadding c.kind then publishedWrapped cs else published c

/-- The names that the child in a role refers to. -/
def publishedAs (role : Label) : List Tree → List String
  | [] => []
  | c :: cs => if c.label = role then published c else publishedAs role cs

/-- The names that the members of an object literal refer to. -/
def publishedMembers : List Tree → List String
  | [] => []
  | node k _ s inner :: cs =>
    (if k = .shorthand then [s] else if k = .pair then publishedAs .value inner else []) ++
      publishedMembers cs

/-- The names that a function's results refer to: a block returns them, any other body is one. -/
def publishedBody : List Tree → List String
  | [] => []
  | node k l s inner :: cs =>
    if l = .body then (if k = .block then returned inner else published (node k l s inner))
    else publishedBody cs

/-- The names that the `return`s among these statements refer to. -/
def returned : List Tree → List String
  | [] => []
  | node k _ _ inner :: cs =>
    (if k = .returnStatement then publishedFirst inner
      else if isOtherFunction k then []
      else returned inner) ++ returned cs

/-- The names that the first of these trees refers to. -/
def publishedFirst : List Tree → List String
  | [] => []
  | c :: _ => published c

end

/-- The names that a declared function returns. -/
def returnedNames (t : Tree) : List String :=
  match t.child? .body with
  | some body => returned body.children
  | none => []

/-- The names bound by the declarators of a declaration. -/
def declaredNames (t : Tree) : List String :=
  t.children.filterMap fun c =>
    (c.child? .name).bind fun n => if n.kind = .identifier then some n.text else none

/-- Whether an export statement is `export = …`: the sign follows the word at once. -/
def isExportAssignment (t : Tree) : Bool :=
  t.children.head?.any (·.kind = .token)

/-- The names in the export clauses of a statement. -/
def clauseNames (t : Tree) : List String :=
  (t.children.filter (·.kind = .exportClause)).flatMap fun clause =>
    clause.children.filterMap fun s => (s.child? .name).map Tree.text

/-- The names that an export statement hands out.  What comes from another module is no name of this
one. -/
def exportedNames (t : Tree) : List String :=
  if (t.child? .source).isSome then []
  else
    match t.child? .declaration with
    | some d =>
      match d.kind with
      | .lexicalDeclaration | .variableDeclaration => d.declaredNames
      | .functionDeclaration | .generatorDeclaration => d.returnedNames
      | _ => []
    | none =>
      match t.child? .value with
      | some v => v.published
      | none =>
        t.clauseNames ++
          (if t.isExportAssignment then
            match (t.parts.filter fun c => c.kind ≠ .exportClause && c.kind ≠ .comment).getLast? with
            | some e => e.published
            | none => []
          else [])

/-! ## Assignments to the exports of a module -/

/-- `module.exports` -/
def isModuleExports (t : Tree) : Bool :=
  t.kind = .member &&
    ((t.child? .object).any fun o => o.text = "module") &&
    ((t.child? .property).any fun p => p.text = "exports")

/-- `module.exports`, a part of it, or a part of `exports`. -/
def isExportTarget (t : Tree) : Bool :=
  (t.kind = .member || t.kind = .subscript) &&
    (t.isModuleExports ||
      (t.child? .object).any fun o => o.isModuleExports || o.isNamed "exports")

end RouteAtlas.Syntax.Tree
