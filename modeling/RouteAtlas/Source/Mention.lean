import RouteAtlas.Source.Value

/-!
# Names mentioned by arguments

The names through which the arguments of a registration may refer to other files: plain names, the
objects of member accesses, and the parts of calls, lists and wrappers.  A `require` written on the
spot has no name, so it is given one that no name in a program can equal.  Functions, objects and
the property side of an access are not looked into.
-/

set_option autoImplicit false

namespace RouteAtlas

open Syntax

/-- One reference to something outside. -/
inductive Mention
  | name (text : String)
  | required (specifier : String)
  deriving DecidableEq, Repr, Inhabited

/-- The name under which a module required on the spot is recorded. -/
def requiredName (specifier : String) : String :=
  "require('" ++ specifier ++ "')"

namespace Mention

/-- The name that stands for the reference. -/
def label : Mention → String
  | name s => s
  | required s => requiredName s

/-- The module that is required on the spot. -/
def required? : Mention → Option String
  | name _ => none
  | required s => some s

/-- Whether everything in a node of this kind may be mentioned. -/
def isTransparent : Kind → Bool
  | .arguments | .array | .parenthesized | .asCast | .satisfies | .nonNull | .await | .spread => true
  | _ => false

mutual

/-- What a tree mentions, in order and with repetitions. -/
def ofTree : Tree → List Mention
  | .node k l s cs =>
    if k = .identifier then [name s]
    else if k = .member || k = .subscript then ofChild .object cs
    else if k = .call then
      match (Syntax.Tree.node k l s cs).requiredModule? with
      | some specifier => [required specifier]
      | none => ofChild .callee cs ++ ofChild .arguments cs
    else if isTransparent k then ofTrees cs
    else []

/-- What the first child in a role mentions. -/
def ofChild (role : Label) : List Tree → List Mention
  | [] => []
  | c :: cs => if c.label = role then ofTree c else ofChild role cs

/-- What neighbouring trees mention. -/
def ofTrees : List Tree → List Mention
  | [] => []
  | c :: cs => ofTree c ++ ofTrees cs

end

/-- The names of mentions, each where it occurs first. -/
def names (ms : List Mention) : List String :=
  (ms.map label).eraseDups

/-- The modules required on the spot. -/
def requirements (ms : List Mention) : List String :=
  ms.filterMap required?

end Mention

end RouteAtlas
