import RouteAtlas.Route.FileRoutes
import RouteAtlas.Source.Mention
import RouteAtlas.Source.Published

/-!
# Findings

What a walk over a tree finds, node by node: names bound to routers and apps, names bound to other
modules, names handed out, and registrations.  The findings of a tree are those of its root followed
by those of its children, so nothing is found that depends on where else something stands.
-/

set_option autoImplicit false

namespace RouteAtlas

open Syntax

inductive ContainerKind
  | router
  | app
  deriving DecidableEq, Repr, Inhabited

inductive Finding
  /-- The name is bound to a new router or app. -/
  | container (kind : ContainerKind) (name : String)
  /-- The name is bound to something from a module. -/
  | imported (name specifier : String)
  /-- A module is required on the spot, under the name made for it. -/
  | required (specifier : String)
  /-- The name is handed out. -/
  | published (name : String)
  /-- Something is registered on what the name holds, be it a container or not. -/
  | registered (receiver : String) (registration : Registration)
  deriving DecidableEq, Repr, Inhabited

namespace Finding

/-! ## Bindings -/

/-- The kind of container that a call makes: `Router()` and `x.Router()`, `express()`. -/
def containerKind? (value : Tree) : Option ContainerKind := do
  guard (value.kind = .call)
  let callee ← value.child? .callee
  match callee.kind with
  | .identifier =>
    if callee.text = "Router" then some .router
    else if callee.text = "express" then some .app
    else none
  | .member =>
    let property ← callee.child? .property
    if property.text = "Router" then some .router else none
  | _ => none

/-- The module behind `require('…')` or a member of it. -/
def originModule? (value : Tree) : Option String :=
  match value.requiredModule? with
  | some specifier => some specifier
  | none =>
    if value.kind = .member then (value.child? .object).bind Tree.requiredModule? else none

/-- The name that one entry of a destructuring pattern binds. -/
def boundName? (entry : Tree) : Option String :=
  match entry.kind with
  | .shorthandPattern => some entry.text
  | .pairPattern =>
    (entry.child? .value).bind fun v =>
      let target := if v.kind = .assignmentPattern then (v.child? .left).getD v else v
      if target.kind = .identifier then some target.text else none
  | .objectAssignmentPattern => (entry.child? .left).map Tree.text
  | _ => none

/-- What a binding with an initial value says. -/
def ofDeclarator (t : Tree) : List Finding :=
  match t.child? .name, t.child? .value with
  | some target, some value =>
    let value := value.unwrapped
    match target.kind with
    | .identifier =>
      match containerKind? value with
      | some kind => [container kind target.text]
      | none => ((originModule? value).map (imported target.text)).toList
    | .objectPattern =>
      match value.requiredModule? with
      | some specifier => (target.parts.filterMap boundName?).map (imported · specifier)
      | none => []
    | _ => []
  | _, _ => []

/-- What an assignment says. -/
def ofAssignment (t : Tree) : List Finding :=
  match t.child? .left, t.child? .right with
  | some left, some right =>
    if left.isExportTarget then right.published.map published
    else if left.kind = .identifier then
      ((containerKind? right.unwrapped).map (container · left.text)).toList
    else []
  | _, _ => []

/-! ## Imports -/

/-- The names that one part of an import clause binds. -/
def clauseNames (part : Tree) : List String :=
  match part.kind with
  | .identifier => [part.text]
  | .namespaceImport =>
    ((part.parts.find? (·.kind = .identifier)).map Tree.text).toList
  | .namedImports =>
    (part.parts.filter (·.kind = .importSpecifier)).filterMap fun s =>
      ((s.child? .rename).or (s.child? .name)).map Tree.text
  | _ => []

/-- What an import statement says. -/
def ofImport (t : Tree) : List Finding :=
  t.parts.flatMap fun part =>
    match part.kind with
    | .importClause =>
      match (t.child? .source).bind Tree.literal? with
      | some specifier => (part.parts.flatMap clauseNames).map (imported · specifier)
      | none => []
    | .importRequire =>
      match part.parts.find? (·.kind = .identifier), (part.child? .source).bind Tree.literal? with
      | some target, some specifier => [imported target.text specifier]
      | _, _ => []
    | _ => []

/-! ## Registrations -/

mutual

/-- The receiver and the path of `x.route('/p').get(…).post(…)`. -/
def chainBase? : Tree → Option (String × String)
  | .node k l s cs =>
    if k = .call then chainCallee? (Syntax.Tree.node k l s cs).callArguments cs else none

/-- The same, found among the children of a call with these arguments. -/
def chainCallee? (arguments : List Tree) : List Tree → Option (String × String)
  | [] => none
  | .node k l s inner :: cs =>
    if l = .callee then
      if k = .member then
        chainObject? arguments ((Syntax.Tree.node k l s inner).child? .property) inner
      else none
    else chainCallee? arguments cs

/-- The same, found among the children of the member access that is called. -/
def chainObject? (arguments : List Tree) (property : Option Tree) :
    List Tree → Option (String × String)
  | [] => none
  | c :: cs =>
    if c.label = .object then
      match property with
      | none => none
      | some p =>
        if p.text = "route" && c.kind = .identifier then
          (arguments.head?.bind Tree.literal?).map fun path => (c.text, path)
        else if (HttpMethod.ofCallName? p.text).isSome then chainBase? c
        else none
    else chainObject? arguments property cs

end

/-- A registration with what its arguments mention. -/
def registration (receiver : String) (make : List String → Registration) (given : List Tree) :
    List Finding :=
  let ms := Mention.ofTrees given
  registered receiver (make (Mention.names ms)) :: (Mention.requirements ms).map required

/-- `x.use([path,] …)`; without a path it is mounted at the top. -/
def ofUse (receiver : String) (arguments : List Tree) : List Finding :=
  match arguments with
  | [] => []
  | first :: rest =>
    match first.literal? with
    | some path => registration receiver (.mount path) rest
    | none => registration receiver (.mount "/") arguments

/-- `x.get(path, …)`; a path alone reads a setting. -/
def ofHandler (receiver : String) (method : HttpMethod) (arguments : List Tree) : List Finding :=
  match arguments with
  | first :: next :: rest =>
    match first.literal? with
    | some path => registration receiver (.handler method path) (next :: rest)
    | none => []
  | _ => []

/-- What a call says. -/
def ofCall (t : Tree) : List Finding :=
  match t.child? .callee with
  | none => []
  | some callee =>
    if callee.kind ≠ .member then []
    else
      match callee.child? .object, callee.child? .property with
      | some object, some property =>
        let arguments := t.callArguments
        let method? := HttpMethod.ofCallName? property.text
        if object.kind = .identifier then
          if property.text = "use" then ofUse object.text arguments
          else
            match method? with
            | some method => ofHandler object.text method arguments
            | none => []
        else
          match method?, chainBase? object with
          | some method, some (receiver, path) =>
            registration receiver (.handler method path) arguments
          | _, _ => []
      | _, _ => []

/-! ## Whole trees -/

/-- What a node says by itself. -/
def ofNode (t : Tree) : List Finding :=
  match t.kind with
  | .declarator => ofDeclarator t
  | .call => ofCall t
  | .importStatement => ofImport t
  | .exportStatement => t.exportedNames.map published
  | .assignment => ofAssignment t
  | _ => []

mutual

/-- The findings of a tree, from the root down and from left to right. -/
def ofTree : Tree → List Finding
  | .node k l s cs => ofNode (.node k l s cs) ++ ofTrees cs

def ofTrees : List Tree → List Finding
  | [] => []
  | c :: cs => ofTree c ++ ofTrees cs

end

theorem ofTrees_eq_flatMap (ts : List Tree) : ofTrees ts = ts.flatMap ofTree := by
  induction ts with
  | nil => rfl
  | cons t ts ih => simp [ofTrees, ih]

end Finding

end RouteAtlas
