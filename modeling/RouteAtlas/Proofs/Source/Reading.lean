import RouteAtlas.Source.Finding

/-!
# Readers of a tree, said of its children

The readers of a syntax tree recurse through lists of children, so that they are structural.  Here
each of them gets the equation it means: what it answers for a node in terms of the node's kind, its
text and the children in their roles.  Everything that is proved of the readers rests on these
equations, and nothing else unfolds them.
-/

set_option autoImplicit false

namespace RouteAtlas

open Syntax

namespace Syntax.Tree

/-- A child in a role is smaller than its parent. -/
theorem sizeOf_lt_of_child? {t c : Tree} {l : Label} (h : t.child? l = some c) :
    sizeOf c < sizeOf t :=
  sizeOf_lt_of_mem (mem_children_of_child? h)

/-! ## Wrappers -/

/-- The first child that an expression in a wrapper can be. -/
def inner? (t : Tree) : Option Tree :=
  t.children.find? fun c => !isPadding c.kind

theorem unwrappedAmong_eq (whole : Tree) (cs : List Tree) :
    unwrappedAmong whole cs = (cs.find? fun c => !isPadding c.kind).elim whole unwrapped := by
  induction cs with
  | nil => rfl
  | cons c cs ih =>
    rw [unwrappedAmong, List.find?_cons]
    cases isPadding c.kind with
    | true => exact ih
    | false => rfl

theorem unwrapped_eq (t : Tree) :
    t.unwrapped = if isWrapper t.kind then t.inner?.elim t unwrapped else t := by
  obtain ⟨k, l, s, cs⟩ := t
  rw [unwrapped, unwrappedAmong_eq]
  rfl

/-! ## Published names -/

/-- The names that a member of an object literal refers to. -/
def publishedMember (t : Tree) : List String :=
  if t.kind = .shorthand then [t.text]
  else if t.kind = .pair then (t.child? .value).elim [] published else []

/-- The names that the results of a function with this body refer to. -/
def results (body : Tree) : List String :=
  if body.kind = .block then returned body.children else body.published

/-- The names that the `return`s in one statement refer to. -/
def returnedIn (t : Tree) : List String :=
  if t.kind = .returnStatement then t.children.head?.elim [] published
  else if isOtherFunction t.kind then [] else returned t.children

theorem publishedAs_eq (role : Label) (cs : List Tree) :
    publishedAs role cs = (cs.find? fun c => c.label = role).elim [] published := by
  induction cs with
  | nil => rfl
  | cons c cs ih =>
    rw [publishedAs, List.find?_cons]
    by_cases h : c.label = role
    · rw [if_pos h, decide_eq_true h]
      rfl
    · rw [if_neg h, decide_eq_false h]
      exact ih

theorem publishedWrapped_eq (cs : List Tree) :
    publishedWrapped cs = (cs.find? fun c => !isPadding c.kind).elim [] published := by
  induction cs with
  | nil => rfl
  | cons c cs ih =>
    rw [publishedWrapped, List.find?_cons]
    cases isPadding c.kind with
    | true => exact ih
    | false => rfl

theorem publishedMembers_eq (cs : List Tree) :
    publishedMembers cs = cs.flatMap publishedMember := by
  induction cs with
  | nil => rfl
  | cons c cs ih =>
    obtain ⟨k, l, s, inner⟩ := c
    rw [publishedMembers, ih, publishedAs_eq, List.flatMap_cons]
    rfl

theorem publishedFirst_eq (cs : List Tree) : publishedFirst cs = cs.head?.elim [] published := by
  cases cs <;> rfl

theorem returned_eq (cs : List Tree) : returned cs = cs.flatMap returnedIn := by
  induction cs with
  | nil => rfl
  | cons c cs ih =>
    obtain ⟨k, l, s, inner⟩ := c
    rw [returned, ih, publishedFirst_eq, List.flatMap_cons]
    rfl

theorem publishedBody_eq (cs : List Tree) :
    publishedBody cs = (cs.find? fun c => c.label = .body).elim [] results := by
  induction cs with
  | nil => rfl
  | cons c cs ih =>
    obtain ⟨k, l, s, inner⟩ := c
    rw [publishedBody, List.find?_cons]
    by_cases h : l = .body
    · rw [if_pos h, show decide ((node k l s inner).label = .body) = true from decide_eq_true h]
      rfl
    · rw [if_neg h, show decide ((node k l s inner).label = .body) = false from decide_eq_false h]
      exact ih

theorem published_eq (t : Tree) :
    t.published =
      if isWrapper t.kind then t.inner?.elim [] published
      else
        match t.kind with
        | .identifier => [t.text]
        | .object => t.children.flatMap publishedMember
        | .assignment => (t.child? .right).elim [] published
        | .arrowFunction | .functionExpression | .generatorFunction =>
          (t.child? .body).elim [] results
        | _ => [] := by
  obtain ⟨k, l, s, cs⟩ := t
  rw [published.eq_def]
  dsimp only
  rw [publishedWrapped_eq, publishedMembers_eq, publishedAs_eq, publishedBody_eq]
  cases k <;> rfl

theorem returnedNames_eq (t : Tree) :
    t.returnedNames = (t.child? .body).elim [] fun body => body.children.flatMap returnedIn := by
  unfold returnedNames
  cases t.child? .body with
  | none => rfl
  | some body => exact returned_eq body.children

/-! ## Modules -/

theorem requiredModule?_eq (t : Tree) :
    t.requiredModule? =
      if t.kind = .call then
        (t.child? .callee).bind fun callee =>
          if callee.isNamed "require" then
            (t.child? .arguments).bind fun given => given.parts.head?.elim none literal?
          else none
      else none := by
  unfold requiredModule?
  by_cases hk : t.kind = .call
  · rw [if_pos hk, show (guard (t.kind = .call) : Option Unit) = some () from if_pos hk]
    show (t.child? .callee).bind _ = _
    congr 1
    funext callee
    cases callee.isNamed "require" with
    | false => rfl
    | true =>
      show (t.child? .arguments).bind _ = (t.child? .arguments).bind _
      congr 1
      funext given
      show given.parts.head?.bind literal? = given.parts.head?.elim none literal?
      cases given.parts.head? <;> rfl
  · rw [if_neg hk, show (guard (t.kind = .call) : Option Unit) = none from if_neg hk]
    rfl

end Syntax.Tree

/-! ## Mentions -/

namespace Mention

theorem ofTrees_eq_flatMap (cs : List Tree) : ofTrees cs = cs.flatMap ofTree := by
  induction cs with
  | nil => rfl
  | cons c cs ih => rw [ofTrees, ih, List.flatMap_cons]

theorem ofChild_eq (role : Label) (cs : List Tree) :
    ofChild role cs = (cs.find? fun c => c.label = role).elim [] ofTree := by
  induction cs with
  | nil => rfl
  | cons c cs ih =>
    rw [ofChild, List.find?_cons]
    by_cases h : c.label = role
    · rw [if_pos h, decide_eq_true h]
      rfl
    · rw [if_neg h, decide_eq_false h]
      exact ih

theorem ofTree_eq (t : Tree) :
    ofTree t =
      if t.kind = .identifier then [name t.text]
      else if t.kind = .member || t.kind = .subscript then (t.child? .object).elim [] ofTree
      else if t.kind = .call then
        match t.requiredModule? with
        | some specifier => [required specifier]
        | none => (t.child? .callee).elim [] ofTree ++ (t.child? .arguments).elim [] ofTree
      else if isTransparent t.kind then t.children.flatMap ofTree
      else [] := by
  obtain ⟨k, l, s, cs⟩ := t
  rw [ofTree, ofChild_eq, ofChild_eq, ofChild_eq, ofTrees_eq_flatMap]
  rfl

end Mention

/-! ## Chains of registrations -/

namespace Finding

/-- What is called in a call, when it is an access to a member. -/
def calledMember? (t : Tree) : Option (Tree × Tree) :=
  (t.child? .callee).bind fun callee =>
    if callee.kind = .member then
      (callee.child? .object).bind fun object => (callee.child? .property).map (object, ·)
    else none

/-- The object of a called member is inside the call. -/
theorem sizeOf_lt_of_calledMember? {t object property : Tree}
    (h : calledMember? t = some (object, property)) : sizeOf object < sizeOf t := by
  obtain ⟨callee, hcallee, h⟩ := Option.bind_eq_some_iff.mp h
  split at h
  · obtain ⟨o, hobject, h⟩ := Option.bind_eq_some_iff.mp h
    obtain ⟨p, -, h⟩ := Option.map_eq_some_iff.mp h
    cases h
    exact Nat.lt_trans (Tree.sizeOf_lt_of_child? hobject) (Tree.sizeOf_lt_of_child? hcallee)
  · cases h

/-- What a call says, told by the member that is called. -/
theorem ofCall_eq (t : Tree) :
    ofCall t =
      (calledMember? t).elim [] fun (object, property) =>
        if object.kind = .identifier then
          if property.text = "use" then ofUse object.text t.callArguments
          else
            (HttpMethod.ofCallName? property.text).elim [] fun method =>
              ofHandler object.text method t.callArguments
        else
          (HttpMethod.ofCallName? property.text).elim [] fun method =>
            (chainBase? object).elim [] fun (receiver, path) =>
              registration receiver (.handler method path) t.callArguments := by
  unfold ofCall calledMember?
  cases t.child? .callee with
  | none => rfl
  | some callee =>
    dsimp only
    rw [Option.bind_some]
    by_cases hm : callee.kind = .member
    · rw [if_neg (not_not_intro hm), if_pos hm]
      cases callee.child? .object with
      | none => rfl
      | some object =>
        cases callee.child? .property with
        | none => rfl
        | some property =>
          dsimp only [Option.bind_some, Option.map_some, Option.elim_some]
          cases HttpMethod.ofCallName? property.text with
          | none => rfl
          | some method => cases chainBase? object <;> rfl
    · rw [if_pos hm, if_neg hm]
      rfl

/-- The kind of container that a call of this makes. -/
def makerKind? (callee : Tree) : Option ContainerKind :=
  match callee.kind with
  | .identifier =>
    if callee.text = "Router" then some .router
    else if callee.text = "express" then some .app
    else none
  | .member =>
    (callee.child? .property).bind fun property =>
      if property.text = "Router" then some .router else none
  | _ => none

theorem containerKind?_eq (value : Tree) :
    containerKind? value =
      if value.kind = .call then (value.child? .callee).bind makerKind? else none := by
  unfold containerKind?
  by_cases hk : value.kind = .call
  · rw [if_pos hk, show (guard (value.kind = .call) : Option Unit) = some () from if_pos hk]
    rfl
  · rw [if_neg hk, show (guard (value.kind = .call) : Option Unit) = none from if_neg hk]
    rfl

theorem chainObject?_eq (arguments : List Tree) (property : Option Tree) (cs : List Tree) :
    chainObject? arguments property cs =
      (cs.find? fun c => c.label = .object).bind fun object => property.bind fun p =>
        if p.text = "route" && object.kind = .identifier then
          (arguments.head?.bind Tree.literal?).map fun path => (object.text, path)
        else if (HttpMethod.ofCallName? p.text).isSome then chainBase? object else none := by
  induction cs with
  | nil => rfl
  | cons c cs ih =>
    rw [chainObject?.eq_def, List.find?_cons]
    dsimp only
    by_cases h : c.label = .object
    · rw [if_pos h, decide_eq_true h]
      cases property <;> rfl
    · rw [if_neg h, decide_eq_false h]
      exact ih

theorem chainCallee?_eq (arguments cs : List Tree) :
    chainCallee? arguments cs =
      (cs.find? fun c => c.label = .callee).bind fun callee =>
        if callee.kind = .member then
          chainObject? arguments (callee.child? .property) callee.children
        else none := by
  induction cs with
  | nil => rfl
  | cons c cs ih =>
    obtain ⟨k, l, s, inner⟩ := c
    rw [chainCallee?, List.find?_cons]
    by_cases h : l = .callee
    · rw [if_pos h,
        show decide ((Syntax.Tree.node k l s inner).label = .callee) = true from decide_eq_true h]
      rfl
    · rw [if_neg h,
        show decide ((Syntax.Tree.node k l s inner).label = .callee) = false from decide_eq_false h]
      exact ih

theorem chainBase?_eq (t : Tree) :
    chainBase? t =
      if t.kind = .call then
        (calledMember? t).bind fun (object, property) =>
          if property.text = "route" && object.kind = .identifier then
            (t.callArguments.head?.bind Tree.literal?).map fun path => (object.text, path)
          else if (HttpMethod.ofCallName? property.text).isSome then chainBase? object else none
      else none := by
  obtain ⟨k, l, s, cs⟩ := t
  rw [chainBase?, chainCallee?_eq, show (Syntax.Tree.node k l s cs).kind = k from rfl]
  simp only [chainObject?_eq]
  by_cases hk : k = .call
  · rw [if_pos hk, if_pos hk, calledMember?]
    show ((Syntax.Tree.node k l s cs).child? .callee).bind _ = _
    cases (Syntax.Tree.node k l s cs).child? .callee with
    | none => rfl
    | some callee =>
      rw [Option.bind_some, Option.bind_some]
      by_cases hm : callee.kind = .member
      · rw [if_pos hm, if_pos hm]
        show (callee.child? .object).bind _ = _
        cases callee.child? .object <;> cases callee.child? .property <;> rfl
      · rw [if_neg hm, if_neg hm]
        rfl
  · rw [if_neg hk, if_neg hk]

theorem ofTree_eq (t : Tree) : ofTree t = ofNode t ++ t.children.flatMap ofTree := by
  obtain ⟨k, l, s, cs⟩ := t
  rw [ofTree, ofTrees_eq_flatMap]
  rfl

end Finding

end RouteAtlas
