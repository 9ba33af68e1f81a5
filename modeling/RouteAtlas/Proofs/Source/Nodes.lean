import RouteAtlas.Proofs.Source.Reading

/-!
# What each node says

A walk finds in a tree what its nodes say, and nothing else (`mem_ofTree_iff`).  Here is which nodes
say what: containers are found where a declarator or an assignment binds a name to a new one
(`Binds`), registrations where a call makes them (`Registers`).
-/

set_option autoImplicit false

namespace RouteAtlas

open Syntax

/-! ## Inside a tree -/

/-- A node of a tree: the tree itself, or a node of one of its children. -/
inductive Syntax.Tree.Within (n : Tree) : Tree → Prop
  | here : Within n n
  | under {t c : Tree} (hc : c ∈ t.children) (h : Within n c) : Within n t

namespace Syntax.Tree

variable {n m t : Tree}

theorem Within.sizeOf_le (h : n.Within t) : sizeOf n ≤ sizeOf t := by
  induction h with
  | here => exact Nat.le_refl _
  | under hc _ ih => exact Nat.le_trans ih (Nat.le_of_lt (sizeOf_lt_of_mem hc))

theorem Within.trans (h : n.Within m) (h' : m.Within t) : n.Within t := by
  induction h' with
  | here => exact h
  | under hc _ ih => exact .under hc ih

theorem within_of_child? {c : Tree} {l : Label} (h : t.child? l = some c) : c.Within t :=
  .under (mem_children_of_child? h) .here

end Syntax.Tree

namespace Finding

/-- What is found in a tree is what its nodes say. -/
theorem mem_ofTree_iff {f : Finding} {t : Tree} :
    f ∈ ofTree t ↔ ∃ n, n.Within t ∧ f ∈ ofNode n := by
  rw [ofTree_eq, List.mem_append, List.mem_flatMap]
  constructor
  · rintro (h | ⟨c, hc, h⟩)
    · exact ⟨t, .here, h⟩
    · have hlt : sizeOf c < sizeOf t := Tree.sizeOf_lt_of_mem hc
      obtain ⟨n, hn, h⟩ := mem_ofTree_iff.mp h
      exact ⟨n, .under hc hn, h⟩
  · rintro ⟨n, hn, h⟩
    cases hn with
    | here => exact .inl h
    | under hc hn =>
      have hlt := Tree.sizeOf_lt_of_mem hc
      exact .inr ⟨_, hc, mem_ofTree_iff.mpr ⟨n, hn, h⟩⟩
termination_by sizeOf t

/-! ## New containers -/

/-- A value that is a new router, `Router()` or `x.Router()`, or a new app, `express()`. -/
inductive Creates : ContainerKind → Tree → Prop
  | router {value callee : Tree} (hcall : value.kind = .call)
      (hcallee : value.child? .callee = some callee) (hname : callee.kind = .identifier)
      (htext : callee.text = "Router") : Creates .router value
  | memberRouter {value callee property : Tree} (hcall : value.kind = .call)
      (hcallee : value.child? .callee = some callee) (hmember : callee.kind = .member)
      (hproperty : callee.child? .property = some property)
      (htext : property.text = "Router") : Creates .router value
  | app {value callee : Tree} (hcall : value.kind = .call)
      (hcallee : value.child? .callee = some callee) (hname : callee.kind = .identifier)
      (htext : callee.text = "express") : Creates .app value

/-- A node that binds a name to a new container, wrapped or not: a declarator or an assignment. -/
inductive Binds (kind : ContainerKind) : String → Tree → Prop
  | declarator {n target value : Tree} (hkind : n.kind = .declarator)
      (htarget : n.child? .name = some target) (hname : target.kind = .identifier)
      (hvalue : n.child? .value = some value) (hnew : Creates kind value.unwrapped) :
      Binds kind target.text n
  | assignment {n left right : Tree} (hkind : n.kind = .assignment)
      (hleft : n.child? .left = some left) (hname : left.kind = .identifier)
      (hright : n.child? .right = some right) (hnew : Creates kind right.unwrapped) :
      Binds kind left.text n

theorem containerKind?_eq_some_iff {value : Tree} {kind : ContainerKind} :
    containerKind? value = some kind ↔ Creates kind value := by
  rw [containerKind?_eq]
  constructor
  · intro h
    split at h
    · rename_i hcall
      obtain ⟨callee, hcallee, h⟩ := Option.bind_eq_some_iff.mp h
      unfold makerKind? at h
      split at h
      · rename_i hname
        split at h
        · rename_i htext
          cases h
          exact .router hcall hcallee hname htext
        · split at h
          · rename_i htext
            cases h
            exact .app hcall hcallee hname htext
          · cases h
      · rename_i hmember
        obtain ⟨property, hproperty, h⟩ := Option.bind_eq_some_iff.mp h
        split at h
        · rename_i htext
          cases h
          exact .memberRouter hcall hcallee hmember hproperty htext
        · cases h
      · cases h
    · cases h
  · intro h
    cases h with
    | router hcall hcallee hname htext =>
      rw [if_pos hcall, hcallee, Option.bind_some, makerKind?, hname]
      exact if_pos htext
    | memberRouter hcall hcallee hmember hproperty htext =>
      rw [if_pos hcall, hcallee, Option.bind_some, makerKind?, hmember]
      dsimp only
      rw [hproperty, Option.bind_some, if_pos htext]
    | app hcall hcallee hname htext =>
      rw [if_pos hcall, hcallee, Option.bind_some, makerKind?, hname]
      dsimp only
      rw [if_neg (by rw [htext]; decide), if_pos htext]

/-! ## Which nodes say what -/

/-- A binding with an initial value binds a new container, or something from a module. -/
theorem mem_ofDeclarator_cases {t : Tree} {f : Finding} (hk : t.kind = .declarator)
    (h : f ∈ ofDeclarator t) :
    (∃ kind name, f = container kind name ∧ Binds kind name t) ∨
      ∃ name specifier, f = imported name specifier := by
  unfold ofDeclarator at h
  split at h
  · rename_i target value htarget hvalue
    dsimp only at h
    split at h
    · rename_i hname
      split at h
      · rename_i kind hnew
        rw [List.mem_singleton.mp h]
        exact .inl ⟨kind, target.text, rfl,
          .declarator hk htarget hname hvalue (containerKind?_eq_some_iff.mp hnew)⟩
      · obtain ⟨specifier, -, rfl⟩ := Option.map_eq_some_iff.mp (Option.mem_toList.mp h)
        exact .inr ⟨target.text, specifier, rfl⟩
    · split at h
      · obtain ⟨name, -, rfl⟩ := List.mem_map.mp h
        exact .inr ⟨name, _, rfl⟩
      · cases h
    · cases h
  · cases h

/-- An assignment hands something out, or binds a new container. -/
theorem mem_ofAssignment_cases {t : Tree} {f : Finding} (hk : t.kind = .assignment)
    (h : f ∈ ofAssignment t) :
    (∃ kind name, f = container kind name ∧ Binds kind name t) ∨ ∃ name, f = published name := by
  unfold ofAssignment at h
  split at h
  · rename_i left right hleft hright
    split at h
    · obtain ⟨name, -, rfl⟩ := List.mem_map.mp h
      exact .inr ⟨name, rfl⟩
    · split at h
      · rename_i hname
        obtain ⟨kind, hnew, rfl⟩ := Option.map_eq_some_iff.mp (Option.mem_toList.mp h)
        exact .inl ⟨kind, left.text, rfl,
          .assignment hk hleft hname hright (containerKind?_eq_some_iff.mp hnew)⟩
      · cases h
  · cases h

theorem mem_ofImport_cases {t : Tree} {f : Finding} (h : f ∈ ofImport t) :
    ∃ name specifier, f = imported name specifier := by
  obtain ⟨part, -, h⟩ := List.mem_flatMap.mp h
  split at h
  · split at h
    · obtain ⟨name, -, rfl⟩ := List.mem_map.mp h
      exact ⟨name, _, rfl⟩
    · cases h
  · split at h
    · rw [List.mem_singleton.mp h]
      exact ⟨_, _, rfl⟩
    · cases h
  · cases h

/-! ## Registrations -/

/-- The names that arguments mention, each once. -/
def mentioned (given : List Tree) : List String :=
  Mention.names (Mention.ofTrees given)

/-- A chain of calls that begins with `name.route('path')`. -/
inductive Chain (name path : String) : Tree → Prop
  | route {t object property first : Tree} (hcall : t.kind = .call)
      (hmember : calledMember? t = some (object, property)) (hname : object.kind = .identifier)
      (htext : object.text = name) (hroute : property.text = "route")
      (hfirst : t.callArguments.head? = some first) (hpath : first.literal? = some path) :
      Chain name path t
  | method {t object property : Tree} {m : HttpMethod} (hcall : t.kind = .call)
      (hmember : calledMember? t = some (object, property))
      (hmethod : HttpMethod.ofCallName? property.text = some m) (h : Chain name path object) :
      Chain name path t

/-- A call that registers something on what a name holds. -/
inductive Registers (name : String) : Registration → Tree → Prop
  /-- `name.use('path', …rest)` -/
  | useAt {n object property first : Tree} {rest : List Tree} {path : String}
      (hmember : calledMember? n = some (object, property)) (hname : object.kind = .identifier)
      (htext : object.text = name) (huse : property.text = "use")
      (hgiven : n.callArguments = first :: rest) (hpath : first.literal? = some path) :
      Registers name (.mount path (mentioned rest)) n
  /-- `name.use(…)` without a path -/
  | use {n object property first : Tree} {rest : List Tree}
      (hmember : calledMember? n = some (object, property)) (hname : object.kind = .identifier)
      (htext : object.text = name) (huse : property.text = "use")
      (hgiven : n.callArguments = first :: rest) (hpath : first.literal? = none) :
      Registers name (.mount "/" (mentioned (first :: rest))) n
  /-- `name.get('path', next, …)` and the like -/
  | handler {n object property first next : Tree} {rest : List Tree} {path : String}
      {m : HttpMethod} (hmember : calledMember? n = some (object, property))
      (hname : object.kind = .identifier) (htext : object.text = name)
      (hmethod : HttpMethod.ofCallName? property.text = some m)
      (hgiven : n.callArguments = first :: next :: rest) (hpath : first.literal? = some path) :
      Registers name (.handler m path (mentioned (next :: rest))) n
  /-- `name.route('path').get(…)` and the like, further down the chain too -/
  | chained {n object property : Tree} {path : String} {m : HttpMethod}
      (hmember : calledMember? n = some (object, property)) (hchain : Chain name path object)
      (hmethod : HttpMethod.ofCallName? property.text = some m) :
      Registers name (.handler m path (mentioned n.callArguments)) n

/-- A chain is no plain name: it is a call. -/
theorem Chain.kind_ne_identifier {name path : String} {t : Tree} (h : Chain name path t) :
    t.kind ≠ .identifier := by
  have hcall : t.kind = .call := by cases h <;> assumption
  rw [hcall]
  decide

/-- The words `use` and `route` are no methods. -/
theorem ne_use_of_ofCallName? {s : String} {m : HttpMethod}
    (h : HttpMethod.ofCallName? s = some m) : s ≠ "use" := by
  rintro rfl
  cases h

theorem ne_route_of_ofCallName? {s : String} {m : HttpMethod}
    (h : HttpMethod.ofCallName? s = some m) : s ≠ "route" := by
  rintro rfl
  cases h

theorem chainBase?_eq_some_iff {name path : String} {t : Tree} :
    chainBase? t = some (name, path) ↔ Chain name path t := by
  constructor
  · intro h
    rw [chainBase?_eq] at h
    split at h
    · rename_i hcall
      obtain ⟨⟨object, property⟩, hmember, h⟩ := Option.bind_eq_some_iff.mp h
      have hlt : sizeOf object < sizeOf t := sizeOf_lt_of_calledMember? hmember
      dsimp only at h
      split at h
      · rename_i hbase
        rw [Bool.and_eq_true, decide_eq_true_eq, decide_eq_true_eq] at hbase
        obtain ⟨p, hliteral, heq⟩ := Option.map_eq_some_iff.mp h
        obtain ⟨first, hfirst, hpath⟩ := Option.bind_eq_some_iff.mp hliteral
        cases heq
        exact .route hcall hmember hbase.2 rfl hbase.1 hfirst hpath
      · split at h
        · rename_i hmethod
          obtain ⟨m, hmethod⟩ := Option.isSome_iff_exists.mp hmethod
          exact .method hcall hmember hmethod (chainBase?_eq_some_iff.mp h)
        · cases h
    · cases h
  · intro h
    rw [chainBase?_eq]
    cases h with
    | route hcall hmember hname htext hroute hfirst hpath =>
      rw [if_pos hcall, hmember, Option.bind_some]
      dsimp only
      rw [hname, hroute, htext, hfirst, Option.bind_some, hpath]
      rfl
    | method hcall hmember hmethod h =>
      have hlt := sizeOf_lt_of_calledMember? hmember
      rw [if_pos hcall, hmember, Option.bind_some]
      dsimp only
      rw [decide_eq_false (ne_route_of_ofCallName? hmethod), Bool.false_and,
        if_neg Bool.false_ne_true, hmethod]
      exact chainBase?_eq_some_iff.mpr h
termination_by sizeOf t

theorem mem_registration_iff {receiver : String} {make : List String → Registration}
    {given : List Tree} {name : String} {r : Registration} :
    registered name r ∈ registration receiver make given ↔
      receiver = name ∧ make (mentioned given) = r := by
  rw [registration, List.mem_cons]
  constructor
  · rintro (h | h)
    · cases h
      exact ⟨rfl, rfl⟩
    · obtain ⟨specifier, -, h⟩ := List.mem_map.mp h
      cases h
  · rintro ⟨rfl, rfl⟩
    exact .inl rfl

theorem mem_ofUse_iff {receiver name : String} {given : List Tree} {r : Registration} :
    registered name r ∈ ofUse receiver given ↔
      ∃ first rest, given = first :: rest ∧ receiver = name ∧
        (first.literal?).elim (.mount "/" (mentioned (first :: rest)))
          (fun path => .mount path (mentioned rest)) = r := by
  cases given with
  | nil =>
    constructor
    · exact fun h => absurd h List.not_mem_nil
    · rintro ⟨_, _, h, -⟩
      cases h
  | cons first rest =>
    have hiff : registered name r ∈ ofUse receiver (first :: rest) ↔
        receiver = name ∧ (first.literal?).elim (.mount "/" (mentioned (first :: rest)))
          (fun path => .mount path (mentioned rest)) = r := by
      unfold ofUse
      dsimp only
      cases first.literal? <;> exact mem_registration_iff
    rw [hiff]
    constructor
    · exact fun h => ⟨first, rest, rfl, h⟩
    · rintro ⟨_, _, heq, h⟩
      cases heq
      exact h

theorem mem_ofHandler_iff {receiver name : String} {m : HttpMethod} {given : List Tree}
    {r : Registration} :
    registered name r ∈ ofHandler receiver m given ↔
      ∃ first next rest path, given = first :: next :: rest ∧ first.literal? = some path ∧
        receiver = name ∧ .handler m path (mentioned (next :: rest)) = r := by
  constructor
  · intro h
    unfold ofHandler at h
    split at h
    · rename_i first next rest
      split at h
      · rename_i path hpath
        exact ⟨first, next, rest, path, rfl, hpath, mem_registration_iff.mp h⟩
      · cases h
    · cases h
  · rintro ⟨first, next, rest, path, rfl, hpath, h⟩
    rw [ofHandler, hpath]
    exact mem_registration_iff.mpr h

theorem registers_of_mem_ofCall {n : Tree} {name : String} {r : Registration}
    (h : registered name r ∈ ofCall n) : Registers name r n := by
  rw [ofCall_eq] at h
  cases hmember : calledMember? n with
  | none =>
    rw [hmember] at h
    cases h
  | some member =>
    obtain ⟨object, property⟩ := member
    rw [hmember, Option.elim_some] at h
    dsimp only at h
    by_cases hname : object.kind = .identifier
    · rw [if_pos hname] at h
      by_cases huse : property.text = "use"
      · rw [if_pos huse] at h
        obtain ⟨first, rest, hgiven, htext, rfl⟩ := mem_ofUse_iff.mp h
        cases hpath : first.literal? with
        | none => exact .use hmember hname htext huse hgiven hpath
        | some path => exact .useAt hmember hname htext huse hgiven hpath
      · rw [if_neg huse] at h
        cases hmethod : HttpMethod.ofCallName? property.text with
        | none =>
          rw [hmethod] at h
          cases h
        | some m =>
          rw [hmethod] at h
          obtain ⟨first, next, rest, path, hgiven, hpath, htext, rfl⟩ := mem_ofHandler_iff.mp h
          exact .handler hmember hname htext hmethod hgiven hpath
    · rw [if_neg hname] at h
      cases hmethod : HttpMethod.ofCallName? property.text with
      | none =>
        rw [hmethod] at h
        cases h
      | some m =>
        cases hchain : chainBase? object with
        | none =>
          rw [hmethod, hchain] at h
          cases h
        | some base =>
          obtain ⟨receiver, path⟩ := base
          rw [hmethod, hchain] at h
          obtain ⟨rfl, rfl⟩ := mem_registration_iff.mp h
          exact .chained hmember (chainBase?_eq_some_iff.mp hchain) hmethod

theorem Registers.mem_ofCall {n : Tree} {name : String} {r : Registration}
    (h : Registers name r n) : registered name r ∈ ofCall n := by
  rw [ofCall_eq]
  cases h with
  | useAt hmember hname htext huse hgiven hpath =>
    rw [hmember, Option.elim_some]
    dsimp only
    rw [if_pos hname, if_pos huse]
    exact mem_ofUse_iff.mpr ⟨_, _, hgiven, htext, by rw [hpath]; rfl⟩
  | use hmember hname htext huse hgiven hpath =>
    rw [hmember, Option.elim_some]
    dsimp only
    rw [if_pos hname, if_pos huse]
    exact mem_ofUse_iff.mpr ⟨_, _, hgiven, htext, by rw [hpath]; rfl⟩
  | handler hmember hname htext hmethod hgiven hpath =>
    rw [hmember, Option.elim_some]
    dsimp only
    rw [if_pos hname, if_neg (ne_use_of_ofCallName? hmethod), hmethod]
    exact mem_ofHandler_iff.mpr ⟨_, _, _, _, hgiven, hpath, htext, rfl⟩
  | chained hmember hchain hmethod =>
    rw [hmember, Option.elim_some]
    dsimp only
    rw [if_neg hchain.kind_ne_identifier, hmethod, chainBase?_eq_some_iff.mpr hchain]
    exact mem_registration_iff.mpr ⟨rfl, rfl⟩

/-- A call registers what the member that is called asks for. -/
theorem registered_mem_ofCall_iff {n : Tree} {name : String} {r : Registration} :
    registered name r ∈ ofCall n ↔ Registers name r n :=
  ⟨registers_of_mem_ofCall, Registers.mem_ofCall⟩

/-- What is said besides registrations: modules that are required for them. -/
theorem mem_registration_cases {receiver : String} {make : List String → Registration}
    {given : List Tree} {f : Finding} (h : f ∈ registration receiver make given) :
    (∃ name r, f = registered name r) ∨ ∃ specifier, f = required specifier := by
  rcases List.mem_cons.mp h with rfl | h
  · exact .inl ⟨_, _, rfl⟩
  · obtain ⟨specifier, -, rfl⟩ := List.mem_map.mp h
    exact .inr ⟨specifier, rfl⟩

theorem mem_ofCall_cases {t : Tree} {f : Finding} (h : f ∈ ofCall t) :
    (∃ name r, f = registered name r) ∨ ∃ specifier, f = required specifier := by
  unfold ofCall at h
  split at h
  · cases h
  · split at h
    · cases h
    · split at h
      · dsimp only at h
        split at h
        · split at h
          · unfold ofUse at h
            split at h
            · cases h
            · split at h <;> exact mem_registration_cases h
          · split at h
            · unfold ofHandler at h
              split at h
              · split at h
                · exact mem_registration_cases h
                · cases h
              · cases h
            · cases h
        · split at h
          · exact mem_registration_cases h
          · cases h
      · cases h

/-! ## Whole nodes -/

/-- A container is found where a name is bound to one. -/
theorem container_mem_ofNode_iff {n : Tree} {kind : ContainerKind} {name : String} :
    container kind name ∈ ofNode n ↔ Binds kind name n := by
  constructor
  · intro h
    unfold ofNode at h
    split at h
    · rename_i hk
      obtain ⟨kind', name', heq, hbinds⟩ | ⟨name', specifier, heq⟩ := mem_ofDeclarator_cases hk h
      · cases heq
        exact hbinds
      · cases heq
    · obtain ⟨name', r, heq⟩ | ⟨specifier, heq⟩ := mem_ofCall_cases h <;> cases heq
    · obtain ⟨name', specifier, heq⟩ := mem_ofImport_cases h
      cases heq
    · obtain ⟨name', -, heq⟩ := List.mem_map.mp h
      cases heq
    · rename_i hk
      obtain ⟨kind', name', heq, hbinds⟩ | ⟨name', heq⟩ := mem_ofAssignment_cases hk h
      · cases heq
        exact hbinds
      · cases heq
    · cases h
  · intro h
    cases h with
    | declarator hkind htarget hname hvalue hnew =>
      unfold ofNode ofDeclarator
      rw [hkind, htarget, hvalue]
      dsimp only
      rw [hname, containerKind?_eq_some_iff.mpr hnew]
      exact List.mem_singleton.mpr rfl
    | assignment hkind hleft hname hright hnew =>
      unfold ofNode ofAssignment
      rw [hkind, hleft, hright]
      dsimp only
      rw [Tree.isExportTarget, hname, containerKind?_eq_some_iff.mpr hnew]
      exact List.mem_singleton.mpr rfl

/-- A registration is found where it is made. -/
theorem registered_mem_ofNode_iff {n : Tree} {name : String} {r : Registration} :
    registered name r ∈ ofNode n ↔ n.kind = .call ∧ Registers name r n := by
  constructor
  · intro h
    unfold ofNode at h
    split at h
    · rename_i hk
      obtain ⟨_, _, heq, -⟩ | ⟨_, _, heq⟩ := mem_ofDeclarator_cases hk h <;> cases heq
    · rename_i hk
      exact ⟨hk, registered_mem_ofCall_iff.mp h⟩
    · obtain ⟨_, _, heq⟩ := mem_ofImport_cases h
      cases heq
    · obtain ⟨_, -, heq⟩ := List.mem_map.mp h
      cases heq
    · rename_i hk
      obtain ⟨_, _, heq, -⟩ | ⟨_, heq⟩ := mem_ofAssignment_cases hk h <;> cases heq
    · cases h
  · rintro ⟨hk, h⟩
    unfold ofNode
    rw [hk]
    exact registered_mem_ofCall_iff.mpr h

theorem container_mem_ofTree_iff {t : Tree} {kind : ContainerKind} {name : String} :
    container kind name ∈ ofTree t ↔ ∃ n, n.Within t ∧ Binds kind name n := by
  rw [mem_ofTree_iff]
  exact exists_congr fun n => and_congr_right fun _ => container_mem_ofNode_iff

end Finding

end RouteAtlas
