import RouteAtlas.Proofs.Source.Nodes

/-!
# What a module hands out

A function that a module hands out stands for the names it returns.  Which `return`s are its own is
a question of what stands between the function and the `return`: `Refers hides` tells what a value
refers to when nothing is seen behind nodes of certain kinds, and `HandsOut hides` what one node
hands out.  The walk does not look behind other functions, classes and `return`s (`isClosed`), and
finds what is handed out when these hide (`published_mem_ofTree_iff`).
-/

set_option autoImplicit false

namespace RouteAtlas

open Syntax

namespace Syntax.Tree

/-! ## Seeing past nodes -/

/-- A node that can be seen from the top of a tree, when nothing is seen behind nodes of certain
kinds.  The node itself may be of such a kind. -/
inductive Exposed (hides : Kind → Bool) (n : Tree) : Tree → Prop
  | here : Exposed hides n n
  | under {t c : Tree} (hopen : hides t.kind = false) (hc : c ∈ t.children)
      (h : Exposed hides n c) : Exposed hides n t

variable {hides : Kind → Bool} {n t : Tree}

theorem exposed_iff :
    n.Exposed hides t ↔ n = t ∨ hides t.kind = false ∧ ∃ c ∈ t.children, n.Exposed hides c := by
  constructor
  · rintro (_ | ⟨hopen, hc, h⟩)
    · exact .inl rfl
    · exact .inr ⟨hopen, _, hc, h⟩
  · rintro (rfl | ⟨hopen, c, hc, h⟩)
    · exact .here
    · exact .under hopen hc h

theorem Exposed.within (h : n.Exposed hides t) : n.Within t := by
  induction h with
  | here => exact .here
  | under _ hc _ ih => exact .under hc ih

/-! ## Results -/

/-- What the search for `return`s does not look behind: another function, a class, a `return`. -/
def isClosed (k : Kind) : Bool :=
  k = .returnStatement || isOtherFunction k

/-- An expression that a `return` gives back, and that `return`. -/
def GivesBack (e r : Tree) : Prop :=
  r.kind = .returnStatement ∧ r.children.head? = some e

/-- An expression that a body returns, by a `return` that is not hidden. -/
def ReturnedBy (hides : Kind → Bool) (e body : Tree) : Prop :=
  ∃ c ∈ body.children, ∃ r : Tree, r.Exposed hides c ∧ e.GivesBack r

/-- A result of a function with this body: a block returns it, any other body is one. -/
def ResultOf (hides : Kind → Bool) (e body : Tree) : Prop :=
  if body.kind = .block then e.ReturnedBy hides body else e = body

variable {e body : Tree}

theorem ReturnedBy.within (h : e.ReturnedBy hides body) : e.Within body := by
  obtain ⟨c, hc, r, hr, -, hfirst⟩ := h
  have he : e.Within r := .under (List.mem_of_mem_head? hfirst) .here
  exact .under hc (he.trans hr.within)

theorem ResultOf.within (h : e.ResultOf hides body) : e.Within body := by
  unfold ResultOf at h
  split at h
  · exact h.within
  · exact h ▸ .here

variable {x : String}

theorem mem_elim_nil_iff {α : Type} {o : Option α} {f : α → List String} :
    x ∈ o.elim [] f ↔ ∃ a, o = some a ∧ x ∈ f a := by
  cases o with
  | none => exact ⟨fun h => absurd h List.not_mem_nil, fun ⟨_, h, _⟩ => nomatch h⟩
  | some a => exact ⟨fun h => ⟨a, rfl, h⟩, fun ⟨_, heq, h⟩ => Option.some.inj heq ▸ h⟩

/-- The search in a statement finds the `return`s that are exposed in it. -/
theorem mem_returnedIn_iff {t : Tree} :
    x ∈ t.returnedIn ↔
      ∃ e r : Tree, r.Exposed isClosed t ∧ e.GivesBack r ∧ x ∈ e.published := by
  unfold returnedIn
  by_cases hreturn : t.kind = .returnStatement
  · rw [if_pos hreturn, mem_elim_nil_iff]
    constructor
    · rintro ⟨e, hfirst, h⟩
      exact ⟨e, t, .here, ⟨hreturn, hfirst⟩, h⟩
    · rintro ⟨e, r, hr, ⟨-, hfirst⟩, h⟩
      obtain rfl | ⟨hopen, -⟩ := exposed_iff.mp hr
      · exact ⟨e, hfirst, h⟩
      · rw [isClosed, hreturn] at hopen
        cases hopen
  · rw [if_neg hreturn]
    by_cases hother : isOtherFunction t.kind = true
    · rw [if_pos hother]
      constructor
      · exact fun h => absurd h List.not_mem_nil
      · rintro ⟨e, r, hr, ⟨hkind, -⟩, -⟩
        obtain rfl | ⟨hopen, -⟩ := exposed_iff.mp hr
        · exact absurd hkind hreturn
        · rw [isClosed, hother, Bool.or_true] at hopen
          cases hopen
    · have hopen : isClosed t.kind = false := by
        rw [isClosed, decide_eq_false hreturn, eq_false_of_ne_true hother]
        rfl
      rw [if_neg hother, returned_eq, List.mem_flatMap]
      constructor
      · rintro ⟨c, hc, h⟩
        have hlt : sizeOf c < sizeOf t := sizeOf_lt_of_mem hc
        obtain ⟨e, r, hr, hrest⟩ := mem_returnedIn_iff.mp h
        exact ⟨e, r, .under hopen hc hr, hrest⟩
      · rintro ⟨e, r, hr, hgives, h⟩
        obtain rfl | ⟨-, c, hc, hrc⟩ := exposed_iff.mp hr
        · exact absurd hgives.1 hreturn
        · have hlt : sizeOf c < sizeOf t := sizeOf_lt_of_mem hc
          exact ⟨c, hc, mem_returnedIn_iff.mpr ⟨e, r, hrc, hgives, h⟩⟩
termination_by sizeOf t

theorem mem_returned_iff :
    x ∈ body.children.flatMap returnedIn ↔
      ∃ e : Tree, e.ReturnedBy isClosed body ∧ x ∈ e.published := by
  rw [List.mem_flatMap]
  constructor
  · rintro ⟨c, hc, h⟩
    obtain ⟨e, r, hr, hgives, h⟩ := mem_returnedIn_iff.mp h
    exact ⟨e, ⟨c, hc, r, hr, hgives⟩, h⟩
  · rintro ⟨e, ⟨c, hc, r, hr, hgives⟩, h⟩
    exact ⟨c, hc, mem_returnedIn_iff.mpr ⟨e, r, hr, hgives, h⟩⟩

theorem mem_results_iff :
    x ∈ results body ↔ ∃ e : Tree, e.ResultOf isClosed body ∧ x ∈ e.published := by
  unfold results ResultOf
  split
  · rw [returned_eq]
    exact mem_returned_iff
  · exact ⟨fun h => ⟨body, rfl, h⟩, fun ⟨e, heq, h⟩ => heq ▸ h⟩

/-! ## What a value refers to -/

/-- The functions that are values. -/
def isFunctionValue : Kind → Bool
  | .arrowFunction | .functionExpression | .generatorFunction => true
  | _ => false

/-- A value that names something itself. -/
inductive Names (x : String) : Tree → Prop
  | identifier {t : Tree} (hkind : t.kind = .identifier) (htext : t.text = x) : Names x t
  | shorthand {t m : Tree} (hkind : t.kind = .object) (hm : m ∈ t.children)
      (hshort : m.kind = .shorthand) (htext : m.text = x) : Names x t

/-- An expression that a value is seen through to: the one in a wrapper, a value in an object
literal, what is assigned, a result of a function. -/
inductive Through (hides : Kind → Bool) (e : Tree) : Tree → Prop
  | wrapped {t : Tree} (hkind : isWrapper t.kind = true) (hinner : t.inner? = some e) :
      Through hides e t
  | pair {t m : Tree} (hkind : t.kind = .object) (hm : m ∈ t.children) (hpair : m.kind = .pair)
      (hvalue : m.child? .value = some e) : Through hides e t
  | assigned {t : Tree} (hkind : t.kind = .assignment) (hright : t.child? .right = some e) :
      Through hides e t
  | result {t body : Tree} (hkind : isFunctionValue t.kind = true)
      (hbody : t.child? .body = some body) (he : e.ResultOf hides body) : Through hides e t

/-- A value that refers to a name, itself or through other values. -/
inductive Refers (hides : Kind → Bool) (x : String) : Tree → Prop
  | named {t : Tree} (h : t.Names x) : Refers hides x t
  | through {t e : Tree} (he : e.Through hides t) (h : Refers hides x e) : Refers hides x t

/-- A plain name refers to itself only. -/
theorem Refers.text_eq {t : Tree} (h : Refers hides x t) (hkind : t.kind = .identifier) :
    t.text = x := by
  cases h with
  | named h =>
    cases h with
    | identifier _ htext => exact htext
    | shorthand hobject => cases hkind.symm.trans hobject
  | through he =>
    cases he with
    | wrapped hwrapper =>
      rw [hkind] at hwrapper
      cases hwrapper
    | pair hobject => cases hkind.symm.trans hobject
    | assigned hassignment => cases hkind.symm.trans hassignment
    | result hfunction =>
      rw [hkind] at hfunction
      cases hfunction

theorem Through.within {t : Tree} (h : e.Through hides t) : e.Within t := by
  cases h with
  | wrapped _ hinner => exact .under (List.mem_of_find?_eq_some hinner) .here
  | pair _ hm _ hvalue => exact .under hm (within_of_child? hvalue)
  | assigned _ hright => exact within_of_child? hright
  | result _ hbody he => exact he.within.trans (within_of_child? hbody)

/-- What a value is seen through to is smaller. -/
theorem Through.sizeOf_lt {t : Tree} (h : e.Through hides t) : sizeOf e < sizeOf t := by
  cases h with
  | wrapped _ hinner => exact sizeOf_lt_of_mem (List.mem_of_find?_eq_some hinner)
  | pair _ hm _ hvalue => exact Nat.lt_trans (sizeOf_lt_of_child? hvalue) (sizeOf_lt_of_mem hm)
  | assigned _ hright => exact sizeOf_lt_of_child? hright
  | result _ hbody he =>
    exact Nat.lt_of_le_of_lt he.within.sizeOf_le (sizeOf_lt_of_child? hbody)

theorem published_of_isFunctionValue {t : Tree} (h : isFunctionValue t.kind = true) :
    t.published = (t.child? .body).elim [] results := by
  rw [published_eq]
  unfold isFunctionValue at h
  split at h
  iterate 3
    rename_i hkind
    rw [hkind]
    rfl
  · cases h

theorem mem_publishedMember_iff {m : Tree} :
    x ∈ m.publishedMember ↔ m.kind = .shorthand ∧ m.text = x ∨
      m.kind = .pair ∧ ∃ v, m.child? .value = some v ∧ x ∈ v.published := by
  unfold publishedMember
  split
  · rename_i hshort
    rw [List.mem_singleton, hshort]
    exact ⟨fun h => .inl ⟨rfl, h.symm⟩, fun h => h.elim (·.2.symm) fun h => nomatch h.1⟩
  · rename_i hshort
    split
    · rename_i hpair
      rw [mem_elim_nil_iff]
      exact ⟨fun h => .inr ⟨hpair, h⟩, fun h => h.elim (fun h => absurd h.1 hshort) (·.2)⟩
    · rename_i hpair
      exact ⟨fun h => absurd h List.not_mem_nil,
        fun h => h.elim (fun h => absurd h.1 hshort) fun h => absurd h.1 hpair⟩

/-- One step of the search for published names. -/
theorem mem_published_step {t : Tree} :
    x ∈ t.published ↔ t.Names x ∨ ∃ e : Tree, e.Through isClosed t ∧ x ∈ e.published := by
  constructor
  · intro h
    by_cases hfunction : isFunctionValue t.kind = true
    · rw [published_of_isFunctionValue hfunction] at h
      obtain ⟨body, hbody, h⟩ := mem_elim_nil_iff.mp h
      obtain ⟨e, he, h⟩ := mem_results_iff.mp h
      exact .inr ⟨e, .result hfunction hbody he, h⟩
    · rw [published_eq] at h
      split at h
      · rename_i hkind
        obtain ⟨e, hinner, h⟩ := mem_elim_nil_iff.mp h
        exact .inr ⟨e, .wrapped hkind hinner, h⟩
      · split at h
        · rename_i hkind
          exact .inl (.identifier hkind (List.mem_singleton.mp h).symm)
        · rename_i hkind
          obtain ⟨m, hm, h⟩ := List.mem_flatMap.mp h
          obtain ⟨hshort, htext⟩ | ⟨hpair, v, hvalue, h⟩ := mem_publishedMember_iff.mp h
          · exact .inl (.shorthand hkind hm hshort htext)
          · exact .inr ⟨v, .pair hkind hm hpair hvalue, h⟩
        · rename_i hkind
          obtain ⟨v, hright, h⟩ := mem_elim_nil_iff.mp h
          exact .inr ⟨v, .assigned hkind hright, h⟩
        iterate 3
          rename_i hkind
          exact absurd (hkind ▸ rfl) hfunction
        · exact absurd h List.not_mem_nil
  · rintro (h | ⟨e, he, h⟩)
    · cases h with
      | identifier hkind htext =>
        rw [published_eq, hkind]
        exact List.mem_singleton.mpr htext.symm
      | shorthand hkind hm hshort htext =>
        rw [published_eq, hkind]
        exact List.mem_flatMap.mpr ⟨_, hm, mem_publishedMember_iff.mpr (.inl ⟨hshort, htext⟩)⟩
    · cases he with
      | wrapped hkind hinner =>
        rw [published_eq, if_pos hkind]
        exact mem_elim_nil_iff.mpr ⟨e, hinner, h⟩
      | pair hkind hm hpair hvalue =>
        rw [published_eq, hkind]
        exact List.mem_flatMap.mpr
          ⟨_, hm, mem_publishedMember_iff.mpr (.inr ⟨hpair, e, hvalue, h⟩)⟩
      | assigned hkind hright =>
        rw [published_eq, hkind]
        exact mem_elim_nil_iff.mpr ⟨e, hright, h⟩
      | result hkind hbody he =>
        rw [published_of_isFunctionValue hkind]
        exact mem_elim_nil_iff.mpr ⟨_, hbody, mem_results_iff.mpr ⟨e, he, h⟩⟩

/-- The names that a value publishes are the names it refers to. -/
theorem mem_published_iff {t : Tree} : x ∈ t.published ↔ Refers isClosed x t := by
  rw [mem_published_step]
  constructor
  · rintro (h | ⟨e, he, h⟩)
    · exact .named h
    · have hlt := he.sizeOf_lt
      exact .through he (mem_published_iff.mp h)
  · rintro (h | ⟨he, h⟩)
    · exact .inl h
    · have hlt := he.sizeOf_lt
      exact .inr ⟨_, he, mem_published_iff.mpr h⟩
termination_by sizeOf t

/-! ## What a node hands out -/

/-- A value that a statement exports: `export default v`, `export = v`. -/
inductive Exports (v : Tree) : Tree → Prop
  | value {n : Tree} (hvalue : n.child? .value = some v) : Exports v n
  | assigned {n : Tree} (hvalue : n.child? .value = none) (hassign : n.isExportAssignment = true)
      (hlast : (n.parts.filter fun c => c.kind ≠ .exportClause && c.kind ≠ .comment).getLast? =
        some v) : Exports v n

/-- An export statement or an assignment to the exports that hands out a name. -/
inductive HandsOut (hides : Kind → Bool) (x : String) : Tree → Prop
  /-- `export const x = …` -/
  | declared {n d : Tree} (hkind : n.kind = .exportStatement) (hsource : n.child? .source = none)
      (hd : n.child? .declaration = some d)
      (hdecl : d.kind = .lexicalDeclaration ∨ d.kind = .variableDeclaration)
      (hx : x ∈ d.declaredNames) : HandsOut hides x n
  /-- `export function f() { … }` -/
  | returned {n d body e : Tree} (hkind : n.kind = .exportStatement)
      (hsource : n.child? .source = none) (hd : n.child? .declaration = some d)
      (hdecl : d.kind = .functionDeclaration ∨ d.kind = .generatorDeclaration)
      (hbody : d.child? .body = some body) (he : e.ReturnedBy hides body)
      (h : Refers hides x e) : HandsOut hides x n
  /-- `export { x }` -/
  | clause {n : Tree} (hkind : n.kind = .exportStatement) (hsource : n.child? .source = none)
      (hd : n.child? .declaration = none) (hvalue : n.child? .value = none)
      (hx : x ∈ n.clauseNames) : HandsOut hides x n
  | value {n v : Tree} (hkind : n.kind = .exportStatement) (hsource : n.child? .source = none)
      (hd : n.child? .declaration = none) (hv : v.Exports n) (h : Refers hides x v) :
      HandsOut hides x n
  /-- `module.exports = …` -/
  | assigned {n left right : Tree} (hkind : n.kind = .assignment)
      (hleft : n.child? .left = some left) (htarget : left.isExportTarget = true)
      (hright : n.child? .right = some right) (h : Refers hides x right) : HandsOut hides x n

theorem mem_returnedNames_iff {d : Tree} :
    x ∈ d.returnedNames ↔ ∃ body, d.child? .body = some body ∧
      ∃ e : Tree, e.ReturnedBy isClosed body ∧ Refers isClosed x e := by
  rw [returnedNames_eq, mem_elim_nil_iff]
  refine exists_congr fun body => and_congr_right fun _ => mem_returned_iff.trans ?_
  exact exists_congr fun e => and_congr_right fun _ => mem_published_iff

theorem mem_exportedNames_iff {n : Tree} (hkind : n.kind = .exportStatement) :
    x ∈ n.exportedNames ↔ HandsOut isClosed x n := by
  constructor
  · intro h
    unfold exportedNames at h
    split at h
    · exact absurd h List.not_mem_nil
    · rename_i hsource
      have hsource := Option.not_isSome_iff_eq_none.mp hsource
      split at h
      · rename_i d hd
        split at h
        · rename_i hdecl
          exact .declared hkind hsource hd (.inl hdecl) h
        · rename_i hdecl
          exact .declared hkind hsource hd (.inr hdecl) h
        · rename_i hdecl
          obtain ⟨body, hbody, e, he, h⟩ := mem_returnedNames_iff.mp h
          exact .returned hkind hsource hd (.inl hdecl) hbody he h
        · rename_i hdecl
          obtain ⟨body, hbody, e, he, h⟩ := mem_returnedNames_iff.mp h
          exact .returned hkind hsource hd (.inr hdecl) hbody he h
        · exact absurd h List.not_mem_nil
      · rename_i hd
        split at h
        · rename_i v hvalue
          exact .value hkind hsource hd (.value hvalue) (mem_published_iff.mp h)
        · rename_i hvalue
          rcases List.mem_append.mp h with h | h
          · exact .clause hkind hsource hd hvalue h
          · split at h
            · rename_i hassign
              split at h
              · rename_i v hlast
                exact .value hkind hsource hd (.assigned hvalue hassign hlast)
                  (mem_published_iff.mp h)
              · exact absurd h List.not_mem_nil
            · exact absurd h List.not_mem_nil
  · intro h
    cases h with
    | declared _ hsource hd hdecl hx =>
      rw [exportedNames, hsource, hd]
      dsimp only
      rcases hdecl with hdecl | hdecl <;> (rw [hdecl]; exact hx)
    | returned _ hsource hd hdecl hbody he h =>
      have hx := mem_returnedNames_iff.mpr ⟨_, hbody, _, he, h⟩
      rw [exportedNames, hsource, hd]
      dsimp only
      rcases hdecl with hdecl | hdecl <;> (rw [hdecl]; exact hx)
    | clause _ hsource hd hvalue hx =>
      rw [exportedNames, hsource, hd, hvalue]
      exact List.mem_append_left _ hx
    | value _ hsource hd hv h =>
      have hx := mem_published_iff.mpr h
      cases hv with
      | value hvalue =>
        rw [exportedNames, hsource, hd, hvalue]
        exact hx
      | assigned hvalue hassign hlast =>
        rw [exportedNames, hsource, hd, hvalue]
        dsimp only
        rw [if_pos hassign, hlast]
        exact List.mem_append_right _ hx
    | assigned hassignment => rw [hkind] at hassignment; cases hassignment

end Syntax.Tree

namespace Finding

open Syntax.Tree

variable {x : String}

theorem handsOut_of_mem_ofAssignment {n : Tree} (hkind : n.kind = .assignment)
    (h : published x ∈ ofAssignment n) : HandsOut isClosed x n := by
  unfold ofAssignment at h
  split at h
  · rename_i left right hleft hright
    split at h
    · rename_i htarget
      obtain ⟨_, h, heq⟩ := List.mem_map.mp h
      cases heq
      exact .assigned hkind hleft htarget hright (mem_published_iff.mp h)
    · split at h
      · obtain ⟨_, _, heq⟩ := Option.map_eq_some_iff.mp (Option.mem_toList.mp h)
        cases heq
      · cases h
  · cases h

/-- A name is handed out where a node hands it out. -/
theorem published_mem_ofNode_iff {n : Tree} :
    published x ∈ ofNode n ↔ HandsOut isClosed x n := by
  have hexport (hkind : n.kind = .exportStatement) :
      published x ∈ n.exportedNames.map published ↔ HandsOut isClosed x n := by
    constructor
    · intro h
      obtain ⟨_, h, heq⟩ := List.mem_map.mp h
      cases heq
      exact (mem_exportedNames_iff hkind).mp h
    · exact fun h => List.mem_map.mpr ⟨x, (mem_exportedNames_iff hkind).mpr h, rfl⟩
  constructor
  · intro h
    unfold ofNode at h
    split at h
    · rename_i hk
      obtain ⟨_, _, heq, -⟩ | ⟨_, _, heq⟩ := mem_ofDeclarator_cases hk h <;> cases heq
    · obtain ⟨_, _, heq⟩ | ⟨_, heq⟩ := mem_ofCall_cases h <;> cases heq
    · obtain ⟨_, _, heq⟩ := mem_ofImport_cases h
      cases heq
    · rename_i hk
      exact (hexport hk).mp h
    · rename_i hk
      exact handsOut_of_mem_ofAssignment hk h
    · cases h
  · intro h
    unfold ofNode
    by_cases hk : n.kind = .exportStatement
    · rw [hk]
      exact (hexport hk).mpr h
    · cases h with
      | assigned hkind hleft htarget hright h =>
        rw [hkind]
        dsimp only
        rw [ofAssignment, hleft, hright]
        dsimp only
        rw [if_pos htarget]
        exact List.mem_map.mpr ⟨x, mem_published_iff.mpr h, rfl⟩
      | _ => exact absurd ‹n.kind = .exportStatement› hk

theorem published_mem_ofTree_iff {t : Tree} :
    published x ∈ ofTree t ↔ ∃ n, n.Within t ∧ HandsOut isClosed x n := by
  rw [mem_ofTree_iff]
  exact exists_congr fun n => and_congr_right fun _ => published_mem_ofNode_iff

end Finding

end RouteAtlas
