import RouteAtlas.Proofs.Source.CommentedTree
import RouteAtlas.Source.Extraction

/-!
# Comments say nothing

What a walk finds in a tree, and so what a file says about routes, is the same with comments and
without (`ofFindings_commented`), unless a comment stands in one of the three places where it hides
something.  There it does make a difference (`comment_hides_returned_router`).
-/

set_option autoImplicit false

namespace RouteAtlas

open Syntax Syntax.Tree

/-! ## Mentions -/

/-- Arguments mention the same names unless a comment hides a module that is required. -/
theorem Mention.ofTree_eq_of_commented {t t' : Tree} (h : Commented KeepsFirst t t') :
    Mention.ofTree t' = Mention.ofTree t := by
  rw [Mention.ofTree_eq, Mention.ofTree_eq t, h.kind_eq, h.text_eq, h.requiredModule?_eq]
  have hchild {l : Label} (hl : l ≠ .plain) :
      (t'.child? l).elim [] Mention.ofTree = (t.child? l).elim [] Mention.ofTree := by
    apply elim_eq_of_rel (h.child? hl)
    intro c d hc _ hcd
    have hlt : sizeOf c < sizeOf t := sizeOf_lt_of_child? hc
    exact Mention.ofTree_eq_of_commented hcd
  have hchildren : t'.children.flatMap Mention.ofTree = t.children.flatMap Mention.ofTree := by
    apply h.children.flatMap
    · rintro c ⟨text, rfl⟩
      rfl
    · intro c hc d hcd
      have hlt : sizeOf c < sizeOf t := sizeOf_lt_of_mem hc
      exact Mention.ofTree_eq_of_commented hcd
  rw [hchild (by decide), hchild (by decide), hchild (by decide), hchildren]
termination_by sizeOf t

theorem Mention.ofTrees_eq_of_commented {ts ts' : List Tree}
    (h : List.Forall₂ (Commented KeepsFirst) ts ts') :
    Mention.ofTrees ts' = Mention.ofTrees ts := by
  rw [Mention.ofTrees_eq_flatMap, Mention.ofTrees_eq_flatMap]
  induction h with
  | nil => rfl
  | cons hcd _ ih => rw [List.flatMap_cons, List.flatMap_cons, ofTree_eq_of_commented hcd, ih]

namespace Finding

variable {t t' : Tree}

/-! ## Bindings -/

theorem containerKind?_eq_of_commented {holds : Tree → Tree → Prop} (h : Commented holds t t') :
    containerKind? t' = containerKind? t := by
  rw [containerKind?_eq, containerKind?_eq t, h.kind_eq]
  split
  · apply bind_eq_of_rel (h.child? (by decide))
    intro c d _ _ hcd
    rw [makerKind?, makerKind?, hcd.kind_eq, hcd.text_eq]
    split
    · rfl
    · apply bind_eq_of_rel (hcd.child? (by decide))
      intro p q _ _ hpq
      rw [hpq.text_eq]
    · rfl
  · rfl

theorem originModule?_eq_of_commented (h : Commented KeepsFirst t t') :
    originModule? t' = originModule? t := by
  have hobject :
      (t'.child? .object).bind requiredModule? = (t.child? .object).bind requiredModule? :=
    bind_eq_of_rel (h.child? (by decide)) fun c d _ _ hcd => hcd.requiredModule?_eq
  rw [originModule?, originModule?, h.requiredModule?_eq, h.kind_eq, hobject]

theorem boundName?_eq_of_commented {holds : Tree → Tree → Prop} (h : Commented holds t t') :
    boundName? t' = boundName? t := by
  unfold boundName?
  rw [h.kind_eq, h.text_eq]
  split
  · rfl
  · apply bind_eq_of_rel (h.child? (by decide))
    intro v w _ _ hvw
    have htarget : Commented holds
        (if v.kind = .assignmentPattern then (v.child? .left).getD v else v)
        (if w.kind = .assignmentPattern then (w.child? .left).getD w else w) := by
      rw [hvw.kind_eq]
      split
      · exact getD_rel (hvw.child? (by decide)) hvw
      · exact hvw
    dsimp only
    rw [htarget.kind_eq, htarget.text_eq]
  · exact map_eq_of_rel (h.child? (by decide)) fun v w hvw => hvw.text_eq
  · rfl

theorem ofDeclarator_eq_of_commented (h : Commented KeepsFirst t t') :
    ofDeclarator t' = ofDeclarator t := by
  unfold ofDeclarator
  rcases cases_of_rel (h.child? (show Label.name ≠ .plain by decide)) with
    ⟨hn, hn'⟩ | ⟨target, target', hn, hn', htarget⟩
  · rw [hn, hn']
  rw [hn, hn']
  rcases cases_of_rel (h.child? (show Label.value ≠ .plain by decide)) with
    ⟨hv, hv'⟩ | ⟨value, value', hv, hv', hvalue⟩
  · rw [hv, hv']
  rw [hv, hv']
  have hnames : target'.parts.filterMap boundName? = target.parts.filterMap boundName? := by
    apply htarget.parts.filterMap
    · rintro c ⟨text, rfl⟩
      rfl
    · exact fun c d hcd => boundName?_eq_of_commented hcd
  dsimp only
  rw [htarget.kind_eq, htarget.text_eq, containerKind?_eq_of_commented hvalue.unwrapped,
    originModule?_eq_of_commented hvalue.unwrapped, hvalue.unwrapped.requiredModule?_eq, hnames]

theorem isModuleExports_eq_of_commented {holds : Tree → Tree → Prop} (h : Commented holds t t') :
    t'.isModuleExports = t.isModuleExports := by
  unfold isModuleExports
  rw [h.kind_eq, any_eq_of_rel (h.child? (by decide)) fun a b hab => by rw [hab.text_eq],
    any_eq_of_rel (h.child? (by decide)) fun a b hab => by rw [hab.text_eq]]

theorem isExportTarget_eq_of_commented {holds : Tree → Tree → Prop} (h : Commented holds t t') :
    t'.isExportTarget = t.isExportTarget := by
  unfold isExportTarget
  rw [h.kind_eq, isModuleExports_eq_of_commented h,
    any_eq_of_rel (h.child? (by decide)) fun a b hab => by
      rw [isModuleExports_eq_of_commented hab, hab.isNamed_eq]]

theorem ofAssignment_eq_of_commented (h : Commented KeepsFirst t t') :
    ofAssignment t' = ofAssignment t := by
  unfold ofAssignment
  rcases cases_of_rel (h.child? (show Label.left ≠ .plain by decide)) with
    ⟨hl, hl'⟩ | ⟨left, left', hl, hl', hleft⟩
  · rw [hl, hl']
  rw [hl, hl']
  rcases cases_of_rel (h.child? (show Label.right ≠ .plain by decide)) with
    ⟨hr, hr'⟩ | ⟨right, right', hr, hr', hright⟩
  · rw [hr, hr']
  rw [hr, hr']
  dsimp only
  rw [isExportTarget_eq_of_commented hleft, hleft.kind_eq, hleft.text_eq, hright.published_eq,
    containerKind?_eq_of_commented hright.unwrapped]

/-! ## Imports -/

/-- The first part that is a name is looked for by its kind, and so are the others. -/
theorem find?_identifier_rel {holds : Tree → Tree → Prop} (h : Commented holds t t') :
    Option.Rel (Commented holds) (t.parts.find? (·.kind = .identifier))
      (t'.parts.find? (·.kind = .identifier)) :=
  h.parts.find? (fun b hb => by rw [hb.kind]; rfl) fun _ _ hcd => by rw [hcd.kind_eq]

theorem clauseNames_eq_of_commented {holds : Tree → Tree → Prop} (h : Commented holds t t') :
    clauseNames t' = clauseNames t := by
  unfold clauseNames
  rw [h.kind_eq, h.text_eq]
  split
  · rfl
  · rw [map_eq_of_rel (find?_identifier_rel h) fun a b hab => hab.text_eq]
  · apply (h.parts.filter fun _ _ hcd => by rw [hcd.kind_eq]).filterMap
    · rintro c ⟨text, rfl⟩
      rfl
    · intro c d hcd
      have hname := map_eq_of_rel (hcd.child? (show Label.name ≠ .plain by decide))
        fun a b hab => hab.text_eq
      have hrename := map_eq_of_rel (hcd.child? (show Label.rename ≠ .plain by decide))
        fun a b hab => hab.text_eq
      simp only [Option.map_or, hname, hrename]
  · rfl

theorem ofImport_eq_of_commented {holds : Tree → Tree → Prop} (h : Commented holds t t') :
    ofImport t' = ofImport t := by
  have hsource {u u' : Tree} (hu : Commented holds u u') :
      (u'.child? .source).bind literal? = (u.child? .source).bind literal? :=
    bind_eq_of_rel (hu.child? (by decide)) fun c d _ _ hcd => hcd.literal?_eq
  unfold ofImport
  rw [hsource h]
  apply h.parts.flatMap
  · rintro c ⟨text, rfl⟩
    rfl
  · intro part _ part' hpart
    have hnames : part'.parts.flatMap clauseNames = part.parts.flatMap clauseNames := by
      apply hpart.parts.flatMap
      · rintro c ⟨text, rfl⟩
        rfl
      · exact fun c _ d hcd => clauseNames_eq_of_commented hcd
    rw [hpart.kind_eq, hsource hpart, hnames]
    rcases cases_of_rel (find?_identifier_rel hpart) with
      ⟨hn, hn'⟩ | ⟨target, target', hn, hn', htarget⟩
    · rw [hn, hn']
    · rw [hn, hn']
      cases (part.child? .source).bind literal? with
      | none => rfl
      | some specifier =>
        dsimp only
        rw [htarget.text_eq]

/-! ## Registrations -/

/-- The called member stays what it is, and so do its parts. -/
theorem calledMember?_rel {holds : Tree → Tree → Prop} (h : Commented holds t t') :
    Option.Rel (fun x y : Tree × Tree => Commented holds x.1 y.1 ∧ Commented holds x.2 y.2)
      (calledMember? t) (calledMember? t') := by
  unfold calledMember?
  rcases cases_of_rel (h.child? (show Label.callee ≠ .plain by decide)) with
    ⟨hc, hc'⟩ | ⟨callee, callee', hc, hc', hcallee⟩
  · rw [hc, hc']
    exact .none
  rw [hc, hc', Option.bind_some, Option.bind_some, hcallee.kind_eq]
  split
  · rcases cases_of_rel (hcallee.child? (show Label.object ≠ .plain by decide)) with
      ⟨ho, ho'⟩ | ⟨object, object', ho, ho', hobject⟩
    · rw [ho, ho']
      exact .none
    rw [ho, ho', Option.bind_some, Option.bind_some]
    rcases cases_of_rel (hcallee.child? (show Label.property ≠ .plain by decide)) with
      ⟨hp, hp'⟩ | ⟨property, property', hp, hp', hproperty⟩
    · rw [hp, hp']
      exact .none
    · rw [hp, hp']
      exact .some ⟨hobject, hproperty⟩
  · exact .none

theorem chainBase?_eq_of_commented {t t' : Tree} (h : Commented KeepsFirst t t') :
    chainBase? t' = chainBase? t := by
  rw [chainBase?_eq, chainBase?_eq t, h.kind_eq]
  split
  · apply bind_eq_of_rel (calledMember?_rel h)
    rintro ⟨object, property⟩ ⟨object', property'⟩ hmember _ ⟨hobject, hproperty⟩
    have hlt : sizeOf object < sizeOf t := sizeOf_lt_of_calledMember? hmember
    have hpath : t'.callArguments.head?.bind literal? = t.callArguments.head?.bind literal? :=
      bind_eq_of_rel (head?_rel h.callArguments) fun c d _ _ hcd => hcd.literal?_eq
    dsimp only at hobject hproperty ⊢
    rw [hproperty.text_eq, hobject.kind_eq, hobject.text_eq, hpath,
      chainBase?_eq_of_commented hobject]
  · rfl
termination_by sizeOf t

theorem registration_eq_of_commented {receiver : String} {make : List String → Registration}
    {given given' : List Tree} (h : List.Forall₂ (Commented KeepsFirst) given given') :
    registration receiver make given' = registration receiver make given := by
  rw [registration, registration, Mention.ofTrees_eq_of_commented h]

theorem ofUse_eq_of_commented {receiver : String} {given given' : List Tree}
    (h : List.Forall₂ (Commented KeepsFirst) given given') :
    ofUse receiver given' = ofUse receiver given := by
  cases h with
  | nil => rfl
  | cons hfirst hrest =>
    rw [ofUse, ofUse, hfirst.literal?_eq]
    split
    · exact registration_eq_of_commented hrest
    · exact registration_eq_of_commented (.cons hfirst hrest)

theorem ofHandler_eq_of_commented {receiver : String} {method : HttpMethod}
    {given given' : List Tree} (h : List.Forall₂ (Commented KeepsFirst) given given') :
    ofHandler receiver method given' = ofHandler receiver method given := by
  cases h with
  | nil => rfl
  | cons hfirst hrest =>
    cases hrest with
    | nil => rfl
    | cons hnext hrest =>
      rw [ofHandler, ofHandler, hfirst.literal?_eq]
      split
      · exact registration_eq_of_commented (.cons hnext hrest)
      · rfl

theorem ofCall_eq_of_commented (h : Commented KeepsFirst t t') : ofCall t' = ofCall t := by
  rw [ofCall_eq, ofCall_eq t]
  apply elim_eq_of_rel (calledMember?_rel h)
  rintro ⟨object, property⟩ ⟨object', property'⟩ _ _ ⟨hobject, hproperty⟩
  dsimp only at hobject hproperty ⊢
  rw [hproperty.text_eq, hobject.kind_eq, hobject.text_eq, ofUse_eq_of_commented h.callArguments,
    chainBase?_eq_of_commented hobject]
  simp only [ofHandler_eq_of_commented h.callArguments,
    registration_eq_of_commented h.callArguments]

/-! ## Whole trees -/

theorem ofNode_eq_of_commented (h : Commented KeepsFirst t t') : ofNode t' = ofNode t := by
  unfold ofNode
  rw [h.kind_eq]
  split
  · exact ofDeclarator_eq_of_commented h
  · exact ofCall_eq_of_commented h
  · exact ofImport_eq_of_commented h
  · rename_i hk
    rw [h.exportedNames_eq hk]
  · exact ofAssignment_eq_of_commented h
  · rfl

/-- A walk finds the same, in the same order. -/
theorem ofTree_eq_of_commented {t t' : Tree} (h : Commented KeepsFirst t t') :
    ofTree t' = ofTree t := by
  have hchildren : t'.children.flatMap ofTree = t.children.flatMap ofTree := by
    apply h.children.flatMap
    · rintro c ⟨text, rfl⟩
      rfl
    · intro c hc d hcd
      have hlt : sizeOf c < sizeOf t := sizeOf_lt_of_mem hc
      exact ofTree_eq_of_commented hcd
  rw [ofTree_eq, ofTree_eq t, ofNode_eq_of_commented h, hchildren]
termination_by sizeOf t

end Finding

/-- **Comments change nothing that a file says about routes**, wherever they stand and however many
there are, unless one hides something from a reader that looks at the first place only; and what is
hidden from those is not found. -/
theorem ofFindings_commented (files : FileTree) (root path : FilePath) (cache : Alias.Cache)
    (t t' : Tree) :
    (Commented KeepsFirst t t' →
      FileRoutes.ofFindings files root path (Finding.ofTree t') cache =
        FileRoutes.ofFindings files root path (Finding.ofTree t) cache) ∧
    ∀ n : Tree, n.isHindered = true →
      (n.kind = .call → n.requiredModule? = none) ∧
        (n.kind = .returnStatement → n.returnedIn = []) ∧
        (n.kind = .exportStatement → n.isExportAssignment = false) := by
  constructor
  · intro h
    rw [Finding.ofTree_eq_of_commented h]
  · intro n h
    exact hindered_says_nothing h

/-- A comment. -/
def remark : Tree := .node .comment .plain "" []

/-- `const router = Router(); module.exports = () => { return router; };` with comments in front
of the returned name and behind it. -/
def returningRouter (front behind : List Tree) : Tree :=
  .node .program .plain "" [
    .node .lexicalDeclaration .plain "" [
      .node .declarator .plain "" [
        .node .identifier .name "router" [],
        .node .call .value "" [
          .node .identifier .callee "Router" [],
          .node .arguments .arguments "" []]]],
    .node .other .plain "" [
      .node .assignment .plain "" [
        .node .member .left "" [
          .node .identifier .object "module" [],
          .node .propertyName .property "exports" []],
        .node .arrowFunction .right "" [
          .node .other .plain "" [],
          .node .block .body "" [
            .node .returnStatement .plain ""
              (front ++ .node .identifier .plain "router" [] :: behind)]]]]]

/-- A comment behind the name stands in nobody's way. -/
theorem ofFindings_commented_behind :
    Commented KeepsFirst (returningRouter [] []) (returningRouter [] [remark]) ∧
      ∀ (files : FileTree) (root path : FilePath) (cache : Alias.Cache),
        FileRoutes.ofFindings files root path
            (Finding.ofTree (returningRouter [] [remark])) cache =
          FileRoutes.ofFindings files root path (Finding.ofTree (returningRouter [] [])) cache := by
  have same : ∀ u, Commented KeepsFirst u u := Commented.refl fun _ => rfl
  have h : Commented KeepsFirst (returningRouter [] []) (returningRouter [] [remark]) := by
    refine .node rfl (.keep (same _) (.keep (.node rfl (.keep ?_ .nil)) .nil))
    refine .node rfl (.keep (same _) (.keep (.node rfl ?_) .nil))
    refine .keep (same _) (.keep (.node rfl (.keep (.node rfl ?_) .nil)) .nil)
    exact .keep (same _) (.put ⟨"", rfl⟩ .nil)
  exact ⟨h, fun files root path cache => (ofFindings_commented files root path cache _ _).1 h⟩

/-- A comment in front of the name hides it: the file no longer exports its router. -/
theorem comment_hides_returned_router :
    Commented (fun _ _ => True) (returningRouter [] []) (returningRouter [remark] []) ∧
      (FileRoutes.ofFindings .empty ⟨"/r"⟩ ⟨"/r/a.js"⟩
        (Finding.ofTree (returningRouter [] [])) .empty).1.exportsRouter = true ∧
      (FileRoutes.ofFindings .empty ⟨"/r"⟩ ⟨"/r/a.js"⟩
        (Finding.ofTree (returningRouter [remark] [])) .empty).1.exportsRouter = false := by
  refine ⟨?_, by decide +kernel, by decide +kernel⟩
  have same : ∀ u, Commented (fun _ _ => True) u u := Commented.refl fun _ => trivial
  refine .node trivial (.keep (same _) (.keep (.node trivial (.keep ?_ .nil)) .nil))
  refine .node trivial (.keep (same _) (.keep (.node trivial ?_) .nil))
  refine .keep (same _) (.keep (.node trivial (.keep (.node trivial ?_) .nil)) .nil)
  exact .put ⟨"", rfl⟩ (.keep (same _) .nil)

/-- A program text with such a comment. -/
example :
    Finding.ofTree (tree .typed
        "const router = Router(); module.exports = () => { return /* it */ router; };") =
      Finding.ofTree (returningRouter [remark] []) := by
  decide +kernel

end RouteAtlas
