import RouteAtlas.Proofs.Source.PublishedNames
import RouteAtlas.Proofs.Source.StatementOrder

/-!
# A function's own returns

A method keeps its `return`s to itself, as a function does, but the search for the names that an
exported function returns is open to the methods of an object literal.  So what a function hands out
either is what it returns itself or comes from such a method (`own_returns_or_method`), and the
latter does happen (`method_hands_out_router`).
-/

set_option autoImplicit false

namespace RouteAtlas

open Syntax

namespace Syntax.Tree

variable {e body : Tree} {x : String}

/-! ## Own returns and those of methods -/

/-- The kinds of nodes that keep the `return`s in them to themselves: functions, classes and
methods. -/
def keepsReturns (k : Kind) : Bool :=
  isOtherFunction k || k = .method

/-- When more kinds hide, a node that is no longer seen is behind one of a kind that hides now. -/
theorem Exposed.or_hidden {hides : Kind → Bool} (hides' : Kind → Bool) {n t : Tree}
    (h : n.Exposed hides t) :
    n.Exposed hides' t ∨
      ∃ m, hides m.kind = false ∧ hides' m.kind = true ∧ m.Exposed hides t ∧ n.Exposed hides m := by
  induction h with
  | here => exact .inl .here
  | @under t c hopen hc h ih =>
    rcases ih with h' | ⟨m, hm, hm', hmc, hnm⟩
    · cases hopen' : hides' t.kind with
      | false => exact .inl (.under hopen' hc h')
      | true => exact .inr ⟨t, hopen, hopen', .here, .under hopen hc h⟩
    · exact .inr ⟨m, hm, hm', .under hopen hc hmc, hnm⟩

/-- An expression that a method returns which is not hidden in a body. -/
def MethodResult (e body : Tree) : Prop :=
  ∃ c ∈ body.children, ∃ m r : Tree, m.kind = .method ∧ m.Exposed isClosed c ∧
    r.Exposed isClosed m ∧ e.GivesBack r

/-- A function with a method in it that returns something which refers to a name. -/
def MethodHandsOut (x : String) (f : Tree) : Prop :=
  (isFunctionValue f.kind = true ∨ f.kind = .functionDeclaration ∨ f.kind = .generatorDeclaration) ∧
    ∃ body e : Tree, f.child? .body = some body ∧ e.MethodResult body ∧ Refers isClosed x e

/-- Of the kinds that keep their `return`s to themselves only the method is open to the search. -/
theorem eq_method_of_keepsReturns {k : Kind} (hopen : isClosed k = false)
    (hkeeps : keepsReturns k = true) : k = .method := by
  rw [isClosed, Bool.or_eq_false_iff] at hopen
  rw [keepsReturns, hopen.2, Bool.false_or] at hkeeps
  exact of_decide_eq_true hkeeps

theorem ReturnedBy.or_method (h : e.ReturnedBy isClosed body) :
    e.ReturnedBy keepsReturns body ∨ e.MethodResult body := by
  obtain ⟨c, hc, r, hr, hgives⟩ := h
  rcases hr.or_hidden keepsReturns with hr | ⟨m, hopen, hkeeps, hm, hr⟩
  · exact .inl ⟨c, hc, r, hr, hgives⟩
  · exact .inr ⟨c, hc, m, r, eq_method_of_keepsReturns hopen hkeeps, hm, hr, hgives⟩

theorem ResultOf.or_method (h : e.ResultOf isClosed body) :
    e.ResultOf keepsReturns body ∨ e.MethodResult body := by
  unfold ResultOf at h ⊢
  split at h
  · rename_i hblock
    rw [if_pos hblock]
    exact h.or_method
  · rename_i hblock
    rw [if_neg hblock]
    exact .inl h

/-- A step of the search is one that is due, or the search follows a method. -/
theorem Through.or_method {t : Tree} (h : e.Through isClosed t) (hx : Refers isClosed x e) :
    e.Through keepsReturns t ∨ MethodHandsOut x t := by
  cases h with
  | wrapped hkind hinner => exact .inl (.wrapped hkind hinner)
  | pair hkind hm hpair hvalue => exact .inl (.pair hkind hm hpair hvalue)
  | assigned hkind hright => exact .inl (.assigned hkind hright)
  | result hkind hbody he =>
    rcases he.or_method with he | he
    · exact .inl (.result hkind hbody he)
    · exact .inr ⟨.inl hkind, _, e, hbody, he, hx⟩

theorem Refers.or_method {t : Tree} (h : Refers isClosed x t) :
    Refers keepsReturns x t ∨ ∃ f, f.Within t ∧ MethodHandsOut x f := by
  induction h with
  | named h => exact .inl (.named h)
  | @through t e he h ih =>
    rcases he.or_method h with he' | hmethod
    · rcases ih with h' | ⟨f, hf, hmethod⟩
      · exact .inl (.through he' h')
      · exact .inr ⟨f, hf.trans he.within, hmethod⟩
    · exact .inr ⟨t, .here, hmethod⟩

theorem Exports.within {v n : Tree} (h : v.Exports n) : v.Within n := by
  cases h with
  | value hvalue => exact within_of_child? hvalue
  | assigned _ _ hlast =>
    have hpart := List.mem_of_mem_filter (List.mem_of_getLast? hlast)
    exact .under (List.mem_of_mem_filter hpart) .here

theorem HandsOut.or_method {n : Tree} (h : HandsOut isClosed x n) :
    HandsOut keepsReturns x n ∨ ∃ f, f.Within n ∧ MethodHandsOut x f := by
  cases h with
  | declared hkind hsource hd hdecl hx => exact .inl (.declared hkind hsource hd hdecl hx)
  | @returned d body e hkind hsource hd hdecl hbody he h =>
    rcases he.or_method with he' | hmethod
    · rcases h.or_method with h' | ⟨f, hf, hmethod⟩
      · exact .inl (.returned hkind hsource hd hdecl hbody he' h')
      · have he : e.Within d := he.within.trans (within_of_child? hbody)
        exact .inr ⟨f, hf.trans (he.trans (within_of_child? hd)), hmethod⟩
    · exact .inr ⟨d, within_of_child? hd, .inr hdecl, body, e, hbody, hmethod, h⟩
  | clause hkind hsource hd hvalue hx => exact .inl (.clause hkind hsource hd hvalue hx)
  | value hkind hsource hd hv h =>
    rcases h.or_method with h | ⟨f, hf, hmethod⟩
    · exact .inl (.value hkind hsource hd hv h)
    · exact .inr ⟨f, hf.trans hv.within, hmethod⟩
  | assigned hkind hleft htarget hright h =>
    rcases h.or_method with h | ⟨f, hf, hmethod⟩
    · exact .inl (.assigned hkind hleft htarget hright h)
    · exact .inr ⟨f, hf.trans (within_of_child? hright), hmethod⟩

end Syntax.Tree

open Syntax.Tree

/-- **An exported function hands out what its own `return`s name.**  The names that a module hands
out are those its export statements and its assignments to the exports refer to, where functions are
seen through to the `return`s that are not behind another function, a class or a `return`.  Each of
these names is handed out by `return`s that no function and no method keeps to itself, unless a
method in a function returns it.  A module exports a router when one of the names is bound to a new
router in it. -/
theorem own_returns_or_method (files : FileTree) (root path : FilePath) (cache : Alias.Cache)
    (t : Tree) :
    (∀ x, Finding.published x ∈ Finding.ofTree t ↔
      ∃ n, n.Within t ∧ HandsOut isClosed x n) ∧
    (∀ x n, HandsOut isClosed x n →
      HandsOut keepsReturns x n ∨ ∃ f, f.Within n ∧ MethodHandsOut x f) ∧
    ((FileRoutes.ofFindings files root path (Finding.ofTree t) cache).1.exportsRouter = true ↔
      ∃ x, (∃ n, n.Within t ∧ HandsOut isClosed x n) ∧
        ∃ n, n.Within t ∧ Finding.Binds .router x n) := by
  refine ⟨fun _ => Finding.published_mem_ofTree_iff, fun _ _ => HandsOut.or_method, ?_⟩
  rw [FileRoutes.exportsRouter_eq_true_iff]
  exact exists_congr fun x =>
    and_congr Finding.published_mem_ofTree_iff Finding.container_mem_ofTree_iff

/-! ## A method of an object literal -/

/-- `() => { const o = { make() { return router; } }; return o; }` -/
def makerOfMaker : Tree :=
  .node .arrowFunction .right "" [
    .node .other .plain "" [],
    .node .block .body "" [
      .node .lexicalDeclaration .plain "" [
        .node .declarator .plain "" [
          .node .identifier .name "o" [],
          .node .object .value "" [
            .node .method .plain "" [
              .node .propertyName .name "make" [],
              .node .other .plain "" [],
              .node .block .body "" [
                .node .returnStatement .plain "" [.node .identifier .plain "router" []]]]]]],
      .node .returnStatement .plain "" [.node .identifier .plain "o" []]]]

/-- `const router = Router(); module.exports = …;` -/
def exporting (value : Tree) : Tree :=
  .node .program .plain "" [
    .node .lexicalDeclaration .plain "" [
      .node .declarator .plain "" [
        .node .identifier .name "router" [],
        .node .call .value "" [
          .node .identifier .callee "Router" [],
          .node .arguments .arguments "" []]]],
    .node .other .plain "" [
      .node .assignment .plain "" [
        .node .member .left "" [
          .node .identifier .object "module" [],
          .node .propertyName .property "exports" []],
        value]]]

/-- The method returns the router and the function does not, but the file exports the router. -/
theorem method_hands_out_router :
    ¬ Refers keepsReturns "router" makerOfMaker ∧ "router" ∈ makerOfMaker.published ∧
      (FileRoutes.ofFindings .empty ⟨"/r"⟩ ⟨"/r/r.js"⟩
        (Finding.ofTree (exporting makerOfMaker)) .empty).1.exportsRouter = true := by
  refine ⟨?_, by decide +kernel, by decide +kernel⟩
  rintro (h | ⟨he, h⟩)
  · rcases h with hkind | hkind <;> cases hkind
  · cases he with
    | wrapped hkind => cases hkind
    | pair hkind => cases hkind
    | assigned hkind => cases hkind
    | result _ hbody he =>
      cases hbody
      obtain ⟨c, hc, r, hr, hreturn, hfirst⟩ := he
      rcases List.mem_cons.mp hc with rfl | hc
      · -- in the declaration the method hides its `return`
        obtain rfl | ⟨-, d, hd, hr⟩ := exposed_iff.mp hr
        · cases hreturn
        rcases List.mem_singleton.mp hd with rfl
        obtain rfl | ⟨-, v, hv, hr⟩ := exposed_iff.mp hr
        · cases hreturn
        rcases List.mem_cons.mp hv with rfl | hv
        · obtain rfl | ⟨-, _, hnone, -⟩ := exposed_iff.mp hr
          · cases hreturn
          · cases hnone
        rcases List.mem_singleton.mp hv with rfl
        obtain rfl | ⟨-, m, hm, hr⟩ := exposed_iff.mp hr
        · cases hreturn
        rcases List.mem_singleton.mp hm with rfl
        obtain rfl | ⟨hopen, -⟩ := exposed_iff.mp hr
        · cases hreturn
        · cases hopen
      · rcases List.mem_singleton.mp hc with rfl
        obtain rfl | ⟨-, d, hd, hr⟩ := exposed_iff.mp hr
        · cases hfirst
          exact absurd (h.text_eq rfl) (by decide)
        · rcases List.mem_singleton.mp hd with rfl
          obtain rfl | ⟨-, _, hnone, -⟩ := exposed_iff.mp hr
          · cases hreturn
          · cases hnone

/-- The text of such a program. -/
example :
    Finding.ofTree (tree .typed "const router = Router();
      module.exports = () => { const o = { make() { return router; } }; return o; };") =
      Finding.ofTree (exporting makerOfMaker) := by
  decide +kernel

end RouteAtlas
