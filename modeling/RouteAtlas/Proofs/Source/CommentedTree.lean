import Mathlib.Data.List.Forall2
import RouteAtlas.Proofs.Source.Reading

/-!
# Trees with comments put in

Comments are nodes of a syntax tree like any other, and may stand among the children of every node.
`Commented` relates a tree to one with comments put in, wherever they are put.

Most readers of a tree look for a child by its role or its kind and so pass comments over.  Three
look at the first place only: the module of a `require`, the value of a `return` and the sign of
`export =`.  A comment in that place hides what they look for (`isHindered`), and a reader that meets
one answers nothing (`hindered_says_nothing`).  Where nothing is hidden that was not before, every
reader answers as it did.
-/

set_option autoImplicit false

namespace RouteAtlas

/-! ## Lists with something put in -/

/-- The second list is the first one with new members put in, and the old ones changed. -/
inductive Interspersed {α : Type} (new : α → Prop) (changed : α → α → Prop) :
    List α → List α → Prop
  | nil : Interspersed new changed [] []
  | keep {a b : α} {as bs : List α} :
      changed a b → Interspersed new changed as bs → Interspersed new changed (a :: as) (b :: bs)
  | put {b : α} {as bs : List α} :
      new b → Interspersed new changed as bs → Interspersed new changed as (b :: bs)

namespace Interspersed

variable {α β : Type} {new : α → Prop} {changed : α → α → Prop} {as bs : List α}

theorem filter (h : Interspersed new changed as bs) {p : α → Bool}
    (hp : ∀ a b, changed a b → p b = p a) :
    Interspersed new changed (as.filter p) (bs.filter p) := by
  induction h with
  | nil => exact .nil
  | @keep a b as bs hab _ ih =>
    rw [List.filter_cons, List.filter_cons, hp a b hab]
    split
    · exact .keep hab ih
    · exact ih
  | @put b as bs hb _ ih =>
    rw [List.filter_cons]
    split
    · exact .put hb ih
    · exact ih

/-- Without the new members, the lists correspond one to one. -/
theorem forall₂ (h : Interspersed new changed as bs) (hnew : ∀ b ∈ bs, ¬new b) :
    List.Forall₂ changed as bs := by
  induction h with
  | nil => exact .nil
  | keep hab _ ih => exact .cons hab (ih fun b hb => hnew b (List.mem_cons_of_mem _ hb))
  | put hb _ _ => exact absurd hb (hnew _ List.mem_cons_self)

theorem find? (h : Interspersed new changed as bs) {p : α → Bool}
    (hnew : ∀ b, new b → p b = false) (hp : ∀ a b, changed a b → p b = p a) :
    Option.Rel changed (as.find? p) (bs.find? p) := by
  induction h with
  | nil => exact .none
  | @keep a b as bs hab _ ih =>
    rw [List.find?_cons, List.find?_cons, hp a b hab]
    cases p a with
    | true => exact .some hab
    | false => exact ih
  | put hb _ ih =>
    rw [List.find?_cons, hnew _ hb]
    exact ih

theorem flatMap (h : Interspersed new changed as bs) {f : α → List β}
    (hnew : ∀ b, new b → f b = []) (hf : ∀ a ∈ as, ∀ b, changed a b → f b = f a) :
    bs.flatMap f = as.flatMap f := by
  induction h with
  | nil => rfl
  | keep hab _ ih =>
    rw [List.flatMap_cons, List.flatMap_cons, hf _ List.mem_cons_self _ hab,
      ih fun a ha => hf a (List.mem_cons_of_mem _ ha)]
  | put hb _ ih =>
    rw [List.flatMap_cons, hnew _ hb, ih hf]
    rfl

theorem filterMap (h : Interspersed new changed as bs) {f : α → Option β}
    (hnew : ∀ b, new b → f b = none) (hf : ∀ a b, changed a b → f b = f a) :
    bs.filterMap f = as.filterMap f := by
  induction h with
  | nil => rfl
  | @keep a b as bs hab _ ih => rw [List.filterMap_cons, List.filterMap_cons, hf a b hab, ih]
  | put hb _ ih => rw [List.filterMap_cons, hnew _ hb, ih]

theorem any (h : Interspersed new changed as bs) {p : α → Bool}
    (hnew : ∀ b, new b → p b = false) (hp : ∀ a b, changed a b → p b = p a) :
    bs.any p = as.any p := by
  induction h with
  | nil => rfl
  | keep hab _ ih => rw [List.any_cons, List.any_cons, hp _ _ hab, ih]
  | put hb _ ih => rw [List.any_cons, hnew _ hb, ih, Bool.false_or]

end Interspersed

/-! ## Answers that change along with a list -/

section Answers

variable {α β : Type} {changed : α → α → Prop} {o o' : Option α}

theorem cases_of_rel (h : Option.Rel changed o o') :
    (o = none ∧ o' = none) ∨ ∃ a b, o = some a ∧ o' = some b ∧ changed a b := by
  cases h with
  | none => exact .inl ⟨rfl, rfl⟩
  | some hab => exact .inr ⟨_, _, rfl, rfl, hab⟩

theorem elim_eq_of_rel (h : Option.Rel changed o o') {f g : α → β} (z : β)
    (hf : ∀ a b, o = some a → o' = some b → changed a b → g b = f a) :
    o'.elim z g = o.elim z f := by
  rcases cases_of_rel h with ⟨rfl, rfl⟩ | ⟨a, b, rfl, rfl, hab⟩
  · rfl
  · exact hf a b rfl rfl hab

theorem bind_eq_of_rel (h : Option.Rel changed o o') {f g : α → Option β}
    (hf : ∀ a b, o = some a → o' = some b → changed a b → g b = f a) :
    o'.bind g = o.bind f := by
  rcases cases_of_rel h with ⟨rfl, rfl⟩ | ⟨a, b, rfl, rfl, hab⟩
  · rfl
  · exact hf a b rfl rfl hab

theorem getD_rel (h : Option.Rel changed o o') {d d' : α} (hd : changed d d') :
    changed (o.getD d) (o'.getD d') := by
  rcases cases_of_rel h with ⟨rfl, rfl⟩ | ⟨a, b, rfl, rfl, hab⟩
  · exact hd
  · exact hab

theorem any_eq_of_rel (h : Option.Rel changed o o') {p : α → Bool}
    (hp : ∀ a b, changed a b → p b = p a) : o'.any p = o.any p := by
  rcases cases_of_rel h with ⟨rfl, rfl⟩ | ⟨a, b, rfl, rfl, hab⟩
  · rfl
  · exact hp a b hab

theorem map_eq_of_rel (h : Option.Rel changed o o') {f : α → β}
    (hf : ∀ a b, changed a b → f b = f a) : o'.map f = o.map f := by
  rcases cases_of_rel h with ⟨rfl, rfl⟩ | ⟨a, b, rfl, rfl, hab⟩
  · rfl
  · exact congrArg some (hf a b hab)

theorem head?_rel {as bs : List α} (h : List.Forall₂ changed as bs) :
    Option.Rel changed as.head? bs.head? := by
  cases h with
  | nil => exact .none
  | cons hab _ => exact .some hab

theorem getLast?_rel {as bs : List α} (h : List.Forall₂ changed as bs) :
    Option.Rel changed as.getLast? bs.getLast? := by
  rw [← List.head?_reverse, ← List.head?_reverse]
  exact head?_rel (List.rel_reverse h)

end Answers

namespace Syntax.Tree

/-! ## Trees with comments put in -/

/-- A comment as a reader of programs leaves it, without a role and with nothing inside. -/
def IsBareComment (t : Tree) : Prop := ∃ text, t = node .comment .plain text []

/-- The second tree is the first one with comments put in, and `holds` is true of every node and of
what it became. -/
inductive Commented (holds : Tree → Tree → Prop) : Tree → Tree → Prop
  | node {k : Kind} {l : Label} {s : String} {cs ds : List Tree} :
      holds (node k l s cs) (node k l s ds) →
      Interspersed IsBareComment (Commented holds) cs ds →
      Commented holds (node k l s cs) (node k l s ds)

/-- Whether a comment stands in front of the first of these trees that is none. -/
def hides : List Tree → Bool
  | [] => false
  | c :: cs => c.isComment && cs.any fun d => !d.isComment

/-- The first thing that is no comment. -/
def proper? (ts : List Tree) : Option Tree :=
  ts.find? fun c => !c.isComment

/-- Whether a comment hides what only the first place is searched for: the module of a `require`,
the value of a `return`, the sign of `export =`. -/
def isHindered (t : Tree) : Bool :=
  match t.kind with
  | .call =>
    (t.child? .callee).any (·.isNamed "require") &&
      (t.child? .arguments).any fun given => hides given.parts
  | .returnStatement => hides t.children
  | .exportStatement =>
    (proper? t.children).elim false (·.kind = .token) && hides t.children
  | _ => false

/-- Nothing is hidden, or shown, that was not before. -/
def KeepsFirst (t t' : Tree) : Prop := t'.isHindered = t.isHindered

theorem IsBareComment.kind {t : Tree} (h : t.IsBareComment) : t.kind = .comment := by
  obtain ⟨text, rfl⟩ := h
  rfl

theorem IsBareComment.label {t : Tree} (h : t.IsBareComment) : t.label = .plain := by
  obtain ⟨text, rfl⟩ := h
  rfl

theorem IsBareComment.isComment {t : Tree} (h : t.IsBareComment) : t.isComment = true :=
  decide_eq_true h.kind

namespace Commented

variable {holds : Tree → Tree → Prop} {t t' : Tree}

theorem kind_eq (h : Commented holds t t') : t'.kind = t.kind := by
  cases h
  rfl

theorem label_eq (h : Commented holds t t') : t'.label = t.label := by
  cases h
  rfl

theorem text_eq (h : Commented holds t t') : t'.text = t.text := by
  cases h
  rfl

theorem holds_node (h : Commented holds t t') : holds t t' := by
  cases h with
  | node hn _ => exact hn

theorem children (h : Commented holds t t') :
    Interspersed IsBareComment (Commented holds) t.children t'.children := by
  cases h with
  | node _ hcs => exact hcs

theorem isComment_eq (h : Commented holds t t') : t'.isComment = t.isComment := by
  rw [isComment, isComment, h.kind_eq]

theorem parts (h : Commented holds t t') :
    Interspersed IsBareComment (Commented holds) t.parts t'.parts :=
  h.children.filter fun _ _ hcd => by rw [hcd.kind_eq]

/-- A role is not given to a comment, so its bearer is found as before. -/
theorem child? (h : Commented holds t t') {l : Label} (hl : l ≠ .plain) :
    Option.Rel (Commented holds) (t.child? l) (t'.child? l) :=
  h.children.find? (fun b hb => by rw [hb.label]; exact decide_eq_false hl.symm)
    fun _ _ hcd => by rw [hcd.label_eq]

theorem inner? (h : Commented holds t t') :
    Option.Rel (Commented holds) t.inner? t'.inner? :=
  h.children.find? (fun b hb => by rw [hb.kind]; rfl) fun _ _ hcd => by rw [hcd.kind_eq]

theorem isNamed_eq (h : Commented holds t t') (name : String) :
    t'.isNamed name = t.isNamed name := by
  rw [isNamed, isNamed, h.kind_eq, h.text_eq]

theorem literal?_eq (h : Commented holds t t') : t'.literal? = t.literal? := by
  have hany := h.children.any (p := fun c => decide (c.kind = .substitution))
    (fun b hb => by rw [hb.kind]; rfl) (fun _ _ hcd => by rw [hcd.kind_eq])
  rw [literal?, literal?, h.kind_eq, h.text_eq, hany]

/-- The arguments of a call are counted without the comments among them. -/
theorem callArguments (h : Commented holds t t') :
    List.Forall₂ (Commented holds) t.callArguments t'.callArguments := by
  unfold Tree.callArguments
  rcases cases_of_rel (h.child? (show Label.arguments ≠ .plain by decide)) with
    ⟨hg, hg'⟩ | ⟨given, given', hg, hg', hgiven⟩
  · rw [hg, hg']
    exact .nil
  · rw [hg, hg']
    refine (hgiven.parts.filter fun _ _ hcd => by rw [hcd.isComment_eq]).forall₂ fun b hb hc => ?_
    have hproper := (List.mem_filter.mp hb).2
    rw [hc.isComment] at hproper
    cases hproper

end Commented

/-- No comment need be put in. -/
theorem Commented.refl {holds : Tree → Tree → Prop} (hrefl : ∀ u, holds u u) (t : Tree) :
    Commented holds t t := by
  have hchild : ∀ c ∈ t.children, Commented holds c c := by
    intro c hc
    have hlt : sizeOf c < sizeOf t := sizeOf_lt_of_mem hc
    exact Commented.refl hrefl c
  have hchildren : ∀ cs : List Tree, (∀ c ∈ cs, Commented holds c c) →
      Interspersed IsBareComment (Commented holds) cs cs := by
    intro cs
    induction cs with
    | nil => exact fun _ => .nil
    | cons c cs ih =>
      intro hcs
      exact .keep (hcs c List.mem_cons_self) (ih fun d hd => hcs d (List.mem_cons_of_mem c hd))
  cases t with
  | node k l s cs => exact .node (hrefl _) (hchildren cs hchild)
termination_by sizeOf t

theorem Commented.unwrapped {holds : Tree → Tree → Prop} {t t' : Tree}
    (h : Commented holds t t') : Commented holds t.unwrapped t'.unwrapped := by
  rw [unwrapped_eq t, unwrapped_eq t', h.kind_eq]
  split
  · rcases cases_of_rel h.inner? with ⟨hc, hd⟩ | ⟨c, d, hc, hd, hcd⟩
    · rw [hc, hd]
      exact h
    · rw [hc, hd]
      have hlt : sizeOf c < sizeOf t := sizeOf_lt_of_mem (List.mem_of_find?_eq_some hc)
      exact hcd.unwrapped
  · exact h
termination_by sizeOf t

/-! ## What stands first -/

/-- What looks at the first place finds the first proper thing there, or a comment that hides it. -/
theorem head?_elim_eq_ite {α : Type} (ts : List Tree) {f : Tree → α} {z : α}
    (hcomment : ∀ c, c.kind = .comment → f c = z) :
    ts.head?.elim z f = if hides ts then z else (proper? ts).elim z f := by
  cases ts with
  | nil => rfl
  | cons c cs =>
    show f c = _
    rw [hides, proper?, List.find?_cons]
    cases hc : c.isComment with
    | false => rfl
    | true =>
      have hz : f c = z := hcomment c (of_decide_eq_true hc)
      rw [hz, Bool.true_and]
      split
      · rfl
      · rename_i hnone
        have hfind : (cs.find? fun d => !d.isComment) = none :=
          List.find?_eq_none.mpr fun d hd hproper => hnone (List.any_eq_true.mpr ⟨d, hd, hproper⟩)
        show z = (cs.find? fun d => !d.isComment).elim z f
        rw [hfind]
        rfl

theorem proper?_rel {holds : Tree → Tree → Prop} {cs ds : List Tree}
    (h : Interspersed IsBareComment (Commented holds) cs ds) :
    Option.Rel (Commented holds) (proper? cs) (proper? ds) :=
  h.find? (fun b hb => by rw [hb.isComment]; rfl) fun _ _ hcd => by rw [hcd.isComment_eq]

/-- What is found in the first place stays the same if nothing is hidden or shown. -/
theorem head?_elim_eq {α : Type} {holds : Tree → Tree → Prop} {cs ds : List Tree}
    (h : Interspersed IsBareComment (Commented holds) cs ds) (hkeep : hides ds = hides cs)
    {f : Tree → α} {z : α} (hcomment : ∀ c, c.kind = .comment → f c = z)
    (hf : ∀ c ∈ cs, ∀ d, Commented holds c d → f d = f c) :
    ds.head?.elim z f = cs.head?.elim z f := by
  rw [head?_elim_eq_ite ds hcomment, head?_elim_eq_ite cs hcomment, hkeep]
  split
  · rfl
  · apply elim_eq_of_rel (proper?_rel h)
    exact fun c d hc _ hcd => hf c (List.mem_of_find?_eq_some hc) d hcd

theorem published_of_comment {t : Tree} (h : t.kind = .comment) : t.published = [] := by
  rw [published_eq, h]
  rfl

theorem isExportAssignment_eq_ite (t : Tree) :
    t.isExportAssignment =
      if hides t.children then false else (proper? t.children).elim false (·.kind = .token) := by
  have helim : t.isExportAssignment = t.children.head?.elim false (·.kind = .token) := by
    unfold isExportAssignment
    cases t.children.head? <;> rfl
  rw [helim, head?_elim_eq_ite t.children fun c hc => by rw [hc]; rfl]

/-- What a comment hides is not found. -/
theorem hindered_says_nothing {t : Tree} (h : t.isHindered = true) :
    (t.kind = .call → t.requiredModule? = none) ∧
      (t.kind = .returnStatement → t.returnedIn = []) ∧
      (t.kind = .exportStatement → t.isExportAssignment = false) := by
  refine ⟨?_, ?_, ?_⟩ <;> intro hk <;> simp only [isHindered, hk] at h
  · obtain ⟨-, hgiven⟩ := (Bool.and_eq_true _ _).mp h
    rw [Tree.requiredModule?_eq, if_pos hk, Option.bind_eq_none_iff]
    intro callee _
    split
    · rw [Option.bind_eq_none_iff]
      intro given hg
      rw [hg, Option.any_some] at hgiven
      rw [head?_elim_eq_ite given.parts fun c hc => by rw [literal?, hc], if_pos hgiven]
    · rfl
  · rw [returnedIn, if_pos hk, head?_elim_eq_ite t.children (fun c hc => published_of_comment hc),
      if_pos h]
  · obtain ⟨-, hhides⟩ := (Bool.and_eq_true _ _).mp h
    rw [isExportAssignment_eq_ite, if_pos hhides]

namespace Commented

variable {t t' : Tree}

/-- A `require` asks for the same module unless a comment hides what it asks for. -/
theorem requiredModule?_eq (h : Commented KeepsFirst t t') :
    t'.requiredModule? = t.requiredModule? := by
  have hfirst : t'.isHindered = t.isHindered := h.holds_node
  rw [Tree.requiredModule?_eq, Tree.requiredModule?_eq t, h.kind_eq]
  split
  · rename_i hk
    simp only [isHindered, h.kind_eq, hk] at hfirst
    apply bind_eq_of_rel (h.child? (by decide))
    intro callee callee' hc hc' hcallee
    rw [hcallee.isNamed_eq]
    split
    · rename_i hnamed
      apply bind_eq_of_rel (h.child? (by decide))
      intro given given' hg hg' hgiven
      simp only [hc, hc', hg, hg', Option.any_some, hcallee.isNamed_eq, hnamed,
        Bool.true_and] at hfirst
      apply head?_elim_eq hgiven.parts hfirst
      · intro c hcomment
        rw [literal?, hcomment]
      · exact fun c _ d hcd => hcd.literal?_eq
    · rfl
  · rfl

end Commented

/-! ## Published names -/

mutual

/-- An exported value refers to the same names unless a comment hides what it returns. -/
theorem Commented.published_eq {t t' : Tree} (h : Commented KeepsFirst t t') :
    t'.published = t.published := by
  rw [Tree.published_eq, Tree.published_eq t, h.kind_eq]
  split
  · apply elim_eq_of_rel h.inner?
    intro c d hc _ hcd
    have hlt : sizeOf c < sizeOf t := sizeOf_lt_of_mem (List.mem_of_find?_eq_some hc)
    exact hcd.published_eq
  · split
    · rw [h.text_eq]
    · -- object
      apply h.children.flatMap
      · intro c hc
        rw [publishedMember, hc.kind]
        rfl
      · intro c hc d hcd
        rw [publishedMember, publishedMember, hcd.kind_eq, hcd.text_eq]
        split
        · rfl
        · split
          · apply elim_eq_of_rel (hcd.child? (by decide))
            intro v w hv _ hvw
            have hlt : sizeOf v < sizeOf t :=
              Nat.lt_trans (sizeOf_lt_of_child? hv) (sizeOf_lt_of_mem hc)
            exact hvw.published_eq
          · rfl
    · -- assignment
      apply elim_eq_of_rel (h.child? (by decide))
      intro c d hc _ hcd
      have hlt : sizeOf c < sizeOf t := sizeOf_lt_of_child? hc
      exact hcd.published_eq
    -- the three forms of functions
    iterate 3
      · apply elim_eq_of_rel (h.child? (by decide))
        intro c d hc _ hcd
        have hlt : sizeOf c < sizeOf t := sizeOf_lt_of_child? hc
        exact hcd.results_eq
    · rfl
termination_by (sizeOf t, 0)

/-- The results of a function's body, likewise. -/
theorem Commented.results_eq {t t' : Tree} (h : Commented KeepsFirst t t') :
    t'.results = t.results := by
  rw [results, results, h.kind_eq]
  split
  · rw [returned_eq, returned_eq]
    apply h.children.flatMap
    · rintro c ⟨text, rfl⟩
      rfl
    · intro c hc d hcd
      have hlt : sizeOf c < sizeOf t := sizeOf_lt_of_mem hc
      exact hcd.returnedIn_eq
  · exact h.published_eq
termination_by (sizeOf t, 1)

/-- A statement returns the same names unless a comment hides what it returns. -/
theorem Commented.returnedIn_eq {t t' : Tree} (h : Commented KeepsFirst t t') :
    t'.returnedIn = t.returnedIn := by
  have hfirst : t'.isHindered = t.isHindered := h.holds_node
  rw [returnedIn, returnedIn, h.kind_eq]
  split
  · rename_i hk
    simp only [isHindered, h.kind_eq, hk] at hfirst
    apply head?_elim_eq h.children hfirst
    · exact fun c hc => published_of_comment hc
    · intro c hc d hcd
      have hlt : sizeOf c < sizeOf t := sizeOf_lt_of_mem hc
      exact hcd.published_eq
  · split
    · rfl
    · rw [returned_eq, returned_eq]
      apply h.children.flatMap
      · rintro c ⟨text, rfl⟩
        rfl
      · intro c hc d hcd
        have hlt : sizeOf c < sizeOf t := sizeOf_lt_of_mem hc
        exact hcd.returnedIn_eq
termination_by (sizeOf t, 0)

end

namespace Commented

variable {t t' : Tree}

theorem returnedNames_eq (h : Commented KeepsFirst t t') : t'.returnedNames = t.returnedNames := by
  rw [Tree.returnedNames_eq, Tree.returnedNames_eq t]
  apply elim_eq_of_rel (h.child? (by decide))
  intro body body' _ _ hbody
  apply hbody.children.flatMap
  · rintro c ⟨text, rfl⟩
    rfl
  · exact fun c _ d hcd => hcd.returnedIn_eq

/-- A comment has no child in any role. -/
theorem child?_of_isBareComment {c : Tree} (h : c.IsBareComment) (l : Label) :
    c.child? l = none := by
  obtain ⟨text, rfl⟩ := h
  rfl

theorem declaredNames_eq {holds : Tree → Tree → Prop} (h : Commented holds t t') :
    t'.declaredNames = t.declaredNames := by
  apply h.children.filterMap
  · intro c hc
    rw [child?_of_isBareComment hc]
    rfl
  · intro c d hcd
    apply bind_eq_of_rel (hcd.child? (by decide))
    intro n m _ _ hnm
    rw [hnm.kind_eq, hnm.text_eq]

theorem clauseNames_eq {holds : Tree → Tree → Prop} (h : Commented holds t t') :
    t'.clauseNames = t.clauseNames := by
  have hclauses := h.children.filter (p := fun c => decide (c.kind = .exportClause))
    fun _ _ hcd => by rw [hcd.kind_eq]
  apply hclauses.flatMap
  · rintro c ⟨text, rfl⟩
    rfl
  · intro c _ d hcd
    apply hcd.children.filterMap
    · intro e he
      rw [child?_of_isBareComment he]
      rfl
    · intro e f hef
      exact map_eq_of_rel (hef.child? (by decide)) fun n m hnm => hnm.text_eq

/-- The sign of `export =` is seen unless a comment hides it. -/
theorem isExportAssignment_eq (h : Commented KeepsFirst t t') (hk : t.kind = .exportStatement) :
    t'.isExportAssignment = t.isExportAssignment := by
  have hproper : (proper? t'.children).elim false (fun c => decide (c.kind = .token)) =
      (proper? t.children).elim false (·.kind = .token) :=
    elim_eq_of_rel (proper?_rel h.children) false fun c d _ _ hcd => by rw [hcd.kind_eq]
  have hfirst : t'.isHindered = t.isHindered := h.holds_node
  simp only [isHindered, h.kind_eq, hk, hproper] at hfirst
  rw [isExportAssignment_eq_ite, isExportAssignment_eq_ite t, hproper]
  cases hp : (proper? t.children).elim false (fun c => decide (c.kind = .token)) with
  | false => simp
  | true =>
    rw [hp, Bool.true_and, Bool.true_and] at hfirst
    rw [hfirst]

/-- An export statement hands out the same names unless a comment hides its sign. -/
theorem exportedNames_eq (h : Commented KeepsFirst t t') (hk : t.kind = .exportStatement) :
    t'.exportedNames = t.exportedNames := by
  unfold exportedNames
  rcases cases_of_rel (h.child? (show Label.source ≠ .plain by decide)) with
    ⟨hs, hs'⟩ | ⟨u, u', hs, hs', -⟩
  rotate_left
  · rw [hs, hs']
    rfl
  rw [hs, hs']
  rcases cases_of_rel (h.child? (show Label.declaration ≠ .plain by decide)) with
    ⟨hd, hd'⟩ | ⟨d, d', hd, hd', hdd⟩
  rotate_left
  · rw [hd, hd']
    dsimp only
    rw [hdd.kind_eq, hdd.declaredNames_eq, hdd.returnedNames_eq]
  rw [hd, hd']
  rcases cases_of_rel (h.child? (show Label.value ≠ .plain by decide)) with
    ⟨hv, hv'⟩ | ⟨v, v', hv, hv', hvv⟩
  rotate_left
  · rw [hv, hv']
    dsimp only
    rw [hvv.published_eq]
  rw [hv, hv']
  dsimp only
  rw [h.clauseNames_eq, h.isExportAssignment_eq hk]
  -- Comments are left out before the last part is taken.
  have hrest := (h.parts.filter
    (p := fun c => decide (c.kind ≠ .exportClause) && decide (c.kind ≠ .comment))
    fun _ _ hcd => by rw [hcd.kind_eq]).forall₂ fun b hb hc => by
      have hproper := (List.mem_filter.mp hb).2
      rw [hc.kind] at hproper
      cases hproper
  have hlast := getLast?_rel hrest
  rcases cases_of_rel hlast with ⟨he, he'⟩ | ⟨e, e', he, he', hee⟩
  · rw [he, he']
  · rw [he, he']
    dsimp only
    rw [hee.published_eq]

end Commented

end Syntax.Tree

end RouteAtlas
