import RouteAtlas.Proofs.Source.Nodes
import RouteAtlas.Proofs.Syntax.Programs

/-!
# Trees stand in their text

The tree of a text holds no positions, but each of its nodes other than the comments comes from a
node that does (`Placed`).  What a tree is asked for, a child in some role or the expression inside
wrappers, can be followed in the text that way.
-/

set_option autoImplicit false

namespace RouteAtlas.Syntax

open Token

variable {cs : List Char}

/-! ## The tree of a node -/

namespace Node

/-- A comment as it stands in a tree. -/
def remark : Tree :=
  .node .comment .plain "" []

theorem mem_placeComments {comments : List Span} {ns : List Node} {t : Tree}
    (h : t ∈ placeComments comments ns) :
    t = remark ∨ ∃ n ∈ ns, ∃ inside, t = n.toTree inside := by
  induction ns generalizing comments with
  | nil =>
    rw [placeComments] at h
    obtain ⟨_, -, rfl⟩ := List.mem_map.mp h
    exact .inl rfl
  | cons n ns ih =>
    rw [placeComments] at h
    rcases List.mem_append.mp h with hbefore | h
    · obtain ⟨_, -, rfl⟩ := List.mem_map.mp hbefore
      exact .inl rfl
    rcases List.mem_cons.mp h with rfl | hafter
    · exact .inr ⟨n, List.mem_cons_self, _, rfl⟩
    rcases ih hafter with rfl | ⟨m, hm, inside, rfl⟩
    · exact .inl rfl
    · exact .inr ⟨m, List.mem_cons_of_mem n hm, inside, rfl⟩

theorem toTree_eq (comments : List Span) (n : Node) :
    n.toTree comments = .node n.kind n.label n.text (placeComments comments n.children) := by
  obtain ⟨k, l, t, s, ns⟩ := n
  rw [toTree]
  rfl

end Node

/-- Whether a tree is that of a node which is faithful to a text. -/
def Placed (cs : List Char) (n : Node) (t : Tree) : Prop :=
  Faithful cs n ∧ ∃ comments, t = n.toTree comments

namespace Placed

variable {n : Node} {t : Tree}

theorem kind_eq (h : Placed cs n t) : t.kind = n.kind := by
  obtain ⟨_, comments, rfl⟩ := h
  rw [Node.toTree_eq, Tree.kind]

theorem label_eq (h : Placed cs n t) : t.label = n.label := by
  obtain ⟨_, comments, rfl⟩ := h
  rw [Node.toTree_eq, Tree.label]

theorem text_eq (h : Placed cs n t) : t.text = n.text := by
  obtain ⟨_, comments, rfl⟩ := h
  rw [Node.toTree_eq, Tree.text]

theorem of_mem_placeComments {comments : List Span} {ns : List Node} (hns : AllFaithful cs ns)
    (h : t ∈ Node.placeComments comments ns) : t = Node.remark ∨ ∃ n ∈ ns, Placed cs n t := by
  rcases Node.mem_placeComments h with hremark | ⟨n, hn, inside, ht⟩
  · exact .inl hremark
  · exact .inr ⟨n, hn, hns n hn, inside, ht⟩

theorem of_mem_children {c : Tree} (h : Placed cs n t) (hc : c ∈ t.children) :
    c = Node.remark ∨ ∃ m ∈ n.children, Placed cs m c := by
  obtain ⟨hn, comments, rfl⟩ := h
  rw [Node.toTree_eq] at hc
  exact of_mem_placeComments hn.children hc

/-- What plays a role in a tree plays it in the node: a comment plays none. -/
theorem of_child? {c : Tree} {l : Label} (h : Placed cs n t) (hl : l ≠ .plain)
    (hc : t.child? l = some c) : ∃ m ∈ n.children, m.label = l ∧ Placed cs m c := by
  have hlabel := Tree.child?_label hc
  rcases h.of_mem_children (Tree.mem_children_of_child? hc) with rfl | ⟨m, hm, hplaced⟩
  · exact absurd hlabel.symm hl
  · exact ⟨m, hm, hplaced.label_eq ▸ hlabel, hplaced⟩

end Placed

/-! ## What faithful nodes ask of their children -/

theorem CalledAt.drop_ne_nil {i : Nat} (h : CalledAt cs i) : cs.drop i ≠ [] := by
  intro hnil
  rw [CalledAt, hnil] at h
  cases h

/-- Where something stands behind a name, the name is as long as its text. -/
theorem Node.Spelled.stop_eq {n : Node} (h : n.Spelled cs) (hrest : cs.drop n.span.stop ≠ []) :
    n.span.stop = n.span.start + n.text.toList.length := by
  have hlength := congrArg List.length h
  have hpos := List.length_pos_iff.mpr hrest
  rw [List.length_append, List.length_drop, List.length_drop] at hlength
  rw [List.length_drop] at hpos
  omega

namespace Faithful

variable {n m : Node}

theorem isWord (h : Faithful cs n) (hk : n.kind = .identifier) : IsWord n.text := by
  cases h with
  | mk hname _ _ => exact (hname hk).1

theorem spelled (h : Faithful cs n) (hk : n.kind = .identifier) : n.Spelled cs := by
  cases h with
  | mk hname _ _ => exact (hname hk).2

theorem fits (h : Faithful cs n) (hm : m ∈ n.children) : n.Fits cs m := by
  cases h with
  | mk _ hfits _ => exact hfits m hm

theorem callee (h : Faithful cs n) (hk : n.kind = .call) (hm : m ∈ n.children)
    (hl : m.label = .callee) : m.span.start = n.span.start ∧ CalledAt cs m.span.stop := by
  have hfits := h.fits hm
  rw [Node.Fits, hk] at hfits
  exact hfits hl

theorem property (h : Faithful cs n) (hk : n.kind = .member) (hm : m ∈ n.children)
    (hl : m.label = .property) :
    m.Spelled cs ∧ m.span.stop = n.span.stop ∧ Apart cs m.span.start := by
  have hfits := h.fits hm
  rw [Node.Fits, hk] at hfits
  exact hfits hl

theorem value (h : Faithful cs n) (hk : n.kind = .declarator) (hm : m ∈ n.children)
    (hl : m.label = .value) : Apart cs m.span.start := by
  have hfits := h.fits hm
  rw [Node.Fits, hk] at hfits
  exact hfits hl

theorem right (h : Faithful cs n) (hk : n.kind = .assignment) (hm : m ∈ n.children)
    (hl : m.label = .right) : Apart cs m.span.start := by
  have hfits := h.fits hm
  rw [Node.Fits, hk] at hfits
  exact hfits hl

/-- What is in a wrapper stands apart when the wrapper does. -/
theorem apart_of_isWrapper (h : Faithful cs n) (hk : Tree.isWrapper n.kind = true)
    (hapart : Apart cs n.span.start) (hm : m ∈ n.children) : Apart cs m.span.start := by
  have hfits := h.fits hm
  have hstart : m.span.start = n.span.start ∨ Apart cs m.span.start := by
    unfold Node.Fits at hfits
    unfold Tree.isWrapper at hk
    split at hk <;> first | (rename_i heq; rw [heq] at hfits; exact hfits) | cases hk
  rcases hstart with hstart | hstart
  · exact hstart ▸ hapart
  · exact hstart

end Faithful

namespace Placed

/-- What stands apart with wrappers around it stands apart without them. -/
theorem unwrapped {n : Node} {t : Tree} (h : Placed cs n t) (hapart : Apart cs n.span.start) :
    ∃ m, Placed cs m t.unwrapped ∧ Apart cs m.span.start := by
  rw [Tree.unwrapped_eq]
  split
  · rename_i hwrapper
    cases hinner : t.inner? with
    | none => exact ⟨n, h, hapart⟩
    | some c =>
      have hc : c ∈ t.children := List.mem_of_find?_eq_some hinner
      have hlt := Tree.sizeOf_lt_of_mem hc
      rcases h.of_mem_children hc with rfl | ⟨m, hm, hplaced⟩
      · exact absurd (List.find?_some hinner) (by decide)
      · exact hplaced.unwrapped (h.1.apart_of_isWrapper (h.kind_eq ▸ hwrapper) hapart hm)
  · exact ⟨n, h, hapart⟩
termination_by sizeOf t

end Placed

/-! ## The tree of a text -/

/-- A node of a placed tree is placed too, or a comment. -/
theorem placed_of_within {t c : Tree} (hc : c.Within t)
    (h : t = Node.remark ∨ ∃ n, Placed cs n t) : c = Node.remark ∨ ∃ n, Placed cs n c := by
  induction hc with
  | here => exact h
  | under hd _ ih =>
    rcases h with rfl | ⟨n, h⟩
    · cases hd
    · rcases h.of_mem_children hd with rfl | ⟨m, _, hm⟩
      · exact ih (.inl rfl)
      · exact ih (.inr ⟨m, hm⟩)

/-- Every node of the tree of a text is placed, apart from the program and the comments. -/
theorem placed_of_within_tree {language : Language} {text : String} {c : Tree}
    (h : c.Within (tree language text)) (hprogram : c.kind ≠ .program)
    (hcomment : c.kind ≠ .comment) : ∃ n, Placed text.toList n c := by
  obtain ⟨comments, nodes, hnodes, htree⟩ := exists_faithful_of_tree language text
  rw [htree] at h
  cases h with
  | here => exact absurd rfl hprogram
  | under hd h =>
    have hplaced : c = Node.remark ∨ ∃ n, Placed text.toList n c := by
      apply placed_of_within h
      rcases Placed.of_mem_placeComments hnodes hd with hremark | ⟨n, _, hn⟩
      · exact .inl hremark
      · exact .inr ⟨n, hn⟩
    rcases hplaced with rfl | hc
    · exact absurd rfl hcomment
    · exact hc

/-- The plain names in the tree of a text are words. -/
theorem isWord_of_within_tree {language : Language} {text : String} {c : Tree}
    (h : c.Within (tree language text)) (hk : c.kind = .identifier) : IsWord c.text := by
  obtain ⟨n, hn⟩ := placed_of_within_tree h (by rw [hk]; decide) (by rw [hk]; decide)
  rw [hn.text_eq]
  exact hn.1.isWord (hn.kind_eq ▸ hk)

end RouteAtlas.Syntax
