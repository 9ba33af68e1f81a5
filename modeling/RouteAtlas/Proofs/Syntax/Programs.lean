import RouteAtlas.Proofs.Syntax.Statements
import RouteAtlas.Syntax.Program

/-!
# Programs are read faithfully

The grammar of every depth reads faithfully, by induction on the depth, so the tree of a text is
that of faithful nodes with the comments put in.
-/

set_option autoImplicit false

namespace RouteAtlas.Syntax

open Token Reader

variable {cs : List Char} {g : Grammar}

theorem Reads.level (hg : Reads cs g) : Reads cs (grammarLevel g) where
  keeps goal := by
    cases goal with
    | statement => exact Statement.keeps_statement hg
    | expression limits => exact (Expression.spans_expression hg limits).keeps
    | assignment limits => exact (Expression.spans_assignment hg limits).keeps
    | unary limits => exact (Expression.spans_unary hg limits).keeps
    | operand => exact (Expression.spans_operand hg .none).keeps
    | binding => exact Binding.keeps_binding hg
    | block => exact Statement.keeps_block hg
    | type => exact (spans_type hg).keeps
  expression := Expression.spans_expression hg
  assignment := Expression.spans_assignment hg
  unary := Expression.spans_unary hg
  type := spans_type hg

theorem reads_grammar (n : Nat) : Reads cs (grammar n) := by
  induction n with
  | zero =>
    exact ⟨fun _ => ensures_failure, fun _ _ => ensures_failure, fun _ _ => ensures_failure,
      fun _ _ => ensures_failure, fun _ => ensures_failure⟩
  | succ n ih => exact ih.level

theorem keeps_statements (hg : Reads cs g) : Keeps cs (statements g) (AllFaithful cs) := by
  apply Keeps.bind (Q := fun nss => ∀ ns ∈ nss, AllFaithful cs ns)
  · apply keeps_collect
    apply Keeps.bind ensures_ahead.passes
    intro t _
    split
    · exact keeps_pure nofun
    apply Keeps.bind (hg.keeps .statement).attempt
    intro o ho
    split
    · exact keeps_pure (by simpa using ho _ rfl)
    · apply Keeps.bind passes_take.discard
      intro _ _
      exact keeps_pure (by simp)
  · intro nss hnss
    exact keeps_pure (allFaithful_flatten.mpr hnss)

theorem passes_passInterpreterLine : Passes cs passInterpreterLine := by
  apply ensures_get.bind
  intro p
  apply Ensures.assume
  rintro q _ ⟨_, _, hp⟩
  split
  · rename_i rest hrest
    have hline : rest = cs.drop (p.position + 2) := by
      rw [← List.drop_drop, ← hp.rest_eq, hrest]
      rfl
    refine (ensures_goTo ?_).mono (fun _ _ => id) fun _ _ _ _ => trivial
    rw [hline, List.drop_drop]
    congr 1
    omega
  · exact keeps_pure trivial

theorem tracks_start (cs : List Char) : Tracks cs ⟨0, cs, scan 0 cs, []⟩ :=
  ⟨rfl, rfl⟩

/-- The tree of a text is that of nodes that are faithful to it, whatever the text. -/
theorem exists_faithful_of_tree (language : Language) (text : String) :
    ∃ comments nodes, AllFaithful text.toList nodes ∧
      tree language text = .node .program .plain "" (Node.placeComments comments nodes) := by
  have hreading (n : Nat) : Keeps text.toList (do
      passInterpreterLine
      statements (grammar n)) (AllFaithful text.toList) :=
    Keeps.bind passes_passInterpreterLine fun _ _ => keeps_statements (reads_grammar n)
  unfold tree
  dsimp only
  split
  · rename_i nodes progress hread
    exact ⟨_, nodes, (hreading _ _ _ nodes progress (tracks_start _) trivial hread).2, rfl⟩
  · exact ⟨[], [], allFaithful_nil, rfl⟩

end RouteAtlas.Syntax
