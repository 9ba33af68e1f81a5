import RouteAtlas.Proofs.Syntax.Types
import RouteAtlas.Syntax.Binding

/-!
# Bindings are read faithfully

Names, patterns and parameters.  What was read as an expression stays faithful when it turns out to
be a pattern: a pattern asks less of its parts than an expression does.
-/

set_option autoImplicit false

namespace RouteAtlas.Syntax.Binding

open Reader

variable {cs : List Char} {g : Grammar}

/-! ## Expressions that turn out to be patterns -/

mutual

theorem faithful_asPattern {n : Node} (h : Faithful cs n) : Faithful cs (asPattern n) := by
  rw [asPattern.eq_def]
  split
  · exact faithful_of_isPlain rfl (allFaithful_entryPatterns h.children)
  · exact faithful_of_isPlain rfl (allFaithful_elementPatterns h.children)
  · obtain ⟨htarget, hvalue⟩ := allFaithful_cons.mp h.children
    exact faithful_of_isPlain rfl (allFaithful_cons.mpr ⟨faithful_asPattern htarget, hvalue⟩)
  · exact faithful_of_isPlain rfl (allFaithful_elementPatterns h.children)
  · exact h
termination_by sizeOf n

theorem allFaithful_elementPatterns {ns : List Node} (h : AllFaithful cs ns) :
    AllFaithful cs (elementPatterns ns) := by
  rw [elementPatterns.eq_def]
  split
  · exact allFaithful_nil
  · obtain ⟨hn, hns⟩ := allFaithful_cons.mp h
    exact allFaithful_cons.mpr ⟨faithful_asPattern hn, allFaithful_elementPatterns hns⟩
termination_by sizeOf ns

theorem allFaithful_entryPatterns {ns : List Node} (h : AllFaithful cs ns) :
    AllFaithful cs (entryPatterns ns) := by
  rw [entryPatterns.eq_def]
  split
  · exact allFaithful_nil
  · obtain ⟨hn, hns⟩ := allFaithful_cons.mp h
    exact allFaithful_cons.mpr
      ⟨faithful_of_isPlain rfl hn.children, allFaithful_entryPatterns hns⟩
  · obtain ⟨hn, hns⟩ := allFaithful_cons.mp h
    exact allFaithful_cons.mpr
      ⟨faithful_of_isPlain rfl (allFaithful_elementPatterns hn.children),
        allFaithful_entryPatterns hns⟩
  · obtain ⟨hn, hns⟩ := allFaithful_cons.mp h
    exact allFaithful_cons.mpr ⟨faithful_asPattern hn, allFaithful_entryPatterns hns⟩
termination_by sizeOf ns

end

/-! ## Names and patterns -/

theorem spans_name (k : Kind) (l : Label) : Spans cs (name k l) := by
  intro i
  apply ensures_ahead.bind
  intro t
  split
  · rename_i hname
    apply Ensures.assume
    rintro p hp ⟨hi, rfl⟩
    have hword : p.ahead.kind = .word := of_decide_eq_true (Bool.and_eq_true_iff.mp hname).1
    rw [kind_ahead hp, hi] at hword
    exact (ensures_word k l hword).pre fun _ h => h.1
  · exact ensures_failure

variable (hg : Reads cs g)

include hg

theorem keeps_defaultValue : Keeps cs (defaultValue g) fun o => ∀ n ∈ o, Faithful cs n := by
  apply Keeps.bind (passes_accept _)
  intro b _
  split
  · apply Keeps.bind (hg.keeps _)
    intro n hn
    exact keeps_pure (by simpa using hn)
  · exact keeps_pure nofun

theorem keeps_withDefault (l : Label) : Keeps cs (withDefault g l) (Faithful cs) := by
  apply Keeps.bind ensures_start.passes
  intro i _
  apply Keeps.bind (hg.keeps .binding)
  intro target htarget
  apply Keeps.bind (keeps_defaultValue hg)
  intro o ho
  split
  · exact keeps_pure (faithful_as.mpr htarget)
  · exact keeps_close rfl (by simpa [htarget] using ho _ rfl)

theorem keeps_propertyName : Keeps cs (propertyName g) (Faithful cs) := by
  apply Keeps.bind ensures_ahead.passes
  intro t _
  split
  · exact keeps_leaf (by decide) _
  · exact keeps_leaf (by decide) _
  · exact keeps_leaf (by decide) _
  · exact keeps_leaf (by decide) _
  · apply Keeps.bind ensures_start.passes
    intro i _
    apply Keeps.bind (passes_expect _)
    intro _ _
    apply Keeps.bind (hg.keeps _)
    intro inner hinner
    apply Keeps.bind (passes_expect _)
    intro _ _
    exact keeps_close rfl (by simpa using hinner)

theorem keeps_objectEntry : Keeps cs (objectEntry g) (AllFaithful cs) := by
  apply Keeps.bind ensures_start.passes
  intro i _
  apply Keeps.bind ensures_ahead.passes
  intro t _
  apply Keeps.bind (passes_accept _)
  intro b _
  split
  · apply Keeps.bind (hg.keeps .binding)
    intro n hn
    apply Keeps.bind (keeps_close rfl (by simpa using hn))
    intro m hm
    exact keeps_pure (by simpa using hm)
  split
  · apply Keeps.bind (keeps_leaf (by decide) _)
    intro target htarget
    apply Keeps.bind (keeps_defaultValue hg)
    intro o ho
    split
    · exact keeps_pure (by simpa using htarget)
    · apply Keeps.bind (keeps_close rfl (by simpa [htarget] using ho _ rfl))
      intro m hm
      exact keeps_pure (by simpa using hm)
  · apply Keeps.bind (keeps_propertyName hg)
    intro key hkey
    apply Keeps.bind (passes_expect _)
    intro _ _
    apply Keeps.bind (keeps_withDefault hg .value)
    intro target htarget
    apply Keeps.bind (keeps_close rfl (by simpa [hkey] using htarget))
    intro m hm
    exact keeps_pure (by simpa using hm)

theorem keeps_binding : Keeps cs (binding g) (Faithful cs) := by
  apply Keeps.bind ensures_start.passes
  intro i _
  apply Keeps.bind (passes_accept _)
  intro b _
  split
  · apply Keeps.bind (keeps_listUpTo (keeps_objectEntry hg))
    intro ns hns
    exact keeps_close rfl hns
  apply Keeps.bind (passes_accept _)
  intro b _
  split
  · apply Keeps.bind (Q := AllFaithful cs)
    · apply keeps_listUpTo
      apply Keeps.bind (passes_accept _).discard
      intro _ _
      apply Keeps.bind (keeps_withDefault hg .plain)
      intro n hn
      exact keeps_pure (by simpa using hn)
    · intro ns hns
      exact keeps_close rfl hns
  · exact (spans_name _ _).keeps

/-! ## Parameters -/

theorem keeps_decorator : Keeps cs (decorator g) (Faithful cs) := by
  apply Keeps.bind ensures_start.passes
  intro i _
  apply Keeps.bind (passes_expect _)
  intro _ _
  apply Keeps.bind (hg.keeps .operand)
  intro n hn
  exact keeps_close rfl (by simpa using hn)

theorem keeps_decorators : Keeps cs (decorators g) (AllFaithful cs) := by
  apply keeps_collect
  apply Keeps.bind (ensures_sees _).passes
  intro b _
  split
  · apply Keeps.bind (keeps_decorator hg)
    intro n hn
    exact keeps_pure (by simpa using hn)
  · exact keeps_pure nofun

omit hg in
theorem passes_passModifiers (n : Nat) : Passes cs (passModifiers n) := by
  induction n with
  | zero => exact ensures_failure
  | succ n ih =>
    apply Keeps.bind ensures_ahead.passes
    intro t _
    dsimp only
    split
    · exact Keeps.bind passes_take.discard fun _ _ => ih
    · exact keeps_pure trivial

theorem keeps_parameter : Keeps cs (parameter g) (AllFaithful cs) := by
  apply Keeps.bind (keeps_decorators hg)
  intro marks hmarks
  apply Keeps.bind ensures_limit.passes
  intro n _
  apply Keeps.bind (passes_passModifiers n)
  intro _ _
  apply Keeps.bind ensures_start.passes
  intro i _
  apply Keeps.bind (passes_accept _).discard
  intro _ _
  apply Keeps.bind (ensures_sees _).passes
  intro b _
  apply Keeps.either (keeps_leaf (by decide) _) (hg.keeps .binding)
  intro target htarget
  apply Keeps.bind (passes_accept _).discard
  intro _ _
  apply Keeps.bind (passes_optionalType hg)
  intro _ _
  apply Keeps.bind (keeps_defaultValue hg)
  intro o ho
  split
  · exact keeps_pure (by simpa [hmarks] using htarget)
  · apply Keeps.bind (keeps_close rfl (by simpa [htarget] using ho _ rfl))
    intro m hm
    exact keeps_pure (by simpa [hmarks] using hm)

theorem keeps_parameters : Keeps cs (parameters g) (Faithful cs) := by
  apply Keeps.bind ensures_start.passes
  intro i _
  apply Keeps.bind (passes_expect _)
  intro _ _
  apply Keeps.bind (keeps_listUpTo (keeps_parameter hg))
  intro ns hns
  exact keeps_close rfl hns

end RouteAtlas.Syntax.Binding
