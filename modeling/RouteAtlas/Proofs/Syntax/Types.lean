import RouteAtlas.Proofs.Syntax.Faithful
import RouteAtlas.Syntax.Annotation

/-!
# Types are passed over

No rule for types answers a node with anything in it, so all that there is to show is that the
reading stays in its text, and that what stands behind a part in brackets stands apart.
-/

set_option autoImplicit false

namespace RouteAtlas.Syntax

open Token Reader Annotation

variable {cs : List Char} {g : Grammar}

theorem passes_passTemplate : Passes cs passTemplate := by
  intro s p a p' hp _ h
  obtain ⟨t, q, ht, h⟩ := bind_eq_some_iff.mp h
  obtain ⟨hq, rfl, -⟩ := ensures_take p.ahead s p t q hp rfl ht
  cases hlength : templateLength 0 p.ahead.rest with
  | none =>
    rw [hlength] at h
    cases h
  | some n =>
    rw [hlength] at h
    have hrest : p.ahead.rest.drop n = cs.drop (p.ahead.span.stop + n) := by
      rw [← List.drop_drop, hp.ahead_scan, drop_stop_scan]
    exact ⟨(ensures_goTo (P := Always) hrest s q a p' hq trivial h).1, trivial⟩

theorem exists_is_of_isOneOf {t : Token} {words : List String} (h : t.isOneOf words = true) :
    ∃ word ∈ words, t.is word = true := by
  obtain ⟨hkind, hmem⟩ := Bool.and_eq_true_iff.mp h
  refine ⟨t.text, List.contains_iff_mem.mp hmem, ?_⟩
  rw [Token.is, hkind, decide_eq_true rfl, Bool.and_self]

/-- Nothing goes on behind a closing bracket. -/
theorem endsWord_of_isOneOf {t : Token} (h : t.isOneOf [")", "]", "\x7d"] = true) :
    ∃ word, t.is word = true ∧ endsWord word = true := by
  obtain ⟨word, hword, his⟩ := exists_is_of_isOneOf h
  have hall : ∀ word ∈ [")", "]", "\x7d"], endsWord word = true := by decide +kernel
  exact ⟨word, his, hall word hword⟩

/-- A closing angle bracket may be the first of several marks that are read as one. -/
theorem ensures_takeChars_angle {t : Token} (h : t.text.startsWith ">" = true) :
    Ensures cs (fun p => p.ahead = t) (takeChars 1) fun _ p => Apart cs p.position := by
  apply Ensures.assume
  rintro p hp rfl
  refine (ensures_takeChars p.ahead 1).mono (fun _ _ => id) fun _ q _ hq => ?_
  obtain ⟨rest, hrest⟩ := String.startsWith_string_iff.mp h
  have hhere : cs.drop p.ahead.span.start = '>' :: (rest ++ p.ahead.rest) := by
    rw [hp.ahead_scan, drop_start_scan, ← text_append_rest, ← hp.ahead_scan, ← hrest]
    rfl
  rw [hq]
  intro _ _ c hc
  rw [List.take_add, hhere, List.take_succ_cons, List.take_zero, List.getLast?_append] at hc
  cases hc
  decide +kernel

/-- Whatever the brackets hold, the last thing taken closes one. -/
theorem ensures_passAtMost (angles : Bool) (n depth : Nat) :
    Ensures cs Always (passAtMost angles n depth) fun _ p => Apart cs p.position := by
  induction n generalizing depth with
  | zero => exact ensures_failure
  | succ n ih =>
    rw [passAtMost]
    apply ensures_ahead.bind
    intro t
    split
    · exact ensures_failure
    split
    · exact Keeps.bind passes_passTemplate fun _ _ => ih depth
    split
    · exact Keeps.bind (passes_takeChars 1) fun _ _ => ih (depth + 1)
    split
    · rename_i hangle
      have htext : t.text.startsWith ">" = true := (Bool.and_eq_true_iff.mp hangle).2
      apply ((ensures_takeChars_angle htext).mono (fun _ _ h => h.2) fun _ _ _ => id).bind
      intro _
      split
      · exact ensures_pure fun _ => id
      · exact (ih (depth - 1)).weaken
    · by_cases hclose : t.isOneOf [")", "]", "\x7d"] = true
      · obtain ⟨word, his, hword⟩ := endsWord_of_isOneOf hclose
        apply ((ensures_take_apart t his hword).mono (fun _ _ h => h.2) fun _ _ _ => id).bind
        intro _
        rw [if_pos hclose]
        split
        · exact (ih (depth + 1)).weaken
        · split
          · exact ensures_pure fun _ => id
          · exact (ih (depth - 1)).weaken
      · apply Keeps.bind passes_take.discard
        intro _ _
        rw [if_neg hclose]
        split
        · exact ih (depth + 1)
        · exact ih depth

theorem passes_passBrackets : Passes cs passBrackets := by
  apply Keeps.bind (ensures_seesOneOf _).passes
  intro b _
  split
  · exact Keeps.bind ensures_limit.passes fun n _ => (ensures_passAtMost false n 0).passes
  · exact ensures_failure

theorem ensures_passAngles : Ensures cs Always passAngles fun _ p => Apart cs p.position := by
  apply Keeps.bind (ensures_sees _).passes
  intro b _
  apply Keeps.bind (ensures_sees _).passes
  intro b' _
  split
  · exact Keeps.bind ensures_limit.passes fun n _ => ensures_passAtMost true n 0
  · exact ensures_failure

theorem passes_passAnglesIfAny : Passes cs passAnglesIfAny := by
  apply Keeps.bind (ensures_sees _).passes
  intro b _
  split
  · exact ensures_passAngles.passes
  · exact keeps_pure trivial

theorem passes_onSameLine : Passes cs onSameLine :=
  Keeps.bind ensures_ahead.passes fun _ _ => keeps_pure trivial

theorem passes_passQualifiers (n : Nat) : Passes cs (passQualifiers n) := by
  induction n with
  | zero => exact ensures_failure
  | succ n ih =>
    apply Keeps.bind (ensures_sees _).passes
    intro b _
    apply Keeps.bind (ensures_sees _).passes
    intro b' _
    split
    · exact Keeps.bind passes_take.discard fun _ _ =>
        Keeps.bind passes_take.discard fun _ _ => ih
    · exact keeps_pure trivial

variable (hg : Reads cs g)

include hg

theorem passes_type : Passes cs (discard (g .type)) :=
  (hg.keeps .type).discard

/-- The type that a parameter is said to have, if one is. -/
theorem passes_predicate : Passes cs (do
    if (← sees "is") && (← onSameLine) then
      discard take
      discard (g .type)) := by
  apply Keeps.bind (ensures_sees _).passes
  intro _ _
  apply Keeps.bind passes_onSameLine
  intro _ _
  split
  · exact Keeps.bind passes_take.discard fun _ _ => passes_type hg
  · exact keeps_pure trivial

/-- What may follow the name of a type. -/
theorem passes_afterName (n : Nat) : Passes cs (do
    passQualifiers n
    if (← onSameLine) then passAnglesIfAny
    if (← sees "is") && (← onSameLine) then
      discard take
      discard (g .type)) := by
  apply Keeps.bind (passes_passQualifiers n)
  intro _ _
  apply Keeps.bind passes_onSameLine
  intro _ _
  exact Passes.whenever passes_passAnglesIfAny (passes_predicate hg)

theorem passes_passOperand (n : Nat) : Passes cs (passOperand g n) := by
  induction n with
  | zero => exact ensures_failure
  | succ n ih =>
    apply Keeps.bind ensures_ahead.passes
    intro t _
    dsimp only
    split
    · exact passes_passTemplate
    · exact passes_take.discard
    · exact passes_take.discard
    · apply Keeps.bind passes_take.discard
      intro _ _
      split
      · exact ih
      · apply Passes.whenever passes_take.discard
        exact Passes.whenever passes_passBrackets (passes_afterName hg n)
    · split
      · exact Keeps.bind ensures_passAngles.passes fun _ _ => ih
      split
      · apply Keeps.bind passes_passBrackets
        intro _ _
        apply Keeps.bind (passes_accept _)
        intro b _
        split
        · exact passes_type hg
        · exact keeps_pure trivial
      split
      · exact passes_passBrackets
      split
      · exact Keeps.bind passes_take.discard fun _ _ => passes_take.discard
      · exact ensures_failure
    · exact ensures_failure

omit hg in
theorem passes_passSuffixes (n : Nat) : Passes cs (passSuffixes n) := by
  induction n with
  | zero => exact ensures_failure
  | succ n ih =>
    apply Keeps.bind (ensures_sees _).passes
    intro _ _
    apply Keeps.bind passes_onSameLine
    intro _ _
    split
    · exact Keeps.bind passes_passBrackets fun _ _ => ih
    · exact keeps_pure trivial

theorem passes_passMembers (n : Nat) : Passes cs (passMembers g n) := by
  induction n with
  | zero => exact ensures_failure
  | succ n ih =>
    apply Keeps.bind ensures_limit.passes
    intro k _
    apply Keeps.bind (passes_passOperand hg k)
    intro _ _
    apply Keeps.bind ensures_limit.passes
    intro k' _
    apply Keeps.bind (passes_passSuffixes k')
    intro _ _
    apply Keeps.bind (ensures_seesOneOf _).passes
    intro b _
    split
    · exact Keeps.bind passes_take.discard fun _ _ => ih
    · exact keeps_pure trivial

theorem spans_type : Spans cs (type g) := by
  apply spans_of_start
  intro i
  have hclose : Ensures cs Always (close .other .plain i []) (Reaches cs i) :=
    ensures_close_plain rfl allFaithful_nil
  have hconditional : Ensures cs Always (do
      passMembers g (← limit)
      if (← sees "extends") && (← onSameLine) then
        discard take
        discard (g .type)
        if ← accept "?" then
          discard (g .type)
          expect ":"
          discard (g .type)
      close .other .plain i []) (Reaches cs i) := by
    apply Keeps.bind ensures_limit.passes
    intro n _
    apply Keeps.bind (passes_passMembers hg n)
    intro _ _
    apply Keeps.bind (ensures_sees _).passes
    intro _ _
    apply Keeps.bind passes_onSameLine
    intro _ _
    split
    · apply Keeps.bind passes_take.discard
      intro _ _
      apply Keeps.bind (passes_type hg)
      intro _ _
      apply Keeps.bind (passes_accept _)
      intro b _
      split
      · apply Keeps.bind (passes_type hg)
        intro _ _
        apply Keeps.bind (passes_expect _)
        intro _ _
        exact Keeps.bind (passes_type hg) fun _ _ => hclose
      · exact hclose
    · exact hclose
  apply Keeps.bind (ensures_seesOneOf _).passes
  intro b _
  exact Passes.whenever passes_take.discard hconditional

theorem passes_optionalType : Passes cs <| annotation g := by
  apply Keeps.bind (passes_accept _)
  intro b _
  split
  · exact passes_type hg
  · exact keeps_pure trivial

end RouteAtlas.Syntax
