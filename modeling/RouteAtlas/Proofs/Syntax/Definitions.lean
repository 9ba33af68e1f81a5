import RouteAtlas.Proofs.Syntax.Bindings
import RouteAtlas.Syntax.Definition
import RouteAtlas.Syntax.Markup
import RouteAtlas.Syntax.Template

/-!
# Functions, markup and templates are read faithfully

The shapes that hold code of their own: functions and classes, elements of markup, and template
literals with what is substituted in them.
-/

set_option autoImplicit false

namespace RouteAtlas.Syntax

open Reader Binding

variable {cs : List Char} {g : Grammar}

/-! ## Functions and classes -/

namespace Definition

theorem passes_passModifiers (words : List String) (n : Nat) :
    Passes cs (passModifiers words n) := by
  induction n with
  | zero => exact ensures_failure
  | succ n ih =>
    apply Keeps.bind ensures_ahead.passes
    intro t _
    split
    · exact Keeps.bind passes_take.discard fun _ _ => ih
    · exact keeps_pure trivial

theorem passes_mayEnd : Passes cs mayEnd :=
  Keeps.bind ensures_ahead.passes fun _ _ => keeps_pure trivial

theorem passes_semicolon : Passes cs semicolon := by
  apply Keeps.bind (passes_accept _)
  intro b _
  split
  · exact keeps_pure trivial
  · apply Keeps.bind passes_mayEnd
    intro b _
    split
    · exact ensures_failure
    · exact keeps_pure trivial

variable (hg : Reads cs g)

include hg

theorem keeps_signature : Keeps cs (signature g) (Faithful cs) := by
  apply Keeps.bind passes_passAnglesIfAny
  intro _ _
  apply Keeps.bind (keeps_parameters hg)
  intro ps hps
  apply Keeps.bind (passes_optionalType hg)
  intro _ _
  exact keeps_pure hps

theorem ensures_function (isDeclaration : Bool) (i : Nat) :
    Ensures cs Always (function g isDeclaration i) (Reaches cs i) := by
  apply Keeps.bind (passes_expect _)
  intro _ _
  apply Keeps.bind (passes_accept _)
  intro generates _
  apply Keeps.bind (spans_name _ _).keeps.attempt
  intro called hcalled
  apply Keeps.bind (keeps_signature hg)
  intro ps hps
  apply Keeps.bind (ensures_sees _).passes
  intro b _
  split
  · apply Keeps.bind (hg.keeps .block)
    intro body hbody
    refine ensures_close_plain ?_ ?_
    · cases isDeclaration <;> cases generates <;> rfl
    · simpa [hps, hbody] using hcalled
  split
  · apply Keeps.bind (passes_accept _).discard
    intro _ _
    exact ensures_close_plain rfl (by simpa [hps] using hcalled)
  · exact ensures_failure

theorem ensures_arrowBody (limits : Limits) (i : Nat) {params : List Node}
    (hparams : AllFaithful cs params) :
    Ensures cs Always (arrowBody g limits i params) (Reaches cs i) := by
  apply Keeps.bind (passes_expect _)
  intro _ _
  apply Keeps.bind (ensures_sees _).passes
  intro b _
  apply Keeps.either (hg.keeps .block) (hg.keeps _)
  intro body hbody
  exact ensures_close_plain rfl (by simp [hparams, hbody])

theorem ensures_arrow (limits : Limits) (i : Nat) :
    Ensures cs Always (arrow g limits i) (Reaches cs i) := by
  apply Keeps.bind passes_passAnglesIfAny
  intro _ _
  apply Keeps.bind (keeps_parameters hg)
  intro ps hps
  apply Passes.whenever (passes_optionalType hg)
  exact ensures_arrowBody hg limits i (by simp [hps])

theorem keeps_method (i : Nat) {before : List Node} (hbefore : AllFaithful cs before) :
    Keeps cs (method g i before) (Faithful cs) := by
  apply Keeps.bind (keeps_signature hg)
  intro ps hps
  apply Keeps.bind (ensures_sees _).passes
  intro b _
  split
  · apply Keeps.bind (hg.keeps .block)
    intro body hbody
    exact keeps_close rfl (by simp [hbefore, hps, hbody])
  · exact keeps_close rfl (by simp [hbefore, hps])

theorem keeps_indexSignature : Keeps cs (indexSignature g) (AllFaithful cs) := by
  apply Keeps.bind ensures_ahead.passes
  intro t _
  split
  · apply Keeps.bind passes_passBrackets
    intro _ _
    apply Keeps.bind (passes_optionalType hg)
    intro _ _
    apply Keeps.bind passes_semicolon
    intro _ _
    exact keeps_pure allFaithful_nil
  · exact ensures_failure

theorem keeps_member : Keeps cs (member g) (AllFaithful cs) := by
  apply Keeps.bind (keeps_decorators hg)
  intro marks hmarks
  apply Keeps.bind ensures_start.passes
  intro i _
  apply Keeps.bind ensures_ahead.passes
  intro t _
  split
  · apply Keeps.bind passes_take.discard
    intro _ _
    apply Keeps.bind (hg.keeps .block)
    intro body hbody
    apply Keeps.bind (keeps_close rfl (by simpa using hbody))
    intro m hm
    exact keeps_pure (by simp [hmarks, hm])
  apply Keeps.bind ensures_limit.passes
  intro n _
  apply Keeps.bind (passes_passModifiers _ n)
  intro _ _
  apply Keeps.bind (keeps_indexSignature hg).attempt
  intro o ho
  split
  · exact keeps_pure (by simpa [hmarks] using ho _ rfl)
  apply Keeps.bind (passes_accept _).discard
  intro _ _
  apply Keeps.bind (keeps_propertyName hg)
  intro key hkey
  apply Keeps.bind (passes_accept _)
  intro b _
  apply Passes.whenever (passes_accept _).discard
  apply Keeps.bind (ensures_seesOneOf _).passes
  intro b _
  split
  · apply Keeps.bind (keeps_method hg i (by simpa using hkey))
    intro m hm
    apply Keeps.bind (passes_accept _).discard
    intro _ _
    exact keeps_pure (by simp [hmarks, hm])
  · apply Keeps.bind (passes_optionalType hg)
    intro _ _
    apply Keeps.bind (keeps_defaultValue hg)
    intro value hvalue
    apply Keeps.bind (keeps_close rfl (by simpa [hkey] using hvalue))
    intro field hfield
    apply Keeps.bind passes_semicolon
    intro _ _
    exact keeps_pure (by simp [hmarks, hfield])

theorem keeps_classBody : Keeps cs (classBody g) (Faithful cs) := by
  apply Keeps.bind ensures_start.passes
  intro i _
  apply Keeps.bind (passes_expect _)
  intro _ _
  apply Keeps.bind (Q := fun nss => ∀ ns ∈ nss, AllFaithful cs ns)
  · apply keeps_collect
    apply Keeps.bind (passes_accept _)
    intro b _
    split
    · exact keeps_pure nofun
    apply Keeps.bind (passes_accept _)
    intro b _
    split
    · exact keeps_pure (by simp)
    · apply Keeps.bind (keeps_member hg)
      intro ns hns
      exact keeps_pure (by simpa using hns)
  · intro nss hnss
    exact keeps_close rfl (allFaithful_flatten.mpr hnss)

theorem passes_types : Passes cs (discard (collect do
    discard (g .type)
    return if ← accept "," then some () else none)) := by
  apply Keeps.discard (Q := fun us => ∀ u ∈ us, True)
  apply keeps_collect
  apply Keeps.bind (passes_type hg)
  intro _ _
  apply Keeps.bind (passes_accept _)
  intro b _
  exact keeps_pure fun _ _ => trivial

theorem keeps_heritage : Keeps cs (heritage g) (AllFaithful cs) := by
  apply Keeps.bind (passes_accept _)
  intro b _
  have hnext : ∀ parent, AllFaithful cs parent → Ensures cs Always (do
      if ← accept "implements" then
        discard (collect do
          discard (g .type)
          return if ← accept "," then some () else none)
      return parent) fun ns _ => AllFaithful cs ns := by
    intro parent hparent
    apply Keeps.bind (passes_accept _)
    intro b _
    exact Passes.whenever (passes_types hg) (keeps_pure hparent)
  split
  · apply Keeps.bind (hg.keeps .operand)
    intro p hp
    apply Keeps.bind passes_passAnglesIfAny
    intro _ _
    exact hnext [p] (by simpa using hp)
  · exact hnext [] allFaithful_nil

theorem ensures_class {k : Kind} (hk : isPlain k = true) (i : Nat) {before : List Node}
    (hbefore : AllFaithful cs before) :
    Ensures cs Always (class' g k i before) (Reaches cs i) := by
  apply Keeps.bind (passes_expect _)
  intro _ _
  apply Keeps.bind (ensures_sees _).passes
  intro b _
  apply Keeps.either (Q := fun o => ∀ n ∈ o, Faithful cs n) (keeps_pure (by simp))
    (spans_name _ _).keeps.attempt
  intro called hcalled
  apply Keeps.bind passes_passAnglesIfAny
  intro _ _
  apply Keeps.bind (keeps_heritage hg)
  intro parents hparents
  apply Keeps.bind (keeps_classBody hg)
  intro body hbody
  exact ensures_close_plain hk (by simpa [hbefore, hparents, hbody] using hcalled)

end Definition

/-! ## Template literals -/

namespace Template

theorem keeps_passText (n : Nat) : Passes cs (passText n) := by
  apply ensures_get.bind
  intro p
  apply Ensures.assume
  rintro q _ ⟨_, _, hp⟩
  have hrest : p.rest.drop n = cs.drop (p.position + n) := by
    rw [← List.drop_drop, hp.rest_eq]
  exact (ensures_goTo hrest).bind fun _ => keeps_pure trivial

theorem keeps_pieces (hg : Reads cs g) : Keeps cs (pieces g) (AllFaithful cs) := by
  apply keeps_collect
  apply Keeps.bind ensures_get.passes
  intro p _
  split
  · apply Keeps.bind (keeps_passText _)
    intro span _
    refine keeps_pure fun n hn => ?_
    cases hn
    exact faithful_of_isPlain rfl allFaithful_nil
  · apply Keeps.bind (keeps_passText _)
    intro span _
    refine keeps_pure fun n hn => ?_
    cases hn
    exact faithful_of_isPlain rfl allFaithful_nil
  · apply Keeps.bind (keeps_passText _)
    intro span _
    apply Keeps.bind (hg.keeps _)
    intro inner hinner
    apply Keeps.bind (passes_expect _)
    intro _ _
    apply Keeps.bind (keeps_close rfl (by simpa using hinner))
    intro m hm
    exact keeps_pure (by simpa using hm)
  · apply Keeps.bind (keeps_passText _).discard
    intro _ _
    exact keeps_pure nofun
  · exact ensures_failure

theorem spans_literal (hg : Reads cs g) (l : Label) (i : Nat) :
    Ensures cs (fun p => p.ahead.span.start = i) (literal g l) fun n p =>
      Reaches cs i n p ∧ n.label = l := by
  intro s p n p' hp hi h
  obtain ⟨t, q, ht, h⟩ := bind_eq_some_iff.mp h
  obtain ⟨hq, rfl, -⟩ := ensures_take p.ahead s p t q hp rfl ht
  obtain ⟨found, q', hfound, h⟩ := bind_eq_some_iff.mp h
  obtain ⟨hq', hns⟩ := keeps_pieces hg s q found q' hq trivial hfound
  cases h
  refine ⟨hq', ⟨faithful_of_isPlain rfl hns, ?_⟩, rfl⟩
  show Span.mk p.ahead.span.start p'.position = ⟨i, p'.position⟩
  rw [hi]

theorem keeps_literal (hg : Reads cs g) (l : Label) :
    Keeps cs (literal g l) fun n => Faithful cs n ∧ n.label = l := by
  intro s p n p' hp _ hr
  obtain ⟨hp', hn, hlabel⟩ := spans_literal hg l _ s p n p' hp rfl hr
  exact ⟨hp', hn.1, hlabel⟩

end Template

/-! ## Markup -/

namespace Markup

theorem passes_passName (n : Nat) : Passes cs (passName n) := by
  induction n with
  | zero => exact ensures_failure
  | succ n ih =>
    apply Keeps.bind ensures_ahead.passes
    intro t _
    split
    · apply Keeps.bind passes_take.discard
      intro _ _
      apply Keeps.bind (ensures_seesOneOf _).passes
      intro b _
      split
      · exact Keeps.bind passes_take.discard fun _ _ => ih
      · exact keeps_pure trivial
    · exact ensures_failure

theorem passes_passQuoted : Passes cs passQuoted := by
  apply Keeps.bind ensures_ahead.passes
  intro t _
  split
  · split
    · dsimp only
      split
      · exact ensures_failure
      · exact passes_takeChars _
    · exact ensures_failure
  · exact ensures_failure

theorem passes_passAngle : Passes cs passAngle := by
  apply Keeps.bind ensures_ahead.passes
  intro t _
  split
  · exact passes_takeChars 1
  · exact ensures_failure

theorem passes_passText : Passes cs passText := by
  apply ensures_get.bind
  intro p
  apply Ensures.assume
  rintro q _ ⟨_, _, hp⟩
  refine (ensures_goTo ?_).mono (fun _ _ => id) fun _ _ _ _ => trivial
  rw [← List.drop_drop, hp.rest_eq]

variable (hg : Reads cs g)

include hg

theorem keeps_inBraces : Keeps cs (inBraces g) (Faithful cs) := by
  apply Keeps.bind ensures_start.passes
  intro i _
  apply Keeps.bind (passes_expect _)
  intro _ _
  apply Keeps.bind (passes_accept _)
  intro b _
  split
  · exact keeps_close rfl allFaithful_nil
  · apply Keeps.bind (Q := Faithful cs)
    · apply Keeps.bind (passes_accept _)
      intro b _
      split
      · exact hg.keeps _
      · exact hg.keeps _
    · intro inner hinner
      apply Keeps.bind (passes_expect _)
      intro _ _
      exact keeps_close rfl (by simpa using hinner)

theorem keeps_attributes : Keeps cs (attributes g) (AllFaithful cs) := by
  apply Keeps.bind (Q := fun nss => ∀ ns ∈ nss, AllFaithful cs ns)
  · apply keeps_collect
    apply Keeps.bind (ensures_seesOneOf _).passes
    intro b _
    split
    · exact keeps_pure nofun
    apply Keeps.bind (ensures_sees _).passes
    intro b _
    split
    · apply Keeps.bind (keeps_inBraces hg)
      intro n hn
      exact keeps_pure (by simpa using hn)
    apply Keeps.bind ensures_limit.passes
    intro k _
    apply Keeps.bind (passes_passName k)
    intro _ _
    apply Keeps.bind (passes_accept _)
    intro b _
    split
    · apply Keeps.bind (ensures_sees _).passes
      intro b _
      split
      · apply Keeps.bind (keeps_inBraces hg)
        intro n hn
        exact keeps_pure (by simpa using hn)
      apply Keeps.bind (ensures_sees _).passes
      intro b _
      split
      · apply Keeps.bind (hg.keeps .operand)
        intro n hn
        exact keeps_pure (by simpa using hn)
      · exact Keeps.bind passes_passQuoted fun _ _ => keeps_pure (by simp)
    · exact keeps_pure (by simp)
  · intro nss hnss
    exact keeps_pure (allFaithful_flatten.mpr hnss)

theorem keeps_contents : Keeps cs (contents g) (AllFaithful cs) := by
  apply keeps_collect
  apply Keeps.bind passes_passText
  intro _ _
  apply Keeps.bind ensures_ahead.passes
  intro t _
  split
  · apply Keeps.bind (keeps_inBraces hg)
    intro n hn
    exact keeps_pure (by simpa using hn)
  split
  · apply Keeps.bind passes_take.discard
    intro _ _
    apply Keeps.bind passes_take.discard
    intro _ _
    have hclose : Ensures cs Always (do passAngle; return none : Reader (Option Node))
        fun o _ => ∀ n ∈ o, Faithful cs n :=
      Keeps.bind passes_passAngle fun _ _ => keeps_pure nofun
    apply Keeps.bind (ensures_seesOneOf _).passes
    intro b _
    split
    · apply Keeps.bind ensures_limit.passes
      intro k _
      exact Keeps.bind (passes_passName k) fun _ _ => hclose
    · exact hclose
  · apply Keeps.bind (hg.keeps .operand)
    intro n hn
    exact keeps_pure (by simpa using hn)

theorem spans_element : Spans cs (element g) := by
  apply spans_of_start
  intro i
  apply Keeps.bind (passes_expect _)
  intro _ _
  apply Keeps.bind (ensures_seesOneOf _).passes
  intro b _
  split
  · apply Keeps.bind passes_passAngle
    intro _ _
    apply Keeps.bind (keeps_contents hg)
    intro ns hns
    exact ensures_close_plain rfl hns
  · apply Keeps.bind ensures_limit.passes
    intro k _
    apply Keeps.bind (passes_passName k)
    intro _ _
    apply Keeps.bind (ensures_sees _).passes
    intro b _
    apply Passes.whenever ensures_passAngles.passes
    apply Keeps.bind (keeps_attributes hg)
    intro given hgiven
    apply Keeps.bind (passes_accept _)
    intro b _
    split
    · apply Keeps.bind passes_passAngle
      intro _ _
      exact ensures_close_plain rfl hgiven
    · apply Keeps.bind passes_passAngle
      intro _ _
      apply Keeps.bind (keeps_contents hg)
      intro ns hns
      exact ensures_close_plain rfl (by simp [hgiven, hns])

end Markup

end RouteAtlas.Syntax
