import RouteAtlas.Proofs.Syntax.Definitions
import RouteAtlas.Syntax.Expression

/-!
# Expressions are read faithfully

What is called is followed by what calls it, and the name of a member stands behind its point.  All
that may follow an operand goes on from where the operand ends, so the rules for it are about a
node that reaches to there.
-/

set_option autoImplicit false

namespace RouteAtlas.Syntax.Expression

open Token Reader Binding

variable {cs : List Char} {g : Grammar} (hg : Reads cs g)

include hg

theorem keeps_element : Keeps cs (element g) (AllFaithful cs) := by
  apply Keeps.bind ensures_start.passes
  intro i _
  apply Keeps.bind (passes_accept _)
  intro b _
  split
  · apply Keeps.bind (hg.keeps _)
    intro n hn
    apply Keeps.bind (keeps_close rfl (by simpa using hn))
    intro m hm
    exact keeps_pure (by simpa using hm)
  · apply Keeps.bind (hg.keeps _)
    intro n hn
    exact keeps_pure (by simpa using hn)

theorem keeps_arguments :
    Keeps cs (arguments g) fun n => Faithful cs n ∧ n.label = .arguments := by
  apply Keeps.bind ensures_start.passes
  intro i _
  apply Keeps.bind (passes_expect _)
  intro _ _
  apply Keeps.bind (keeps_listUpTo (keeps_element hg))
  intro ns hns
  refine (ensures_close _ _ i ns).mono (fun _ _ => id) fun n p _ hn => ?_
  obtain ⟨_, rfl⟩ := hn
  exact ⟨faithful_of_isPlain rfl hns, rfl⟩

/-! ## Objects -/

theorem keeps_objectMember : Keeps cs (objectMember g) (AllFaithful cs) := by
  apply Keeps.bind ensures_start.passes
  intro i _
  apply Keeps.bind (passes_accept _)
  intro b _
  split
  · apply Keeps.bind (hg.keeps _)
    intro n hn
    apply Keeps.bind (keeps_close rfl (by simpa using hn))
    intro m hm
    exact keeps_pure (by simpa using hm)
  apply Keeps.bind ensures_limit.passes
  intro k _
  apply Keeps.bind (Definition.passes_passModifiers _ k)
  intro _ _
  apply Keeps.bind (passes_accept _).discard
  intro _ _
  apply Keeps.bind ensures_ahead.passes
  intro t _
  dsimp only
  split
  · apply Keeps.bind (keeps_leaf (by decide) _)
    intro target htarget
    apply Keeps.bind (keeps_defaultValue hg)
    intro o ho
    split
    · exact keeps_pure (by simpa using htarget)
    · have hname := faithful_ofKind (k := .shorthandPattern) rfl htarget
      apply Keeps.bind (keeps_close rfl (by simpa [hname] using ho _ rfl))
      intro m hm
      exact keeps_pure (by simpa using hm)
  · apply Keeps.bind (keeps_propertyName hg)
    intro key hkey
    apply Keeps.bind (passes_accept _)
    intro b _
    split
    · apply Keeps.bind (hg.keeps _)
      intro value hvalue
      apply Keeps.bind (keeps_close rfl (by simp [hkey, hvalue]))
      intro m hm
      exact keeps_pure (by simpa using hm)
    · apply Keeps.bind (Definition.keeps_method hg i (by simpa using hkey))
      intro m hm
      exact keeps_pure (by simpa using hm)

theorem spans_object : Spans cs (object g) := by
  apply spans_of_start
  intro i
  apply Keeps.bind (passes_expect _)
  intro _ _
  apply Keeps.bind (keeps_listUpTo (keeps_objectMember hg))
  intro ns hns
  exact ensures_close_plain rfl hns

/-! ## Operands -/

omit hg in
theorem spans_pattern : Spans cs (pattern : Reader Node) := by
  intro i
  apply ensures_ahead.bind
  intro t
  apply Ensures.assume
  rintro p _ ⟨hi, rfl⟩
  split
  · exact ensures_failure
  · apply Keeps.bind (passes_takeChars _)
    intro _ _
    rw [hi]
    exact ensures_close_plain rfl allFaithful_nil

theorem spans_parenthesized : Spans cs (parenthesized g) := by
  apply spans_of_start
  intro i
  apply (ensures_expect_apart rfl).bind
  intro _
  apply (hg.expression .none).apart.bind
  intro inner
  apply Ensures.assume
  rintro p _ ⟨hinner, hapart⟩
  apply Keeps.bind (passes_optionalType hg)
  intro _ _
  apply Keeps.bind (passes_expect _)
  intro _ _
  exact ensures_close_wrapper rfl (by simpa using hinner) (by simpa using .inr hapart)

/-- What was tried at a place, or that the reading still stands there. -/
def TriedAt (cs : List Char) (i : Nat) : Option Node → Progress → Prop
  | some n, p => Reaches cs i n p
  | none, p => p.ahead.span.start = i

omit hg in
theorem ensures_attempt_at {r : Reader Node} {i : Nat}
    (h : Ensures cs (fun p => p.ahead.span.start = i) r (Reaches cs i)) :
    Ensures cs (fun p => p.ahead.span.start = i) (attempt r) (TriedAt cs i) :=
  h.attempt.mono (fun _ _ => id) fun o _ _ ho => by cases o <;> exact ho

omit hg in
theorem ensures_untried (i : Nat) :
    Ensures cs (fun p => p.ahead.span.start = i) (pure none) (TriedAt cs i) := by
  exact ensures_pure fun _ => id

omit hg in
/-- Another reader starts over where nothing came of what was tried. -/
theorem ensures_tried {r : Reader Node} {i : Nat} {o : Option Node}
    (h : Ensures cs (fun p => p.ahead.span.start = i) r (Reaches cs i)) :
    Ensures cs (TriedAt cs i o) (match o with | some n => pure n | none => r) (Reaches cs i) := by
  cases o with
  | some n => exact ensures_pure fun _ => id
  | none => exact h

theorem ensures_asyncArrow (limits : Limits) (i : Nat) :
    Ensures cs Always (do discard take; Definition.arrow g limits i) (Reaches cs i) :=
  Keeps.bind passes_take.discard fun _ _ => Definition.ensures_arrow hg limits i

theorem ensures_async (limits : Limits) {i : Nat} (hword : (Token.lexeme (cs.drop i)).1 = .word) :
    Ensures cs (fun p => p.ahead.span.start = i) (async g limits) (Reaches cs i) := by
  apply ensures_of_start
  apply ensures_ahead.bind
  intro t
  dsimp only
  split
  · apply Keeps.bind passes_take.discard
    intro _ _
    exact Definition.ensures_function hg false i
  split
  · apply Keeps.bind passes_take.discard
    intro _ _
    apply Keeps.bind (spans_name _ _).keeps
    intro n hn
    exact Definition.ensures_arrowBody hg limits i (by simpa using hn)
  · have htry := (ensures_asyncArrow hg limits i).weaken (P := fun p => p.ahead.span.start = i)
    refine Ensures.mono ?_ (fun _ _ h => h.1) fun _ _ _ => id
    apply Ensures.either (ensures_attempt_at htry) (ensures_untried i)
    intro o
    exact ensures_tried (ensures_word _ _ hword)

theorem spans_typeAssertion (limits : Limits) : Spans cs (typeAssertion g limits) := by
  apply spans_of_start
  intro i
  apply ensures_passAngles.weaken.bind
  intro _
  apply (ensures_close _ _ i []).bind
  intro types
  apply Ensures.assume
  rintro p _ ⟨_, rfl⟩
  have hinner := (hg.unary limits).apart
  apply (hinner.pre fun _ h => h.1).bind
  intro inner
  apply Ensures.assume
  rintro q _ ⟨hinner, hapart⟩
  have htypes : Faithful cs (.mk .typeArguments .plain "" ⟨i, p.position⟩ []) :=
    faithful_of_isPlain rfl allFaithful_nil
  refine ensures_close_wrapper rfl (by simp [htypes, hinner]) ?_
  rw [List.forall_mem_cons]
  exact ⟨.inl rfl, by simpa using .inr hapart⟩

theorem spans_angled (limits : Limits) : Spans cs (angled g limits) := by
  apply spans_of_start
  intro i
  have harrow := (Definition.ensures_arrow hg limits i).weaken
    (P := fun p => p.ahead.span.start = i)
  apply ensures_ahead.bind
  intro t
  apply Ensures.bind (Q := fun _ p => p.ahead.span.start = i)
    (ensures_read.pre fun _ h => h.1)
  intro setting
  dsimp only
  split
  · apply Ensures.either (ensures_attempt_at harrow) (ensures_untried i)
    intro o
    exact ensures_tried (Markup.spans_element hg i)
  · exact harrow.orElse (spans_typeAssertion hg limits i)

theorem spans_primary (limits : Limits) : Spans cs (primary g limits) := by
  apply spans_of_start
  intro i
  apply ensures_ahead.bind
  intro t
  apply Ensures.assume
  rintro p hp ⟨hi, ht⟩
  have hkind : (Token.lexeme (cs.drop i)).1 = t.kind := by rw [← hi, ← kind_ahead hp, ht]
  refine Ensures.mono (P := fun p => p.ahead.span.start = i) ?_ (fun _ _ h => h.1) fun _ _ _ => id
  split
  · exact spans_leaf (by decide) _ i
  · exact spans_leaf (by decide) _ i
  · exact spans_leaf (by decide) _ i
  · exact (Template.spans_literal hg .plain i).mono (fun _ _ => id) fun _ _ _ h => h.1
  · -- a word
    rename_i hword
    split
    · exact (Definition.ensures_function hg false i).weaken
    split
    · exact (Definition.ensures_class hg rfl i allFaithful_nil).weaken
    split
    · exact ensures_async hg limits (hkind.trans hword)
    split
    · exact spans_leaf (by decide) _ i
    · apply (spans_name _ _ i).bind
      intro n
      apply Ensures.assume
      intro p _ hn
      apply (ensures_sees _).bind
      intro b
      split
      · exact (Definition.ensures_arrowBody hg limits i (by simpa using hn.1)).weaken
      · exact ensures_pure fun _ => id
  · -- a mark
    split
    · have harrow := (Definition.ensures_arrow hg limits i).weaken
        (P := fun p => p.ahead.span.start = i)
      apply Ensures.either (ensures_attempt_at harrow) (ensures_untried i)
      intro o
      exact ensures_tried (spans_parenthesized hg i)
    split
    · apply Keeps.bind passes_take.discard
      intro _ _
      apply Keeps.bind (keeps_listUpTo (keeps_element hg))
      intro ns hns
      exact ensures_close_plain rfl hns
    split
    · exact spans_object hg i
    split
    · exact spans_pattern i
    split
    · exact spans_angled hg limits i
    split
    · apply Keeps.bind (keeps_decorators hg)
      intro marks hmarks
      exact Definition.ensures_class hg rfl i hmarks
    · exact ensures_failure
  · exact ensures_failure

/-! ## What stands behind an operand -/

omit hg in
/-- The name of a member is spelled where it stands, and the member ends with it. -/
theorem ensures_propertyLeaf :
    Ensures cs (fun p => Apart cs p.position) propertyLeaf fun n p =>
      Faithful cs n ∧ n.span.stop = p.position ∧ n.Spelled cs ∧ Apart cs n.span.start := by
  have hleaf {k : Kind} (hk : k ≠ .identifier) :
      Ensures cs (fun p => Apart cs p.position) (leaf k .property) fun n p =>
        Faithful cs n ∧ n.span.stop = p.position ∧ n.Spelled cs ∧ Apart cs n.span.start := by
    intro s p n p' hp hapart hr
    obtain ⟨hp', ⟨hn, hspan⟩, hspelled, -⟩ :=
      ensures_leaf k .property _ (fun hname => absurd hname hk) s p n p' hp rfl hr
    refine ⟨hp', hn, by rw [hspan], hspelled, ?_⟩
    rw [hspan, hp.ahead_scan]
    exact hapart.scan
  apply ensures_ahead.bind
  intro t
  refine Ensures.mono (P := fun p => Apart cs p.position) ?_ (fun _ _ h => h.1) fun _ _ _ => id
  split
  · exact hleaf (by decide)
  · exact hleaf (by decide)
  · exact ensures_failure

theorem ensures_subscript {i : Nat} {n : Node} (hn : Faithful cs n) :
    Ensures cs Always (subscript g i n) (Reaches cs i) := by
  apply Keeps.bind (passes_expect _)
  intro _ _
  apply Keeps.bind (hg.keeps _)
  intro index hindex
  apply Keeps.bind (passes_expect _)
  intro _ _
  exact ensures_close_plain rfl (by simp [hn, hindex])

/-- Whatever is called is faithful when a call follows it. -/
theorem ensures_call {i : Nat} {n : Node} (hn : Faithful cs n) (hstart : n.span.start = i)
    (hcalled : CalledAt cs n.span.stop) : Ensures cs Always (call g i n) (Reaches cs i) := by
  apply ensures_ahead.bind
  intro t
  have hgiven : ∀ given, Faithful cs given ∧ given.label = .arguments →
      Ensures cs Always (close .call .plain i [n.as .callee, given]) (Reaches cs i) := by
    rintro given ⟨hgiven, hlabel⟩
    refine ensures_close_fits nofun (by simp [hn, hgiven]) fun p _ _ => ?_
    rw [List.forall_mem_cons]
    refine ⟨fun _ => by simpa using ⟨hstart, hcalled⟩, ?_⟩
    rw [List.forall_mem_singleton]
    intro hcallee
    rw [hlabel] at hcallee
    cases hcallee
  refine Ensures.mono (P := Always) ?_ (fun _ _ _ => trivial) fun _ _ _ => id
  exact Keeps.either (Template.keeps_literal hg _) (keeps_arguments hg) hgiven

omit hg in
theorem passes_typeArguments : Passes cs typeArguments := by
  apply Keeps.bind ensures_passAngles.passes
  intro _ _
  apply Keeps.bind ensures_ahead.passes
  intro t _
  split
  · exact keeps_pure trivial
  · exact ensures_failure

omit hg in
/-- A node takes the place of the one it grew from. -/
theorem ensures_grown {P : Progress → Prop} {r : Reader Node} {i : Nat} {n : Node}
    (h : Ensures cs P r (Reaches cs i)) :
    Ensures cs P (r >>= fun m => pure (some m)) fun o p => Reaches cs i (o.getD n) p := by
  apply h.bind
  intro m
  exact ensures_pure fun _ => id

omit hg in
theorem ensures_ungrown (i : Nat) (n : Node) :
    Ensures cs (Reaches cs i n) (pure none) fun o p => Reaches cs i (o.getD n) p :=
  ensures_pure fun _ => id

omit hg in
theorem ensures_member {i : Nat} {n : Node} (hn : Faithful cs n) :
    Ensures cs (fun p => Apart cs p.position)
      (do return some (← close .member .plain i [n.as .object, ← propertyLeaf]))
      fun o p => Reaches cs i (o.getD n) p := by
  apply ensures_propertyLeaf.bind
  intro m
  apply ensures_grown
  apply Ensures.assume
  rintro p _ ⟨hm, -, hspelled, hapart⟩
  refine ensures_close_fits nofun (by simp [hn, hm]) fun q _ hq => ?_
  rw [List.forall_mem_cons, List.forall_mem_singleton]
  refine ⟨fun hproperty => ?_, fun _ => ⟨hspelled, hq.2.1, hapart⟩⟩
  rw [label_as] at hproperty
  cases hproperty

/-- A call that grows from what it calls. -/
theorem ensures_grown_call {P : Progress → Prop} {i : Nat} {n : Node} (hn : Faithful cs n)
    (hstart : n.span.start = i) (hcalled : CalledAt cs n.span.stop) :
    Ensures cs P (do return some (← call g i n)) fun o p => Reaches cs i (o.getD n) p :=
  ensures_grown (ensures_call hg hn hstart hcalled).weaken

theorem ensures_grown_subscript {P : Progress → Prop} {i : Nat} {n : Node}
    (hn : Faithful cs n) :
    Ensures cs P (do return some (← subscript g i n)) fun o p => Reaches cs i (o.getD n) p :=
  ensures_grown (ensures_subscript hg hn).weaken

/-- What follows `?.`; a call there is one of what stands before it. -/
theorem ensures_chained {t : Token} {i : Nat} {n : Node} (his : t.is "?." = true)
    (hn : Faithful cs n) (hstart : n.span.start = i)
    (hcalled : t.makesCall = true → CalledAt cs n.span.stop) :
    Ensures cs (fun p => p.ahead = t) (do
      discard take
      let u ← ahead
      if u.is "[" then return some (← subscript g i n)
      else if u.is "(" || u.is "<" || u.kind = .backquote then
        Annotation.passAnglesIfAny
        return some (← call g i n)
      else return some (← close .member .plain i [n.as .object, ← propertyLeaf]))
      fun o p => Reaches cs i (o.getD n) p := by
  apply (Ensures.and (ensures_take_apart t his rfl) (ensures_take_next t)).bind
  intro _
  apply ensures_ahead.bind
  intro u
  apply Ensures.assume
  rintro q _ ⟨⟨_, hnext⟩, hu⟩
  obtain rfl : u = t.next := hu.symm.trans hnext
  split
  · exact ensures_grown_subscript hg hn
  split
  · apply Keeps.bind passes_passAnglesIfAny
    intro _ _
    refine ensures_grown_call hg hn hstart (hcalled ?_)
    rw [makesCall, startsArguments.eq_def t.next]
    grind
  · exact (ensures_member hn).pre fun _ h => h.1.1

/-- What follows type arguments. -/
theorem ensures_instantiated {i : Nat} {n : Node} (hn : Faithful cs n)
    (hstart : n.span.start = i) (hcalled : CalledAt cs n.span.stop) :
    Ensures cs Always (do
      let u ← ahead
      if u.is "(" || u.kind = .backquote then return some (← call g i n)
      else return some (← close .other .plain i [n]))
      fun o p => Reaches cs i (o.getD n) p := by
  apply Keeps.bind ensures_ahead.passes
  intro u _
  split
  · exact ensures_grown_call hg hn hstart hcalled
  · exact ensures_grown (ensures_close_plain rfl (by simpa using hn))

/-- The token behind a node decides how it goes on, and whether it is called. -/
theorem ensures_suffix (calls : Bool) (i : Nat) (n : Node) :
    Ensures cs (Reaches cs i n) (suffix g calls i n) fun o p => Reaches cs i (o.getD n) p := by
  apply ensures_ahead.bind
  intro t
  apply Ensures.assume
  rintro p hp ⟨⟨hn, hspan⟩, ht⟩
  have hstart : n.span.start = i := by rw [hspan]
  have hcalled (hcall : t.makesCall = true) : CalledAt cs n.span.stop := by
    rw [CalledAt, hspan, ← hp.ahead_scan, ht, hcall]
  have hungrown : Ensures cs (fun p => Reaches cs i n p ∧ p.ahead = t) (pure none)
      fun o p => Reaches cs i (o.getD n) p :=
    (ensures_ungrown i n).pre fun _ h => h.1
  split
  · -- a point
    rename_i his
    apply ((ensures_take_apart t his rfl).pre fun _ h => h.2).bind
    intro _
    exact ensures_member hn
  split
  · -- a question mark with a point
    rename_i his
    split
    · exact hungrown
    · exact (ensures_chained hg his hn hstart hcalled).pre fun _ h => h.2
  split
  · exact ensures_grown_subscript hg hn
  split
  · -- arguments
    split
    · refine ensures_grown_call hg hn hstart (hcalled ?_)
      rw [makesCall, startsArguments]
      grind
    · exact hungrown
  split
  · -- a template, which calls what stands before it
    refine ensures_grown_call hg hn hstart (hcalled ?_)
    rw [makesCall, startsArguments]
    grind
  split
  · -- an exclamation mark
    apply Keeps.bind passes_take.discard
    intro _ _
    apply ensures_grown
    exact ensures_close_wrapper rfl (by simpa using hn) (by simpa using .inl hstart)
  split
  · -- type arguments, or a comparison, which is left to the operators
    apply (Ensures.attempt passes_typeArguments.weaken).bind
    intro o
    cases o with
    | none => exact hungrown
    | some _ =>
      refine ensures_instantiated hg hn hstart (hcalled ?_)
      rw [makesCall, startsArguments]
      grind
  · exact hungrown

theorem spans_construction (limits : Limits) (n : Nat) : Spans cs (construction g limits n) := by
  induction n with
  | zero => exact fun _ => ensures_failure
  | succ n ih =>
    apply spans_of_start
    intro i
    apply Keeps.bind (passes_expect _)
    intro _ _
    apply Keeps.bind (passes_accept _)
    intro b _
    split
    · apply Keeps.bind passes_take.discard
      intro _ _
      exact ensures_close_plain rfl allFaithful_nil
    · apply ensures_start.bind
      intro j
      apply Ensures.bind (Q := fun _ p => p.ahead.span.start = j)
        ((ensures_sees _).pre fun _ h => h.2)
      intro b
      apply Ensures.either (ih j) (spans_primary hg limits j)
      intro first
      apply (ensures_grow (ensures_suffix hg false j) first).bind
      intro class'
      apply Ensures.assume
      rintro p _ ⟨hclass, -⟩
      apply Keeps.bind (ensures_sees _).passes
      intro b _
      apply Passes.whenever (Keeps.attempt passes_typeArguments).discard
      apply Keeps.bind (ensures_sees _).passes
      intro b _
      have hclose : ∀ given, AllFaithful cs given → Ensures cs Always
          (close .other .plain i (class' :: given)) (Reaches cs i) :=
        fun given hgiven => ensures_close_plain rfl (by simp [hclass, hgiven])
      split
      · apply Keeps.bind (keeps_arguments hg)
        intro given hgiven
        exact hclose [given] (by simpa using hgiven.1)
      · exact hclose [] allFaithful_nil

theorem spans_operand (limits : Limits) : Spans cs (operand g limits) := by
  apply spans_of_start
  intro i
  apply (ensures_sees _).bind
  intro b
  have hgrow (first : Node) : Ensures cs (Reaches cs i first)
      (grow (suffix g true i) first) (Reaches cs i) :=
    ensures_grow (ensures_suffix hg true i) first
  split
  · apply ensures_limit.bind
    intro n
    exact (spans_construction hg limits n i).bind hgrow
  · exact (spans_primary hg limits i).bind hgrow

/-! ## Operators -/

theorem spans_unary (limits : Limits) : Spans cs (unary g limits) := by
  apply spans_of_start
  intro i
  apply ensures_ahead.bind
  intro t
  split
  · apply Keeps.bind passes_take.discard
    intro _ _
    apply Keeps.bind (hg.keeps _)
    intro n hn
    exact ensures_close_plain rfl (by simpa using hn)
  split
  · rename_i his
    apply ((ensures_take_apart t his rfl).pre fun _ h => h.2).bind
    intro _
    apply (hg.unary limits).apart.bind
    intro n
    apply Ensures.assume
    rintro p _ ⟨hn, hapart⟩
    exact ensures_close_wrapper rfl (by simpa using hn) (by simpa using .inr hapart)
  · apply ((spans_operand hg limits i).pre fun _ h => h.1).bind
    intro n
    apply Ensures.assume
    intro p _ hn
    apply ensures_ahead.bind
    intro u
    split
    · apply Keeps.bind passes_take.discard
      intro _ _
      exact ensures_close_plain rfl (by simpa using hn.1)
    · exact ensures_pure fun _ hp => hp.1

theorem ensures_operation (limits : Limits) {right : Reader Node}
    (hright : Keeps cs right (Faithful cs)) (level i : Nat) (n : Node) :
    Ensures cs (Reaches cs i n) (operation g limits right level i n)
      fun o p => Reaches cs i (o.getD n) p := by
  apply ensures_ahead.bind
  intro t
  apply Ensures.assume
  rintro p _ ⟨⟨hn, hspan⟩, -⟩
  have hstart : n.span.start = i := by rw [hspan]
  split
  · exact (ensures_ungrown i n).pre fun _ h => h.1
  -- a cast is a wrapper, so the type behind it must stand apart; other operators ask nothing
  by_cases hcast : t.is "as" || t.is "satisfies"
  · have htake : Ensures cs (fun p => p.ahead = t) (discard take) fun _ p =>
        Apart cs p.position := by
      rcases Bool.or_eq_true_iff.mp hcast with his | his
      · exact ensures_take_apart t his rfl
      · exact ensures_take_apart t his rfl
    have hwrapper : Tree.isWrapper (if t.is "as" then Kind.asCast else .satisfies) = true := by
      split <;> rfl
    rw [if_pos hcast]
    apply (htake.pre fun _ h => h.2).bind
    intro _
    apply (ensures_accept _).bind
    intro b
    split
    · apply ensures_grown
      exact ensures_close_wrapper hwrapper (by simpa using hn) (by simpa using .inl hstart)
    · rename_i hb
      apply (hg.type.apart.pre fun _ h => h (by simpa using hb)).bind
      intro m
      apply Ensures.assume
      rintro q _ ⟨hm, hapart⟩
      apply ensures_grown
      refine ensures_close_wrapper hwrapper (by simp [hn, hm]) ?_
      rw [List.forall_mem_cons, List.forall_mem_singleton]
      exact ⟨.inl hstart, .inr hapart⟩
  · rw [if_neg hcast]
    apply Keeps.bind passes_take.discard
    intro _ _
    apply Keeps.bind hright
    intro m hm
    exact ensures_grown (ensures_close_plain rfl (by simp [hn, hm]))

theorem spans_binary (limits : Limits) (n : Nat) : Spans cs (binary g limits n) := by
  induction n with
  | zero => exact hg.unary limits
  | succ n ih =>
    apply spans_of_start
    intro i
    apply (ih i).bind
    intro first
    exact ensures_grow (ensures_operation hg limits ih.keeps _ i) first

theorem spans_yielded (limits : Limits) : Spans cs (yielded g limits) := by
  apply spans_of_start
  intro i
  apply Keeps.bind (passes_expect _)
  intro _ _
  apply Keeps.bind (passes_accept _)
  intro b _
  have hsome : Ensures cs Always (do close .other .plain i [← g (.assignment limits)])
      (Reaches cs i) := by
    apply Keeps.bind (hg.keeps _)
    intro n hn
    exact ensures_close_plain rfl (by simpa using hn)
  apply Keeps.bind ensures_ahead.passes
  intro t _
  split
  · exact hsome
  · exact ensures_close_plain rfl allFaithful_nil

theorem keeps_consequence (noArrowType : Bool) :
    Keeps cs (consequence g noArrowType) (Faithful cs) := by
  apply Keeps.bind (hg.keeps _)
  intro n hn
  apply Keeps.bind (passes_expect _)
  intro _ _
  exact keeps_pure hn

theorem spans_assignment (limits : Limits) : Spans cs (assignment g limits) := by
  intro i
  apply (ensures_sees _).bind
  intro b
  split
  · exact spans_yielded hg limits i
  apply ensures_start.bind
  intro j
  apply Ensures.assume
  rintro p _ ⟨hi, hj⟩
  obtain rfl : j = i := hj.symm.trans hi
  apply ((spans_binary hg limits 12 j).pre fun _ h => h.2).bind
  intro left
  apply Ensures.assume
  intro q _ hleft
  apply ensures_ahead.bind
  intro t
  split
  · rename_i his
    apply ((ensures_take_apart t his rfl).pre fun _ h => h.2).bind
    intro _
    apply (hg.assignment limits).apart.bind
    intro right
    apply Ensures.assume
    rintro r _ ⟨hright, hapart⟩
    refine ensures_close_fits nofun (by simp [faithful_asPattern hleft.1, hright]) fun _ _ _ => ?_
    rw [List.forall_mem_cons, List.forall_mem_singleton]
    refine ⟨fun hlabel => ?_, fun _ => by simpa using hapart⟩
    rw [label_as] at hlabel
    cases hlabel
  split
  · apply Keeps.bind passes_take.discard
    intro _ _
    apply Keeps.bind (hg.keeps _)
    intro right hright
    exact ensures_close_plain rfl (by simp [hleft.1, hright])
  split
  · apply Keeps.bind passes_take.discard
    intro _ _
    apply Keeps.bind ((keeps_consequence hg false).orElse (keeps_consequence hg true))
    intro middle hmiddle
    apply Keeps.bind (hg.keeps _)
    intro right hright
    exact ensures_close_plain rfl (by simp [hleft.1, hmiddle, hright])
  · exact ensures_pure fun _ hp => hp.1

/-- A comma and an expression, or nothing and the reading stands where it did. -/
theorem keeps_afterComma (limits : Limits) :
    Keeps cs (do if ← accept "," then return some (← g (.assignment limits)) else return none)
      fun o => ∀ n ∈ o, Faithful cs n := by
  apply Keeps.bind (passes_accept _)
  intro b _
  split
  · apply Keeps.bind (hg.keeps _)
    intro n hn
    exact keeps_pure (by simpa using hn)
  · exact keeps_pure nofun

theorem ensures_afterComma (limits : Limits) {P : Progress → Prop} :
    Ensures cs P
      (do if ← accept "," then return some (← g (.assignment limits)) else return none)
      fun o p => o = none → P p := by
  apply (ensures_accept _).bind
  intro b
  split
  · apply Keeps.bind (hg.keeps _)
    intro n _
    exact ensures_pure nofun
  · rename_i hb
    exact ensures_pure fun _ hP _ => hP (by simpa using hb)

theorem spans_expression (limits : Limits) : Spans cs (expression g limits) := by
  apply spans_of_start
  intro i
  apply (hg.assignment limits i).bind
  intro first
  apply Ensures.assume
  intro p _ hfirst
  have hmore := keeps_collect (keeps_afterComma hg limits)
  have hstays := ensures_collect_nil (keeps_afterComma hg limits).passes
    (ensures_afterComma hg limits (P := Reaches cs i first))
  apply (hmore.weaken.and hstays).bind
  intro more
  apply Ensures.assume
  rintro q _ ⟨hmore, -⟩
  split
  · -- without a comma the reading stands where the only expression ends
    rename_i hnil
    exact ensures_pure fun _ hr => hr.2 (List.isEmpty_iff.mp hnil)
  · exact ensures_close_plain rfl (allFaithful_cons.mpr ⟨hfirst.1, hmore⟩)

end RouteAtlas.Syntax.Expression
