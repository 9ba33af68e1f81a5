import RouteAtlas.Proofs.Syntax.Expressions
import RouteAtlas.Syntax.Statement

/-!
# Statements are read faithfully

Of all statements only a declaration asks something of its parts: the value of a binding stands
apart, as it follows the sign that gives it.
-/

set_option autoImplicit false

namespace RouteAtlas.Syntax.Statement

open Token Reader Binding Definition

variable {cs : List Char} {g : Grammar}

/-- A statement that is closed and then ended. -/
theorem keeps_ended {P : Progress → Prop} {r : Reader Unit} {n : Node} (hr : Passes cs r)
    (hn : Faithful cs n) : Ensures cs P (r >>= fun _ => pure n) fun m _ => Faithful cs m :=
  Keeps.bind hr fun _ _ => keeps_pure hn

/-! ## Bindings -/

section

variable (hg : Reads cs g)

include hg

theorem keeps_declarator (limits : Limits) : Keeps cs (declarator g limits) (Faithful cs) := by
  apply Keeps.bind ensures_start.passes
  intro i _
  apply Keeps.bind (hg.keeps .binding)
  intro target htarget
  apply Keeps.bind (passes_accept _).discard
  intro _ _
  apply Keeps.bind (passes_optionalType hg)
  intro _ _
  have hclose (o : Option Node) (ho : ∀ n ∈ o, Faithful cs n ∧ Apart cs n.span.start) :
      Ensures cs Always
        (close .declarator .plain i (target.as .name :: (o.map (Node.as .value)).toList))
        fun n _ => Faithful cs n := by
    apply Ensures.faithful (i := i)
    refine ensures_close_fits (by decide) ?_ fun p _ _ c hc hlabel => ?_
    · simpa [htarget] using fun n hn => (ho n hn).1
    · rcases List.mem_cons.mp hc with rfl | hc
      · rw [label_as] at hlabel
        cases hlabel
      · obtain ⟨n, hn, rfl⟩ := Option.map_eq_some_iff.mp (Option.mem_toList.mp hc)
        rw [span_as]
        exact (ho n hn).2
  apply (ensures_accept_apart rfl).bind
  intro b
  split
  · rename_i hb
    have hvalue := (hg.assignment limits).apart.map (f := some)
      (R := fun o _ => ∀ n ∈ o, Faithful cs n ∧ Apart cs n.span.start)
      fun n _ hn => by simpa using hn
    apply (hvalue.pre fun _ h => h hb).bind
    intro o
    apply Ensures.assume
    intro _ _ ho
    exact (hclose o ho).weaken
  · exact (hclose none nofun).weaken

theorem keeps_declarators (limits : Limits) :
    Keeps cs (declarators g limits) (AllFaithful cs) := by
  apply Keeps.bind (keeps_declarator hg limits)
  intro first hfirst
  apply Keeps.bind (Q := AllFaithful cs)
  · apply keeps_collect
    apply Keeps.bind (passes_accept _)
    intro b _
    split
    · apply Keeps.bind (keeps_declarator hg limits)
      intro n hn
      exact keeps_pure (by simpa using hn)
    · exact keeps_pure nofun
  · intro more hmore
    exact keeps_pure (allFaithful_cons.mpr ⟨hfirst, hmore⟩)

theorem keeps_bindings {k : Kind} (hk : isPlain k = true) :
    Keeps cs (bindings g k) (Faithful cs) := by
  apply Keeps.bind ensures_start.passes
  intro i _
  apply Keeps.bind passes_take.discard
  intro _ _
  apply Keeps.bind (keeps_declarators hg .none)
  intro ns hns
  apply Keeps.bind (keeps_close hk hns)
  intro n hn
  exact keeps_ended passes_semicolon hn

/-! ## Types and namespaces -/

theorem keeps_typeAlias : Keeps cs (typeAlias g) (Faithful cs) := by
  apply Keeps.bind ensures_start.passes
  intro i _
  apply Keeps.bind passes_take.discard
  intro _ _
  apply Keeps.bind passes_take.discard
  intro _ _
  apply Keeps.bind passes_passAnglesIfAny
  intro _ _
  apply Keeps.bind (passes_expect _)
  intro _ _
  apply Keeps.bind (passes_type hg)
  intro _ _
  apply Keeps.bind (keeps_close rfl allFaithful_nil)
  intro n hn
  exact keeps_ended passes_semicolon hn

theorem keeps_interface : Keeps cs (interface g) (Faithful cs) := by
  apply Keeps.bind ensures_start.passes
  intro i _
  apply Keeps.bind passes_take.discard
  intro _ _
  apply Keeps.bind passes_take.discard
  intro _ _
  apply Keeps.bind passes_passAnglesIfAny
  intro _ _
  apply Keeps.bind (passes_accept _)
  intro b _
  apply Passes.whenever (passes_types hg)
  apply Keeps.bind passes_passBrackets
  intro _ _
  exact keeps_close rfl allFaithful_nil

theorem keeps_enumeration : Keeps cs (enumeration g) (Faithful cs) := by
  apply Keeps.bind ensures_start.passes
  intro i _
  apply Keeps.bind (passes_accept _).discard
  intro _ _
  apply Keeps.bind (passes_expect _)
  intro _ _
  apply Keeps.bind passes_take.discard
  intro _ _
  apply Keeps.bind (passes_expect _)
  intro _ _
  apply Keeps.bind (Q := AllFaithful cs)
  · apply keeps_listUpTo
    apply Keeps.bind (keeps_propertyName hg)
    intro key hkey
    apply Keeps.bind (keeps_defaultValue hg)
    intro value hvalue
    exact keeps_pure (by simpa [hkey] using hvalue)
  · intro ns hns
    exact keeps_close rfl hns

theorem keeps_namespace : Keeps cs (namespace' g) (Faithful cs) := by
  apply Keeps.bind ensures_start.passes
  intro i _
  apply Keeps.bind passes_take.discard
  intro _ _
  apply Keeps.bind passes_take.discard
  intro _ _
  apply Keeps.bind ensures_limit.passes
  intro k _
  apply Keeps.bind (passes_passQualifiers k)
  intro _ _
  apply Keeps.bind (ensures_sees _).passes
  intro b _
  split
  · apply Keeps.bind (hg.keeps .block)
    intro body hbody
    exact keeps_close rfl (by simpa using hbody)
  · apply Keeps.bind passes_semicolon
    intro _ _
    exact keeps_close rfl allFaithful_nil

/-! ## Imports -/

omit hg in
theorem keeps_origin : Keeps cs origin (Faithful cs) :=
  Keeps.bind (passes_expect _) fun _ _ => keeps_leafOf (by decide) _

theorem keeps_importAttributes : Keeps cs (importAttributes g) (AllFaithful cs) := by
  apply Keeps.bind ensures_ahead.passes
  intro t _
  split
  · apply Keeps.bind passes_take.discard
    intro _ _
    apply Keeps.bind (hg.keeps .operand)
    intro n hn
    exact keeps_pure (by simpa using hn)
  · exact keeps_pure allFaithful_nil

omit hg in
theorem keeps_exportedName (l : Label) : Keeps cs (exportedName l) (Faithful cs) := by
  apply ensures_ahead.bind
  intro t
  split
  · rename_i hword
    exact (keeps_word _ _).pre fun p hp => by rw [hp.2, hword]
  · exact (keeps_leaf (by decide) _).weaken
  · exact ensures_failure

omit hg in
theorem keeps_specifier {k : Kind} (hk : isPlain k = true) :
    Keeps cs (specifier k) (Faithful cs) := by
  apply Keeps.bind ensures_start.passes
  intro i _
  apply Keeps.bind ensures_ahead.passes
  intro t _
  apply Passes.whenever passes_take.discard
  apply Keeps.bind (keeps_exportedName _)
  intro called hcalled
  apply Keeps.bind (passes_accept _)
  intro b _
  split
  · apply Keeps.bind (keeps_exportedName _)
    intro renamed hrenamed
    exact keeps_close hk (by simp [hcalled, hrenamed])
  · exact keeps_close hk (by simpa using hcalled)

omit hg in
theorem keeps_namedList {k item : Kind} (hk : isPlain k = true) (hitem : isPlain item = true) :
    Keeps cs (namedList k item) (Faithful cs) := by
  apply Keeps.bind ensures_start.passes
  intro i _
  apply Keeps.bind (passes_expect _)
  intro _ _
  apply Keeps.bind (Q := AllFaithful cs)
  · apply keeps_listUpTo
    apply Keeps.bind (keeps_specifier hitem)
    intro n hn
    exact keeps_pure (by simpa using hn)
  · intro ns hns
    exact keeps_close hk hns

omit hg in
theorem keeps_namespaceImport : Keeps cs namespaceImport (Faithful cs) := by
  apply Keeps.bind ensures_start.passes
  intro i _
  apply Keeps.bind (passes_expect _)
  intro _ _
  apply Keeps.bind (passes_expect _)
  intro _ _
  apply Keeps.bind (keeps_leafOf (by decide) _)
  intro n hn
  exact keeps_close rfl (by simpa using hn)

omit hg in
theorem keeps_importedNames : Keeps cs importedNames (Faithful cs) := by
  apply Keeps.bind (ensures_sees _).passes
  intro b _
  split
  · exact keeps_namespaceImport
  · exact keeps_namedList rfl rfl

omit hg in
theorem keeps_importClause : Keeps cs importClause (Faithful cs) := by
  apply Keeps.bind ensures_start.passes
  intro i _
  apply Keeps.bind (ensures_seesOneOf _).passes
  intro b _
  split
  · apply Keeps.bind keeps_importedNames
    intro n hn
    exact keeps_close rfl (by simpa using hn)
  · apply Keeps.bind (keeps_leafOf (by decide) _)
    intro first hfirst
    apply Keeps.bind (passes_accept _)
    intro b _
    split
    · apply Keeps.bind keeps_importedNames
      intro n hn
      exact keeps_close rfl (by simp [hfirst, hn])
    · exact keeps_close rfl (by simpa using hfirst)

omit hg in
theorem keeps_importRequire : Keeps cs importRequire (Faithful cs) := by
  apply Keeps.bind ensures_start.passes
  intro i _
  apply Keeps.bind (keeps_leafOf (by decide) _)
  intro called hcalled
  apply Keeps.bind (passes_expect _)
  intro _ _
  apply Keeps.bind (passes_expect _)
  intro _ _
  apply Keeps.bind (passes_expect _)
  intro _ _
  apply Keeps.bind (keeps_leafOf (by decide) _)
  intro source hsource
  apply Keeps.bind (passes_expect _)
  intro _ _
  exact keeps_close rfl (by simp [hcalled, hsource])

theorem keeps_importStatement : Keeps cs (importStatement g) (Faithful cs) := by
  apply Keeps.bind ensures_start.passes
  intro i _
  apply Keeps.bind (passes_expect _)
  intro _ _
  apply Keeps.bind ensures_ahead.passes
  intro t _
  apply Passes.whenever passes_take.discard
  apply Keeps.bind ensures_ahead.passes
  intro u _
  have hnext (parts : List Node) (hparts : AllFaithful cs parts) : Ensures cs Always (do
      let attributes ← importAttributes g
      let n ← close .importStatement .plain i (parts ++ attributes)
      semicolon
      return n) fun n _ => Faithful cs n := by
    apply Keeps.bind (keeps_importAttributes hg)
    intro attributes hattributes
    apply Keeps.bind (keeps_close rfl (by simp [hparts, hattributes]))
    intro n hn
    exact keeps_ended passes_semicolon hn
  split
  · apply Keeps.bind (keeps_leaf (by decide) _)
    intro n hn
    exact hnext [n] (by simpa using hn)
  apply Keeps.bind keeps_importRequire.attempt
  intro o ho
  split
  · exact hnext _ (by simpa using ho _ rfl)
  apply Keeps.bind ensures_second.passes
  intro v _
  split
  · apply Keeps.bind passes_take.discard
    intro _ _
    apply Keeps.bind passes_take.discard
    intro _ _
    apply Keeps.bind (hg.keeps .operand)
    intro n hn
    exact hnext [n] (by simpa using hn)
  · apply Keeps.bind keeps_importClause
    intro clause hclause
    apply Keeps.bind keeps_origin
    intro source hsource
    exact hnext [clause, source] (by simp [hclause, hsource])

/-! ## Exports -/

theorem keeps_defaultExport : Keeps cs (defaultExport g) (AllFaithful cs) := by
  apply Keeps.bind ensures_ahead.passes
  intro t _
  apply Ensures.ite
  · apply Keeps.bind (hg.keeps .statement)
    intro n hn
    exact keeps_pure (by simpa using hn)
  · apply Keeps.bind (hg.keeps _)
    intro n hn
    exact keeps_pure (by simpa using hn)

/-- The end of an export of everything in a module. -/
theorem keeps_exportedAll (i : Nat) {renamed : List Node} (hrenamed : AllFaithful cs renamed) :
    Keeps cs (do
      let source ← origin
      let attributes ← importAttributes g
      let n ← close .exportStatement .plain i (renamed ++ source :: attributes)
      semicolon
      return n) (Faithful cs) := by
  apply Keeps.bind keeps_origin
  intro source hsource
  apply Keeps.bind (keeps_importAttributes hg)
  intro attributes hattributes
  apply Keeps.bind (keeps_close rfl (by simp [hrenamed, hsource, hattributes]))
  intro n hn
  exact keeps_ended passes_semicolon hn

/-- The end of an export of a list of names. -/
theorem keeps_exportedNames (i : Nat) {clause : Node} (hclause : Faithful cs clause)
    {source : Option Node} (hsource : ∀ n ∈ source, Faithful cs n) :
    Keeps cs (do
      let attributes ← if source.isSome then importAttributes g else pure []
      let n ← close .exportStatement .plain i (clause :: source.toList ++ attributes)
      semicolon
      return n) (Faithful cs) := by
  apply Keeps.either (keeps_importAttributes hg) (keeps_pure allFaithful_nil)
  intro attributes hattributes
  have hall : AllFaithful cs (clause :: source.toList ++ attributes) := by
    simpa [hclause, hattributes] using hsource
  apply Keeps.bind (keeps_close rfl hall)
  intro n hn
  exact keeps_ended passes_semicolon hn

theorem keeps_exportStatement (i : Nat) {before : List Node} (hbefore : AllFaithful cs before) :
    Keeps cs (exportStatement g i before) (Faithful cs) := by
  apply Keeps.bind (passes_expect _)
  intro _ _
  apply Keeps.bind ensures_ahead.passes
  intro t _
  split
  · -- a default
    apply Keeps.bind passes_take.discard
    intro _ _
    apply Keeps.bind (keeps_defaultExport hg)
    intro parts hparts
    apply Keeps.bind (keeps_close rfl (by simp [hbefore, hparts]))
    intro n hn
    exact keeps_ended (passes_accept _).discard hn
  split
  · -- a value for the whole module
    apply Keeps.bind (keeps_leaf (by decide) _)
    intro mark hmark
    apply Keeps.bind (hg.keeps _)
    intro value hvalue
    apply Keeps.bind (keeps_close rfl (by simp [hbefore, hmark, hvalue]))
    intro n hn
    exact keeps_ended passes_semicolon hn
  split
  · -- all of another module
    apply Keeps.bind passes_take.discard
    intro _ _
    apply Keeps.bind (passes_accept _)
    intro b _
    split
    · apply Keeps.bind (keeps_exportedName _)
      intro n hn
      exact keeps_exportedAll hg i (by simpa using hn)
    · exact keeps_exportedAll hg i allFaithful_nil
  split
  · -- a list of names
    apply Keeps.bind (passes_accept _).discard
    intro _ _
    apply Keeps.bind (keeps_namedList rfl rfl)
    intro clause hclause
    apply Keeps.bind (ensures_sees _).passes
    intro b _
    split
    · apply Keeps.bind keeps_origin
      intro source hsource
      have hsome : ∀ n ∈ some source, Faithful cs n := by simpa using hsource
      exact keeps_exportedNames hg i hclause hsome
    · have hnone : ∀ n ∈ (none : Option Node), Faithful cs n := nofun
      exact keeps_exportedNames hg i hclause hnone
  split
  · -- the name of a namespace
    apply Keeps.bind passes_take.discard
    intro _ _
    apply Keeps.bind passes_take.discard
    intro _ _
    apply Keeps.bind (keeps_leafOf (by decide) _)
    intro called hcalled
    apply Keeps.bind (keeps_close rfl (by simpa using hcalled))
    intro n hn
    exact keeps_ended passes_semicolon hn
  split
  · -- a declaration
    apply Keeps.bind (hg.keeps .statement)
    intro d hd
    exact keeps_close rfl (by simp [hbefore, hd])
  · exact ensures_failure

/-! ## Control flow -/

theorem keeps_condition : Keeps cs (condition g) (Faithful cs) := by
  apply Spans.keeps
  apply spans_of_start
  intro i
  apply (ensures_expect_apart rfl).bind
  intro _
  apply (hg.expression .none).apart.bind
  intro inner
  apply Ensures.assume
  rintro p _ ⟨hinner, hapart⟩
  apply Keeps.bind (passes_expect _)
  intro _ _
  exact ensures_close_wrapper rfl (by simpa using hinner) (by simpa using .inr hapart)

theorem keeps_ifStatement : Keeps cs (ifStatement g) (Faithful cs) := by
  apply Keeps.bind ensures_start.passes
  intro i _
  apply Keeps.bind (passes_expect _)
  intro _ _
  apply Keeps.bind (keeps_condition hg)
  intro c hc
  apply Keeps.bind (hg.keeps .statement)
  intro yes hyes
  apply Keeps.bind (passes_accept _)
  intro b _
  split
  · apply Keeps.bind (hg.keeps .statement)
    intro no hno
    exact keeps_close rfl (by simp [hc, hyes, hno])
  · exact keeps_close rfl (by simp [hc, hyes])

theorem keeps_doStatement : Keeps cs (doStatement g) (Faithful cs) := by
  apply Keeps.bind ensures_start.passes
  intro i _
  apply Keeps.bind (passes_expect _)
  intro _ _
  apply Keeps.bind (hg.keeps .statement)
  intro body hbody
  apply Keeps.bind (passes_expect _)
  intro _ _
  apply Keeps.bind (keeps_condition hg)
  intro c hc
  apply Keeps.bind (passes_accept _).discard
  intro _ _
  exact keeps_close rfl (by simp [hbody, hc])

theorem keeps_headedStatement : Keeps cs (headedStatement g) (Faithful cs) := by
  apply Keeps.bind ensures_start.passes
  intro i _
  apply Keeps.bind passes_take.discard
  intro _ _
  apply Keeps.bind (keeps_condition hg)
  intro c hc
  apply Keeps.bind (hg.keeps .statement)
  intro body hbody
  exact keeps_close rfl (by simp [hc, hbody])

theorem keeps_loopOver : Keeps cs (loopOver g) fun o => ∀ n ∈ o, Faithful cs n := by
  apply Keeps.bind (ensures_seesOneOf _).passes
  intro b _
  split
  · apply Keeps.bind passes_take.discard
    intro _ _
    apply Keeps.bind (hg.keeps _)
    intro n hn
    exact keeps_pure (by simpa using hn)
  · exact keeps_pure nofun

/-- The head of a loop over the parts of a value. -/
theorem keeps_loopHead : Keeps cs (do
    discard take
    let target ← g .binding
    Annotation.annotation g
    let some value ← loopOver g | failure
    return [target, value]) (AllFaithful cs) := by
  apply Keeps.bind passes_take.discard
  intro _ _
  apply Keeps.bind (hg.keeps .binding)
  intro target htarget
  apply Keeps.bind (passes_optionalType hg)
  intro _ _
  apply Keeps.bind (keeps_loopOver hg)
  intro o ho
  split
  · exact keeps_pure (by simpa [htarget] using ho)
  · exact ensures_failure

theorem keeps_loopStart : Keeps cs (loopStart g) fun x => AllFaithful cs x.1 := by
  apply Keeps.bind ensures_start.passes
  intro i _
  apply Keeps.bind ensures_ahead.passes
  intro t _
  split
  · exact keeps_pure allFaithful_nil
  split
  · apply Keeps.bind (Keeps.attempt (keeps_loopHead hg))
    intro o ho
    split
    · exact keeps_pure (ho _ rfl)
    · apply Keeps.bind passes_take.discard
      intro _ _
      apply Keeps.bind (keeps_declarators hg _)
      intro ns hns
      have hk : isPlain (if t.is "var" then Kind.variableDeclaration else .lexicalDeclaration) =
          true := by
        split <;> rfl
      apply Keeps.bind (keeps_close hk hns)
      intro n hn
      exact keeps_pure (by simpa using hn)
  · apply Keeps.bind (hg.keeps _)
    intro first hfirst
    apply Keeps.bind (keeps_loopOver hg)
    intro o ho
    split
    · exact keeps_pure (by simpa [faithful_asPattern hfirst] using ho)
    · exact keeps_pure (by simpa using hfirst)

theorem keeps_optionalUpTo (mark : String) : Keeps cs (optionalUpTo g mark) (AllFaithful cs) := by
  apply Keeps.bind (passes_accept _)
  intro b _
  split
  · exact keeps_pure allFaithful_nil
  · apply Keeps.bind (hg.keeps _)
    intro n hn
    apply Keeps.bind (passes_expect _)
    intro _ _
    exact keeps_pure (by simpa using hn)

theorem keeps_forStatement : Keeps cs (forStatement g) (Faithful cs) := by
  apply Keeps.bind ensures_start.passes
  intro i _
  apply Keeps.bind (passes_expect _)
  intro _ _
  apply Keeps.bind (passes_accept _).discard
  intro _ _
  apply Keeps.bind (passes_expect _)
  intro _ _
  apply Keeps.bind (keeps_loopStart hg)
  rintro ⟨head, isOver⟩ hhead
  have hnext (rest : List Node) (hrest : AllFaithful cs rest) : Ensures cs Always
      (do close .other .plain i (head ++ rest ++ [← g .statement])) fun n _ => Faithful cs n := by
    apply Keeps.bind (hg.keeps .statement)
    intro body hbody
    exact keeps_close rfl (by simpa [hrest, hbody] using hhead)
  apply Ensures.ite
  · apply Keeps.bind (passes_expect _)
    intro _ _
    exact hnext [] allFaithful_nil
  · apply Keeps.bind (passes_expect _)
    intro _ _
    apply Keeps.bind (keeps_optionalUpTo hg _)
    intro test htest
    apply Keeps.bind (keeps_optionalUpTo hg _)
    intro update hupdate
    exact hnext (test ++ update) (by simp [htest, hupdate])

theorem keeps_switchStatement : Keeps cs (switchStatement g) (Faithful cs) := by
  apply Keeps.bind ensures_start.passes
  intro i _
  apply Keeps.bind (passes_expect _)
  intro _ _
  apply Keeps.bind (keeps_condition hg)
  intro c hc
  apply Keeps.bind (passes_expect _)
  intro _ _
  apply Keeps.bind (Q := AllFaithful cs)
  · apply keeps_collect
    apply Keeps.bind (passes_accept _)
    intro b _
    split
    · exact keeps_pure nofun
    apply Keeps.bind (passes_accept _)
    intro b _
    split
    · apply Keeps.bind (hg.keeps _)
      intro test htest
      apply Keeps.bind (passes_expect _)
      intro _ _
      exact keeps_pure (by simpa using htest)
    apply Keeps.bind (ensures_sees _).passes
    intro b _
    apply Keeps.bind ensures_second.passes
    intro u _
    split
    · apply Keeps.bind passes_take.discard
      intro _ _
      apply Keeps.bind passes_take.discard
      intro _ _
      apply Keeps.bind ensures_position.passes
      intro j _
      apply Keeps.bind ensures_position.passes
      intro k _
      have hmark : Faithful cs (.mk .other .plain "" ⟨j, k⟩ []) :=
        faithful_of_isPlain rfl allFaithful_nil
      exact keeps_pure (by simpa using hmark)
    · apply Keeps.bind (hg.keeps .statement)
      intro n hn
      exact keeps_pure (by simpa using hn)
  · intro ns hns
    exact keeps_close rfl (allFaithful_cons.mpr ⟨hc, hns⟩)

theorem keeps_tryStatement : Keeps cs (tryStatement g) (Faithful cs) := by
  apply Keeps.bind ensures_start.passes
  intro i _
  apply Keeps.bind (passes_expect _)
  intro _ _
  apply Keeps.bind (hg.keeps .block)
  intro body hbody
  apply Keeps.bind (passes_accept _)
  intro b _
  have hlast (handler : List Node) (hhandler : AllFaithful cs handler) : Ensures cs Always (do
      let last ← if ← accept "finally" then pure [← g .block] else pure []
      close .other .plain i (body :: handler ++ last)) fun n _ => Faithful cs n := by
    apply Keeps.bind (passes_accept _)
    intro b _
    split
    · apply Keeps.bind (hg.keeps .block)
      intro last hlast
      exact keeps_close rfl (by simp [hbody, hhandler, hlast])
    · exact keeps_close rfl (by simp [hbody, hhandler])
  split
  · have hhandler (ps : List Node) (hps : AllFaithful cs ps) : Ensures cs Always (do
        let handler ← pure (ps ++ [← g .block])
        let last ← if ← accept "finally" then pure [← g .block] else pure []
        close .other .plain i (body :: handler ++ last)) fun n _ => Faithful cs n := by
      apply Keeps.bind (hg.keeps .block)
      intro handler hhandler
      exact hlast (ps ++ [handler]) (by simp [hps, hhandler])
    apply Keeps.bind (passes_accept _)
    intro b _
    split
    · apply Keeps.bind (hg.keeps .binding)
      intro p hp
      apply Keeps.bind (passes_optionalType hg)
      intro _ _
      apply Keeps.bind (passes_expect _)
      intro _ _
      exact hhandler [p] (by simpa using hp)
    · exact hhandler [] allFaithful_nil
  · exact hlast [] allFaithful_nil

theorem keeps_returnStatement : Keeps cs (returnStatement g) (Faithful cs) := by
  apply Keeps.bind ensures_start.passes
  intro i _
  apply Keeps.bind (passes_expect _)
  intro _ _
  apply Keeps.bind ensures_ahead.passes
  intro t _
  split
  · apply Keeps.bind (keeps_close rfl allFaithful_nil)
    intro n hn
    exact keeps_ended (passes_accept _).discard hn
  · apply Keeps.bind (hg.keeps _)
    intro value hvalue
    apply Keeps.bind (keeps_close rfl (by simpa using hvalue))
    intro n hn
    exact keeps_ended passes_semicolon hn

theorem keeps_throwStatement : Keeps cs (throwStatement g) (Faithful cs) := by
  apply Keeps.bind ensures_start.passes
  intro i _
  apply Keeps.bind (passes_expect _)
  intro _ _
  apply Keeps.bind (hg.keeps _)
  intro value hvalue
  apply Keeps.bind (keeps_close rfl (by simpa using hvalue))
  intro n hn
  exact keeps_ended passes_semicolon hn

omit hg in
theorem keeps_jump : Keeps cs jump (Faithful cs) := by
  apply Keeps.bind ensures_start.passes
  intro i _
  apply Keeps.bind passes_take.discard
  intro _ _
  apply Keeps.bind ensures_ahead.passes
  intro t _
  apply Passes.whenever passes_take.discard
  apply Keeps.bind (keeps_close rfl allFaithful_nil)
  intro n hn
  exact keeps_ended passes_semicolon hn

theorem keeps_expressionStatement : Keeps cs (expressionStatement g) (Faithful cs) := by
  apply Keeps.bind ensures_start.passes
  intro i _
  apply Keeps.bind (hg.keeps _)
  intro inner hinner
  apply Keeps.bind passes_semicolon
  intro _ _
  exact keeps_close rfl (by simpa using hinner)

theorem keeps_block : Keeps cs (block g) (Faithful cs) := by
  apply Keeps.bind ensures_start.passes
  intro i _
  apply Keeps.bind (passes_expect _)
  intro _ _
  apply Keeps.bind (Q := AllFaithful cs)
  · apply keeps_collect
    apply Keeps.bind (passes_accept _)
    intro b _
    split
    · exact keeps_pure nofun
    · apply Keeps.bind (hg.keeps .statement)
      intro n hn
      exact keeps_pure (by simpa using hn)
  · intro ns hns
    exact keeps_close rfl hns

/-! ## All statements -/

theorem keeps_decorated : Keeps cs (decorated g) (Faithful cs) := by
  apply Keeps.bind ensures_start.passes
  intro i _
  apply Keeps.bind (keeps_decorators hg)
  intro marks hmarks
  apply Keeps.bind (ensures_sees _).passes
  intro b _
  split
  · exact keeps_exportStatement hg i hmarks
  apply Keeps.bind (passes_accept _)
  intro b _
  split
  · exact (ensures_class hg rfl i hmarks).faithful
  · exact (ensures_class hg rfl i hmarks).faithful

theorem keeps_ambient : Keeps cs (ambient g) (Faithful cs) := by
  apply Keeps.bind ensures_start.passes
  intro i _
  apply Keeps.bind passes_take.discard
  intro _ _
  apply Keeps.bind (ensures_sees _).passes
  intro b _
  apply Keeps.bind ensures_second.passes
  intro u _
  split
  · apply Keeps.bind passes_take.discard
    intro _ _
    apply Keeps.bind (hg.keeps .block)
    intro body hbody
    exact keeps_close rfl (by simpa using hbody)
  · apply Keeps.bind (hg.keeps .statement)
    intro n hn
    exact keeps_close rfl (by simpa using hn)

theorem keeps_contextual (t u : Token) : ∀ r ∈ contextual g t u, Keeps cs r (Faithful cs) := by
  intro r hr
  unfold contextual at hr
  split at hr
  · cases hr
  split at hr
  · cases hr
    exact keeps_typeAlias hg
  split at hr
  · cases hr
    exact keeps_interface hg
  split at hr
  · cases hr
    exact keeps_namespace hg
  split at hr
  · cases hr
    exact keeps_namespace hg
  split at hr
  · cases hr
    apply Keeps.bind ensures_start.passes
    intro i _
    apply Keeps.bind passes_take.discard
    intro _ _
    exact (ensures_class hg rfl i allFaithful_nil).faithful
  split at hr
  · cases hr
    exact keeps_ambient hg
  split at hr
  · cases hr
    apply Keeps.bind ensures_start.passes
    intro i _
    apply Keeps.bind passes_take.discard
    intro _ _
    exact (ensures_function hg true i).faithful
  · cases hr

theorem keeps_statement : Keeps cs (statement g) (Faithful cs) := by
  apply Keeps.bind ensures_start.passes
  intro i _
  apply Keeps.bind ensures_ahead.passes
  intro t _
  dsimp only
  split
  · split
    · exact keeps_leaf (by decide) _
    split
    · exact keeps_block hg
    split
    · exact keeps_decorated hg
    · exact keeps_expressionStatement hg
  · split
    · rename_i r hr
      exact keeps_contextual hg t t.next r hr
    split
    · exact keeps_bindings hg rfl
    split
    · apply Keeps.bind passes_take.discard
      intro _ _
      apply Keeps.bind passes_take.discard
      intro _ _
      apply Keeps.bind (hg.keeps .statement)
      intro n hn
      exact keeps_close rfl (by simpa using hn)
    split
    · exact keeps_bindings hg rfl
    · exact (keeps_enumeration hg).ite (keeps_bindings hg rfl)
    · exact keeps_enumeration hg
    · exact (ensures_function hg true i).faithful
    · exact (ensures_class hg rfl i allFaithful_nil).faithful
    · exact (keeps_expressionStatement hg).ite (keeps_importStatement hg)
    · exact keeps_exportStatement hg i allFaithful_nil
    · exact keeps_ifStatement hg
    · exact keeps_headedStatement hg
    · exact keeps_headedStatement hg
    · exact keeps_doStatement hg
    · exact keeps_forStatement hg
    · exact keeps_switchStatement hg
    · exact keeps_tryStatement hg
    · exact keeps_throwStatement hg
    · exact keeps_returnStatement hg
    · exact keeps_jump
    · exact keeps_jump
    · exact keeps_jump
    · exact keeps_expressionStatement hg
  · exact keeps_expressionStatement hg

end

end RouteAtlas.Syntax.Statement
