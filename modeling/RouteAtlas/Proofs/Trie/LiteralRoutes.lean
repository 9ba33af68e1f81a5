import RouteAtlas.Proofs.Trie.Canonical
import RouteAtlas.Proofs.Trie.Pattern

/-!
# Literal routes

A route without parameters and splats shares the trie with patterns that cover it, too.  None of
them gets in its way: **looking a stored literal route up answers with what the nodes on the way
to it hold, and with nothing else, and no pattern changes that** (`lookup_literal_route`).

Two facts carry this.  Among the patterns that cover a literal path the path itself comes first by
its kinds, since any other has a kind above the literal at the first difference
(`Covers.eq_or_outranks`).  And the handlers on the way are stored at literal addresses, where a
pattern never writes (`lastWritten_filter_isLiteral`).  So the answer does not depend on the
patterns at all: histories that store the same literal routes in the same order give one answer,
whatever patterns they store in between (`lookup_putAll_eq_of_filter_eq`).
-/

set_option autoImplicit false

namespace RouteAtlas.RouteTrie

variable {V : Type}

/-- Whether a route has neither parameters nor splats. -/
def IsLiteral (segs : List String) : Prop :=
  ∀ s ∈ segs, SegmentKind.ofSegment s = .literal

instance : DecidablePred IsLiteral := fun segs =>
  inferInstanceAs (Decidable (∀ s ∈ segs, SegmentKind.ofSegment s = .literal))

theorem isLiteral_cons_iff {s : String} {segs : List String} :
    IsLiteral (s :: segs) ↔ SegmentKind.ofSegment s = .literal ∧ IsLiteral segs :=
  List.forall_mem_cons

/-! ## Addresses -/

theorem isLiteral_cutAtSplat_iff {segs : List String} :
    IsLiteral (cutAtSplat segs) ↔ IsLiteral segs := by
  induction segs with
  | nil => rfl
  | cons s segs ih =>
    rw [cutAtSplat]
    split
    · rename_i hs
      simp [isLiteral_cons_iff, hs]
    · rw [isLiteral_cons_iff, isLiteral_cons_iff, ih]

/-- A pattern has a parameter or a splat in its address, too: what a splat cuts off comes after
it. -/
theorem isLiteral_address_iff {segs : List String} :
    IsLiteral (address segs) ↔ IsLiteral segs := by
  rw [address, isLiteral_cutAtSplat_iff]
  constructor
  · intro h s hs
    by_cases he : s = ""
    · rw [he]
      rfl
    · exact h s (List.mem_filter.mpr ⟨hs, by simpa using he⟩)
  · exact fun h s hs => h s (List.mem_of_mem_filter hs)

theorem IsLiteral.address_eq {segs : List String} (h : IsLiteral segs) :
    address segs = segs.filter fun s => !s.isEmpty := by
  refine cutAtSplat_eq_self fun s hs => ?_
  rw [h s (List.mem_of_mem_filter (List.mem_of_mem_dropLast hs))]
  decide

/-! ## The literal way down -/

theorem IsLiteral.covers {q : List String} (h : IsLiteral q) : Covers q q := by
  induction q with
  | nil => exact .nil
  | cons s q ih =>
    obtain ⟨hs, hq⟩ := isLiteral_cons_iff.mp h
    exact .literal hs (ih hq)

/-- Whatever else covers a literal path comes behind it. -/
theorem Covers.eq_or_outranks {p q : List String} (h : Covers p q) (hq : IsLiteral q) :
    p = q ∨ (q.map SegmentKind.ofSegment).map SegmentKind.rank <
      (p.map SegmentKind.ofSegment).map SegmentKind.rank := by
  induction h with
  | nil => exact .inl rfl
  | literal hk _ ih =>
    rcases ih (isLiteral_cons_iff.mp hq).2 with rfl | hlt
    · exact .inl rfl
    · exact .inr (List.cons_lt_cons_iff.mpr (.inr ⟨rfl, hlt⟩))
  | param hk _ _ =>
    refine .inr (List.cons_lt_cons_iff.mpr (.inl ?_))
    rw [hk, (isLiteral_cons_iff.mp hq).1]
    decide
  | splat hk =>
    refine .inr (List.cons_lt_cons_iff.mpr (.inl ?_))
    rw [hk, (isLiteral_cons_iff.mp hq).1]
    decide

theorem IsLiteral.prevails {laid : List String → Prop} {q : List String} (h : IsLiteral q)
    (hlaid : laid q) : Prevails laid q q :=
  ⟨hlaid, h.covers, fun _ _ hp => (hp.eq_or_outranks h).imp id .inl⟩

/-- The best branch for a literal path that has a node goes through the nodes of its beginnings. -/
theorem IsLiteral.nodes_best {t : RouteTrie V} (ho : t.Ordered) {q : List String}
    (h : IsLiteral q) (hn : (t.node? q).isSome) :
    (best q t).nodes.map some = q.inits.map t.node? := by
  obtain ⟨turns, hb, -⟩ := exists_bestBy q t
  have hpattern : (best q t).pattern = q :=
    (prevails_best ho hn h.covers).1.unique (h.prevails hn)
  rw [hb.nodes_map_some ho, hpattern]

/-- What nodes contribute can be read at their addresses. -/
theorem filterMap_contribution {t : RouteTrie V} {nodes : List (RouteTrie V)}
    {ps : List (List String)} (h : nodes.map some = ps.map t.node?) (method : String) :
    nodes.filterMap (contribution method) = ps.filterMap fun p =>
      (t.handler? p method).or (t.handler? p HttpMethod.wildcardKey) := by
  have hread : ∀ p, (t.handler? p method).or (t.handler? p HttpMethod.wildcardKey) =
      (t.node? p).bind (contribution method) := by
    intro p
    simp only [handler?]
    cases t.node? p <;> rfl
  calc nodes.filterMap (contribution method)
      = (nodes.map some).filterMap fun n => n.bind (contribution method) := by
        rw [List.filterMap_map]
        rfl
    _ = ps.filterMap fun p => (t.node? p).bind (contribution method) := by
        rw [h, List.filterMap_map]
        rfl
    _ = _ := List.filterMap_congr fun p _ => (hread p).symm

/-! ## Patterns write elsewhere -/

/-- What was written last at a literal address was written by a literal route. -/
theorem lastWritten_filter_isLiteral (es : List (List String × String × V)) {p : List String}
    (hp : IsLiteral p) (method : String) :
    lastWritten (es.filter fun e => IsLiteral e.1) p method = lastWritten es p method := by
  have hliteral : ∀ e : List String × String × V,
      (IsLiteral e.1 ∧ address e.1 = p ∧ e.2.1 = method) ↔ address e.1 = p ∧ e.2.1 = method :=
    fun e => and_iff_right_of_imp fun he => isLiteral_address_iff.mp (he.1 ▸ hp)
  rw [lastWritten, lastWritten, ← List.filter_reverse, List.find?_filter]
  simp only [decide_eq_true_eq, hliteral]

/-- The nodes that answer for a stored literal route are those of its beginnings. -/
theorem IsLiteral.nodes_best_putAll {es : List (List String × String × V)} {route : List String}
    (hl : IsLiteral route) (hroute : ∃ e ∈ es, e.1 = route) :
    (best (route.filter fun s => !s.isEmpty) (putAll es)).nodes.map some =
      (route.filter fun s => !s.isEmpty).inits.map (putAll es).node? := by
  obtain ⟨e, he, rfl⟩ := hroute
  have hn : ((putAll es).node? (address e.1)).isSome :=
    (isSome_node?_putAll es _).mpr (.inr ⟨e, he, List.prefix_rfl⟩)
  rw [← hl.address_eq]
  exact (isLiteral_address_iff.mpr hl).nodes_best (ordered_putAll es) hn

/-- The answer for a stored literal route, by what was written. -/
theorem IsLiteral.lookup_putAll {es : List (List String × String × V)} {route : List String}
    (hl : IsLiteral route) (hroute : ∃ e ∈ es, e.1 = route) (method : String) :
    (putAll es).lookup route method = (address route).inits.filterMap fun p =>
      (lastWritten es p method).or (lastWritten es p HttpMethod.wildcardKey) := by
  rw [lookup, filterMap_contribution (hl.nodes_best_putAll hroute), hl.address_eq]
  simp only [handler?_putAll, lastWritten]

/-- **Patterns cannot be seen on literal routes**: histories that store the same literal routes in
the same order answer alike. -/
theorem lookup_putAll_eq_of_filter_eq {es es' : List (List String × String × V)}
    (h : (es'.filter fun e => IsLiteral e.1) = es.filter fun e => IsLiteral e.1)
    {route : List String} (hroute : ∃ e ∈ es, e.1 = route) (hl : IsLiteral route)
    (method : String) : (putAll es').lookup route method = (putAll es).lookup route method := by
  have hroute' : ∃ e ∈ es', e.1 = route := by
    obtain ⟨e, he, rfl⟩ := hroute
    have hmem : e ∈ es'.filter fun e => IsLiteral e.1 := by
      rw [h]
      exact List.mem_filter.mpr ⟨he, decide_eq_true hl⟩
    exact ⟨e, List.mem_of_mem_filter hmem, rfl⟩
  rw [hl.lookup_putAll hroute, hl.lookup_putAll hroute']
  refine List.filterMap_congr fun p hp => ?_
  have hp : IsLiteral p := fun s hs =>
    isLiteral_address_iff.mpr hl s (((List.mem_inits _ _).mp hp).subset hs)
  rw [← lastWritten_filter_isLiteral es' hp, ← lastWritten_filter_isLiteral es' hp, h,
    lastWritten_filter_isLiteral es hp, lastWritten_filter_isLiteral es hp]

/-! ## The answer for a literal route -/

/-- **A stored literal route is answered with what the nodes of its beginnings contribute**, from
the root to its own node, whatever patterns cover it; and patterns that are stored later do not
change the answer. -/
theorem lookup_literal_route (es : List (List String × String × V)) (h : ∀ e ∈ es, e.2.1 ≠ "")
    {route : List String} (hroute : ∃ e ∈ es, e.1 = route) (hl : IsLiteral route) :
    ∃ t, insertAll es = .ok t ∧
      (∃ nodes : List (RouteTrie V),
        nodes.map some = (route.filter fun s => !s.isEmpty).inits.map t.node? ∧
        ∀ method, t.lookup route method =
          nodes.filterMap fun n => (n.handlers.get? method).or (n.handlers.get? "*")) ∧
      ∀ further, (∀ e ∈ further, e.2.1 ≠ "" ∧ ¬IsLiteral e.1) →
        ∃ t', insertAll (es ++ further) = .ok t' ∧
          ∀ method, t'.lookup route method = t.lookup route method := by
  refine ⟨putAll es, insertAll_eq_ok h,
    ⟨_, hl.nodes_best_putAll hroute, fun method => rfl⟩, fun further hfurther => ?_⟩
  have hall : ∀ e ∈ es ++ further, e.2.1 ≠ "" := by
    intro e he
    rcases List.mem_append.mp he with he | he
    · exact h e he
    · exact (hfurther e he).1
  have hnone : (further.filter fun e => IsLiteral e.1) = [] :=
    List.filter_eq_nil_iff.mpr fun e he => by simpa using (hfurther e he).2
  refine ⟨putAll (es ++ further), insertAll_eq_ok hall, fun method => ?_⟩
  refine lookup_putAll_eq_of_filter_eq ?_ hroute hl method
  rw [List.filter_append, hnone, List.append_nil]

/-- A page under a guard keeps its answer when patterns are stored that cover it, that go on below
it, and that would take it whole. -/
theorem lookup_literal_route_guardedPage :
    let es : List (List String × String × Nat) :=
      [([], "*", 0), (["users"], "*", 1), (["users", "new"], "get", 2)]
    let further : List (List String × String × Nat) :=
      [(["users", ":id"], "get", 3), (["users", "new", ":step"], "get", 4), (["*"], "get", 5),
        ([":area", "new"], "*", 6)]
    (∀ e ∈ es, e.2.1 ≠ "") ∧ (∃ e ∈ es, e.1 = ["users", "new"]) ∧ IsLiteral ["users", "new"] ∧
      (∀ e ∈ further, e.2.1 ≠ "" ∧ ¬IsLiteral e.1) ∧
      ∃ t t', insertAll es = .ok t ∧ insertAll (es ++ further) = .ok t' ∧
        t.lookup ["users", "new"] "get" = [0, 1, 2] ∧
        t'.lookup ["users", "new"] "get" = [0, 1, 2] := by
  intro es further
  have h : ∀ e ∈ es, e.2.1 ≠ "" := by decide
  have hroute : ∃ e ∈ es, e.1 = ["users", "new"] := by decide
  have hl : IsLiteral ["users", "new"] := by decide
  have hfurther : ∀ e ∈ further, e.2.1 ≠ "" ∧ ¬IsLiteral e.1 := by decide
  obtain ⟨t, ht, -, hsame⟩ := lookup_literal_route es h hroute hl
  obtain ⟨t', ht', hsame⟩ := hsame further hfurther
  have hanswer : t.lookup ["users", "new"] "get" = [0, 1, 2] := by
    rw [← Except.ok.inj (ht.symm.trans (insertAll_eq_ok h)).symm]
    decide
  exact ⟨h, hroute, hl, hfurther, t, t', ht, ht', hanswer, (hsame "get").trans hanswer⟩

end RouteAtlas.RouteTrie
