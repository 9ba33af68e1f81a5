import Mathlib.Data.List.Infix
import RouteAtlas.Proofs.Trie.Branch
import RouteAtlas.Proofs.Trie.Store

/-!
# Branches as patterns

Every node has an address, and a branch that goes down to a node reads the address as a pattern:
it takes a path if each literal is there, each parameter has a segment, and a splat at the end has
the rest (`Covers`).  So which branch a lookup follows can be said without nodes: **of the patterns
that cover a path, the one that prevails** (`prevails_best`), by its kinds and then by its texts.
The nodes on that branch are those of the beginnings of the pattern (`IsBranch.nodes_map_some`).

The order of siblings is needed here.  Ties between branches are broken by the child that comes
first, and children come in the order of their texts.
-/

set_option autoImplicit false

namespace RouteAtlas.RouteTrie

variable {V : Type}

/-! ## Patterns -/

/-- A pattern takes all segments of a path. -/
inductive Covers : List String → List String → Prop
  | nil : Covers [] []
  | literal {s : String} {p q : List String} :
      SegmentKind.ofSegment s = .literal → Covers p q → Covers (s :: p) (s :: q)
  | param {n s : String} {p q : List String} :
      SegmentKind.ofSegment n = .param → Covers p q → Covers (n :: p) (s :: q)
  | splat {n s : String} {q : List String} :
      SegmentKind.ofSegment n = .splat → Covers [n] (s :: q)

/-- One pattern outranks another: by the kinds of its segments, or, with the same kinds, by
their texts. -/
def Outranks (p p' : List String) : Prop :=
  (p.map SegmentKind.ofSegment).map SegmentKind.rank <
      (p'.map SegmentKind.ofSegment).map SegmentKind.rank ∨
    p.map SegmentKind.ofSegment = p'.map SegmentKind.ofSegment ∧ p < p'

/-- Of the patterns of a trie that cover a path, this one outranks all others. -/
def Prevails (laid : List String → Prop) (q p : List String) : Prop :=
  laid p ∧ Covers p q ∧ ∀ p', laid p' → Covers p' q → p' = p ∨ Outranks p p'

theorem not_lt_and_lt {p p' : List String} (h : p < p') : ¬p' < p := fun h' => by
  induction p generalizing p' with
  | nil => cases h'
  | cons a p ih =>
    cases p' with
    | nil => cases h
    | cons a' p' =>
      rw [List.cons_lt_cons_iff] at h h'
      rcases h with h | ⟨rfl, h⟩ <;> rcases h' with h' | ⟨ha, h'⟩
      · exact String.lt_irrefl a (String.lt_trans h h')
      · exact String.lt_irrefl a (ha ▸ h)
      · exact String.lt_irrefl a h'
      · exact ih h h'

theorem Outranks.asymm {p p' : List String} (h : Outranks p p') : ¬Outranks p' p := by
  rintro (h' | ⟨hk', h'⟩) <;> rcases h with h | ⟨hk, h⟩
  · exact lt_asymm h h'
  · exact lt_irrefl _ (hk ▸ h')
  · exact lt_irrefl _ (hk' ▸ h)
  · exact not_lt_and_lt h h'

theorem Prevails.unique {laid : List String → Prop} {q p p' : List String}
    (h : Prevails laid q p) (h' : Prevails laid q p') : p = p' := by
  rcases h.2.2 p' h'.1 h'.2.1 with he | ho
  · exact he.symm
  · rcases h'.2.2 p h.1 h.2.1 with he | ho'
    · exact he
    · exact absurd ho' ho.asymm

theorem covers_cutAtSplat {q : List String} : Covers (cutAtSplat q) q := by
  induction q with
  | nil => exact .nil
  | cons s q ih =>
    rw [cutAtSplat]
    cases hk : SegmentKind.ofSegment s with
    | literal => exact .literal hk ih
    | param => exact .param hk ih
    | splat => exact .splat hk

theorem cutAtSplat_eq_self {q : List String}
    (h : ∀ s ∈ q.dropLast, SegmentKind.ofSegment s ≠ .splat) : cutAtSplat q = q := by
  induction q with
  | nil => rfl
  | cons s q ih =>
    cases q with
    | nil => rw [cutAtSplat, cutAtSplat, ite_self]
    | cons s' q =>
      rw [List.dropLast_cons_cons, List.forall_mem_cons] at h
      rw [cutAtSplat, if_neg h.1, ih h.2]

/-- A route's own address covers the route. -/
theorem covers_address (q : List String) :
    Covers (address q) (q.filter fun s => !s.isEmpty) :=
  covers_cutAtSplat

/-- A pattern that covers a path has no proper beginning that covers it, too. -/
theorem Covers.eq_of_isPrefix {p p' q : List String} (h : Covers p q) (h' : Covers p' q)
    (hp : p' <+: p) : p' = p := by
  induction h generalizing p' with
  | nil => exact List.prefix_nil.mp hp
  | @literal s p q hk _ ih =>
    rcases List.prefix_cons_iff.mp hp with rfl | ⟨t, rfl, ht⟩
    · cases h'
    · cases h' with
      | literal _ h' => rw [ih h' ht]
      | param hk' _ => exact absurd (hk.symm.trans hk') (by decide)
      | splat hk' => exact absurd (hk.symm.trans hk') (by decide)
  | @param n s p q hk _ ih =>
    rcases List.prefix_cons_iff.mp hp with rfl | ⟨t, rfl, ht⟩
    · cases h'
    · cases h' with
      | literal hk' _ => exact absurd (hk.symm.trans hk') (by decide)
      | param _ h' => rw [ih h' ht]
      | splat hk' => exact absurd (hk.symm.trans hk') (by decide)
  | splat hk =>
    rcases List.prefix_cons_iff.mp hp with rfl | ⟨t, rfl, ht⟩
    · cases h'
    · rw [List.prefix_nil.mp ht]

/-- A beginning of a pattern covers a beginning of what the pattern covers. -/
theorem Covers.exists_of_isPrefix {p p' q : List String} (h : Covers p q) (hp : p' <+: p) :
    ∃ q', q' <+: q ∧ Covers p' q' := by
  induction h generalizing p' with
  | nil => exact ⟨[], List.nil_prefix, List.prefix_nil.mp hp ▸ .nil⟩
  | literal hk _ ih =>
    rcases List.prefix_cons_iff.mp hp with rfl | ⟨t, rfl, ht⟩
    · exact ⟨[], List.nil_prefix, .nil⟩
    · obtain ⟨q', hq', hc⟩ := ih ht
      exact ⟨_, List.cons_prefix_cons.mpr ⟨rfl, hq'⟩, .literal hk hc⟩
  | param hk _ ih =>
    rcases List.prefix_cons_iff.mp hp with rfl | ⟨t, rfl, ht⟩
    · exact ⟨[], List.nil_prefix, .nil⟩
    · obtain ⟨q', hq', hc⟩ := ih ht
      exact ⟨_, List.cons_prefix_cons.mpr ⟨rfl, hq'⟩, .param hk hc⟩
  | splat hk =>
    rcases List.prefix_cons_iff.mp hp with rfl | ⟨t, rfl, ht⟩
    · exact ⟨[], List.nil_prefix, .nil⟩
    · rw [List.prefix_nil.mp ht]
      exact ⟨_, List.prefix_rfl, .splat hk⟩

/-! ## What a branch reads -/

/-- The texts along a branch, below where it starts. -/
def Branch.pattern (b : Branch V) : List String := b.nodes.tail.map segment

/-- A branch either stops at once or goes on through a child. -/
theorem IsBranch.stops_or_goes_on {t : RouteTrie V} {segs : List String} {turns : List Nat}
    {b : Branch V} (h : IsBranch t segs turns b) :
    (turns = [] ∧ b.kinds = [] ∧ b.nodes = [t]) ∨
      ∃ i c segs' rest b', turns = i :: rest ∧ t.children[i]? = some c ∧
        IsBranch c segs' rest b' ∧ b.kinds = c.kind :: b'.kinds ∧ b.nodes = t :: b'.nodes := by
  cases h with
  | stop => exact .inl ⟨rfl, rfl, rfl⟩
  | literal hc hk hs hb =>
    exact .inr ⟨_, _, _, _, _, rfl, hc, hb, congrArg (· :: _) hk.symm, rfl⟩
  | param hc hk hb => exact .inr ⟨_, _, _, _, _, rfl, hc, hb, congrArg (· :: _) hk.symm, rfl⟩
  | splat hc hk =>
    exact .inr ⟨_, _, [], _, _, rfl, hc, .stop, congrArg (· :: []) hk.symm, rfl⟩

theorem IsBranch.nodes_eq_cons {t : RouteTrie V} {segs : List String} {turns : List Nat}
    {b : Branch V} (h : IsBranch t segs turns b) : b.nodes = t :: b.nodes.tail := by
  cases h <;> rfl

/-- Going on through a child puts its text in front. -/
theorem IsBranch.pattern_eq_cons {t c : RouteTrie V} {segs : List String} {turns : List Nat}
    {b b' : Branch V} (h : IsBranch c segs turns b') (hn : b.nodes = t :: b'.nodes) :
    b.pattern = c.segment :: b'.pattern := by
  rw [Branch.pattern, hn, List.tail_cons, h.nodes_eq_cons, List.map_cons, Branch.pattern]

theorem IsBranch.kinds_eq {t : RouteTrie V} {segs : List String} {turns : List Nat}
    {b : Branch V} (h : IsBranch t segs turns b) :
    b.kinds = b.pattern.map SegmentKind.ofSegment := by
  induction turns generalizing t segs b with
  | nil =>
    rcases h.stops_or_goes_on with ⟨-, hk, hn⟩ | ⟨i, c, segs', rest, b', ht, -⟩
    · rw [hk, Branch.pattern, hn]
      rfl
    · cases ht
  | cons i turns ih =>
    rcases h.stops_or_goes_on with ⟨ht, -⟩ | ⟨i, c, segs', rest, b', ht, -, hb, hk, hn⟩
    · cases ht
    · cases ht
      rw [hk, hb.pattern_eq_cons hn, ih hb]
      rfl

theorem Ordered.node?_child {t c : RouteTrie V} {i : Nat} (ho : t.Ordered)
    (hc : t.children[i]? = some c) (p : List String) : t.node? (c.segment :: p) = c.node? p := by
  rw [node?_cons, ho.child?_segment (List.mem_of_getElem? hc), Option.bind_some]

/-- The nodes on a branch are those at the beginnings of its pattern. -/
theorem IsBranch.nodes_map_some {t : RouteTrie V} {segs : List String} {turns : List Nat}
    {b : Branch V} (ho : t.Ordered) (h : IsBranch t segs turns b) :
    b.nodes.map some = b.pattern.inits.map t.node? := by
  induction turns generalizing t segs b with
  | nil =>
    rcases h.stops_or_goes_on with ⟨-, -, hn⟩ | ⟨i, c, segs', rest, b', ht, -⟩
    · rw [Branch.pattern, hn]
      rfl
    · cases ht
  | cons i turns ih =>
    rcases h.stops_or_goes_on with ⟨ht, -⟩ | ⟨i, c, segs', rest, b', ht, hc, hb, -, hn⟩
    · cases ht
    · cases ht
      have hbelow : (t.node? ∘ fun p => c.segment :: p) = c.node? :=
        funext fun p => ho.node?_child hc p
      rw [hb.pattern_eq_cons hn, hn, List.map_cons, List.inits_cons, List.map_cons, List.map_map,
        hbelow, ih (ho.child (List.mem_of_getElem? hc)) hb]
      rfl

theorem IsBranch.mem_nodes_iff {t n : RouteTrie V} {segs : List String} {turns : List Nat}
    {b : Branch V} (ho : t.Ordered) (h : IsBranch t segs turns b) :
    n ∈ b.nodes ↔ ∃ p, p <+: b.pattern ∧ t.node? p = some n := by
  have hmem : n ∈ b.nodes ↔ some n ∈ b.nodes.map some := by simp
  rw [hmem, h.nodes_map_some ho, List.mem_map]
  simp only [List.mem_inits]

theorem IsBranch.isSome_node?_pattern {t : RouteTrie V} {segs : List String} {turns : List Nat}
    {b : Branch V} (ho : t.Ordered) (h : IsBranch t segs turns b) :
    (t.node? b.pattern).isSome := by
  have hmem : t.node? b.pattern ∈ b.nodes.map some := by
    rw [h.nodes_map_some ho]
    exact List.mem_map_of_mem ((List.mem_inits _ _).mpr List.prefix_rfl)
  obtain ⟨n, -, hn⟩ := List.mem_map.mp hmem
  rw [← hn]
  rfl

/-! ## Branches that take a whole path -/

theorem IsBranch.consumed_le {t : RouteTrie V} {segs : List String} {turns : List Nat}
    {b : Branch V} (h : IsBranch t segs turns b) : b.consumed ≤ segs.length := by
  induction h with
  | stop => exact Nat.zero_le _
  | literal _ _ _ _ ih => exact Nat.succ_le_succ ih
  | param _ _ _ ih => exact Nat.succ_le_succ ih
  | splat => exact Nat.le_refl _

/-- A branch reads the segments that it takes. -/
theorem IsBranch.covers_take {t : RouteTrie V} {segs : List String} {turns : List Nat}
    {b : Branch V} (h : IsBranch t segs turns b) : Covers b.pattern (segs.take b.consumed) := by
  induction h with
  | stop => exact .nil
  | literal _ hk hs hb ih =>
    rw [hb.pattern_eq_cons rfl, ← hs]
    exact .literal hk ih
  | param _ hk hb ih =>
    rw [hb.pattern_eq_cons rfl]
    exact .param hk ih
  | splat _ hk => exact .splat hk

theorem IsBranch.covers {t : RouteTrie V} {segs : List String} {turns : List Nat} {b : Branch V}
    (h : IsBranch t segs turns b) (hall : b.consumed = segs.length) : Covers b.pattern segs := by
  have htake := h.covers_take
  rwa [hall, List.take_length] at htake

theorem exists_child_of_isSome_node? {t : RouteTrie V} {s : String} {p : List String}
    (h : (t.node? (s :: p)).isSome) :
    ∃ (i : Nat) (c : RouteTrie V),
      t.children[i]? = some c ∧ c.segment = s ∧ (c.node? p).isSome := by
  rw [node?_cons] at h
  cases hc : t.child? s with
  | none =>
    rw [hc] at h
    cases h
  | some c =>
    rw [hc, Option.bind_some] at h
    obtain ⟨i, hi⟩ := List.mem_iff_getElem?.mp (mem_of_child? hc)
    exact ⟨i, c, hi, segment_of_child? hc, h⟩

/-- A pattern that covers a path is the pattern of a branch, when it leads to a node. -/
theorem exists_isBranch_of_covers {t : RouteTrie V} {q p : List String} (h : Covers p q)
    (hn : (t.node? p).isSome) :
    ∃ turns b, IsBranch t q turns b ∧ b.consumed = q.length ∧ b.pattern = p := by
  induction h generalizing t with
  | nil => exact ⟨[], _, .stop, rfl, rfl⟩
  | literal hk _ ih =>
    obtain ⟨i, c, hi, rfl, hc⟩ := exists_child_of_isSome_node? hn
    obtain ⟨turns, b, hb, hall, hp⟩ := ih hc
    exact ⟨_, _, .literal hi hk rfl hb, congrArg (· + 1) hall,
      (hb.pattern_eq_cons rfl).trans (congrArg _ hp)⟩
  | param hk _ ih =>
    obtain ⟨i, c, hi, rfl, hc⟩ := exists_child_of_isSome_node? hn
    obtain ⟨turns, b, hb, hall, hp⟩ := ih hc
    exact ⟨_, _, .param hi hk hb, congrArg (· + 1) hall,
      (hb.pattern_eq_cons rfl).trans (congrArg _ hp)⟩
  | splat hk =>
    obtain ⟨i, c, hi, rfl, hc⟩ := exists_child_of_isSome_node? hn
    exact ⟨_, _, .splat hi hk, rfl, rfl⟩

/-! ## The pattern that prevails -/

/-- Of two children of the same kind, the earlier one has the earlier text. -/
theorem Ordered.segment_lt {t c c' : RouteTrie V} (ho : t.Ordered) {i j : Nat} (hij : i < j)
    (hc : t.children[i]? = some c) (hc' : t.children[j]? = some c') (hk : c.kind = c'.kind) :
    c.segment < c'.segment := by
  obtain ⟨hi, rfl⟩ := List.getElem?_eq_some_iff.mp hc
  obtain ⟨hj, rfl⟩ := List.getElem?_eq_some_iff.mp hc'
  have hlt := List.pairwise_iff_getElem.mp ho.siblings i j hi hj hij
  rcases segmentPrecedes_iff.mp hlt with hr | ⟨-, hr⟩
  · exact absurd (congrArg SegmentKind.rank hk) (Nat.ne_of_lt hr)
  · exact hr

/-- Between branches of the same kinds, the earlier turn is the earlier text. -/
theorem IsBranch.pattern_lt {t : RouteTrie V} {segs segs' : List String} {turns turns' : List Nat}
    {b b' : Branch V} (ho : t.Ordered) (h : IsBranch t segs turns b)
    (h' : IsBranch t segs' turns' b') (hk : b.kinds = b'.kinds) (hlt : turns < turns') :
    b.pattern < b'.pattern := by
  induction turns generalizing t segs segs' turns' b b' with
  | nil =>
    rcases h.stops_or_goes_on with ⟨-, hn, -⟩ | ⟨_, _, _, _, _, ht, -⟩
    · rcases h'.stops_or_goes_on with ⟨rfl, -⟩ | ⟨_, _, _, _, _, -, -, -, hn', -⟩
      · exact absurd hlt (lt_irrefl _)
      · rw [hn, hn'] at hk
        cases hk
    · cases ht
  | cons i turns ih =>
    rcases h.stops_or_goes_on with ⟨ht, -⟩ | ⟨_, c, _, _, d, ht, hc, hd, hkd, hn⟩
    · cases ht
    · cases ht
      rcases h'.stops_or_goes_on with ⟨rfl, -⟩ | ⟨j, c', _, _, d', rfl, hc', hd', hkd', hn'⟩
      · cases hlt
      · rw [hkd, hkd'] at hk
        obtain ⟨hkc, hkd⟩ := List.cons.inj hk
        rw [hd.pattern_eq_cons hn, hd'.pattern_eq_cons hn', List.cons_lt_cons_iff]
        -- Up to the turn where they part the texts are the same, and there they differ as the
        -- turns do.
        rcases List.cons_lt_cons_iff.mp hlt with hij | ⟨rfl, hrest⟩
        · exact .inl (ho.segment_lt hij hc hc' hkc)
        · cases hc.symm.trans hc'
          exact .inr ⟨rfl, ih (ho.child (List.mem_of_getElem? hc)) hd hd' hkd hrest⟩

/-- **Lookup reads the pattern that prevails**, whenever any pattern of the trie covers the path:
the nodes of the best branch are those at the beginnings of that pattern. -/
theorem prevails_best {t : RouteTrie V} (ho : t.Ordered) {q p : List String}
    (hn : (t.node? p).isSome) (hp : Covers p q) :
    Prevails (fun p => (t.node? p).isSome) q (best q t).pattern ∧
      ∀ n, n ∈ (best q t).nodes ↔ ∃ a, a <+: (best q t).pattern ∧ t.node? a = some n := by
  obtain ⟨turns, hb, hbest⟩ := exists_bestBy q t
  -- A branch for `p` takes the whole path, so the best one does.
  have hall : (best q t).consumed = q.length := by
    obtain ⟨turns', b', hb', hall', -⟩ := exists_isBranch_of_covers hp hn
    obtain ⟨hrank, -⟩ := Branch.standing_le_iff.mp (hbest turns' b' hb')
    exact Nat.le_antisymm hb.consumed_le (hall' ▸ (Branch.rank_le_iff.mp hrank).1)
  refine ⟨⟨hb.isSome_node?_pattern ho, hb.covers hall, fun p' hn' hp' => ?_⟩,
    fun n => hb.mem_nodes_iff ho⟩
  obtain ⟨turns', b', hb', hall', rfl⟩ := exists_isBranch_of_covers hp' hn'
  rcases (hbest turns' b' hb').eq_or_lt with heq | hlt
  · have hturns : turns = turns' := congrArg (fun p => (ofLex p).2) heq
    subst hturns
    exact .inl (by rw [hb.unique hb'])
  · right
    -- Both take the whole path, so the kinds decide, or else the turns and with them the texts.
    rcases Branch.standing_lt_iff.mp hlt with hc | ⟨-, hk | ⟨hk, ht⟩⟩
    · exact absurd hc (by rw [hall, hall']; exact lt_irrefl _)
    · rw [hb.kinds_eq, hb'.kinds_eq] at hk
      exact .inl hk
    · have hpattern := hb.pattern_lt ho hb' hk ht
      rw [hb.kinds_eq, hb'.kinds_eq] at hk
      exact .inr ⟨hk, hpattern⟩

end RouteAtlas.RouteTrie
