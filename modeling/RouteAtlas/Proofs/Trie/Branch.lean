import Mathlib.Data.List.Induction
import Mathlib.Data.List.Lex
import Mathlib.Data.Prod.Lex
import Mathlib.Order.Nat
import RouteAtlas.Route.Trie

/-!
# The best branch is the best of all branches

`best` decides at every node: it asks each child for the best way on and keeps one answer.  The
relation `IsBranch` decides nothing: it holds of every way down, those that stop where they could
go on included, of which there are exponentially many.  **Lookup follows the branch that is
preferred to every other** (`lookup_follows_preferred_branch`), and it is one branch for all
methods.

Deciding locally is enough because preference is lexicographic three times over: more segments
first, then the kinds, then the children taken.  A branch below a child is made longer by the same
segment, kind and turn whatever it is, so the better of two ways on stays the better
(`rank_under_le`), and no way on from another child can come in between.
-/

set_option autoImplicit false

namespace RouteAtlas

/-! ## Branches and preference -/

namespace RouteTrie

variable {V : Type}

/-- A way down for a list of segments, told by the child taken at each node.  A literal takes a
segment that is its own text, a parameter any one segment, a splat all that are left, and a way
down may stop anywhere. -/
inductive IsBranch : RouteTrie V → List String → List Nat → Branch V → Prop
  | stop {t : RouteTrie V} {segs : List String} : IsBranch t segs [] ⟨0, [], [t]⟩
  | literal {t c : RouteTrie V} {s : String} {segs : List String} {i : Nat} {turns : List Nat}
      {b : Branch V} :
      t.children[i]? = some c → c.kind = .literal → c.segment = s → IsBranch c segs turns b →
      IsBranch t (s :: segs) (i :: turns) ⟨b.consumed + 1, .literal :: b.kinds, t :: b.nodes⟩
  | param {t c : RouteTrie V} {s : String} {segs : List String} {i : Nat} {turns : List Nat}
      {b : Branch V} :
      t.children[i]? = some c → c.kind = .param → IsBranch c segs turns b →
      IsBranch t (s :: segs) (i :: turns) ⟨b.consumed + 1, .param :: b.kinds, t :: b.nodes⟩
  | splat {t c : RouteTrie V} {s : String} {segs : List String} {i : Nat} :
      t.children[i]? = some c → c.kind = .splat →
      IsBranch t (s :: segs) [i] ⟨(s :: segs).length, [.splat], [t, c]⟩

/-- One branch is preferred to another: it takes more segments; or as many, and its kinds come
first; or its kinds are the same, and it takes the earlier child where the two part. -/
def Preferred (turns : List Nat) (b : Branch V) (turns' : List Nat) (b' : Branch V) : Prop :=
  b'.consumed < b.consumed ∨
    b.consumed = b'.consumed ∧
      (b.kinds.map SegmentKind.rank < b'.kinds.map SegmentKind.rank ∨
        b.kinds = b'.kinds ∧ turns < turns')

/-- The same turns make the same branch. -/
theorem IsBranch.unique {t : RouteTrie V} {segs : List String} {turns : List Nat}
    {b b' : Branch V} (h : IsBranch t segs turns b) (h' : IsBranch t segs turns b') : b = b' := by
  -- The first turn fixes the child, and the child's kind the constructor of the other branch.
  induction h generalizing b' with
  | stop =>
    cases h' with
    | stop => rfl
  | literal hc hk _ _ ih =>
    cases h' with
    | literal hc' hk' _ hb' =>
      cases hc.symm.trans hc'
      rw [ih hb']
    | param hc' hk' _ =>
      cases hc.symm.trans hc'
      exact absurd (hk.symm.trans hk') (by decide)
    | splat hc' hk' =>
      cases hc.symm.trans hc'
      exact absurd (hk.symm.trans hk') (by decide)
  | param hc hk _ ih =>
    cases h' with
    | literal hc' hk' _ hb' =>
      cases hc.symm.trans hc'
      exact absurd (hk.symm.trans hk') (by decide)
    | param hc' hk' hb' =>
      cases hc.symm.trans hc'
      rw [ih hb']
    | splat hc' hk' =>
      cases hc.symm.trans hc'
      exact absurd (hk.symm.trans hk') (by decide)
  | splat hc hk =>
    cases h' with
    | literal hc' hk' _ hb' =>
      cases hc.symm.trans hc'
      exact absurd (hk.symm.trans hk') (by decide)
    | param hc' hk' hb' =>
      cases hc.symm.trans hc'
      exact absurd (hk.symm.trans hk') (by decide)
    | splat hc' hk' =>
      cases hc.symm.trans hc'
      rfl

end RouteTrie

/-! ## Preference as an order -/

namespace SegmentKind

theorem rank_injective : Function.Injective rank := by
  intro a b h
  cases a <;> cases b <;> first | rfl | cases h

theorem less_iff_lt {as bs : List SegmentKind} :
    less as bs = true ↔ as.map rank < bs.map rank := by
  induction as generalizing bs with
  | nil => cases bs <;> simp [less]
  | cons a as ih =>
    cases bs with
    | nil => simp [less]
    | cons b bs =>
      rw [List.map_cons, List.map_cons, List.cons_lt_cons_iff, less]
      by_cases hlt : a.rank < b.rank
      · simp [hlt]
      · by_cases heq : a.rank = b.rank <;> simp [hlt, heq, ih]

end SegmentKind

namespace RouteTrie

variable {V : Type}

namespace Branch

/-- Where a branch stands among others, the best first: by how much it takes, then by its kinds. -/
def rank (b : Branch V) : ℕᵒᵈ ×ₗ List ℕ :=
  toLex (OrderDual.toDual b.consumed, b.kinds.map SegmentKind.rank)

theorem rank_le_iff {a b : Branch V} :
    a.rank ≤ b.rank ↔ b.consumed ≤ a.consumed ∧
      (a.consumed = b.consumed → a.kinds.map SegmentKind.rank ≤ b.kinds.map SegmentKind.rank) :=
  Prod.Lex.toLex_le_toLex'

theorem rank_lt_iff {a b : Branch V} :
    a.rank < b.rank ↔ b.consumed < a.consumed ∨
      (a.consumed = b.consumed ∧ a.kinds.map SegmentKind.rank < b.kinds.map SegmentKind.rank) :=
  Prod.Lex.toLex_lt_toLex

theorem beats_iff {a b : Branch V} : a.beats b = true ↔ a.rank < b.rank := by
  simp [beats, rank_lt_iff, SegmentKind.less_iff_lt]

/-- Where a branch stands among all, its turns deciding last. -/
def standing (b : Branch V) (turns : List Nat) : (ℕᵒᵈ ×ₗ List ℕ) ×ₗ List ℕ :=
  toLex (b.rank, turns)

theorem standing_le_iff {a b : Branch V} {turns turns' : List Nat} :
    a.standing turns ≤ b.standing turns' ↔
      a.rank ≤ b.rank ∧ (a.rank = b.rank → turns ≤ turns') :=
  Prod.Lex.toLex_le_toLex'

theorem standing_lt_iff {a b : Branch V} {turns turns' : List Nat} :
    a.standing turns < b.standing turns' ↔ Preferred turns a turns' b := by
  have hrank : a.rank = b.rank ↔ a.consumed = b.consumed ∧ a.kinds = b.kinds := by
    simp only [rank, EmbeddingLike.apply_eq_iff_eq, Prod.mk.injEq]
    rw [(List.map_injective_iff.mpr SegmentKind.rank_injective).eq_iff]
  rw [standing, standing, Prod.Lex.toLex_lt_toLex]
  simp only [rank_lt_iff, hrank, Preferred]
  tauto

/-- Of two ways on from a child, the better one is the better way to take the child. -/
theorem rank_under_le_iff {a b : Branch V} {k : SegmentKind} :
    (a.under k).rank ≤ (b.under k).rank ↔ a.rank ≤ b.rank := by
  have hcons (xs ys : List ℕ) : k.rank :: xs ≤ k.rank :: ys ↔ xs ≤ ys := by
    rw [← not_lt, ← not_lt, List.cons_lt_cons_iff]
    simp
  simp only [rank_le_iff, under, List.map_cons, Nat.add_le_add_iff_right, Nat.add_right_cancel_iff,
    hcons]

theorem standing_under_le {a b : Branch V} {turns turns' : List Nat} {k : SegmentKind}
    (h : a.standing turns ≤ b.standing turns') :
    (a.under k).standing turns ≤ (b.under k).standing turns' := by
  obtain ⟨hrank, hturns⟩ := standing_le_iff.mp h
  refine standing_le_iff.mpr ⟨rank_under_le_iff.mpr hrank, fun he => hturns ?_⟩
  exact le_antisymm hrank (rank_under_le_iff.mp he.ge)

end Branch

/-! ## The choice among children -/

/-- `b` is the best of what the children offer, and child `i` the first to offer one as good. -/
def FirstBest (offer : RouteTrie V → Option (Branch V)) (cs : List (RouteTrie V)) (i : Nat)
    (b : Branch V) : Prop :=
  (∃ c, cs[i]? = some c ∧ offer c = some b) ∧
    ∀ (j : Nat) (c' : RouteTrie V) (b' : Branch V), cs[j]? = some c' → offer c' = some b' →
      b.rank ≤ b'.rank ∧ (b.rank = b'.rank → i ≤ j)

theorem getElem?_concat_cases {α : Type} {xs : List α} {x y : α} {j : Nat}
    (h : (xs ++ [x])[j]? = some y) : xs[j]? = some y ∨ (j = xs.length ∧ y = x) := by
  rcases Nat.lt_trichotomy j xs.length with hlt | rfl | hgt
  · rw [List.getElem?_append_left hlt] at h
    exact .inl h
  · rw [List.getElem?_concat_length] at h
    exact .inr ⟨rfl, (Option.some.inj h).symm⟩
  · rw [List.getElem?_eq_none (by simp; omega)] at h
    cases h

theorem lt_length_of_getElem?_eq_some {α : Type} {xs : List α} {y : α} {j : Nat}
    (h : xs[j]? = some y) : j < xs.length :=
  (List.getElem?_eq_some_iff.mp h).1

/-- One more child: it wins only if it is strictly better. -/
theorem FirstBest.concat {offer : RouteTrie V → Option (Branch V)} {cs : List (RouteTrie V)}
    {i : Nat} {b : Branch V} (h : FirstBest offer cs i b) {c : RouteTrie V} :
    ∃ i', FirstBest offer (cs ++ [c]) i' ((offer c).elim b b.better) := by
  obtain ⟨⟨c₀, hi, ho⟩, hbest⟩ := h
  have hlt := lt_length_of_getElem?_eq_some hi
  have hi' : (cs ++ [c])[i]? = some c₀ := by rw [List.getElem?_append_left hlt, hi]
  cases hc : offer c with
  | none =>
    refine ⟨i, ⟨c₀, hi', ho⟩, fun j c' b' hj hb' => ?_⟩
    rcases getElem?_concat_cases hj with hj | ⟨-, rfl⟩
    · exact hbest j c' b' hj hb'
    · rw [hc] at hb'
      cases hb'
  | some x =>
    simp only [Option.elim_some, Branch.better]
    by_cases hx : x.beats b = true
    · rw [if_pos hx]
      have hxb := Branch.beats_iff.mp hx
      refine ⟨cs.length, ⟨c, List.getElem?_concat_length, hc⟩, fun j c' b' hj hb' => ?_⟩
      rcases getElem?_concat_cases hj with hj | ⟨rfl, rfl⟩
      · have hlt' : x.rank < b'.rank := lt_of_lt_of_le hxb (hbest j c' b' hj hb').1
        exact ⟨hlt'.le, fun he => absurd he hlt'.ne⟩
      · rw [hc] at hb'
        cases hb'
        exact ⟨le_refl _, fun _ => le_refl _⟩
    · -- As good is not enough, so of equals the first stays.
      rw [if_neg hx]
      have hbx : b.rank ≤ x.rank := not_lt.mp fun h => hx (Branch.beats_iff.mpr h)
      refine ⟨i, ⟨c₀, hi', ho⟩, fun j c' b' hj hb' => ?_⟩
      rcases getElem?_concat_cases hj with hj | ⟨rfl, rfl⟩
      · exact hbest j c' b' hj hb'
      · rw [hc] at hb'
        cases hb'
        exact ⟨hbx, fun _ => hlt.le⟩

theorem firstBest_of_none {offer : RouteTrie V → Option (Branch V)} {cs : List (RouteTrie V)}
    (hcs : ∀ c ∈ cs, offer c = none) {c : RouteTrie V} {x : Branch V} (hc : offer c = some x) :
    FirstBest offer (cs ++ [c]) cs.length x := by
  refine ⟨⟨c, List.getElem?_concat_length, hc⟩, fun j c' b' hj hb' => ?_⟩
  rcases getElem?_concat_cases hj with hj | ⟨rfl, rfl⟩
  · rw [hcs c' (List.mem_of_getElem? hj)] at hb'
    cases hb'
  · rw [hc] at hb'
    cases hb'
    exact ⟨le_refl _, fun _ => le_refl _⟩

/-- The fold over the children ends with the first of the best, or with nothing when no child can
be entered. -/
theorem foldl_better_cases {offer : RouteTrie V → Option (Branch V)}
    (hpos : ∀ c b, offer c = some b → 0 < b.consumed) (cs : List (RouteTrie V)) :
    ((cs.filterMap offer).foldl Branch.better .none = .none ∧ ∀ c ∈ cs, offer c = none) ∨
      ∃ i, FirstBest offer cs i ((cs.filterMap offer).foldl Branch.better .none) := by
  induction cs using List.reverseRecOn with
  | nil => exact .inl ⟨rfl, fun c hc => absurd hc List.not_mem_nil⟩
  | append_singleton cs c ih =>
    have hfold : ((cs ++ [c]).filterMap offer).foldl Branch.better .none =
        (offer c).elim ((cs.filterMap offer).foldl Branch.better .none)
          ((cs.filterMap offer).foldl Branch.better .none).better := by
      rw [List.filterMap_append, List.foldl_append]
      cases hc : offer c <;> simp [hc]
    rw [hfold]
    rcases ih with ⟨hnone, hcs⟩ | ⟨i, hi⟩
    · rw [hnone]
      cases hc : offer c with
      | none =>
        refine .inl ⟨rfl, fun c' hc' => ?_⟩
        rcases List.mem_append.mp hc' with hc' | hc'
        · exact hcs c' hc'
        · rw [List.mem_singleton.mp hc', hc]
      | some x =>
        have hx : x.beats .none = true := by
          simp [Branch.beats, Branch.none, hpos c x hc]
        rw [Option.elim_some, Branch.better, if_pos hx]
        exact .inr ⟨cs.length, firstBest_of_none hcs hc⟩
    · exact .inr hi.concat

theorem consumed_pos_of_enter {s : String} {n : Nat} {below : RouteTrie V → Branch V}
    {c : RouteTrie V} {b : Branch V} (h : enter s n below c = some b) : 0 < b.consumed := by
  unfold enter at h
  split at h
  · split at h
    · cases h
      exact Nat.succ_pos _
    · cases h
  · cases h
    exact Nat.succ_pos _
  · cases h
    exact Nat.succ_pos _

/-! ## From the children to the node -/

/-- A branch below a node, with the node put in front.  That changes nothing about where the branch
stands. -/
def Branch.startingAt (t : RouteTrie V) (b : Branch V) : Branch V :=
  ⟨b.consumed, b.kinds, t :: b.nodes⟩

theorem best_cons (s : String) (segs : List String) (t : RouteTrie V) :
    best (s :: segs) t =
      ((t.children.filterMap (enter s segs.length (best segs))).foldl Branch.better
        .none).startingAt t := rfl

/-- `best` answers the branch of these turns, and no branch stands before it. -/
def BestBy (segs : List String) (t : RouteTrie V) (turns : List Nat) : Prop :=
  IsBranch t segs turns (best segs t) ∧
    ∀ turns' b', IsBranch t segs turns' b' → (best segs t).standing turns ≤ b'.standing turns'

/-- The turns below a child: none below a splat, which ends its branch. -/
def turnsBelow (turns : RouteTrie V → List Nat) (c : RouteTrie V) : List Nat :=
  if c.kind = .splat then [] else turns c

section Step

variable {s : String} {segs : List String} {t : RouteTrie V} {turns : RouteTrie V → List Nat}

/-- What a child offers is a branch of the node. -/
theorem isBranch_of_enter (ih : ∀ c : RouteTrie V, BestBy segs c (turns c)) {i : Nat}
    {c : RouteTrie V} {x : Branch V} (hi : t.children[i]? = some c)
    (hx : enter s segs.length (best segs) c = some x) :
    IsBranch t (s :: segs) (i :: turnsBelow turns c) (x.startingAt t) := by
  unfold enter at hx
  split at hx
  · rename_i hk
    split at hx
    · rename_i hs
      cases hx
      rw [turnsBelow, if_neg (by rw [hk]; decide)]
      exact .literal hi hk hs (ih c).1
    · cases hx
  · rename_i hk
    cases hx
    rw [turnsBelow, if_neg (by rw [hk]; decide)]
    exact .param hi hk (ih c).1
  · rename_i hk
    cases hx
    rw [turnsBelow, if_pos hk]
    exact .splat hi hk

/-- A branch that does not stop at the node goes through a child, and what that child offers
stands no later than the branch. -/
theorem enter_of_isBranch (ih : ∀ c : RouteTrie V, BestBy segs c (turns c)) {turns' : List Nat}
    {b' : Branch V} (h : IsBranch t (s :: segs) turns' b') :
    (turns' = [] ∧ b' = ⟨0, [], [t]⟩) ∨
      ∃ j c x rest, t.children[j]? = some c ∧ enter s segs.length (best segs) c = some x ∧
        turns' = j :: rest ∧ x.standing (turnsBelow turns c) ≤ b'.standing rest := by
  cases h with
  | stop => exact .inl ⟨rfl, rfl⟩
  | @literal _ c _ _ j rest b hj hk hs hb =>
    refine .inr ⟨j, c, (best segs c).under .literal, rest, hj, ?_, rfl, ?_⟩
    · unfold enter
      rw [hk]
      exact if_pos hs
    · rw [turnsBelow, if_neg (by rw [hk]; decide)]
      exact Branch.standing_under_le ((ih c).2 rest b hb)
  | @param _ c _ _ j rest b hj hk hb =>
    refine .inr ⟨j, c, (best segs c).under .param, rest, hj, ?_, rfl, ?_⟩
    · unfold enter
      rw [hk]
    · rw [turnsBelow, if_neg (by rw [hk]; decide)]
      exact Branch.standing_under_le ((ih c).2 rest b hb)
  | @splat _ c _ _ j hj hk =>
    refine .inr ⟨j, c, ⟨segs.length + 1, [.splat], [c]⟩, [], hj, ?_, rfl, ?_⟩
    · unfold enter
      rw [hk]
    · rw [turnsBelow, if_pos hk]
      exact le_refl _

theorem exists_bestBy_cons (ih : ∀ c : RouteTrie V, BestBy segs c (turns c)) :
    ∃ turns', BestBy (s :: segs) t turns' := by
  rcases foldl_better_cases (fun c b => consumed_pos_of_enter (c := c) (b := b)) t.children
    with ⟨hnone, hcs⟩ | ⟨i, ⟨c, hi, hc⟩, hfirst⟩
  · -- No child can be entered: the branch stops here, and it is the only one.
    have hbest : best (s :: segs) t = ⟨0, [], [t]⟩ := by
      rw [best_cons, hnone]
      rfl
    refine ⟨[], hbest ▸ .stop, fun turns' b' h => ?_⟩
    rcases enter_of_isBranch ih h with ⟨rfl, rfl⟩ | ⟨j, c, x, rest, hj, hx, -⟩
    · rw [hbest]
    · rw [hcs c (List.mem_of_getElem? hj)] at hx
      cases hx
  · refine ⟨i :: turnsBelow turns c, isBranch_of_enter ih hi hc, fun turns' b' h => ?_⟩
    have hpos := consumed_pos_of_enter hc
    rcases enter_of_isBranch ih h with ⟨rfl, rfl⟩ | ⟨j, c', x, rest, hj, hx, rfl, hle⟩
    · refine (Branch.standing_lt_iff.mpr (.inl ?_)).le
      exact hpos
    · obtain ⟨hrank, hij⟩ := hfirst j c' x hj hx
      obtain ⟨hrank', hturns⟩ := Branch.standing_le_iff.mp hle
      refine Branch.standing_le_iff.mpr ⟨hrank.trans hrank', fun he => ?_⟩
      -- All three stand equal by rank, so the children decide, and below one child its turns.
      have hx' : x.rank = b'.rank := le_antisymm hrank' (he.ge.trans hrank)
      rcases Nat.lt_or_eq_of_le (hij (he.trans hx'.symm)) with hlt | rfl
      · exact (List.cons_lt_cons_iff.mpr (.inl hlt)).le
      · cases hi.symm.trans hj
        exact List.cons_le_cons _ (hturns hx')

end Step

/-- **The best branch is a branch, and stands before every other.** -/
theorem exists_bestBy (segs : List String) (t : RouteTrie V) : ∃ turns, BestBy segs t turns := by
  induction segs generalizing t with
  | nil =>
    refine ⟨[], .stop, fun turns' b' h => ?_⟩
    cases h with
    | stop => exact le_refl _
  | cons s segs ih =>
    choose turns hturns using ih
    exact exists_bestBy_cons hturns

/-- So every branch is the best one, or falls behind it. -/
theorem BestBy.preferred {segs : List String} {t : RouteTrie V} {turns : List Nat}
    (h : BestBy segs t turns) {turns' : List Nat} {b' : Branch V} (h' : IsBranch t segs turns' b') :
    (turns' = turns ∧ b' = best segs t) ∨ Preferred turns (best segs t) turns' b' := by
  obtain ⟨hbranch, hbest⟩ := h
  rcases (hbest turns' b' h').eq_or_lt with heq | hlt
  · have hturns : turns = turns' := congrArg (fun p => (ofLex p).2) heq
    subst hturns
    exact .inl ⟨rfl, h'.unique hbranch⟩
  · exact .inr (Branch.standing_lt_iff.mp hlt)

/-! ## Lookup -/

/-- **Lookup follows the branch that is preferred to all others**: there is one way down that every
other falls behind, and for each method the answer is what the nodes on it contribute, from the
root down, their handler for the method or else their wildcard handler.  The branch is the same
whatever the method. -/
theorem lookup_follows_preferred_branch (t : RouteTrie V) (segments : List String) :
    ∃ turns b, IsBranch t (segments.filter fun s => !s.isEmpty) turns b ∧
      (∀ turns' b', IsBranch t (segments.filter fun s => !s.isEmpty) turns' b' →
        (turns' = turns ∧ b' = b) ∨ Preferred turns b turns' b') ∧
      ∀ method, t.lookup segments method =
        b.nodes.filterMap fun n => (n.handlers.get? method).or (n.handlers.get? "*") := by
  obtain ⟨turns, hbest⟩ := exists_bestBy (segments.filter fun s => !s.isEmpty) t
  exact ⟨turns, _, hbest.1, fun turns' b' h => hbest.preferred h, fun method => rfl⟩

end RouteTrie

end RouteAtlas
