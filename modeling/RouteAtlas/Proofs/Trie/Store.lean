import Mathlib.Data.List.Induction
import RouteAtlas.Proofs.SortedMap
import RouteAtlas.Route.Trie

/-!
# A route trie is a map from addresses

`putAt` walks down and makes what is missing.  Seen from outside it does two things: one method at
one address gets a new value (`handler?_putAt`), and every beginning of the address gets a node
(`isSome_node?_putAt`).  The later value at an address replaces the earlier one, so a trie filled
by `put` holds the last of each (`handler?_putAll`).

A node finds its child by text, which needs no sibling to have the text of another.  The order of
siblings (`Ordered`) says so and more: that order is what breaks the last ties of a lookup.
-/

set_option autoImplicit false

namespace RouteAtlas

/-! ## The order of siblings -/

theorem segmentPrecedes_iff {a b : String} :
    segmentPrecedes a b = true ↔
      (SegmentKind.ofSegment a).rank < (SegmentKind.ofSegment b).rank ∨
        ((SegmentKind.ofSegment a).rank = (SegmentKind.ofSegment b).rank ∧ a < b) := by
  simp [segmentPrecedes]

theorem not_segmentPrecedes_self (a : String) : ¬segmentPrecedes a a = true := by
  simp [segmentPrecedes_iff]

theorem segmentPrecedes_trans {a b c : String} (hab : segmentPrecedes a b = true)
    (hbc : segmentPrecedes b c = true) : segmentPrecedes a c = true := by
  rw [segmentPrecedes_iff] at *
  rcases hab with hab | ⟨hab, hlt⟩ <;> rcases hbc with hbc | ⟨hbc, hlt'⟩
  · exact .inl (by omega)
  · exact .inl (by omega)
  · exact .inl (by omega)
  · exact .inr ⟨by omega, String.lt_trans hlt hlt'⟩

theorem segmentPrecedes_of_not {a b : String} (hne : a ≠ b) (h : ¬segmentPrecedes a b = true) :
    segmentPrecedes b a = true := by
  rw [segmentPrecedes_iff] at *
  rcases Nat.lt_trichotomy (SegmentKind.ofSegment a).rank (SegmentKind.ofSegment b).rank with
    hr | hr | hr
  · exact absurd (.inl hr) h
  · refine .inr ⟨hr.symm, Std.lt_of_le_of_ne (String.not_lt.mp fun hlt => ?_) (Ne.symm hne)⟩
    exact h (.inr ⟨hr, hlt⟩)
  · exact .inl hr

namespace RouteTrie

variable {V : Type}

/-- Siblings stand in their order, at every node. -/
inductive Ordered : RouteTrie V → Prop
  | node {t : RouteTrie V} :
      t.children.Pairwise (fun a b => segmentPrecedes a.segment b.segment = true) →
      (∀ c ∈ t.children, Ordered c) → Ordered t

theorem Ordered.siblings {t : RouteTrie V} (h : t.Ordered) :
    t.children.Pairwise (fun a b => segmentPrecedes a.segment b.segment = true) := by
  cases h with
  | node hs _ => exact hs

theorem Ordered.child {t c : RouteTrie V} (h : t.Ordered) (hc : c ∈ t.children) : c.Ordered := by
  cases h with
  | node _ ht => exact ht c hc

theorem ordered_leaf (s : String) : (leaf s : RouteTrie V).Ordered :=
  .node .nil fun _ hc => absurd hc List.not_mem_nil

/-! ## Reading by address -/

/-- The child with a given segment. -/
def child? (t : RouteTrie V) (s : String) : Option (RouteTrie V) :=
  t.children.find? fun c => c.segment = s

/-- The node with a given address. -/
def node? : RouteTrie V → List String → Option (RouteTrie V)
  | t, [] => some t
  | t, s :: p => (t.child? s).bind fun c => c.node? p

/-- What a trie has for a method at an address. -/
def handler? (t : RouteTrie V) (p : List String) (method : String) : Option V :=
  (t.node? p).bind fun n => n.handlers.get? method

@[simp] theorem node?_nil (t : RouteTrie V) : t.node? [] = some t := rfl

theorem node?_cons (t : RouteTrie V) (s : String) (p : List String) :
    t.node? (s :: p) = (t.child? s).bind fun c => c.node? p := rfl

@[simp] theorem child?_leaf (s s' : String) : (leaf s : RouteTrie V).child? s' = none := rfl

theorem handler?_cons (t : RouteTrie V) (s : String) (p : List String) (method : String) :
    t.handler? (s :: p) method = (t.child? s).bind fun c => c.handler? p method := by
  rw [handler?, node?_cons, Option.bind_assoc]
  rfl

theorem isSome_node?_leaf (s : String) (p : List String) :
    ((leaf s : RouteTrie V).node? p).isSome ↔ p = [] := by
  cases p <;> simp [node?_cons]

theorem handler?_leaf (s : String) (p : List String) (method : String) :
    (leaf s : RouteTrie V).handler? p method = none := by
  cases p with
  | nil => rfl
  | cons s' p => simp [handler?, node?_cons]

theorem segment_of_child? {t c : RouteTrie V} {s : String} (h : t.child? s = some c) :
    c.segment = s := by
  simpa using List.find?_some h

theorem mem_of_child? {t c : RouteTrie V} {s : String} (h : t.child? s = some c) :
    c ∈ t.children :=
  List.mem_of_find?_eq_some h

/-- Among siblings in their order, a child is the one that its text finds. -/
theorem Ordered.child?_segment {t c : RouteTrie V} (h : t.Ordered) (hc : c ∈ t.children) :
    t.child? c.segment = some c := by
  have hfind : ∀ cs : List (RouteTrie V),
      cs.Pairwise (fun a b => segmentPrecedes a.segment b.segment = true) → c ∈ cs →
        cs.find? (fun c' => c'.segment = c.segment) = some c := by
    intro cs hcs hc
    induction cs with
    | nil => cases hc
    | cons d cs ih =>
      obtain ⟨hd, hcs⟩ := List.pairwise_cons.mp hcs
      rcases List.mem_cons.mp hc with rfl | hc
      · simp
      · have hne : d.segment ≠ c.segment := fun he =>
          not_segmentPrecedes_self c.segment (he ▸ hd c hc)
        rw [List.find?_cons_of_neg (by simpa using hne)]
        exact ih hcs hc
  exact hfind t.children h.siblings hc

/-! ## Changing one child -/

section ChangeChild

variable {s : String} {f : RouteTrie V → RouteTrie V}

theorem mem_changeChild {cs : List (RouteTrie V)} {c : RouteTrie V}
    (h : c ∈ changeChild s f cs) :
    c ∈ cs ∨ ∃ d, (d = leaf s ∨ d ∈ cs) ∧ d.segment = s ∧ c = f d := by
  induction cs with
  | nil => exact .inr ⟨leaf s, .inl rfl, rfl, List.mem_singleton.mp h⟩
  | cons d cs ih =>
    rw [changeChild] at h
    split at h
    · rename_i hs
      rcases List.mem_cons.mp h with rfl | h
      · exact .inr ⟨d, .inr List.mem_cons_self, hs, rfl⟩
      · exact .inl (List.mem_cons_of_mem d h)
    · split at h
      · rcases List.mem_cons.mp h with rfl | h
        · exact .inr ⟨leaf s, .inl rfl, rfl, rfl⟩
        · exact .inl h
      · rcases List.mem_cons.mp h with rfl | h
        · exact .inl List.mem_cons_self
        · rcases ih h with h | ⟨d', hd' | hd', hs, rfl⟩
          · exact .inl (List.mem_cons_of_mem d h)
          · exact .inr ⟨d', .inl hd', hs, rfl⟩
          · exact .inr ⟨d', .inr (List.mem_cons_of_mem d hd'), hs, rfl⟩

variable (hf : ∀ c, (f c).segment = c.segment)

include hf

theorem pairwise_changeChild {cs : List (RouteTrie V)}
    (h : cs.Pairwise fun a b => segmentPrecedes a.segment b.segment = true) :
    (changeChild s f cs).Pairwise fun a b => segmentPrecedes a.segment b.segment = true := by
  induction cs with
  | nil => exact List.pairwise_singleton _ _
  | cons d cs ih =>
    obtain ⟨hd, hcs⟩ := List.pairwise_cons.mp h
    rw [changeChild]
    split
    · exact List.pairwise_cons.mpr ⟨fun c hc => (hf d).symm ▸ hd c hc, hcs⟩
    · rename_i hne
      split
      · rename_i hlt
        refine List.pairwise_cons.mpr ⟨fun c hc => ?_, h⟩
        -- The new child stands before the first sibling it precedes, and so before all after it.
        rw [hf, leaf, segment]
        rcases List.mem_cons.mp hc with rfl | hc
        · exact hlt
        · exact segmentPrecedes_trans hlt (hd c hc)
      · rename_i hnlt
        refine List.pairwise_cons.mpr ⟨fun c hc => ?_, ih hcs⟩
        rcases mem_changeChild hc with hc | ⟨d', -, hs, rfl⟩
        · exact hd c hc
        · rw [hf, hs]
          exact segmentPrecedes_of_not (Ne.symm hne) hnlt

/-- The child of the changed segment is made from the one that was there, or from a new leaf; the
others are found as before. -/
theorem find?_changeChild {cs : List (RouteTrie V)}
    (h : cs.Pairwise fun a b => segmentPrecedes a.segment b.segment = true) (s' : String) :
    (changeChild s f cs).find? (fun c => c.segment = s') =
      if s' = s then some (f ((cs.find? fun c => c.segment = s).getD (leaf s)))
      else cs.find? fun c => c.segment = s' := by
  have hleaf : (f (leaf s)).segment = s := hf (leaf s)
  induction cs with
  | nil =>
    by_cases hs' : s' = s
    · simp [changeChild, hleaf, hs']
    · simp [changeChild, hleaf, hs', Ne.symm hs']
  | cons d cs ih =>
    obtain ⟨hd, hcs⟩ := List.pairwise_cons.mp h
    rw [changeChild]
    split
    · rename_i hs
      by_cases hs' : s' = s
      · simp [hf, hs, hs']
      · simp [hf, hs, hs', Ne.symm hs']
    · rename_i hne
      split
      · rename_i hlt
        by_cases hs' : s' = s
        · -- A later sibling with the text would stand after itself.
          have hout : ∀ c ∈ cs, c.segment ≠ s := fun c hc he =>
            not_segmentPrecedes_self s (segmentPrecedes_trans hlt (he ▸ hd c hc))
          have hnone : cs.find? (fun c => decide (c.segment = s)) = none :=
            List.find?_eq_none.mpr fun c hc => by simpa using hout c hc
          simp [hleaf, hs', hne, hnone]
        · simp [hleaf, hs', Ne.symm hs']
      · by_cases hd' : d.segment = s'
        · have hs' : s' ≠ s := fun he => hne (hd'.trans he)
          simp [hd', hs']
        · simp [hd', hne, ih hcs]

end ChangeChild

/-! ## Writing at an address -/

@[simp] theorem segment_putAt (p : List String) (method : String) (v : V) (t : RouteTrie V) :
    (t.putAt p method v).segment = t.segment := by
  cases t
  cases p <;> rfl

@[simp] theorem children_putAt_cons (s : String) (p : List String) (method : String) (v : V)
    (t : RouteTrie V) :
    (t.putAt (s :: p) method v).children = changeChild s (putAt p method v) t.children := by
  cases t
  rfl

@[simp] theorem children_putAt_nil (method : String) (v : V) (t : RouteTrie V) :
    (t.putAt [] method v).children = t.children := by
  cases t
  rfl

@[simp] theorem handlers_putAt_cons (s : String) (p : List String) (method : String) (v : V)
    (t : RouteTrie V) : (t.putAt (s :: p) method v).handlers = t.handlers := by
  cases t
  rfl

@[simp] theorem handlers_putAt_nil (method : String) (v : V) (t : RouteTrie V) :
    (t.putAt [] method v).handlers = t.handlers.insert method v := by
  cases t
  rfl

theorem Ordered.putAt {p : List String} {method : String} {v : V} {t : RouteTrie V}
    (h : t.Ordered) : (t.putAt p method v).Ordered := by
  induction p generalizing t with
  | nil =>
    refine .node ?_ ?_ <;> rw [children_putAt_nil]
    · exact h.siblings
    · exact fun c hc => h.child hc
  | cons s p ih =>
    refine .node ?_ ?_ <;> rw [children_putAt_cons]
    · exact pairwise_changeChild (segment_putAt p method v) h.siblings
    · intro c hc
      rcases mem_changeChild hc with hc | ⟨d, rfl | hd, -, rfl⟩
      · exact h.child hc
      · exact ih (ordered_leaf s)
      · exact ih (h.child hd)

theorem child?_putAt_cons {t : RouteTrie V} (h : t.Ordered) (s s' : String) (p : List String)
    (method : String) (v : V) :
    (t.putAt (s :: p) method v).child? s' =
      if s' = s then some (((t.child? s).getD (leaf s)).putAt p method v) else t.child? s' := by
  unfold child?
  rw [children_putAt_cons]
  exact find?_changeChild (segment_putAt p method v) h.siblings s'

theorem Ordered.getD_child? {t : RouteTrie V} (h : t.Ordered) (s : String) :
    ((t.child? s).getD (leaf s)).Ordered := by
  cases hc : t.child? s with
  | none => exact ordered_leaf s
  | some c => exact h.child (mem_of_child? hc)

/-- **One method at one address changes, and nothing else.** -/
theorem handler?_putAt {t : RouteTrie V} (h : t.Ordered) (a p : List String) (m m' : String)
    (v : V) :
    (t.putAt a m v).handler? p m' = if p = a ∧ m' = m then some v else t.handler? p m' := by
  induction a generalizing t p with
  | nil =>
    cases p with
    | nil => simp [handler?, SortedMap.get?_insert]
    | cons s' p => simp [handler?, node?_cons, child?]
  | cons s a ih =>
    cases p with
    | nil => simp [handler?]
    | cons s' p =>
      rw [handler?_cons, handler?_cons, child?_putAt_cons h]
      by_cases hs : s' = s
      · subst hs
        rw [if_pos rfl, Option.bind_some, ih (h.getD_child? s')]
        -- A child that was missing starts as a leaf, which has as little as no child at all.
        cases t.child? s' <;> simp [handler?_leaf]
      · simp [hs]

/-- Nodes are made for every beginning of the address, and no other. -/
theorem isSome_node?_putAt {t : RouteTrie V} (h : t.Ordered) (a p : List String) (m : String)
    (v : V) : ((t.putAt a m v).node? p).isSome ↔ (t.node? p).isSome ∨ p <+: a := by
  induction a generalizing t p with
  | nil =>
    cases p with
    | nil => simp
    | cons s' p => simp [node?_cons, child?]
  | cons s a ih =>
    cases p with
    | nil => simp
    | cons s' p =>
      rw [node?_cons, node?_cons, child?_putAt_cons h, List.cons_prefix_cons]
      by_cases hs : s' = s
      · subst hs
        rw [if_pos rfl, Option.bind_some, ih (h.getD_child? s')]
        cases t.child? s' with
        | none => simp [isSome_node?_leaf]; rintro rfl; exact List.nil_prefix
        | some c => simp
      · simp [hs]

/-! ## Many entries -/

theorem ordered_empty : (empty : RouteTrie V).Ordered := ordered_leaf ""

/-- The trie that entries fill one after the other, each with its segments and a method. -/
def putAll (es : List (List String × String × V)) : RouteTrie V :=
  es.foldl (fun t (segs, method, v) => t.put segs method v) .empty

theorem putAll_concat (es : List (List String × String × V)) (segs : List String)
    (method : String) (v : V) :
    putAll (es ++ [(segs, method, v)]) = (putAll es).putAt (address segs) method v := by
  rw [putAll, List.foldl_append]
  rfl

theorem ordered_putAll (es : List (List String × String × V)) : (putAll es).Ordered := by
  induction es using List.reverseRecOn with
  | nil => exact ordered_empty
  | append_singleton es e ih =>
    obtain ⟨segs, method, v⟩ := e
    rw [putAll_concat]
    exact ih.putAt

theorem segment_putAll (es : List (List String × String × V)) : (putAll es).segment = "" := by
  induction es using List.reverseRecOn with
  | nil => rfl
  | append_singleton es e ih =>
    obtain ⟨segs, method, v⟩ := e
    rw [putAll_concat, segment_putAt, ih]

/-- The last entry at an address is the one that stays. -/
theorem handler?_putAll (es : List (List String × String × V)) (p : List String)
    (method : String) :
    (putAll es).handler? p method =
      (es.reverse.find? fun e => address e.1 = p ∧ e.2.1 = method).map fun e => e.2.2 := by
  induction es using List.reverseRecOn with
  | nil => exact handler?_leaf "" p method
  | append_singleton es e ih =>
    obtain ⟨segs, m, v⟩ := e
    rw [putAll_concat, handler?_putAt (ordered_putAll es), List.reverse_concat, ih]
    by_cases h : p = address segs ∧ method = m
    · obtain ⟨rfl, rfl⟩ := h
      simp
    · have hne : ¬(address segs = p ∧ m = method) := fun he => h ⟨he.1.symm, he.2.symm⟩
      rw [if_neg h, List.find?_cons_of_neg (by simpa using hne)]

theorem isSome_node?_putAll (es : List (List String × String × V)) (p : List String) :
    ((putAll es).node? p).isSome ↔ p = [] ∨ ∃ e ∈ es, p <+: address e.1 := by
  induction es using List.reverseRecOn with
  | nil => simpa [putAll, empty] using isSome_node?_leaf "" p
  | append_singleton es e ih =>
    obtain ⟨segs, m, v⟩ := e
    rw [putAll_concat, isSome_node?_putAt (ordered_putAll es), ih]
    simp [or_assoc, or_and_right, exists_or]

end RouteTrie

end RouteAtlas
