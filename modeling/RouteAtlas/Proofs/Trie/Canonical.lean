import RouteAtlas.Proofs.Trie.Branch
import RouteAtlas.Proofs.Trie.Store

/-!
# A trie is told by what was written last

Routes are stored one after the other, in any order, over the beginnings they share, some of them
more than once.  None of that can be seen in the trie: **it is determined by the last value of each
method at each address** (`insertAll_canonical`).

Two facts carry this.  A trie whose siblings stand in order is the only one with its nodes and its
handlers (`Ordered.ext_handler?`); the order leaves one place for each sibling, and one sibling for
each text.  And the nodes are the beginnings of the addresses, so the handlers tell them too.

The shape of a node is said for the rows that `preorder` reads out (`WellPlaced`), the contents for
the list of all that is stored (`entries`).
-/

set_option autoImplicit false

namespace RouteAtlas.RouteTrie

variable {V : Type}

/-! ## Filling a trie -/

/-- The trie that routes fill, each stored by `insert`; one without a method ends the filling. -/
def insertAll (es : List (List String × String × V)) : Except InsertError (RouteTrie V) :=
  es.foldlM (fun t (segs, method, v) => t.insert segs method v) .empty

/-- What was written last for a method at an address. -/
def lastWritten (es : List (List String × String × V)) (p : List String) (method : String) :
    Option V :=
  (es.reverse.find? fun e => address e.1 = p ∧ e.2.1 = method).map fun e => e.2.2

theorem insert_eq_ok {method : String} (h : method ≠ "") (t : RouteTrie V) (segs : List String)
    (v : V) : t.insert segs method v = .ok (t.put segs method v) := by
  simp [insert, h]

/-- Where every route has a method, the filling ends well. -/
theorem insertAll_eq_ok {es : List (List String × String × V)} (h : ∀ e ∈ es, e.2.1 ≠ "") :
    insertAll es = .ok (putAll es) := by
  unfold insertAll putAll
  generalize (empty : RouteTrie V) = t
  induction es generalizing t with
  | nil => rfl
  | cons e es ih =>
    obtain ⟨segs, method, v⟩ := e
    rw [List.foldlM_cons, List.foldl_cons]
    dsimp only
    rw [insert_eq_ok (h _ List.mem_cons_self)]
    exact ih (fun e he => h e (List.mem_cons_of_mem _ he)) _

theorem isSome_lastWritten_iff {es : List (List String × String × V)} {p : List String}
    {method : String} :
    (lastWritten es p method).isSome ↔ ∃ e ∈ es, address e.1 = p ∧ e.2.1 = method := by
  simp [lastWritten, List.find?_isSome]

/-! ## The trie with given nodes and handlers -/

/-- A child is known by its text. -/
theorem Ordered.child?_eq_some_iff {t c : RouteTrie V} (h : t.Ordered) {s : String} :
    t.child? s = some c ↔ c ∈ t.children ∧ c.segment = s := by
  constructor
  · exact fun hc => ⟨mem_of_child? hc, segment_of_child? hc⟩
  · rintro ⟨hc, rfl⟩
    exact h.child?_segment hc

/-- **The nodes and the handlers of a trie determine it**, when siblings stand in order. -/
theorem Ordered.ext_handler? {t t' : RouteTrie V} (h : t.Ordered) (h' : t'.Ordered)
    (hs : t.segment = t'.segment) (hnodes : ∀ p, (t.node? p).isSome ↔ (t'.node? p).isSome)
    (hvalues : ∀ p method, t.handler? p method = t'.handler? p method) : t = t' := by
  induction h generalizing t' with
  | @node t hsiblings hchildren ih =>
    have h : t.Ordered := .node hsiblings hchildren
    -- children of one text have the same nodes and handlers, so they are one
    have hsame {c c' : RouteTrie V} (hc : c ∈ t.children) (hc' : c' ∈ t'.children)
        (hcs : c.segment = c'.segment) : c = c' := by
      have hfind := h.child?_segment hc
      have hfind' : t'.child? c.segment = some c' := hcs ▸ h'.child?_segment hc'
      refine ih c hc (h'.child hc') hcs (fun p => ?_) (fun p method => ?_)
      · simpa [node?_cons, hfind, hfind'] using hnodes (c.segment :: p)
      · simpa [handler?_cons, hfind, hfind'] using hvalues (c.segment :: p) method
    have hmem (c : RouteTrie V) : c ∈ t.children ↔ c ∈ t'.children := by
      constructor
      · intro hc
        have hthere : (t'.child? c.segment).isSome := by
          simpa [node?_cons, h.child?_segment hc] using hnodes [c.segment]
        obtain ⟨c', hc'⟩ := Option.isSome_iff_exists.mp hthere
        rw [hsame hc (mem_of_child? hc') (segment_of_child? hc').symm]
        exact mem_of_child? hc'
      · intro hc'
        have hthere : (t.child? c.segment).isSome := by
          simpa [node?_cons, h'.child?_segment hc'] using hnodes [c.segment]
        obtain ⟨d, hd⟩ := Option.isSome_iff_exists.mp hthere
        rw [← hsame (mem_of_child? hd) hc' (segment_of_child? hd)]
        exact mem_of_child? hd
    have hirrefl : Std.Irrefl fun a b : RouteTrie V => segmentPrecedes a.segment b.segment = true :=
      ⟨fun a => not_segmentPrecedes_self a.segment⟩
    have hantisymm :
        Std.Antisymm fun a b : RouteTrie V => segmentPrecedes a.segment b.segment = true :=
      ⟨fun a _ hab hba =>
        absurd (segmentPrecedes_trans hab hba) (not_segmentPrecedes_self a.segment)⟩
    have hcs : t.children = t'.children :=
      List.Pairwise.eq_of_mem_iff hsiblings h'.siblings fun c => hmem c
    have hhs : t.handlers = t'.handlers :=
      SortedMap.ext_get? fun method => by simpa [handler?] using hvalues [] method
    cases t
    cases t'
    simp_all [segment, handlers, children]

/-- Tries filled by routes that were written last alike are the same. -/
theorem putAll_eq_of_lastWritten_eq {es es' : List (List String × String × V)}
    (h : ∀ p method, lastWritten es' p method = lastWritten es p method) :
    putAll es' = putAll es := by
  have hwritten {es es' : List (List String × String × V)}
      (h : ∀ p method, lastWritten es' p method = lastWritten es p method) {p : List String}
      (hp : ∃ e ∈ es, p <+: address e.1) : ∃ e ∈ es', p <+: address e.1 := by
    obtain ⟨e, he, hp⟩ := hp
    have hlast := isSome_lastWritten_iff.mpr ⟨e, he, rfl, rfl⟩
    rw [← h] at hlast
    obtain ⟨e', he', haddress, -⟩ := isSome_lastWritten_iff.mp hlast
    exact ⟨e', he', haddress ▸ hp⟩
  refine (ordered_putAll es').ext_handler? (ordered_putAll es) ?_ (fun p => ?_)
    fun p method => ?_
  · rw [segment_putAll, segment_putAll]
  · rw [isSome_node?_putAll, isSome_node?_putAll]
    exact or_congr_right ⟨hwritten fun p method => (h p method).symm, hwritten h⟩
  · rw [handler?_putAll, handler?_putAll]
    exact h p method

/-! ## The shape of a node -/

/-- The lists of segments that are addresses: no segment is empty, and nothing follows a splat. -/
def IsAddress : List String → Prop
  | [] => True
  | s :: p => s ≠ "" ∧ (SegmentKind.ofSegment s = .splat → p = []) ∧ IsAddress p

theorem isAddress_cutAtSplat {segs : List String} (h : ∀ s ∈ segs, s ≠ "") :
    IsAddress (cutAtSplat segs) := by
  induction segs with
  | nil => trivial
  | cons s segs ih =>
    have hs : s ≠ "" := h s List.mem_cons_self
    rw [cutAtSplat]
    split
    · exact ⟨hs, fun _ => rfl, trivial⟩
    · rename_i hsplat
      exact ⟨hs, fun hk => absurd hk hsplat, ih fun s' hs' => h s' (List.mem_cons_of_mem s hs')⟩

theorem isAddress_address (segs : List String) : IsAddress (address segs) :=
  isAddress_cutAtSplat fun s hs => by simpa using (List.mem_filter.mp hs).2

/-- Every node below the root has a segment, and nothing stands below a splat. -/
inductive Tidy : RouteTrie V → Prop
  | node {t : RouteTrie V} :
      (t.kind = .splat → t.children = []) → (∀ c ∈ t.children, c.segment ≠ "") →
      (∀ c ∈ t.children, Tidy c) → Tidy t

theorem tidy_leaf (s : String) : (leaf s : RouteTrie V).Tidy :=
  .node (fun _ => rfl) (fun _ hc => absurd hc List.not_mem_nil)
    fun _ hc => absurd hc List.not_mem_nil

/-- A splat that is stored at an address ends it, so it gets no child. -/
theorem Tidy.putAt {p : List String} (hp : IsAddress p) {method : String} {v : V}
    {t : RouteTrie V} (hk : t.kind = .splat → p = []) (h : t.Tidy) : (t.putAt p method v).Tidy := by
  induction p generalizing t with
  | nil =>
    cases h with
    | node hsplat hnamed hbelow =>
      refine .node ?_ ?_ ?_ <;> simpa [kind] using ‹_›
  | cons s p ih =>
    obtain ⟨hs, hend, hp⟩ := hp
    have hchild {d : RouteTrie V} (hd : d.Tidy) (hds : d.segment = s) : (d.putAt p method v).Tidy :=
      ih hp (fun hk => hend (hds ▸ hk)) hd
    cases h with
    | node hsplat hnamed hbelow =>
      refine .node (fun hk' => ?_) ?_ ?_
      · simp only [kind, segment_putAt] at hk'
        exact absurd (hk hk') (List.cons_ne_nil s p)
      · intro c hc
        rw [children_putAt_cons] at hc
        rcases mem_changeChild hc with hc | ⟨d, -, hds, rfl⟩
        · exact hnamed c hc
        · rw [segment_putAt, hds]
          exact hs
      · intro c hc
        rw [children_putAt_cons] at hc
        rcases mem_changeChild hc with hc | ⟨d, rfl | hd, hds, rfl⟩
        · exact hbelow c hc
        · exact hchild (tidy_leaf s) hds
        · exact hchild (hbelow d hd) hds

theorem tidy_putAll (es : List (List String × String × V)) : (putAll es).Tidy := by
  induction es using List.reverseRecOn with
  | nil => exact tidy_leaf ""
  | append_singleton es e ih =>
    obtain ⟨segs, method, v⟩ := e
    rw [putAll_concat]
    refine ih.putAt (isAddress_address segs) fun hk => ?_
    rw [kind, segment_putAll] at hk
    cases hk

/-- What is true of a node at a depth.  Its siblings are told apart by kind and text, its kind is
what its text shows, a splat has nothing below, and the root alone has no segment. -/
structure WellPlaced (depth : Nat) (n : RouteTrie V) : Prop where
  siblings : n.children.Pairwise fun a b =>
    a.kind.rank < b.kind.rank ∨ a.kind = b.kind ∧ a.segment < b.segment
  distinct : (n.children.map segment).Nodup
  kind : n.kind =
    if n.segment.toList.head? = some ':' then .param
    else if n.segment.toList.head? = some '*' then .splat
    else .literal
  ends : n.kind = .splat → n.children = []
  named : n.segment = "" ↔ depth = 0

theorem kind_eq_ite (t : RouteTrie V) :
    t.kind =
      if t.segment.toList.head? = some ':' then .param
      else if t.segment.toList.head? = some '*' then .splat
      else .literal := by
  rw [kind, SegmentKind.ofSegment]
  cases t.segment.toList with
  | nil => rfl
  | cons c cs =>
    by_cases hcolon : c = ':'
    · simp [hcolon]
    · by_cases hstar : c = '*' <;> simp [hcolon, hstar]

theorem Ordered.wellPlaced {n : RouteTrie V} (h : n.Ordered) (ht : n.Tidy) {depth : Nat}
    (hdepth : n.segment = "" ↔ depth = 0) : n.WellPlaced depth where
  siblings := h.siblings.imp fun hab => by
    rcases segmentPrecedes_iff.mp hab with hrank | ⟨hrank, hlt⟩
    · exact .inl hrank
    · exact .inr ⟨SegmentKind.rank_injective hrank, hlt⟩
  distinct := List.pairwise_map.mpr <| h.siblings.imp fun {a b} hab => by
    rintro heq
    rw [heq] at hab
    exact not_segmentPrecedes_self b.segment hab
  kind := kind_eq_ite n
  ends := by
    cases ht with
    | node hsplat _ _ => exact hsplat
  named := hdepth

theorem preorderAll_eq_flatMap (depth : Nat) (cs : List (RouteTrie V)) :
    preorderAll depth cs = cs.flatMap (preorder depth) := by
  induction cs with
  | nil => rfl
  | cons c cs ih => rw [preorderAll, List.flatMap_cons, ih]

theorem preorder_eq (depth : Nat) (t : RouteTrie V) :
    t.preorder depth = (depth, t) :: t.children.flatMap (preorder (depth + 1)) := by
  cases t
  rw [preorder, preorderAll_eq_flatMap]
  rfl

/-- Every row of a trie that is read out tells a node in its place. -/
theorem Ordered.wellPlaced_of_mem_preorder {t : RouteTrie V} (h : t.Ordered) (ht : t.Tidy)
    {depth : Nat} (hdepth : t.segment = "" ↔ depth = 0) {row : Nat × RouteTrie V}
    (hrow : row ∈ t.preorder depth) : row.2.WellPlaced row.1 := by
  induction h generalizing depth with
  | @node t hsiblings hchildren ih =>
    rw [preorder_eq] at hrow
    rcases List.mem_cons.mp hrow with rfl | hrow
    · exact Ordered.wellPlaced (.node hsiblings hchildren) ht hdepth
    · obtain ⟨c, hc, hrow⟩ := List.mem_flatMap.mp hrow
      cases ht with
      | node _ hnamed hbelow =>
        exact ih c hc (hbelow c hc) (by simp [hnamed c hc]) hrow

/-! ## What is stored -/

mutual

/-- All that is stored, with addresses: what a node has before what its children have. -/
def entries : RouteTrie V → List (List String × String × V)
  | node _ h cs => h.toList.map (fun (method, v) => ([], method, v)) ++ entriesAll cs

def entriesAll : List (RouteTrie V) → List (List String × String × V)
  | [] => []
  | c :: cs => (entries c).map (fun (p, method, v) => (c.segment :: p, method, v)) ++ entriesAll cs

end

theorem entriesAll_eq_flatMap (cs : List (RouteTrie V)) :
    entriesAll cs =
      cs.flatMap fun c => c.entries.map fun (p, method, v) => (c.segment :: p, method, v) := by
  induction cs with
  | nil => rfl
  | cons c cs ih => rw [entriesAll, List.flatMap_cons, ih]

theorem entries_eq (t : RouteTrie V) :
    t.entries = t.handlers.toList.map (fun (method, v) => ([], method, v)) ++
      t.children.flatMap fun c =>
        c.entries.map fun (p, method, v) => (c.segment :: p, method, v) := by
  cases t
  rw [entries, entriesAll_eq_flatMap]
  rfl

/-- What is listed is what is found. -/
theorem Ordered.mem_entries_iff {t : RouteTrie V} (h : t.Ordered) {p : List String}
    {method : String} {v : V} : (p, method, v) ∈ t.entries ↔ t.handler? p method = some v := by
  induction p generalizing t with
  | nil =>
    rw [entries_eq, handler?, node?_nil, Option.bind_some, ← SortedMap.mem_toList_iff]
    simp
  | cons s p ih =>
    rw [handler?_cons, Option.bind_eq_some_iff, entries_eq]
    simp only [List.mem_append, List.mem_map, List.mem_flatMap, Prod.mk.injEq, List.cons.injEq,
      reduceCtorEq, false_and, and_false, exists_false, false_or, Prod.exists,
      h.child?_eq_some_iff]
    constructor
    · rintro ⟨c, hc, p', m, v', he, ⟨hs, rfl⟩, rfl, rfl⟩
      exact ⟨c, ⟨hc, hs⟩, (ih (h.child hc)).mp he⟩
    · rintro ⟨c, ⟨hc, hs⟩, he⟩
      exact ⟨c, hc, p, method, v, (ih (h.child hc)).mpr he, ⟨hs, rfl⟩, rfl, rfl⟩

/-- No method is listed twice at an address. -/
theorem Ordered.nodup_entries {t : RouteTrie V} (h : t.Ordered) :
    (t.entries.map fun e => (e.1, e.2.1)).Nodup := by
  induction h with
  | @node t hsiblings hchildren ih =>
    rw [entries_eq, List.map_append, List.map_map, List.map_flatMap]
    refine List.nodup_append'.mpr ⟨?_, List.nodup_flatMap.mpr ⟨fun c hc => ?_, ?_⟩, ?_⟩
    · have hkeys : t.handlers.keys.Nodup := t.handlers.pairwise_keys.imp String.ne_of_lt
      have hmap := hkeys.map (f := fun method => (([] : List String), method))
        fun a b hab => (Prod.mk.inj hab).2
      rwa [SortedMap.keys, List.map_map] at hmap
    · have hmap := (ih c hc).map
        (f := fun key : List String × String => (c.segment :: key.1, key.2))
        fun a b hab => by simpa [Prod.ext_iff] using hab
      rw [List.map_map] at hmap ⊢
      exact hmap
    · -- entries of two children differ in their first segment
      refine hsiblings.imp fun {a b} hab key ha hb => ?_
      simp only [List.map_map, List.mem_map, Function.comp_apply] at ha hb
      obtain ⟨_, -, rfl⟩ := ha
      obtain ⟨_, -, hb⟩ := hb
      have hsegment : b.segment = a.segment := (List.cons.inj (Prod.mk.inj hb).1).1
      exact not_segmentPrecedes_self a.segment (hsegment ▸ hab)
    · intro key hhere hbelow
      simp only [List.mem_map, Function.comp_apply] at hhere
      simp only [List.mem_flatMap, List.map_map, List.mem_map, Function.comp_apply] at hbelow
      obtain ⟨_, -, rfl⟩ := hhere
      obtain ⟨c, -, e, -, he⟩ := hbelow
      cases he

/-! ## The canonical form -/

/-- **A trie is its last-written entries in canonical form.**  Whatever routes with methods are
stored, and in whatever order, the result is the one that every sequence with the same last-written
values has.  Its nodes stand where they should at every depth, and what it stores is what was
written last, each once. -/
theorem insertAll_canonical (es : List (List String × String × V)) (h : ∀ e ∈ es, e.2.1 ≠ "") :
    ∃ t, insertAll es = .ok t ∧
      (∀ es' : List (List String × String × V), (∀ e ∈ es', e.2.1 ≠ "") →
        (∀ p method, lastWritten es' p method = lastWritten es p method) →
          insertAll es' = .ok t) ∧
      (∀ depth n, (depth, n) ∈ t.preorder 0 → n.WellPlaced depth) ∧
      (∀ p method v, (p, method, v) ∈ t.entries ↔ lastWritten es p method = some v) ∧
      (t.entries.map fun e => (e.1, e.2.1)).Nodup := by
  refine ⟨putAll es, insertAll_eq_ok h, fun es' h' hlast => ?_, fun depth n hn => ?_,
    fun p method v => ?_, (ordered_putAll es).nodup_entries⟩
  · rw [insertAll_eq_ok h', putAll_eq_of_lastWritten_eq hlast]
  · exact (ordered_putAll es).wellPlaced_of_mem_preorder (tidy_putAll es)
      (by simp [segment_putAll]) hn
  · rw [(ordered_putAll es).mem_entries_iff, handler?_putAll]
    rfl

/-- What is overwritten, and the order, leave no trace: a route stored twice, another that goes on
after its splat, and an empty segment. -/
theorem insertAll_canonical_rewritten :
    let es : List (List String × String × Nat) :=
      [(["users", ":id"], "get", 1), (["static", "*", "x"], "get", 2), (["users", ":id"], "get", 3)]
    let es' : List (List String × String × Nat) :=
      [(["static", "*"], "get", 2), (["users", "", ":id"], "get", 3)]
    (∀ e ∈ es, e.2.1 ≠ "") ∧ (∀ e ∈ es', e.2.1 ≠ "") ∧
      ∃ t, insertAll es = .ok t ∧ insertAll es' = .ok t ∧
        (["users", ":id"], "get", 3) ∈ t.entries ∧ (["users", ":id"], "get", 1) ∉ t.entries := by
  intro es es'
  have h : ∀ e ∈ es, e.2.1 ≠ "" := by decide
  have h' : ∀ e ∈ es', e.2.1 ≠ "" := by decide
  obtain ⟨t, ht, hsame, -, hentries, -⟩ := insertAll_canonical es h
  have haddress : address ["users", "", ":id"] = ["users", ":id"] := by decide
  have haddress' : address ["users", ":id"] = ["users", ":id"] := by decide
  have hstatic : address ["static", "*", "x"] = ["static", "*"] := by decide
  have hstatic' : address ["static", "*"] = ["static", "*"] := by decide
  refine ⟨h, h', t, ht, hsame es' h' fun p method => ?_, ?_, ?_⟩
  · simp only [lastWritten, es, es', List.reverse_cons, List.reverse_nil, List.nil_append,
      List.cons_append, List.find?_cons, List.find?_nil, haddress, haddress', hstatic, hstatic']
    by_cases husers : ["users", ":id"] = p ∧ "get" = method
    · rw [decide_eq_true husers]
      rfl
    · rw [decide_eq_false husers]
      by_cases hfiles : ["static", "*"] = p ∧ "get" = method
      · rw [decide_eq_true hfiles]
        rfl
      · rw [decide_eq_false hfiles]
  · rw [hentries]
    decide
  · rw [hentries]
    decide

end RouteAtlas.RouteTrie
