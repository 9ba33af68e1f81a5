import Mathlib.Data.List.Nodup
import RouteAtlas.Proofs.Route.Termination

/-!
# Which chains are read to their ends

The walk has two rules for leaving a visit unread: a file, scope and base is read once, and a mount
that leads back onto its own chain is not followed.  Each is harmless alone.  Together they are
not: of two chains that meet in one reading, only the one that arrives first goes on, and what
closes a cycle for that one is lost for the other.  `order_of_names_loses_a_route` is the
smallest case, three routers of which two mount the third.

What is true is stated without the queue.  The visits read are *the* list that consists of the
first arrivals among the seeds and the children of the list itself (`ReadingOrder`, unique by
`ReadingOrder.unique`), and **a route graph holds exactly what is served at the ends of the
chains that are followed**, where a mount is followed if it is off the chain of the first visit
that arrived at its reading (`Followed`).
-/

set_option autoImplicit false

namespace RouteAtlas.Traversal

/-! ## First arrivals -/

/-- The first visit of each reading. -/
def firstArrivals : List Visit → List Visit
  | [] => []
  | v :: vs => v :: (firstArrivals vs).filter fun u => u.reading ≠ v.reading

theorem mem_of_mem_firstArrivals {vs : List Visit} {v : Visit} (h : v ∈ firstArrivals vs) :
    v ∈ vs := by
  induction vs with
  | nil => exact h
  | cons u vs ih =>
    rcases List.mem_cons.mp h with rfl | h
    · exact List.mem_cons_self
    · exact List.mem_cons_of_mem u (ih (List.mem_filter.mp h).1)

theorem exists_mem_firstArrivals {vs : List Visit} {v : Visit} (h : v ∈ vs) :
    ∃ u ∈ firstArrivals vs, u.reading = v.reading := by
  induction vs with
  | nil => simp at h
  | cons w vs ih =>
    by_cases hr : w.reading = v.reading
    · exact ⟨w, List.mem_cons_self, hr⟩
    · rcases List.mem_cons.mp h with rfl | h
      · exact absurd rfl hr
      · obtain ⟨u, hu, hur⟩ := ih h
        refine ⟨u, List.mem_cons_of_mem w (List.mem_filter.mpr ⟨hu, ?_⟩), hur⟩
        rw [hur]
        simpa using Ne.symm hr

theorem nodup_map_reading_firstArrivals (vs : List Visit) :
    ((firstArrivals vs).map Visit.reading).Nodup := by
  induction vs with
  | nil => exact .nil
  | cons v vs ih =>
    rw [firstArrivals, List.map_cons, List.nodup_cons]
    refine ⟨fun hm => ?_, ih.sublist (List.filter_sublist.map _)⟩
    obtain ⟨u, hu, hr⟩ := List.mem_map.mp hm
    exact absurd hr (by simpa using (List.mem_filter.mp hu).2)

theorem eq_of_mem_firstArrivals {vs : List Visit} {u v : Visit} (hu : u ∈ firstArrivals vs)
    (hv : v ∈ firstArrivals vs) (hr : u.reading = v.reading) : u = v :=
  List.inj_on_of_nodup_map (nodup_map_reading_firstArrivals vs) hu hv hr

theorem firstArrivals_append (us vs : List Visit) :
    firstArrivals (us ++ vs) =
      firstArrivals us ++ (firstArrivals vs).filter fun v => v.reading ∉ us.map Visit.reading := by
  induction us with
  | nil => simp [firstArrivals]
  | cons u us ih =>
    simp only [List.cons_append, firstArrivals, ih, List.filter_append, List.filter_filter]
    congr 3
    funext v
    simp

/-! ## The order in which the walk reads -/

/-- What arrives once some visits are read: the first of each reading among the seeds, followed by
the visits that those lead to. -/
def arrivals (files : Files) (vs : List Visit) : List Visit :=
  firstArrivals (seeds files ++ vs.flatMap (·.children files))

/-- The list of visits that is its own account: reading it makes it arrive. -/
def ReadingOrder (files : Files) (order : List Visit) : Prop := order = arrivals files order

theorem ReadingOrder.mem_arrivals_iff {files : Files} {order : List Visit}
    (h : ReadingOrder files order) {v : Visit} : v ∈ arrivals files order ↔ v ∈ order :=
  iff_of_eq (congrArg (v ∈ ·) (Eq.symm h))

/-- What a run to the end reads, from any walk: of the queue and of all that follows from it, the
first arrivals that were not seen before. -/
theorem Walk.log_eq_firstArrivals {files : Files} {n : Nat} {w : Walk}
    (hend : (run files n w).queue = []) :
    log files n w =
      (firstArrivals (w.queue ++ (log files n w).flatMap (·.children files))).filter
        fun v => v.reading ∉ w.seen := by
  induction n generalizing w with
  | zero =>
    have hq : w.queue = [] := hend
    simp [log, hq, firstArrivals]
  | succ n ih =>
    cases hq : w.queue with
    | nil => simp [log_of_nil hq, firstArrivals]
    | cons v rest =>
      rw [run_succ_of_cons hq] at hend
      have hrec := ih hend
      by_cases hs : v.reading ∈ w.seen
      · rw [log_of_seen hq hs]
        rw [step_of_seen hq hs] at hrec ⊢
        simp only at hrec
        -- `v` is filtered out, and no later visit with its reading was left to be passed over.
        have hdrop : ∀ u : Visit,
            (decide (u.reading ∉ w.seen) && decide (u.reading ≠ v.reading)) =
              decide (u.reading ∉ w.seen) := by
          intro u
          by_cases hu : u.reading ∈ w.seen
          · simp [hu]
          · have hne : u.reading ≠ v.reading := fun h => hu (h ▸ hs)
            simp [hu, hne]
        simp only [List.cons_append, firstArrivals, List.filter_cons, hs, not_true_eq_false,
          decide_false, Bool.false_eq_true, if_false, List.filter_filter, hdrop]
        exact hrec
      · rw [log_of_fresh hq hs]
        rw [step_of_fresh hq hs] at hrec ⊢
        simp only [List.mem_cons, not_or] at hrec
        simp only [List.cons_append, List.flatMap_cons, firstArrivals, List.filter_cons, hs,
          not_false_eq_true, decide_true, if_true, List.filter_filter]
        congr 1
        rw [← List.append_assoc]
        refine hrec.trans (List.filter_congr fun u _ => ?_)
        by_cases hu : u.reading = v.reading <;> simp [hu]

theorem readingOrder_visits {files : Files} (hk : KeyedByPath files) :
    ReadingOrder files (visits files) := by
  have h := Walk.log_eq_firstArrivals (queue_eq_nil_of_keyedByPath hk)
  simpa [ReadingOrder, arrivals, visits, Walk.start] using h

/-! ## There is one such order

The equation is circular, so it could have solutions that hold themselves up.  It has not: a visit
that owes its place to a later one has a longer chain than that one, and chains cannot grow
backwards for ever. -/

theorem eq_nil_of_children_of_members {files : Files} {vs : List Visit}
    (h : ∀ u ∈ vs, ∃ w ∈ vs, u ∈ w.children files) : vs = [] := by
  have hlong : ∀ n, ∀ u ∈ vs, n ≤ u.chain.length := by
    intro n
    induction n with
    | zero => exact fun u _ => Nat.zero_le _
    | succ n ih =>
      intro u hu
      obtain ⟨w, hw, hc⟩ := h u hu
      exact Nat.lt_of_le_of_lt (ih w hw) (length_chain_of_mem_children hc)
  refine List.eq_nil_iff_forall_not_mem.mpr fun u hu => ?_
  exact Nat.lt_irrefl _ (hlong (u.chain.length + 1) u hu)

/-- What a reading order owes to its first `n` visits comes first; the rest is owed to others. -/
theorem ReadingOrder.split {files : Files} {order : List Visit} (h : ReadingOrder files order)
    (n : Nat) :
    ∃ rest, order = arrivals files (order.take n) ++ rest ∧
      ∀ u ∈ rest, ∃ w ∈ order.drop n, u ∈ w.children files := by
  have hsplit : seeds files ++ order.flatMap (·.children files) =
      (seeds files ++ (order.take n).flatMap (·.children files)) ++
        (order.drop n).flatMap (·.children files) := by
    rw [List.append_assoc, ← List.flatMap_append, List.take_append_drop]
  refine ⟨_, h.trans (by rw [arrivals, hsplit, firstArrivals_append]; rfl), fun u hu => ?_⟩
  exact List.mem_flatMap.mp (mem_of_mem_firstArrivals (List.mem_filter.mp hu).1)

/-- If `n` visits account for no more than `n`, they account for all. -/
theorem ReadingOrder.eq_firstArrivals_take {files : Files} {order : List Visit}
    (h : ReadingOrder files order) {n : Nat}
    (hn : (arrivals files (order.take n)).length ≤ n) :
    order = arrivals files (order.take n) := by
  obtain ⟨rest, horder, hrest⟩ := h.split n
  have hdrop : order.drop (arrivals files (order.take n)).length = rest := by
    have hcut := congrArg (List.drop (arrivals files (order.take n)).length) horder
    rwa [List.drop_left] at hcut
  have hnil : rest = [] := by
    have hown : ∀ u ∈ rest, ∃ w ∈ rest, u ∈ w.children files := by
      intro u hu
      obtain ⟨w, hw, hc⟩ := hrest u hu
      exact ⟨w, hdrop ▸ List.drop_subset_drop_left order hn hw, hc⟩
    exact eq_nil_of_children_of_members hown
  rw [hnil, List.append_nil] at horder
  exact horder

theorem ReadingOrder.unique {files : Files} {order order' : List Visit}
    (h : ReadingOrder files order) (h' : ReadingOrder files order') : order = order' := by
  have htake : ∀ n, order.take n = order'.take n := by
    intro n
    induction n with
    | zero => rfl
    | succ n ih =>
      obtain ⟨rest, horder, -⟩ := h.split n
      obtain ⟨rest', horder', -⟩ := h'.split n
      rw [← ih] at horder'
      -- Either the first `n` visits are all there are, or they say what the next one is.
      by_cases hn : (arrivals files (order.take n)).length ≤ n
      · have heq := h.eq_firstArrivals_take hn
        have heq' := h'.eq_firstArrivals_take (n := n) (by rwa [← ih])
        rw [heq, heq', ih]
      · rw [horder, horder', List.take_append_of_le_length (by omega),
          List.take_append_of_le_length (by omega)]
  have hall := htake (order.length + order'.length)
  rwa [List.take_of_length_le (by omega), List.take_of_length_le (by omega)] at hall

/-! ## Chains that are followed -/

/-- A chain of mounts that is followed to its end, given the order of reading: every mount on it
also keeps off the chain of the visit that was read for the one it is met by. -/
inductive Followed (files : Files) (order : List Visit) : Visit → Prop
  | seed {v : Visit} : v ∈ seeds files → Followed files order v
  | mount {v : Visit} {site : String × Scope} {base : String} :
      Followed files order v → Mounts files v site base → site ∉ v.trail →
      (∀ u ∈ order, u.reading = v.reading → site ∉ u.trail) →
      Followed files order (v.next site base)

theorem Followed.mountChain {files : Files} {order : List Visit} {v : Visit}
    (h : Followed files order v) : MountChain files v := by
  induction h with
  | seed hs => exact .of_mem_seeds hs
  | mount _ hm hn _ ih => exact .mount ih hm hn

theorem reading_eq_iff {u v : Visit} :
    u.reading = v.reading ↔ u.file = v.file ∧ u.base = v.base ∧ u.scope = v.scope := by
  simp only [Visit.reading, Prod.mk.injEq]

theorem mounts_congr {u v : Visit} (h : u.reading = v.reading) (files : Files) :
    u.mounts files = v.mounts files := by
  obtain ⟨hfile, hbase, hscope⟩ := reading_eq_iff.mp h
  unfold Visit.mounts
  rw [hfile, hbase, hscope]

theorem facts_congr {u v : Visit} (h : u.reading = v.reading) (files : Files) :
    u.facts files = v.facts files := by
  obtain ⟨hfile, hbase, hscope⟩ := reading_eq_iff.mp h
  unfold Visit.facts
  rw [hfile, hbase, hscope]

/-- Every visit that is read is followed: the chain that arrived first is its own witness. -/
theorem ReadingOrder.followed {files : Files} {order : List Visit} (h : ReadingOrder files order)
    {v : Visit} (hv : v ∈ order) : Followed files order v := by
  have hfirst : ∀ n, ∀ v ∈ order, v.chain.length < n → Followed files order v := by
    intro n
    induction n with
    | zero => exact fun v _ hn => absurd hn (Nat.not_lt_zero _)
    | succ n ih =>
      intro v hv hn
      have hmem : v ∈ seeds files ++ order.flatMap (·.children files) :=
        mem_of_mem_firstArrivals (h.mem_arrivals_iff.mpr hv)
      rcases List.mem_append.mp hmem with hs | hc
      · exact .seed hs
      · obtain ⟨w, hw, hc⟩ := List.mem_flatMap.mp hc
        have hlt := length_chain_of_mem_children hc
        obtain ⟨site, base, hm, hn', rfl⟩ := mem_children_iff.mp hc
        refine .mount (ih w hw (by omega)) hm hn' fun u hu hr => ?_
        -- Readings are not repeated, so the visit read for `w` is `w`.
        have huw : u = w :=
          eq_of_mem_firstArrivals (h.mem_arrivals_iff.mpr hu) (h.mem_arrivals_iff.mpr hw) hr
        rwa [huw]
  exact hfirst _ v hv (Nat.lt_succ_self _)

/-- A followed chain ends in a reading that is read, perhaps by way of another chain. -/
theorem ReadingOrder.exists_mem_of_followed {files : Files} {order : List Visit}
    (h : ReadingOrder files order) {v : Visit} (hv : Followed files order v) :
    ∃ u ∈ order, u.reading = v.reading := by
  have harrive : ∀ {w : Visit}, w ∈ seeds files ++ order.flatMap (·.children files) →
      ∃ u ∈ order, u.reading = w.reading := by
    intro w hw
    obtain ⟨u, hu, hr⟩ := exists_mem_firstArrivals hw
    exact ⟨u, h.mem_arrivals_iff.mp hu, hr⟩
  induction hv with
  | seed hs => exact harrive (List.mem_append_left _ hs)
  | @mount v site base _ hm _ hoff ih =>
    obtain ⟨u, hu, hr⟩ := ih
    have hmu : Mounts files u site base := by
      rw [← mem_mounts_iff, mounts_congr hr, mem_mounts_iff]
      exact hm
    have hchild : u.next site base ∈ u.children files :=
      mem_children_iff.mpr ⟨site, base, hmu, hoff u hu hr, rfl⟩
    obtain ⟨x, hx, hxr⟩ :=
      harrive (List.mem_append_right _ (List.mem_flatMap.mpr ⟨u, hu, hchild⟩))
    exact ⟨x, hx, hxr⟩

/-! ## What a route graph holds -/

/-- **A route graph holds exactly what is served at the ends of followed chains.**  The order of
reading is no choice: the walk has one, and it is the only one there is. -/
theorem mem_sources_iff_served_by_followed {files : Files} (hk : KeyedByPath files) :
    ∃ order, ReadingOrder files order ∧ (∀ order', ReadingOrder files order' → order' = order) ∧
      ∀ route method source,
        source ∈ (routeGraph files).sources route method ↔
          ∃ v, Followed files order v ∧ Serves files v ⟨route, method, source⟩ := by
  have horder := readingOrder_visits hk
  refine ⟨visits files, horder, fun order' h => h.unique horder, fun route method source => ?_⟩
  rw [mem_sources_routeGraph_iff]
  constructor
  · rintro ⟨v, hv, hs⟩
    exact ⟨v, horder.followed hv, hs⟩
  · rintro ⟨v, hv, hs⟩
    obtain ⟨u, hu, hr⟩ := horder.exists_mem_of_followed hv
    refine ⟨u, hu, mem_facts_iff.mp ?_⟩
    rw [facts_congr hr]
    exact mem_facts_iff.mpr hs

theorem mem_sources_iff_served_by_followed_mutualMounts :
    KeyedByPath (mutualMounts "/r/y.js") ∧
      ∃ order, ReadingOrder (mutualMounts "/r/y.js") order ∧
        (∀ order', ReadingOrder (mutualMounts "/r/y.js") order' → order' = order) ∧
        ∀ route method source,
          source ∈ (routeGraph (mutualMounts "/r/y.js")).sources route method ↔
            ∃ v, Followed (mutualMounts "/r/y.js") order v ∧
              Serves (mutualMounts "/r/y.js") v ⟨route, method, source⟩ :=
  ⟨by decide +kernel, mem_sources_iff_served_by_followed (by decide +kernel)⟩

/-- Not every chain of mounts is read to its end, and which are depends on how files are called.
The caller's chain arrives where the chain of `/r/x.js` has arrived before, so the mount back to
`/r/x.js` is not followed for it either.  Under a name that comes first, the same caller is
served. -/
theorem order_of_names_loses_a_route :
    (∃ v, MountChain (mutualMounts "/r/y.js") v ∧
        Serves (mutualMounts "/r/y.js") v ⟨"/a/b/h", "get", "/r/x.js"⟩) ∧
      "/r/x.js" ∉ (routeGraph (mutualMounts "/r/y.js")).sources "/a/b/h" "get" ∧
      "/r/x.js" ∈ (routeGraph (mutualMounts "/r/d.js")).sources "/a/b/h" "get" := by
  refine ⟨?_, by decide +kernel, by decide +kernel⟩
  let caller : Visit := .seed "/r/y.js" .routers
  let shared : Visit := caller.next ("/r/f.js", .routers) "/a"
  let last : Visit := shared.next ("/r/x.js", .routers) "/a/b"
  have hcaller : MountChain (mutualMounts "/r/y.js") caller := .of_mem_seeds (by decide +kernel)
  have hshared : MountChain (mutualMounts "/r/y.js") shared :=
    hcaller.of_mem_children (by decide +kernel)
  have hlast : MountChain (mutualMounts "/r/y.js") last :=
    hshared.of_mem_children (by decide +kernel)
  exact ⟨last, hlast, mem_facts_iff.mp (by decide +kernel)⟩

end RouteAtlas.Traversal
