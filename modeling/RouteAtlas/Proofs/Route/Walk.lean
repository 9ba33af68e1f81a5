import RouteAtlas.Proofs.Route.MountChain
import RouteAtlas.Proofs.Route.Recording

/-!
# What the walk reads is what it may read

A run of the walk leaves behind the visits it read, in order (`Walk.log`), and its graph is the
facts of those visits and nothing else (`run_graph`).  Everything that can be asked of a route
graph is then a question about which visits were read.

One half of the answer is here, and it needs no bound on the number of steps: whatever is queued
or read ends a chain of mounts (`mountChain_of_mem_log`), so **every fact of a route graph is
served at the end of such a chain** (`served_of_mem_sources`).  The other half, that chains are
read to their ends, is false as it stands; `Proofs/Route/ReadingOrder` says which are.
-/

set_option autoImplicit false

namespace RouteAtlas.Traversal

/-! ## Steps -/

namespace Walk

/-- The walk before its first step. -/
def start (files : Files) : Walk := ⟨seeds files, [], .empty⟩

theorem step_of_seen {files : Files} {w : Walk} {v : Visit} {rest : List Visit}
    (hq : w.queue = v :: rest) (hs : v.reading ∈ w.seen) :
    w.step files = { w with queue := rest } := by
  unfold step
  rw [hq]
  exact if_pos hs

theorem step_of_fresh {files : Files} {w : Walk} {v : Visit} {rest : List Visit}
    (hq : w.queue = v :: rest) (hs : v.reading ∉ w.seen) :
    w.step files =
      ⟨rest ++ v.children files, v.reading :: w.seen, w.graph.recordAll (v.facts files)⟩ := by
  unfold step
  rw [hq]
  exact if_neg hs

theorem run_of_nil {files : Files} {w : Walk} (hq : w.queue = []) (n : Nat) :
    run files n w = w := by
  cases n with
  | zero => rfl
  | succ n => rw [run, hq]; rfl

theorem run_succ_of_cons {files : Files} {w : Walk} {v : Visit} {rest : List Visit}
    (hq : w.queue = v :: rest) (n : Nat) : run files (n + 1) w = run files n (w.step files) := by
  rw [run, hq]
  rfl

/-! ## What a run reads -/

/-- The visit that the next step reads, unless it takes none or passes it over. -/
def next? (w : Walk) : Option Visit :=
  w.queue.head?.filter fun v => !w.seen.contains v.reading

/-- The visits that a run of at most `n` steps reads, in order. -/
def log (files : Files) : Nat → Walk → List Visit
  | 0, _ => []
  | n + 1, w => w.next?.toList ++ log files n (w.step files)

theorem log_of_nil {files : Files} {w : Walk} (hq : w.queue = []) (n : Nat) :
    log files n w = [] := by
  induction n with
  | zero => rfl
  | succ n ih =>
    have hstep : w.step files = w := by
      unfold step
      rw [hq]
    rw [log, hstep, ih, next?, hq]
    rfl

theorem log_of_seen {files : Files} {w : Walk} {v : Visit} {rest : List Visit}
    (hq : w.queue = v :: rest) (hs : v.reading ∈ w.seen) (n : Nat) :
    log files (n + 1) w = log files n (w.step files) := by
  have hnext : w.next? = none := by simp [next?, hq, hs]
  rw [log, hnext]
  rfl

theorem log_of_fresh {files : Files} {w : Walk} {v : Visit} {rest : List Visit}
    (hq : w.queue = v :: rest) (hs : v.reading ∉ w.seen) (n : Nat) :
    log files (n + 1) w = v :: log files n (w.step files) := by
  have hnext : w.next? = some v := by simp [next?, hq, hs]
  rw [log, hnext]
  rfl

/-- The graph of a run is the graph it started with and the facts of what it read. -/
theorem run_graph (files : Files) (n : Nat) (w : Walk) :
    (run files n w).graph = w.graph.recordAll ((log files n w).flatMap (·.facts files)) := by
  induction n generalizing w with
  | zero => rfl
  | succ n ih =>
    cases hq : w.queue with
    | nil => rw [run_of_nil hq, log_of_nil hq]; rfl
    | cons v rest =>
      rw [run_succ_of_cons hq, ih]
      by_cases hs : v.reading ∈ w.seen
      · rw [log_of_seen hq hs, step_of_seen hq hs]
      · rw [log_of_fresh hq hs, step_of_fresh hq hs, List.flatMap_cons]
        simp only [RouteGraph.recordAll, List.foldl_append]

/-- Every queued visit ends a chain of mounts. -/
def Sound (files : Files) (w : Walk) : Prop := ∀ v ∈ w.queue, MountChain files v

theorem sound_start (files : Files) : (start files).Sound files :=
  fun _ hv => .of_mem_seeds hv

theorem Sound.step {files : Files} {w : Walk} (h : w.Sound files) :
    (w.step files).Sound files := by
  cases hq : w.queue with
  | nil => rwa [show w.step files = w by unfold Walk.step; rw [hq]]
  | cons v rest =>
    have hv : MountChain files v := h v (by rw [hq]; exact List.mem_cons_self)
    have hrest : ∀ u ∈ rest, MountChain files u :=
      fun u hu => h u (by rw [hq]; exact List.mem_cons_of_mem v hu)
    by_cases hs : v.reading ∈ w.seen
    · rw [step_of_seen hq hs]
      exact hrest
    · rw [step_of_fresh hq hs]
      intro u hu
      rcases List.mem_append.mp hu with hu | hu
      · exact hrest u hu
      · exact hv.of_mem_children hu

theorem Sound.run {files : Files} {w : Walk} (h : w.Sound files) (n : Nat) :
    (run files n w).Sound files := by
  induction n generalizing w with
  | zero => exact h
  | succ n ih =>
    cases hq : w.queue with
    | nil => rwa [run_of_nil hq]
    | cons v rest =>
      rw [run_succ_of_cons hq]
      exact ih h.step

theorem mountChain_of_mem_log {files : Files} {n : Nat} {w : Walk} (h : w.Sound files) {v : Visit}
    (hv : v ∈ log files n w) : MountChain files v := by
  induction n generalizing w with
  | zero => simp [log] at hv
  | succ n ih =>
    cases hq : w.queue with
    | nil => rw [log_of_nil hq] at hv; simp at hv
    | cons u rest =>
      by_cases hs : u.reading ∈ w.seen
      · rw [log_of_seen hq hs] at hv
        exact ih h.step hv
      · rw [log_of_fresh hq hs] at hv
        rcases List.mem_cons.mp hv with rfl | hv
        · exact h v (by rw [hq]; exact List.mem_cons_self)
        · exact ih h.step hv

end Walk

/-- The visits that the walk reads, in order. -/
def visits (files : Files) : List Visit := Walk.log files (fuel files) (Walk.start files)

theorem mountChain_of_mem_visits {files : Files} {v : Visit} (hv : v ∈ visits files) :
    MountChain files v :=
  Walk.mountChain_of_mem_log (Walk.sound_start files) hv

theorem routeGraph_eq_recordAll (files : Files) :
    routeGraph files = RouteGraph.empty.recordAll ((visits files).flatMap (·.facts files)) :=
  Walk.run_graph files (fuel files) (Walk.start files)

theorem filled_routeGraph (files : Files) : (routeGraph files).Filled := by
  rw [routeGraph_eq_recordAll]
  exact RouteGraph.filled_empty.recordAll _

/-- A route graph holds what is served where a visit was read. -/
theorem mem_sources_routeGraph_iff {files : Files} {route method source : String} :
    source ∈ (routeGraph files).sources route method ↔
      ∃ v ∈ visits files, Serves files v ⟨route, method, source⟩ := by
  rw [routeGraph_eq_recordAll, RouteGraph.mem_sources_recordAll]
  simp only [RouteGraph.not_mem_sources_empty, false_or, List.mem_flatMap, mem_facts_iff]

/-! ## Soundness -/

/-- A chain of mounts passes no file and scope twice. -/
theorem MountChain.nodup_trail {files : Files} {v : Visit} (h : MountChain files v) :
    v.trail.Nodup := by
  induction h with
  | app | router => simp
  | mount _ _ hn ih =>
    rw [Visit.trail_next, List.nodup_append]
    refine ⟨ih, by simp, fun a ha b hb => ?_⟩
    rintro rfl
    exact hn (List.mem_singleton.mp hb ▸ ha)

/-- **Every fact of a route graph is served at the end of a chain of mounts** that starts at `/`
and passes no file and scope twice. -/
theorem served_of_mem_sources {files : Files} {route method source : String}
    (h : source ∈ (routeGraph files).sources route method) :
    ∃ v, MountChain files v ∧ v.trail.Nodup ∧ Serves files v ⟨route, method, source⟩ := by
  obtain ⟨v, hv, hs⟩ := mem_sources_routeGraph_iff.mp h
  have hc := mountChain_of_mem_visits hv
  exact ⟨v, hc, hc.nodup_trail, hs⟩

theorem served_in_mutualMounts :
    "/r/x.js" ∈ (routeGraph (mutualMounts "/r/y.js")).sources "/b/h" "get" ∧
      ∃ v, MountChain (mutualMounts "/r/y.js") v ∧ v.trail.Nodup ∧
        Serves (mutualMounts "/r/y.js") v ⟨"/b/h", "get", "/r/x.js"⟩ :=
  ⟨by decide +kernel, served_of_mem_sources (by decide +kernel)⟩

end RouteAtlas.Traversal
