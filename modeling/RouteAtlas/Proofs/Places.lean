/-!
# Lists read off in the order of places

A place in a tree, or in a list of trees, is the list of the numbers of the steps that lead there,
and places are ordered as their numbers are, the first difference deciding: a node stands ahead of
what is in it, and what is in one child ahead of what is in the next.  A list is read off in order
when it gives what stands at the places, one entry for each, from the first place to the last.
-/

set_option autoImplicit false

namespace RouteAtlas

variable {α β : Type}

/-- One place is ahead of another in the text. -/
def Ahead (place place' : List Nat) : Prop :=
  List.Lex (· < ·) place place'

/-- The list has an entry for each place that something is at, in the order of the places. -/
def ListedInOrder (xs : List α) (At : α → List Nat → Prop) : Prop :=
  ∃ entries : List (List Nat × α), entries.map Prod.snd = xs ∧
    (entries.Pairwise fun a b => Ahead a.1 b.1) ∧ ∀ place x, (place, x) ∈ entries ↔ At x place

namespace ListedInOrder

variable {xs xs' : List α} {At At' : α → List Nat → Prop}

theorem congr (h : ListedInOrder xs At) (hiff : ∀ x place, At x place ↔ At' x place) :
    ListedInOrder xs At' := by
  obtain ⟨entries, hxs, hsorted, hmem⟩ := h
  exact ⟨entries, hxs, hsorted, fun place x => (hmem place x).trans (hiff x place)⟩

/-- Something at the place itself, or nothing. -/
theorem here (o : Option α) : ListedInOrder o.toList fun x place => place = [] ∧ o = some x := by
  refine ⟨o.toList.map ([], ·), ?_, ?_, fun place x => ?_⟩
  · cases o <;> rfl
  · cases o <;> simp
  · cases o <;> simp [eq_comm]

theorem append (h : ListedInOrder xs At) (h' : ListedInOrder xs' At')
    (hahead : ∀ x place x' place', At x place → At' x' place' → Ahead place place') :
    ListedInOrder (xs ++ xs') fun x place => At x place ∨ At' x place := by
  obtain ⟨entries, hxs, hsorted, hmem⟩ := h
  obtain ⟨entries', hxs', hsorted', hmem'⟩ := h'
  refine ⟨entries ++ entries', by rw [List.map_append, hxs, hxs'], ?_, fun place x => ?_⟩
  · refine List.pairwise_append.mpr ⟨hsorted, hsorted', ?_⟩
    rintro ⟨place, x⟩ ha ⟨place', x'⟩ hb
    exact hahead x place x' place' ((hmem place x).mp ha) ((hmem' place' x').mp hb)
  · rw [List.mem_append, hmem, hmem']

/-- What is read off a child, seen from its parent. -/
theorem under (i : Nat) (h : ListedInOrder xs At) :
    ListedInOrder xs fun x place => ∃ rest, place = i :: rest ∧ At x rest := by
  obtain ⟨entries, hxs, hsorted, hmem⟩ := h
  refine ⟨entries.map fun a => (i :: a.1, a.2), ?_, ?_, fun place x => ?_⟩
  · rw [List.map_map]
    exact hxs
  · exact List.pairwise_map.mpr (hsorted.imp .cons)
  · rw [List.mem_map]
    constructor
    · rintro ⟨⟨rest, y⟩, ha, heq⟩
      cases heq
      exact ⟨rest, rfl, (hmem _ _).mp ha⟩
    · rintro ⟨rest, rfl, hx⟩
      exact ⟨(rest, x), (hmem rest x).mpr hx, rfl⟩

/-- What is read off children one after the other, each under its number. -/
theorem flatMap {steps : List (β × Nat)} {read : β → List α} {In : β → α → List Nat → Prop}
    (hsteps : steps.Pairwise fun a b => a.2 < b.2)
    (h : ∀ c i, (c, i) ∈ steps → ListedInOrder (read c) (In c)) :
    ListedInOrder (steps.flatMap fun a => read a.1) fun x place =>
      ∃ c i rest, place = i :: rest ∧ (c, i) ∈ steps ∧ In c x rest := by
  induction steps with
  | nil => exact (here (none : Option α)).congr fun x place => by simp
  | cons a steps ih =>
    obtain ⟨c, i⟩ := a
    obtain ⟨hfirst, hsteps⟩ := List.pairwise_cons.mp hsteps
    have hrest := ih hsteps fun c j hc => h c j (List.mem_cons_of_mem _ hc)
    have hall := ((h c i List.mem_cons_self).under i).append hrest ?_
    · refine hall.congr fun x place => ?_
      constructor
      · rintro (⟨rest, rfl, hx⟩ | ⟨d, j, rest, rfl, hd, hx⟩)
        · exact ⟨c, i, rest, rfl, List.mem_cons_self, hx⟩
        · exact ⟨d, j, rest, rfl, List.mem_cons_of_mem _ hd, hx⟩
      · rintro ⟨d, j, rest, rfl, hd, hx⟩
        rcases List.mem_cons.mp hd with heq | hd
        · cases heq
          exact .inl ⟨rest, rfl, hx⟩
        · exact .inr ⟨d, j, rest, rfl, hd, hx⟩
    · rintro x _ x' _ ⟨rest, rfl, -⟩ ⟨d, j, rest', rfl, hd, -⟩
      exact .rel (hfirst (d, j) hd)

theorem filterMap (f : α → Option β) (h : ListedInOrder xs At) :
    ListedInOrder (xs.filterMap f) fun y place => ∃ x, f x = some y ∧ At x place := by
  obtain ⟨entries, rfl, hsorted, hmem⟩ := h
  refine ⟨entries.filterMap fun a => (f a.2).map (a.1, ·), ?_, ?_, fun place y => ?_⟩
  · rw [List.map_filterMap, List.filterMap_map]
    congr 1
    funext a
    cases h : f a.2 <;> simp [h]
  · refine hsorted.filterMap _ fun a b hahead a' ha' b' hb' => ?_
    obtain ⟨_, -, rfl⟩ := Option.map_eq_some_iff.mp ha'
    obtain ⟨_, -, rfl⟩ := Option.map_eq_some_iff.mp hb'
    exact hahead
  · rw [List.mem_filterMap]
    constructor
    · rintro ⟨⟨place', x⟩, ha, heq⟩
      obtain ⟨_, hy, heq⟩ := Option.map_eq_some_iff.mp heq
      cases heq
      exact ⟨x, hy, (hmem _ x).mp ha⟩
    · rintro ⟨x, hy, hx⟩
      exact ⟨(place, x), (hmem place x).mpr hx, by rw [hy, Option.map_some]⟩

theorem mem_iff (h : ListedInOrder xs At) {x : α} : x ∈ xs ↔ ∃ place, At x place := by
  obtain ⟨entries, rfl, -, hmem⟩ := h
  rw [List.mem_map]
  constructor
  · rintro ⟨⟨place, y⟩, ha, rfl⟩
    exact ⟨place, (hmem place y).mp ha⟩
  · rintro ⟨place, hx⟩
    exact ⟨(place, x), (hmem place x).mpr hx, rfl⟩

end ListedInOrder

/-! ## First occurrences -/

section FirstOccurrences

variable [DecidableEq α]

/-- Of two things in a list without its repetitions, the first stood in the list before any of the
second. -/
theorem pairwise_eraseDups (l : List α) :
    l.eraseDups.Pairwise fun x y =>
      x ≠ y ∧ ∃ before after, l = before ++ x :: after ∧ y ∉ before := by
  match l with
  | [] => exact .nil
  | a :: l =>
    have hlt := Nat.lt_succ_of_le (List.length_filter_le (fun b => !b == a) l)
    rw [List.eraseDups_cons, List.pairwise_cons]
    have hkeep {y : α} : (!y == a) = true ↔ y ≠ a := by simp
    constructor
    · intro y hy
      obtain ⟨-, hya⟩ := List.mem_filter.mp (List.mem_eraseDups.mp hy)
      exact ⟨(hkeep.mp hya).symm, [], l, rfl, List.not_mem_nil⟩
    · refine (pairwise_eraseDups (l.filter fun b => !b == a)).imp_of_mem fun {x y} _ hy hxy => ?_
      obtain ⟨-, hya⟩ := List.mem_filter.mp (List.mem_eraseDups.mp hy)
      obtain ⟨hne, before, after, heq, hbefore⟩ := hxy
      -- What is skipped in front of `x` equals `a`, so it is not `y`.
      obtain ⟨l₁, l₂, rfl, rfl, htail⟩ := List.filter_eq_append_iff.mp heq
      obtain ⟨skipped, l₃, rfl, hskipped, -, -⟩ := List.filter_eq_cons_iff.mp htail
      refine ⟨hne, a :: l₁ ++ skipped, l₃, by simp, fun hmem => ?_⟩
      rcases List.mem_append.mp hmem with hmem | hmem
      · rcases List.mem_cons.mp hmem with rfl | hmem
        · exact hkeep.mp hya rfl
        · exact hbefore (List.mem_filter.mpr ⟨hmem, hya⟩)
      · exact hskipped y hmem hya
termination_by l.length

theorem nodup_eraseDups (l : List α) : l.eraseDups.Nodup :=
  (pairwise_eraseDups l).imp And.left

/-- One thing has a place in front of all places of the other. -/
def Precedes (At : α → List Nat → Prop) (x y : α) : Prop :=
  ∃ place, At x place ∧ ∀ place', At y place' → Ahead place place'

theorem ListedInOrder.pairwise_precedes {xs : List α} {At : α → List Nat → Prop}
    (h : ListedInOrder xs At) : xs.eraseDups.Pairwise (Precedes At) := by
  obtain ⟨entries, rfl, hsorted, hmem⟩ := h
  refine (pairwise_eraseDups _).imp fun {x y} hxy => ?_
  obtain ⟨hne, before, after, heq, hbefore⟩ := hxy
  obtain ⟨front, rest, rfl, rfl, hrest⟩ := List.map_eq_append_iff.mp heq
  obtain ⟨⟨place, _⟩, back, rfl, rfl, rfl⟩ := List.map_eq_cons_iff.mp hrest
  refine ⟨place, (hmem _ _).mp (List.mem_append_right _ List.mem_cons_self), ?_⟩
  intro place' hy
  have hback := (List.pairwise_append.mp hsorted).2.1
  rcases List.mem_append.mp ((hmem place' y).mpr hy) with hin | hin
  · exact absurd (List.mem_map_of_mem hin) hbefore
  · rcases List.mem_cons.mp hin with heq | hin
    · cases heq
      exact absurd rfl hne
    · exact (List.pairwise_cons.mp hback).1 _ hin

end FirstOccurrences

end RouteAtlas
