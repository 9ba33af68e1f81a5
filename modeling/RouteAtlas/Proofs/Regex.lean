import RouteAtlas.Regex.Parse

/-!
# Words in patterns

A pattern that is a plain text behind an edge of a word matches wherever that text stands and no
word character is in front of it.
-/

set_option autoImplicit false

namespace RouteAtlas.Regex

open RouteAtlas.Text Parse

/-- The pattern of a plain text. -/
def plain (w : List Char) : Regex :=
  sequenceOf (w.map (single .start))

/-- The pattern of a plain text behind an edge of a word. -/
def behindEdge (w : List Char) : Regex :=
  .seq (.anchor .wordEdge false) (plain w)

theorem run_sequenceOf_cons (r : Regex) (rs : List Regex) (p : Place) (k : Onward) :
    (sequenceOf (r :: rs)).run p k = r.run p fun q => (sequenceOf rs).run q k := by
  cases rs <;> rfl

/-- A plain text matches where it stands, and the match goes on behind it. -/
theorem exists_run_plain {w after : List Char} {p : Place} (hp : p.rest = w ++ after)
    (k : Onward) : ∃ q, (plain w).run p k = k q := by
  induction w generalizing p with
  | nil => exact ⟨p, rfl⟩
  | cons c w ih =>
    have hone : (single .start c).run p (fun q => (plain w).run q k) =
        (plain w).run ⟨p.offset + 1, some c, w ++ after, p.groups⟩ k := by
      have hc : (CharSet.range c c false).contains c = true := by
        simp [CharSet.contains]
      rw [show single .start c = .one (.range c c false) from rfl, run, hp, List.cons_append]
      exact if_pos hc
    obtain ⟨q, hq⟩ := ih (p := ⟨p.offset + 1, some c, w ++ after, p.groups⟩) rfl
    refine ⟨q, ?_⟩
    rw [plain, List.map_cons, run_sequenceOf_cons]
    exact hone.trans hq

theorem findFrom_isSome_of_here {f : Place → Option Place} {n : Nat} {b : Option Char}
    {cs : List Char} (h : (f ⟨n, b, cs, []⟩).isSome = true) :
    (Place.findFrom f n b cs).isSome = true := by
  cases cs with
  | nil => exact h
  | cons c cs =>
    rw [Place.findFrom]
    split
    · rfl
    · rename_i hnone
      rw [hnone] at h
      cases h

/-- What is found at some place of a text is found from the start. -/
theorem findFrom_isSome {f : Place → Option Place} {before after : List Char} {n : Nat}
    {b : Option Char} (h : (f ⟨n + before.length, before.getLast?.or b, after, []⟩).isSome = true) :
    (Place.findFrom f n b (before ++ after)).isSome = true := by
  induction before generalizing n b with
  | nil => exact findFrom_isSome_of_here h
  | cons c before ih =>
    rw [List.cons_append, Place.findFrom]
    split
    · rfl
    · apply ih
      have hlast : (c :: before).getLast?.or b = before.getLast?.or (some c) := by
        rw [List.getLast?_cons]
        cases before.getLast? <;> rfl
      rw [← hlast, Nat.add_assoc, Nat.add_comm 1]
      exact h

/-- A text behind an edge of a word is found where it stands apart. -/
theorem isIn_behindEdge {c : Char} {w before after : List Char} (hc : isWordChar c = true)
    (hbefore : ∀ d ∈ before.getLast?, isWordChar d = false) :
    (behindEdge (c :: w)).isIn (before ++ (c :: w ++ after)) = true := by
  apply findFrom_isSome
  have hedge : Anchor.wordEdge.holds false
      ⟨0 + before.length, before.getLast?.or none, c :: w ++ after, []⟩ = true := by
    cases hlast : before.getLast? with
    | none => simp [Anchor.holds, hc]
    | some d => simp [Anchor.holds, hc, hbefore d hlast]
  obtain ⟨q, hq⟩ := exists_run_plain (w := c :: w)
    (p := ⟨0 + before.length, before.getLast?.or none, c :: w ++ after, []⟩) rfl some
  show (if Anchor.wordEdge.holds false _ then (plain (c :: w)).run _ some else none).isSome = true
  rw [if_pos hedge, hq]
  rfl

end RouteAtlas.Regex
