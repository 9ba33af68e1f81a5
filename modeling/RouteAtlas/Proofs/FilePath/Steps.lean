import RouteAtlas.Proofs.FilePath

/-!
# Parents and joins, step by step

`parent?` and `join` work on the text of a path: they look for slashes, drop pieces that stand for
no step, and keep the spelling of the rest.  What they do to the steps is simple.  **A parent takes
all steps but the last** (`map_components_parent?`), and **a join goes on from where the path
leads** (`location_join`).  So both lead to the same place for every spelling of a path.

For a path in normal form the parent is in normal form again, with one name less
(`parent?_toPath_concat`).
-/

set_option autoImplicit false

namespace RouteAtlas.FilePath

open RouteAtlas.Text

/-! ## The steps in the text -/

/-- The pieces of the text that stand behind the top. -/
def body (p : FilePath) : List (List Char) :=
  if p.isAbsolute then (pieces '/' p.text.toList).drop 1 else pieces '/' p.text.toList

/-- The step that is told by how the text begins. -/
def lead (p : FilePath) : List Component :=
  if p.isAbsolute then [.top] else if p.body.head? = some ['.'] then [.here] else []

theorem text_of_isAbsolute {p : FilePath} (h : p.isAbsolute = true) :
    ∃ rest, p.text.toList = '/' :: rest :=
  List.head?_eq_some_iff.mp (of_decide_eq_true h)

theorem body_of_not_isAbsolute {p : FilePath} (h : p.isAbsolute = false) :
    p.body = pieces '/' p.text.toList :=
  if_neg (by simp [h])

/-- The piece in front of a slash at the beginning is empty and stands for no step. -/
theorem filterMap_stepOfPiece_body (p : FilePath) :
    p.body.filterMap stepOfPiece = (pieces '/' p.text.toList).filterMap stepOfPiece := by
  unfold body
  split
  · rename_i habsolute
    obtain ⟨rest, htext⟩ := text_of_isAbsolute habsolute
    rw [htext, pieces, if_pos rfl]
    rfl
  · rfl

theorem components_eq (p : FilePath) :
    p.components = p.lead ++ p.body.filterMap stepOfPiece := by
  rw [filterMap_stepOfPiece_body, lead]
  unfold components
  dsimp only
  split
  · rfl
  · rename_i hrelative
    rw [body_of_not_isAbsolute (eq_false_of_ne_true hrelative)]
    split <;> rfl

/-- The path that is put together from pieces. -/
def ofPieces (absolute : Bool) (ps : List (List Char)) : FilePath :=
  ⟨String.ofList (if absolute then '/' :: joinWith ['/'] ps else joinWith ['/'] ps)⟩

section OfPieces

variable {ps : List (List Char)} (h : ∀ q ∈ ps, '/' ∉ q)

include h

theorem components_ofPieces_true :
    (ofPieces true ps).components = .top :: ps.filterMap stepOfPiece := by
  have htext : (ofPieces true ps).text.toList = '/' :: joinWith ['/'] ps := String.toList_ofList
  have habsolute : (ofPieces true ps).isAbsolute = true := by simp [isAbsolute, htext]
  rw [components_eq, lead, if_pos habsolute, filterMap_stepOfPiece_body, htext, pieces, if_pos rfl]
  cases ps with
  | nil => rfl
  | cons q ps =>
    rw [pieces_joinWith h (List.cons_ne_nil q ps)]
    rfl

theorem components_ofPieces_false (hhead : ps.head? ≠ some []) :
    (ofPieces false ps).components =
      (if ps.head? = some ['.'] then [.here] else []) ++ ps.filterMap stepOfPiece := by
  have htext : (ofPieces false ps).text.toList = joinWith ['/'] ps := String.toList_ofList
  have hrelative : (ofPieces false ps).isAbsolute = false := by
    cases ps with
    | nil => simp [isAbsolute, htext, joinWith]
    | cons q ps =>
      cases q with
      | nil => exact absurd rfl hhead
      | cons c q =>
        have hc : c ≠ '/' := fun hc => h (c :: q) List.mem_cons_self (hc ▸ List.mem_cons_self)
        cases ps <;> simp [isAbsolute, htext, joinWith, hc]
  rw [components_eq, lead, if_neg (by simp [hrelative]), body_of_not_isAbsolute hrelative, htext]
  cases ps with
  | nil => rfl
  | cons q ps => rw [pieces_joinWith h (List.cons_ne_nil q ps)]

end OfPieces

/-! ## Parents -/

theorem stepOfPiece_eq_none_iff {q : List Char} :
    stepOfPiece q = none ↔ (q.isEmpty || q = ['.']) = true := by
  unfold stepOfPiece
  split
  · simp_all
  · split <;> simp_all

theorem stepOfPiece_ne_top (q : List Char) : stepOfPiece q ≠ some .top := by
  unfold stepOfPiece
  split
  · exact nofun
  · split <;> exact nofun

/-- What is dropped stands for no step, and what is left begins with a piece that does. -/
theorem dropIdlePieces_cases (ps : List (List Char)) :
    (dropIdlePieces ps = [] ∧ ps.filterMap stepOfPiece = []) ∨
      ∃ idle q rest c, ps = idle ++ q :: rest ∧ dropIdlePieces ps = q :: rest ∧
        idle.filterMap stepOfPiece = [] ∧ stepOfPiece q = some c := by
  induction ps with
  | nil => exact .inl ⟨rfl, rfl⟩
  | cons q ps ih =>
    rw [dropIdlePieces]
    cases hq : stepOfPiece q with
    | none =>
      rw [if_pos (stepOfPiece_eq_none_iff.mp hq)]
      rcases ih with ⟨hdrop, hsteps⟩ | ⟨idle, q', rest, c, rfl, hdrop, hidle, hc⟩
      · exact .inl ⟨hdrop, by rw [List.filterMap_cons, hq, hsteps]⟩
      · exact .inr ⟨q :: idle, q', rest, c, rfl, hdrop, by rw [List.filterMap_cons, hq, hidle], hc⟩
    | some c =>
      have hidle : ¬(q.isEmpty || q = ['.']) = true := fun h => by
        rw [stepOfPiece_eq_none_iff.mpr h] at hq
        cases hq
      rw [if_neg hidle]
      exact .inr ⟨[], q, ps, c, rfl, rfl, rfl, hq⟩

theorem not_mem_of_mem_body {p : FilePath} {q : List Char} (h : q ∈ p.body) : '/' ∉ q := by
  unfold body at h
  split at h
  · exact not_mem_of_mem_pieces (List.mem_of_mem_drop h)
  · exact not_mem_of_mem_pieces h

/-- The first piece of a relative path begins with what the path begins with. -/
theorem exists_body_eq_cons {p : FilePath} (h : p.isAbsolute = false) {c : Char} {cs : List Char}
    (htext : p.text.toList = c :: cs) : ∃ q qs, p.body = (c :: q) :: qs := by
  have hc : c ≠ '/' := by
    rintro rfl
    simp [isAbsolute, htext] at h
  obtain ⟨q, qs, hq⟩ := List.exists_cons_of_ne_nil (pieces_ne_nil '/' cs)
  exact ⟨q, qs, by rw [body_of_not_isAbsolute h, htext, pieces, if_neg hc, hq]⟩

/-- A relative path does not begin with an empty piece, unless it is empty. -/
theorem body_of_head?_eq_nil {p : FilePath} (h : p.isAbsolute = false)
    (hhead : p.body.head? = some []) : p.body = [[]] := by
  cases htext : p.text.toList with
  | nil =>
    rw [body_of_not_isAbsolute h, htext]
    rfl
  | cons c cs =>
    obtain ⟨q, qs, hbody⟩ := exists_body_eq_cons h htext
    simp [hbody] at hhead

/-- The pieces of the parent, where `before` are those in front of the last step, read backwards.  A
dot at the beginning of a relative path is a step and stays. -/
def keptPieces (p : FilePath) (before : List (List Char)) : List (List Char) :=
  match dropIdlePieces before with
  | [] =>
    if !p.isAbsolute && (pieces '/' p.text.toList).head? = some ['.'] && !before.isEmpty then
      [['.']]
    else []
  | rest => rest.reverse

theorem parent?_of_dropIdlePieces_eq_nil {p : FilePath} (h : dropIdlePieces p.body.reverse = []) :
    p.parent? = if p.lead = [.here] then some ⟨""⟩ else none := by
  unfold parent?
  dsimp only
  rw [← body, h, lead]
  dsimp only
  cases habsolute : p.isAbsolute with
  | true => simp
  | false =>
    rw [← body_of_not_isAbsolute habsolute]
    by_cases hdot : p.body.head? = some ['.'] <;> simp [hdot]

theorem parent?_of_dropIdlePieces_eq_cons {p : FilePath} {q : List Char} {before : List (List Char)}
    (h : dropIdlePieces p.body.reverse = q :: before) :
    p.parent? = some (ofPieces p.isAbsolute (p.keptPieces before)) := by
  unfold parent? keptPieces
  dsimp only
  rw [← body, h]
  rfl

theorem filterMap_keptPieces (p : FilePath) (before : List (List Char)) :
    (p.keptPieces before).filterMap stepOfPiece = before.reverse.filterMap stepOfPiece := by
  unfold keptPieces
  rcases dropIdlePieces_cases before with ⟨hdrop, hsteps⟩ | ⟨idle, q, rest, c, rfl, hdrop, hidle, -⟩
  · rw [hdrop, List.filterMap_reverse, hsteps]
    dsimp only
    split <;> rfl
  · rw [hdrop, List.reverse_append, List.filterMap_append, List.filterMap_reverse (l := idle),
      hidle]
    exact (List.append_nil _).symm

theorem mem_of_mem_keptPieces {p : FilePath} {before : List (List Char)} {q : List Char}
    (h : q ∈ p.keptPieces before) : q ∈ before ∨ q = ['.'] := by
  unfold keptPieces at h
  rcases dropIdlePieces_cases before with ⟨hdrop, -⟩ | ⟨idle, q', rest, c, rfl, hdrop, -, -⟩
  · rw [hdrop] at h
    dsimp only at h
    split at h
    · exact .inr (List.mem_singleton.mp h)
    · cases h
  · rw [hdrop] at h
    exact .inl (List.mem_append_right idle (List.mem_reverse.mp h))

section LastStep

variable {p : FilePath} {before idle : List (List Char)} {q : List Char} {c : Component}
  (hbody : p.body = before.reverse ++ q :: idle) (hc : stepOfPiece q = some c)

include hbody hc

/-- In a relative path the kept pieces begin as all pieces do, as far as that is a step. -/
theorem head?_keptPieces (hp : p.isAbsolute = false) :
    (p.keptPieces before).head? = none ∧ p.body.head? ≠ some ['.'] ∨
      (p.keptPieces before).head? = p.body.head? := by
  have hq : q ≠ ['.'] := by
    rintro rfl
    cases hc
  unfold keptPieces
  rw [body_of_not_isAbsolute hp] at hbody ⊢
  rcases dropIdlePieces_cases before with ⟨hdrop, -⟩ | ⟨idle, r, rest, c, rfl, hdrop, -, -⟩
  · rw [hdrop]
    dsimp only
    cases before with
    | nil => exact .inl ⟨by simp, by simpa [hbody] using hq⟩
    | cons r before =>
      by_cases hdot : (pieces '/' p.text.toList).head? = some ['.']
      · simp [hp, hdot]
      · exact .inl ⟨by simp [hdot], hdot⟩
  · rw [hdrop, hbody]
    simp

theorem components_ofPieces_keptPieces :
    (ofPieces p.isAbsolute (p.keptPieces before)).components =
      p.lead ++ (p.keptPieces before).filterMap stepOfPiece := by
  have hkept : ∀ r ∈ p.keptPieces before, '/' ∉ r := by
    intro r hr
    rcases mem_of_mem_keptPieces hr with hr | rfl
    · apply not_mem_of_mem_body (p := p)
      rw [hbody]
      exact List.mem_append_left _ (List.mem_reverse.mpr hr)
    · decide
  cases habsolute : p.isAbsolute with
  | true =>
    rw [components_ofPieces_true hkept, lead, if_pos habsolute]
    rfl
  | false =>
    have hfull : p.body.head? ≠ some [] := by
      intro hempty
      rw [body_of_head?_eq_nil habsolute hempty] at hbody
      cases hbefore : before.reverse with
      | nil =>
        rw [hbefore] at hbody
        cases hbody
        cases hc
      | cons r rs => simp [hbefore] at hbody
    rcases head?_keptPieces hbody hc habsolute with ⟨hnone, hdot⟩ | hhead
    · rw [components_ofPieces_false hkept (by simp [hnone]), lead,
        if_neg (ne_true_of_eq_false habsolute), hnone, if_neg nofun, if_neg hdot]
    · rw [components_ofPieces_false hkept (by rwa [hhead]), lead,
        if_neg (ne_true_of_eq_false habsolute), hhead]

end LastStep

/-- **A parent takes all steps but the last.**  There is none where no step is left but the top. -/
theorem map_components_parent? (p : FilePath) :
    p.parent?.map components =
      if p.components = [] ∨ p.components = [.top] then none
      else some p.components.dropLast := by
  rcases dropIdlePieces_cases p.body.reverse with
    ⟨hdrop, hsteps⟩ | ⟨idle, q, before, c, hreverse, hdrop, hidle, hc⟩
  · rw [List.filterMap_reverse, List.reverse_eq_nil_iff] at hsteps
    rw [parent?_of_dropIdlePieces_eq_nil hdrop, components_eq, hsteps, List.append_nil, lead]
    split
    · rfl
    · split <;> rfl
  · have hbody : p.body = before.reverse ++ q :: idle.reverse := by
      rw [← List.reverse_reverse p.body, hreverse]
      simp
    have hsteps : p.components =
        (p.lead ++ (p.keptPieces before).filterMap stepOfPiece) ++ [c] := by
      rw [components_eq, hbody, List.filterMap_append, List.filterMap_cons, hc,
        filterMap_keptPieces, List.filterMap_reverse (l := idle), hidle, List.append_assoc]
      rfl
    have hsome : ¬(p.components = [] ∨ p.components = [.top]) := by
      rw [hsteps]
      rintro (h | h)
      · exact List.concat_ne_nil _ _ h
      · rw [← List.nil_append [Component.top]] at h
        rw [(List.append_inj_right' h rfl : [c] = [.top]) |> List.singleton_inj.mp] at hc
        exact stepOfPiece_ne_top q hc
    rw [parent?_of_dropIdlePieces_eq_cons hdrop, Option.map_some,
      components_ofPieces_keptPieces hbody hc, if_neg hsome, hsteps, List.dropLast_concat]

theorem length_components_parent? {p up : FilePath} (h : p.parent? = some up) :
    up.components.length < p.components.length := by
  have hmap := map_components_parent? p
  rw [h, Option.map_some] at hmap
  split at hmap
  · cases hmap
  · rename_i hne
    have hpos := List.length_pos_iff.mpr fun hnil => hne (.inl hnil)
    rw [Option.some.inj hmap, List.length_dropLast]
    omega

/-- Only the empty path takes no step at all. -/
theorem text_of_components_eq_nil {p : FilePath} (h : p.components = []) : p.text = "" := by
  rw [components_eq, List.append_eq_nil_iff] at h
  obtain ⟨hlead, hsteps⟩ := h
  cases habsolute : p.isAbsolute with
  | true => simp [lead, habsolute] at hlead
  | false =>
    cases htext : p.text.toList with
    | nil => exact String.toList_eq_nil_iff.mp htext
    | cons c cs =>
      obtain ⟨q, qs, hbody⟩ := exists_body_eq_cons habsolute htext
      -- the first piece is not empty, and as a dot it would be a step
      have hidle := stepOfPiece_eq_none_iff.mp
        (List.filterMap_eq_nil_iff.mp (hbody ▸ hsteps) (c :: q) List.mem_cons_self)
      have hdot : p.body.head? = some ['.'] := by
        rw [hbody]
        simpa using hidle
      simp [lead, habsolute, hdot] at hlead

/-- All paths have a parent but those that lead nowhere or to the top. -/
theorem exists_parent? {p : FilePath} (h : p.components ≠ []) (htop : p.components ≠ [.top]) :
    ∃ dir, p.parent? = some dir := by
  have hmap := map_components_parent? p
  rw [if_neg (not_or.mpr ⟨h, htop⟩)] at hmap
  obtain ⟨dir, hdir, -⟩ := Option.map_eq_some_iff.mp hmap
  exact ⟨dir, hdir⟩

/-- Spellings of one path have parents with the same steps. -/
theorem map_location_parent?_congr {p q : FilePath} (h : p.components = q.components) :
    p.parent?.map location = q.parent?.map location := by
  have hparents : p.parent?.map components = q.parent?.map components := by
    rw [map_components_parent?, map_components_parent?, h]
  have hlead := congrArg (Option.map Location.ofComponents) hparents
  rwa [Option.map_map, Option.map_map] at hlead

/-! ## Joins -/

/-- Where a path leads is told by its pieces and by where it starts. -/
theorem location_eq (p : FilePath) :
    p.location =
      ((pieces '/' p.text.toList).filterMap stepOfPiece).foldl Location.step
        ⟨p.isAbsolute, []⟩ := by
  rw [location, Location.ofComponents, components_eq, filterMap_stepOfPiece_body, lead,
    List.foldl_append]
  cases p.isAbsolute with
  | true => rfl
  | false =>
    by_cases hdot : p.body.head? = some ['.']
    · rw [if_neg Bool.false_ne_true, if_pos hdot]
      rfl
    · rw [if_neg Bool.false_ne_true, if_neg hdot]
      rfl

/-- The pieces of a join that stand for steps are those of the path and of what is joined. -/
theorem steps_join (p : FilePath) {q : String} (hq : q.toList.head? ≠ some '/') :
    (p.join q).isAbsolute = p.isAbsolute ∧
      (pieces '/' (p.join q).text.toList).filterMap stepOfPiece =
        (pieces '/' p.text.toList).filterMap stepOfPiece ++
          (pieces '/' q.toList).filterMap stepOfPiece := by
  unfold join
  rw [if_neg hq]
  split
  · rename_i hslash
    rcases Bool.or_eq_true_iff.mp hslash with hempty | hlast
    · have htext : p.text = "" := String.isEmpty_iff.mp hempty
      simp only [htext, String.empty_append, isAbsolute]
      exact ⟨by simpa using hq, rfl⟩
    · -- the slash at the end is there already, and nothing stands behind it
      obtain ⟨before, hbefore⟩ := List.getLast?_eq_some_iff.mp (of_decide_eq_true hlast)
      constructor
      · cases before <;> simp [isAbsolute, String.toList_append, hbefore]
      · rw [String.toList_append, hbefore, List.append_assoc, List.singleton_append,
          pieces_append_sep, pieces_append_sep, List.filterMap_append, List.filterMap_append]
        simp [pieces, stepOfPiece]
  · rename_i hslash
    have hne : p.text.toList ≠ [] := by
      intro hnil
      simp [String.isEmpty_iff, String.toList_eq_nil_iff.mp hnil] at hslash
    constructor
    · cases htext : p.text.toList with
      | nil => exact absurd htext hne
      | cons c cs => simp [isAbsolute, String.toList_append, htext]
    · rw [String.toList_append, String.toList_append, List.append_assoc,
        show "/".toList ++ q.toList = '/' :: q.toList from rfl, pieces_append_sep,
        List.filterMap_append]

/-- A relative path that is joined by a name begins with a dot where it did before. -/
theorem head?_body_join_name {p : FilePath} (hp : p.isAbsolute = false) {s : String}
    (h : IsName s) : (p.join s).body.head? = some ['.'] ↔ p.body.head? = some ['.'] := by
  have hslash : s.toList.head? ≠ some '/' := fun hs => h.noSlash (List.mem_of_head? hs)
  have hjoin : (p.join s).isAbsolute = false := (p.steps_join hslash).1.trans hp
  rw [body_of_not_isAbsolute hp, body_of_not_isAbsolute hjoin]
  unfold join
  rw [if_neg hslash]
  split
  · rename_i hend
    rcases Bool.or_eq_true_iff.mp hend with hempty | hlast
    · -- the name stands alone, and no name is a dot
      have htext : p.text = "" := String.isEmpty_iff.mp hempty
      rw [htext, String.empty_append, pieces_of_not_mem h.noSlash]
      simpa [pieces] using h.toList_ne_dot
    · -- what stands in front of the slash at the end is not touched
      obtain ⟨before, hbefore⟩ := List.getLast?_eq_some_iff.mp (of_decide_eq_true hlast)
      rw [String.toList_append, hbefore, List.append_assoc, List.singleton_append,
        pieces_append_sep, pieces_append_sep]
      simp [pieces_ne_nil]
  · rw [String.toList_append, String.toList_append, List.append_assoc,
      show "/".toList ++ s.toList = '/' :: s.toList from rfl, pieces_append_sep]
    simp [pieces_ne_nil]

/-- A join by a name takes one step more. -/
theorem components_join_name (p : FilePath) {s : String} (h : IsName s) :
    (p.join s).components = p.components ++ [.name s] := by
  have hslash : s.toList.head? ≠ some '/' := fun hs => h.noSlash (List.mem_of_head? hs)
  obtain ⟨habsolute, hsteps⟩ := p.steps_join hslash
  have hlead : (p.join s).lead = p.lead := by
    rw [lead, lead, habsolute]
    cases hp : p.isAbsolute with
    | true => rfl
    | false => simp only [head?_body_join_name hp h]
  rw [components_eq, components_eq, hlead, filterMap_stepOfPiece_body, hsteps,
    filterMap_stepOfPiece_body, pieces_of_not_mem h.noSlash, List.append_assoc,
    List.filterMap_cons, h.read]
  rfl

/-- **A join goes on from where the path leads**, whatever slash stands between. -/
theorem location_join (p : FilePath) {q : String} (hq : q.toList.head? ≠ some '/') :
    (p.join q).location = (FilePath.mk q).components.foldl Location.step p.location := by
  obtain ⟨habsolute, hsteps⟩ := p.steps_join hq
  rw [location_eq, habsolute, hsteps, List.foldl_append, ← location_eq, components_eq,
    filterMap_stepOfPiece_body, lead, List.foldl_append, isAbsolute, decide_eq_false hq,
    if_neg Bool.false_ne_true]
  split <;> rfl

/-! ## Normal form -/

theorem joinWith_names (names : List String) :
    joinWith ['/'] (names.map String.toList) = (String.intercalate "/" names).toList := by
  rw [String.toList_intercalate]
  induction names with
  | nil => rfl
  | cons s names ih =>
    cases names with
    | nil => simp [joinWith]
    | cons s' names =>
      rw [List.map_cons, List.map_cons, List.intercalate_cons_cons, ← List.map_cons, ← ih]
      rfl

theorem ofPieces_names (absolute : Bool) (names : List String) :
    ofPieces absolute (names.map String.toList) = (Location.mk absolute names).toPath := by
  unfold ofPieces Location.toPath
  rw [joinWith_names]
  apply congrArg FilePath.mk
  apply String.toList_inj.mp
  cases absolute with
  | true => rw [String.toList_ofList, if_pos rfl, if_pos rfl, String.toList_append]; rfl
  | false => exact String.toList_ofList

theorem isAbsolute_iff_head?_components {p : FilePath} :
    p.isAbsolute = true ↔ p.components.head? = some .top := by
  rw [components_eq, lead]
  cases p.isAbsolute with
  | true => simp
  | false =>
    have hsteps : (p.body.filterMap stepOfPiece).head? ≠ some .top := by
      intro htop
      obtain ⟨q, -, hq⟩ := List.mem_filterMap.mp (List.mem_of_head? htop)
      exact stepOfPiece_ne_top q hq
    by_cases hdot : p.body.head? = some ['.']
    · simp [hdot]
    · simpa [hdot] using hsteps

theorem isAbsolute_toPath {l : Location} (h : l.IsProper) : l.toPath.isAbsolute = l.absolute := by
  rw [Bool.eq_iff_iff, isAbsolute_iff_head?_components, components_toPath h]
  cases l.absolute with
  | true => simp
  | false => cases l.names <;> simp

theorem body_toPath {l : Location} (h : l.IsProper) (hne : l.names ≠ []) :
    l.toPath.body = l.names.map String.toList := by
  obtain ⟨absolute, names⟩ := l
  rw [body, isAbsolute_toPath h]
  cases absolute with
  | true =>
    have htext : (Location.mk true names).toPath.text.toList =
        '/' :: (String.intercalate "/" names).toList := String.toList_append
    rw [if_pos rfl, htext, pieces, if_pos rfl]
    exact pieces_intercalate h hne
  | false => exact pieces_intercalate h hne

theorem dropIdlePieces_names {names : List String} (h : ∀ s ∈ names, IsName s) :
    dropIdlePieces (names.map String.toList) = names.map String.toList := by
  cases names with
  | nil => rfl
  | cons s names =>
    have hread := (h s List.mem_cons_self).read
    rw [List.map_cons, dropIdlePieces, if_neg]
    intro hidle
    rw [stepOfPiece_eq_none_iff.mpr hidle] at hread
    cases hread

/-- The parent of a path in normal form has one name less. -/
theorem parent?_toPath_concat {absolute : Bool} {names : List String} {s : String}
    (h : (Location.mk absolute (names ++ [s])).IsProper) :
    (Location.mk absolute (names ++ [s])).toPath.parent? =
      some (Location.mk absolute names).toPath := by
  have hnames : ∀ r ∈ names, IsName r := fun r hr => h r (List.mem_append_left _ hr)
  have hbody : (Location.mk absolute (names ++ [s])).toPath.body.reverse =
      ((s :: names.reverse).map String.toList) := by
    rw [body_toPath h (List.concat_ne_nil s names)]
    simp
  have hdrop : dropIdlePieces (Location.mk absolute (names ++ [s])).toPath.body.reverse =
      s.toList :: names.reverse.map String.toList := by
    rw [hbody]
    rw [← List.map_cons]
    exact dropIdlePieces_names fun r hr => h r (by simpa [or_comm] using hr)
  have hkept : keptPieces (Location.mk absolute (names ++ [s])).toPath
      (names.reverse.map String.toList) = names.map String.toList := by
    rw [keptPieces, dropIdlePieces_names fun r hr => hnames r (List.mem_reverse.mp hr)]
    cases hreverse : names.reverse.map String.toList with
    | nil => simp_all
    | cons r rest =>
      show (r :: rest).reverse = names.map String.toList
      rw [← hreverse, List.map_reverse, List.reverse_reverse]
  rw [parent?_of_dropIdlePieces_eq_cons hdrop, hkept, isAbsolute_toPath h, ofPieces_names]

/-- A path in normal form leads where it says. -/
theorem location_toPath {l : Location} (h : l.IsProper) : l.toPath.location = l := by
  obtain ⟨absolute, names⟩ := l
  have hnames : ∀ (names : List String) (l : Location),
      (names.map Component.name).foldl Location.step l = ⟨l.absolute, l.names ++ names⟩ := by
    intro names
    induction names with
    | nil => simp
    | cons s names ih => simp [Location.step, ih]
  rw [location, components_toPath h, Location.ofComponents, List.foldl_append, hnames]
  cases absolute <;> rfl

end RouteAtlas.FilePath
