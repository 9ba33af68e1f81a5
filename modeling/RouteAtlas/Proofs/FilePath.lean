import RouteAtlas.FilePath

/-!
# Paths in normal form

A path in normal form is the text of a location, and its steps say where it leads: the top, when it
starts there, and the names (`components_toPath`).  So paths in normal form that have the same steps
are the same text (`toPath_eq_of_components_eq`), and what is remembered for the steps of such a
path is remembered for the path.

This needs that the names of a location are names: a piece of text between two slashes that is
neither empty nor a dot or two.  Every path leads to such a location (`isProper_location`).
-/

set_option autoImplicit false

namespace RouteAtlas.FilePath

open RouteAtlas.Text

/-! ## Names -/

/-- Whether a text, standing between two slashes, is read as a step to what it names. -/
structure IsName (s : String) : Prop where
  noSlash : '/' ∉ s.toList
  read : stepOfPiece s.toList = some (.name s)

theorem isName_of_piece {p : List Char} {s : String} (hp : '/' ∉ p)
    (h : stepOfPiece p = some (.name s)) : IsName s := by
  have hs : s = String.ofList p := by
    unfold stepOfPiece at h
    split at h
    · cases h
    · split at h
      · cases h
      · cases h
        rfl
  subst hs
  rw [← String.toList_ofList (l := p)] at hp h
  exact ⟨hp, by rw [h, String.toList_ofList]⟩

/-- No name is empty. -/
theorem IsName.toList_ne_nil {s : String} (h : IsName s) : s.toList ≠ [] := by
  intro hs
  have hread := h.read
  rw [hs] at hread
  cases hread

/-- Nor is a name the dot with which a relative path can begin. -/
theorem IsName.toList_ne_dot {s : String} (h : IsName s) : s.toList ≠ ['.'] := by
  intro hs
  have hread := h.read
  rw [hs] at hread
  cases hread

/-- The pieces of a path that are names are the names among its steps. -/
theorem isName_of_mem_components {p : FilePath} {s : String} (h : .name s ∈ p.components) :
    IsName s := by
  have hsteps : .name s ∈ (pieces '/' p.text.toList).filterMap stepOfPiece := by
    unfold components at h
    dsimp only at h
    split at h
    · exact (List.mem_cons.mp h).resolve_left nofun
    · split at h
      · exact (List.mem_cons.mp h).resolve_left nofun
      · exact h
  obtain ⟨piece, hpiece, hstep⟩ := List.mem_filterMap.mp hsteps
  exact isName_of_piece (not_mem_of_mem_pieces hpiece) hstep

/-! ## Locations -/

namespace Location

/-- Whether the names of a location are names. -/
def IsProper (l : Location) : Prop :=
  ∀ s ∈ l.names, IsName s

theorem IsProper.take {l : Location} (h : l.IsProper) (n : Nat) :
    (Location.mk l.absolute (l.names.take n)).IsProper :=
  fun s hs => h s (List.mem_of_mem_take hs)

theorem IsProper.step {l : Location} (h : l.IsProper) {c : Component}
    (hc : ∀ s, c = .name s → IsName s) : (l.step c).IsProper := by
  cases c with
  | top => exact fun s hs => absurd hs List.not_mem_nil
  | here => exact h
  | up => exact fun s hs => h s ((List.dropLast_sublist l.names).subset hs)
  | name s =>
    intro s' hs'
    rcases List.mem_append.mp hs' with hs' | hs'
    · exact h s' hs'
    · exact hc s' (by rw [List.mem_singleton.mp hs'])

theorem isProper_foldl {cs : List Component} (hcs : ∀ s, .name s ∈ cs → IsName s)
    {l : Location} (h : l.IsProper) : (cs.foldl step l).IsProper := by
  induction cs generalizing l with
  | nil => exact h
  | cons c cs ih =>
    apply ih fun s hs => hcs s (List.mem_cons_of_mem c hs)
    exact h.step fun s hs => hcs s (hs ▸ List.mem_cons_self)

end Location

open Location

theorem isProper_location (p : FilePath) : p.location.IsProper :=
  isProper_foldl (fun _ => isName_of_mem_components) fun _ hs => absurd hs List.not_mem_nil

/-! ## The text of a location -/

/-- Names joined by slashes are cut into the names again. -/
theorem pieces_intercalate {names : List String} (h : ∀ s ∈ names, IsName s) (hne : names ≠ []) :
    pieces '/' (String.intercalate "/" names).toList = names.map String.toList := by
  rw [String.toList_intercalate]
  induction names with
  | nil => exact absurd rfl hne
  | cons s names ih =>
    have hs : '/' ∉ s.toList := (h s List.mem_cons_self).noSlash
    cases names with
    | nil => rw [List.map_singleton, List.intercalate_singleton, pieces_of_not_mem hs]
    | cons s' names =>
      have hrest := ih (fun r hr => h r (List.mem_cons_of_mem s hr)) (List.cons_ne_nil s' names)
      rw [List.map_cons, List.map_cons, List.intercalate_cons_cons, List.append_assoc,
        show "/".toList ++ List.intercalate "/".toList (s'.toList :: names.map String.toList) =
          '/' :: List.intercalate "/".toList ((s' :: names).map String.toList) from rfl,
        pieces_append_cons hs, hrest]
      rfl

theorem filterMap_stepOfPiece_names {names : List String} (h : ∀ s ∈ names, IsName s) :
    (names.map String.toList).filterMap stepOfPiece = names.map .name := by
  induction names with
  | nil => rfl
  | cons s names ih =>
    rw [List.map_cons, List.map_cons, List.filterMap_cons, (h s List.mem_cons_self).read,
      ih fun r hr => h r (List.mem_cons_of_mem s hr)]

/-- The names, read off the text that they are joined to. -/
theorem steps_intercalate {names : List String} (h : ∀ s ∈ names, IsName s) :
    (pieces '/' (String.intercalate "/" names).toList).filterMap stepOfPiece =
      names.map .name := by
  by_cases hne : names = []
  · subst hne
    rfl
  · rw [pieces_intercalate h hne, filterMap_stepOfPiece_names h]

/-- A path in normal form takes the steps that its location names. -/
theorem components_toPath {l : Location} (h : l.IsProper) :
    l.toPath.components = (if l.absolute then [.top] else []) ++ l.names.map .name := by
  obtain ⟨absolute, names⟩ := l
  cases absolute with
  | true =>
    have htext : (toPath ⟨true, names⟩).text.toList =
        '/' :: (String.intercalate "/" names).toList := String.toList_append
    have htop : (toPath ⟨true, names⟩).isAbsolute = true := by
      rw [isAbsolute, htext]
      rfl
    unfold components
    dsimp only
    rw [if_pos htop, if_pos rfl, htext, pieces, if_pos rfl, List.filterMap_cons]
    exact congrArg (Component.top :: ·) (steps_intercalate h)
  | false =>
    -- the text is that of the first name, which begins with no slash and is no dot
    have hhead : (pieces '/' (String.intercalate "/" names).toList).head? ≠ some ['.'] := by
      intro hdot
      cases names with
      | nil => cases hdot
      | cons s names =>
        rw [pieces_intercalate h (List.cons_ne_nil s names)] at hdot
        exact (h s List.mem_cons_self).toList_ne_dot (Option.some.inj hdot)
    have htop : (toPath ⟨false, names⟩).isAbsolute = false := by
      show decide ((String.intercalate "/" names).toList.head? = some '/') = false
      apply decide_eq_false
      intro hslash
      obtain ⟨rest, hrest⟩ := List.head?_eq_some_iff.mp hslash
      cases names with
      | nil => cases hslash
      | cons s names =>
        have hp := pieces_intercalate h (List.cons_ne_nil s names)
        rw [hrest, pieces, if_pos rfl] at hp
        exact (h s List.mem_cons_self).toList_ne_nil (List.cons.inj hp).1.symm
    unfold components
    dsimp only
    rw [if_neg (ne_true_of_eq_false htop), if_neg Bool.false_ne_true, List.nil_append]
    exact (if_neg hhead).trans (steps_intercalate h)

/-- The steps of a path in normal form determine it. -/
theorem toPath_eq_of_components_eq {l l' : Location} (h : l.IsProper) (h' : l'.IsProper)
    (heq : l.toPath.components = l'.toPath.components) : l.toPath = l'.toPath := by
  rw [components_toPath h, components_toPath h'] at heq
  have hnames (heq : l.names.map Component.name = l'.names.map .name) : l.names = l'.names :=
    (List.map_inj_right fun _ _ => Component.name.inj).mp heq
  -- no name is the top
  have htop (names names' : List String) :
      .top :: names.map Component.name ≠ names'.map Component.name := by
    cases names' <;> exact nofun
  obtain ⟨absolute, names⟩ := l
  obtain ⟨absolute', names'⟩ := l'
  cases absolute with
  | true =>
    cases absolute' with
    | true => exact congrArg (fun ns => toPath ⟨true, ns⟩) (hnames (List.cons.inj heq).2)
    | false => exact absurd heq (htop names names')
  | false =>
    cases absolute' with
    | true => exact absurd heq.symm (htop names' names)
    | false => exact congrArg (fun ns => toPath ⟨false, ns⟩) (hnames heq)

/-- Whether a path is written in normal form. -/
def IsNormal (p : FilePath) : Prop :=
  ∃ l : Location, l.IsProper ∧ p = l.toPath

theorem isNormal_normalize (p : FilePath) : p.normalize.IsNormal :=
  ⟨p.location, isProper_location p, rfl⟩

theorem IsNormal.eq_of_components_eq {p q : FilePath} (hp : p.IsNormal) (hq : q.IsNormal)
    (h : p.components = q.components) : p = q := by
  obtain ⟨l, hl, rfl⟩ := hp
  obtain ⟨l', hl', rfl⟩ := hq
  exact toPath_eq_of_components_eq hl hl' h

end RouteAtlas.FilePath
