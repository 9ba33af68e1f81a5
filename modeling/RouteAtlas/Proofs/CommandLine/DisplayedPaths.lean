import RouteAtlas.CommandLine.Report
import RouteAtlas.Proofs.FilePath.Order
import RouteAtlas.Proofs.FilePath.Steps
import RouteAtlas.Proofs.Text

/-!
# Paths as they are shown

A path is shown without the text of the canonical root.  Taking text away is not the same as going
down from a directory: what is left is the way down only if a step ends where the text of the root
does (`stepsIn_append_iff`), and a sibling whose name goes on from that of the root
(`/shop/app2` below `/shop/app`) is cut inside its name.  So **a path is shown faithfully exactly if
it goes on from the root step by step, or neither lies below the root nor begins with its text**
(`displayPath_faithful_iff`), and two paths are shown alike exactly if the same is left of both.
-/

set_option autoImplicit false

namespace RouteAtlas

open Text

namespace FilePath

/-! ## Steps of texts that are put together -/

/-- The steps that the pieces of a text stand for. -/
def stepsIn (cs : List Char) : List Component :=
  (pieces '/' cs).filterMap stepOfPiece

theorem components_of_isAbsolute {p : FilePath} (h : p.isAbsolute = true) :
    p.components = .top :: stepsIn p.text.toList :=
  if_pos h

theorem stepsIn_append_slash (s t : List Char) :
    stepsIn (s ++ '/' :: t) = stepsIn s ++ stepsIn t := by
  rw [stepsIn, pieces_append_sep, List.filterMap_append]
  rfl

theorem stepsIn_slash_cons (t : List Char) : stepsIn ('/' :: t) = stepsIn t :=
  stepsIn_append_slash [] t

/-- Slashes at the beginning stand for no step. -/
theorem stepsIn_dropWhile_slash (t : List Char) : stepsIn (t.dropWhile (· = '/')) = stepsIn t := by
  induction t with
  | nil => rfl
  | cons c t ih =>
    by_cases hc : c = '/'
    · rw [hc, List.dropWhile_cons_of_pos (by simp), ih, stepsIn_slash_cons]
    · rw [List.dropWhile_cons_of_neg (by simpa using hc)]

/-- The piece that stands for a step. -/
def Component.piece : Component → List Char
  | up => ['.', '.']
  | name s => s.toList
  | _ => []

theorem piece_of_stepOfPiece {q : List Char} {c : Component} (h : stepOfPiece q = some c) :
    c.piece = q := by
  unfold stepOfPiece at h
  split at h
  · cases h
  · split at h
    · rename_i hup
      cases h
      exact hup.symm
    · cases h
      exact String.toList_ofList

/-- Two pieces in one stand for another step than the two in turn. -/
theorem toList_stepOfPiece_append_ne {p q : List Char} (hp : p ≠ []) (hq : q ≠ []) :
    (stepOfPiece (p ++ q)).toList ≠ (stepOfPiece p).toList ++ (stepOfPiece q).toList := by
  intro h
  cases hpq : stepOfPiece (p ++ q) with
  | none =>
    -- the two are at least two characters, and no dot alone
    obtain ⟨a, p, rfl⟩ := List.exists_cons_of_ne_nil hp
    have hidle := stepOfPiece_eq_none_iff.mp hpq
    simp [hq] at hidle
  | some c =>
    have hpiece : c.piece = p ++ q := piece_of_stepOfPiece hpq
    rw [hpq] at h
    cases hpc : stepOfPiece p with
    | none =>
      rw [hpc] at h
      have hqc : stepOfPiece q = some c := Option.toList_eq_singleton_iff.mp h.symm
      rw [piece_of_stepOfPiece hqc] at hpiece
      exact hp (List.self_eq_append_left.mp hpiece)
    | some a =>
      rw [hpc] at h
      obtain ⟨rfl, -⟩ := List.cons.inj h
      rw [piece_of_stepOfPiece hpc] at hpiece
      exact hq (List.self_eq_append_right.mp hpiece)

/-- Whether a step ends between two texts. -/
def StepEnds (s t : List Char) : Prop :=
  s = [] ∨ t = [] ∨ t.head? = some '/' ∨ s.getLast? = some '/'

/-- The steps of two texts are those of the texts put together exactly if a step ends between
them. -/
theorem stepsIn_append_iff {s t : List Char} :
    stepsIn (s ++ t) = stepsIn s ++ stepsIn t ↔ StepEnds s t := by
  constructor
  · intro h
    by_contra hends
    obtain ⟨hs, ht, hhead, hlast⟩ :
        s ≠ [] ∧ t ≠ [] ∧ t.head? ≠ some '/' ∧ s.getLast? ≠ some '/' := by
      simpa [StepEnds] using hends
    obtain ⟨front, p, q, back, hpieces, hpieces', hall⟩ := exists_pieces_append '/' s t
    have hp : p ≠ [] := ne_nil_of_pieces_eq_concat hs hlast hpieces
    have hq : q ≠ [] := ne_nil_of_pieces_eq_cons ht hhead hpieces'
    -- what stands in front and behind is the same on both sides
    rw [stepsIn, stepsIn, stepsIn, hpieces, hpieces', hall] at h
    simp only [List.filterMap_eq_flatMap_toList, List.flatMap_append, List.flatMap_cons,
      List.flatMap_nil, List.append_nil, List.append_assoc, List.append_cancel_left_eq] at h
    rw [← List.append_assoc, List.append_left_inj] at h
    exact toList_stepOfPiece_append_ne hp hq h
  · rintro (rfl | rfl | h | h)
    · rfl
    · rw [List.append_nil]
      exact (List.append_nil _).symm
    · obtain ⟨t, rfl⟩ := List.head?_eq_some_iff.mp h
      rw [stepsIn_append_slash, stepsIn_slash_cons]
    · obtain ⟨s, rfl⟩ := List.getLast?_eq_some_iff.mp h
      rw [List.append_assoc, List.singleton_append, stepsIn_append_slash, stepsIn_append_slash]
      exact congrArg (· ++ stepsIn t) (List.append_nil _).symm

/-! ## Below a directory -/

/-- Whether a path goes on from where the text of a directory ends, step by step. -/
def GoesOnFrom (path dir : FilePath) : Prop :=
  dir.text ≠ "" ∧ ∃ rest, path.text.toList = dir.text.toList ++ rest ∧ StepEnds dir.text.toList rest

/-- Whether a path is shown, below a directory, as what leads there from the directory, and
elsewhere as itself. -/
def IsShownFaithfully (path dir : FilePath) (shown : String) : Prop :=
  if path.isWithin dir then
    (FilePath.mk shown).isAbsolute = false ∧ (dir.join shown).same path = true
  else shown = path.text

section Faithful

variable {p q dir : FilePath} {shown : String} {rest : List Char}

/-- Paths that are shown faithfully, and alike, are the same path. -/
theorem IsShownFaithfully.same (hp : p.IsShownFaithfully dir shown)
    (hq : q.IsShownFaithfully dir shown) (hpa : p.isAbsolute = true) (hqa : q.isAbsolute = true) :
    p.same q = true := by
  unfold IsShownFaithfully at hp hq
  rw [same_iff]
  split at hp
  · split at hq
    · exact (same_iff.mp hp.2).symm.trans (same_iff.mp hq.2)
    · -- what leads down from a directory is relative
      exact absurd (hq ▸ hp.1) (by simp [hqa])
  · split at hq
    · exact absurd (hp ▸ hq.1) (by simp [hpa])
    · exact congrArg (fun text => (FilePath.mk text).components) (hp.symm.trans hq)

/-- Without slashes at its beginning, a text is no absolute path. -/
theorem isAbsolute_ofList_dropWhile (cs : List Char) :
    (FilePath.mk (String.ofList (cs.dropWhile (· = '/')))).isAbsolute = false := by
  have h := List.head?_dropWhile_not (· = '/') cs
  rw [isAbsolute, String.toList_ofList]
  cases hcs : (cs.dropWhile (· = '/')).head? with
  | none => rfl
  | some c =>
    rw [hcs] at h
    simpa using h

/-- A directory whose text begins an absolute path is absolute, too, unless that text is empty. -/
theorem isAbsolute_iff_of_append (hp : p.isAbsolute = true)
    (h : p.text.toList = dir.text.toList ++ rest) : dir.isAbsolute = true ↔ dir.text ≠ "" := by
  have hhead : (dir.text.toList ++ rest).head? = some '/' := h ▸ of_decide_eq_true hp
  rw [isAbsolute, decide_eq_true_iff, ne_eq, ← String.toList_eq_nil_iff]
  cases hdir : dir.text.toList with
  | nil => simp
  | cons c cs => simpa [hdir] using hhead

theorem goesOnFrom_iff_of_append (hp : p.isAbsolute = true)
    (h : p.text.toList = dir.text.toList ++ rest) :
    p.GoesOnFrom dir ↔ dir.isAbsolute = true ∧ StepEnds dir.text.toList rest := by
  rw [isAbsolute_iff_of_append hp h]
  constructor
  · rintro ⟨hne, rest', h', hends⟩
    rw [List.append_cancel_left (h.symm.trans h')]
    exact ⟨hne, hends⟩
  · rintro ⟨hne, hends⟩
    exact ⟨hne, rest, h, hends⟩

theorem GoesOnFrom.isWithin (h : p.GoesOnFrom dir) (hp : p.isAbsolute = true) :
    p.isWithin dir = true := by
  obtain ⟨rest, hrest, -⟩ := h.2
  obtain ⟨hdir, hends⟩ := (goesOnFrom_iff_of_append hp hrest).mp h
  apply List.isPrefixOf_iff_prefix.mpr
  rw [components_of_isAbsolute hdir, components_of_isAbsolute hp, hrest,
    stepsIn_append_iff.mpr hends]
  exact List.prefix_append _ _

/-- What is left of a path that begins with the text of a directory leads there from the directory
exactly if the path goes on from it. -/
theorem isShownFaithfully_iff_of_append (hp : p.isAbsolute = true)
    (h : p.text.toList = dir.text.toList ++ rest) :
    p.IsShownFaithfully dir (String.ofList (rest.dropWhile (· = '/'))) ↔ p.GoesOnFrom dir := by
  have hrelative := isAbsolute_ofList_dropWhile rest
  have hcomponents : p.components = .top :: stepsIn (dir.text.toList ++ rest) := by
    rw [components_of_isAbsolute hp, h]
  obtain ⟨habsolute, hsteps⟩ := dir.steps_join (of_decide_eq_false hrelative)
  have hjoined (hdir : dir.isAbsolute = true) :
      (dir.join (String.ofList (rest.dropWhile (· = '/')))).components =
        .top :: (stepsIn dir.text.toList ++ stepsIn rest) := by
    rw [components_of_isAbsolute (habsolute.trans hdir), ← stepsIn_dropWhile_slash rest]
    rw [String.toList_ofList] at hsteps
    exact congrArg (Component.top :: ·) hsteps
  have hsame : (dir.join (String.ofList (rest.dropWhile (· = '/')))).same p = true ↔
      p.GoesOnFrom dir := by
    rw [same_iff, goesOnFrom_iff_of_append hp h, ← stepsIn_append_iff]
    constructor
    · intro hsame
      have hdir : dir.isAbsolute = true := by
        rw [← habsolute, isAbsolute_iff_head?_components, hsame, hcomponents]
        rfl
      rw [hjoined hdir, hcomponents] at hsame
      exact ⟨hdir, (List.cons.inj hsame).2.symm⟩
    · rintro ⟨hdir, hends⟩
      rw [hjoined hdir, hcomponents, hends]
  unfold IsShownFaithfully
  split
  · exact ⟨fun hshown => hsame.mp hshown.2, fun hgoes => ⟨hrelative, hsame.mpr hgoes⟩⟩
  · rename_i hwithin
    constructor
    · intro hshown
      rw [hshown] at hrelative
      exact absurd hp (by simp [hrelative])
    · exact fun hgoes => absurd (hgoes.isWithin hp) hwithin

/-- A path in normal form goes on from a directory in normal form in which it lies. -/
theorem goesOnFrom_of_isWithin (hp : p.IsNormal) (hpa : p.isAbsolute = true) (hdir : dir.IsNormal)
    (hne : dir.text ≠ "") (h : p.isWithin dir = true) : p.GoesOnFrom dir := by
  obtain ⟨⟨absolute, names⟩, hnames, rfl⟩ := hp
  obtain ⟨⟨absolute', names'⟩, hnames', rfl⟩ := hdir
  have hprefix := List.isPrefixOf_iff_prefix.mp h
  rw [isAbsolute_toPath hnames] at hpa
  rw [components_toPath hnames, components_toPath hnames', if_pos hpa] at hprefix
  cases absolute' with
  | false =>
    -- only the empty path is relative and leads to no other place than the top does
    cases names' with
    | nil => exact absurd rfl hne
    | cons s names' => simp at hprefix
  | true =>
    obtain ⟨more, rfl⟩ : names' <+: names :=
      (List.prefix_map_iff_of_injective fun _ _ => Component.name.inj).mp
        (List.cons_prefix_cons.mp hprefix).2
    have htext (names : List String) : (Location.mk true names).toPath.text.toList =
        '/' :: (String.intercalate "/" names).toList := String.toList_append
    cases hpa
    refine ⟨hne, ?_⟩
    simp only [htext]
    by_cases hnames' : names' = []
    · exact ⟨(String.intercalate "/" more).toList, by simp [hnames'], by simp [StepEnds, hnames']⟩
    · by_cases hmore : more = []
      · exact ⟨[], by simp [hmore], .inr (.inl rfl)⟩
      · refine ⟨'/' :: (String.intercalate "/" more).toList, ?_, .inr (.inr (.inl rfl))⟩
        rw [String.intercalate_append_of_ne_nil hnames' hmore]
        simp

end Faithful

end FilePath

namespace CommandLine

open FilePath

section Displayed

variable {t : FileTree} {root dir p q : FilePath} {rest : List Char}
  (hdir : dir.text = t.key root)

include hdir

theorem displayPath_of_eq_append (h : p.text.toList = dir.text.toList ++ rest) :
    displayPath t root p.text = String.ofList (rest.dropWhile (· = '/')) := by
  have hprefix : dir.text.toList.isPrefixOf p.text.toList = true :=
    List.isPrefixOf_iff_prefix.mpr ⟨rest, h.symm⟩
  have hdrop : p.text.toList.drop dir.text.toList.length = rest := h ▸ List.drop_left
  rw [displayPath, ← hdir, if_pos hprefix, hdrop]

theorem displayPath_of_elsewhere (h : ¬dir.text.toList <+: p.text.toList) :
    displayPath t root p.text = p.text := by
  rw [displayPath, ← hdir]
  exact if_neg (mt List.isPrefixOf_iff_prefix.mp h)

/-- What begins with the text of the root, and nothing else, is shown as if it were inside. -/
theorem isAbsolute_displayPath_eq_false_iff (hp : p.isAbsolute = true) :
    (FilePath.mk (displayPath t root p.text)).isAbsolute = false ↔
      dir.text.toList <+: p.text.toList := by
  constructor
  · intro hshown
    by_contra h
    rw [displayPath_of_elsewhere hdir h] at hshown
    exact absurd hp (by simp [hshown])
  · rintro ⟨rest, h⟩
    rw [displayPath_of_eq_append hdir h.symm]
    exact isAbsolute_ofList_dropWhile rest

theorem isShownFaithfully_displayPath_iff (hp : p.isAbsolute = true) :
    p.IsShownFaithfully dir (displayPath t root p.text) ↔
      p.GoesOnFrom dir ∨ ¬dir.text.toList <+: p.text.toList ∧ p.isWithin dir = false := by
  by_cases h : dir.text.toList <+: p.text.toList
  · obtain ⟨rest, hrest⟩ := id h
    rw [displayPath_of_eq_append hdir hrest.symm, isShownFaithfully_iff_of_append hp hrest.symm]
    exact (or_iff_left fun houtside => houtside.1 h).symm
  · have hgoes : ¬p.GoesOnFrom dir := fun ⟨_, rest, hrest, _⟩ => h ⟨rest, hrest.symm⟩
    have hrelative : ¬(FilePath.mk p.text).isAbsolute = false := ne_false_of_eq_true hp
    rw [displayPath_of_elsewhere hdir h, IsShownFaithfully]
    simp [h, hgoes, hrelative]

theorem displayPath_eq_iff (hp : p.isAbsolute = true) (hq : q.isAbsolute = true) :
    displayPath t root p.text = displayPath t root q.text ↔
      p = q ∨ ∃ rest rest', p.text.toList = dir.text.toList ++ rest ∧
        q.text.toList = dir.text.toList ++ rest' ∧
        rest.dropWhile (· = '/') = rest'.dropWhile (· = '/') := by
  constructor
  · intro heq
    have hbegins : dir.text.toList <+: p.text.toList ↔ dir.text.toList <+: q.text.toList := by
      rw [← isAbsolute_displayPath_eq_false_iff hdir hp,
        ← isAbsolute_displayPath_eq_false_iff hdir hq, heq]
    by_cases h : dir.text.toList <+: p.text.toList
    · obtain ⟨rest, hrest⟩ := id h
      obtain ⟨rest', hrest'⟩ := hbegins.mp h
      rw [displayPath_of_eq_append hdir hrest.symm,
        displayPath_of_eq_append hdir hrest'.symm] at heq
      exact .inr ⟨rest, rest', hrest.symm, hrest'.symm, String.ofList_injective heq⟩
    · rw [displayPath_of_elsewhere hdir h,
        displayPath_of_elsewhere hdir (mt hbegins.mpr h)] at heq
      exact .inl (congrArg FilePath.mk heq)
  · rintro (rfl | ⟨rest, rest', hrest, hrest', heq⟩)
    · rfl
    · rw [displayPath_of_eq_append hdir hrest, displayPath_of_eq_append hdir hrest', heq]

/-- **An absolute path is shown faithfully exactly if it goes on from the canonical root step by
step, or neither lies below the root nor begins with the text of the root**; when both are in normal
form, exactly if it does not begin with that text without lying below the root.  Every path that
begins with the text of the root, and no other, is shown as if it were inside.  Two paths are shown
alike exactly if they go on alike behind the text of the root, but for slashes; so paths that are
shown faithfully are not, unless they are the same. -/
theorem displayPath_faithful_iff (hp : p.isAbsolute = true) :
    (p.IsShownFaithfully dir (displayPath t root p.text) ↔
      p.GoesOnFrom dir ∨ ¬dir.text.toList <+: p.text.toList ∧ p.isWithin dir = false) ∧
    (p.IsNormal → dir.IsNormal → dir.text ≠ "" →
      (p.IsShownFaithfully dir (displayPath t root p.text) ↔
        (dir.text.toList <+: p.text.toList → p.isWithin dir = true))) ∧
    ((FilePath.mk (displayPath t root p.text)).isAbsolute = false ↔
      dir.text.toList <+: p.text.toList) ∧
    ∀ q : FilePath, q.isAbsolute = true →
      (displayPath t root p.text = displayPath t root q.text ↔
        p = q ∨ ∃ rest rest', p.text.toList = dir.text.toList ++ rest ∧
          q.text.toList = dir.text.toList ++ rest' ∧
          rest.dropWhile (· = '/') = rest'.dropWhile (· = '/')) ∧
      (p.IsShownFaithfully dir (displayPath t root p.text) →
        q.IsShownFaithfully dir (displayPath t root q.text) →
        displayPath t root p.text = displayPath t root q.text → p.same q = true) := by
  have hfaithful := isShownFaithfully_displayPath_iff hdir hp
  refine ⟨hfaithful, fun hnormal hroot hne => ?_, isAbsolute_displayPath_eq_false_iff hdir hp,
    fun q hq => ⟨displayPath_eq_iff hdir hp hq, fun hfp hfq heq => ?_⟩⟩
  · rw [hfaithful]
    constructor
    · rintro (hgoes | houtside) hbegins
      · exact hgoes.isWithin hp
      · exact absurd hbegins houtside.1
    · intro h
      cases hwithin : p.isWithin dir with
      | true => exact .inl (goesOnFrom_of_isWithin hnormal hp hroot hne hwithin)
      | false => exact .inr ⟨fun hbegins => by simp [h hbegins] at hwithin, rfl⟩
  · rw [← heq] at hfq
    exact hfp.same hfq hp hq

end Displayed

/-- A directory with a file below it, and one beside it whose name goes on from its name. -/
def siblings : FileTree :=
  ⟨.directory [("shop", .directory [
    ("app", .directory [("2", .directory [("h.js", .file "".toUTF8 false)])]),
    ("app2", .directory [("h.js", .file "".toUTF8 false)])])], []⟩

theorem displayPath_faithful_iff_below :
    let root := FilePath.mk "/shop/app"
    let p := FilePath.mk "/shop/app/2/h.js"
    root.text = siblings.key root ∧ p.isAbsolute = true ∧ p.IsNormal ∧ root.IsNormal ∧
      p.IsShownFaithfully root (displayPath siblings root p.text) := by
  intro root p
  have hroot : root.text = siblings.key root := by decide +kernel
  have hp : p.isAbsolute = true := by decide
  have hnormal : p.IsNormal := by
    rw [show p = p.normalize by decide +kernel]
    exact isNormal_normalize p
  have hnormal' : root.IsNormal := by
    rw [show root = root.normalize by decide +kernel]
    exact isNormal_normalize root
  refine ⟨hroot, hp, hnormal, hnormal', ?_⟩
  exact ((displayPath_faithful_iff hroot hp).2.1 hnormal hnormal' (by decide)).mpr
    fun _ => by decide +kernel

/-- A sibling whose name goes on from that of the root is cut inside its name, and is shown as if it
were below the root and like another path that is. -/
theorem sibling_shown_below :
    let root := FilePath.mk "/shop/app"
    let sibling := FilePath.mk "/shop/app2/h.js"
    siblings.key root = root.text ∧ siblings.isFile sibling = true ∧
      siblings.key sibling = sibling.text ∧ sibling.isWithin root = false ∧
      displayPath siblings root sibling.text = "2/h.js" ∧
      ¬sibling.IsShownFaithfully root (displayPath siblings root sibling.text) ∧
      siblings.isFile ⟨"/shop/app/2/h.js"⟩ = true ∧
      displayPath siblings root "/shop/app/2/h.js" = "2/h.js" := by
  intro root sibling
  have hoverlap : displayPath siblings root sibling.text = "2/h.js" := by decide +kernel
  have hwithin : sibling.isWithin root = false := by decide +kernel
  refine ⟨by decide +kernel, by decide +kernel, by decide +kernel, hwithin, hoverlap, ?_,
    by decide +kernel, by decide +kernel⟩
  rw [hoverlap, IsShownFaithfully, if_neg (by simp [hwithin])]
  decide

end CommandLine

end RouteAtlas
