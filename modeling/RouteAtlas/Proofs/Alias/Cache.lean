import RouteAtlas.Alias.Resolver
import RouteAtlas.Proofs.FilePath

/-!
# What a cache remembers

A cache is asked for configurations and for answers, and grows while it is asked.  What it *gives*
for a directory is the configuration it remembers, or the one that is there now.  Asking never
changes what it gives (`Alike`): what is remembered is what would have been read.  So an answer does
not depend on the questions asked before it (`resolve_after_resolve`).

Configurations are remembered for the steps of a directory and read from its text.  The two agree
because every directory that is asked for is in normal form.
-/

set_option autoImplicit false

namespace RouteAtlas.Alias

open FilePath

variable {t : FileTree} {c c' : Cache}

/-! ## Configurations -/

theorem isNormal_of_mem_levels {root dir p : FilePath} (h : p ∈ levels root dir) : p.IsNormal := by
  obtain ⟨n, -, rfl⟩ := List.mem_map.mp ((List.takeWhile_sublist _).subset h)
  exact ⟨_, (isProper_location dir).take _, rfl⟩

namespace Cache

/-- The configuration of a directory that a cache gives. -/
def given (c : Cache) (t : FileTree) (d : Dialect) (dir : FilePath) : Option Config :=
  (c.configs.lookup (d, dir.components)).getD (d.load t dir)

/-- What the configuration that a cache gives for a place maps a specifier to. -/
def mapped (c : Cache) (t : FileTree) (specifier : String) (place : FilePath × Dialect) :
    Option FilePath :=
  (c.given t place.2 place.1).bind fun f => f.resolve t specifier

/-- Whether two caches give the same for every directory. -/
def Alike (t : FileTree) (c c' : Cache) : Prop :=
  ∀ (d : Dialect) (dir : FilePath), dir.IsNormal → c'.given t d dir = c.given t d dir

theorem Alike.refl (c : Cache) : Alike t c c :=
  fun _ _ _ => rfl

theorem Alike.trans {c'' : Cache} (h : Alike t c c') (h' : Alike t c' c'') : Alike t c c'' :=
  fun d dir hdir => (h' d dir hdir).trans (h d dir hdir)

theorem Alike.mapped_eq (h : Alike t c c') {place : FilePath × Dialect} (hplace : place.1.IsNormal)
    (specifier : String) : c'.mapped t specifier place = c.mapped t specifier place := by
  rw [mapped, h place.2 place.1 hplace]
  rfl

/-- What a cache gives is a matter of the configurations it remembers. -/
theorem Alike.of_configs_eq {c'' : Cache} (h : Alike t c c') (heq : c''.configs = c'.configs) :
    Alike t c c'' := by
  intro d dir hdir
  rw [given, heq]
  exact h d dir hdir

theorem config_fst (c : Cache) (t : FileTree) (d : Dialect) (dir : FilePath) :
    (c.config t d dir).1 = c.given t d dir := by
  unfold config given
  dsimp only
  cases c.configs.lookup (d, dir.components) <;> rfl

theorem answers_config (c : Cache) (t : FileTree) (d : Dialect) (dir : FilePath) :
    (c.config t d dir).2.answers = c.answers := by
  unfold config
  dsimp only
  cases c.configs.lookup (d, dir.components) <;> rfl

/-- A configuration that is remembered from now on is the one that was given. -/
theorem alike_config (c : Cache) (t : FileTree) (d : Dialect) {dir : FilePath}
    (hdir : dir.IsNormal) : Alike t c (c.config t d dir).2 := by
  intro d' dir' hdir'
  unfold config
  dsimp only
  cases hknown : c.configs.lookup (d, dir.components) with
  | some known => rfl
  | none =>
    unfold given
    rw [List.lookup_cons]
    by_cases hkey : (d', dir'.components) = (d, dir.components)
    · obtain ⟨rfl, hsteps⟩ := Prod.mk.inj hkey
      obtain rfl := hdir'.eq_of_components_eq hdir hsteps
      rw [BEq.rfl, hknown]
      rfl
    · rw [beq_false_of_ne hkey]

end Cache

open Cache

/-! ## Answers -/

theorem findSome?_congr {α β : Type} {f g : α → Option β} {xs : List α}
    (h : ∀ x ∈ xs, f x = g x) : xs.findSome? f = xs.findSome? g := by
  induction xs with
  | nil => rfl
  | cons x xs ih =>
    rw [List.findSome?_cons, List.findSome?_cons, h x List.mem_cons_self,
      ih fun y hy => h y (List.mem_cons_of_mem x hy)]

/-- The first hit is the first among what the cache gives at the start. -/
theorem firstHit_fst {specifier : String} {places : List (FilePath × Dialect)}
    (h : ∀ place ∈ places, place.1.IsNormal) (c : Cache) :
    (firstHit t specifier places c).1 =
      places.findSome? (c.mapped t specifier) := by
  induction places generalizing c with
  | nil => rfl
  | cons place places ih =>
    obtain ⟨dir, d⟩ := place
    have hrest : ∀ p ∈ places, p.1.IsNormal := fun p hp => h p (List.mem_cons_of_mem _ hp)
    have halike : Alike t c (c.config t d dir).2 := alike_config c t d (h _ List.mem_cons_self)
    rw [firstHit, List.findSome?_cons]
    dsimp only
    rw [config_fst, show (c.given t d dir).bind (fun f => f.resolve t specifier) =
      c.mapped t specifier (dir, d) from rfl]
    cases c.mapped t specifier (dir, d) with
    | some hit => rfl
    | none =>
      dsimp only
      rw [ih hrest]
      exact findSome?_congr fun p hp => halike.mapped_eq (hrest p hp) specifier

theorem alike_firstHit {specifier : String} {places : List (FilePath × Dialect)}
    (h : ∀ place ∈ places, place.1.IsNormal) (c : Cache) :
    Alike t c (firstHit t specifier places c).2 := by
  induction places generalizing c with
  | nil => exact .refl c
  | cons place places ih =>
    obtain ⟨dir, d⟩ := place
    have halike : Alike t c (c.config t d dir).2 := alike_config c t d (h _ List.mem_cons_self)
    rw [firstHit]
    dsimp only
    split
    · exact halike
    · exact halike.trans (ih (fun p hp => h p (List.mem_cons_of_mem _ hp)) _)

theorem answers_firstHit (specifier : String) (places : List (FilePath × Dialect)) (c : Cache) :
    (firstHit t specifier places c).2.answers = c.answers := by
  induction places generalizing c with
  | nil => rfl
  | cons place places ih =>
    rw [firstHit]
    dsimp only
    split
    · exact answers_config ..
    · rw [ih, answers_config]

/-! ## Questions asked for the first time -/

/-- Whether a specifier, its blanks trimmed, names a module by neither a relative nor an absolute
path. -/
def isBare (specifier : String) : Bool :=
  !specifier.isEmpty && !isRelative specifier && !specifier.startsWith "/"

/-- The places where a specifier of an importing file is looked up, in order. -/
def placesOf (root importer : FilePath) (specifier : String) : List (FilePath × Dialect) :=
  match importer.parent? with
  | none => []
  | some parent =>
    if isBare (Text.trim specifier) then
      (levels root.normalize parent.normalize).flatMap fun dir => Dialect.order.map (dir, ·)
    else []

/-- The file that a specifier points to by itself, as a path. -/
def pointedTo (t : FileTree) (importer : FilePath) (specifier : String) : Option FilePath :=
  let specifier := Text.trim specifier
  importer.parent?.bind fun parent =>
    if isRelative specifier then probe t (parent.join specifier).normalize
    else if specifier.startsWith "/" then probe t ⟨specifier⟩
    else none

section

variable {root importer : FilePath} {specifier : String}

theorem isNormal_of_mem_placesOf {place : FilePath × Dialect}
    (h : place ∈ placesOf root importer specifier) : place.1.IsNormal := by
  unfold placesOf at h
  split at h
  · cases h
  · split at h
    · obtain ⟨dir, hdir, hplace⟩ := List.mem_flatMap.mp h
      obtain ⟨d, -, rfl⟩ := List.mem_map.mp hplace
      exact isNormal_of_mem_levels hdir
    · cases h

/-- A bare specifier is put to the configurations of its places. -/
theorem resolveAnew_of_isBare (h : isBare (Text.trim specifier) = true) (c : Cache) :
    resolveAnew t root importer specifier c =
      firstHit t (Text.trim specifier) (placesOf root importer specifier) c := by
  obtain ⟨⟨hempty, hrelative⟩, habsolute⟩ :
      (¬(Text.trim specifier).isEmpty ∧ ¬isRelative (Text.trim specifier)) ∧
        ¬(Text.trim specifier).startsWith "/" := by
    simpa [isBare] using h
  unfold resolveAnew placesOf
  dsimp only
  rw [if_neg hempty]
  cases importer.parent? with
  | none => rfl
  | some parent => simp only [if_neg hrelative, if_neg habsolute, if_pos h]

/-- Any other specifier is answered without a look at the cache. -/
theorem resolveAnew_of_not_isBare (h : isBare (Text.trim specifier) = false) (c : Cache) :
    resolveAnew t root importer specifier c = (pointedTo t importer specifier, c) := by
  unfold resolveAnew pointedTo
  dsimp only
  by_cases hempty : (Text.trim specifier).isEmpty
  · have hnone : Text.trim specifier = "" := String.isEmpty_iff.mp hempty
    rw [if_pos hempty, hnone]
    cases importer.parent? <;> rfl
  rw [if_neg hempty]
  cases importer.parent? with
  | none => rfl
  | some parent =>
    by_cases hrelative : isRelative (Text.trim specifier)
    · simp only [if_pos hrelative, Option.bind_some]
    · have habsolute : (Text.trim specifier).startsWith "/" := by
        simpa [isBare, hempty, hrelative] using h
      simp only [if_neg hrelative, if_pos habsolute, Option.bind_some]

end

variable (t) (root importer : FilePath) (specifier : String)

theorem resolveAnew_fst_eq_of_alike (h : Alike t c c') :
    (resolveAnew t root importer specifier c').1 =
      (resolveAnew t root importer specifier c).1 := by
  by_cases hbare : isBare (Text.trim specifier)
  · have hnormal : ∀ place ∈ placesOf root importer specifier, place.1.IsNormal :=
      fun place hplace => isNormal_of_mem_placesOf hplace
    rw [resolveAnew_of_isBare hbare, resolveAnew_of_isBare hbare, firstHit_fst hnormal,
      firstHit_fst hnormal]
    exact findSome?_congr fun place hplace => h.mapped_eq (hnormal place hplace) _
  · have hbare := eq_false_of_ne_true hbare
    rw [resolveAnew_of_not_isBare hbare, resolveAnew_of_not_isBare hbare]

theorem alike_resolveAnew (c : Cache) :
    Alike t c (resolveAnew t root importer specifier c).2 := by
  by_cases hbare : isBare (Text.trim specifier)
  · rw [resolveAnew_of_isBare hbare]
    exact alike_firstHit (fun place hplace => isNormal_of_mem_placesOf hplace) c
  · rw [resolveAnew_of_not_isBare (eq_false_of_ne_true hbare)]
    exact .refl c

theorem answers_resolveAnew (c : Cache) :
    (resolveAnew t root importer specifier c).2.answers = c.answers := by
  by_cases hbare : isBare (Text.trim specifier)
  · rw [resolveAnew_of_isBare hbare, answers_firstHit]
  · rw [resolveAnew_of_not_isBare (eq_false_of_ne_true hbare)]

/-! ## Questions one after the other -/

variable {t root importer specifier} in
/-- A question that was asked before has the answer it had. -/
theorem resolve_of_known {known : Option FilePath}
    (h : c.answers.lookup (importer.components, specifier) = some known) :
    resolve t root importer specifier c = (known, c) := by
  unfold resolve
  dsimp only
  rw [h]

variable {t root importer specifier} in
/-- Another one is resolved, and its answer remembered. -/
theorem resolve_of_new (h : c.answers.lookup (importer.components, specifier) = none) :
    resolve t root importer specifier c =
      let (answer, c) := resolveAnew t root importer specifier c
      (answer, { c with answers := ((importer.components, specifier), answer) :: c.answers }) := by
  unfold resolve
  dsimp only
  rw [h]

theorem resolve_fst (c : Cache) :
    (resolve t root importer specifier c).1 =
      (c.answers.lookup (importer.components, specifier)).getD
        (resolveAnew t root importer specifier c).1 := by
  cases hknown : c.answers.lookup (importer.components, specifier) with
  | some known => rw [resolve_of_known hknown, Option.getD_some]
  | none => rw [resolve_of_new hknown, Option.getD_none]

theorem alike_resolve (c : Cache) : Alike t c (resolve t root importer specifier c).2 := by
  cases hknown : c.answers.lookup (importer.components, specifier) with
  | some known =>
    rw [resolve_of_known hknown]
    exact .refl c
  | none =>
    rw [resolve_of_new hknown]
    have halike := alike_resolveAnew t root importer specifier c
    generalize resolveAnew t root importer specifier c = answered at halike ⊢
    exact halike.of_configs_eq rfl

/-- What is remembered after a question: its answer too. -/
theorem lookup_answers_resolve (c : Cache) (key : List Component × String) :
    (resolve t root importer specifier c).2.answers.lookup key =
      if key = (importer.components, specifier) then
        some (resolve t root importer specifier c).1
      else c.answers.lookup key := by
  cases hknown : c.answers.lookup (importer.components, specifier) with
  | some known =>
    rw [resolve_of_known hknown]
    split
    · rename_i hkey
      rw [hkey, hknown]
    · rfl
  | none =>
    rw [resolve_of_new hknown]
    dsimp only
    rw [List.lookup_cons, answers_resolveAnew]
    by_cases hkey : key = (importer.components, specifier)
    · rw [if_pos hkey, hkey, BEq.rfl]
    · rw [if_neg hkey, beq_false_of_ne hkey]

/-- **A question is answered as if no other had been asked before it**, be it asked by the same
file or by one with other steps. -/
theorem resolve_after_resolve (importer' : FilePath) (specifier' : String)
    (h : importer'.components = importer.components → importer' = importer) (c : Cache) :
    (resolve t root importer' specifier' (resolve t root importer specifier c).2).1 =
      (resolve t root importer' specifier' c).1 := by
  have halike := alike_resolve t root importer specifier c
  rw [resolve_fst t root importer' specifier', lookup_answers_resolve,
    resolveAnew_fst_eq_of_alike t root importer' specifier' halike]
  split
  · rename_i hkey
    obtain ⟨hsteps, rfl⟩ := Prod.mk.inj hkey
    rw [h hsteps]
    rfl
  · rw [← resolve_fst]

end RouteAtlas.Alias
