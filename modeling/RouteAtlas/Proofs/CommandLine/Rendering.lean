import Mathlib.Data.List.Basic
import RouteAtlas.CommandLine.Request

/-!
# Requests written as arguments

A request can be written with one option for each thing that it asks for (`Item`).  An option with a
value is two arguments, and the value may be any text, also one that looks like an option; reading
takes the two together and goes on behind them, as if what follows stood alone
(`withArguments_append_of_ok`).  So a sequence of options asks for what its items ask for one after
the other, and that depends on their order only as far as routes stand before routes and sources
before sources (`foldl_addTo`).  Hence **every interleaving of the options of a request is read as
the request**, and an option at the end that lacks its value is reported
(`ofArguments_interleaving`).
-/

set_option autoImplicit false

namespace RouteAtlas

/-- A number below 2^64 is read as it is written. -/
theorem decimal64?_toString {n : Nat} (h : n < Nat.pow 2 64) : decimal64? (toString n) = some n := by
  have htext : (toString n).toList = Nat.toDigits 10 n := by
    rw [Nat.toString_eq_repr, Nat.toList_repr]
  have hdigits : ∀ c ∈ Nat.toDigits 10 n, c.isDigit = true := fun c hc =>
    Nat.isDigit_of_mem_toDigits (by decide) (by decide) hc
  have hvalue : (Nat.toDigits 10 n).foldl (fun n c => n * 10 + (c.toNat - '0'.toNat)) 0 = n := by
    have hread := Nat.ofDigitChars_toDigits (b := 10) (n := n) (by decide) (by decide)
    rw [Nat.ofDigitChars] at hread
    simpa only [Nat.mul_comm] using hread
  obtain ⟨c, cs, hcs⟩ := List.exists_cons_of_ne_nil (Nat.toDigits_ne_nil (b := 10) (n := n))
  have hplus : c ≠ '+' := by
    rintro rfl
    exact absurd (hdigits '+' (hcs ▸ List.mem_cons_self)) (by decide)
  rw [hcs] at htext hdigits hvalue
  have hall : (c :: cs).all Char.isDigit = true := List.all_eq_true.mpr hdigits
  unfold decimal64?
  -- a digit is no sign, so the digits are all of the text
  simp only [htext, List.cons.injEq, hplus, false_and, imp_false, not_false_eq_true, implies_true]
  rw [hall, hvalue]
  exact if_pos h

namespace CommandLine

/-- One thing that is asked for on a command line. -/
inductive Item
  | root (path : FilePath)
  | route (path : String)
  | source (path : String)
  | timeout (milliseconds : Nat)
  | tests
  | list
  deriving DecidableEq, Repr

namespace Item

/-- The arguments that ask for it. -/
def words : Item → List String
  | root path => [ValueOption.root.name, path.text]
  | route path => [ValueOption.route.name, path]
  | source path => [ValueOption.source.name, path]
  | timeout milliseconds => [ValueOption.timeout.name, toString milliseconds]
  | tests => ["--tests"]
  | list => ["--list"]

/-- Whether it can be asked for: a time has to be below 2^64. -/
def Fits : Item → Prop
  | timeout milliseconds => milliseconds < Nat.pow 2 64
  | _ => True

/-- A request that asks for it, too. -/
def addTo (r : Request) : Item → Request
  | root path => { r with root := some path }
  | route path => { r with routes := r.routes ++ [path] }
  | source path => { r with sources := r.sources ++ [path] }
  | timeout milliseconds => { r with timeout := some milliseconds }
  | tests => { r with tests := true }
  | list => { r with list := true }

def root? : Item → Option FilePath
  | root path => some path
  | _ => none

def route? : Item → Option String
  | route path => some path
  | _ => none

def source? : Item → Option String
  | source path => some path
  | _ => none

def timeout? : Item → Option Nat
  | timeout milliseconds => some milliseconds
  | _ => none

end Item

namespace Request

open Item

section Reading

variable {isThere : String → Bool} {r : Request}

/-! ## Reading from the left -/

theorem withArguments_cons_of_none {arg : String} (h : valueOption? arg = none)
    (args : List String) :
    withArguments isThere r (arg :: args) =
      (r.withArgument isThere arg).bind (withArguments isThere · args) := by
  cases args with
  | nil =>
    rw [withArguments, h]
    cases r.withArgument isThere arg <;> rfl
  | cons value rest =>
    rw [withArguments, h]
    rfl

theorem withArguments_cons_of_some {arg : String} {option : ValueOption}
    (h : valueOption? arg = some option) (value : String) (args : List String) :
    withArguments isThere r (arg :: value :: args) =
      (r.withValue value option).bind (withArguments isThere · args) := by
  rw [withArguments, h]
  rfl

/-- What goes on otherwise behind something that makes sense. -/
theorem bind_eq_of_bind_eq_ok {ε α β : Type} {x : Except ε α} {f g : α → Except ε β} {b : β}
    {y : Except ε β} (h : x.bind f = .ok b) (hg : ∀ a, f a = .ok b → g a = y) : x.bind g = y := by
  cases x with
  | error e => cases h
  | ok a => exact hg a h

/-- What stands behind arguments that make sense is read as if it stood alone. -/
theorem withArguments_append_of_ok {r' : Request} {args : List String}
    (h : withArguments isThere r args = .ok r') (rest : List String) :
    withArguments isThere r (args ++ rest) = withArguments isThere r' rest := by
  -- along the reading: an option with a value takes two arguments at a time
  fun_induction withArguments isThere r args with
  | case1 r =>
    cases h
    rfl
  | case2 r arg option hoption => cases h
  | case3 r arg hoption =>
    rw [List.singleton_append, withArguments_cons_of_none hoption, h]
    rfl
  | case4 r arg value args option hoption ih =>
    rw [List.cons_append, List.cons_append, withArguments_cons_of_some hoption]
    exact bind_eq_of_bind_eq_ok h ih
  | case5 r arg value args hoption ih =>
    rw [List.cons_append, withArguments_cons_of_none hoption]
    exact bind_eq_of_bind_eq_ok h ih

/-- So an option without its value is reported, whatever sense stands in front of it. -/
theorem ofArguments_append_of_ok {args : List String} (h : empty.withArguments isThere args = .ok r)
    {name : String} {option : ValueOption} (hname : valueOption? name = some option) :
    ofArguments isThere (args ++ [name]) = .error (.missingValue option) := by
  rw [ofArguments, withArguments_append_of_ok h, withArguments, hname]
  rfl

@[simp] theorem valueOption?_name (option : ValueOption) :
    valueOption? option.name = some option := by
  cases option <;> rfl

theorem withArguments_words {item : Item} (h : item.Fits) :
    withArguments isThere r item.words = .ok (item.addTo r) := by
  cases item with
  | root path => exact withArguments_cons_of_some (valueOption?_name .root) path.text []
  | route path => exact withArguments_cons_of_some (valueOption?_name .route) path []
  | source path => exact withArguments_cons_of_some (valueOption?_name .source) path []
  | timeout milliseconds =>
    refine (withArguments_cons_of_some (valueOption?_name .timeout) _ []).trans ?_
    rw [withValue, decimal64?_toString h]
    rfl
  | tests => exact withArguments_cons_of_none rfl []
  | list => exact withArguments_cons_of_none rfl []

/-- Items are read one after the other. -/
theorem withArguments_flatMap_words {items : List Item} (h : ∀ item ∈ items, item.Fits) :
    withArguments isThere r (items.flatMap words) = .ok (items.foldl addTo r) := by
  induction items generalizing r with
  | nil => rfl
  | cons item items ih =>
    obtain ⟨hitem, hitems⟩ := List.forall_mem_cons.mp h
    rw [List.flatMap_cons, withArguments_append_of_ok (withArguments_words hitem), ih hitems,
      List.foldl_cons]

end Reading

/-! ## Items in any order -/

/-- Routes and sources are kept in order; of roots and times the last counts. -/
theorem foldl_addTo (r : Request) (items : List Item) :
    items.foldl addTo r =
      ⟨(items.filterMap root?).getLast?.or r.root, r.routes ++ items.filterMap route?,
        r.sources ++ items.filterMap source?, r.tests || items.contains .tests,
        r.list || items.contains .list, (items.filterMap timeout?).getLast?.or r.timeout⟩ := by
  induction items generalizing r with
  | nil => simp
  | cons item items ih =>
    rw [List.foldl_cons, ih]
    cases item <;>
      simp [addTo, List.filterMap_cons, root?, route?, source?, timeout?, List.getLast?_cons,
        Option.or_some]

/-- The items of a request, in one order. -/
def items (r : Request) : List Item :=
  r.root.toList.map .root ++ r.routes.map .route ++ r.sources.map .source ++
    r.timeout.toList.map .timeout ++ (if r.tests then [.tests] else []) ++
    (if r.list then [.list] else [])

/-- Whether a list has the items of a request, in any order in which the routes and the sources
stand as in the request. -/
structure Interleaves (r : Request) (items : List Item) : Prop where
  perm : items.Perm r.items
  routes : items.filterMap route? = r.routes
  sources : items.filterMap source? = r.sources

theorem filterMap_root?_items (r : Request) : r.items.filterMap root? = r.root.toList := by
  obtain ⟨root, routes, sources, tests, list, timeout⟩ := r
  cases root <;> cases tests <;> cases list <;> simp [items, Function.comp_def, root?]

theorem filterMap_timeout?_items (r : Request) :
    r.items.filterMap timeout? = r.timeout.toList := by
  obtain ⟨root, routes, sources, tests, list, timeout⟩ := r
  cases timeout <;> cases tests <;> cases list <;> simp [items, Function.comp_def, timeout?]

theorem contains_tests_items (r : Request) : r.items.contains .tests = r.tests := by
  obtain ⟨root, routes, sources, tests, list, timeout⟩ := r
  cases tests <;> cases list <;> simp [items]

theorem contains_list_items (r : Request) : r.items.contains .list = r.list := by
  obtain ⟨root, routes, sources, tests, list, timeout⟩ := r
  cases tests <;> cases list <;> simp [items]

theorem eq_toList_of_perm {α : Type} {l : List α} {o : Option α} (h : l.Perm o.toList) :
    l = o.toList := by
  cases o with
  | none => exact List.perm_nil.mp h
  | some a => exact List.perm_singleton.mp h

/-- Any interleaving of the items of a request makes the request. -/
theorem Interleaves.foldl_addTo {r : Request} {items : List Item} (h : r.Interleaves items) :
    items.foldl addTo empty = r := by
  have hroot : items.filterMap root? = r.root.toList :=
    eq_toList_of_perm (r.filterMap_root?_items ▸ h.perm.filterMap root?)
  have htimeout : items.filterMap timeout? = r.timeout.toList :=
    eq_toList_of_perm (r.filterMap_timeout?_items ▸ h.perm.filterMap timeout?)
  have htests : items.contains .tests = r.tests := by
    rw [h.perm.contains_eq, contains_tests_items]
  have hlist : items.contains .list = r.list := by
    rw [h.perm.contains_eq, contains_list_items]
  rw [Request.foldl_addTo, hroot, htimeout, htests, hlist, h.routes, h.sources]
  obtain ⟨root, routes, sources, tests, list, timeout⟩ := r
  cases root <;> cases timeout <;> rfl

theorem Interleaves.fits {r : Request} {items : List Item} (h : r.Interleaves items)
    (ht : ∀ n ∈ r.timeout, n < Nat.pow 2 64) : ∀ item ∈ items, item.Fits := by
  rintro item hitem
  cases item with
  | timeout n =>
    have hn : n ∈ r.items.filterMap timeout? :=
      List.mem_filterMap.mpr ⟨.timeout n, h.perm.subset hitem, rfl⟩
    rw [filterMap_timeout?_items] at hn
    exact ht n (Option.mem_toList.mp hn)
  | _ => trivial

/-- A request for something passes, unless it is for two things at once. -/
theorem checked_eq_ok {r : Request} (hasks : r.routes ≠ [] ∨ r.sources ≠ [] ∨ r.list = true)
    (hsole : ¬(r.list = true ∧ r.tests = true)) : r.checked = .ok r := by
  have hnothing : (r.routes.isEmpty && r.sources.isEmpty && !r.list) = false := by
    rcases hasks with h | h | h <;> simp [h]
  rw [checked, hnothing, if_neg Bool.false_ne_true, if_neg (by simpa using hsole)]

/-- **Every interleaving of the options of a request is read as the request**, whatever its values
look like and whatever files there are; and an option with a value at the end of such arguments is
an error when the value is left out. -/
theorem ofArguments_interleaving (isThere : String → Bool) :
    (∀ (r : Request) (items : List Item),
      r.routes ≠ [] ∨ r.sources ≠ [] ∨ r.list = true → ¬(r.list = true ∧ r.tests = true) →
      (∀ n ∈ r.timeout, n < Nat.pow 2 64) → r.Interleaves items →
      ofArguments isThere (items.flatMap words) = .ok r) ∧
    ∀ items : List Item, (∀ item ∈ items, item.Fits) →
      ∀ name option, valueOption? name = some option →
        ofArguments isThere (items.flatMap words ++ [name]) = .error (.missingValue option) := by
  constructor
  · intro r items hasks hsole htimeout h
    rw [ofArguments, withArguments_flatMap_words (h.fits htimeout), h.foldl_addTo]
    exact checked_eq_ok hasks hsole
  · intro items hfits name option hname
    exact ofArguments_append_of_ok (withArguments_flatMap_words hfits) hname

/-- Values that look like options are values all the same. -/
theorem ofArguments_interleaving_values :
    ofArguments (fun _ => true)
        ["--tests", "--source", "--root", "--route", "--list", "--timeout", "250", "--root", "-x",
          "--route", "/b"] =
      .ok ⟨some ⟨"-x"⟩, ["--list", "/b"], ["--root"], true, false, some 250⟩ ∧
    ofArguments (fun _ => true) ["--tests", "--source", "--root", "-s"] =
      .error (.missingValue .source) :=
  ⟨(ofArguments_interleaving fun _ => true).1
      ⟨some ⟨"-x"⟩, ["--list", "/b"], ["--root"], true, false, some 250⟩
      [.tests, .source "--root", .route "--list", .timeout 250, .root ⟨"-x"⟩, .route "/b"]
      (.inl (List.cons_ne_nil _ _)) nofun (by simp) ⟨by decide, rfl, rfl⟩,
    (ofArguments_interleaving fun _ => true).2 [.tests, .source "--root"]
      (by simp [Item.Fits]) "-s" .source rfl⟩

end Request

end CommandLine

end RouteAtlas
