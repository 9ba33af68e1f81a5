import RouteAtlas.Proofs.FilePath.Order
import RouteAtlas.Proofs.Search.Walk
import RouteAtlas.Proofs.Text
import RouteAtlas.Search.Engine

/-!
# When a walk takes over

A search that falls back to a walk asks its program first.  The walk is there for every failure of
the program but that of running out of time.  What counts as a failure is read off the status and
the output, and only status 2 does: a program that dies by a signal, or ends with any other status
that is no success, is taken to have found nothing when it names no file
(`search_after_program`).
-/

set_option autoImplicit false

namespace RouteAtlas.Search

open RouteAtlas.Text

/-! ## Names in an output -/

namespace Program

/-- Whether a line of a text names something, blanks around it left out. -/
def Names (text name : String) : Prop :=
  name ≠ "" ∧ ∃ line ∈ pieces '\n' text.toList, name = String.ofList (trimChars line)

/-- A text names nothing exactly when it is all blank. -/
theorem trimChars_eq_nil_iff_names {text : String} :
    trimChars text.toList = [] ↔ ∀ name, ¬Names text name := by
  rw [trimChars_eq_nil_iff]
  constructor
  · rintro h name ⟨hne, line, hline, rfl⟩
    have hblank : trimChars line = [] :=
      trimChars_eq_nil_iff.mpr fun c hc => h c (mem_of_mem_pieces hline hc)
    exact hne (by rw [hblank, String.ofList_nil])
  · intro h c hc
    by_contra hblank
    -- a character that is no blank ends no line, so some line has it
    have hbreak : c ≠ '\n' := by
      rintro rfl
      exact hblank (by decide)
    obtain ⟨line, hline, hmem⟩ := exists_mem_pieces hc hbreak
    refine h (String.ofList (trimChars line)) ⟨fun hname => ?_, line, hline, rfl⟩
    exact hblank (trimChars_eq_nil_iff.mp (String.ofList_eq_empty_iff.mp hname) c hmem)

/-- The paths in a text are those that its lines name, once each and in order. -/
theorem listsOnce_pathsIn (root : FilePath) (text : String) :
    FilePath.ListsOnce (pathsIn root text.toList)
      fun p => ∃ name, Names text name ∧ p = root.join name := by
  have h := FilePath.listsOnce_dropRepeats_sort
    ((((pieces '\n' text.toList).map trimChars).filter fun l => !l.isEmpty).map
      fun l => root.join (String.ofList l))
  refine h.congr fun p => ?_
  simp only [List.mem_map, List.mem_filter, Bool.not_eq_true', List.isEmpty_eq_false_iff]
  constructor
  · rintro ⟨l, ⟨⟨line, hline, rfl⟩, hne⟩, rfl⟩
    exact ⟨_, ⟨mt String.ofList_eq_empty_iff.mp hne, line, hline, rfl⟩, rfl⟩
  · rintro ⟨name, ⟨hne, line, hline, rfl⟩, rfl⟩
    exact ⟨_, ⟨⟨line, hline, rfl⟩, mt String.ofList_eq_empty_iff.mpr hne⟩, rfl⟩

/-- Whether a program wrote a text. -/
def Writes (output : List UInt8) (text : String) : Prop :=
  String.fromUTF8? ⟨output.toArray⟩ = some text

theorem textOf_of_writes {output : List UInt8} {text : String} (h : Writes output text) :
    textOf output = text.toList := by
  rw [textOf, show String.fromUTF8? ⟨output.toArray⟩ = some text from h]

end Program

/-! ## What became of the program -/

namespace Outcome

open Program (Names Writes)

/-- Whether a program failed in its time and named no file: it did not start, or what it wrote names
nothing and its status is neither 0, for files found, nor 1, for none. -/
inductive FailsSilently : Outcome → Prop
  | notStarted (cause : OsError) : FailsSilently (.notStarted cause)
  | ended {status : Option Nat} {output : List UInt8} {text : String} (writes : Writes output text)
      (nothing : ∀ name, ¬Names text name) (notFound : status ≠ some 0)
      (notMissed : status ≠ some 1) : FailsSilently (.ended status output)

theorem failsSilently_ended_nil {status : Option Nat} (notFound : status ≠ some 0)
    (notMissed : status ≠ some 1) : FailsSilently (.ended status []) :=
  have writes : String.fromUTF8? ⟨([] : List UInt8).toArray⟩ = some "" := by decide +kernel
  .ended writes (Program.trimChars_eq_nil_iff_names.mp rfl) notFound notMissed

/-- Whether a silent failure is taken for one, and not for an answer without files. -/
def isNoticed : Outcome → Bool
  | notStarted _ => true
  | overtime => false
  | ended status _ => status = some 2

end Outcome

namespace Engine

open Program (Names Writes)

variable {t : FileTree} {binary : FilePath} {q : Query}

/-- What a search that may fall back answers, by what became of its program. -/
def afterProgram (t : FileTree) (binary : FilePath) (q : Query) (o : Outcome) :
    Except Failure (List FilePath) :=
  match Program.answer binary q o with
  | .error e => if e.isOfSearch then Walk.search t q else .error e
  | found => found

theorem search_programOrWalk (hpatterns : q.patterns ≠ []) :
    search t q (.programOrWalk binary) =
      afterProgram t binary q
        (Shell.launch t q.root binary (Program.arguments q) environment q.budget) := by
  rw [search, askProgram, if_neg (by simpa using hpatterns)]
  rfl

/-- The program's answer is taken whenever it ended, unless with status 2 and nothing named. -/
theorem afterProgram_ended {status : Option Nat} {output : List UInt8} {text : String}
    (writes : Writes output text) (h : status ≠ some 2 ∨ ∃ name, Names text name) :
    afterProgram t binary q (.ended status output) = .ok (Program.pathsIn q.root text.toList) := by
  have hanswer : ¬(decide (status = some 2) && (trimChars text.toList).isEmpty) = true := by
    rw [Bool.and_eq_true, decide_eq_true_eq, List.isEmpty_iff, Program.trimChars_eq_nil_iff_names]
    rintro ⟨hstatus, nothing⟩
    obtain hne | ⟨name, hname⟩ := h
    · exact hne hstatus
    · exact nothing name hname
  rw [afterProgram, Program.answer, Program.textOf_of_writes writes]
  simp only [if_neg hanswer]

/-- After a silent failure the walk takes over if the failure is noticed, and nothing is found if it
is not. -/
theorem afterProgram_of_failsSilently {o : Outcome} (h : o.FailsSilently) :
    afterProgram t binary q o = if o.isNoticed then Walk.search t q else .ok [] := by
  cases h with
  | notStarted cause => rfl
  | @ended status output text writes nothing =>
    by_cases hstatus : status = some 2
    · have hblank := Program.trimChars_eq_nil_iff_names.mpr nothing
      subst hstatus
      rw [afterProgram, Program.answer, Program.textOf_of_writes writes, hblank]
      rfl
    · have hnone : Program.pathsIn q.root text.toList = [] :=
        List.eq_nil_iff_forall_not_mem.mpr fun p hp =>
          have ⟨name, hname, _⟩ := (Program.listsOnce_pathsIn q.root text).named p hp
          nothing name hname
      rw [afterProgram_ended writes (.inl hstatus), hnone, Outcome.isNoticed,
        decide_eq_false hstatus]
      rfl

/-- **After a program that ended in silence the walk takes over, if its failure is noticed.**  A
program that does not start and one that ends with status 2 are noticed; one that dies by a signal
or ends with another status is taken to have found nothing, whatever the walk would find.  What a
program names, and what it finds or misses with status 0 or 1, is the answer: each path once and in
order.  Time that ran out is no reason to walk. -/
theorem search_after_program (hpatterns : q.patterns ≠ []) :
    search t q (.programOrWalk binary) =
      afterProgram t binary q
        (Shell.launch t q.root binary (Program.arguments q) environment q.budget) ∧
    (∀ o : Outcome, o.FailsSilently →
      afterProgram t binary q o = if o.isNoticed then Walk.search t q else .ok []) ∧
    (∀ status output text, Writes output text →
      status = some 0 ∨ status = some 1 ∨ (∃ name, Names text name) →
      ∃ files, afterProgram t binary q (.ended status output) = .ok files ∧
        FilePath.ListsOnce files fun p => ∃ name, Names text name ∧ p = q.root.join name) ∧
    afterProgram t binary q .overtime = .error (.timedOut q.budget) := by
  refine ⟨search_programOrWalk hpatterns, fun _ => afterProgram_of_failsSilently,
    fun status output text writes h => ?_, rfl⟩
  refine ⟨_, afterProgram_ended writes ?_, Program.listsOnce_pathsIn q.root text⟩
  rcases h with rfl | rfl | hname
  · exact .inl (by decide)
  · exact .inl (by decide)
  · exact .inr hname

/-- A directory with a file that a search for a text finds, and a search program. -/
def shop (script : String) : FileTree :=
  ⟨.directory [("shop", .directory [
    ("app.js", .file "app.use('/x', r);".toUTF8 false),
    ("rg", .file script.toUTF8 true)])], []⟩

/-- The search for a text in that directory. -/
def shopQuery : Query :=
  ⟨⟨"/shop"⟩, ["app.use"], .literal, [], [], 1000⟩

/-- What becomes of the program of that directory when the text is searched for. -/
def shopOutcome (script : String) : Outcome :=
  Shell.launch (shop script) shopQuery.root ⟨"/shop/rg"⟩ (Program.arguments shopQuery) environment
    shopQuery.budget

theorem search_after_program_statusTwo :
    shopQuery.patterns ≠ [] ∧ (shopOutcome "#!/bin/sh\nexit 2\n").FailsSilently ∧
      search (shop "#!/bin/sh\nexit 2\n") shopQuery (.programOrWalk ⟨"/shop/rg"⟩) =
        .ok [⟨"/shop/app.js"⟩] := by
  have hpatterns : shopQuery.patterns ≠ [] := by decide
  have houtcome : shopOutcome "#!/bin/sh\nexit 2\n" = .ended (some 2) [] := by decide +kernel
  have hsilent : (shopOutcome "#!/bin/sh\nexit 2\n").FailsSilently :=
    houtcome ▸ Outcome.failsSilently_ended_nil (by decide) (by decide)
  obtain ⟨hsearch, hafter, -, -⟩ :=
    @search_after_program (shop "#!/bin/sh\nexit 2\n") ⟨"/shop/rg"⟩ shopQuery hpatterns
  refine ⟨hpatterns, hsilent, hsearch.trans ((hafter _ hsilent).trans ?_)⟩
  decide +kernel

/-- A program that ends with status 3 and writes nothing hides what the walk finds. -/
theorem statusThree_hides_file :
    (shopOutcome "#!/bin/sh\nexit 3\n").FailsSilently ∧
      search (shop "#!/bin/sh\nexit 3\n") shopQuery (.programOrWalk ⟨"/shop/rg"⟩) = .ok [] ∧
      Walk.search (shop "#!/bin/sh\nexit 3\n") shopQuery = .ok [⟨"/shop/app.js"⟩] := by
  have houtcome : shopOutcome "#!/bin/sh\nexit 3\n" = .ended (some 3) [] := by decide +kernel
  refine ⟨houtcome ▸ Outcome.failsSilently_ended_nil (by decide) (by decide), ?_, ?_⟩ <;>
    decide +kernel

end Engine

end RouteAtlas.Search
