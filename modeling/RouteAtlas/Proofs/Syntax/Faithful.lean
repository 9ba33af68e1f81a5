import RouteAtlas.Proofs.Syntax.Reading
import RouteAtlas.Source.Value

/-!
# Nodes that stand in their text

What a text search and a reading of the syntax have in common is where the words stand.  A node is
`Faithful` to its text when that can be told from it: a plain name is spelled where it stands, what
is called is followed by what makes a call of it, and the value of a binding stands apart from what
is before it, through the wrappers around it too.

The grammar rules that read expressions `Reach`: the node that they answer goes from where they
start to where they end.
-/

set_option autoImplicit false

namespace RouteAtlas.Syntax

open Token Reader

/-! ## Calls -/

/-- Whether a token starts the arguments of a call, or the type arguments before them. -/
def Token.startsArguments (t : Token) : Bool :=
  t.is "(" || t.is "<" || t.is "<<" || t.kind = .backquote

/-- Whether what stands before a token is called: arguments follow, at once or behind `?.`. -/
def Token.makesCall (t : Token) : Bool :=
  t.startsArguments || (t.is "?." && t.next.startsArguments)

/-- Whether what ends at a place of a text is called there, be it behind blanks and comments. -/
def CalledAt (cs : List Char) (i : Nat) : Prop :=
  (scan i (cs.drop i)).makesCall = true

/-! ## Nodes -/

namespace Node

def label : Node → Label
  | mk _ l _ _ _ => l

def text : Node → String
  | mk _ _ t _ _ => t

/-- Whether the text of a node stands where the node does. -/
def Spelled (cs : List Char) (n : Node) : Prop :=
  n.text.toList ++ cs.drop n.span.stop = cs.drop n.span.start

/-- How a child stands in its parent. -/
def Fits (cs : List Char) (n c : Node) : Prop :=
  match n.kind with
  | .call => c.label = .callee → c.span.start = n.span.start ∧ CalledAt cs c.span.stop
  | .member => c.label = .property →
      c.Spelled cs ∧ c.span.stop = n.span.stop ∧ Apart cs c.span.start
  | .declarator => c.label = .value → Apart cs c.span.start
  | .assignment => c.label = .right → Apart cs c.span.start
  | .parenthesized | .asCast | .satisfies | .nonNull | .await | .typeAssertion =>
    c.span.start = n.span.start ∨ Apart cs c.span.start
  | _ => True

end Node

open Node

/-- A node whose names are words, spelled in the text, and whose children stand as they should. -/
inductive Faithful (cs : List Char) : Node → Prop
  | mk {n : Node} (hname : n.kind = .identifier → IsWord n.text ∧ n.Spelled cs)
      (hfits : ∀ c ∈ n.children, Fits cs n c) (h : ∀ c ∈ n.children, Faithful cs c) : Faithful cs n

def AllFaithful (cs : List Char) (ns : List Node) : Prop :=
  ∀ n ∈ ns, Faithful cs n

/-- A faithful node that goes from a place to where the reading stands. -/
def Reaches (cs : List Char) (i : Nat) (n : Node) (p : Progress) : Prop :=
  Faithful cs n ∧ n.span = ⟨i, p.position⟩

/-- The kinds that ask nothing of their children and are no names. -/
def isPlain : Kind → Bool
  | .identifier | .call | .member | .declarator | .assignment | .parenthesized | .asCast
  | .satisfies | .nonNull | .await | .typeAssertion => false
  | _ => true

variable {cs : List Char} {n : Node} {ns ns' : List Node} {P : Progress → Prop}

@[simp] theorem allFaithful_nil : AllFaithful cs [] :=
  fun _ h => absurd h List.not_mem_nil

@[simp] theorem allFaithful_cons : AllFaithful cs (n :: ns) ↔ Faithful cs n ∧ AllFaithful cs ns :=
  List.forall_mem_cons

@[simp] theorem allFaithful_append :
    AllFaithful cs (ns ++ ns') ↔ AllFaithful cs ns ∧ AllFaithful cs ns' :=
  List.forall_mem_append

@[simp] theorem allFaithful_toList {o : Option Node} :
    AllFaithful cs o.toList ↔ ∀ n ∈ o, Faithful cs n := by
  simp [AllFaithful]

@[simp] theorem allFaithful_flatten {nss : List (List Node)} :
    AllFaithful cs nss.flatten ↔ ∀ ns ∈ nss, AllFaithful cs ns := by
  simp only [AllFaithful, List.mem_flatten]
  constructor
  · exact fun h ns hns n hn => h n ⟨ns, hns, hn⟩
  · rintro h n ⟨ns, hns, hn⟩
    exact h ns hns n hn

theorem faithful_of_isPlain (hk : isPlain n.kind = true) (h : AllFaithful cs n.children) :
    Faithful cs n := by
  refine .mk (fun hname => ?_) (fun c _ => ?_) h
  · rw [hname] at hk
    cases hk
  · unfold Fits
    split <;> first | trivial | (rename_i heq; rw [heq] at hk; cases hk)

theorem Faithful.children (h : Faithful cs n) : AllFaithful cs n.children := by
  cases h
  assumption

/-- The role of a node is a matter of its parent. -/
@[simp] theorem faithful_as {l : Label} : Faithful cs (n.as l) ↔ Faithful cs n := by
  obtain ⟨k, l', t, s, cs'⟩ := n
  constructor
  · rintro ⟨hname, hfits, h⟩
    exact .mk hname hfits h
  · rintro ⟨hname, hfits, h⟩
    exact .mk hname hfits h

@[simp] theorem span_as {l : Label} : (n.as l).span = n.span := by
  cases n
  rfl

@[simp] theorem kind_as {l : Label} : (n.as l).kind = n.kind := by
  cases n
  rfl

@[simp] theorem label_as {l : Label} : (n.as l).label = l := by
  cases n
  rfl

theorem faithful_ofKind {k : Kind} (hk : isPlain k = true) (h : Faithful cs n) :
    Faithful cs (n.ofKind k) := by
  obtain ⟨k', l, t, s, ns⟩ := n
  exact faithful_of_isPlain hk h.children

/-! ## Readers of nodes -/

/-- A reader of a node that reaches from where it starts to where it ends. -/
def Spans (cs : List Char) (r : Reader Node) : Prop :=
  ∀ i, Ensures cs (fun p => p.ahead.span.start = i) r (Reaches cs i)

theorem Ensures.faithful {r : Reader Node} {i : Nat} (h : Ensures cs P r (Reaches cs i)) :
    Ensures cs P r fun n _ => Faithful cs n :=
  h.mono (fun _ _ => id) fun _ _ _ hn => hn.1

theorem Spans.keeps {r : Reader Node} (h : Spans cs r) : Keeps cs r (Faithful cs) := by
  intro s p n p' hp _ hr
  obtain ⟨hp', hn⟩ := h p.ahead.span.start s p n p' hp rfl hr
  exact ⟨hp', hn.1⟩

/-- Most rules note the place and go on. -/
theorem ensures_of_start {body : Nat → Reader Node} {i : Nat}
    (h : Ensures cs (fun p => p.ahead.span.start = i) (body i) (Reaches cs i)) :
    Ensures cs (fun p => p.ahead.span.start = i) (start >>= body) (Reaches cs i) := by
  apply ensures_start.bind
  intro j
  apply Ensures.assume
  rintro p _ ⟨hi, hj⟩
  obtain rfl : j = i := hj.symm.trans hi
  exact h.mono (fun _ _ h => h.2) fun _ _ _ => id

theorem spans_of_start {body : Nat → Reader Node}
    (h : ∀ i, Ensures cs (fun p => p.ahead.span.start = i) (body i) (Reaches cs i)) :
    Spans cs (start >>= body) :=
  fun i => ensures_of_start (h i)

/-- What stands apart at a place stands apart where the next token starts. -/
theorem Spans.apart {r : Reader Node} (h : Spans cs r) :
    Ensures cs (fun p => Apart cs p.position) r fun n _ =>
      Faithful cs n ∧ Apart cs n.span.start := by
  intro s p n p' hp hapart hr
  obtain ⟨hp', hn, hspan⟩ := h p.ahead.span.start s p n p' hp rfl hr
  refine ⟨hp', hn, ?_⟩
  rw [hspan, hp.ahead_scan]
  exact hapart.scan

theorem ensures_close (k : Kind) (l : Label) (i : Nat) (ns : List Node) :
    Ensures cs P (close k l i ns) fun n p => P p ∧ n = .mk k l "" ⟨i, p.position⟩ ns := by
  apply ensures_position.bind
  intro j
  exact ensures_pure fun p hp => ⟨hp.1, by rw [hp.2]⟩

/-- A node that is closed is faithful when its children fit into it. -/
theorem ensures_close_fits {k : Kind} {l : Label} {i : Nat} (hk : k ≠ .identifier)
    (h : AllFaithful cs ns) (hfits : ∀ p, Tracks cs p → P p →
      ∀ c ∈ ns, Fits cs (.mk k l "" ⟨i, p.position⟩ ns) c) :
    Ensures cs P (close k l i ns) (Reaches cs i) := by
  refine (ensures_close k l i ns).mono (fun _ _ => id) fun n p hp hn => ?_
  obtain ⟨hP, rfl⟩ := hn
  exact ⟨.mk (fun hname => absurd hname hk) (hfits p hp hP) h, rfl⟩

theorem ensures_close_plain {k : Kind} {l : Label} {i : Nat} (hk : isPlain k = true)
    (h : AllFaithful cs ns) : Ensures cs P (close k l i ns) (Reaches cs i) := by
  refine (ensures_close k l i ns).mono (fun _ _ => id) fun n p _ hn => ?_
  obtain ⟨_, rfl⟩ := hn
  exact ⟨faithful_of_isPlain hk h, rfl⟩

/-- What is in a wrapper starts where the wrapper does, or apart. -/
theorem ensures_close_wrapper {k : Kind} {l : Label} {i : Nat} (hk : Tree.isWrapper k = true)
    (h : AllFaithful cs ns) (hapart : ∀ c ∈ ns, c.span.start = i ∨ Apart cs c.span.start) :
    Ensures cs P (close k l i ns) (Reaches cs i) := by
  apply ensures_close_fits _ h
  · intro p _ _ c hc
    unfold Fits
    cases k <;> first | exact hapart c hc | cases hk
  · rintro rfl
    cases hk

theorem keeps_close {k : Kind} {l : Label} {i : Nat} (hk : isPlain k = true)
    (h : AllFaithful cs ns) : Ensures cs P (close k l i ns) fun n _ => Faithful cs n :=
  (ensures_close_plain hk h).faithful

/-- Which token is next is told by where it starts. -/
theorem kind_ahead {p : Progress} (hp : Tracks cs p) :
    p.ahead.kind = (lexeme (cs.drop p.ahead.span.start)).1 := by
  rw [hp.ahead_scan, drop_start_scan]
  rfl

/-- A leaf is spelled where it stands; to be a plain name it has to be a word. -/
theorem ensures_leaf (k : Kind) (l : Label) (i : Nat)
    (hword : k = .identifier → (lexeme (cs.drop i)).1 = .word) :
    Ensures cs (fun p => p.ahead.span.start = i) (leaf k l) fun n p =>
      Reaches cs i n p ∧ n.Spelled cs ∧ n.label = l := by
  rintro s p n p' hp hi hr
  obtain ⟨t, q, ht, hn⟩ := bind_eq_some_iff.mp hr
  obtain ⟨hq, rfl, hposition⟩ := ensures_take p.ahead s p t q hp rfl ht
  cases hn
  have hspelled : (Node.mk k l p.ahead.text p.ahead.span []).Spelled cs := by
    show p.ahead.text.toList ++ cs.drop p.ahead.span.stop = cs.drop p.ahead.span.start
    rw [hp.ahead_scan, drop_stop_scan, text_append_rest, drop_start_scan]
  have hname (hk : k = .identifier) : IsWord p.ahead.text := by
    have hkind : p.ahead.kind = .word := by rw [kind_ahead hp, hi, hword hk]
    rw [hp.ahead_scan] at hkind ⊢
    exact isWord_text hkind
  refine ⟨hq, ⟨.mk (fun hk => ⟨hname hk, hspelled⟩) nofun nofun, ?_⟩, hspelled, rfl⟩
  show p.ahead.span = ⟨i, p'.position⟩
  rw [hposition, ← hi]

/-- A word may be any leaf, a plain name too. -/
theorem ensures_word (k : Kind) (l : Label) {i : Nat} (hword : (lexeme (cs.drop i)).1 = .word) :
    Ensures cs (fun p => p.ahead.span.start = i) (leaf k l) (Reaches cs i) :=
  (ensures_leaf k l i fun _ => hword).mono (fun _ _ => id) fun _ _ _ h => h.1

theorem keeps_word (k : Kind) (l : Label) :
    Ensures cs (fun p => p.ahead.kind = .word) (leaf k l) fun n _ => Faithful cs n := by
  intro s p n p' hp hword hr
  rw [kind_ahead hp] at hword
  exact (ensures_word k l hword).faithful s p n p' hp rfl hr

theorem spans_leaf {k : Kind} (hk : k ≠ .identifier) (l : Label) : Spans cs (leaf k l) :=
  fun i => (ensures_leaf k l i fun hname => absurd hname hk).mono (fun _ _ => id) fun _ _ _ h => h.1

theorem keeps_leaf {k : Kind} (hk : k ≠ .identifier) (l : Label) :
    Keeps cs (leaf k l) (Faithful cs) :=
  (spans_leaf hk l).keeps

theorem keeps_leafOf {t : TokenKind} {k : Kind} (hk : k = .identifier → t = .word) (l : Label) :
    Keeps cs (leafOf t k l) (Faithful cs) := by
  apply ensures_ahead.bind
  intro u
  split
  · rename_i hu
    by_cases hname : k = .identifier
    · exact (keeps_word k l).pre fun p hp => by rw [hp.2, hu, hk hname]
    · exact (keeps_leaf hname l).weaken
  · exact ensures_failure

theorem keeps_listUpTo {closing separator : String} {item : Reader (List Node)}
    (h : Keeps cs item (AllFaithful cs)) :
    Keeps cs (listUpTo closing separator item) (AllFaithful cs) := by
  apply Keeps.bind (Q := fun nss => ∀ ns ∈ nss, AllFaithful cs ns)
  · apply keeps_collect
    apply Keeps.bind (passes_accept closing)
    intro b _
    split
    · exact keeps_pure nofun
    apply Keeps.bind (passes_accept separator)
    intro b _
    split
    · refine keeps_pure fun ns hns => ?_
      cases hns
      exact allFaithful_nil
    apply Keeps.bind h
    intro ns hns
    have hdone : Ensures cs Always (pure (some ns) : Reader (Option (List Node)))
        fun o _ => ∀ ns ∈ o, AllFaithful cs ns := by
      refine keeps_pure fun ns' hns' => ?_
      cases hns'
      exact hns
    apply Keeps.bind (ensures_sees closing).passes
    intro b _
    exact Passes.whenever (passes_expect separator) hdone
  · intro nss hnss
    exact keeps_pure (allFaithful_flatten.mpr hnss)

/-! ## What stands apart -/

/-- Whether nothing can go on behind this word or mark. -/
def endsWord (word : String) : Bool :=
  match word.toList with
  | [] => false
  | c :: w =>
    (isNameStart c && w.all isNamePart) || (c :: w).getLast?.all fun d => !Text.isWordChar d

theorem apart_of_is {t : Token} {word : String} {pos : Nat} (ht : t = scan pos (cs.drop pos))
    (his : t.is word = true) (hword : endsWord word = true) : Apart cs t.span.stop := by
  subst ht
  have htext : (scan pos (cs.drop pos)).text = word := by
    unfold Token.is at his
    exact of_decide_eq_true (Bool.and_eq_true_iff.mp his).2
  unfold endsWord at hword
  split at hword
  · cases hword
  · rename_i c w hcw
    rcases Bool.or_eq_true_iff.mp hword with hname | hmark
    · obtain ⟨hc, hw⟩ := Bool.and_eq_true_iff.mp hname
      exact apart_stop_of_word (by rw [htext, hcw]) hc (List.all_eq_true.mp hw)
    · apply apart_stop_of_endsApart
      · rw [htext, hcw]
        exact List.cons_ne_nil c w
      · rw [htext, hcw]
        intro d hd
        rw [Option.mem_def.mp hd] at hmark
        simpa using hmark

theorem ensures_take_apart {word : String} (t : Token) (his : t.is word = true)
    (hword : endsWord word = true) :
    Ensures cs (fun p => p.ahead = t) (discard take) fun _ p => Apart cs p.position := by
  apply Ensures.assume
  intro p hp ht
  apply (ensures_take t).discard
  rintro u q ⟨-, hposition⟩
  rw [hposition]
  exact apart_of_is (ht.symm.trans hp.ahead_scan) his hword

theorem ensures_expect_apart {word : String} (hword : endsWord word = true) :
    Ensures cs P (expect word) fun _ p => Apart cs p.position := by
  intro s p a p' hp _ h
  obtain ⟨b, q, hb, h⟩ := bind_eq_some_iff.mp h
  cases hb
  by_cases his : p.ahead.is word = true
  · rw [if_pos his] at h
    exact ensures_take_apart p.ahead his hword s p a p' hp rfl h
  · rw [if_neg his] at h
    cases h

theorem ensures_accept_apart {word : String} (hword : endsWord word = true) :
    Ensures cs P (accept word) fun b p => b = true → Apart cs p.position := by
  intro s p a p' hp _ h
  obtain ⟨b, q, hb, h⟩ := bind_eq_some_iff.mp h
  cases hb
  by_cases his : p.ahead.is word = true
  · rw [if_pos his] at h
    obtain ⟨_, q, hq, h⟩ := bind_eq_some_iff.mp h
    obtain ⟨hq', hapart⟩ := ensures_take_apart p.ahead his hword s p _ q hp rfl hq
    cases h
    exact ⟨hq', fun _ => hapart⟩
  · rw [if_neg his] at h
    cases h
    exact ⟨hp, nofun⟩

/-! ## Grammars -/

/-- Whether what the rules of a grammar read is faithful, and spans what it should. -/
structure Reads (cs : List Char) (g : Grammar) : Prop where
  keeps : ∀ goal, Keeps cs (g goal) (Faithful cs)
  expression : ∀ limits, Spans cs (g (.expression limits))
  assignment : ∀ limits, Spans cs (g (.assignment limits))
  unary : ∀ limits, Spans cs (g (.unary limits))
  type : Spans cs (g .type)

end RouteAtlas.Syntax
