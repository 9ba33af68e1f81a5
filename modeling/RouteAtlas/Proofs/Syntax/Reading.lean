import RouteAtlas.Proofs.Syntax.Token
import RouteAtlas.Syntax.Reader

/-!
# What readers ensure

Readers are judged by triples: from a progress where `P` holds, a reader that succeeds comes to one
where `Q` holds of its answer (`Ensures`).  Nothing is said of a reader that fails.  Part of every
triple is that the progress belongs to the text that is read (`Tracks`); nearly every reader keeps
that without further ado and is told by its answer alone (`Keeps`).

There is a rule for each way of putting readers together, and one for each of the basic readers.
-/

set_option autoImplicit false

namespace RouteAtlas.Syntax

/-- Whether a progress is one of reading this text. -/
structure Tracks (cs : List Char) (p : Progress) : Prop where
  rest_eq : p.rest = cs.drop p.position
  ahead_eq : p.ahead = Token.scan p.position p.rest

def Ensures {α : Type} (cs : List Char) (P : Progress → Prop) (r : Reader α)
    (Q : α → Progress → Prop) : Prop :=
  ∀ (s : Setting) (p : Progress) (a : α) (p' : Progress),
    Tracks cs p → P p → r s p = some (a, p') → Tracks cs p' ∧ Q a p'

abbrev Always : Progress → Prop := fun _ => True

/-- Wherever a reader starts, what it answers is so. -/
abbrev Keeps {α : Type} (cs : List Char) (r : Reader α) (Q : α → Prop) : Prop :=
  Ensures cs Always r fun a _ => Q a

/-- A reader of which only the progress matters. -/
abbrev Passes {α : Type} (cs : List Char) (r : Reader α) : Prop :=
  Keeps cs r fun _ => True

variable {cs : List Char} {α β : Type} {P P' : Progress → Prop}

theorem Tracks.ahead_scan {p : Progress} (h : Tracks cs p) :
    p.ahead = Token.scan p.position (cs.drop p.position) := by
  rw [← h.rest_eq, h.ahead_eq]

/-! ## Rules -/

theorem bind_eq_some_iff {r : Reader α} {f : α → Reader β} {s : Setting} {p p'' : Progress}
    {b : β} :
    (r >>= f) s p = some (b, p'') ↔ ∃ a p', r s p = some (a, p') ∧ f a s p' = some (b, p'') := by
  show ((r s p).bind fun x => f x.1 s x.2) = _ ↔ _
  rw [Option.bind_eq_some_iff]
  exact Prod.exists

theorem Ensures.bind {r : Reader α} {f : α → Reader β} {Q : α → Progress → Prop}
    {R : β → Progress → Prop} (hr : Ensures cs P r Q) (hf : ∀ a, Ensures cs (Q a) (f a) R) :
    Ensures cs P (r >>= f) R := by
  intro s p b p'' hp hP h
  obtain ⟨a, p', hra, hfa⟩ := bind_eq_some_iff.mp h
  obtain ⟨hp', hQ⟩ := hr s p a p' hp hP hra
  exact hf a s p' b p'' hp' hQ hfa

theorem Ensures.mono {r : Reader α} {Q Q' : α → Progress → Prop} (h : Ensures cs P r Q)
    (hP : ∀ p, Tracks cs p → P' p → P p) (hQ : ∀ a p, Tracks cs p → Q a p → Q' a p) :
    Ensures cs P' r Q' := by
  intro s p a p' hp hP' hr
  obtain ⟨hp', hQa⟩ := h s p a p' hp (hP p hp hP') hr
  exact ⟨hp', hQ a p' hp' hQa⟩

theorem Ensures.pre {r : Reader α} {Q : α → Progress → Prop} (h : Ensures cs P r Q)
    (hP : ∀ p, P' p → P p) : Ensures cs P' r Q :=
  h.mono (fun p _ => hP p) fun _ _ _ => id

theorem Ensures.and {r : Reader α} {Q Q' : α → Progress → Prop} (h : Ensures cs P r Q)
    (h' : Ensures cs P r Q') : Ensures cs P r fun a p => Q a p ∧ Q' a p := by
  intro s p a p' hp hP hr
  obtain ⟨hp', hQ⟩ := h s p a p' hp hP hr
  exact ⟨hp', hQ, (h' s p a p' hp hP hr).2⟩

/-- Only the answer matters for what follows. -/
theorem Keeps.bind {r : Reader α} {f : α → Reader β} {Q : α → Prop} {R : β → Progress → Prop}
    (hr : Keeps cs r Q) (hf : ∀ a, Q a → Ensures cs Always (f a) R) :
    Ensures cs P (r >>= f) R := by
  intro s p b p'' hp _ h
  obtain ⟨a, p', hra, hfa⟩ := bind_eq_some_iff.mp h
  obtain ⟨hp', hQ⟩ := hr s p a p' hp trivial hra
  exact hf a hQ s p' b p'' hp' trivial hfa

/-- What holds of some progress in front of a reader may be assumed. -/
theorem Ensures.assume {r : Reader α} {Q : α → Progress → Prop}
    (h : ∀ p, Tracks cs p → P p → Ensures cs P r Q) : Ensures cs P r Q :=
  fun s p a p' hp hP => h p hp hP s p a p' hp hP

theorem Ensures.weaken {r : Reader α} {Q : α → Progress → Prop} (h : Ensures cs Always r Q) :
    Ensures cs P r Q :=
  h.mono (fun _ _ _ => trivial) fun _ _ _ => id

theorem Keeps.mono {r : Reader α} {Q Q' : α → Prop} (h : Keeps cs r Q) (hQ : ∀ a, Q a → Q' a) :
    Ensures cs P r fun a _ => Q' a :=
  Ensures.mono h (fun _ _ _ => trivial) fun a _ _ => hQ a

theorem Ensures.passes {r : Reader α} {Q : α → Progress → Prop} (h : Ensures cs Always r Q) :
    Passes cs r :=
  h.mono (fun _ _ => id) fun _ _ _ _ => trivial

theorem ensures_pure {Q : α → Progress → Prop} {a : α} (h : ∀ p, P p → Q a p) :
    Ensures cs P (pure a) Q := by
  intro s p b p' hp hP hr
  cases hr
  exact ⟨hp, h p hP⟩

theorem keeps_pure {Q : α → Prop} {a : α} (h : Q a) : Ensures cs P (pure a) fun b _ => Q b :=
  ensures_pure fun _ _ => h

theorem ensures_failure {Q : α → Progress → Prop} : Ensures cs P (failure : Reader α) Q := by
  intro s p a p' _ _ h
  cases h

theorem Ensures.map {r : Reader α} {Q : α → Progress → Prop} {R : β → Progress → Prop}
    {f : α → β} (h : Ensures cs P r Q) (hR : ∀ a p, Q a p → R (f a) p) :
    Ensures cs P (f <$> r) R := by
  have heq : f <$> r = r >>= fun a => pure (f a) := (bind_pure_comp f r).symm
  rw [heq]
  apply h.bind
  intro a
  exact ensures_pure (hR a)

theorem Ensures.discard {r : Reader α} {Q : α → Progress → Prop} {R : Unit → Progress → Prop}
    (h : Ensures cs P r Q) (hR : ∀ a p, Q a p → R () p) : Ensures cs P (discard r) R :=
  h.map hR

theorem Keeps.discard {r : Reader α} {Q : α → Prop} (h : Keeps cs r Q) :
    Passes cs (discard r) :=
  Ensures.map h fun _ _ _ => trivial

theorem Ensures.orElse {r r' : Reader α} {Q : α → Progress → Prop} (h : Ensures cs P r Q)
    (h' : Ensures cs P r' Q) : Ensures cs P (r <|> r') Q := by
  intro s p a p' hp hP hr
  have hcases : r s p = some (a, p') ∨ r' s p = some (a, p') := by
    change ((r s p).orElse fun _ => r' s p) = some (a, p') at hr
    cases hrs : r s p with
    | none =>
      rw [hrs] at hr
      exact .inr hr
    | some x =>
      rw [hrs] at hr
      exact .inl hr
  rcases hcases with hr | hr
  · exact h s p a p' hp hP hr
  · exact h' s p a p' hp hP hr

/-- A reader that fails has taken nothing. -/
theorem Ensures.attempt {r : Reader α} {Q : α → Progress → Prop} (h : Ensures cs P r Q) :
    Ensures cs P (Reader.attempt r) fun o p =>
      match o with
      | some a => Q a p
      | none => P p := by
  apply Ensures.orElse
  · exact h.map fun _ _ => id
  · exact ensures_pure fun _ => id

theorem Keeps.attempt {r : Reader α} {Q : α → Prop} (h : Keeps cs r Q) :
    Keeps cs (Reader.attempt r) fun o => ∀ a ∈ o, Q a := by
  apply (Ensures.attempt h).mono fun _ _ => id
  intro o p _ ho a ha
  rw [Option.mem_def.mp ha] at ho
  exact ho

theorem Ensures.ite {r r' : Reader α} {Q : α → Progress → Prop} {c : Prop} [Decidable c]
    (h : Ensures cs P r Q) (h' : Ensures cs P r' Q) : Ensures cs P (if c then r else r') Q := by
  split
  · exact h
  · exact h'

/-- A step that is only taken in some cases. -/
theorem Passes.whenever {r : Reader Unit} {next : Unit → Reader α} {Q : α → Progress → Prop}
    {c : Prop} [Decidable c] (h : Passes cs r) (hnext : Ensures cs Always (next ()) Q) :
    Ensures cs Always (if c then r >>= next else next ()) Q := by
  split
  · exact Keeps.bind h fun _ _ => hnext
  · exact hnext

/-- Two ways to an answer with which the reading goes on. -/
theorem Ensures.either {r r' : Reader α} {next : α → Reader β} {Q : α → Progress → Prop}
    {R : β → Progress → Prop} {c : Prop} [Decidable c] (h : Ensures cs P r Q)
    (h' : Ensures cs P r' Q) (hnext : ∀ a, Ensures cs (Q a) (next a) R) :
    Ensures cs P (if c then r >>= next else r' >>= next) R := by
  split
  · exact h.bind hnext
  · exact h'.bind hnext

theorem Keeps.either {r r' : Reader α} {next : α → Reader β} {Q : α → Prop}
    {R : β → Progress → Prop} {c : Prop} [Decidable c] (h : Keeps cs r Q) (h' : Keeps cs r' Q)
    (hnext : ∀ a, Q a → Ensures cs Always (next a) R) :
    Ensures cs Always (if c then r >>= next else r' >>= next) R := by
  split
  · exact Keeps.bind h hnext
  · exact Keeps.bind h' hnext

/-! ## Repetitions -/

open Reader

theorem ensures_read : Ensures cs P (read : Reader Setting) fun _ p => P p := by
  intro s p a p' hp hP h
  cases h
  exact ⟨hp, hP⟩

theorem ensures_limit : Ensures cs P limit fun _ p => P p := by
  intro s p a p' hp hP h
  cases h
  exact ⟨hp, hP⟩

theorem keeps_collectAtMost {item : Reader (Option α)} {Q : α → Prop}
    (h : Keeps cs item fun o => ∀ a ∈ o, Q a) (n : Nat) :
    Keeps cs (collectAtMost item n) fun as => ∀ a ∈ as, Q a := by
  induction n with
  | zero => exact ensures_failure
  | succ n ih =>
    apply Keeps.bind h
    intro o ho
    cases o with
    | none => exact keeps_pure fun a ha => absurd ha List.not_mem_nil
    | some a =>
      apply Keeps.bind ih
      intro as has
      exact keeps_pure (List.forall_mem_cons.mpr ⟨ho a rfl, has⟩)

theorem keeps_collect {item : Reader (Option α)} {Q : α → Prop}
    (h : Keeps cs item fun o => ∀ a ∈ o, Q a) : Keeps cs (collect item) fun as => ∀ a ∈ as, Q a :=
  Keeps.bind ensures_limit.passes fun n _ => keeps_collectAtMost h n

/-- When nothing is collected the reading stands where it did. -/
theorem ensures_collect_nil {item : Reader (Option α)} (hitem : Passes cs item)
    (h : Ensures cs P item fun o p => o = none → P p) :
    Ensures cs P (collect item) fun as p => as = [] → P p := by
  apply ensures_limit.bind
  intro n
  cases n with
  | zero => exact ensures_failure
  | succ n =>
    apply h.bind
    intro o
    cases o with
    | none => exact ensures_pure fun _ hP _ => hP rfl
    | some a =>
      apply Keeps.bind (keeps_collectAtMost (hitem.mono fun _ _ _ _ => trivial) n)
      intro as _
      exact ensures_pure nofun

/-- What a step keeps of the node that grows, all steps keep. -/
theorem ensures_growAtMost {step : Node → Reader (Option Node)} {I : Node → Progress → Prop}
    (h : ∀ n, Ensures cs (I n) (step n) fun o p => I (o.getD n) p) (k : Nat) (n : Node) :
    Ensures cs (I n) (growAtMost step k n) I := by
  induction k generalizing n with
  | zero => exact ensures_failure
  | succ k ih =>
    apply (h n).bind
    intro o
    cases o with
    | none => exact ensures_pure fun _ => id
    | some m => exact ih m

theorem ensures_grow {step : Node → Reader (Option Node)} {I : Node → Progress → Prop}
    (h : ∀ n, Ensures cs (I n) (step n) fun o p => I (o.getD n) p) (n : Node) :
    Ensures cs (I n) (grow step n) I :=
  Ensures.bind ensures_limit fun k => ensures_growAtMost h k n

/-! ## Basic readers -/

theorem ensures_ahead : Ensures cs P ahead fun t p => P p ∧ p.ahead = t := by
  intro s p a p' hp hP h
  cases h
  exact ⟨hp, hP, rfl⟩

theorem ensures_start : Ensures cs P start fun i p => P p ∧ p.ahead.span.start = i := by
  intro s p a p' hp hP h
  cases h
  exact ⟨hp, hP, rfl⟩

theorem ensures_second : Ensures cs P second fun _ p => P p := by
  intro s p a p' hp hP h
  cases h
  exact ⟨hp, hP⟩

theorem ensures_position : Ensures cs P position fun i p => P p ∧ p.position = i := by
  intro s p a p' hp hP h
  cases h
  exact ⟨hp, hP, rfl⟩

theorem ensures_sees (word : String) : Ensures cs P (sees word) fun _ p => P p := by
  intro s p a p' hp hP h
  cases h
  exact ⟨hp, hP⟩

theorem ensures_seesOneOf (words : List String) :
    Ensures cs P (seesOneOf words) fun _ p => P p := by
  intro s p a p' hp hP h
  cases h
  exact ⟨hp, hP⟩

/-- The current progress, with which a reader goes on at once. -/
theorem ensures_get :
    Ensures cs P (get : Reader Progress) fun q p => P p ∧ p = q ∧ Tracks cs q := by
  intro s p a p' hp hP h
  cases h
  exact ⟨hp, hP, rfl, hp⟩

theorem ensures_goTo {n : Nat} {rest : List Char} (h : rest = cs.drop n) :
    Ensures cs P (goTo n rest) fun _ p => p.position = n := by
  intro s p a p' _ _ hr
  cases hr
  exact ⟨⟨h, rfl⟩, rfl⟩

theorem ensures_takeChars (t : Token) (n : Nat) :
    Ensures cs (fun p => p.ahead = t) (takeChars n) fun _ p => p.position = t.span.start + n := by
  intro s p a p' hp hP hr
  cases hr
  subst hP
  refine ⟨⟨?_, rfl⟩, rfl⟩
  show p.ahead.here.drop n = cs.drop (p.ahead.span.start + n)
  rw [← List.drop_drop, hp.ahead_scan, Token.drop_start_scan]

/-- A reader that takes the next token comes to stand behind it. -/
theorem ensures_take (t : Token) :
    Ensures cs (fun p => p.ahead = t) take fun u p => u = t ∧ p.position = t.span.stop := by
  apply ensures_ahead.bind
  intro u
  apply Ensures.assume
  rintro p hp ⟨hu, hpu⟩
  obtain rfl : u = t := hpu.symm.trans hu
  have hlength : u.span.start + (u.span.stop - u.span.start) = u.span.stop := by
    have hstop := Token.stop_scan p.position (cs.drop p.position)
    rw [← hp.ahead_scan, hu] at hstop
    omega
  apply ((ensures_takeChars u _).pre fun _ h => h.1).bind
  intro _
  rw [hlength]
  exact ensures_pure fun _ hposition => ⟨rfl, hposition⟩

/-- The token behind the next one is the next one when that is taken. -/
theorem ensures_take_next (t : Token) :
    Ensures cs (fun p => p.ahead = t) (discard take) fun _ p => p.ahead = t.next := by
  apply Ensures.assume
  intro p hp ht
  have htake : Ensures cs (fun p => p.ahead = t) (discard take) fun _ q =>
      q.position = t.span.stop :=
    (ensures_take t).discard fun _ _ h => h.2
  refine htake.mono (fun _ _ => id) fun _ q hq hstop => ?_
  have hrest : t.rest = cs.drop t.span.stop := by
    rw [← ht, hp.ahead_scan, Token.drop_stop_scan]
  rw [Token.next, hrest, hq.ahead_scan, hstop]

theorem passes_takeChars (n : Nat) : Passes cs (takeChars n) := by
  intro s p a p' hp _ h
  exact ⟨(ensures_takeChars p.ahead n s p a p' hp rfl h).1, trivial⟩

theorem passes_take : Passes cs take := by
  intro s p t p' hp _ h
  exact ⟨(ensures_take p.ahead s p t p' hp rfl h).1, trivial⟩

theorem passes_expect (word : String) : Passes cs (expect word) := by
  apply Keeps.bind (ensures_sees word).passes
  intro b _
  split
  · exact passes_take.discard
  · exact ensures_failure

/-- What is not taken changes nothing. -/
theorem ensures_accept (word : String) :
    Ensures cs P (accept word) fun b p => b = false → P p := by
  apply (ensures_sees word).bind
  intro b
  split
  · apply Keeps.bind passes_take.discard
    intro _ _
    exact ensures_pure nofun
  · exact ensures_pure fun _ hP _ => hP

theorem passes_accept (word : String) : Passes cs (accept word) :=
  (ensures_accept word).passes

end RouteAtlas.Syntax
