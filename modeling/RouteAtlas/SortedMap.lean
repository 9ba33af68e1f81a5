/-!
# Sorted maps and sets over text keys

Every answer of this library that lists keyed facts lists them in increasing key order, so the
order is part of the type: a `SortedMap` is a list of entries whose keys strictly increase.  Two
maps with the same entries are then the same value, and reading a map out needs no sorting.
`SortedSet` is the same for keys alone.

Keys are compared character by character, which for text is also the order of its bytes.
-/

set_option autoImplicit false

namespace RouteAtlas

/-! ## Insertion into an ordered list -/

/-- Puts `v` at `k`, replacing what was there. -/
def insertEntry {β : Type} (k : String) (v : β) : List (String × β) → List (String × β)
  | [] => [(k, v)]
  | (k', v') :: rest =>
    if k < k' then (k, v) :: (k', v') :: rest
    else if k = k' then (k, v) :: rest
    else (k', v') :: insertEntry k v rest

theorem mem_insertEntry {β : Type} {k : String} {v : β} {es : List (String × β)}
    {e : String × β} (h : e ∈ insertEntry k v es) : e = (k, v) ∨ e ∈ es := by
  induction es with
  | nil => simpa [insertEntry] using h
  | cons hd tl ih =>
    obtain ⟨k', v'⟩ := hd
    simp only [insertEntry] at h
    split at h
    · simpa using h
    · split at h
      · rcases List.mem_cons.1 h with h | h
        · exact .inl h
        · exact .inr (List.mem_cons_of_mem _ h)
      · rcases List.mem_cons.1 h with h | h
        · exact .inr (by simp [h])
        · rcases ih h with h | h
          · exact .inl h
          · exact .inr (List.mem_cons_of_mem _ h)

/-- Keys that strictly increase still do after an insertion. -/
theorem pairwise_insertEntry {β : Type} {k : String} {v : β} {es : List (String × β)}
    (h : es.Pairwise (fun a b => a.1 < b.1)) :
    (insertEntry k v es).Pairwise (fun a b => a.1 < b.1) := by
  induction es with
  | nil => simp [insertEntry]
  | cons hd tl ih =>
    obtain ⟨k', v'⟩ := hd
    obtain ⟨hlt, htl⟩ := List.pairwise_cons.1 h
    simp only [insertEntry]
    split
    · rename_i hk
      refine List.pairwise_cons.2 ⟨fun e he => ?_, h⟩
      rcases List.mem_cons.1 he with rfl | he
      · exact hk
      · exact String.lt_trans hk (hlt e he)
    · rename_i hk
      split
      · rename_i heq
        subst heq
        exact List.pairwise_cons.2 ⟨hlt, htl⟩
      · rename_i hne
        refine List.pairwise_cons.2 ⟨fun e he => ?_, ih htl⟩
        rcases mem_insertEntry he with rfl | he
        · exact Std.lt_of_le_of_ne (String.not_lt.1 hk) (Ne.symm hne)
        · exact hlt e he

/-! ## Maps -/

/-- A finite map from text to `β`, its entries in strictly increasing key order. -/
structure SortedMap (β : Type) where
  entries : List (String × β)
  ordered : entries.Pairwise (fun a b => a.1 < b.1)
  deriving DecidableEq

namespace SortedMap

variable {β : Type}

def empty : SortedMap β := ⟨[], .nil⟩

instance : Inhabited (SortedMap β) := ⟨empty⟩

instance : EmptyCollection (SortedMap β) := ⟨empty⟩

/-- The value at a key. -/
def get? (m : SortedMap β) (k : String) : Option β :=
  m.entries.lookup k

def contains (m : SortedMap β) (k : String) : Bool :=
  (m.get? k).isSome

/-- The map with `v` at `k` and nothing else changed. -/
def insert (m : SortedMap β) (k : String) (v : β) : SortedMap β :=
  ⟨insertEntry k v m.entries, pairwise_insertEntry m.ordered⟩

/-- The map with the value at `k` computed from the one it had. -/
def update (m : SortedMap β) (k : String) (f : Option β → β) : SortedMap β :=
  m.insert k (f (m.get? k))

/-- The map with `v` at `k` unless `k` already has a value. -/
def insertNew (m : SortedMap β) (k : String) (v : β) : SortedMap β :=
  if m.contains k then m else m.insert k v

def filter (p : String → β → Bool) (m : SortedMap β) : SortedMap β :=
  ⟨m.entries.filter (fun e => p e.1 e.2), m.ordered.filter _⟩

/-- A later entry of the list replaces an earlier one with its key. -/
def ofList (es : List (String × β)) : SortedMap β :=
  es.foldl (fun m e => m.insert e.1 e.2) empty

def toList (m : SortedMap β) : List (String × β) := m.entries

def keys (m : SortedMap β) : List String := m.entries.map (·.1)

def values (m : SortedMap β) : List β := m.entries.map (·.2)

def isEmpty (m : SortedMap β) : Bool := m.entries.isEmpty

def size (m : SortedMap β) : Nat := m.entries.length

end SortedMap

/-! ## Sets -/

/-- A finite set of texts in strictly increasing order. -/
structure SortedSet where
  elements : List String
  ordered : elements.Pairwise (· < ·)
  deriving DecidableEq

/-- Puts `k` into an ordered list that may already hold it. -/
def insertKey (k : String) : List String → List String
  | [] => [k]
  | k' :: rest =>
    if k < k' then k :: k' :: rest
    else if k = k' then k' :: rest
    else k' :: insertKey k rest

theorem mem_insertKey {k x : String} {ks : List String} : x ∈ insertKey k ks ↔ x = k ∨ x ∈ ks := by
  induction ks with
  | nil => simp [insertKey]
  | cons k' tl ih =>
    simp only [insertKey]
    split
    · simp
    · split
      · rename_i heq
        subst heq
        simp
      · simp only [List.mem_cons, ih]
        grind

theorem pairwise_insertKey {k : String} {ks : List String} (h : ks.Pairwise (· < ·)) :
    (insertKey k ks).Pairwise (· < ·) := by
  induction ks with
  | nil => simp [insertKey]
  | cons k' tl ih =>
    obtain ⟨hlt, htl⟩ := List.pairwise_cons.1 h
    simp only [insertKey]
    split
    · rename_i hk
      refine List.pairwise_cons.2 ⟨fun x hx => ?_, h⟩
      rcases List.mem_cons.1 hx with rfl | hx
      · exact hk
      · exact String.lt_trans hk (hlt x hx)
    · rename_i hk
      split
      · exact h
      · rename_i hne
        refine List.pairwise_cons.2 ⟨fun x hx => ?_, ih htl⟩
        rcases mem_insertKey.1 hx with rfl | hx
        · exact Std.lt_of_le_of_ne (String.not_lt.1 hk) (Ne.symm hne)
        · exact hlt x hx

namespace SortedSet

def empty : SortedSet := ⟨[], .nil⟩

instance : Inhabited SortedSet := ⟨empty⟩

instance : EmptyCollection SortedSet := ⟨empty⟩

instance : Membership String SortedSet := ⟨fun s k => k ∈ s.elements⟩

instance (k : String) (s : SortedSet) : Decidable (k ∈ s) :=
  inferInstanceAs (Decidable (k ∈ s.elements))

def contains (s : SortedSet) (k : String) : Bool := decide (k ∈ s)

def insert (s : SortedSet) (k : String) : SortedSet :=
  ⟨insertKey k s.elements, pairwise_insertKey s.ordered⟩

def insertAll (s : SortedSet) (ks : List String) : SortedSet :=
  ks.foldl insert s

def union (s t : SortedSet) : SortedSet := s.insertAll t.elements

def ofList (ks : List String) : SortedSet := empty.insertAll ks

def toList (s : SortedSet) : List String := s.elements

def isEmpty (s : SortedSet) : Bool := s.elements.isEmpty

@[simp] theorem mem_insert {s : SortedSet} {k x : String} : x ∈ s.insert k ↔ x = k ∨ x ∈ s :=
  mem_insertKey

end SortedSet

end RouteAtlas
