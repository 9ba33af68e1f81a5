import Mathlib.Data.List.Induction
import Mathlib.Data.List.Sort
import Mathlib.Tactic.Tauto
import RouteAtlas.SortedMap

/-!
# Reading sorted maps and sets

What a map holds is what `get?` answers, and what a set holds is what `∈` says; the order of the
entries is a matter of the type alone.  Each operation gets the one equation that says what it
does to that view, and nothing downstream opens `insertEntry` or `insertKey` again.

The order is spent in two places.  `mem_toList_iff` needs that no key is listed twice, which is what
makes a listed entry the one that `get?` finds; and `SortedMap.ext_get?` and `SortedSet.ext_mem`
need that there is one order, so that **the view says everything**: maps that answer alike are
equal.
-/

set_option autoImplicit false

namespace RouteAtlas

/-! ## Maps -/

theorem lookup_cons_eq_ite {β : Type} (k k₀ : String) (v₀ : β) (es : List (String × β)) :
    ((k₀, v₀) :: es).lookup k = if k = k₀ then some v₀ else es.lookup k := by
  rw [List.lookup_cons]
  by_cases h : k = k₀
  · simp [h]
  · have hb : (k == k₀) = false := by simpa using h
    simp [hb, h]

/-- Looking up after an insertion into any list of entries.  No order is needed: the new entry
either replaces the first one with its key or stands before every other. -/
theorem lookup_insertEntry {β : Type} (k k' : String) (v : β) (es : List (String × β)) :
    (insertEntry k v es).lookup k' = if k' = k then some v else es.lookup k' := by
  induction es with
  | nil => simp [insertEntry, lookup_cons_eq_ite]
  | cons hd tl ih =>
    obtain ⟨k₀, v₀⟩ := hd
    simp only [insertEntry]
    split
    · rw [lookup_cons_eq_ite]
    · split
      · rename_i heq
        subst heq
        simp only [lookup_cons_eq_ite]
        by_cases h : k' = k <;> simp [h]
      · rename_i hne
        simp only [lookup_cons_eq_ite, ih]
        by_cases h : k' = k₀
        · subst h
          simp [Ne.symm hne]
        · simp [h]

/-- In a list with distinct keys, an entry is the one its key finds. -/
theorem lookup_eq_some_iff_mem {β : Type} {es : List (String × β)}
    (h : (es.map Prod.fst).Nodup) {k : String} {v : β} :
    es.lookup k = some v ↔ (k, v) ∈ es := by
  induction es with
  | nil => simp
  | cons hd tl ih =>
    obtain ⟨k₀, v₀⟩ := hd
    obtain ⟨hout, htl⟩ := List.nodup_cons.mp h
    by_cases hk : k = k₀
    · subst hk
      have hout : (k, v) ∉ tl := fun hm => hout (List.mem_map.mpr ⟨_, hm, rfl⟩)
      simp [hout, eq_comm]
    · simp [lookup_cons_eq_ite, hk, ih htl]

namespace SortedMap

variable {β : Type}

@[simp] theorem get?_empty (k : String) : (∅ : SortedMap β).get? k = none := rfl

theorem get?_insert (m : SortedMap β) (k k' : String) (v : β) :
    (m.insert k v).get? k' = if k' = k then some v else m.get? k' :=
  lookup_insertEntry k k' v m.entries

theorem get?_update (m : SortedMap β) (k k' : String) (f : Option β → β) :
    (m.update k f).get? k' = if k' = k then some (f (m.get? k)) else m.get? k' :=
  m.get?_insert k k' _

theorem pairwise_keys (m : SortedMap β) : m.keys.Pairwise (· < ·) :=
  List.pairwise_map.mpr m.ordered

theorem nodup_keys (m : SortedMap β) : m.keys.Nodup :=
  m.pairwise_keys.imp String.ne_of_lt

theorem mem_toList_iff {m : SortedMap β} {k : String} {v : β} :
    (k, v) ∈ m.toList ↔ m.get? k = some v :=
  (lookup_eq_some_iff_mem m.nodup_keys).symm

theorem mem_keys_iff {m : SortedMap β} {k : String} :
    k ∈ m.keys ↔ ∃ v, m.get? k = some v := by
  constructor
  · intro h
    obtain ⟨⟨k', v⟩, hm, rfl⟩ := List.mem_map.mp h
    exact ⟨v, mem_toList_iff.mp hm⟩
  · rintro ⟨v, hv⟩
    exact List.mem_map.mpr ⟨(k, v), mem_toList_iff.mpr hv, rfl⟩

theorem exists_mem_keys_of_isEmpty_eq_false {m : SortedMap β} (h : m.isEmpty = false) :
    ∃ k, k ∈ m.keys := by
  obtain ⟨e, es, hes⟩ := List.exists_cons_of_ne_nil (List.isEmpty_eq_false_iff.mp h)
  exact ⟨e.1, List.mem_map_of_mem (hes ▸ List.mem_cons_self)⟩

theorem mem_values_iff {m : SortedMap β} {v : β} :
    v ∈ m.values ↔ ∃ k, m.get? k = some v := by
  constructor
  · intro h
    obtain ⟨⟨k, v'⟩, hm, rfl⟩ := List.mem_map.mp h
    exact ⟨k, mem_toList_iff.mp hm⟩
  · rintro ⟨k, hk⟩
    exact List.mem_map.mpr ⟨(k, v), mem_toList_iff.mpr hk, rfl⟩

/-- Maps that answer every key alike are equal. -/
theorem ext_get? {m m' : SortedMap β} (h : ∀ k, m.get? k = m'.get? k) : m = m' := by
  have hirrefl : Std.Irrefl fun a b : String × β => a.1 < b.1 := ⟨fun a => String.lt_irrefl a.1⟩
  have hantisymm : Std.Antisymm fun a b : String × β => a.1 < b.1 :=
    ⟨fun a _ hab hba => absurd (String.lt_trans hab hba) (String.lt_irrefl a.1)⟩
  have hmem : ∀ e, e ∈ m.entries ↔ e ∈ m'.entries := fun e => by
    rw [← lookup_eq_some_iff_mem m.nodup_keys, ← lookup_eq_some_iff_mem m'.nodup_keys]
    exact iff_of_eq (congrArg (· = some e.2) (h e.1))
  cases m
  cases m'
  congr
  exact List.Pairwise.eq_of_mem_iff ‹_› ‹_› hmem

/-- The keys of a map are told by which keys it holds. -/
theorem keys_eq_of_mem_iff {γ : Type} {m : SortedMap β} {m' : SortedMap γ}
    (h : ∀ k, k ∈ m.keys ↔ k ∈ m'.keys) : m.keys = m'.keys := by
  have hirrefl : Std.Irrefl fun a b : String => a < b := ⟨String.lt_irrefl⟩
  have hantisymm : Std.Antisymm fun a b : String => a < b :=
    ⟨fun a _ hab hba => absurd (String.lt_trans hab hba) (String.lt_irrefl a)⟩
  exact List.Pairwise.eq_of_mem_iff m.pairwise_keys m'.pairwise_keys h

theorem get?_filter (m : SortedMap β) (p : String → β → Bool) (k : String) :
    (m.filter p).get? k = (m.get? k).filter (p k) := by
  apply Option.ext
  intro v
  rw [Option.filter_eq_some_iff, ← mem_toList_iff, ← mem_toList_iff]
  exact List.mem_filter

/-- A map made from a list holds the last entry of each key. -/
theorem get?_ofList (es : List (String × β)) (k : String) :
    (ofList es).get? k = es.reverse.lookup k := by
  induction es using List.reverseRecOn with
  | nil => rfl
  | append_singleton es e ih =>
    rw [List.reverse_append, List.reverse_singleton, List.singleton_append, lookup_cons_eq_ite,
      ← ih, ← get?_insert, ofList, ofList, List.foldl_append]
    rfl

/-- It holds nothing that the list does not. -/
theorem mem_of_get?_ofList {es : List (String × β)} {k : String} {v : β}
    (h : (ofList es).get? k = some v) : (k, v) ∈ es := by
  rw [get?_ofList, List.lookup_eq_some_iff] at h
  obtain ⟨later, earlier, hes, -⟩ := h
  exact List.mem_reverse.mp (hes ▸ List.mem_append_right later List.mem_cons_self)

/-- Where no key is listed twice, it holds the whole list. -/
theorem get?_ofList_eq_some_iff {es : List (String × β)} (h : (es.map Prod.fst).Nodup) {k : String}
    {v : β} : (ofList es).get? k = some v ↔ (k, v) ∈ es := by
  have hreverse : (es.reverse.map Prod.fst).Nodup := by
    rw [List.map_reverse]
    exact List.nodup_reverse.mpr h
  rw [get?_ofList, lookup_eq_some_iff_mem hreverse, List.mem_reverse]

/-- And then the order of the list does not matter. -/
theorem ofList_eq_of_perm {es es' : List (String × β)} (h : (es.map Prod.fst).Nodup)
    (hp : es.Perm es') : ofList es' = ofList es := by
  apply ext_get?
  intro k
  apply Option.ext
  intro v
  rw [get?_ofList_eq_some_iff h, get?_ofList_eq_some_iff ((hp.map Prod.fst).nodup_iff.mp h),
    hp.mem_iff]

end SortedMap

/-! ## Sets -/

namespace SortedSet

@[simp] theorem not_mem_empty (k : String) : k ∉ (∅ : SortedSet) := List.not_mem_nil

@[simp] theorem contains_iff {s : SortedSet} {k : String} : s.contains k = true ↔ k ∈ s := by
  simp [contains]

@[simp] theorem mem_toList {s : SortedSet} {k : String} : k ∈ s.toList ↔ k ∈ s := Iff.rfl

@[simp] theorem mem_insertAll {s : SortedSet} {ks : List String} {k : String} :
    k ∈ s.insertAll ks ↔ k ∈ s ∨ k ∈ ks := by
  unfold insertAll
  induction ks generalizing s with
  | nil => simp
  | cons x xs ih =>
    rw [List.foldl_cons, ih, mem_insert, List.mem_cons]
    tauto

theorem mem_ofList {ks : List String} {k : String} : k ∈ ofList ks ↔ k ∈ ks := by
  rw [ofList, mem_insertAll]
  exact or_iff_right (not_mem_empty k)

@[simp] theorem mem_union {s t : SortedSet} {k : String} : k ∈ s.union t ↔ k ∈ s ∨ k ∈ t :=
  mem_insertAll

/-- Sets with the same members are equal. -/
theorem ext_mem {s t : SortedSet} (h : ∀ k, k ∈ s ↔ k ∈ t) : s = t := by
  have hirrefl : Std.Irrefl fun a b : String => a < b := ⟨String.lt_irrefl⟩
  have hantisymm : Std.Antisymm fun a b : String => a < b :=
    ⟨fun a _ hab hba => absurd (String.lt_trans hab hba) (String.lt_irrefl a)⟩
  cases s
  cases t
  congr
  exact List.Pairwise.eq_of_mem_iff ‹_› ‹_› h

/-- The union of a list of sets. -/
theorem mem_foldl_union {ts : List SortedSet} {s : SortedSet} {k : String} :
    k ∈ ts.foldl SortedSet.union s ↔ k ∈ s ∨ ∃ t ∈ ts, k ∈ t := by
  induction ts generalizing s with
  | nil => simp
  | cons t ts ih =>
    rw [List.foldl_cons, ih, mem_union]
    simp [or_assoc]

end SortedSet

end RouteAtlas
