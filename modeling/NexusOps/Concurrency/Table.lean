import Mathlib.Data.Finset.Card
import Mathlib.Data.Multiset.Fold
import Mathlib.Logic.Function.Basic

/-!
# Finite maps

A *table* is a partial function with finite support, the support being part of
the data: it can be counted, and folded over. Unlike a list of pairs it has no
order, and unlike a bare function it is finite, so it is the meaning of a hash
map whose iteration order is unspecified. Two tables with the same lookups are
equal (`Table.ext_get`), so an operation that leaves every lookup as it was
leaves the table as it was.

* `insert`, `remove`, `retain` and `mapValues` are described by their lookups
  (the `get_*` lemmas, which are the simp set);
* `keysWhere` are the keys whose entry satisfies a predicate, as a set: what is
  folded over them must not depend on their order;
* `count` and `any` count the entries satisfying a predicate.
-/

namespace Concurrency

open Function

/-- A finite map: a lookup function together with its support. -/
structure Table (K V : Type) where
  /-- The keys with an entry. -/
  keys : Finset K
  /-- The entry of a key. -/
  get : K → Option V
  /-- The keys are those with an entry. -/
  mem_keys : ∀ k, k ∈ keys ↔ (get k).isSome

namespace Table

variable {K V : Type}

theorem mem_keys_of_get {m : Table K V} {k : K} {v : V} (h : m.get k = some v) : k ∈ m.keys := by
  rw [m.mem_keys, h]
  rfl

/-- Tables with the same lookups are equal. -/
@[ext] theorem ext_get {m n : Table K V} (h : ∀ k, m.get k = n.get k) : m = n := by
  obtain ⟨mk, mg, hm⟩ := m
  obtain ⟨nk, ng, hn⟩ := n
  obtain rfl : mg = ng := funext h
  congr
  ext k
  rw [hm, hn]

/-- The table without entries. -/
def empty : Table K V := ⟨∅, fun _ => none, by simp⟩

@[simp] theorem get_empty (k : K) : (empty : Table K V).get k = none := rfl

variable [DecidableEq K]

/-- Sets the entry of `k` to `v`. -/
def insert (m : Table K V) (k : K) (v : V) : Table K V where
  keys := Insert.insert k m.keys
  get := update m.get k (some v)
  mem_keys k' := by
    by_cases h : k' = k
    · simp [h]
    · simp [h, m.mem_keys]

/-- Removes the entry of `k`. -/
def remove (m : Table K V) (k : K) : Table K V where
  keys := m.keys.erase k
  get := update m.get k none
  mem_keys k' := by
    by_cases h : k' = k
    · simp [h]
    · simp [h, m.mem_keys]

theorem get_insert (m : Table K V) (k : K) (v : V) (k' : K) :
    (m.insert k v).get k' = if k' = k then some v else m.get k' :=
  update_apply ..

theorem get_remove (m : Table K V) (k k' : K) :
    (m.remove k).get k' = if k' = k then none else m.get k' :=
  update_apply ..

@[simp] theorem get_insert_self (m : Table K V) (k : K) (v : V) :
    (m.insert k v).get k = some v := by
  rw [get_insert, if_pos rfl]

@[simp] theorem get_insert_of_ne (m : Table K V) {k k' : K} (h : k' ≠ k) (v : V) :
    (m.insert k v).get k' = m.get k' := by
  rw [get_insert, if_neg h]

@[simp] theorem get_remove_self (m : Table K V) (k : K) : (m.remove k).get k = none := by
  rw [get_remove, if_pos rfl]

@[simp] theorem get_remove_of_ne (m : Table K V) {k k' : K} (h : k' ≠ k) :
    (m.remove k).get k' = m.get k' := by
  rw [get_remove, if_neg h]

/-- An entry of a table after a removal was there before. -/
theorem get_of_get_remove {m : Table K V} {k k' : K} {v : V}
    (h : (m.remove k).get k' = some v) : k' ≠ k ∧ m.get k' = some v := by
  rw [get_remove] at h
  split_ifs at h with hk
  exact ⟨hk, h⟩

/-- Removing a key without an entry changes nothing. -/
theorem remove_of_get_none {m : Table K V} {k : K} (h : m.get k = none) : m.remove k = m := by
  ext k' : 1
  rw [get_remove]
  split_ifs with hk
  · rw [hk, h]
  · rfl

/-- Removals commute. -/
theorem remove_comm (m : Table K V) (k k' : K) :
    (m.remove k).remove k' = (m.remove k').remove k := by
  ext j : 1
  simp only [get_remove]
  split_ifs <;> rfl

omit [DecidableEq K] in
/-- The entries satisfying `p`. -/
def retain (m : Table K V) (p : K → V → Bool) : Table K V where
  keys := m.keys.filter fun k => (m.get k).any (p k)
  get k := (m.get k).filter (p k)
  mem_keys k := by
    cases h : m.get k <;> simp [m.mem_keys, h, Option.filter]

omit [DecidableEq K] in
@[simp] theorem get_retain (m : Table K V) (p : K → V → Bool) (k : K) :
    (m.retain p).get k = (m.get k).filter (p k) := rfl

omit [DecidableEq K] in
/-- Applies `f` to every entry. -/
def mapValues (m : Table K V) (f : K → V → V) : Table K V where
  keys := m.keys
  get k := (m.get k).map (f k)
  mem_keys k := by simp [m.mem_keys]

omit [DecidableEq K] in
@[simp] theorem get_mapValues (m : Table K V) (f : K → V → V) (k : K) :
    (m.mapValues f).get k = (m.get k).map (f k) := rfl

omit [DecidableEq K] in
/-- The keys whose entry satisfies `p`, in no order. -/
def keysWhere (m : Table K V) (p : K → V → Bool) : Finset K :=
  m.keys.filter fun k => (m.get k).any (p k)

omit [DecidableEq K] in
@[simp] theorem mem_keysWhere {m : Table K V} {p : K → V → Bool} {k : K} :
    k ∈ m.keysWhere p ↔ ∃ v, m.get k = some v ∧ p k v = true := by
  rw [keysWhere, Finset.mem_filter, m.mem_keys, Option.any_eq_true, and_iff_right_iff_imp]
  rintro ⟨v, hv, _⟩
  rw [hv, Option.isSome_some]

omit [DecidableEq K] in
/-- The number of entries satisfying `p`. -/
def count (m : Table K V) (p : K → V → Bool) : Nat := (m.keysWhere p).card

omit [DecidableEq K] in
/-- Some entry satisfies `p`. -/
def any (m : Table K V) (p : K → V → Bool) : Bool := decide (m.count p ≠ 0)

omit [DecidableEq K] in
theorem any_eq_true {m : Table K V} {p : K → V → Bool} :
    m.any p = true ↔ ∃ k v, m.get k = some v ∧ p k v = true := by
  rw [any, decide_eq_true_iff, count, Finset.card_ne_zero]
  exact exists_congr fun _ => mem_keysWhere

omit [DecidableEq K] in
theorem any_eq_false {m : Table K V} {p : K → V → Bool} :
    m.any p = false ↔ ∀ k v, m.get k = some v → p k v = false := by
  rw [← Bool.not_eq_true, any_eq_true]
  push Not
  simp

end Table

end Concurrency
