import Mathlib.Data.List.Nodup

/-!
# Rows — a table of rows with different keys

The rows of a collection or table, in the order in which they came.

* `Rows` — the list carries that no key is twice in it;
* `get?` — the row under a key;
* `insert`, `modify`, `filter`, `erase` — the writes;
* `get?_insert`, `get?_modify`, `get?_filter`, `get?_erase` — what they do to the row under a key.
-/

namespace Myoj

@[ext] structure Rows (κ α : Type*) where
  list : List (κ × α)
  nodup : (list.map Prod.fst).Nodup

namespace Rows

variable {κ α : Type*} [DecidableEq κ]

def empty : Rows κ α := ⟨[], List.nodup_nil⟩

def get? (r : Rows κ α) (k : κ) : Option α := r.list.lookup k

variable {r : Rows κ α} {k : κ} {a : α}

theorem get?_eq_some_iff : r.get? k = some a ↔ (k, a) ∈ r.list := by
  obtain ⟨l, hnodup⟩ := r
  simp only [get?]
  induction l with
  | nil =>
      simp
  | cons row l ih =>
      obtain ⟨k', a'⟩ := row
      rw [List.map_cons, List.nodup_cons] at hnodup
      by_cases hk : k = k'
      · subst hk
        have hfresh : (k, a) ∉ l := fun hmem => hnodup.1 (List.mem_map.2 ⟨(k, a), hmem, rfl⟩)
        simp [hfresh, eq_comm]
      · simp [List.lookup_cons, beq_eq_false_iff_ne.2 hk, hk, ih hnodup.2]

theorem get?_eq_none_iff : r.get? k = none ↔ k ∉ r.list.map Prod.fst := by
  constructor
  · rintro hnone hmem
    obtain ⟨⟨k', a⟩, hrow, rfl⟩ := List.mem_map.1 hmem
    rw [get?_eq_some_iff.2 hrow] at hnone
    cases hnone
  · intro hmem
    rw [Option.eq_none_iff_forall_ne_some]
    exact fun a ha => hmem (List.mem_map_of_mem (get?_eq_some_iff.1 ha))

/-- Two tables that agree on membership agree under every key. -/
theorem get?_congr {r' : Rows κ α} (h : ∀ a, (k, a) ∈ r'.list ↔ (k, a) ∈ r.list) :
    r'.get? k = r.get? k :=
  Option.ext fun a => by rw [get?_eq_some_iff, get?_eq_some_iff, h a]

@[simp] theorem get?_empty : (empty : Rows κ α).get? k = none := rfl

/-- There is at most one row under a key. -/
theorem filter_key (r : Rows κ α) (k : κ) :
    r.list.filter (fun row => row.1 = k) = (r.get? k).toList.map fun a => (k, a) := by
  obtain ⟨l, hnodup⟩ := r
  simp only [get?]
  induction l with
  | nil =>
      rfl
  | cons row l ih =>
      obtain ⟨k', a⟩ := row
      rw [List.map_cons, List.nodup_cons] at hnodup
      by_cases hk : k' = k
      · subst hk
        have hrest : l.filter (fun row => row.1 = k') = [] := by
          rw [List.filter_eq_nil_iff]
          intro row hmem hkey
          exact hnodup.1 (List.mem_map.2 ⟨row, hmem, by simpa using hkey⟩)
        simp [hrest]
      · simp [hk, List.lookup_cons, beq_eq_false_iff_ne.2 (Ne.symm hk), ih hnodup.2]

/-! ## Writes -/

/-- A new row comes last. -/
def insert (r : Rows κ α) (k : κ) (a : α) (h : r.get? k = none) : Rows κ α where
  list := r.list ++ [(k, a)]
  nodup := by
    rw [List.map_append, List.nodup_append]
    refine ⟨r.nodup, List.nodup_singleton _, ?_⟩
    rintro k₁ hk₁ k₂ hk₂ rfl
    have hk : k₁ = k := List.mem_singleton.1 hk₂
    exact get?_eq_none_iff.1 h (hk ▸ hk₁)

/-- The row under a key, changed in place. -/
def modify (r : Rows κ α) (k : κ) (f : α → α) : Rows κ α where
  list := r.list.map fun row => if row.1 = k then (row.1, f row.2) else row
  nodup := by
    have hkeys : (r.list.map fun row => if row.1 = k then (row.1, f row.2) else row).map Prod.fst =
        r.list.map Prod.fst := by
      rw [List.map_map]
      refine List.map_congr_left fun row _ => ?_
      simp only [Function.comp_apply]
      split <;> rfl
    rw [hkeys]
    exact r.nodup

def filter (r : Rows κ α) (p : κ × α → Bool) : Rows κ α where
  list := r.list.filter p
  nodup := r.nodup.sublist (List.filter_sublist.map Prod.fst)

def erase (r : Rows κ α) (k : κ) : Rows κ α := r.filter fun row => row.1 ≠ k

theorem get?_insert {h : r.get? k = none} {k' : κ} :
    (r.insert k a h).get? k' = if k' = k then some a else r.get? k' := by
  by_cases hk : k' = k
  · subst hk
    rw [if_pos rfl, get?_eq_some_iff]
    exact List.mem_append_right _ (List.mem_singleton_self _)
  · rw [if_neg hk]
    refine get?_congr fun a' => ?_
    simp [insert, hk]

theorem get?_modify {f : α → α} {k' : κ} :
    (r.modify k f).get? k' = if k' = k then (r.get? k').map f else r.get? k' := by
  have hmem : ∀ a, (k', a) ∈ (r.modify k f).list ↔
      ∃ a', (k', a') ∈ r.list ∧ a = if k' = k then f a' else a' := by
    intro a
    simp only [modify, List.mem_map, Prod.exists]
    constructor
    · rintro ⟨k₁, a₁, hmem, heq⟩
      by_cases hk : k₁ = k
      · rw [if_pos hk] at heq
        cases heq
        exact ⟨a₁, hmem, by rw [if_pos hk]⟩
      · rw [if_neg hk] at heq
        cases heq
        exact ⟨a, hmem, by rw [if_neg hk]⟩
    · rintro ⟨a', hmem, rfl⟩
      refine ⟨k', a', hmem, ?_⟩
      split <;> rfl
  refine Option.ext fun a => ?_
  rw [get?_eq_some_iff, hmem]
  by_cases hk : k' = k
  · simp only [if_pos hk, Option.map_eq_some_iff, get?_eq_some_iff, eq_comm (a := a)]
  · simp [hk, get?_eq_some_iff]

theorem get?_filter {p : κ × α → Bool} :
    (r.filter p).get? k = (r.get? k).filter fun a => p (k, a) := by
  refine Option.ext fun a => ?_
  rw [get?_eq_some_iff, Option.filter_eq_some_iff, get?_eq_some_iff]
  exact List.mem_filter

theorem get?_erase {k' : κ} : (r.erase k).get? k' = if k' = k then none else r.get? k' := by
  rw [erase, get?_filter]
  by_cases hk : k' = k
  · simp [hk]
  · cases r.get? k' <;> simp [hk]

theorem modify_congr {f g : α → α} (h : ∀ a, r.get? k = some a → f a = g a) :
    r.modify k f = r.modify k g := by
  refine Rows.ext (List.map_congr_left fun row hrow => ?_)
  split
  · next hk =>
    subst hk
    rw [h row.2 (get?_eq_some_iff.2 hrow)]
  · rfl

/-- A change that changes nothing. -/
theorem modify_of_fixed {f : α → α} (h : ∀ a, r.get? k = some a → f a = a) : r.modify k f = r := by
  rw [modify_congr (g := id) h]
  refine Rows.ext ((List.map_congr_left fun row _ => ?_).trans (List.map_id _))
  split <;> rfl

theorem erase_of_none (h : r.get? k = none) : r.erase k = r := by
  refine Rows.ext (List.filter_eq_self.2 fun row hrow => ?_)
  rw [get?_eq_none_iff] at h
  exact decide_eq_true fun hk => h (hk ▸ List.mem_map_of_mem hrow)

end Rows
end Myoj
