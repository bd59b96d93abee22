import Mathlib.Data.List.Sort
import Mathlib.Data.List.TakeWhile

/-!
# OrderedSet — a set that is walked through in order

The ordered set of the standard library, as the list of its elements in increasing order.

* `OrderedSet` — the list carries its order, so no element is twice in it;
* `begin?` — the first element, `none` where `begin()` is `end()`;
* `before`, `eraseBefore` — the range from `begin()` to `lower_bound(b)`, and what is left without it;
* `mem_insert`, `mem_before`, `begin?_insert` — what the operations do to the members
  and to the first element.
-/

namespace Myoj

/-- A finite set of ordered elements. -/
@[ext] structure OrderedSet (α : Type*) [LinearOrder α] where
  toList : List α
  sorted : toList.SortedLT

namespace OrderedSet

variable {α : Type*} [LinearOrder α]

instance : Membership α (OrderedSet α) where
  mem s x := x ∈ s.toList

def empty : OrderedSet α := ⟨[], List.Pairwise.nil.sortedLT⟩

/-- An element that is already there is not inserted again. -/
def insert (s : OrderedSet α) (x : α) : OrderedSet α :=
  if h : x ∈ s.toList then s
  else
    { toList := s.toList.orderedInsert (· ≤ ·) x
      sorted := by
        have hle : s.toList.Pairwise (· ≤ ·) := s.sorted.pairwise.imp le_of_lt
        have hinserted : (s.toList.orderedInsert (· ≤ ·) x).SortedLE := (hle.orderedInsert x).sortedLE
        have hnodup : (s.toList.orderedInsert (· ≤ ·) x).Nodup :=
          (List.perm_orderedInsert (· ≤ ·) x s.toList).nodup_iff.2 (List.nodup_cons.2 ⟨h, s.sorted.nodup⟩)
        exact hinserted.sortedLT_of_nodup hnodup }

def begin? (s : OrderedSet α) : Option α := s.toList.head?

/-- From `begin()` to `lower_bound(b)`. -/
def before (s : OrderedSet α) (b : α) : List α := s.toList.takeWhile (· < b)

/-- The range from `begin()` to `lower_bound(b)` is erased. -/
def eraseBefore (s : OrderedSet α) (b : α) : OrderedSet α where
  toList := s.toList.dropWhile (· < b)
  sorted := (s.sorted.pairwise.sublist (List.dropWhile_sublist _)).sortedLT

variable {s : OrderedSet α} {x y b : α}

theorem mem_toList : y ∈ s.toList ↔ y ∈ s := Iff.rfl

@[simp] theorem not_mem_empty : y ∉ (empty : OrderedSet α) := List.not_mem_nil

@[simp] theorem mem_insert : y ∈ s.insert x ↔ y = x ∨ y ∈ s := by
  rw [← mem_toList, insert]
  split
  · next h =>
      constructor
      · intro hy
        exact Or.inr hy
      · rintro (rfl | hy)
        · exact h
        · exact hy
  · exact List.mem_orderedInsert (· ≤ ·)

/-- In a list in order, what is left behind the elements below `b` is not below `b`. -/
theorem le_of_mem_dropWhile {l : List α} (h : l.Pairwise (· < ·)) (hy : y ∈ l.dropWhile (· < b)) :
    b ≤ y := by
  induction l with
  | nil =>
      cases hy
  | cons z l ih =>
      rcases List.pairwise_cons.1 h with ⟨hfirst, hrest⟩
      by_cases hz : z < b
      · rw [List.dropWhile_cons_of_pos (by simpa using hz)] at hy
        exact ih hrest hy
      · rw [List.dropWhile_cons_of_neg (by simpa using hz)] at hy
        have hbz : b ≤ z := not_lt.1 hz
        rcases List.mem_cons.1 hy with rfl | hy
        · exact hbz
        · exact hbz.trans (hfirst y hy).le

theorem lt_of_mem_before (h : y ∈ s.before b) : y < b := by
  simpa using List.mem_takeWhile_imp h

theorem le_of_mem_eraseBefore (h : y ∈ s.eraseBefore b) : b ≤ y :=
  le_of_mem_dropWhile s.sorted.pairwise h

/-- Every element is on one side of the bound. -/
theorem mem_split : y ∈ s ↔ y ∈ s.before b ∨ y ∈ s.eraseBefore b := by
  have hsplit : s.before b ++ (s.eraseBefore b).toList = s.toList := List.takeWhile_append_dropWhile
  rw [← mem_toList, ← hsplit, List.mem_append, mem_toList]

theorem mem_before : y ∈ s.before b ↔ y ∈ s ∧ y < b := by
  constructor
  · intro hy
    exact ⟨mem_split.2 (Or.inl hy), lt_of_mem_before hy⟩
  · rintro ⟨hy, hlt⟩
    rcases mem_split.1 hy with hbefore | hafter
    · exact hbefore
    · exact absurd hlt (le_of_mem_eraseBefore hafter).not_gt

/-- Where nothing is below the bound nothing is erased. -/
theorem eraseBefore_of_before_eq_nil (h : s.before b = []) : s.eraseBefore b = s := by
  have hsplit : s.before b ++ (s.eraseBefore b).toList = s.toList := List.takeWhile_append_dropWhile
  rw [h, List.nil_append] at hsplit
  exact OrderedSet.ext hsplit

theorem before_pairwise (s : OrderedSet α) (b : α) : (s.before b).Pairwise (· < ·) :=
  s.sorted.pairwise.sublist (List.takeWhile_sublist _)

theorem begin?_eq_none : s.begin? = none ↔ ∀ y, y ∉ s := by
  rw [begin?, List.head?_eq_none_iff]
  exact List.eq_nil_iff_forall_not_mem

theorem begin?_mem (h : s.begin? = some x) : x ∈ s := List.mem_of_head? h

/-- `begin()` is the least element. -/
theorem begin?_le (h : s.begin? = some x) (hy : y ∈ s) : x ≤ y := by
  rcases List.head?_eq_some_iff.1 h with ⟨rest, hlist⟩
  have hsorted := s.sorted.pairwise
  rw [hlist] at hsorted
  rw [← mem_toList, hlist] at hy
  rcases List.mem_cons.1 hy with rfl | hrest
  · exact le_rfl
  · exact ((List.pairwise_cons.1 hsorted).1 y hrest).le

/-- The least element is `begin()`. -/
theorem begin?_eq_some (hx : x ∈ s) (hle : ∀ y ∈ s, x ≤ y) : s.begin? = some x := by
  cases hbegin : s.begin? with
  | none =>
      exact absurd hx (begin?_eq_none.1 hbegin x)
  | some z =>
      have hzx : z = x := le_antisymm (begin?_le hbegin hx) (hle z (begin?_mem hbegin))
      rw [hzx]

/-- What comes in before `begin()` is the new `begin()`, and anything else leaves it. -/
theorem begin?_insert :
    (s.insert x).begin? = some (match s.begin? with | none => x | some z => min x z) := by
  cases hbegin : s.begin? with
  | none =>
      refine begin?_eq_some (mem_insert.2 (Or.inl rfl)) fun y hy => ?_
      rcases mem_insert.1 hy with rfl | hy
      · exact le_rfl
      · exact absurd hy (begin?_eq_none.1 hbegin y)
  | some z =>
      refine begin?_eq_some ?_ fun y hy => ?_
      · show min x z ∈ s.insert x
        rcases le_total x z with hle | hle
        · rw [min_eq_left hle]
          exact mem_insert.2 (Or.inl rfl)
        · rw [min_eq_right hle]
          exact mem_insert.2 (Or.inr (begin?_mem hbegin))
      · rcases mem_insert.1 hy with rfl | hy
        · exact min_le_left _ _
        · exact (min_le_right _ _).trans (begin?_le hbegin hy)

end OrderedSet
end Myoj
