import Mathlib.Data.List.Nodup
import Mathlib.Logic.Function.Basic

/-!
# SlotTable — a dense array whose elements know where they stand

A vector without holes, and with each element the position it has.  An element is pushed at the end; one
is taken out by moving the last into its slot, and then the element that moved has to be told.

* `swapPop` — what is left when the last element has taken the place of another;
* `Placed` — every element of the vector knows its position;
* `Placed.push`, `Placed.dropLast`, `Placed.swapPop` — the operations, each with the one position that
  has to be written.
-/

namespace Myoj
namespace SlotTable

variable {α β : Type*} {xs : List α} {pos : α → Int} {x y : α} {i : Nat}

/-- The last element moves to `i`. -/
def swapPop (xs : List α) (i : Nat) : List α :=
  match xs.getLast? with
  | none => []
  | some y => (xs.set i y).dropLast

theorem swapPop_of_getLast (h : xs.getLast? = some y) : swapPop xs i = (xs.set i y).dropLast := by
  rw [swapPop, h]

theorem map_swapPop (f : α → β) (xs : List α) (i : Nat) :
    (swapPop xs i).map f = swapPop (xs.map f) i := by
  cases h : xs.getLast? with
  | none =>
      simp [swapPop, h]
  | some y =>
      simp [swapPop, h, List.map_dropLast, List.map_set]

@[simp] theorem length_swapPop : (swapPop xs i).length = xs.length - 1 := by
  cases h : xs.getLast? with
  | none =>
      simp [swapPop, List.getLast?_eq_none_iff.1 h]
  | some y =>
      simp [swapPop, h]

theorem getElem?_swapPop (h : xs.getLast? = some y) (k : Nat) :
    (swapPop xs i)[k]? =
      if k < xs.length - 1 then if k = i then some y else xs[k]? else none := by
  rw [swapPop_of_getLast h, List.getElem?_dropLast, List.length_set]
  split
  · rename_i hk
    rw [List.getElem?_set]
    split
    · rename_i hik
      rw [if_pos hik.symm, if_pos (by omega)]
    · rename_i hik
      rw [if_neg (Ne.symm hik)]
  · rfl

/-- The last element is taken out by leaving it off. -/
theorem swapPop_last (xs : List α) : swapPop xs (xs.length - 1) = xs.dropLast := by
  cases h : xs.getLast? with
  | none =>
      simp [swapPop, List.getLast?_eq_none_iff.1 h]
  | some y =>
      have hlast : xs[xs.length - 1]? = some y := by
        rw [← List.getLast?_eq_getElem?, h]
      obtain ⟨hlt, heq⟩ := List.getElem?_eq_some_iff.1 hlast
      rw [swapPop_of_getLast h, ← heq, List.set_getElem_self]

/-- Every element knows its position. -/
def Placed (xs : List α) (pos : α → Int) : Prop :=
  ∀ (i : Nat) (x : α), xs[i]? = some x → pos x = i

theorem placed_nil (pos : α → Int) : Placed [] pos := by
  simp [Placed]

namespace Placed

/-- The position leads back to the element. -/
theorem getElem?_of_mem (h : Placed xs pos) (hx : x ∈ xs) :
    ∃ i < xs.length, pos x = i ∧ xs[i]? = some x := by
  obtain ⟨i, hi⟩ := List.mem_iff_getElem?.1 hx
  obtain ⟨hlt, -⟩ := List.getElem?_eq_some_iff.1 hi
  exact ⟨i, hlt, h i x hi, hi⟩

theorem inj (h : Placed xs pos) (hx : x ∈ xs) (hy : y ∈ xs) (hpos : pos x = pos y) : x = y := by
  obtain ⟨i, -, hposx, hi⟩ := h.getElem?_of_mem hx
  obtain ⟨j, -, hposy, hj⟩ := h.getElem?_of_mem hy
  have hij : i = j := by omega
  subst hij
  exact Option.some.inj (hi.symm.trans hj)

theorem nodup (h : Placed xs pos) : xs.Nodup := by
  rw [List.nodup_iff_getElem?_ne_getElem?]
  intro i j hij hj heq
  obtain ⟨x, hx⟩ : ∃ x, xs[j]? = some x := ⟨_, List.getElem?_eq_getElem hj⟩
  have hi := h i x (heq.trans hx)
  have hj := h j x hx
  omega

theorem congr (h : Placed xs pos) {pos' : α → Int} (hpos : ∀ x ∈ xs, pos' x = pos x) :
    Placed xs pos' := by
  intro i x hi
  rw [hpos x (List.mem_of_getElem? hi)]
  exact h i x hi

theorem dropLast (h : Placed xs pos) : Placed xs.dropLast pos := by
  intro i z hi
  rw [List.getElem?_dropLast] at hi
  split at hi
  · exact h i z hi
  · cases hi

/-- What is left is all but the element that stood at `i`. -/
theorem mem_swapPop (h : Placed xs pos) (hx : xs[i]? = some x) {z : α} :
    z ∈ SlotTable.swapPop xs i ↔ z ∈ xs ∧ z ≠ x := by
  have hi : i < xs.length := (List.getElem?_eq_some_iff.1 hx).1
  have hlast : xs.getLast? = xs[xs.length - 1]? := List.getLast?_eq_getElem?
  obtain ⟨y, hy⟩ : ∃ y, xs.getLast? = some y := by
    rw [hlast]
    exact ⟨_, List.getElem?_eq_getElem (by omega)⟩
  rw [hy] at hlast
  have hposx := h i x hx
  have hposy := h _ y hlast.symm
  constructor
  · intro hz
    obtain ⟨k, hk⟩ := List.mem_iff_getElem?.1 hz
    rw [getElem?_swapPop hy] at hk
    split at hk
    · split at hk
      · -- the element that moved came from the end
        cases hk
        refine ⟨List.mem_of_getLast? hy, ?_⟩
        rintro rfl
        omega
      · refine ⟨List.mem_of_getElem? hk, ?_⟩
        rintro rfl
        have := h k z hk
        omega
    · cases hk
  · rintro ⟨hz, hne⟩
    obtain ⟨j, hj, hpos, hget⟩ := h.getElem?_of_mem hz
    have hji : j ≠ i := by
      rintro rfl
      exact hne (Option.some.inj (hget.symm.trans hx))
    refine List.mem_iff_getElem?.2 ?_
    by_cases hend : j < xs.length - 1
    · refine ⟨j, ?_⟩
      rw [getElem?_swapPop hy, if_pos hend, if_neg hji, hget]
    · have hj' : j = xs.length - 1 := by omega
      subst hj'
      refine ⟨i, ?_⟩
      rw [getElem?_swapPop hy, if_pos (by omega), if_pos rfl, hlast, hget]

variable [DecidableEq α]

theorem push (h : Placed xs pos) (hx : x ∉ xs) :
    Placed (xs ++ [x]) (Function.update pos x xs.length) := by
  intro i z hi
  rw [List.getElem?_append] at hi
  split at hi
  · have hne : z ≠ x := fun heq => hx (heq ▸ List.mem_of_getElem? hi)
    rw [Function.update_of_ne hne]
    exact h i z hi
  · -- nothing stands behind the new element
    have hend : i = xs.length := by
      have := (List.getElem?_eq_some_iff.1 hi).1
      simp at this
      omega
    subst hend
    simp at hi
    simp [← hi]

/-- The element that moved is told its new position. -/
theorem swapPop (h : Placed xs pos) (hy : xs.getLast? = some y) (i : Nat) :
    Placed (SlotTable.swapPop xs i) (Function.update pos y i) := by
  have hposy : pos y = (xs.length - 1 : Nat) := by
    apply h
    rw [← List.getLast?_eq_getElem?, hy]
  intro k z hk
  rw [getElem?_swapPop hy] at hk
  split at hk
  · split at hk
    · rename_i hki
      cases hk
      rw [Function.update_self, hki]
    · have hpos := h k z hk
      have hne : z ≠ y := by
        rintro rfl
        omega
      rw [Function.update_of_ne hne, hpos]
  · cases hk

end Placed
end SlotTable
end Myoj
