import Mathlib.Data.List.Basic
import Mathlib.Data.Nat.Init
import Myoj.Lib.Effect

/-!
# Pages — a list cut into pieces of one size

* `window` — some elements from a position on;
* `page` — the `i`-th of the windows that lie side by side;
* `forall_window_eq_iff` — windows from different positions differ on some list;
* `collect` — pieces fetched one after the other and put together;
* `collect_page` — the first `k` pages are the first `k * size` elements, in order.
-/

namespace Myoj
namespace Pages

universe u

variable {α ε : Type u} {skip skip' size : Nat} {xs : List α}

/-- `size` elements from the position `skip` on, or what there is of them. -/
def window (skip size : Nat) (xs : List α) : List α := (xs.drop skip).take size

/-- The page `i`, counted from 0. -/
def page (size i : Nat) (xs : List α) : List α := window (i * size) size xs

theorem window_ne_nil (hsize : 0 < size) (h : skip < xs.length) : window skip size xs ≠ [] := by
  intro hnil
  have hlength := congrArg List.length hnil
  rw [window, List.length_take, List.length_drop, List.length_nil] at hlength
  omega

theorem window_eq_nil (h : xs.length ≤ skip) : window skip size xs = [] := by
  rw [window, List.drop_of_length_le h, List.take_nil]

/-- A list that ends between two positions tells the windows apart. -/
theorem window_replicate_ne (hsize : 0 < size) (h : skip < skip') (a : α) :
    window skip size (List.replicate skip' a) ≠ window skip' size (List.replicate skip' a) := by
  have hlength : (List.replicate skip' a).length = skip' := List.length_replicate
  rw [window_eq_nil (Nat.le_of_eq hlength)]
  exact window_ne_nil hsize (by rwa [hlength])

/-- A window that is right for every list stands at the right position. -/
theorem forall_window_eq_iff [Nonempty α] (hsize : 0 < size) :
    (∀ xs : List α, window skip size xs = window skip' size xs) ↔ skip = skip' := by
  constructor
  · intro h
    obtain ⟨a⟩ := ‹Nonempty α›
    rcases Nat.lt_trichotomy skip skip' with hlt | heq | hgt
    · exact absurd (h _) (window_replicate_ne hsize hlt a)
    · exact heq
    · exact absurd (h _).symm (window_replicate_ne hsize hgt a)
  · rintro rfl xs
    rfl

/-! ## Fetching -/

/-- The pieces 0 to `k - 1`, fetched one after the other and put together. -/
def collect (fetch : Nat → Except ε (List α)) : Nat → Except ε (List α)
  | 0 => .ok []
  | k + 1 => do
      let before ← collect fetch k
      let piece ← fetch k
      return before ++ piece

theorem collect_succ_eq_ok {fetch : Nat → Except ε (List α)} {k : Nat} {all : List α}
    (h : collect fetch (k + 1) = .ok all) :
    ∃ before piece, collect fetch k = .ok before ∧ fetch k = .ok piece ∧ all = before ++ piece := by
  rw [collect, Effect.except_bind_eq_ok_iff] at h
  obtain ⟨before, hbefore, h⟩ := h
  rw [Effect.except_bind_eq_ok_iff] at h
  obtain ⟨piece, hpiece, h⟩ := h
  cases h
  exact ⟨before, piece, hbefore, hpiece, rfl⟩

/-- What is collected only grows. -/
theorem length_collect_le {fetch : Nat → Except ε (List α)} {j k : Nat} (hjk : j ≤ k) {part all : List α}
    (hj : collect fetch j = .ok part) (hk : collect fetch k = .ok all) : part.length ≤ all.length := by
  induction k, hjk using Nat.le_induction generalizing all with
  | base =>
      cases hj.symm.trans hk
      exact Nat.le_refl _
  | succ k _ ih =>
      obtain ⟨before, piece, hbefore, -, rfl⟩ := collect_succ_eq_ok hk
      have hgrows := ih hbefore
      rw [List.length_append]
      omega

/-- Pages that are all right are the list, as far as they reach. -/
theorem collect_page {fetch : Nat → Except ε (List α)} {k : Nat}
    (h : ∀ i < k, fetch i = .ok (page size i xs)) : collect fetch k = .ok (xs.take (k * size)) := by
  induction k with
  | zero =>
      rw [Nat.zero_mul, List.take_zero]
      rfl
  | succ k ih =>
      have hbefore := ih fun i hi => h i (Nat.lt_succ_of_lt hi)
      have hpiece := h k (Nat.lt_succ_self k)
      rw [collect, hbefore, hpiece, Nat.succ_mul, List.take_add]
      rfl

end Pages
end Myoj
