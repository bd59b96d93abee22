import Mathlib.Data.List.Basic

/-!
# EventLoopThreadPool — the loop a new connection goes to

`getNextLoopByMinLoad` walks around `loops_` once, from where the last call stopped, and takes a loop with
the least load; it stops early at a loop without any.

* `EventLoopThreadPool` — `none` where the code would index outside `loops_`;
* `Walk` — what has been seen after some of the iterations: an arc of the circle;
* `least_loaded` — no loop has less load than the one that is returned.

Loops are named by the elements of a type `ι`; in the code they are pointers.
-/

namespace Myoj
namespace Net

structure EventLoopThreadPool (ι : Type) where
  baseloop_ : ι
  loops_ : List ι
  _thread_pos : Nat
  deriving DecidableEq, Repr

namespace EventLoopThreadPool

variable {ι : Type} (load : ι → Int)

/-- The variables of the loop in `getNextLoopByMinLoad`. -/
structure Scan (ι : Type) where
  thread_pos : Nat
  executor_min_load : ι
  min_load : Int

/-- Past the end the walk goes on at the front. -/
def wrap (loops_ : List ι) (thread_pos : Nat) : Nat :=
  if loops_.length ≤ thread_pos then 0 else thread_pos

/-- One iteration up to the test for the early exit. -/
def Scan.look (s : Scan ι) (thread_pos : Nat) (th : ι) : Scan ι :=
  if load th < s.min_load then { thread_pos, executor_min_load := th, min_load := load th }
  else { s with thread_pos }

/-- `n` iterations are left. -/
def scan (loops_ : List ι) : Nat → Scan ι → Option (Scan ι)
  | 0, s => some s
  | n + 1, s => do
      let thread_pos := wrap loops_ s.thread_pos
      let th ← loops_[thread_pos]?
      let s := s.look load thread_pos th
      -- the `break` leaves `thread_pos` where it is
      if s.min_load = 0 then some s
      else scan loops_ n { s with thread_pos := s.thread_pos + 1 }

def getNextLoopByMinLoad (pool : EventLoopThreadPool ι) : Option (ι × EventLoopThreadPool ι) :=
  if pool.loops_ = [] then some (pool.baseloop_, pool)
  else do
    let thread_pos := wrap pool.loops_ pool._thread_pos
    let executor_min_load ← pool.loops_[thread_pos]?
    let s ← scan load pool.loops_ pool.loops_.length
      { thread_pos, executor_min_load, min_load := load executor_min_load }
    some (s.executor_min_load, { pool with _thread_pos := s.thread_pos })

/-! ## The walk around the loops -/

variable {load} {loops_ : List ι} {start m : Nat} {s : Scan ι}

/-- From any start, as many steps as there are places lead to every place. -/
theorem exists_steps {n j : Nat} (hstart : start < n) (hj : j < n) :
    ∃ k < n, (start + k) % n = j := by
  by_cases hle : start ≤ j
  · refine ⟨j - start, by omega, ?_⟩
    rw [show start + (j - start) = j by omega]
    exact Nat.mod_eq_of_lt hj
  · refine ⟨j + n - start, by omega, ?_⟩
    rw [show start + (j + n - start) = j + n by omega, Nat.add_mod_right]
    exact Nat.mod_eq_of_lt hj

/-- `wrap` is the remainder, also one past the end. -/
theorem wrap_eq_mod {thread_pos : Nat} (h : thread_pos ≤ loops_.length) :
    wrap loops_ thread_pos = thread_pos % loops_.length := by
  simp only [wrap]
  split
  · rw [show thread_pos = loops_.length by omega, Nat.mod_self]
  · exact (Nat.mod_eq_of_lt (by omega)).symm

theorem wrap_lt (hloops : loops_ ≠ []) (thread_pos : Nat) : wrap loops_ thread_pos < loops_.length := by
  have hpos := List.length_pos_iff.2 hloops
  simp only [wrap]
  split
  · exact hpos
  · omega

variable (load) in
/-- The loop that is held is the least of the arc of `m` loops from `start`. -/
structure Arc (loops_ : List ι) (start m : Nat) (s : Scan ι) : Prop where
  mem : s.executor_min_load ∈ loops_
  held : s.min_load = load s.executor_min_load
  least : ∀ k < m, ∀ l, loops_[(start + k) % loops_.length]? = some l → s.min_load ≤ load l

/-- The arc is longer by the loop that is looked at. -/
theorem Arc.look (h : Arc load loops_ start m s) {th : ι} (thread_pos : Nat)
    (hth : loops_[(start + m) % loops_.length]? = some th) :
    Arc load loops_ start (m + 1) (s.look load thread_pos th) := by
  have hleast : ∀ k < m + 1, ∀ l, loops_[(start + k) % loops_.length]? = some l →
      s.min_load ≤ load l ∨ l = th := by
    intro k hk l hl
    by_cases hkm : k < m
    · exact Or.inl (h.least k hkm l hl)
    · have hkm : k = m := by omega
      subst hkm
      exact Or.inr (Option.some.inj (hl.symm.trans hth))
  simp only [Scan.look]
  split
  · rename_i hlt
    refine ⟨List.mem_of_getElem? hth, rfl, ?_⟩
    intro k hk l hl
    rcases hleast k hk l hl with hle | rfl
    · exact Int.le_trans (Int.le_of_lt hlt) hle
    · exact Int.le_refl _
  · rename_i hge
    refine ⟨h.mem, h.held, ?_⟩
    intro k hk l hl
    rcases hleast k hk l hl with hle | rfl
    · exact hle
    · exact Int.not_lt.1 hge

/-- The arc has gone all around. -/
theorem Arc.least_of_full (h : Arc load loops_ start loops_.length s) (hstart : start < loops_.length) :
    ∀ l ∈ loops_, s.min_load ≤ load l := by
  intro l hl
  obtain ⟨j, hj⟩ := List.mem_iff_getElem?.1 hl
  obtain ⟨k, hk, hmod⟩ := exists_steps hstart (List.getElem?_eq_some_iff.1 hj).1
  exact h.least k hk l (hmod ▸ hj)

/-- The rest of the walk.  It may stop before the circle is closed, at a loop without load. -/
theorem scan_eq (hnonneg : ∀ l ∈ loops_, 0 ≤ load l) (hstart : start < loops_.length) {n : Nat}
    (h : Arc load loops_ start m s) (hpos : wrap loops_ s.thread_pos = (start + m) % loops_.length)
    (hn : m + n = loops_.length) :
    ∃ s', scan load loops_ n s = some s' ∧
      s'.executor_min_load ∈ loops_ ∧ ∀ l ∈ loops_, load s'.executor_min_load ≤ load l := by
  induction n generalizing m s with
  | zero =>
      rw [Nat.add_zero] at hn
      subst hn
      refine ⟨s, rfl, h.mem, ?_⟩
      rw [← h.held]
      exact h.least_of_full hstart
  | succ n ih =>
      have hlt : wrap loops_ s.thread_pos < loops_.length :=
        wrap_lt (List.length_pos_iff.1 (by omega)) _
      obtain ⟨th, hth⟩ : ∃ th, loops_[wrap loops_ s.thread_pos]? = some th :=
        ⟨_, List.getElem?_eq_getElem hlt⟩
      have harc := h.look (wrap loops_ s.thread_pos) (hpos ▸ hth)
      have hthread : (s.look load (wrap loops_ s.thread_pos) th).thread_pos =
          wrap loops_ s.thread_pos := by
        simp only [Scan.look]
        split <;> rfl
      simp only [scan, hth, Option.bind_eq_bind, Option.bind_some]
      split
      · rename_i hzero
        refine ⟨_, rfl, harc.mem, ?_⟩
        rw [← harc.held, hzero]
        exact hnonneg
      · refine ih (m := m + 1) ⟨harc.mem, harc.held, harc.least⟩ ?_ (by omega)
        rw [hthread, wrap_eq_mod (Nat.succ_le_of_lt hlt), hpos, Nat.succ_eq_add_one, Nat.mod_add_mod,
          Nat.add_assoc]

/-- **The loop that is returned has the least load**, and `loops_` is indexed inside only. -/
theorem least_loaded (pool : EventLoopThreadPool ι) (hloops : pool.loops_ ≠ [])
    (hnonneg : ∀ l ∈ pool.loops_, 0 ≤ load l) :
    ∃ loop pool', pool.getNextLoopByMinLoad load = some (loop, pool') ∧ loop ∈ pool.loops_ ∧
      ∀ l ∈ pool.loops_, load loop ≤ load l := by
  have hlt := wrap_lt hloops pool._thread_pos
  obtain ⟨l, hl⟩ : ∃ l, pool.loops_[wrap pool.loops_ pool._thread_pos]? = some l :=
    ⟨_, List.getElem?_eq_getElem hlt⟩
  -- the first loop is in hand before any has been looked at
  have harc : Arc load pool.loops_ (wrap pool.loops_ pool._thread_pos) 0
      { thread_pos := wrap pool.loops_ pool._thread_pos, executor_min_load := l, min_load := load l } :=
    ⟨List.mem_of_getElem? hl, rfl, fun k hk => absurd hk (Nat.not_lt_zero k)⟩
  obtain ⟨s, hscan, hmem, hleast⟩ := scan_eq hnonneg hlt harc (n := pool.loops_.length)
    (wrap_eq_mod (Nat.le_of_lt hlt)) (Nat.zero_add _)
  refine ⟨s.executor_min_load, { pool with _thread_pos := s.thread_pos }, ?_, hmem, hleast⟩
  simp only [getNextLoopByMinLoad, if_neg hloops, hl, Option.bind_eq_bind, Option.bind_some, hscan]

/-- Three loops and a position beyond the end: the second is taken, and the walk stops there. -/
theorem least_loaded_three :
    let pool : EventLoopThreadPool Nat := { baseloop_ := 9, loops_ := [5, 6, 7], _thread_pos := 12 }
    ∃ loop pool', pool.getNextLoopByMinLoad (fun l => if l = 6 then 0 else 40) = some (loop, pool') ∧
      loop ∈ pool.loops_ ∧
      ∀ l ∈ pool.loops_, (if loop = 6 then (0 : Int) else 40) ≤ if l = 6 then 0 else 40 :=
  least_loaded _ (by decide) (by decide)

end EventLoopThreadPool
end Net
end Myoj
