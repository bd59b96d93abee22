import Mathlib.Algebra.GroupWithZero.Nat
import Mathlib.Data.List.Basic

/-!
# Runs — event-driven machines and what holds along them

A machine is a total function `step : σ → ε → σ`; everything the environment decides (which call
comes next, what the kernel answers) is part of the event.  A run is a list of events, its final
state is `es.foldl step s`.

* `Guarded step G s es` — every event of the run satisfies the guard `G` in the state it meets;
* `Throughout step P s es` — `P` holds in every state of the run, the first and the last included;
* `invariant_run` — what every step keeps holds at the end of every run;
* `throughout_of_forall` — what holds of every state holds throughout every run;
* `simulation` — a machine whose every possible step is a step of a more abstract one refines it;
* `guarded_iff_throughout` — the exact rule: when a guard decides at every step whether the
  property survives, the guarded runs are precisely the runs that keep the property;
* `Guarded.guarded_iff_throughout` — the same for the runs that take admitted steps only, also under an
  invariant of these;
* `guarded_iff_of_invariant` — the same when the property rests on an invariant of the guarded steps;
* `throughout_iff_final` — a property that is never regained holds throughout when it holds at the end;
* `Guarded.weaken` — under such an invariant a guarded run meets whatever its guard implies;
* `collected`, `record_run` — what the steps of a run give out one by one, and a record that keeps it;
* `Guarded.throughout`, `guarded_of_not_doomed` — the two halves when a violated guard shows only later:
  it leaves a state that is doomed, and doomed states stay so.

`Clock` is for machines that read the time: the readings a run takes, in order.
-/

namespace Myoj

/-- A clock that never goes back. -/
structure Clock where
  reading : Nat → Int
  monotone : ∀ {m n : Nat}, m ≤ n → reading m ≤ reading n

namespace Runs

variable {σ ε : Type*} (step : σ → ε → σ)

/-- Every event meets the guard in the state it is taken in. -/
def Guarded (G : σ → ε → Prop) : σ → List ε → Prop
  | _, [] => True
  | s, e :: es => G s e ∧ Guarded G (step s e) es

/-- `P` holds in every state the run goes through. -/
def Throughout (P : σ → Prop) : σ → List ε → Prop
  | s, [] => P s
  | s, e :: es => P s ∧ Throughout P (step s e) es

/-- What the steps of a run give out, in order. -/
def collected {α : Type*} (out : σ → ε → List α) : σ → List ε → List α
  | _, [] => []
  | s, e :: es => out s e ++ collected out (step s e) es

/-- Whether a run meets a guard that can be tested can be tested. -/
instance decidableGuarded (G : σ → ε → Prop) [∀ s e, Decidable (G s e)] :
    ∀ (s : σ) (es : List ε), Decidable (Guarded step G s es)
  | _, [] => inferInstanceAs (Decidable True)
  | s, e :: es =>
      have := decidableGuarded G (step s e) es
      inferInstanceAs (Decidable (G s e ∧ Guarded step G (step s e) es))

/-- Whether a property that can be tested holds along a run can be tested. -/
instance decidableThroughout (P : σ → Prop) [DecidablePred P] :
    ∀ (s : σ) (es : List ε), Decidable (Throughout step P s es)
  | s, [] => inferInstanceAs (Decidable (P s))
  | s, e :: es =>
      have := decidableThroughout P (step s e) es
      inferInstanceAs (Decidable (P s ∧ Throughout step P (step s e) es))

variable {step} {G : σ → ε → Prop} {P I D : σ → Prop} {s : σ} {es : List ε}

/-- What every step keeps holds at the end of every run. -/
theorem invariant_run (hI : ∀ s e, I s → I (step s e)) (hI0 : I s) (es : List ε) :
    I (es.foldl step s) := by
  induction es generalizing s with
  | nil =>
      exact hI0
  | cons e es ih =>
      exact ih (hI s e hI0)

/-- A record to which every step adds what it gives out holds what the run has given out. -/
theorem record_run {α : Type*} {record : σ → List α} {out : σ → ε → List α}
    (hstep : ∀ s e, record (step s e) = record s ++ out s e) (s : σ) (es : List ε) :
    record (es.foldl step s) = record s ++ collected step out s es := by
  induction es generalizing s with
  | nil =>
      exact (List.append_nil _).symm
  | cons e es ih =>
      rw [List.foldl_cons, ih, hstep, collected, List.append_assoc]

/-- When each possible step is a step of another machine on what `abs` sees of the state, so is each
possible run. -/
theorem simulation {τ : Type*} {abs : σ → τ} {abstractStep : τ → ε → τ}
    (hstep : ∀ s e, G s e → abs (step s e) = abstractStep (abs s) e) (h : Guarded step G s es) :
    abs (es.foldl step s) = es.foldl abstractStep (abs s) := by
  induction es generalizing s with
  | nil =>
      rfl
  | cons e es ih =>
      rw [List.foldl_cons, List.foldl_cons, ← hstep s e h.1]
      exact ih h.2

theorem throughout_of_forall (h : ∀ s, P s) (s : σ) (es : List ε) : Throughout step P s es := by
  induction es generalizing s with
  | nil =>
      exact h s
  | cons e es ih =>
      exact ⟨h s, ih (step s e)⟩

theorem Throughout.first (h : Throughout step P s es) : P s := by
  cases es with
  | nil =>
      exact h
  | cons e es =>
      exact h.1

theorem Throughout.last (h : Throughout step P s es) : P (es.foldl step s) := by
  induction es generalizing s with
  | nil =>
      exact h
  | cons e es ih =>
      exact ih h.2

/-- **Exact rule.** If, under an invariant of all runs, a step keeps `P` precisely when its guard
holds, then the runs that keep `P` throughout are precisely the guarded ones. -/
theorem guarded_iff_throughout (hI : ∀ s e, I s → I (step s e))
    (hP : ∀ s e, I s → P s → (P (step s e) ↔ G s e)) (hI0 : I s) (hP0 : P s) :
    Guarded step G s es ↔ Throughout step P s es := by
  induction es generalizing s with
  | nil =>
      exact ⟨fun _ => hP0, fun _ => trivial⟩
  | cons e es ih =>
      constructor
      · rintro ⟨hg, hrest⟩
        have hnext : P (step s e) := (hP s e hI0 hP0).2 hg
        exact ⟨hP0, (ih (hI s e hI0) hnext).1 hrest⟩
      · rintro ⟨-, hrest⟩
        have hnext : P (step s e) := hrest.first
        exact ⟨(hP s e hI0 hP0).1 hnext, (ih (hI s e hI0) hnext).2 hrest⟩

/-- The exact rule for runs whose steps are all admitted by `A`. -/
theorem Guarded.guarded_iff_throughout {A : σ → ε → Prop}
    (hP : ∀ s e, A s e → P s → (P (step s e) ↔ G s e)) (hP0 : P s) (h : Guarded step A s es) :
    Guarded step G s es ↔ Throughout step P s es := by
  induction es generalizing s with
  | nil =>
      exact ⟨fun _ => hP0, fun _ => trivial⟩
  | cons e es ih =>
      obtain ⟨ha, hadmitted⟩ := h
      constructor
      · rintro ⟨hg, hrest⟩
        have hnext : P (step s e) := (hP s e ha hP0).2 hg
        exact ⟨hP0, (ih hnext hadmitted).1 hrest⟩
      · rintro ⟨-, hrest⟩
        have hnext : P (step s e) := hrest.first
        exact ⟨(hP s e ha hP0).1 hnext, (ih hnext hadmitted).2 hrest⟩

/-- The same under an invariant of the admitted steps. -/
theorem Guarded.guarded_iff_throughout_of_invariant {A : σ → ε → Prop}
    (hI : ∀ s e, I s → A s e → I (step s e))
    (hP : ∀ s e, I s → A s e → P s → (P (step s e) ↔ G s e)) (hI0 : I s) (hP0 : P s)
    (h : Guarded step A s es) : Guarded step G s es ↔ Throughout step P s es := by
  induction es generalizing s with
  | nil =>
      exact ⟨fun _ => hP0, fun _ => trivial⟩
  | cons e es ih =>
      obtain ⟨ha, hadmitted⟩ := h
      have hnext : I (step s e) := hI s e hI0 ha
      constructor
      · rintro ⟨hg, hrest⟩
        exact ⟨hP0, (ih hnext ((hP s e hI0 ha hP0).2 hg) hadmitted).1 hrest⟩
      · rintro ⟨-, hrest⟩
        have hkept : P (step s e) := hrest.first
        exact ⟨(hP s e hI0 ha hP0).1 hkept, (ih hnext hkept hadmitted).2 hrest⟩

/-- A property of the history, once lost, is lost for good. -/
theorem throughout_iff_final (hI : ∀ s e, I s → I (step s e))
    (hback : ∀ s e, I s → P (step s e) → P s) (hI0 : I s) :
    Throughout step P s es ↔ P (es.foldl step s) := by
  induction es generalizing s with
  | nil =>
      exact Iff.rfl
  | cons e es ih =>
      have hrest := ih (hI s e hI0)
      constructor
      · exact fun h => hrest.1 h.2
      · intro h
        have hlater := hrest.2 h
        exact ⟨hback s e hI0 hlater.first, hlater⟩

/-- A guard that does not look at the state. -/
theorem guarded_const_iff {G : ε → Prop} : Guarded step (fun _ e => G e) s es ↔ ∀ e ∈ es, G e := by
  induction es generalizing s with
  | nil =>
      simp [Guarded]
  | cons e es ih =>
      rw [Guarded, ih, List.forall_mem_cons]

theorem guarded_append {fs : List ε} :
    Guarded step G s (es ++ fs) ↔ Guarded step G s es ∧ Guarded step G (es.foldl step s) fs := by
  induction es generalizing s with
  | nil =>
      simp [Guarded]
  | cons e es ih =>
      rw [List.cons_append, Guarded, Guarded, ih, and_assoc]
      rfl

/-- The steps of a run that meet two guards one by one meet them both. -/
theorem Guarded.and {G' : σ → ε → Prop} (h : Guarded step G s es) (h' : Guarded step G' s es) :
    Guarded step (fun s e => G s e ∧ G' s e) s es := by
  induction es generalizing s with
  | nil =>
      trivial
  | cons e es ih =>
      exact ⟨⟨h.1, h'.1⟩, ih h.2 h'.2⟩

/-- A guard that every step keeping `P` meets. -/
theorem Throughout.guarded (hG : ∀ s e, P (step s e) → G s e) (h : Throughout step P s es) :
    Guarded step G s es := by
  induction es generalizing s with
  | nil =>
      trivial
  | cons e es ih =>
      exact ⟨hG s e h.2.first, ih h.2⟩

/-- An invariant of the guarded steps that implies `P` gives `P` throughout the guarded runs. -/
theorem Guarded.throughout (hI : ∀ s e, I s → G s e → I (step s e)) (hP : ∀ s, I s → P s) (hI0 : I s)
    (h : Guarded step G s es) : Throughout step P s es := by
  induction es generalizing s with
  | nil =>
      exact hP s hI0
  | cons e es ih =>
      exact ⟨hP s hI0, ih (hI s e hI0 h.1) h.2⟩

/-- Under an invariant of the guarded steps the guard may be weakened. -/
theorem Guarded.weaken {G' : σ → ε → Prop} (hI : ∀ s e, I s → G s e → I (step s e))
    (hG : ∀ s e, I s → G s e → G' s e) (hI0 : I s) (h : Guarded step G s es) : Guarded step G' s es := by
  induction es generalizing s with
  | nil =>
      trivial
  | cons e es ih =>
      exact ⟨hG s e hI0 h.1, ih (hI s e hI0 h.1) h.2⟩

/-- When an invariant of the guarded steps implies `P`, and a step out of it keeps `P` only if its guard
holds, then the runs that keep `P` throughout are precisely the guarded ones. -/
theorem guarded_iff_of_invariant (hI : ∀ s e, I s → G s e → I (step s e)) (hP : ∀ s, I s → P s)
    (hG : ∀ s e, I s → P (step s e) → G s e) (hI0 : I s) :
    Guarded step G s es ↔ Throughout step P s es := by
  refine ⟨Guarded.throughout hI hP hI0, ?_⟩
  induction es generalizing s with
  | nil =>
      exact fun _ => trivial
  | cons e es ih =>
      rintro ⟨-, hrest⟩
      have hguard : G s e := hG s e hI0 hrest.first
      exact ⟨hguard, ih (hI s e hI0 hguard) hrest⟩

/-- A doomed state stays doomed as long as `P` is kept. -/
theorem doomed_run (hI : ∀ s e, I s → I (step s e))
    (hstay : ∀ s e, I s → D s → P (step s e) → D (step s e)) (hI0 : I s) (hD0 : D s)
    (h : Throughout step P s es) : D (es.foldl step s) := by
  induction es generalizing s with
  | nil =>
      exact hD0
  | cons e es ih =>
      exact ih (hI s e hI0) (hstay s e hI0 hD0 h.2.first) h.2

/-- A violated guard dooms the state, so a run that keeps `P` and ends in a state that is not doomed has
met its guards. -/
theorem guarded_of_not_doomed (hI : ∀ s e, I s → I (step s e))
    (hviolate : ∀ s e, I s → ¬ G s e → D (step s e))
    (hstay : ∀ s e, I s → D s → P (step s e) → D (step s e)) (hI0 : I s)
    (h : Throughout step P s es) (hend : ¬ D (es.foldl step s)) : Guarded step G s es := by
  induction es generalizing s with
  | nil =>
      trivial
  | cons e es ih =>
      have hnext : I (step s e) := hI s e hI0
      refine ⟨?_, ih hnext h.2 hend⟩
      by_contra hguard
      have hdoomed : D (es.foldl step (step s e)) :=
        doomed_run hI hstay hnext (hviolate s e hI0 hguard) h.2
      exact hend hdoomed

end Runs
end Myoj
