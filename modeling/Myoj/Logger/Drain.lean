import Myoj.Logger.AsyncLogging

/-!
# Drain — what `stop()` leaves behind

`stop()` clears `running_`, notifies and joins.  The backend looks at `running_` only at the top of its
loop and has no last round: what it is sure to write when it is told to stop is `deliverable`, the buffers
it has taken over and, if it has passed the test but not yet swapped, the pending ones too.

So `stop()` drains the log exactly when it comes between the test and the swap, or when nothing is pending.
-/

namespace Myoj
namespace Logger
namespace AsyncLogging

section drained

variable (log : AsyncLogging)

/-- When the backend has left, what was appended before `stop()` has been written. -/
def Drained : Prop :=
  match log.stopped with
  | none => True
  | some owed => log.pc = .left → owed <+: log.output

instance : Decidable log.Drained := by
  unfold Drained
  cases log.stopped with
  | none =>
      exact .isTrue trivial
  | some owed =>
      exact inferInstanceAs (Decidable (_ → _))

/-- `stop()` finds the backend between the test of `running_` and the swap, or nothing pending. -/
def InTime (e : Event) : Prop :=
  match e with
  | .stop => log.running_ = true → log.pc = .locking ∨ log.pc = .waiting ∨ log.pending = []
  | _ => True

/-- What was appended before `stop()` includes bytes the backend will not write any more. -/
def Doomed : Prop := ∃ owed, log.stopped = some owed ∧ ¬ owed <+: log.deliverable

/-- The invariant of all runs, with what `stop()` leaves. -/
structure StopInv : Prop where
  inv : log.Inv
  not_started : log.pc = .notStarted → log.running_ = false ∧ log.stopped = none
  stopped : ∀ owed, log.stopped = some owed → log.running_ = false ∧ owed <+: log.appended

/-- What holds as long as `stop()` was in time. -/
structure Delivering : Prop where
  inv : log.StopInv
  owed : ∀ owed, log.stopped = some owed → owed <+: log.deliverable

end drained

variable {log : AsyncLogging}

theorem stopInv_start : start.StopInv where
  inv := inv_start
  not_started := fun _ => ⟨rfl, rfl⟩
  stopped := fun _ h => by cases h

/-- Before the swap everything will be written. -/
theorem deliverable_eq_appended (h : log.Inv) (hpc : log.pc = .locking ∨ log.pc = .waiting) :
    log.deliverable = log.appended := by
  rw [← h.conserved]
  rcases hpc with hpc | hpc <;> simp [deliverable, hpc]

/-- Elsewhere only what was taken over will be. -/
theorem deliverable_eq_taken (hpc : ¬ (log.pc = .locking ∨ log.pc = .waiting)) :
    log.deliverable = log.output ++ log.unwritten := by
  unfold deliverable
  split
  · next hlocking => exact absurd (Or.inl hlocking) hpc
  · next hwaiting => exact absurd (Or.inr hwaiting) hpc
  · rw [List.append_nil]

/-- Behind the swap the pending bytes are not among what will be written. -/
theorem deliverable_append_pending (h : log.Inv) (hpc : ¬ (log.pc = .locking ∨ log.pc = .waiting)) :
    log.deliverable ++ log.pending = log.appended := by
  rw [deliverable_eq_taken hpc, h.conserved]

/-- A line appended before the swap is written too, one appended behind it changes nothing. -/
theorem append_deliverable (h : log.Inv) {line : Line} {log' : AsyncLogging}
    (happend : log.append line.text = some log') :
    log'.deliverable = log.deliverable ∨
      log.deliverable = log.appended ∧ log'.deliverable = log'.appended := by
  rcases append_spec h line with ⟨next, hnext, hinv, -, -, hunwritten, houtput, hpc, -⟩
  obtain rfl : next = log' := Option.some.inj (hnext.symm.trans happend)
  by_cases hbefore : log.pc = .locking ∨ log.pc = .waiting
  · have hbefore' : next.pc = .locking ∨ next.pc = .waiting := by rwa [hpc]
    exact Or.inr ⟨deliverable_eq_appended h hbefore, deliverable_eq_appended hinv hbefore'⟩
  · have hbehind : ¬ (next.pc = .locking ∨ next.pc = .waiting) := by rwa [hpc]
    left
    rw [deliverable_eq_taken hbefore, deliverable_eq_taken hbehind, houtput, hunwritten]

/-- After `stop()` the promise only grows where the backend has not swapped yet. -/
theorem step_deliverable (h : log.StopInv) {owed : Bytes} (hstopped : log.stopped = some owed)
    (e : Event) :
    (step log e).stopped = some owed ∧ (step log e).running_ = false ∧
      ((step log e).deliverable = log.deliverable ∨
        log.deliverable = log.appended ∧ (step log e).deliverable = (step log e).appended) := by
  have hrunning : log.running_ = false := (h.stopped owed hstopped).1
  have hstarted : log.pc ≠ .notStarted := by
    intro hpc
    rw [(h.not_started hpc).2] at hstopped
    cases hstopped
  cases e with
  | append line =>
      rcases append_spec h.inv line with ⟨log', happend, -, -, -, -, -, -, hrunning', hstopped'⟩
      simp only [step, perform, happend, Option.getD_some]
      exact ⟨hstopped'.trans hstopped, hrunning'.trans hrunning, append_deliverable h.inv happend⟩
  | start =>
      have hstep : step log .start = log := by simp only [step, perform, if_neg hstarted, Option.getD_some]
      rw [hstep]
      exact ⟨hstopped, hrunning, Or.inl rfl⟩
  | threadFunc =>
      rcases threadFunc_spec h.inv with
        ⟨log', hthread, -, -, hrunning', hstopped', -, hdeliverable⟩
      simp only [step, perform, hthread, Option.getD_some]
      exact ⟨hstopped'.trans hstopped, hrunning'.trans hrunning, Or.inl (hdeliverable hrunning)⟩
  | stop =>
      have hstep : step log .stop = log := by simp [step, perform, hrunning]
      rw [hstep]
      exact ⟨hstopped, hrunning, Or.inl rfl⟩

/-- What neither starts nor stops the log keeps what is known of a stopped one. -/
theorem StopInv.frame (h : log.StopInv) {log' : AsyncLogging} (hinv : log'.Inv)
    (hlonger : log.appended <+: log'.appended) (hpc : log'.pc = .notStarted → log.pc = .notStarted)
    (hrunning : log'.running_ = log.running_) (hstopped : log'.stopped = log.stopped) :
    log'.StopInv where
  inv := hinv
  not_started := by
    intro hnew
    rw [hrunning, hstopped]
    exact h.not_started (hpc hnew)
  stopped := by
    intro owed howed
    rw [hstopped] at howed
    rcases h.stopped owed howed with ⟨hfalse, hinitial⟩
    exact ⟨hrunning.trans hfalse, hinitial.trans hlonger⟩

theorem stopInv_step (h : log.StopInv) (e : Event) : (step log e).StopInv := by
  rcases inv_step h.inv e with ⟨hinv, happended⟩
  have hlonger : log.appended <+: (step log e).appended := ⟨e.text, happended.symm⟩
  cases e with
  | append line =>
      rcases append_spec h.inv line with ⟨log', happend, -, -, -, -, -, hpc, hrunning, hstopped⟩
      have hstep : step log (.append line) = log' := by simp [step, perform, happend]
      rw [hstep] at hinv hlonger ⊢
      exact h.frame hinv hlonger (fun hnew => hpc.symm.trans hnew) hrunning hstopped
  | threadFunc =>
      rcases threadFunc_spec h.inv with ⟨log', hthread, -, -, hrunning, hstopped, hpc, -⟩
      have hstep : step log .threadFunc = log' := by simp [step, perform, hthread]
      rw [hstep] at hinv hlonger ⊢
      exact h.frame hinv hlonger hpc.1 hrunning hstopped
  | start =>
      by_cases hpc : log.pc = .notStarted
      · have hstep : step log .start = { log with running_ := true, pc := .entering } := by
          simp [step, perform, hpc]
        rw [hstep] at hinv ⊢
        have hnone : log.stopped = none := (h.not_started hpc).2
        refine ⟨hinv, fun hnew => (by cases hnew), fun owed howed => ?_⟩
        rw [show _ = log.stopped from rfl, hnone] at howed
        cases howed
      · have hstep : step log .start = log := by simp [step, perform, hpc]
        rw [hstep]
        exact h
  | stop =>
      cases hrunning : log.running_ with
      | false =>
          have hstep : step log .stop = log := by simp [step, perform, hrunning]
          rw [hstep]
          exact h
      | true =>
          have hstep : step log .stop =
              { log with running_ := false, stopped := some log.appended } := by
            simp [step, perform, hrunning]
          rw [hstep] at hinv ⊢
          refine ⟨hinv, fun hnew => ?_, fun owed howed => ?_⟩
          · have hfalse : log.running_ = false := (h.not_started hnew).1
            rw [hrunning] at hfalse
            cases hfalse
          · obtain rfl : log.appended = owed := Option.some.inj howed
            exact ⟨rfl, List.prefix_rfl⟩

theorem delivering_start : start.Delivering where
  inv := stopInv_start
  owed := fun _ h => by cases h

/-- `stop()` makes what was appended the debt. -/
theorem step_stop (hrunning : log.running_ = true) :
    step log .stop = { log with running_ := false, stopped := some log.appended } := by
  simp [step, perform, hrunning]

theorem deliverable_eq_appended_of_inTime (h : log.Inv) (hguard : log.InTime .stop)
    (hrunning : log.running_ = true) : log.deliverable = log.appended := by
  rcases or_assoc.2 (hguard hrunning) with hpc | hpending
  · exact deliverable_eq_appended h hpc
  · by_cases hpc : log.pc = .locking ∨ log.pc = .waiting
    · exact deliverable_eq_appended h hpc
    · rw [← deliverable_append_pending h hpc, hpending, List.append_nil]

/-- In time, `stop()` asks for no more than what will be written. -/
theorem delivering_step (h : log.Delivering) (e : Event) (hguard : log.InTime e) :
    (step log e).Delivering := by
  refine ⟨stopInv_step h.inv e, fun owed howed => ?_⟩
  cases hstopped : log.stopped with
  | some debt =>
      rcases step_deliverable h.inv hstopped e with ⟨hstopped', -, hgrown⟩
      obtain rfl : debt = owed := Option.some.inj (hstopped'.symm.trans howed)
      rcases hgrown with hsame | ⟨-, hall⟩
      · rw [hsame]
        exact h.owed debt hstopped
      · rw [hall]
        exact ((stopInv_step h.inv e).stopped debt hstopped').2
  | none =>
      cases e with
      | append line =>
          rcases append_spec h.inv.inv line with ⟨log', happend, -, -, -, -, -, -, -, hstopped'⟩
          rw [step, perform, happend, Option.getD_some, hstopped', hstopped] at howed
          cases howed
      | start =>
          have hnone : (step log .start).stopped = log.stopped := by
            simp only [step, perform, Option.getD_some]
            split <;> rfl
          rw [hnone, hstopped] at howed
          cases howed
      | threadFunc =>
          rcases threadFunc_spec h.inv.inv with ⟨log', hthread, -, -, -, hstopped', -⟩
          rw [step, perform, hthread, Option.getD_some, hstopped', hstopped] at howed
          cases howed
      | stop =>
          cases hrunning : log.running_ with
          | false =>
              simp [step, perform, hrunning, hstopped] at howed
          | true =>
              rw [step_stop hrunning] at howed ⊢
              obtain rfl : log.appended = owed := Option.some.inj howed
              have hall : log.deliverable = log.appended :=
                deliverable_eq_appended_of_inTime h.inv.inv hguard hrunning
              exact ⟨[], (List.append_nil _).trans hall.symm⟩

/-- Too late, it asks for bytes the backend has turned away from. -/
theorem doomed_of_late (h : log.StopInv) (e : Event) (hguard : ¬ log.InTime e) :
    (step log e).Doomed := by
  cases e with
  | stop =>
      simp only [InTime, Classical.not_imp, not_or] at hguard
      rcases hguard with ⟨hrunning, hlocking, hwaiting, hpending⟩
      have hall := deliverable_append_pending h.inv (not_or.2 ⟨hlocking, hwaiting⟩)
      rw [step_stop hrunning]
      refine ⟨log.appended, rfl, fun hinitial => hpending ?_⟩
      have hle : log.appended.length ≤ log.deliverable.length := hinitial.length_le
      have hsum := congrArg List.length hall
      rw [List.length_append] at hsum
      exact List.length_eq_zero_iff.1 (by omega)
  | _ => exact absurd trivial hguard

/-- No later step makes up for it. -/
theorem doomed_step (h : log.StopInv) (e : Event) (hdoomed : log.Doomed) : (step log e).Doomed := by
  rcases hdoomed with ⟨owed, hstopped, hmissing⟩
  rcases step_deliverable h hstopped e with ⟨hstopped', -, hgrown⟩
  refine ⟨owed, hstopped', ?_⟩
  rcases hgrown with hsame | ⟨hall, -⟩
  · rwa [hsame]
  · rw [hall] at hmissing
    exact absurd (h.stopped owed hstopped).2 hmissing

/-- Behind the loop only the output counts. -/
theorem deliverable_left (hpc : log.pc = .left) : log.deliverable = log.output := by
  simp [deliverable, unwritten, hpc]

theorem Delivering.drained (h : log.Delivering) : log.Drained := by
  unfold Drained
  cases hstopped : log.stopped with
  | none =>
      trivial
  | some owed =>
      intro hpc
      rw [← deliverable_left hpc]
      exact h.owed owed hstopped

theorem Drained.not_doomed (h : log.Drained) (hpc : log.pc = .left) : ¬ log.Doomed := by
  rintro ⟨owed, hstopped, hmissing⟩
  rw [Drained, hstopped] at h
  rw [deliverable_left hpc] at hmissing
  exact hmissing (h hpc)

/-- **When stopping the logger drains it.**  If every `stop()` finds the backend between the test of
`running_` and the swap, or nothing pending, all that was appended before it has been written by the time
the backend has left; and a log that has left with everything written was stopped so. -/
theorem drained_iff_inTime (es : List Event) :
    (Runs.Guarded step InTime start es → Runs.Throughout step Drained start es) ∧
      ((es.foldl step start).pc = .left → (es.foldl step start).Drained →
        Runs.Guarded step InTime start es) := by
  constructor
  · intro hguarded
    have hkept : ∀ s e, Delivering s → InTime s e → Delivering (step s e) := fun s e h => delivering_step h e
    exact hguarded.throughout hkept (fun s h => h.drained) delivering_start
  · intro hpc hdrained
    have hkept : ∀ s e, StopInv s → StopInv (step s e) := fun s e h => stopInv_step h e
    have hlate : ∀ s e, StopInv s → ¬ InTime s e → Doomed (step s e) := fun s e h => doomed_of_late h e
    have hstay : ∀ s e, StopInv s → Doomed s → True → Doomed (step s e) :=
      fun s e h hd _ => doomed_step h e hd
    exact Runs.guarded_of_not_doomed hkept hlate hstay stopInv_start
      (Runs.throughout_of_forall (fun _ => trivial) start es) (hdrained.not_doomed hpc)

/-- A line is appended while the backend has not tested `running_` yet, and `stop()` comes at once: the
backend leaves without a look at the buffer, and the line is not written. -/
theorem stop_loses_line :
    ¬ Runs.Throughout step Drained start
      [.start, .threadFunc, .append ⟨[97, 10], by decide⟩, .stop, .threadFunc] := by
  decide

end AsyncLogging
end Logger
end Myoj
