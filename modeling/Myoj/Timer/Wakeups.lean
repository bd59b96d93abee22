import Myoj.Timer.Lifetime

/-!
# Wakeups — is the timerfd armed as long as a timer is there?

The timerfd is set in two places: by `addTimerInLoop` when the first timer changes, and by `reset` after each
timer that ran.  A wake-up that finds nothing due runs no round of `reset`, and the timerfd, which has
fired, stays disarmed.

The clock of the timerfd is not the clock that `handleRead` reads, so such a wake-up can happen.
-/

namespace Myoj
namespace Timers
namespace TimerQueue

open Effect (Ends)

/-- A wake-up that the timerfd has fired for finds the first timer due. -/
def OnTime (q : TimerQueue) : Event → Prop
  | .addTimer _ => True
  | .handleRead w => w.fired = true → ∀ first, q.timers_.begin? = some first → first.first ≤ w.now

section onTime

variable {q : TimerQueue} {w : Wakeup}

/-- Something is due exactly when the first timer is. -/
theorem due_ne_nil_iff (h : q.Inv []) :
    q.due w.now ≠ [] ↔ ∃ first, q.timers_.begin? = some first ∧ first.first ≤ w.now := by
  constructor
  · intro hdue
    rcases List.exists_mem_of_ne_nil _ hdue with ⟨⟨a, t⟩, hp⟩
    rcases (mem_due_iff h w.now a t).1 hp with ⟨hlive, hnow⟩
    have hin : t.entry a ∈ q.timers_ := by
      simpa using (h.keyed (t.entry a)).2 ⟨t, hlive, rfl⟩
    cases hbegin : q.timers_.begin? with
    | none =>
        exact absurd hin (OrderedSet.begin?_eq_none.1 hbegin _)
    | some first =>
        -- the first timer is not later than the one that is due
        have hfirst : first.first ≤ t.expiration_ := Entry.first_mono (OrderedSet.begin?_le hbegin hin)
        exact ⟨first, rfl, hfirst.trans hnow⟩
  · rintro ⟨first, hbegin, hnow⟩ hnil
    rcases (h.keyed first).1 (Or.inl (OrderedSet.begin?_mem hbegin)) with ⟨t, hlive, hkey⟩
    rw [hkey, Timer.first_entry] at hnow
    have hp : (first.second, t) ∈ q.due w.now := (mem_due_iff h w.now _ t).2 ⟨hlive, hnow⟩
    rw [hnil] at hp
    cases hp

theorem armed_addTimer (h : q.Inv []) (harmed : q.Armed) (n : NewTimer) : (step q (.addTimer n)).Armed := by
  have hends := (addTimer_ends h n).mono (fun q' hq' => hq'.2.2 harmed) fun _ h => h
  exact step_of_ends (e := .addTimer n) hends harmed

/-- After a wake-up that finds a timer due the timerfd is armed. -/
theorem armed_handleRead_of_due (h : q.Inv []) (harmed : q.Armed) (hdue : q.due w.now ≠ []) :
    (step q (.handleRead w)).Armed := by
  have hends := (handleRead_ends h w).mono (fun q' hq' => hq'.2.2 hdue) fun _ h => h
  exact step_of_ends (e := .handleRead w) hends harmed

/-- After one that finds none, it is as the wake-up found it. -/
theorem armed_handleRead_of_none_due (h : q.Inv []) (harmed : q.Armed) (hnone : q.due w.now = []) :
    (step q (.handleRead w)).Armed ↔ (w.fired = true → q.timers_.begin? = none) := by
  -- no round of `reset`: only the read shows
  have hstep : step q (.handleRead w) = q.readTimerFd w.fired := by
    rw [step, perform, handleRead_of_none_due h hnone]
  rw [hstep]
  cases hfired : w.fired with
  | false =>
      have hsame : q.readTimerFd false = q := rfl
      simp [hsame, harmed]
  | true =>
      unfold Armed readTimerFd
      cases q.timers_.begin? <;> simp

/-- An event leaves the timerfd armed exactly when it is on time. -/
theorem armed_step_iff (h : q.Inv []) (harmed : q.Armed) (e : Event) : (step q e).Armed ↔ q.OnTime e := by
  cases e with
  | addTimer n =>
      exact iff_of_true (armed_addTimer h harmed n) trivial
  | handleRead w =>
      by_cases hdue : q.due w.now = []
      · have hnone : ¬ ∃ first, q.timers_.begin? = some first ∧ first.first ≤ w.now :=
          mt (due_ne_nil_iff h).2 (not_not.2 hdue)
        rw [armed_handleRead_of_none_due h harmed hdue]
        unfold OnTime
        refine imp_congr_right fun _ => ?_
        cases hbegin : q.timers_.begin? with
        | none =>
            simp
        | some first =>
            have hlater : ¬ first.first ≤ w.now := fun hnow => hnone ⟨first, hbegin, hnow⟩
            simp [hlater]
      · refine iff_of_true (armed_handleRead_of_due h harmed hdue) fun _ first hbegin => ?_
        rcases (due_ne_nil_iff h).1 hdue with ⟨first', hbegin', hnow⟩
        rw [hbegin, Option.some.injEq] at hbegin'
        rw [hbegin']
        exact hnow

end onTime

/-- **When a pending timer has the timerfd armed.**  A run keeps the timerfd armed whenever a timer is there
exactly when every wake-up from the timerfd finds the first timer due at the clock it reads, or no timer. -/
theorem onTime_iff_armed (es : List Event) :
    Runs.Guarded step OnTime start es ↔ Runs.Throughout step Armed start es := by
  have hkept : ∀ s e, Inv s [] ∧ History s → Inv (step s e) [] ∧ History (step s e) :=
    fun s e h => inv_step h e
  have hexact : ∀ s e, Inv s [] ∧ History s → Armed s → (Armed (step s e) ↔ OnTime s e) :=
    fun s e h harmed => armed_step_iff h.1 harmed e
  exact Runs.guarded_iff_throughout hkept hexact ⟨inv_start, history_start⟩ (by decide)

/-- A timer for 1000 is added at 0; the timerfd fires after its 1000 microseconds, but the clock, which was
set back, reads 999.  The timer is not due, and nothing will wake the loop for it. -/
theorem early_wakeup_disarms :
    ¬ Runs.Throughout step Armed start
      [.addTimer ⟨4096, 1000, 0, 0⟩, .handleRead ⟨true, 999, fun _ => [], fun _ => 999, fun _ => 999⟩] := by
  decide

end TimerQueue
end Timers
end Myoj
