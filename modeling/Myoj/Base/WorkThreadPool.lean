import Mathlib.Data.List.Infix
import Mathlib.Logic.Function.Basic
import Myoj.Lib.Runs

/-!
# WorkThreadPool — threads with a queue of tasks each

`submitTask` pushes a task under the mutex and notifies; the thread of a `WorkThread` takes the tasks one
by one and runs them outside the mutex.  `stopThread` sets `stop`, notifies and joins; the thread leaves
when it finds `stop` set and the queue empty.

* `Pc` — where the thread is in the lambda of `start`;
* `Caller` — where another thread is in `submitTask` or `stopThread`;
* `Event`, `step` — the interleavings, one critical section or one notification at a time;
* `submittedIn`, `submittedBeforeStop` — the tasks the calls of a run submit, read off its events;
* `Drains` — tasks run in the order of submission, and a join waits for those submitted before the stop;
* `leaves_of_stop` — the thread does leave, once it has been told to.

Tasks are values of an arbitrary type.  `submitted` and `executed` record what happened, `beforeStop` what
had been submitted when `stop` was set.
-/

namespace Myoj
namespace Base

namespace WorkThread

/-- Where the thread is. -/
inductive Pc (T : Type) where
  /-- There is none to join: it was not started, or has been joined. -/
  | idle
  /-- About to take the mutex, and to test the predicate of `wait`. -/
  | locking
  /-- In `wait`, with the mutex released. -/
  | waiting
  /-- It has taken a task and runs it. -/
  | running (task : T)
  /-- The lambda has returned. -/
  | left

/-- Where a thread is that calls `submitTask` or `stopThread`. -/
inductive Caller where
  | outside
  /-- It has pushed a task and is to notify. -/
  | submitted
  /-- It has set `stop` and is to notify. -/
  | stopping
  /-- It is to test `joinable()`. -/
  | testing
  | joining
  /-- `join()` has returned. -/
  | joined
  deriving DecidableEq, Repr

/-- It may make its next call. -/
def Caller.free : Caller → Bool
  | .outside | .joined => true
  | _ => false

end WorkThread

open WorkThread in
structure WorkThread (T : Type) where
  pc : Pc T
  tasks : List T
  stop : Bool
  /-- A notification has reached the thread in `wait`. -/
  notified : Bool
  callers : Nat → Caller
  /-- `std::terminate` was called. -/
  terminated : Bool
  submitted : List T
  executed : List T
  beforeStop : Option (List T)

namespace WorkThread

variable {T : Type}

def new : WorkThread T where
  pc := .idle
  tasks := []
  stop := false
  notified := false
  callers := fun _ => .outside
  terminated := false
  submitted := []
  executed := []
  beforeStop := none

section operations

variable (w : WorkThread T)

/-- Where caller `c` is now. -/
def moved (c : Nat) (caller : Caller) : WorkThread T :=
  { w with callers := Function.update w.callers c caller }

/-- Assigning to a `std::thread` that is joinable terminates the program. -/
def start : WorkThread T :=
  match w.pc with
  | .idle => { w with pc := .locking }
  | _ => { w with terminated := true }

/-- The critical section of `submitTask`. -/
def submitTask (c : Nat) (task : T) : WorkThread T :=
  if (w.callers c).free then
    { w.moved c .submitted with
      tasks := w.tasks ++ [task]
      submitted := w.submitted ++ [task] }
  else w

/-- The critical section of `stopThread`. -/
def stopThread (c : Nat) : WorkThread T :=
  if (w.callers c).free then
    { w.moved c .stopping with
      stop := true
      beforeStop := some (w.beforeStop.getD w.submitted) }
  else w

/-- A notification without a waiter is lost. -/
def notify_one : WorkThread T :=
  match w.pc with
  | .waiting => { w with notified := true }
  | _ => w

/-- The next step of a call. -/
def proceed (c : Nat) : WorkThread T :=
  match w.callers c with
  | .submitted => w.notify_one.moved c .outside
  | .stopping => w.notify_one.moved c .testing
  | .testing =>
      match w.pc with
      | .idle => w.moved c .outside
      | _ => w.moved c .joining
  | .joining =>
      match w.pc with
      | .left => { w.moved c .joined with pc := .idle }
      -- another caller has joined it
      | .idle => w.moved c .joined
      | _ => w
  | .outside | .joined => w

/-- The next step of the thread. -/
def run : WorkThread T :=
  match w.pc with
  | .locking =>
      if w.stop || !w.tasks.isEmpty then
        match w.tasks with
        | [] => { w with pc := .left }
        | task :: rest => { w with tasks := rest, pc := .running task }
      else { w with pc := .waiting, notified := false }
  | .waiting => if w.notified then { w with pc := .locking } else w
  | .running task => { w with executed := w.executed ++ [task], pc := .locking }
  | .idle | .left => w

/-- `wait` wakes up without a notification. -/
def spurious : WorkThread T :=
  match w.pc with
  | .waiting => { w with pc := .locking }
  | _ => w

end operations

inductive Event (T : Type) where
  | start
  | submitTask (c : Nat) (task : T)
  | stopThread (c : Nat)
  | proceed (c : Nat)
  | run
  | spurious

def step (w : WorkThread T) (e : Event T) : WorkThread T :=
  if w.terminated then w
  else
    match e with
    | .start => w.start
    | .submitTask c task => w.submitTask c task
    | .stopThread c => w.stopThread c
    | .proceed c => w.proceed c
    | .run => w.run
    | .spurious => w.spurious

/-- The task an event submits. -/
def submits (w : WorkThread T) : Event T → List T
  | .submitTask c task => if !w.terminated && (w.callers c).free then [task] else []
  | _ => []

/-- The event sets `stop`. -/
def stops (w : WorkThread T) : Event T → Bool
  | .stopThread c => !w.terminated && (w.callers c).free
  | _ => false

/-- The tasks that the calls of a run submit, in the order of the calls. -/
def submittedIn (w : WorkThread T) (es : List (Event T)) : List T :=
  Runs.collected step submits w es

/-- Those submitted before `stop` is set for the first time, if the run sets it. -/
def submittedBeforeStop : WorkThread T → List (Event T) → Option (List T)
  | _, [] => none
  | w, e :: es =>
      if w.stops e then some []
      else (submittedBeforeStop (w.step e) es).map (w.submits e ++ ·)

/-! ## The records hold what the events say -/

section records

variable {w : WorkThread T} {c : Nat}

theorem submitted_notify_one : w.notify_one.submitted = w.submitted := by
  unfold notify_one
  split <;> rfl

theorem beforeStop_notify_one : w.notify_one.beforeStop = w.beforeStop := by
  unfold notify_one
  split <;> rfl

theorem submitted_proceed : (w.proceed c).submitted = w.submitted := by
  unfold proceed
  repeat' split
  all_goals first | rfl | exact submitted_notify_one

theorem beforeStop_proceed : (w.proceed c).beforeStop = w.beforeStop := by
  unfold proceed
  repeat' split
  all_goals first | rfl | exact beforeStop_notify_one

theorem submitted_step (w : WorkThread T) (e : Event T) :
    (w.step e).submitted = w.submitted ++ w.submits e := by
  unfold step
  split
  · next hterminated =>
    cases e <;> simp [submits, hterminated]
  · next hterminated =>
    cases e with
    | start =>
        simp only [start, submits, List.append_nil]
        split <;> rfl
    | submitTask c task =>
        simp only [submitTask, submits, hterminated]
        split <;> simp_all
    | stopThread c =>
        simp only [stopThread, submits, List.append_nil]
        split <;> rfl
    | proceed c =>
        exact submitted_proceed.trans (List.append_nil _).symm
    | run =>
        simp only [run, submits, List.append_nil]
        repeat' split
        all_goals rfl
    | spurious =>
        simp only [spurious, submits, List.append_nil]
        split <;> rfl

/-- `stop` is set once; later calls do not change what had been submitted then. -/
theorem beforeStop_step (w : WorkThread T) (e : Event T) :
    (w.step e).beforeStop = if w.stops e then some (w.beforeStop.getD w.submitted) else w.beforeStop := by
  unfold step
  split
  · next hterminated =>
    cases e <;> simp [stops, hterminated]
  · next hterminated =>
    cases e with
    | start =>
        simp only [start, stops, Bool.false_eq_true, if_false]
        split <;> rfl
    | submitTask c task =>
        simp only [submitTask, stops, Bool.false_eq_true, if_false]
        split <;> rfl
    | stopThread c =>
        simp only [stopThread, stops, hterminated]
        split <;> simp_all
    | proceed c =>
        exact beforeStop_proceed
    | run =>
        simp only [run, stops, Bool.false_eq_true, if_false]
        repeat' split
        all_goals rfl
    | spurious =>
        simp only [spurious, stops, Bool.false_eq_true, if_false]
        split <;> rfl

theorem submitted_run (es : List (Event T)) : (es.foldl step new).submitted = submittedIn new es :=
  (Runs.record_run submitted_step new es).trans (List.nil_append _)

/-- Once there, what had been submitted before the stop stays. -/
theorem beforeStop_some_run {before : List T} (h : w.beforeStop = some before) (es : List (Event T)) :
    (es.foldl step w).beforeStop = some before := by
  refine Runs.invariant_run (I := fun w : WorkThread T => w.beforeStop = some before) ?_ h es
  intro w e hw
  rw [beforeStop_step]
  split
  · simp [hw]
  · exact hw

theorem beforeStop_none_run (h : w.beforeStop = none) (es : List (Event T)) :
    (es.foldl step w).beforeStop = (w.submittedBeforeStop es).map (w.submitted ++ ·) := by
  induction es generalizing w with
  | nil =>
      exact h
  | cons e es ih =>
      rw [List.foldl_cons, submittedBeforeStop]
      have hstep := beforeStop_step w e
      split
      · next hstops =>
        -- the first stop: what is submitted later does not count
        rw [if_pos hstops, h, Option.getD_none] at hstep
        rw [beforeStop_some_run hstep]
        simp
      · next hstops =>
        rw [if_neg hstops, h] at hstep
        rw [ih hstep, submitted_step]
        simp [Function.comp_def]

theorem beforeStop_run (es : List (Event T)) :
    (es.foldl step new).beforeStop = new.submittedBeforeStop es := by
  rw [beforeStop_none_run rfl]
  simp [new]

end records

/-! ## The invariant -/

/-- The task the thread has taken. -/
def current (w : WorkThread T) : List T :=
  match w.pc with
  | .running task => [task]
  | _ => []

/-- What was submitted before `stop` was set has been executed. -/
def Drained (w : WorkThread T) : Prop := ∃ before, w.beforeStop = some before ∧ before <+: w.executed

/-- The thread has left: it shows, or to somebody who joined it or is about to. -/
def Over (w : WorkThread T) : Prop :=
  w.pc = .left ∨ ∃ c, w.callers c = .joined ∨ (w.callers c = .joining ∧ w.pc = .idle)

/-- The thread waits although there is something for it. -/
def Overdue (w : WorkThread T) : Prop :=
  w.pc = .waiting ∧ w.notified = false ∧ (w.stop = true ∨ w.tasks ≠ [])

structure Inv (w : WorkThread T) : Prop where
  /-- Every task that was submitted is in one place, and the places are in order. -/
  conserved : w.executed ++ w.current ++ w.tasks = w.submitted
  stopped : w.stop = w.beforeStop.isSome
  before : ∀ before, w.beforeStop = some before → before <+: w.submitted
  ended : w.Over → w.Drained
  /-- Then somebody is about to notify it. -/
  awake : w.Overdue → ∃ c, w.callers c = .submitted ∨ w.callers c = .stopping

/-- Of the tasks `given`, those of `before` before the stop: they are executed in the order in which they
were submitted, each once, and whoever has joined the thread finds those of `before` executed. -/
structure Drains (given : List T) (before : Option (List T)) (w : WorkThread T) : Prop where
  /-- Each of them has been executed, is being executed or waits in the queue. -/
  exactly_once : w.executed ++ w.current ++ w.tasks = given
  in_order : w.executed ++ w.current <+: given
  drained : ∀ c, w.callers c = .joined → ∃ tasks, before = some tasks ∧ tasks <+: w.executed

theorem Inv.drains {w : WorkThread T} (h : w.Inv) : Drains w.submitted w.beforeStop w where
  exactly_once := h.conserved
  in_order := ⟨w.tasks, h.conserved⟩
  drained := fun c hc => h.ended (.inr ⟨c, .inl hc⟩)

theorem inv_new : (new : WorkThread T).Inv where
  conserved := rfl
  stopped := rfl
  before := by simp [new]
  ended := by simp [new, Over]
  awake := by simp [new, Overdue]

/-! ## One step -/

section steps

variable {w w' : WorkThread T} {c : Nat}

/-- Nothing is taken back. -/
theorem Drained.append {tasks : List T} (h : w.Drained) (hbefore : w'.beforeStop = w.beforeStop)
    (hexecuted : w'.executed = w.executed ++ tasks) : w'.Drained := by
  obtain ⟨before, hsome, hprefix⟩ := h
  refine ⟨before, hbefore.trans hsome, ?_⟩
  rw [hexecuted]
  exact hprefix.trans (List.prefix_append _ _)

/-- A caller that goes elsewhere joins nothing. -/
theorem Over.of_update {caller : Caller} (h : w'.Over) (hpc : w'.pc = w.pc)
    (hcallers : w'.callers = Function.update w.callers c caller) (hjoined : caller ≠ .joined)
    (hjoining : caller ≠ .joining) : w.Over := by
  rcases h with hleft | ⟨d, hd⟩
  · exact .inl (hpc ▸ hleft)
  · rw [hcallers, hpc] at hd
    by_cases hdc : d = c
    · subst hdc
      rw [Function.update_self] at hd
      exact absurd hd (by simp [hjoined, hjoining])
    · rw [Function.update_of_ne hdc] at hd
      exact .inr ⟨d, hd⟩

/-- Who is about to notify is another than the caller that goes on. -/
theorem awake_update {caller : Caller} (hw : ∃ d, w.callers d = .submitted ∨ w.callers d = .stopping)
    (hsubmitted : w.callers c ≠ .submitted) (hstopping : w.callers c ≠ .stopping) :
    ∃ d, Function.update w.callers c caller d = .submitted ∨
      Function.update w.callers c caller d = .stopping := by
  obtain ⟨d, hd⟩ := hw
  have hdc : d ≠ c := by
    rintro rfl
    exact hd.elim hsubmitted hstopping
  exact ⟨d, by rwa [Function.update_of_ne hdc]⟩

@[simp]
theorem notify_one_pc : w.notify_one.pc = w.pc := by
  unfold notify_one
  split <;> rfl

/-- After a notification the thread is not waiting for one. -/
theorem not_overdue_notify_one : ¬ w.notify_one.Overdue := by
  rintro ⟨hpc, hnotified, -⟩
  rw [notify_one_pc] at hpc
  simp [notify_one, hpc] at hnotified

theorem Inv.notify_one (h : w.Inv) : w.notify_one.Inv := by
  unfold WorkThread.notify_one
  split
  · exact ⟨h.conserved, h.stopped, h.before, h.ended, by simp [Overdue]⟩
  · exact h

/-- A caller that has nothing to notify goes elsewhere. -/
theorem Inv.moved {caller : Caller} (h : w.Inv) (hover : (w.moved c caller).Over → w.Over)
    (hsubmitted : w.Overdue → w.callers c ≠ .submitted)
    (hstopping : w.Overdue → w.callers c ≠ .stopping) : (w.moved c caller).Inv where
  conserved := h.conserved
  stopped := h.stopped
  before := h.before
  ended := fun ho => h.ended (hover ho)
  awake := fun hdue => awake_update (h.awake hdue) (hsubmitted hdue) (hstopping hdue)

theorem Inv.start (h : w.Inv) : w.start.Inv := by
  unfold WorkThread.start
  split
  · rename_i hpc
    refine ⟨?_, h.stopped, h.before, ?_, by simp [Overdue]⟩
    · have hconserved := h.conserved
      simpa [current, hpc] using hconserved
    · rintro (hleft | ⟨c, hc | ⟨-, hidle⟩⟩)
      · cases hleft
      · exact h.ended (.inr ⟨c, .inl hc⟩)
      · cases hidle
  · exact ⟨h.conserved, h.stopped, h.before, h.ended, h.awake⟩

theorem Inv.submitTask (h : w.Inv) (task : T) : (w.submitTask c task).Inv := by
  unfold WorkThread.submitTask
  split
  · refine ⟨?_, h.stopped, ?_, ?_, ?_⟩
    · change w.executed ++ w.current ++ (w.tasks ++ [task]) = w.submitted ++ [task]
      rw [← List.append_assoc, h.conserved]
    · intro before hbefore
      exact (h.before before hbefore).trans (List.prefix_append _ _)
    · intro hover
      exact h.ended (hover.of_update rfl rfl (by simp) (by simp))
    · exact fun _ => ⟨c, .inl (Function.update_self ..)⟩
  · exact h

theorem Inv.stopThread (h : w.Inv) : (w.stopThread c).Inv := by
  unfold WorkThread.stopThread
  split
  · refine ⟨h.conserved, rfl, ?_, ?_, ?_⟩
    · rintro before hbefore
      cases hb : w.beforeStop with
      | none =>
          obtain rfl : w.submitted = before := by simpa [hb] using hbefore
          exact List.prefix_rfl
      | some first =>
          obtain rfl : first = before := by simpa [hb] using hbefore
          exact h.before first hb
    · intro hover
      -- whoever has left had been told to: `stop` was set before
      obtain ⟨before, hbefore, hexecuted⟩ := h.ended (hover.of_update rfl rfl (by simp) (by simp))
      exact ⟨before, by simp [hbefore], hexecuted⟩
    · exact fun _ => ⟨c, .inr (Function.update_self ..)⟩
  · exact h

theorem Inv.proceed (h : w.Inv) : (w.proceed c).Inv := by
  unfold WorkThread.proceed
  cases hc : w.callers c with
  | submitted =>
      exact h.notify_one.moved (fun hover => hover.of_update rfl rfl (by simp) (by simp))
        (fun hdue => absurd hdue not_overdue_notify_one) fun hdue => absurd hdue not_overdue_notify_one
  | stopping =>
      exact h.notify_one.moved (fun hover => hover.of_update rfl rfl (by simp) (by simp))
        (fun hdue => absurd hdue not_overdue_notify_one) fun hdue => absurd hdue not_overdue_notify_one
  | testing =>
      dsimp only
      split
      · exact h.moved (fun hover => hover.of_update rfl rfl (by simp) (by simp)) (by simp [hc]) (by simp [hc])
      · rename_i hpc
        refine h.moved ?_ (by simp [hc]) (by simp [hc])
        rintro (hleft | ⟨d, hd | ⟨-, hidle⟩⟩)
        · exact .inl hleft
        · by_cases hdc : d = c
          · simp [WorkThread.moved, hdc] at hd
          · exact .inr ⟨d, .inl (by simpa [WorkThread.moved, hdc] using hd)⟩
        · exact absurd hidle hpc
  | joining =>
      dsimp only
      split
      · rename_i hpc
        have hdrained : w.Drained := h.ended (.inl hpc)
        refine ⟨?_, h.stopped, h.before, fun _ => hdrained, by simp [Overdue]⟩
        have hconserved := h.conserved
        simpa [current, hpc, WorkThread.moved] using hconserved
      · rename_i hpc
        exact h.moved (fun _ => .inr ⟨c, .inr ⟨hc, hpc⟩⟩) (by simp [hc]) (by simp [hc])
      · exact h
  | outside =>
      exact h
  | joined =>
      exact h

/-- The thread goes on without leaving. -/
theorem Over.of_pc (h : w'.Over) (hcallers : w'.callers = w.callers) (hleft : w'.pc ≠ .left)
    (hidle : w'.pc ≠ .idle) : w.Over := by
  rcases h with h | ⟨c, hc | ⟨-, h⟩⟩
  · exact absurd h hleft
  · exact .inr ⟨c, .inl (hcallers ▸ hc)⟩
  · exact absurd h hidle

theorem Inv.run (h : w.Inv) : w.run.Inv := by
  have hconserved := h.conserved
  unfold WorkThread.run
  cases hpc : w.pc with
  | locking =>
      rw [current, hpc] at hconserved
      dsimp only
      by_cases hwake : w.stop || !w.tasks.isEmpty
      · rw [if_pos hwake]
        cases htasks : w.tasks with
        | nil =>
            -- the predicate was true because of `stop`
            have hstop : w.stop = true := by simpa [htasks] using hwake
            obtain ⟨before, hbefore⟩ := Option.isSome_iff_exists.1 (h.stopped.symm.trans hstop)
            have hall : w.executed = w.submitted := by simpa [htasks] using hconserved
            refine ⟨by simpa [current, htasks] using hconserved, h.stopped, h.before, ?_,
              by simp [Overdue]⟩
            exact fun _ => ⟨before, hbefore, hall ▸ h.before before hbefore⟩
        | cons task rest =>
            refine ⟨by simpa [current, htasks] using hconserved, h.stopped, h.before, ?_,
              by simp [Overdue]⟩
            intro hover
            exact h.ended (hover.of_pc rfl (by simp) (by simp))
      · rw [if_neg hwake]
        have hnothing : w.stop = false ∧ w.tasks = [] := by simpa using hwake
        refine ⟨by simpa [current] using hconserved, h.stopped, h.before, ?_, ?_⟩
        · intro hover
          exact h.ended (hover.of_pc rfl (by simp) (by simp))
        · rintro ⟨-, -, hstop | htasks⟩
          · simp [hnothing.1] at hstop
          · exact absurd hnothing.2 htasks
  | waiting =>
      rw [current, hpc] at hconserved
      dsimp only
      split
      · refine ⟨by simpa [current] using hconserved, h.stopped, h.before, ?_, by simp [Overdue]⟩
        intro hover
        exact h.ended (hover.of_pc rfl (by simp) (by simp))
      · exact h
  | running task =>
      rw [current, hpc] at hconserved
      refine ⟨by simpa [current] using hconserved, h.stopped, h.before, ?_, by simp [Overdue]⟩
      intro hover
      have hdrained : w.Drained := h.ended (hover.of_pc rfl (by simp) (by simp))
      exact hdrained.append rfl rfl
  | idle =>
      exact h
  | left =>
      exact h

theorem Inv.spurious (h : w.Inv) : w.spurious.Inv := by
  unfold WorkThread.spurious
  split
  · rename_i hpc
    have hconserved := h.conserved
    rw [current, hpc] at hconserved
    refine ⟨by simpa [current] using hconserved, h.stopped, h.before, ?_, by simp [Overdue]⟩
    intro hover
    exact h.ended (hover.of_pc rfl (by simp) (by simp))
  · exact h

theorem Inv.step (h : w.Inv) (e : Event T) : (w.step e).Inv := by
  unfold WorkThread.step
  split
  · exact h
  · cases e with
    | start =>
        exact h.start
    | submitTask c task =>
        exact h.submitTask task
    | stopThread c =>
        exact h.stopThread
    | proceed c =>
        exact h.proceed
    | run =>
        exact h.run
    | spurious =>
        exact h.spurious

end steps

/-! ## Runs -/

theorem inv_run (es : List (Event T)) : (es.foldl step new).Inv :=
  Runs.invariant_run (fun _ e h => h.step e) inv_new es

/-- What the thread makes of the tasks that the calls of a run submit. -/
theorem drains_of_events (es : List (Event T)) :
    Drains (submittedIn new es) (submittedBeforeStop new es) (es.foldl step new) := by
  rw [← submitted_run, ← beforeStop_run]
  exact (inv_run es).drains

section leaving

variable {w : WorkThread T}

/-- How many steps it may still take. -/
def pending (w : WorkThread T) : Nat :=
  match w.pc with
  | .locking => 2 * w.tasks.length + 1
  | .waiting | .running _ => 2 * w.tasks.length + 2
  | .idle | .left => 0

theorem run_stop : w.run.stop = w.stop := by
  unfold run
  repeat' split
  all_goals rfl

/-- Told to stop, the thread leaves or comes a step closer to it, unless it waits for a notification. -/
theorem run_of_stop (hstop : w.stop = true) (hidle : w.pc ≠ .idle) (hleft : w.pc ≠ .left)
    (hawake : ¬ w.Overdue) :
    w.run.pc ≠ .idle ∧ ¬ w.run.Overdue ∧ w.run.pending < w.pending := by
  unfold run
  cases hpc : w.pc with
  | locking =>
      cases htasks : w.tasks with
      | nil =>
          simp [hstop, Overdue, pending, hpc]
      | cons task rest =>
          simp [hstop, Overdue, pending, hpc, htasks]
          omega
  | waiting =>
      have hnotified : w.notified = true := by
        by_contra hn
        exact hawake ⟨hpc, by simpa using hn, .inl hstop⟩
      simp [hnotified, Overdue, pending, hpc]
  | running task =>
      simp [Overdue, pending, hpc]
  | idle =>
      exact absurd hpc hidle
  | left =>
      exact absurd hpc hleft

/-- Once `stop` is set and no notification is on its way, the thread leaves on its own. -/
theorem leaves_of_stop (hstop : w.stop = true) (hidle : w.pc ≠ .idle) (hawake : ¬ w.Overdue) :
    ∃ n, (run^[n] w).pc = .left := by
  induction hm : w.pending using Nat.strong_induction_on generalizing w with
  | _ m ih =>
      by_cases hleft : w.pc = .left
      · exact ⟨0, hleft⟩
      · obtain ⟨hpc, hdue, hlt⟩ := run_of_stop hstop hidle hleft hawake
        obtain ⟨n, hn⟩ := ih _ (hm ▸ hlt) (run_stop.trans hstop) hpc hdue rfl
        exact ⟨n + 1, hn⟩

/-- In a run in which the notifications are out, nobody joins in vain. -/
theorem leaves_run (es : List (Event T)) (hstop : (es.foldl step new).stop = true)
    (hidle : (es.foldl step new).pc ≠ .idle)
    (hquiet : ∀ c, (es.foldl step new).callers c ≠ .submitted ∧
      (es.foldl step new).callers c ≠ .stopping) :
    ∃ n, (run^[n] (es.foldl step new)).pc = .left := by
  refine leaves_of_stop hstop hidle fun hdue => ?_
  obtain ⟨c, hc⟩ := (inv_run es).awake hdue
  exact hc.elim (hquiet c).1 (hquiet c).2

end leaving

end WorkThread

/-! ## The pool -/

/-- The threads under their keys. -/
structure WorkThreadPool (T : Type) where
  threads_ : List (WorkThread T)

namespace WorkThreadPool

open WorkThread (Event)

variable {T : Type}

def new (numThreads : Nat) : WorkThreadPool T := ⟨List.replicate numThreads WorkThread.new⟩

/-- An event of one of the threads; there is none with another key. -/
def step (pool : WorkThreadPool T) (e : Nat × Event T) : WorkThreadPool T :=
  ⟨pool.threads_.modify e.1 fun w => w.step e.2⟩

/-- The events of one thread. -/
def eventsOf (key : Nat) (es : List (Nat × Event T)) : List (Event T) :=
  (es.filter fun e => e.1 = key).map Prod.snd

theorem threads_run (pool : WorkThreadPool T) (es : List (Nat × Event T)) (key : Nat) :
    (es.foldl step pool).threads_[key]? =
      (pool.threads_[key]?).map fun w => (eventsOf key es).foldl WorkThread.step w := by
  induction es generalizing pool with
  | nil =>
      simp [eventsOf]
  | cons e es ih =>
      rw [List.foldl_cons, ih]
      by_cases hkey : e.1 = key
      · simp [step, eventsOf, hkey, Function.comp_def]
      · simp [step, eventsOf, hkey]

/-- Every thread of the pool drains its queue. -/
theorem threads_drain (numThreads : Nat) (es : List (Nat × Event T)) (key : Nat) (w : WorkThread T)
    (hw : (es.foldl step (new numThreads)).threads_[key]? = some w) :
    WorkThread.Drains (WorkThread.submittedIn WorkThread.new (eventsOf key es))
      (WorkThread.submittedBeforeStop WorkThread.new (eventsOf key es)) w := by
  rw [threads_run, Option.map_eq_some_iff] at hw
  obtain ⟨w₀, hnew, rfl⟩ := hw
  obtain rfl : WorkThread.new = w₀ := by
    have hmem : w₀ ∈ List.replicate numThreads WorkThread.new := List.mem_of_getElem? hnew
    exact (List.eq_of_mem_replicate hmem).symm
  exact WorkThread.drains_of_events _

end WorkThreadPool
end Base
end Myoj
