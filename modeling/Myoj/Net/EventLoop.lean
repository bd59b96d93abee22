import Mathlib.Logic.Function.Basic
import Myoj.Lib.Runs

/-!
# EventLoop — pending functors and the eventfd that wakes the loop

Any thread may hand the loop a functor.  It goes into `pendingFunctors_` under the mutex; whoever pushed
it then decides, outside the mutex, whether to write the eventfd.  The loop polls, runs the handlers of
the channels that are active, and in `doPendingFunctors` swaps the queue into a local vector and runs it.

* `Pc` — where the loop thread is in `loop()`;
* `Self` — where it is in a `queueInLoop` of its own, called from a handler or from a functor;
* `Event`, `step` — the interleavings, one access to the shared members at a time;
* `handedOver` — the functors that the calls of a run hand to the loop, read off its events;
* `Sound` — what the loop promises of them, `Settles` — it can always call all of them by itself.

Functors are values of an arbitrary type; what they do when they run are the events of the loop thread
that follow.  `queued`, `executed` and `rounds` record what happened: the functors in the order in which
they were pushed, those that were started, and how often `doPendingFunctors` has returned.
-/

namespace Myoj
namespace Net

/-- A functor in the queue, with the thread that pushed it; 0 is the loop thread. -/
structure Pending (F : Type) where
  thread : Nat
  functor : F
  deriving DecidableEq, Repr

namespace EventLoop

/-- Where the loop thread is. -/
inductive Pc where
  /-- About to block in `poll`, or blocked there. -/
  | polling
  /-- In the handlers of the active channels. -/
  | handling
  /-- `callingPendingFunctors_` is set, the swap is next. -/
  | swapping
  /-- Between two functors of the local vector. -/
  | calling
  /-- In a functor. -/
  | inFunctor
  deriving DecidableEq, Repr

/-- Where the loop thread is in a `queueInLoop` of its own. -/
inductive Self where
  | outside
  /-- It has pushed and is to test `callingPendingFunctors_`. -/
  | pushed
  /-- It is to write the eventfd. -/
  | waking
  deriving DecidableEq, Repr

end EventLoop

open EventLoop in
structure EventLoop (F : Type) where
  pc : Pc
  self : Self
  callingPendingFunctors_ : Bool
  pendingFunctors_ : List (Pending F)
  /-- The local vector of `doPendingFunctors`, from the next functor on. -/
  functors : List (Pending F)
  /-- The counter of the eventfd. -/
  wakeupFd_ : Nat
  /-- The other threads that have pushed and are to write the eventfd. -/
  waking : Nat → Bool
  queued : List (Pending F)
  executed : List (Pending F)
  rounds : Nat

namespace EventLoop

variable {F : Type}

/-- `loop()` is entered, with nothing queued. -/
def start : EventLoop F where
  pc := .polling
  self := .outside
  callingPendingFunctors_ := false
  pendingFunctors_ := []
  functors := []
  wakeupFd_ := 0
  waking := fun _ => false
  queued := []
  executed := []
  rounds := 0

variable (loop : EventLoop F)

/-- The eventfd is readable. -/
def readable : Prop := 0 < loop.wakeupFd_

/-- `write(wakeupFd_, 1)`; the counter stops below `2 ^ 64 - 1`. -/
def wakeup : EventLoop F :=
  { loop with
    wakeupFd_ := if loop.wakeupFd_ < 2 ^ 64 - 2 then loop.wakeupFd_ + 1 else loop.wakeupFd_ }

/-- `pendingFunctors_.emplace_back(cb)`, under the mutex. -/
def push (thread : Nat) (cb : F) : EventLoop F :=
  { loop with
    pendingFunctors_ := loop.pendingFunctors_ ++ [⟨thread, cb⟩]
    queued := loop.queued ++ [⟨thread, cb⟩] }

/-- The loop thread is running code of the user, outside `queueInLoop`. -/
def mayCall : Bool :=
  (loop.pc == .handling || loop.pc == .inFunctor) && loop.self == .outside

/-- The locked part of `queueInLoop`; what follows is `testCalling` or `wakeup`. -/
def queueInLoop (thread : Nat) (cb : F) : EventLoop F :=
  if thread = 0 then
    if loop.mayCall then { loop.push 0 cb with self := .pushed } else loop
  else if loop.waking thread then loop
  else { loop.push thread cb with waking := Function.update loop.waking thread true }

/-- On the loop thread the functor is called at once. -/
def runInLoop (thread : Nat) (cb : F) : EventLoop F :=
  if thread = 0 then loop else loop.queueInLoop thread cb

/-- `!isInLoopThread() || callingPendingFunctors_` on the loop thread. -/
def testCalling : EventLoop F :=
  if loop.self = .pushed then
    { loop with self := if loop.callingPendingFunctors_ then .waking else .outside }
  else loop

/-- The `wakeup()` at the end of `queueInLoop`. -/
def finishQueue (thread : Nat) : EventLoop F :=
  if thread = 0 then
    if loop.self = .waking then { loop.wakeup with self := .outside } else loop
  else if loop.waking thread then
    { loop.wakeup with waking := Function.update loop.waking thread false }
  else loop

inductive Event (F : Type) where
  | queueInLoop (thread : Nat) (cb : F)
  | runInLoop (thread : Nat) (cb : F)
  | testCalling
  | wakeup (thread : Nat)
  /-- `poll` returns: a channel is active, or the time is over. -/
  | pollReturns
  /-- The handler of the eventfd reads it. -/
  | handleRead
  /-- The handlers are done, `doPendingFunctors` begins. -/
  | doPendingFunctors
  | swap
  /-- The next functor of the local vector is called. -/
  | call
  | functorReturns
  /-- The vector is done, and with it the round. -/
  | finish

def step (loop : EventLoop F) : Event F → EventLoop F
  | .queueInLoop thread cb => loop.queueInLoop thread cb
  | .runInLoop thread cb => loop.runInLoop thread cb
  | .testCalling => loop.testCalling
  | .wakeup thread => loop.finishQueue thread
  | .pollReturns => if loop.pc = .polling then { loop with pc := .handling } else loop
  | .handleRead =>
      if loop.pc = .handling ∧ loop.self = .outside then { loop with wakeupFd_ := 0 } else loop
  | .doPendingFunctors =>
      if loop.pc = .handling ∧ loop.self = .outside then
        { loop with callingPendingFunctors_ := true, pc := .swapping }
      else loop
  | .swap =>
      if loop.pc = .swapping then
        { loop with
          functors := loop.pendingFunctors_
          pendingFunctors_ := loop.functors
          pc := .calling }
      else loop
  | .call =>
      match loop.functors with
      | [] => loop
      | functor :: rest =>
          if loop.pc = .calling then
            { loop with
              functors := rest
              executed := loop.executed ++ [functor]
              pc := .inFunctor }
          else loop
  | .functorReturns =>
      if loop.pc = .inFunctor ∧ loop.self = .outside then { loop with pc := .calling } else loop
  | .finish =>
      if loop.pc = .calling ∧ loop.functors = [] then
        { loop with
          callingPendingFunctors_ := false
          pc := .polling
          rounds := loop.rounds + 1 }
      else loop

/-- A thread may call the loop when it is not inside an earlier call. -/
def mayQueue (thread : Nat) : Bool :=
  if thread = 0 then loop.mayCall else !loop.waking thread

/-- The functor an event hands over; the loop thread's own `runInLoop` has it called, not queued. -/
def handed (loop : EventLoop F) : Event F → List (Pending F)
  | .queueInLoop thread cb => if loop.mayQueue thread then [⟨thread, cb⟩] else []
  | .runInLoop thread cb => if thread ≠ 0 ∧ loop.mayQueue thread then [⟨thread, cb⟩] else []
  | _ => []

/-- The functors that the calls of a run hand over, in the order of the calls. -/
def handedOver (loop : EventLoop F) (es : List (Event F)) : List (Pending F) :=
  Runs.collected step handed loop es

/-- The loop thread takes the event by itself, and hands nothing over. -/
def Event.own : Event F → Bool
  | .queueInLoop .. | .runInLoop .. => false
  | .wakeup thread => thread == 0
  | _ => true

/-! ## The queue holds what is handed over -/

section queue

variable {loop}

@[simp]
theorem wakeup_queued : loop.wakeup.queued = loop.queued := rfl

theorem queued_queueInLoop (thread : Nat) (cb : F) :
    (loop.queueInLoop thread cb).queued =
      loop.queued ++ if loop.mayQueue thread then [⟨thread, cb⟩] else [] := by
  unfold queueInLoop mayQueue
  split
  · next hthread =>
    subst hthread
    split <;> simp_all [push]
  · split <;> simp_all [push]

theorem queued_runInLoop (thread : Nat) (cb : F) :
    (loop.runInLoop thread cb).queued =
      loop.queued ++ if thread ≠ 0 ∧ loop.mayQueue thread then [⟨thread, cb⟩] else [] := by
  unfold runInLoop
  by_cases hthread : thread = 0
  · simp [hthread]
  · simp [hthread, queued_queueInLoop]

/-- Every step queues what it hands over, and nothing else. -/
theorem queued_step (loop : EventLoop F) (e : Event F) :
    (step loop e).queued = loop.queued ++ loop.handed e := by
  cases e with
  | queueInLoop thread cb =>
      exact queued_queueInLoop thread cb
  | runInLoop thread cb =>
      exact queued_runInLoop thread cb
  | testCalling =>
      simp only [step, testCalling, handed, List.append_nil]
      split <;> rfl
  | wakeup thread =>
      simp only [step, finishQueue, handed, List.append_nil]
      repeat' split
      all_goals rfl
  | call =>
      simp only [step, handed, List.append_nil]
      repeat' split
      all_goals rfl
  | pollReturns | handleRead | doPendingFunctors | swap | functorReturns | finish =>
      simp only [step, handed, List.append_nil]
      split <;> rfl

theorem queued_run (es : List (Event F)) : (es.foldl step start).queued = handedOver start es :=
  (Runs.record_run queued_step start es).trans (List.nil_append _)

end queue

/-! ## The invariant -/

/-- `doPendingFunctors` has taken the queue over. -/
def swapped : Prop := loop.pc = .calling ∨ loop.pc = .inFunctor

structure Inv : Prop where
  /-- Every functor that was pushed is in one place, and the places are in order. -/
  conserved : loop.executed ++ loop.functors ++ loop.pendingFunctors_ = loop.queued
  local_empty : ¬ loop.swapped → loop.functors = []
  calling : loop.callingPendingFunctors_ = true ↔ loop.pc = .swapping ∨ loop.swapped
  self_inside : loop.self ≠ .outside → loop.pc = .handling ∨ loop.pc = .inFunctor
  /-- Somebody sees to a queue that is not empty: the swap of this round, or a wake-up. -/
  awake : loop.pendingFunctors_ ≠ [] →
    loop.readable ∨ (∃ t, loop.waking t = true) ∨ loop.pc = .handling ∨ loop.pc = .swapping ∨
      loop.self ≠ .outside

section invariant

variable {loop}

theorem inv_start : (start : EventLoop F).Inv where
  conserved := rfl
  local_empty := fun _ => rfl
  calling := by simp [start, swapped]
  self_inside := fun h => absurd rfl h
  awake := fun h => absurd rfl h

theorem readable_wakeup : loop.wakeup.readable := by
  simp only [readable, wakeup]
  split
  · omega
  · have hlarge : 0 < 2 ^ 64 - 2 := by decide
    omega

theorem Inv.push (h : loop.Inv) (thread : Nat) (cb : F) :
    (loop.push thread cb).executed ++ (loop.push thread cb).functors ++
      (loop.push thread cb).pendingFunctors_ = (loop.push thread cb).queued := by
  simp only [EventLoop.push]
  rw [← List.append_assoc, h.conserved]

theorem inv_queueInLoop (h : loop.Inv) (thread : Nat) (cb : F) : (loop.queueInLoop thread cb).Inv := by
  unfold queueInLoop
  split
  · split
    · next hcall =>
      simp only [mayCall, Bool.and_eq_true, Bool.or_eq_true, beq_iff_eq] at hcall
      exact {
        conserved := h.push 0 cb
        local_empty := h.local_empty
        calling := h.calling
        self_inside := fun _ => hcall.1
        awake := fun _ => by simp }
    · exact h
  · split
    · exact h
    · exact {
        conserved := h.push thread cb
        local_empty := h.local_empty
        calling := h.calling
        self_inside := h.self_inside
        awake := fun _ => Or.inr (Or.inl ⟨thread, Function.update_self ..⟩) }

theorem inv_runInLoop (h : loop.Inv) (thread : Nat) (cb : F) : (loop.runInLoop thread cb).Inv := by
  unfold runInLoop
  split
  · exact h
  · exact inv_queueInLoop h thread cb

theorem inv_testCalling (h : loop.Inv) : loop.testCalling.Inv := by
  unfold testCalling
  split
  · next hpushed =>
    have hinside : loop.pc = .handling ∨ loop.pc = .inFunctor :=
      h.self_inside (by simp [hpushed])
    exact {
      conserved := h.conserved
      local_empty := h.local_empty
      calling := h.calling
      self_inside := fun _ => hinside
      awake := fun _ => by
        -- in a handler the swap is still to come; in a functor the flag is set
        rcases hinside with hpc | hpc
        · simp [hpc]
        · have hflag : loop.callingPendingFunctors_ = true := h.calling.2 (by simp [swapped, hpc])
          simp [hflag] }
  · exact h

/-- After a write of the eventfd it is readable, whoever wrote it. -/
theorem Inv.of_wakeup {loop' : EventLoop F} (h : loop.Inv) (hpc : loop'.pc = loop.pc)
    (hcalling : loop'.callingPendingFunctors_ = loop.callingPendingFunctors_)
    (hpending : loop'.pendingFunctors_ = loop.pendingFunctors_)
    (hfunctors : loop'.functors = loop.functors) (hqueued : loop'.queued = loop.queued)
    (hexecuted : loop'.executed = loop.executed)
    (hself : loop'.self = loop.self ∨ loop'.self = .outside)
    (hreadable : loop'.readable) : loop'.Inv where
  conserved := by rw [hexecuted, hfunctors, hpending, hqueued, h.conserved]
  local_empty := by simpa [swapped, hpc, hfunctors] using h.local_empty
  calling := by simpa [swapped, hpc, hcalling] using h.calling
  self_inside := by
    intro hinside
    rcases hself with hsame | hout
    · rw [hsame] at hinside
      rw [hpc]
      exact h.self_inside hinside
    · exact absurd hout hinside
  awake := fun _ => Or.inl hreadable

theorem inv_finishQueue (h : loop.Inv) (thread : Nat) : (loop.finishQueue thread).Inv := by
  unfold finishQueue
  split
  · split
    · exact h.of_wakeup rfl rfl rfl rfl rfl rfl (Or.inr rfl) readable_wakeup
    · exact h
  · split
    · exact h.of_wakeup rfl rfl rfl rfl rfl rfl (Or.inl rfl) readable_wakeup
    · exact h

/-! The loop's own steps: `poll`, the handlers, and `doPendingFunctors`. -/

theorem inv_pollReturns (h : loop.Inv) : (step loop .pollReturns).Inv := by
  simp only [step]
  split
  · next hpc =>
    have hlocal : loop.functors = [] := h.local_empty (by simp [swapped, hpc])
    have hflag := h.calling
    exact {
      conserved := h.conserved
      local_empty := fun _ => hlocal
      calling := by simpa [swapped, hpc] using hflag
      self_inside := by simp
      awake := by simp }
  · exact h

theorem inv_handleRead (h : loop.Inv) : (step loop .handleRead).Inv := by
  simp only [step]
  split
  · next hpc =>
    -- the counter is gone, but the swap of this round is still to come
    exact { h with awake := by simp [hpc.1] }
  · exact h

theorem inv_doPendingFunctors (h : loop.Inv) : (step loop .doPendingFunctors).Inv := by
  simp only [step]
  split
  · next hpc =>
    have hlocal : loop.functors = [] := h.local_empty (by simp [swapped, hpc.1])
    exact {
      conserved := h.conserved
      local_empty := fun _ => hlocal
      calling := by simp
      self_inside := fun hinside => absurd hpc.2 hinside
      awake := by simp }
  · exact h

theorem inv_swap (h : loop.Inv) : (step loop .swap).Inv := by
  simp only [step]
  split
  · next hpc =>
    have hlocal : loop.functors = [] := h.local_empty (by simp [swapped, hpc])
    have hflag : loop.callingPendingFunctors_ = true := h.calling.2 (Or.inl hpc)
    have hself : loop.self = .outside := by
      by_contra hinside
      simpa [hpc] using h.self_inside hinside
    exact {
      -- the local vector was empty, so the queue takes its place in the order
      conserved := by simpa [hlocal] using h.conserved
      local_empty := fun hnot => absurd (Or.inl rfl) hnot
      calling := by simp [swapped, hflag]
      self_inside := fun hinside => absurd hself hinside
      awake := fun hpending => absurd hlocal hpending }
  · exact h

theorem inv_call (h : loop.Inv) : (step loop .call).Inv := by
  simp only [step]
  split
  · exact h
  · next functor rest hfunctors =>
    split
    · next hpc =>
      have hflag : loop.callingPendingFunctors_ = true := h.calling.2 (by simp [swapped, hpc])
      exact {
        conserved := by simpa [hfunctors] using h.conserved
        local_empty := fun hnot => absurd (Or.inr rfl) hnot
        calling := by simp [swapped, hflag]
        self_inside := by simp
        awake := by simpa [hpc, readable] using h.awake }
    · exact h

theorem inv_functorReturns (h : loop.Inv) : (step loop .functorReturns).Inv := by
  simp only [step]
  split
  · next hpc =>
    have hflag : loop.callingPendingFunctors_ = true := h.calling.2 (by simp [swapped, hpc.1])
    exact {
      conserved := h.conserved
      local_empty := fun hnot => absurd (Or.inl rfl) hnot
      calling := by simp [swapped, hflag]
      self_inside := fun hinside => absurd hpc.2 hinside
      awake := by simpa [hpc.1, readable] using h.awake }
  · exact h

theorem inv_finish (h : loop.Inv) : (step loop .finish).Inv := by
  simp only [step]
  split
  · next hpc =>
    have hself : loop.self = .outside := by
      by_contra hinside
      simpa [hpc.1] using h.self_inside hinside
    exact {
      conserved := h.conserved
      local_empty := fun _ => hpc.2
      calling := by simp [swapped]
      self_inside := fun hinside => absurd hself hinside
      -- what was pushed since the swap came with a wake-up
      awake := by simpa [hpc.1, readable] using h.awake }
  · exact h

theorem inv_step (h : loop.Inv) (e : Event F) : (step loop e).Inv := by
  cases e with
  | queueInLoop thread cb =>
      exact inv_queueInLoop h thread cb
  | runInLoop thread cb =>
      exact inv_runInLoop h thread cb
  | testCalling =>
      exact inv_testCalling h
  | wakeup thread =>
      exact inv_finishQueue h thread
  | pollReturns =>
      exact inv_pollReturns h
  | handleRead =>
      exact inv_handleRead h
  | doPendingFunctors =>
      exact inv_doPendingFunctors h
  | swap =>
      exact inv_swap h
  | call =>
      exact inv_call h
  | functorReturns =>
      exact inv_functorReturns h
  | finish =>
      exact inv_finish h

end invariant

/-! ## Rounds -/

/-- Seen from a moment when `q` was queued and `doPendingFunctors` had returned `r` times: the next round
takes all of `q` over, and when that has returned all of `q` has been called. -/
structure Served (q : List (Pending F)) (r : Nat) (loop : EventLoop F) : Prop where
  inv : loop.Inv
  queued : q <+: loop.queued
  rounds_le : r ≤ loop.rounds
  taken : r + 1 ≤ loop.rounds → loop.swapped →
    q.length ≤ loop.executed.length + loop.functors.length
  called : r + 2 ≤ loop.rounds → q.length ≤ loop.executed.length

section rounds

variable {loop} {q : List (Pending F)} {r : Nat}

theorem served_now (h : loop.Inv) : Served loop.queued loop.rounds loop where
  inv := h
  queued := List.prefix_refl _
  rounds_le := Nat.le_refl _
  taken := fun hlater => by omega
  called := fun hlater => by omega

/-- A step that only adds to the queue, or does not touch it, serves nobody less. -/
theorem Served.of_frame {loop' : EventLoop F} (h : Served q r loop) (hinv : loop'.Inv)
    (hqueued : loop.queued <+: loop'.queued) (hrounds : loop'.rounds = loop.rounds)
    (hexecuted : loop'.executed = loop.executed) (hfunctors : loop'.functors = loop.functors)
    (hswapped : loop'.swapped → loop.swapped) : Served q r loop' where
  inv := hinv
  queued := h.queued.trans hqueued
  rounds_le := by rw [hrounds]; exact h.rounds_le
  taken := by
    rw [hrounds, hexecuted, hfunctors]
    exact fun hlater hnow => h.taken hlater (hswapped hnow)
  called := by
    rw [hrounds, hexecuted]
    exact h.called

theorem served_queueInLoop (h : Served q r loop) (thread : Nat) (cb : F) :
    Served q r (loop.queueInLoop thread cb) := by
  have hinv := inv_queueInLoop h.inv thread cb
  unfold queueInLoop at hinv ⊢
  split at hinv
  · split at hinv
    · next hthread hcall =>
      rw [if_pos hthread, if_pos hcall]
      exact h.of_frame hinv (by simp [push]) rfl rfl rfl id
    · next hthread hcall =>
      rw [if_pos hthread, if_neg hcall]
      exact h
  · split at hinv
    · next hthread hwaking =>
      rw [if_neg hthread, if_pos hwaking]
      exact h
    · next hthread hwaking =>
      rw [if_neg hthread, if_neg hwaking]
      exact h.of_frame hinv (by simp [push]) rfl rfl rfl id

theorem served_runInLoop (h : Served q r loop) (thread : Nat) (cb : F) :
    Served q r (loop.runInLoop thread cb) := by
  unfold runInLoop
  split
  · exact h
  · exact served_queueInLoop h thread cb

theorem served_testCalling (h : Served q r loop) : Served q r loop.testCalling := by
  refine h.of_frame (inv_testCalling h.inv) ?_ ?_ ?_ ?_ ?_
  all_goals
    simp only [testCalling]
    split
    all_goals simp [swapped]

theorem served_finishQueue (h : Served q r loop) (thread : Nat) :
    Served q r (loop.finishQueue thread) := by
  refine h.of_frame (inv_finishQueue h.inv thread) ?_ ?_ ?_ ?_ ?_
  all_goals
    simp only [finishQueue]
    repeat' split
    all_goals simp [swapped, EventLoop.wakeup]

theorem served_swap (h : Served q r loop) : Served q r (step loop .swap) := by
  have hinv := inv_swap h.inv
  simp only [step] at hinv ⊢
  split
  · next hpc =>
    rw [if_pos hpc] at hinv
    -- all that was queued is called or in the vector now
    have hall := congrArg List.length hinv.conserved
    have hlocal : loop.functors = [] := h.inv.local_empty (by simp [swapped, hpc])
    have hqueued := h.queued.length_le
    simp only [hlocal, List.append_nil, List.length_append] at hall
    exact {
      inv := hinv
      queued := h.queued
      rounds_le := h.rounds_le
      taken := fun _ _ => by simp only; omega
      called := h.called }
  · exact h

theorem served_call (h : Served q r loop) : Served q r (step loop .call) := by
  have hinv := inv_call h.inv
  cases hfunctors : loop.functors with
  | nil =>
      simp only [step, hfunctors]
      exact h
  | cons functor rest =>
      simp only [step, hfunctors] at hinv ⊢
      split
      · next hpc =>
        rw [if_pos hpc] at hinv
        have htaken := h.taken
        have hcalled := h.called
        simp only [swapped, hpc, hfunctors, List.length_cons, true_or, forall_const] at htaken
        exact {
          inv := hinv
          queued := h.queued
          rounds_le := h.rounds_le
          taken := fun hlater _ => by
            have hnow := htaken hlater
            simp only [List.length_append, List.length_singleton]
            omega
          called := fun hlater => by
            have hnow := hcalled hlater
            simp only [List.length_append, List.length_singleton]
            omega }
      · exact h

theorem served_functorReturns (h : Served q r loop) : Served q r (step loop .functorReturns) := by
  have hinv := inv_functorReturns h.inv
  simp only [step] at hinv ⊢
  split
  · next hpc =>
    rw [if_pos hpc] at hinv
    exact {
      inv := hinv
      queued := h.queued
      rounds_le := h.rounds_le
      taken := fun hlater _ => h.taken hlater (Or.inr hpc.1)
      called := h.called }
  · exact h

theorem served_finish (h : Served q r loop) : Served q r (step loop .finish) := by
  have hinv := inv_finish h.inv
  simp only [step] at hinv ⊢
  split
  · next hpc =>
    rw [if_pos hpc] at hinv
    have hrounds := h.rounds_le
    have htaken := h.taken
    simp only [swapped, hpc.1, hpc.2, List.length_nil, Nat.add_zero, true_or, forall_const] at htaken
    exact {
      inv := hinv
      queued := h.queued
      rounds_le := by simp only; omega
      taken := fun _ hswapped => by simp [swapped] at hswapped
      called := fun hlater => by
        simp only at hlater
        exact htaken (by omega) }
  · exact h

theorem served_step (h : Served q r loop) (e : Event F) : Served q r (step loop e) := by
  have hinv := inv_step h.inv e
  cases e with
  | queueInLoop thread cb =>
      exact served_queueInLoop h thread cb
  | runInLoop thread cb =>
      exact served_runInLoop h thread cb
  | testCalling =>
      exact served_testCalling h
  | wakeup thread =>
      exact served_finishQueue h thread
  | pollReturns | handleRead | doPendingFunctors =>
      -- the queue, the local vector and what was called stay as they are
      refine h.of_frame hinv ?_ ?_ ?_ ?_ ?_
      all_goals
        simp only [step]
        split
        all_goals simp [swapped]
  | swap =>
      exact served_swap h
  | call =>
      exact served_call h
  | functorReturns =>
      exact served_functorReturns h
  | finish =>
      exact served_finish h

end rounds

/-! ## The loop by itself -/

/-- By steps of its own the loop comes to have called everything that was queued. -/
def Settles (loop : EventLoop F) : Prop :=
  ∃ more : List (Event F), (∀ e ∈ more, e.own = true) ∧
    (more.foldl step loop).executed = loop.queued

section settling

variable {loop}

theorem handed_of_own {e : Event F} (h : e.own = true) : loop.handed e = [] := by
  cases e with
  | queueInLoop thread cb | runInLoop thread cb =>
      cases h
  | _ =>
      rfl

theorem Settles.of_step {e : Event F} (hown : e.own = true) (h : (step loop e).Settles) :
    loop.Settles := by
  obtain ⟨more, hmore, hexecuted⟩ := h
  refine ⟨e :: more, List.forall_mem_cons.2 ⟨hown, hmore⟩, ?_⟩
  rw [List.foldl_cons, hexecuted, queued_step, handed_of_own hown, List.append_nil]

/-- The local vector is called from its first functor to its last. -/
theorem settles_of_calling (h : loop.Inv) (hpc : loop.pc = .calling)
    (hend : ∀ loop' : EventLoop F, loop'.Inv → loop'.pc = .calling → loop'.functors = [] →
      loop'.pendingFunctors_ = loop.pendingFunctors_ → loop'.Settles) : loop.Settles := by
  induction hfunctors : loop.functors generalizing loop with
  | nil =>
      exact hend loop h hpc hfunctors rfl
  | cons functor rest ih =>
      have hself : loop.self = .outside := by
        by_contra hinside
        simpa [hpc] using h.self_inside hinside
      refine Settles.of_step (e := .call) rfl (Settles.of_step (e := .functorReturns) rfl ?_)
      refine ih (inv_functorReturns (inv_call h)) ?_ ?_ ?_
      · simp [step, hfunctors, hpc, hself]
      · intro loop' hinv hpc' hfunctors' hpending
        exact hend loop' hinv hpc' hfunctors' (by simpa [step, hfunctors, hpc, hself] using hpending)
      · simp [step, hfunctors, hpc, hself]

theorem settles_of_swapping (h : loop.Inv) (hpc : loop.pc = .swapping) : loop.Settles := by
  have hlocal : loop.functors = [] := h.local_empty (by simp [swapped, hpc])
  refine Settles.of_step (e := .swap) rfl (settles_of_calling (inv_swap h) (by simp [step, hpc]) ?_)
  intro loop' hinv _ hfunctors hpending
  have hnone : loop'.pendingFunctors_ = [] := by rw [hpending]; simp [step, hpc, hlocal]
  have hall := hinv.conserved
  rw [hfunctors, hnone, List.append_nil, List.append_nil] at hall
  exact ⟨[], by simp, hall⟩

theorem settles_of_handling (h : loop.Inv) (hpc : loop.pc = .handling) (hself : loop.self = .outside) :
    loop.Settles :=
  Settles.of_step (e := .doPendingFunctors) rfl
    (settles_of_swapping (inv_doPendingFunctors h) (by simp [step, hpc, hself]))

theorem settles_of_polling (h : loop.Inv) (hpc : loop.pc = .polling) : loop.Settles := by
  have hself : loop.self = .outside := by
    by_contra hinside
    simpa [hpc] using h.self_inside hinside
  exact Settles.of_step (e := .pollReturns) rfl
    (settles_of_handling (inv_pollReturns h) (by simp [step, hpc]) (by simp [step, hpc, hself]))

theorem settles_of_inside (h : loop.Inv) (hself : loop.self = .outside) : loop.Settles := by
  -- the round that is under way comes to its end, and another follows it
  have hnext : ∀ loop' : EventLoop F, loop'.Inv → loop'.pc = .calling → loop'.Settles :=
    fun loop' h' hpc' => settles_of_calling h' hpc' fun last hinv hcalling hdone _ =>
      Settles.of_step (e := .finish) rfl
        (settles_of_polling (inv_finish hinv) (by simp [step, hcalling, hdone]))
  cases hpc : loop.pc with
  | polling =>
      exact settles_of_polling h hpc
  | handling =>
      exact settles_of_handling h hpc hself
  | swapping =>
      exact settles_of_swapping h hpc
  | calling =>
      exact hnext loop h hpc
  | inFunctor =>
      exact Settles.of_step (e := .functorReturns) rfl
        (hnext _ (inv_functorReturns h) (by simp [step, hpc, hself]))

/-- A call of its own the loop thread completes first. -/
theorem Inv.settles (h : loop.Inv) : loop.Settles := by
  have hwaking : ∀ loop' : EventLoop F, loop'.Inv → loop'.self = .waking → loop'.Settles :=
    fun loop' h' hself' => Settles.of_step (e := .wakeup 0) rfl
      (settles_of_inside (inv_finishQueue h' 0) (by simp [step, finishQueue, hself']))
  cases hself : loop.self with
  | outside =>
      exact settles_of_inside h hself
  | waking =>
      exact hwaking loop h hself
  | pushed =>
      refine Settles.of_step (e := .testCalling) rfl ?_
      by_cases hflag : loop.callingPendingFunctors_ = true
      · exact hwaking _ (inv_testCalling h) (by simp [step, testCalling, hself, hflag])
      · exact settles_of_inside (inv_testCalling h) (by simp [step, testCalling, hself, hflag])

end settling

/-! ## No task and no wake-up is lost -/

/-- What the loop promises once the functors `given` have been handed over. -/
structure Sound (given : List (Pending F)) (loop : EventLoop F) : Prop where
  /-- The functors called, those taken over and those pending are the functors handed over. -/
  exactly_once : loop.executed ++ loop.functors ++ loop.pendingFunctors_ = given
  /-- Each thread's functors are called in the order in which it handed them over. -/
  in_order : ∀ thread, loop.executed.filter (·.thread = thread) <+: given.filter (·.thread = thread)
  /-- The loop does not block on a queue that is not empty. -/
  awake : loop.pc = .polling → loop.pendingFunctors_ ≠ [] →
    loop.readable ∨ ∃ thread, loop.waking thread = true
  /-- Left to itself the loop calls all of them. -/
  settles : ∃ more : List (Event F), (∀ e ∈ more, e.own = true) ∧
    (more.foldl step loop).executed = given

theorem Inv.sound {loop : EventLoop F} (h : loop.Inv) : Sound loop.queued loop where
  exactly_once := h.conserved
  in_order := by
    intro thread
    rw [← h.conserved, List.append_assoc, List.filter_append]
    exact List.prefix_append ..
  awake := by
    intro hpolling hpending
    rcases h.awake hpending with hreadable | hwaking | hhandling | hswapping | hinside
    · exact Or.inl hreadable
    · exact Or.inr hwaking
    · simp [hpolling] at hhandling
    · simp [hpolling] at hswapping
    · simpa [hpolling] using h.self_inside hinside
  settles := h.settles

/-- **The loop loses no task and no wake-up.**  In every state of every interleaving the functors handed
over are called or held, each once and in order, and the loop does not go to sleep on them; and once
`doPendingFunctors` has returned two more times, all of them have been called. -/
theorem no_task_lost (es more : List (Event F)) :
    Sound (handedOver start es) (es.foldl step start) ∧
      ((es.foldl step start).rounds + 2 ≤ (more.foldl step (es.foldl step start)).rounds →
        handedOver start es <+: (more.foldl step (es.foldl step start)).executed) := by
  have hkept : ∀ (loop : EventLoop F) e, Inv loop → Inv (step loop e) := fun _ e h => inv_step h e
  have hinv : (es.foldl step start).Inv := Runs.invariant_run hkept inv_start es
  rw [← queued_run es]
  refine ⟨hinv.sound, fun hlater => ?_⟩
  have hserve : ∀ (loop : EventLoop F) e,
      Served (es.foldl step start).queued (es.foldl step start).rounds loop →
        Served (es.foldl step start).queued (es.foldl step start).rounds (step loop e) :=
    fun _ e h => served_step h e
  have hend := Runs.invariant_run hserve (served_now hinv) more
  have hexecuted : (more.foldl step (es.foldl step start)).executed <+:
      (more.foldl step (es.foldl step start)).queued := by
    rw [← hend.inv.conserved, List.append_assoc]
    exact List.prefix_append ..
  exact List.prefix_of_prefix_length_le hend.queued hexecuted (hend.called hlater)

end EventLoop
end Net
end Myoj
