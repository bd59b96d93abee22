import Myoj.Lib.Runs

/-!
# EventLoopThread — one loop, one thread, and who may stop it

`threadFunc` makes the loop on its own stack, publishes its address in `loop_` and only then enters
`loop()`.  `startLoop` hands the address out as soon as it is published; from then on any thread may call
`quit()`, the destructor among them.

* `Pc` — where the thread of the loop is, in `threadFunc` and inside `EventLoop::loop`;
* `Owner` — where the thread that owns the object is, in `startLoop` and in the destructor;
* `Event`, `step` — the interleavings, one access to the shared members at a time.

`requested` remembers that some `quit()` has stored its `true`.
-/

namespace Myoj
namespace Net

/-- The members of `EventLoop` that starting and stopping it write. -/
structure LoopFlags where
  looping_ : Bool
  quit_ : Bool
  /-- How often the eventfd was written since it was read. -/
  wakeupFd_ : Nat
  deriving DecidableEq, Repr

/-- The constructor. -/
def LoopFlags.new : LoopFlags where
  looping_ := false
  quit_ := false
  wakeupFd_ := 0

namespace EventLoopThread

/-- The statement the thread of the loop executes next. -/
inductive Pc where
  | notStarted
  /-- `EventLoop loop;` -/
  | construct
  /-- `initCallback_(&loop);` -/
  | initCallback
  /-- `loop_ = &loop; cond_.notify_one();`, under the lock. -/
  | publish
  /-- `looping_ = true;` -/
  | setLooping
  /-- `quit_ = false;` -/
  | clearQuit
  /-- `while(!quit_)` -/
  | testQuit
  /-- `poll`, the handlers and the pending functors. -/
  | body
  /-- `looping_ = false;` -/
  | clearLooping
  /-- `loop_ = nullptr;`, under the lock. -/
  | unpublish
  /-- `loop` goes out of scope. -/
  | destroy
  | finished
  deriving DecidableEq, Repr

/-- Where the owner of the `EventLoopThread` is. -/
inductive Owner where
  | idle
  /-- `startLoop` waits for `loop_`. -/
  | waiting
  /-- `startLoop` has returned the loop. -/
  | holding
  /-- The destructor is about to look at `loop_`. -/
  | exiting
  /-- It is about to store in `quit()`. -/
  | quitting
  /-- It is about to write the eventfd. -/
  | waking
  | joining
  | gone
  deriving DecidableEq, Repr

end EventLoopThread

open EventLoopThread in
structure EventLoopThread where
  pc : Pc
  loop : LoopFlags
  /-- `loop_ != nullptr`. -/
  loop_ : Bool
  exiting_ : Bool
  owner : Owner
  /-- Other threads that are between the store and `wakeup()` in `quit()`. -/
  quitting : Nat
  /-- Some `quit()` has stored `true`. -/
  requested : Bool
  deriving DecidableEq, Repr

namespace EventLoopThread

def start : EventLoopThread where
  pc := .notStarted
  loop := .new
  loop_ := false
  exiting_ := false
  owner := .idle
  quitting := 0
  requested := false

variable (t : EventLoopThread)

/-- The object `loop` exists. -/
def loopAlive : Bool :=
  match t.pc with
  | .notStarted | .construct | .finished => false
  | _ => true

/-- The loop was returned by `startLoop`. -/
def loopReturned : Bool :=
  match t.owner with
  | .idle | .waiting => false
  | _ => true

/-- `quit_ = true;` on a loop that exists. -/
def storeQuit : EventLoopThread :=
  { t with loop := { t.loop with quit_ := true }, requested := true }

def wakeup : EventLoopThread :=
  { t with loop := { t.loop with wakeupFd_ := t.loop.wakeupFd_ + 1 } }

/-- The next statement of `threadFunc` or of the `loop()` it calls. -/
def threadFunc : EventLoopThread :=
  match t.pc with
  | .notStarted => t
  | .construct => { t with loop := .new, pc := .initCallback }
  | .initCallback => { t with pc := .publish }
  | .publish => { t with loop_ := true, pc := .setLooping }
  | .setLooping => { t with loop := { t.loop with looping_ := true }, pc := .clearQuit }
  | .clearQuit => { t with loop := { t.loop with quit_ := false }, pc := .testQuit }
  | .testQuit => { t with pc := if t.loop.quit_ then .clearLooping else .body }
  -- the handler of the eventfd may have read it
  | .body => { t with loop := { t.loop with wakeupFd_ := 0 }, pc := .testQuit }
  | .clearLooping => { t with loop := { t.loop with looping_ := false }, pc := .unpublish }
  | .unpublish => { t with loop_ := false, pc := .destroy }
  | .destroy => { t with pc := .finished }
  | .finished => t

/-- The next statement of the owner: `startLoop`, and later the destructor. -/
def ownerStep : EventLoopThread :=
  match t.owner with
  | .idle => { t with pc := .construct, owner := .waiting }
  | .waiting => if t.loop_ then { t with owner := .holding } else t
  | .holding => { t with exiting_ := true, owner := .exiting }
  | .exiting => { t with owner := if t.loop_ then .quitting else .gone }
  | .quitting => if t.loopAlive then { t.storeQuit with owner := .waking } else t
  | .waking => { t.wakeup with owner := .joining }
  | .joining => if t.pc = .finished then { t with owner := .gone } else t
  | .gone => t

inductive Event where
  | threadFunc
  | ownerStep
  /-- Another thread that was given the loop stores in `quit()`. -/
  | quit
  /-- And writes the eventfd. -/
  | quitWakeup
  /-- A handler or a functor of the loop calls `quit()`; no wake-up is needed. -/
  | quitInLoop
  deriving DecidableEq, Repr

/-- `quit()` is called on a loop that exists. -/
def step (t : EventLoopThread) : Event → EventLoopThread
  | .threadFunc => t.threadFunc
  | .ownerStep => t.ownerStep
  | .quit =>
      if t.loopReturned && t.loopAlive then { t.storeQuit with quitting := t.quitting + 1 } else t
  | .quitWakeup => if 0 < t.quitting then { t.wakeup with quitting := t.quitting - 1 } else t
  | .quitInLoop => if t.pc = .body then t.storeQuit else t

/-! ## The request -/

/-- A request that was made still stands, and the loop leaves at its next test. -/
def Kept : Prop :=
  t.requested = true → t.loop.quit_ = true ∧ (t.pc = .testQuit → t.threadFunc.pc = .clearLooping)

instance : Decidable t.Kept := inferInstanceAs (Decidable (_ → _))

/-- `loop_` is still to be set. -/
def unpublished : Bool :=
  match t.pc with
  | .notStarted | .construct | .initCallback | .publish => true
  | _ => false

/-- `loop()` is still to execute `quit_ = false`. -/
def beforeClear : Bool :=
  match t.pc with
  | .notStarted | .construct | .initCallback | .publish | .setLooping | .clearQuit => true
  | _ => false

/-- The event stores `true` in `quit()`. -/
def stores : Event → Bool
  | .threadFunc => false
  | .ownerStep => t.owner == .quitting && t.loopAlive
  | .quit => t.loopReturned && t.loopAlive
  | .quitWakeup => false
  | .quitInLoop => t.pc == .body

/-- A request came before `quit_ = false`, which is still to come. -/
def Doomed : Prop := t.requested = true ∧ t.beforeClear = true

/-- Nobody has the loop before it is published. -/
structure Inv : Prop where
  idle : t.owner = .idle → t.pc = .notStarted
  unpublished : t.unpublished = true →
    t.loop_ = false ∧ t.loopReturned = false ∧ t.requested = false

variable {t}

theorem kept_iff : t.Kept ↔ (t.requested = true → t.loop.quit_ = true) := by
  constructor
  · intro h hrequested
    exact (h hrequested).1
  · intro h hrequested
    refine ⟨h hrequested, fun hpc => ?_⟩
    simp [threadFunc, hpc, h hrequested]

theorem inv_start : start.Inv where
  idle := fun _ => rfl
  unpublished := fun _ => ⟨rfl, rfl, rfl⟩

@[simp] theorem threadFunc_owner : t.threadFunc.owner = t.owner := by
  unfold threadFunc
  split <;> rfl

@[simp] theorem threadFunc_requested : t.threadFunc.requested = t.requested := by
  unfold threadFunc
  split <;> rfl

@[simp] theorem threadFunc_loopReturned : t.threadFunc.loopReturned = t.loopReturned := by
  simp only [loopReturned, threadFunc_owner]

/-- Before it publishes, the thread of the loop only gets on. -/
theorem unpublished_threadFunc (h : t.threadFunc.unpublished = true) :
    t.unpublished = true ∧ t.threadFunc.loop_ = t.loop_ := by
  cases hpc : t.pc with
  | testQuit =>
      cases hquit : t.loop.quit_ <;> simp [unpublished, threadFunc, hpc, hquit] at h
  | _ =>
      simp [unpublished, threadFunc, hpc] at h ⊢

theorem inv_threadFunc (h : t.Inv) : t.threadFunc.Inv where
  idle := by
    intro howner
    rw [threadFunc_owner] at howner
    simp [threadFunc, h.idle howner]
  unpublished := by
    intro hnext
    rcases unpublished_threadFunc hnext with ⟨hnow, hloop⟩
    rw [threadFunc_loopReturned, threadFunc_requested, hloop]
    exact h.unpublished hnow

theorem Inv.not_unpublished (h : t.Inv) (hreturned : t.loopReturned = true) :
    t.unpublished = false := by
  cases hun : t.unpublished with
  | false =>
      rfl
  | true =>
      have hnone := (h.unpublished hun).2.1
      rw [hreturned] at hnone
      cases hnone

/-- Once the loop is returned, the invariant is about the position of its thread only. -/
theorem Inv.of_returned {t' : EventLoopThread} (h : t.Inv) (hreturned : t.loopReturned = true)
    (hreturned' : t'.loopReturned = true) (hpc : t'.pc = t.pc) : t'.Inv where
  idle := by
    intro howner
    simp [loopReturned, howner] at hreturned'
  unpublished := by
    intro hun
    have hsame : t'.unpublished = t.unpublished := by
      simp only [EventLoopThread.unpublished, hpc]
    rw [hsame, h.not_unpublished hreturned] at hun
    cases hun

theorem loopReturned_ownerStep (h : t.loopReturned = true) :
    t.ownerStep.loopReturned = true ∧ t.ownerStep.pc = t.pc := by
  cases howner : t.owner <;> simp [loopReturned, howner] at h
  all_goals
    simp only [ownerStep, howner]
    try split
  all_goals simp [loopReturned, storeQuit, wakeup, howner]

theorem inv_ownerStep (h : t.Inv) : t.ownerStep.Inv := by
  cases howner : t.owner with
  | idle =>
      have hnew := h.unpublished (by simp [unpublished, h.idle howner])
      simp only [ownerStep, howner]
      exact ⟨by simp, fun _ => ⟨hnew.1, rfl, hnew.2.2⟩⟩
  | waiting =>
      simp only [ownerStep, howner]
      split
      · next hloop =>
        refine ⟨by simp, fun hun => ?_⟩
        -- `startLoop` only gets on when the loop is published
        have hnone : t.loop_ = false := (h.unpublished hun).1
        rw [hloop] at hnone
        cases hnone
      · exact h
  | _ =>
      have hreturned : t.loopReturned = true := by simp [loopReturned, howner]
      rcases loopReturned_ownerStep hreturned with ⟨hstill, hpc⟩
      exact h.of_returned hreturned hstill hpc

theorem inv_step (h : t.Inv) (e : Event) : (step t e).Inv := by
  cases e with
  | threadFunc =>
      exact inv_threadFunc h
  | ownerStep =>
      exact inv_ownerStep h
  | quit =>
      simp only [step]
      split
      · next hcall =>
        have hreturned : t.loopReturned = true := (Bool.and_eq_true_iff.1 hcall).1
        exact h.of_returned hreturned hreturned rfl
      · exact h
  | quitWakeup =>
      simp only [step]
      split
      · exact ⟨h.idle, h.unpublished⟩
      · exact h
  | quitInLoop =>
      simp only [step]
      split
      · next hbody =>
        refine ⟨h.idle, fun hun => ?_⟩
        simp [unpublished, storeQuit, hbody] at hun
      · exact h

/-! ## Which requests are kept -/

variable {e : Event}

/-- A store of `quit()`. -/
theorem step_of_stores (hstores : t.stores e = true) :
    (step t e).requested = true ∧ (step t e).loop.quit_ = true ∧ (step t e).pc = t.pc := by
  cases e with
  | threadFunc =>
      cases hstores
  | ownerStep =>
      simp only [stores, Bool.and_eq_true, beq_iff_eq] at hstores
      simp [step, ownerStep, hstores, storeQuit]
  | quit =>
      simp only [stores] at hstores
      simp [step, hstores, storeQuit]
  | quitWakeup =>
      cases hstores
  | quitInLoop =>
      simp only [stores, beq_iff_eq] at hstores
      simp [step, hstores, storeQuit]

/-- The owner's other statements. -/
theorem ownerStep_of_not_stores (hinv : t.Inv) (hstores : t.stores .ownerStep = false) :
    t.ownerStep.requested = t.requested ∧ t.ownerStep.loop.quit_ = t.loop.quit_ ∧
      t.ownerStep.beforeClear = t.beforeClear := by
  cases howner : t.owner with
  | idle =>
      simp [ownerStep, howner, beforeClear, hinv.idle howner]
  | quitting =>
      have hdead : t.loopAlive = false := by simpa [stores, howner] using hstores
      simp [ownerStep, howner, hdead]
  | _ =>
      simp only [ownerStep, howner]
      try split
      all_goals simp [wakeup, beforeClear]

/-- Between two stores only `quit_ = false` takes a request back. -/
theorem step_of_not_stores (hinv : t.Inv) (hstores : t.stores e = false) :
    (step t e).requested = t.requested ∧
      (t.requested = true →
        (t.pc = .clearQuit ∧ (step t e).loop.quit_ = false) ∨
          (step t e).loop.quit_ = t.loop.quit_ ∧ (step t e).beforeClear = t.beforeClear) := by
  cases e with
  | threadFunc =>
      refine ⟨threadFunc_requested, fun hrequested => ?_⟩
      have hpublished : t.unpublished = false := by
        cases hun : t.unpublished with
        | false =>
            rfl
        | true =>
            have hnone := (hinv.unpublished hun).2.2
            rw [hrequested] at hnone
            cases hnone
      cases hpc : t.pc with
      | clearQuit =>
          -- the one statement that takes a request back
          exact Or.inl ⟨rfl, by simp [step, threadFunc, hpc]⟩
      | testQuit =>
          cases hquit : t.loop.quit_ <;>
            exact Or.inr (by simp [step, threadFunc, beforeClear, hpc, hquit])
      | notStarted | construct | initCallback | publish =>
          simp [unpublished, hpc] at hpublished
      | _ =>
          exact Or.inr (by simp [step, threadFunc, beforeClear, hpc])
  | ownerStep =>
      rcases ownerStep_of_not_stores hinv hstores with ⟨hrequested, hquit, hclear⟩
      exact ⟨hrequested, fun _ => Or.inr ⟨hquit, hclear⟩⟩
  | quit =>
      simp only [stores] at hstores
      simp [step, hstores]
  | quitWakeup =>
      simp only [step]
      split
      · exact ⟨rfl, fun _ => Or.inr ⟨rfl, rfl⟩⟩
      · exact ⟨rfl, fun _ => Or.inr ⟨rfl, rfl⟩⟩
  | quitInLoop =>
      have hbody : t.pc ≠ .body := by simpa [stores] using hstores
      simp [step, hbody]

/-- What a run keeps whose requests all come after `quit_ = false`. -/
structure Timely (t : EventLoopThread) : Prop where
  inv : t.Inv
  kept : t.requested = true → t.loop.quit_ = true
  cleared : t.requested = true → t.beforeClear = false

theorem timely_step (h : t.Timely) (hguard : t.stores e = true → t.beforeClear = false) :
    (step t e).Timely := by
  cases hstores : t.stores e with
  | true =>
      rcases step_of_stores hstores with ⟨-, hquit, hpc⟩
      refine ⟨inv_step h.inv e, fun _ => hquit, fun _ => ?_⟩
      simpa [beforeClear, hpc] using hguard hstores
  | false =>
      rcases step_of_not_stores h.inv hstores with ⟨hsame, hrest⟩
      -- a request that is there finds the loop past `quit_ = false`
      have hpast : t.requested = true →
          (step t e).loop.quit_ = t.loop.quit_ ∧ (step t e).beforeClear = t.beforeClear := by
        intro hrequested
        rcases hrest hrequested with ⟨hpc, -⟩ | hkeeps
        -- no request is older than `quit_ = false`
        · have hcleared := h.cleared hrequested
          simp [beforeClear, hpc] at hcleared
        · exact hkeeps
      refine ⟨inv_step h.inv e, fun hrequested => ?_, fun hrequested => ?_⟩
      · rw [hsame] at hrequested
        rw [(hpast hrequested).1]
        exact h.kept hrequested
      · rw [hsame] at hrequested
        rw [(hpast hrequested).2]
        exact h.cleared hrequested

theorem doomed_of_early (hstores : t.stores e = true)
    (hearly : t.beforeClear = true) : (step t e).Doomed := by
  rcases step_of_stores hstores with ⟨hrequested, -, hpc⟩
  exact ⟨hrequested, by simpa [beforeClear, hpc] using hearly⟩

theorem doomed_step (hinv : t.Inv) (h : t.Doomed) (hkept : (step t e).Kept) :
    (step t e).Doomed := by
  cases hstores : t.stores e with
  | true =>
      exact doomed_of_early hstores h.2
  | false =>
      rcases step_of_not_stores hinv hstores with ⟨hsame, hrest⟩
      have hrequested : (step t e).requested = true := hsame.trans h.1
      rcases hrest h.1 with ⟨-, hlost⟩ | ⟨-, hclear⟩
      · have hquit := kept_iff.1 hkept hrequested
        rw [hlost] at hquit
        cases hquit
      · exact ⟨hrequested, hclear.trans h.2⟩

/-- `quit()` is called when `loop()` has executed its `quit_ = false`. -/
def AfterClear (t : EventLoopThread) (e : Event) : Prop :=
  t.stores e = true → t.beforeClear = false

/-- **Requests that come after `quit_ = false` are kept, and no others.**  Where every `quit()` is called
after that assignment, no request is lost; and in a run that gets past it, no request is lost only if
every `quit()` was called after it. -/
theorem kept_iff_afterClear (es : List Event) :
    (Runs.Guarded step AfterClear start es → Runs.Throughout step Kept start es) ∧
      ((es.foldl step start).beforeClear = false → Runs.Throughout step Kept start es →
        Runs.Guarded step AfterClear start es) := by
  constructor
  · have htimely : start.Timely := ⟨inv_start, by simp [start], by simp [start]⟩
    intro h
    exact h.throughout (fun _ _ ht hguard => timely_step ht hguard)
      (fun _ ht => kept_iff.2 ht.kept) htimely
  · intro hpast hkept
    refine Runs.guarded_of_not_doomed (fun _ e h => inv_step h e) ?_
      (fun _ _ hinv hdoomed hk => doomed_step hinv hdoomed hk) inv_start hkept ?_
    · intro t e _ hviolated
      simp only [AfterClear, Classical.not_imp, Bool.not_eq_false] at hviolated
      exact doomed_of_early hviolated.1 hviolated.2
    · intro hdoomed
      have hbefore := hdoomed.2
      rw [hpast] at hbefore
      cases hbefore

/-- `startLoop` returns and the destructor calls `quit()` while the thread is between `loop_ = &loop` and
`quit_ = false`. -/
theorem early_quit_lost :
    ¬ Runs.Throughout step Kept start
      ([.ownerStep, .threadFunc, .threadFunc, .threadFunc] ++
        [.ownerStep, .ownerStep, .ownerStep, .ownerStep] ++ [.threadFunc, .threadFunc]) := by
  decide

end EventLoopThread
end Net
end Myoj
