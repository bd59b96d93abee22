import Mathlib.Data.Prod.Lex
import Mathlib.Logic.Function.Basic
import Myoj.Lib.Effect
import Myoj.Lib.OrderedSet
import Myoj.Lib.Runs

/-!
# TimerQueue — the timers of an event loop

A timer lives on the heap; the queue holds its address under its expiration, in order.

* `Timer`, `Entry` — a timer, and what stands for it in the set;
* `addTimer`, `handleRead` — what the loop does, with the clock readings and the callbacks as inputs;
* `Event`, `step` — the runs.

Timestamps and delays are whole microseconds.  A pointer that is followed to no live timer is the fault
`dangling`; `taken` stands for an address that `new` does not return, so it is no fault of the code.
-/

namespace Myoj
namespace Timers

open Function (update)

/-- Microseconds since the epoch. -/
abbrev Timestamp := Int

def kMicroSecondsPerSecond : Int := 1000 * 1000

/-- `addTime`, with the delay in microseconds. -/
def addTime (timestamp : Timestamp) (delta : Int) : Timestamp := timestamp + delta

structure Timer where
  /-- The how manieth timer it is. -/
  id : Nat
  expiration_ : Timestamp
  interval_ : Int
  deriving DecidableEq, Repr

namespace Timer

/-- Set by the constructor; neither member changes. -/
def repeat_ (t : Timer) : Bool := 0 < t.interval_

def restart (t : Timer) (now : Timestamp) : Timer :=
  { t with expiration_ := if t.repeat_ then addTime now t.interval_ else 0 }

@[simp] theorem id_restart (t : Timer) (now : Timestamp) : (t.restart now).id = t.id := rfl

@[simp] theorem repeat_restart (t : Timer) (now : Timestamp) : (t.restart now).repeat_ = t.repeat_ := rfl

/-- A timer that repeats is due again after its interval. -/
theorem restart_of_repeat {t : Timer} (h : t.repeat_ = true) (now : Timestamp) :
    t.restart now = { t with expiration_ := now + t.interval_ } := by
  rw [restart, if_pos h]
  rfl

end Timer

/-- `std::pair<Timestamp, Timer*>`, compared by the time first. -/
abbrev Entry := Timestamp ×ₗ Nat

def Entry.first (e : Entry) : Timestamp := (ofLex e).1

def Entry.second (e : Entry) : Nat := (ofLex e).2

theorem Entry.ext {e e' : Entry} (hfirst : e.first = e'.first) (hsecond : e.second = e'.second) :
    e = e' :=
  Prod.ext hfirst hsecond

theorem Entry.first_mono {e e' : Entry} (h : e ≤ e') : e.first ≤ e'.first := Prod.Lex.monotone_fst e e' h

theorem Entry.lt_of_first_lt {e e' : Entry} (h : e.first < e'.first) : e < e' :=
  Prod.Lex.lt_iff.2 (Or.inl h)

/-- The entry of the timer at an address. -/
def Timer.entry (t : Timer) (timer : Nat) : Entry := toLex (t.expiration_, timer)

@[simp] theorem Timer.first_entry (t : Timer) (timer : Nat) : (t.entry timer).first = t.expiration_ := rfl

@[simp] theorem Timer.second_entry (t : Timer) (timer : Nat) : (t.entry timer).second = timer := rfl

def UINTPTR_MAX : Nat := 2 ^ 64 - 1

/-- Behind every entry of a timer that is due, before every other. -/
def sentry (now : Timestamp) : Entry := toLex (now, UINTPTR_MAX)

theorem lt_sentry_iff {e : Entry} {now : Timestamp} (h : e.second < UINTPTR_MAX) :
    e < sentry now ↔ e.first ≤ now := by
  rw [Prod.Lex.lt_iff]
  show e.first < now ∨ e.first = now ∧ e.second < UINTPTR_MAX ↔ e.first ≤ now
  rw [le_iff_lt_or_eq, and_iff_left h]

/-- `struct timespec`. -/
structure Timespec where
  tv_sec : Int
  tv_nsec : Int
  deriving DecidableEq, Repr

def Timespec.microSeconds (ts : Timespec) : Int := ts.tv_sec * kMicroSecondsPerSecond + ts.tv_nsec / 1000

/-- What the timerfd was armed with, and the clock reading this was computed from. -/
structure Arming where
  it_value : Timespec
  reading : Timestamp
  deriving DecidableEq, Repr

def Arming.delay (a : Arming) : Int := a.it_value.microSeconds

/-- A value of zero disarms. -/
def timerfd_settime (newValue : Timespec) (reading : Timestamp) : Option Arming :=
  if newValue.tv_sec = 0 ∧ newValue.tv_nsec = 0 then none else some ⟨newValue, reading⟩

inductive Fault where
  | dangling
  | taken
  deriving DecidableEq, Repr

structure TimerQueue where
  timers_ : OrderedSet Entry
  /-- The live timers. -/
  heap : Nat → Option Timer
  /-- `none` when it is disarmed. -/
  timerfd_ : Option Arming
  /-- How many timers were constructed. -/
  born : Nat
  /-- The timers whose callback was called, in order. -/
  ran : List Nat
  /-- The timers that were deleted, in order. -/
  deleted : List Nat

/-- The arguments of `addTimer`, the address the timer gets, and the clock when it is put in. -/
structure NewTimer where
  addr : Nat
  when' : Timestamp
  interval : Int
  now : Timestamp

/-- The timer that is constructed. -/
def NewTimer.timer (n : NewTimer) (id : Nat) : Timer := ⟨id, n.when', n.interval⟩

/-- What the environment does while `handleRead` runs.  The callbacks and the clock are given by timer. -/
structure Wakeup where
  /-- The timerfd has fired, and was not set again before it is read. -/
  fired : Bool
  now : Timestamp
  callback : Nat → List NewTimer
  restartAt : Nat → Timestamp
  resetAt : Nat → Timestamp

namespace TimerQueue

def start : TimerQueue where
  timers_ := .empty
  heap := fun _ => none
  timerfd_ := none
  born := 0
  ran := []
  deleted := []

section operations

variable (q : TimerQueue)

/-- Follow a pointer. -/
def deref (timer : Nat) : Except Fault Timer :=
  match q.heap timer with
  | some t => .ok t
  | none => .error .dangling

def resetTimerfd (expiration now : Timestamp) : TimerQueue :=
  let microSecondDif := expiration - now
  let microSecondDif := if microSecondDif < 100 then 100 else microSecondDif
  let ts : Timespec :=
    { tv_sec := microSecondDif / kMicroSecondsPerSecond
      tv_nsec := microSecondDif % kMicroSecondsPerSecond * 1000 }
  { q with timerfd_ := timerfd_settime ts now }

/-- `it == timers_.end() || when < it->first`, with `it` at `timers_.begin()` -/
def earlier (when' : Timestamp) : Bool :=
  match q.timers_.begin? with
  | none => true
  | some it => when' < it.first

def insert (timer : Nat) : Except Fault (Bool × TimerQueue) := do
  let t ← q.deref timer
  let earliestChanged := q.earlier t.expiration_
  return (earliestChanged, { q with timers_ := q.timers_.insert (t.entry timer) })

def addTimerInLoop (timer : Nat) (now : Timestamp) : Except Fault TimerQueue := do
  let (earliestChanged, q) ← q.insert timer
  if earliestChanged then
    let t ← q.deref timer
    return q.resetTimerfd t.expiration_ now
  else
    return q

/-- `new Timer(...)` -/
def construct (n : NewTimer) : Except Fault TimerQueue :=
  if (q.heap n.addr).isSome ∨ UINTPTR_MAX ≤ n.addr then .error .taken
  else .ok { q with heap := update q.heap n.addr (some (n.timer q.born)), born := q.born + 1 }

/-- `addTimer`, and the task it gives to the loop. -/
def addTimer (n : NewTimer) : Except Fault TimerQueue := do
  let q ← q.construct n
  q.addTimerInLoop n.addr n.now

/-- Firing has disarmed the timerfd; reading it does not change that. -/
def readTimerFd (fired : Bool) : TimerQueue :=
  { q with timerfd_ := if fired then none else q.timerfd_ }

def getExpired (now : Timestamp) : List Entry × TimerQueue :=
  (q.timers_.before (sentry now), { q with timers_ := q.timers_.eraseBefore (sentry now) })

/-- `it.second->run()` -/
def run (w : Wakeup) (it : Entry) : Except Fault TimerQueue := do
  let t ← q.deref it.second
  (w.callback t.id).foldlM addTimer { q with ran := q.ran ++ [t.id] }

/-- `delete it.second` -/
def delete (timer : Nat) : Except Fault TimerQueue := do
  let t ← q.deref timer
  return { q with heap := update q.heap timer none, deleted := q.deleted ++ [t.id] }

/-- The timerfd is set for the first timer, if there is one. -/
def resetToFirst (now : Timestamp) : Except Fault TimerQueue :=
  match q.timers_.begin? with
  | none => return q
  | some first => do
      let t ← q.deref first.second
      return q.resetTimerfd t.expiration_ now

/-- One round of `reset`. -/
def resetOne (w : Wakeup) (it : Entry) : Except Fault TimerQueue := do
  let t ← q.deref it.second
  let q ←
    if t.repeat_ then do
      let restarted := t.restart (w.restartAt t.id)
      let (_, q) ← { q with heap := update q.heap it.second (some restarted) }.insert it.second
      pure q
    else
      q.delete it.second
  q.resetToFirst (w.resetAt t.id)

def reset (w : Wakeup) (expired : List Entry) : Except Fault TimerQueue :=
  expired.foldlM (fun q it => q.resetOne w it) q

def handleRead (w : Wakeup) : Except Fault TimerQueue := do
  let q := q.readTimerFd w.fired
  let (expired, q) := q.getExpired w.now
  let q ← expired.foldlM (fun q it => q.run w it) q
  q.reset w expired

end operations

inductive Event where
  | addTimer (n : NewTimer)
  | handleRead (w : Wakeup)

def perform (q : TimerQueue) : Event → Except Fault TimerQueue
  | .addTimer n => q.addTimer n
  | .handleRead w => q.handleRead w

/-- What cannot happen does not. -/
def step (q : TimerQueue) (e : Event) : TimerQueue :=
  match q.perform e with
  | .ok q' => q'
  | .error _ => q

/-- What every possible outcome has, and the state before, the next state has. -/
theorem step_of_ends {q : TimerQueue} {e : Event} {P : TimerQueue → Prop} {E : Fault → Prop}
    (hends : Effect.Ends (q.perform e) P E) (h : P q) : P (step q e) := by
  unfold step
  unfold Effect.Ends at hends
  split at hends
  · next q' hok =>
    rw [hok]
    exact hends
  · next fault hfault =>
    rw [hfault]
    exact h

/-! ## What holds between the operations -/

/-- The timerfd is armed for the first timer, with a delay from the clock reading it was computed from. -/
def Armed (q : TimerQueue) : Prop :=
  match q.timers_.begin? with
  | none => True
  | some first =>
      match q.timerfd_ with
      | none => False
      | some a => a.delay ≤ max 100 (first.first - a.reading)

instance : DecidablePred Armed := fun q => by
  unfold Armed
  cases q.timers_.begin? with
  | none =>
      exact .isTrue trivial
  | some first =>
      cases q.timerfd_ with
      | none =>
          exact .isFalse id
      | some a =>
          exact inferInstanceAs (Decidable (a.delay ≤ _))

/-- The entries of the set, and those taken out of it, are the live timers under their expirations. -/
structure Inv (q : TimerQueue) (pending : List Entry) : Prop where
  keyed : ∀ e, (e ∈ q.timers_ ∨ e ∈ pending) ↔ ∃ t, q.heap e.second = some t ∧ e = t.entry e.second
  apart : ∀ e ∈ pending, e ∉ q.timers_
  nodup : pending.Nodup
  low : ∀ a t, q.heap a = some t → a < UINTPTR_MAX
  fresh : ∀ a t, q.heap a = some t → t.id < q.born
  distinct : ∀ a b t u, q.heap a = some t → q.heap b = some u → t.id = u.id → a = b

theorem inv_start : start.Inv [] where
  keyed := by simp [start]
  apart := by simp
  nodup := List.nodup_nil
  low := fun _ _ h => by cases h
  fresh := fun _ _ h => by cases h
  distinct := fun _ _ _ _ h => by cases h

section lemmas

variable {q : TimerQueue} {pending : List Entry} {timer : Nat} {t : Timer}

theorem deref_of_live (h : q.heap timer = some t) : q.deref timer = .ok t := by
  rw [deref, h]

@[simp] theorem resetTimerfd_timers_ (expiration now : Timestamp) :
    (q.resetTimerfd expiration now).timers_ = q.timers_ := rfl

@[simp] theorem resetTimerfd_heap (expiration now : Timestamp) :
    (q.resetTimerfd expiration now).heap = q.heap := rfl

@[simp] theorem resetTimerfd_born (expiration now : Timestamp) :
    (q.resetTimerfd expiration now).born = q.born := rfl

@[simp] theorem resetTimerfd_ran (expiration now : Timestamp) :
    (q.resetTimerfd expiration now).ran = q.ran := rfl

@[simp] theorem resetTimerfd_deleted (expiration now : Timestamp) :
    (q.resetTimerfd expiration now).deleted = q.deleted := rfl

theorem resetTimerfd_eq (expiration now : Timestamp) :
    q.resetTimerfd expiration now =
      { q with timerfd_ := (q.resetTimerfd expiration now).timerfd_ } := rfl

/-- Setting the timerfd arms it, with no less than 100 microseconds. -/
theorem resetTimerfd_timerfd_ (expiration now : Timestamp) :
    ∃ a, (q.resetTimerfd expiration now).timerfd_ = some a ∧ a.reading = now ∧
      a.delay = max 100 (expiration - now) := by
  have hdelay : ∀ d : Int, 100 ≤ d →
      ∃ a, timerfd_settime ⟨d / kMicroSecondsPerSecond, d % kMicroSecondsPerSecond * 1000⟩ now = some a ∧
        a.reading = now ∧ a.delay = d := by
    intro d hd
    have hvalue : ¬ (d / kMicroSecondsPerSecond = 0 ∧ d % kMicroSecondsPerSecond * 1000 = 0) := by
      simp only [kMicroSecondsPerSecond]
      omega
    refine ⟨_, if_neg hvalue, rfl, ?_⟩
    simp only [Arming.delay, Timespec.microSeconds, kMicroSecondsPerSecond]
    omega
  by_cases hshort : expiration - now < 100
  · have hmax : max 100 (expiration - now) = 100 := max_eq_left hshort.le
    simp only [resetTimerfd, if_pos hshort, hmax]
    exact hdelay 100 le_rfl
  · have hlong : 100 ≤ expiration - now := not_lt.1 hshort
    simp only [resetTimerfd, if_neg hshort, max_eq_right hlong]
    exact hdelay _ hlong

/-- Set for the first timer, the timerfd is armed. -/
theorem armed_resetTimerfd {first : Entry} (h : q.timers_.begin? = some first) (now : Timestamp) :
    (q.resetTimerfd first.first now).Armed := by
  rcases resetTimerfd_timerfd_ (q := q) first.first now with ⟨a, harmed, hreading, hdelay⟩
  simp only [Armed, resetTimerfd_timers_, h, harmed]
  rw [hdelay, hreading]

theorem insert_of_live (h : q.heap timer = some t) :
    q.insert timer =
      .ok (q.earlier t.expiration_, { q with timers_ := q.timers_.insert (t.entry timer) }) := by
  simp only [insert, deref_of_live h]
  rfl

theorem earlier_eq_true_iff {when' : Timestamp} :
    q.earlier when' = true ↔ ∀ it, q.timers_.begin? = some it → when' < it.first := by
  unfold earlier
  cases q.timers_.begin? with
  | none =>
      simp
  | some it =>
      simp

/-- The first time stays when what is inserted is not earlier. -/
theorem armed_insert {it : Entry} (hbegin : q.timers_.begin? = some it) (hlater : it.first ≤ t.expiration_)
    (h : q.Armed) : ({ q with timers_ := q.timers_.insert (t.entry timer) } : TimerQueue).Armed := by
  have hfirst : (min (t.entry timer) it).first = it.first := by
    rcases le_total (t.entry timer) it with hle | hle
    · rw [min_eq_left hle]
      exact le_antisymm (Entry.first_mono hle) hlater
    · rw [min_eq_right hle]
  have hinserted : (q.timers_.insert (t.entry timer)).begin? = some (min (t.entry timer) it) := by
    rw [OrderedSet.begin?_insert, hbegin]
  simp only [Armed, hbegin] at h
  simp only [Armed, hinserted, hfirst]
  exact h

/-- What is put in front is what the timerfd is set for. -/
theorem begin?_insert_of_earlier (h : ∀ it, q.timers_.begin? = some it → t.expiration_ < it.first) :
    (q.timers_.insert (t.entry timer)).begin? = some (t.entry timer) := by
  rw [OrderedSet.begin?_insert]
  cases hbegin : q.timers_.begin? with
  | none =>
      rfl
  | some it =>
      have hlt : t.entry timer < it := Entry.lt_of_first_lt (h it hbegin)
      exact congrArg some (min_eq_left hlt.le)

theorem addTimerInLoop_eq (h : q.heap timer = some t) (now : Timestamp) :
    q.addTimerInLoop timer now =
      .ok (if q.earlier t.expiration_ then
        ({ q with timers_ := q.timers_.insert (t.entry timer) } : TimerQueue).resetTimerfd t.expiration_ now
      else { q with timers_ := q.timers_.insert (t.entry timer) }) := by
  have hlive : ({ q with timers_ := q.timers_.insert (t.entry timer) } : TimerQueue).deref timer =
      .ok t := deref_of_live h
  unfold addTimerInLoop
  rw [insert_of_live h]
  simp only [bind, Except.bind, pure, Except.pure, hlive]
  cases q.earlier t.expiration_ with
  | true =>
      simp only [if_true]
  | false =>
      simp only [Bool.false_eq_true, if_false]

/-- A timer is put in, and an armed timerfd stays armed. -/
theorem addTimerInLoop_of_live (h : q.heap timer = some t) (now : Timestamp) :
    ∃ q', q.addTimerInLoop timer now = .ok q' ∧ (q.Armed → q'.Armed) ∧
      ∃ timerfd, q' = { q with timers_ := q.timers_.insert (t.entry timer), timerfd_ := timerfd } := by
  rw [addTimerInLoop_eq h]
  cases hearlier : q.earlier t.expiration_ with
  | true =>
      have hfirst : ∀ it, q.timers_.begin? = some it → t.expiration_ < it.first :=
        earlier_eq_true_iff.1 hearlier
      have harmed := armed_resetTimerfd (q := { q with timers_ := q.timers_.insert (t.entry timer) })
        (begin?_insert_of_earlier hfirst) now
      exact ⟨_, rfl, fun _ => harmed, _, resetTimerfd_eq _ _⟩
  | false =>
      refine ⟨_, rfl, ?_, q.timerfd_, rfl⟩
      cases hbegin : q.timers_.begin? with
      | none =>
          simp [earlier, hbegin] at hearlier
      | some it =>
          have hlater : it.first ≤ t.expiration_ := by simpa [earlier, hbegin] using hearlier
          exact armed_insert hbegin hlater

end lemmas

/-- What `addTimer` does to the queue. -/
structure Added (q : TimerQueue) (n : NewTimer) (q' : TimerQueue) : Prop where
  free : q.heap n.addr = none
  timers : q'.timers_ = q.timers_.insert ((n.timer q.born).entry n.addr)
  heap : q'.heap = update q.heap n.addr (some (n.timer q.born))
  born : q'.born = q.born + 1
  ran : q'.ran = q.ran
  deleted : q'.deleted = q.deleted

section addTimer

variable {q q' : TimerQueue} {pending : List Entry} {n : NewTimer}

/-- An address that does not hold a timer is not that of a timer that does. -/
theorem Inv.ne_of_free (hfree : q.heap n.addr = none) {a : Nat} {t : Timer} (h : q.heap a = some t) :
    a ≠ n.addr := by
  rintro rfl
  rw [hfree] at h
  cases h

theorem Added.inv (h : q.Added n q') (hlow : n.addr < UINTPTR_MAX) (hinv : q.Inv pending) :
    q'.Inv pending where
  keyed := by
    intro e
    rw [h.timers, h.heap, OrderedSet.mem_insert, or_assoc, hinv.keyed e]
    constructor
    · rintro (rfl | ⟨t, hlive, hkey⟩)
      · exact ⟨n.timer q.born, Function.update_self _ _ _, rfl⟩
      · refine ⟨t, ?_, hkey⟩
        rw [Function.update_of_ne (Inv.ne_of_free h.free hlive)]
        exact hlive
    · rintro ⟨t, hlive, hkey⟩
      by_cases hnew : e.second = n.addr
      · rw [hnew, Function.update_self] at hlive
        cases hlive
        left
        rw [hkey, hnew]
      · rw [Function.update_of_ne hnew] at hlive
        -- the entry of another timer
        exact Or.inr ⟨t, hlive, hkey⟩
  apart := by
    intro e he
    rw [h.timers, OrderedSet.mem_insert]
    rintro (hnew | hold)
    · rcases (hinv.keyed e).1 (Or.inr he) with ⟨t, hlive, -⟩
      rw [hnew] at hlive
      exact Inv.ne_of_free h.free hlive rfl
    · exact hinv.apart e he hold
  nodup := hinv.nodup
  low := by
    intro a t hlive
    rw [h.heap, Function.update_apply] at hlive
    split at hlive
    · next ha => rwa [ha]
    · exact hinv.low a t hlive
  fresh := by
    intro a t hlive
    rw [h.born]
    rw [h.heap, Function.update_apply] at hlive
    split at hlive
    · cases hlive
      exact Nat.lt_succ_self _
    · exact Nat.lt_succ_of_lt (hinv.fresh a t hlive)
  distinct := by
    intro a b t u ht hu hid
    rw [h.heap, Function.update_apply] at ht hu
    split at ht
    · next ha =>
      split at hu
      · next hb => exact ha.trans hb.symm
      · cases ht
        -- the new number is above all others
        exact absurd hid.symm (hinv.fresh b u hu).ne
    · split at hu
      · cases hu
        exact absurd hid (hinv.fresh a t ht).ne
      · exact hinv.distinct a b t u ht hu hid

/-- `new` does not return the address. -/
def Refuses (q : TimerQueue) (n : NewTimer) : Prop := (q.heap n.addr).isSome ∨ UINTPTR_MAX ≤ n.addr

/-- `addTimer` puts its timer in, if `new` may return its address. -/
theorem addTimer_ends (h : q.Inv pending) (n : NewTimer) :
    Effect.Ends (q.addTimer n) (fun q' => q'.Inv pending ∧ q.Added n q' ∧ (q.Armed → q'.Armed))
      fun fault => fault = .taken ∧ q.Refuses n := by
  unfold addTimer construct
  by_cases htaken : (q.heap n.addr).isSome ∨ UINTPTR_MAX ≤ n.addr
  · rw [if_pos htaken]
    exact ⟨rfl, htaken⟩
  · rw [if_neg htaken]
    rw [not_or, Option.not_isSome_iff_eq_none, not_le] at htaken
    rcases htaken with ⟨hfree, hlow⟩
    have hlive : ({ q with heap := update q.heap n.addr (some (n.timer q.born)), born := q.born + 1 } :
        TimerQueue).heap n.addr = some (n.timer q.born) := Function.update_self _ _ _
    rcases addTimerInLoop_of_live hlive n.now with ⟨q', hok, harmed, timerfd, hq'⟩
    have hadded : q.Added n q' := by
      rw [hq']
      exact ⟨hfree, rfl, rfl, rfl, rfl, rfl⟩
    show Effect.Ends (TimerQueue.addTimerInLoop _ n.addr n.now) _ _
    rw [hok]
    exact ⟨hadded.inv hlow h, hadded, harmed⟩

end addTimer

end TimerQueue

end Timers
end Myoj
