import Mathlib.Algebra.GroupWithZero.Nat
import Mathlib.Data.List.Basic

/-!
# ThreadLoadCounter — how long a loop was awake and asleep

`EpollPoller::poll` calls `startSleep` before and `sleepWakeUp` after `epoll_wait`; `load` answers which
share of a window of time the thread was awake.  All times are `uint64_t` differences of clock readings.

* `ThreadLoadCounter` — the three functions, with a mark for a subtraction that wraps around;
* `Totals` — the three sums of `load`, and the trimming of the records;
* `Holds` — the sums are those of the records that are left, as numbers without a bound;
* `trim_holds` — as long as the whole window fits into 64 bits, trimming keeps it so, and no subtraction
  wraps around;
* `Bounded`, `Longest` — what trimming leaves is within the limits, and all that can be;
* `load_eq` — what `load` returns then.
-/

namespace Myoj
namespace Net

/-! ## Stretches of time -/

/-- A stretch of time the thread was asleep or awake. -/
structure Interval where
  length : Nat
  asleep : Bool
  deriving DecidableEq, Repr

namespace Interval

def total (l : List Interval) : Nat := (l.map length).sum

def awake (l : List Interval) : Nat := ((l.filter fun i => !i.asleep).map length).sum

variable (i : Interval) (l l' : List Interval)

@[simp] theorem total_nil : total [] = 0 := rfl

@[simp] theorem total_cons : total (i :: l) = i.length + total l := List.sum_cons

@[simp] theorem total_append : total (l ++ l') = total l + total l' := by
  simp [total]

@[simp] theorem awake_nil : awake [] = 0 := rfl

@[simp] theorem awake_cons : awake (i :: l) = (if i.asleep then 0 else i.length) + awake l := by
  cases h : i.asleep <;> simp [awake, h]

@[simp] theorem awake_append : awake (l ++ l') = awake l + awake l' := by
  simp [awake]

theorem awake_le_total : awake l ≤ total l := by
  induction l with
  | nil =>
      exact Nat.le_refl 0
  | cons i l ih =>
      rw [awake_cons, total_cons]
      split <;> omega

/-- The share of the whole is at most 100 per cent. -/
theorem share_le {n : Nat} (h : n ≤ awake l * 100) : n / total l ≤ 100 :=
  Nat.div_le_of_le_mul (Nat.le_trans h (Nat.mul_le_mul_right 100 (awake_le_total l)))

end Interval

/-! ## The counter -/

structure TimeRecord where
  _time : UInt64
  _sleep : Bool
  deriving DecidableEq, Repr

def TimeRecord.interval (rcd : TimeRecord) : Interval where
  length := rcd._time.toNat
  asleep := rcd._sleep

structure ThreadLoadCounter where
  _sleeping : Bool
  _last_sleep_time : UInt64
  _last_wake_time : UInt64
  _max_size : UInt64
  _max_usec : UInt64
  _time_list : List TimeRecord
  /-- Some subtraction had a result below zero. -/
  wrapped : Bool
  deriving DecidableEq, Repr

namespace ThreadLoadCounter

/-- `now` is the reading of the clock, here and below. -/
def new (max_size max_usec : UInt64) (now : Int64) : ThreadLoadCounter where
  _sleeping := true
  _last_sleep_time := now.toUInt64
  _last_wake_time := now.toUInt64
  _max_size := max_size
  _max_usec := max_usec
  _time_list := []
  wrapped := false

variable (c : ThreadLoadCounter) (now : Int64)

/-- `emplace_back`, and `pop_front` when there are too many. -/
def push (rcd : TimeRecord) : ThreadLoadCounter :=
  let _time_list := c._time_list ++ [rcd]
  { c with
    _time_list := if c._max_size.toNat < _time_list.length then _time_list.tail else _time_list }

def startSleep : ThreadLoadCounter :=
  let current_time := now.toUInt64
  let run_time := current_time - c._last_wake_time
  let c :=
    { c with
      _sleeping := true
      _last_sleep_time := current_time
      wrapped := c.wrapped || current_time < c._last_wake_time }
  c.push { _time := run_time, _sleep := false }

def sleepWakeUp : ThreadLoadCounter :=
  let current_time := now.toUInt64
  let sleep_time := current_time - c._last_sleep_time
  let c :=
    { c with
      _sleeping := false
      _last_wake_time := current_time
      wrapped := c.wrapped || current_time < c._last_sleep_time }
  c.push { _time := sleep_time, _sleep := true }

/-- The running sums of `load`. -/
structure Totals where
  totalSleepTime : UInt64
  totalRunTime : UInt64
  deriving DecidableEq, Repr

def Totals.add (t : Totals) (rcd : TimeRecord) : Totals :=
  if rcd._sleep then { t with totalSleepTime := t.totalSleepTime + rcd._time }
  else { t with totalRunTime := t.totalRunTime + rcd._time }

/-- The sums with `totalTime`, as the trimming changes them. -/
structure Window extends Totals where
  totalTime : UInt64
  wrapped : Bool
  deriving DecidableEq, Repr

def Window.drop (w : Window) (rcd : TimeRecord) : Window :=
  let wrapped := w.wrapped || w.totalTime < rcd._time
  if rcd._sleep then
    { totalSleepTime := w.totalSleepTime - rcd._time
      totalRunTime := w.totalRunTime
      totalTime := w.totalTime - rcd._time
      wrapped := wrapped || w.totalSleepTime < rcd._time }
  else
    { totalSleepTime := w.totalSleepTime
      totalRunTime := w.totalRunTime - rcd._time
      totalTime := w.totalTime - rcd._time
      wrapped := wrapped || w.totalRunTime < rcd._time }

/-- The `while` loop of `load`. -/
def trim (max_size max_usec : UInt64) : List TimeRecord → Window → List TimeRecord × Window
  | [], w => ([], w)
  | rcd :: rest, w =>
      if max_usec < w.totalTime ∨ max_size.toNat < (rcd :: rest).length then
        trim max_size max_usec rest (w.drop rcd)
      else (rcd :: rest, w)

/-- The stamp the reading of `load` is compared with. -/
def stamp : UInt64 := if c._sleeping then c._last_sleep_time else c._last_wake_time

/-- The sums over all records and the stretch that has not ended. -/
def untrimmed : Window :=
  let t := c._time_list.foldl Totals.add { totalSleepTime := 0, totalRunTime := 0 }
  let t := t.add { _time := now.toUInt64 - c.stamp, _sleep := c._sleeping }
  { t with
    totalTime := t.totalRunTime + t.totalSleepTime
    wrapped := c.wrapped || now.toUInt64 < c.stamp }

def load : Int32 × ThreadLoadCounter :=
  let (_time_list, w) := trim c._max_size c._max_usec c._time_list (c.untrimmed now)
  let c := { c with _time_list, wrapped := w.wrapped }
  if w.totalTime = 0 then (0, c)
  else ((w.totalRunTime * 100 / w.totalTime).toUInt32.toInt32, c)

/-! ## The sums as numbers -/

open Net.Interval

/-- The sums are those of the stretches `l`. -/
structure Totals.Sums (t : Totals) (l : List Interval) : Prop where
  run_eq : t.totalRunTime.toNat = awake l
  sleep_eq : t.totalSleepTime.toNat + awake l = total l

theorem Totals.Sums.add {t : Totals} {l : List Interval} (h : t.Sums l) (rcd : TimeRecord)
    (hfits : total (l ++ [rcd.interval]) < 2 ^ 64) : (t.add rcd).Sums (l ++ [rcd.interval]) := by
  obtain ⟨hrun, hsleep⟩ := h
  have hle := awake_le_total l
  simp only [total_append, total_cons, total_nil, TimeRecord.interval, Nat.add_zero] at hfits
  cases hrcd : rcd._sleep with
  | true =>
      constructor
      · simp [Totals.add, hrcd, TimeRecord.interval, hrun]
      · simp only [Totals.add, hrcd, if_true, UInt64.toNat_add, awake_append, awake_cons, awake_nil,
          total_append, total_cons, total_nil, TimeRecord.interval]
        rw [Nat.mod_eq_of_lt (by omega)]
        omega
  | false =>
      constructor
      · simp only [Totals.add, hrcd, Bool.false_eq_true, if_false, UInt64.toNat_add, awake_append,
          awake_cons, awake_nil, TimeRecord.interval]
        rw [Nat.mod_eq_of_lt (by omega)]
        omega
      · simp [Totals.add, hrcd, TimeRecord.interval]
        omega

theorem Totals.Sums.foldl {t : Totals} {l : List Interval} (h : t.Sums l) {recs : List TimeRecord}
    (hfits : total (l ++ recs.map TimeRecord.interval) < 2 ^ 64) :
    (recs.foldl Totals.add t).Sums (l ++ recs.map TimeRecord.interval) := by
  induction recs generalizing t l with
  | nil =>
      simpa using h
  | cons rcd recs ih =>
      have hfirst : total (l ++ [rcd.interval]) < 2 ^ 64 := by
        simp only [List.map_cons, total_append, total_cons, total_nil] at hfits ⊢
        omega
      have hrest := ih (h.add rcd hfirst) (by simpa using hfits)
      simpa using hrest

/-- The same with `totalTime`. -/
structure Window.Holds (w : Window) (l : List Interval) : Prop extends w.toTotals.Sums l where
  total_eq : w.totalTime.toNat = total l

/-- A term of a sum is taken off it. -/
theorem toNat_sub_of_eq_add {x y : UInt64} {n : Nat} (h : x.toNat = y.toNat + n) :
    (x - y).toNat = n ∧ ¬ x < y := by
  have hle : y ≤ x := by
    rw [UInt64.le_iff_toNat_le, h]
    exact Nat.le_add_right ..
  refine ⟨?_, UInt64.not_lt.2 hle⟩
  rw [UInt64.toNat_sub_of_le _ _ hle, h]
  exact Nat.add_sub_cancel_left ..

/-- The first record is taken off, and nothing goes below zero. -/
theorem Window.Holds.drop {w : Window} {rcd : TimeRecord} {l : List Interval}
    (h : w.Holds (rcd.interval :: l)) : (w.drop rcd).Holds l ∧ (w.drop rcd).wrapped = w.wrapped := by
  obtain ⟨⟨hrun, hsleep⟩, htotal⟩ := h
  rw [total_cons] at hsleep htotal
  rw [awake_cons] at hrun hsleep
  obtain ⟨hrest, hno⟩ := toNat_sub_of_eq_add htotal
  cases hrcd : rcd._sleep with
  | true =>
      simp only [TimeRecord.interval, hrcd, if_true, Nat.zero_add] at hrun hsleep
      have hsum : w.totalSleepTime.toNat = rcd._time.toNat + (total l - awake l) := by
        have hle := awake_le_total l
        omega
      obtain ⟨hasleep, hno'⟩ := toNat_sub_of_eq_add hsum
      refine ⟨⟨⟨?_, ?_⟩, ?_⟩, ?_⟩
      · simpa only [Window.drop, hrcd, if_true] using hrun
      · simp only [Window.drop, hrcd, if_true, hasleep]
        exact Nat.sub_add_cancel (awake_le_total l)
      · simpa only [Window.drop, hrcd, if_true] using hrest
      · simp [Window.drop, hrcd, hno, hno']
  | false =>
      simp only [TimeRecord.interval, hrcd, Bool.false_eq_true, if_false] at hrun hsleep
      obtain ⟨hawake, hno'⟩ := toNat_sub_of_eq_add hrun
      refine ⟨⟨⟨?_, ?_⟩, ?_⟩, ?_⟩
      · simpa only [Window.drop, hrcd, Bool.false_eq_true, if_false] using hawake
      · simp only [Window.drop, hrcd, Bool.false_eq_true, if_false]
        omega
      · simpa only [Window.drop, hrcd, Bool.false_eq_true, if_false] using hrest
      · simp [Window.drop, hrcd, hno, hno']

/-- What `load` may keep: nothing, or a window within both limits. -/
def Bounded (max_size max_usec : UInt64) (kept : List TimeRecord) (current : Interval) : Prop :=
  kept = [] ∨
    total (kept.map TimeRecord.interval ++ [current]) ≤ max_usec.toNat ∧ kept.length ≤ max_size.toNat

/-- No record leaves that need not: among the ends of the records that are within both limits, `kept` is the
longest. -/
def Longest (max_size max_usec : UInt64) (recs kept : List Interval) (current : Interval) : Prop :=
  ∀ rest, rest <:+ recs → total (rest ++ [current]) ≤ max_usec.toNat → rest.length ≤ max_size.toNat →
    rest.length ≤ kept.length

/-- **Trimming** takes records off the front until the window is within the limits and no further, with the
right sums all the way and nothing below zero. -/
theorem trim_holds (max_size max_usec : UInt64) {current : Interval} (recs : List TimeRecord) (w : Window)
    (h : w.Holds (recs.map TimeRecord.interval ++ [current])) :
    ∃ dropped kept, recs = dropped ++ kept ∧ (trim max_size max_usec recs w).1 = kept ∧
      (trim max_size max_usec recs w).2.Holds (kept.map TimeRecord.interval ++ [current]) ∧
      (trim max_size max_usec recs w).2.wrapped = w.wrapped ∧
      Bounded max_size max_usec kept current ∧
      Longest max_size max_usec (recs.map TimeRecord.interval) (kept.map TimeRecord.interval) current := by
  induction recs generalizing w with
  | nil =>
      exact ⟨[], [], rfl, rfl, h, rfl, Or.inl rfl, fun rest hrest _ _ => hrest.length_le⟩
  | cons rcd rest ih =>
      simp only [trim]
      split
      · rename_i hbeyond
        obtain ⟨hdrop, hwrapped⟩ := Window.Holds.drop (by simpa using h)
        obtain ⟨dropped, kept, heq, hkept, hholds, hsame, hbounded, hlongest⟩ := ih (w.drop rcd) hdrop
        refine ⟨rcd :: dropped, kept, by rw [heq]; rfl, hkept, hholds, hsame.trans hwrapped, hbounded, ?_⟩
        intro shorter hshorter husec hsize
        rcases List.suffix_cons_iff.1 hshorter with rfl | hrest
        · -- with the record that leaves the window is beyond a limit
          rw [UInt64.lt_iff_toNat_lt, h.total_eq] at hbeyond
          rw [List.length_cons, List.length_map] at hsize
          rw [List.length_cons] at hbeyond
          have husec' : total ((rcd :: rest).map TimeRecord.interval ++ [current]) ≤ max_usec.toNat := husec
          omega
        · exact hlongest shorter hrest husec hsize
      · rename_i hwithin
        refine ⟨[], rcd :: rest, rfl, rfl, h, rfl, Or.inr ?_, fun rest hrest _ _ => hrest.length_le⟩
        rw [not_or, UInt64.not_lt, Nat.not_lt, UInt64.le_iff_toNat_le, h.total_eq] at hwithin
        exact hwithin

/-- The stretch from the stamp to the reading. -/
def current (c : ThreadLoadCounter) (now : Int64) : Interval where
  length := now.toUInt64.toNat - c.stamp.toNat
  asleep := c._sleeping

/-- All `load` has to sum up. -/
def window (c : ThreadLoadCounter) (now : Int64) : List Interval :=
  c._time_list.map TimeRecord.interval ++ [c.current now]

theorem toInt_toInt32 {q : UInt64} (h : q.toNat ≤ 100) : q.toUInt32.toInt32.toInt = q.toNat := by
  have hnarrow : q.toUInt32.toNat = q.toNat := by
    rw [UInt64.toNat_toUInt32]
    exact Nat.mod_eq_of_lt (by omega)
  have hint : q.toUInt32.toInt32.toInt = (q.toUInt32.toNat : Int).bmod (2 ^ 32) :=
    BitVec.toInt_eq_toNat_bmod _
  rw [hint, hnarrow]
  exact Int.bmod_eq_of_le (by omega) (by omega)

section load

variable {c : ThreadLoadCounter} {now : Int64} (hstamp : c.stamp ≤ now.toUInt64)
  (hfits : total (c.window now) < 2 ^ 64)

include hstamp hfits

theorem untrimmed_holds : (c.untrimmed now).Holds (c.window now) := by
  have hcurrent : { _time := now.toUInt64 - c.stamp, _sleep := c._sleeping : TimeRecord }.interval =
      c.current now := by
    rw [current, TimeRecord.interval, UInt64.toNat_sub_of_le _ _ hstamp]
  have hrecs : (c._time_list.foldl Totals.add { totalSleepTime := 0, totalRunTime := 0 }).Sums
      ([] ++ c._time_list.map TimeRecord.interval) := by
    refine Totals.Sums.foldl ⟨rfl, rfl⟩ ?_
    rw [window, total_append] at hfits
    rw [List.nil_append]
    omega
  have hsums := hrecs.add { _time := now.toUInt64 - c.stamp, _sleep := c._sleeping }
    (by rwa [hcurrent])
  rw [List.nil_append, hcurrent] at hsums
  refine ⟨hsums, ?_⟩
  have hsleep := hsums.sleep_eq
  simp only [untrimmed, UInt64.toNat_add]
  rw [hsums.run_eq, Nat.add_comm, hsleep]
  exact Nat.mod_eq_of_lt hfits

/-- **One call of `load`**, when the clock is not behind the stamp and the window fits into 64 bits. -/
theorem load_eq :
    ∃ dropped kept, c._time_list = dropped ++ kept ∧
      (c.load now).2 = { c with _time_list := kept } ∧
      Bounded c._max_size c._max_usec kept (c.current now) ∧
      Longest c._max_size c._max_usec (c._time_list.map TimeRecord.interval)
        (kept.map TimeRecord.interval) (c.current now) ∧
      (c.load now).1.toInt =
        (awake (kept.map TimeRecord.interval ++ [c.current now]) * 100 % 2 ^ 64 /
          total (kept.map TimeRecord.interval ++ [c.current now]) : Nat) := by
  obtain ⟨dropped, kept, heq, hkept, hleft, hwrapped, hbounded, hlongest⟩ :=
    trim_holds c._max_size c._max_usec c._time_list _
      (untrimmed_holds hstamp hfits)
  have hno : (c.untrimmed now).wrapped = c.wrapped := by
    simp [untrimmed, UInt64.not_lt.2 hstamp]
  refine ⟨dropped, kept, heq, ?_, hbounded, hlongest, ?_⟩
  · simp only [load]
    split <;> rw [hkept, hwrapped, hno]
  · have hrun := hleft.run_eq
    have htotal := hleft.total_eq
    have hquotient : ((trim c._max_size c._max_usec c._time_list (c.untrimmed now)).2.totalRunTime * 100 /
          (trim c._max_size c._max_usec c._time_list (c.untrimmed now)).2.totalTime).toNat =
        awake (kept.map TimeRecord.interval ++ [c.current now]) * 100 % 2 ^ 64 /
          total (kept.map TimeRecord.interval ++ [c.current now]) := by
      rw [UInt64.toNat_div, UInt64.toNat_mul, hrun, htotal]
      rfl
    simp only [load]
    split
    · rename_i hzero
      rw [hzero] at htotal
      rw [← htotal]
      simp
    · rw [toInt_toInt32, hquotient]
      rw [hquotient]
      -- a share of the whole, also where the product has lost its upper bits
      exact share_le _ (Nat.mod_le ..)

end load

end ThreadLoadCounter
end Net
end Myoj
