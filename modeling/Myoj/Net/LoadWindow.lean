import Myoj.Lib.Runs
import Myoj.Net.ThreadLoadCounter

/-!
# LoadWindow — runs of the load counter against the time line

What a thread has done since its counter was made is a time line: one stretch after the other, awake and
asleep in turn.  The counter keeps the last of them.

* `TimeLine` — the stretches of a run, as the readings have them;
* `Measured` — the counter beside the time line, and what `load` has returned;
* `Tiled` — the records are the last stretches, and their sum is what lies between two readings;
* `recorded` — what a switch makes of the records;
* `exact_run` — with a steady clock `load` answers for a window of the time line;
* `in_range_run` — with any clock: which runs keep the load between 0 and 100.
-/

namespace Myoj
namespace Net

/-- The calls on a counter, each with the reading of the clock. -/
inductive LoadCall where
  | startSleep (now : Int64)
  | sleepWakeUp (now : Int64)
  | load (now : Int64)
  deriving DecidableEq, Repr

/-- The reading as the counter stores it. -/
def LoadCall.reading : LoadCall → UInt64
  | .startSleep now => now.toUInt64
  | .sleepWakeUp now => now.toUInt64
  | .load now => now.toUInt64

/-- The thread is awake when its counter is made. -/
structure TimeLine where
  origin : Nat
  /-- Where the last stretch ended. -/
  switched : Nat
  /-- The last reading. -/
  clock : Nat
  asleep : Bool
  intervals : List Interval
  deriving DecidableEq, Repr

namespace TimeLine

def new (now : Int64) : TimeLine where
  origin := now.toUInt64.toNat
  switched := now.toUInt64.toNat
  clock := now.toUInt64.toNat
  asleep := false
  intervals := []

/-- The stretch that ends. -/
def ended (l : TimeLine) (reading : Nat) : Interval where
  length := reading - l.switched
  asleep := l.asleep

def step (l : TimeLine) (call : LoadCall) : TimeLine :=
  let reading := call.reading.toNat
  match call with
  | .startSleep _ =>
      { l with
        switched := reading
        clock := reading
        asleep := true
        intervals := l.intervals ++ [l.ended reading] }
  | .sleepWakeUp _ =>
      { l with
        switched := reading
        clock := reading
        asleep := false
        intervals := l.intervals ++ [l.ended reading] }
  | .load _ => { l with clock := reading }

end TimeLine

/-- A counter in a run. -/
structure Measured where
  counter : ThreadLoadCounter
  line : TimeLine
  /-- What `load` has returned. -/
  returned : List Int32
  deriving DecidableEq, Repr

namespace Measured

open Net.Interval ThreadLoadCounter

def start (max_size max_usec : UInt64) (now : Int64) : Measured where
  counter := .new max_size max_usec now
  line := .new now
  returned := []

def step (s : Measured) (call : LoadCall) : Measured :=
  let line := s.line.step call
  match call with
  | .startSleep now => { s with counter := s.counter.startSleep now, line }
  | .sleepWakeUp now => { s with counter := s.counter.sleepWakeUp now, line }
  | .load now =>
      let (result, counter) := s.counter.load now
      { counter, line, returned := s.returned ++ [result] }

/-- `startSleep` and `sleepWakeUp` in turn, as `EpollPoller::poll` calls them. -/
def InTurn (s : Measured) : LoadCall → Prop
  | .startSleep _ => s.line.asleep = false
  | .sleepWakeUp _ => s.line.asleep = true
  | .load _ => True

/-- The stamp the reading of a call is compared with. -/
def stampOf (s : Measured) : LoadCall → UInt64
  | .startSleep _ => s.counter._last_wake_time
  | .sleepWakeUp _ => s.counter._last_sleep_time
  | .load _ => s.counter.stamp

/-- The clock is not behind the stamp the call takes its difference from. -/
def NotBehind (s : Measured) (call : LoadCall) : Prop := s.stampOf call ≤ call.reading

instance (s : Measured) (call : LoadCall) : Decidable (s.NotBehind call) :=
  inferInstanceAs (Decidable (_ ≤ _))

/-! ### The records on the time line -/

/-- The records of the counter are the last stretches of the time line, which runs from the making of the
counter to the last change; the stamps are the end of it. -/
structure Tiled (s : Measured) : Prop where
  suffix : ∃ dropped, s.line.intervals = dropped ++ s.counter._time_list.map TimeRecord.interval
  total_eq : s.line.origin + total s.line.intervals = s.line.switched
  stamp_eq : s.counter.stamp.toNat = s.line.switched
  wake_eq : s.line.asleep = false → s.counter._last_wake_time.toNat = s.line.switched
  sleep_eq : s.line.asleep = true → s.counter._last_sleep_time.toNat = s.line.switched
  sleeping_eq : s.line.intervals ≠ [] → s.counter._sleeping = s.line.asleep

theorem tiled_start (max_size max_usec : UInt64) (now : Int64) :
    (start max_size max_usec now).Tiled where
  suffix := ⟨[], rfl⟩
  total_eq := rfl
  stamp_eq := rfl
  wake_eq := fun _ => rfl
  sleep_eq := fun _ => rfl
  sleeping_eq := fun h => absurd rfl h

section steps

variable {s : Measured} {call : LoadCall}

theorem Tiled.stampOf_eq (h : s.Tiled) (hturn : s.InTurn call) :
    (s.stampOf call).toNat = s.line.switched := by
  cases call with
  | startSleep now =>
      exact h.wake_eq hturn
  | sleepWakeUp now =>
      exact h.sleep_eq hturn
  | load now =>
      exact h.stamp_eq

theorem Tiled.switched_le (h : s.Tiled) (hturn : s.InTurn call) (hbehind : s.NotBehind call) :
    s.line.switched ≤ call.reading.toNat := by
  rw [← h.stampOf_eq hturn]
  exact UInt64.le_iff_toNat_le.1 hbehind

/-- The difference of reading and stamp is the length of the stretch that ends. -/
theorem Tiled.record_eq (h : s.Tiled) (hturn : s.InTurn call) (hbehind : s.NotBehind call) :
    TimeRecord.interval { _time := call.reading - s.stampOf call, _sleep := s.line.asleep } =
      s.line.ended call.reading.toNat := by
  rw [TimeRecord.interval, UInt64.toNat_sub_of_le _ _ hbehind, h.stampOf_eq hturn, TimeLine.ended]

/-- The new record goes to the end, and at most one leaves at the front. -/
theorem push_suffix (c : ThreadLoadCounter) (rcd : TimeRecord) :
    ∃ dropped, c._time_list ++ [rcd] = dropped ++ (c.push rcd)._time_list := by
  simp only [push]
  split
  · cases h : c._time_list ++ [rcd] with
    | nil =>
        exact ⟨[], rfl⟩
    | cons first rest =>
        exact ⟨[first], rfl⟩
  · exact ⟨[], rfl⟩

/-- What ends with the call is recorded as it is on the time line. -/
theorem Tiled.suffix_push (h : s.Tiled) {c : ThreadLoadCounter} {rcd : TimeRecord} {ended : Interval}
    (hlist : c._time_list = s.counter._time_list) (hrcd : rcd.interval = ended) :
    ∃ dropped, s.line.intervals ++ [ended] =
      dropped ++ (c.push rcd)._time_list.map TimeRecord.interval := by
  obtain ⟨dropped, hdropped⟩ := h.suffix
  obtain ⟨popped, hpopped⟩ := push_suffix c rcd
  refine ⟨dropped ++ popped.map TimeRecord.interval, ?_⟩
  rw [List.append_assoc, ← List.map_append, ← hpopped, hlist, List.map_append, ← List.append_assoc,
    ← hdropped, ← hrcd]
  rfl

theorem Tiled.total_ended (h : s.Tiled) {reading : Nat} (hle : s.line.switched ≤ reading) :
    s.line.origin + total (s.line.intervals ++ [s.line.ended reading]) = reading := by
  have htotal := h.total_eq
  simp only [total_append, total_cons, total_nil, TimeLine.ended]
  omega

/-- The records of a tiled line fit into 64 bits, together with the stretch that has not ended. -/
theorem Tiled.fits (h : s.Tiled) {now : Int64} (hbehind : s.NotBehind (.load now)) :
    total (s.counter.window now) < 2 ^ 64 := by
  obtain ⟨dropped, hdropped⟩ := h.suffix
  have htotal := h.total_eq
  have hturn : s.InTurn (.load now) := trivial
  have hle := h.switched_le hturn hbehind
  have hreading := now.toUInt64.toNat_lt
  rw [hdropped, total_append] at htotal
  simp only [window, total_append, total_cons, total_nil, ThreadLoadCounter.current, h.stamp_eq]
  simp only [LoadCall.reading] at hle
  omega

/-- **One call** in turn, at which the clock is not behind. -/
theorem tiled_step (h : s.Tiled) (hturn : s.InTurn call) (hbehind : s.NotBehind call) :
    (step s call).Tiled := by
  have hle := h.switched_le hturn hbehind
  have hrecord := h.record_eq hturn hbehind
  cases call with
  | startSleep now =>
      rw [show s.line.asleep = false from hturn] at hrecord
      refine ⟨h.suffix_push rfl hrecord, h.total_ended hle, ?_, ?_, ?_, ?_⟩
      · rfl
      · intro hawake
        cases hawake
      · exact fun _ => rfl
      · exact fun _ => rfl
  | sleepWakeUp now =>
      rw [show s.line.asleep = true from hturn] at hrecord
      refine ⟨h.suffix_push rfl hrecord, h.total_ended hle, ?_, ?_, ?_, ?_⟩
      · rfl
      · exact fun _ => rfl
      · intro hasleep
        cases hasleep
      · exact fun _ => rfl
  | load now =>
      obtain ⟨trimmed, kept, hlist, hcounter, -, -, -⟩ := load_eq hbehind (h.fits hbehind)
      obtain ⟨dropped, hdropped⟩ := h.suffix
      have hstep : step s (.load now) =
          { counter := { s.counter with _time_list := kept }
            line := { s.line with clock := now.toUInt64.toNat }
            returned := s.returned ++ [(s.counter.load now).1] } := by
        rw [← hcounter]
        rfl
      rw [hstep]
      refine ⟨⟨dropped ++ trimmed.map TimeRecord.interval, ?_⟩, h.total_eq, h.stamp_eq, h.wake_eq,
        h.sleep_eq, h.sleeping_eq⟩
      rw [List.append_assoc, ← List.map_append, ← hlist, ← hdropped]

end steps

/-! ## A steady clock -/

/-- The calls come in turn, `load` after the first `startSleep`; the clock never steps back, and its
readings leave room for the factor 100. -/
structure Steady (s : Measured) (call : LoadCall) : Prop where
  inTurn : s.InTurn call
  started : ∀ now, call = .load now → s.line.intervals ≠ []
  clock_le : s.line.clock ≤ call.reading.toNat
  reading_lt : call.reading.toNat < 2 ^ 57

/-- The records are the last stretches of the time line, and the time line has no gaps. -/
def Records (s : Measured) : Prop :=
  (∃ dropped, s.line.intervals = dropped ++ s.counter._time_list.map TimeRecord.interval) ∧
    s.line.origin + total s.line.intervals = s.line.switched

/-- The stretches the counter has records of. -/
def records (s : Measured) : List Interval := s.counter._time_list.map TimeRecord.interval

/-- The records with the stretch `i` behind them; beyond `max_size` the oldest leaves. -/
def recorded (max_size : UInt64) (l : List Interval) (i : Interval) : List Interval :=
  if max_size.toNat < l.length + 1 then (l ++ [i]).tail else l ++ [i]

/-- `load` answers for the stretches `kept` and the one that has not ended. -/
structure Answers (max_size max_usec : UInt64) (s : Measured) (now : Int64) (result : Int32)
    (dropped kept : List Interval) : Prop where
  returned_eq : (step s (.load now)).returned = s.returned ++ [result]
  intervals_eq : s.line.intervals = dropped ++ kept
  kept_eq : (step s (.load now)).records = kept
  /-- What it keeps are the last of the records, and as many as the limits allow. -/
  suffix : kept <:+ s.records
  longest : Longest max_size max_usec s.records kept (s.line.ended now.toUInt64.toNat)
  /-- The window runs from the start of the oldest stretch to the reading. -/
  window_eq : s.line.origin + total dropped + total (kept ++ [s.line.ended now.toUInt64.toNat]) =
    now.toUInt64.toNat
  result_eq : result.toInt =
    if total (kept ++ [s.line.ended now.toUInt64.toNat]) = 0 then 0
    else (100 * awake (kept ++ [s.line.ended now.toUInt64.toNat]) /
      total (kept ++ [s.line.ended now.toUInt64.toNat]) : Nat)
  result_le : 0 ≤ result.toInt ∧ result.toInt ≤ 100
  bounded : kept = [] ∨
    total (kept ++ [s.line.ended now.toUInt64.toNat]) ≤ max_usec.toNat ∧ kept.length ≤ max_size.toNat

/-- A switch records the stretch that ends with it; what `load` returns is the share of its window the thread
was awake. -/
def Exact (max_size max_usec : UInt64) (s : Measured) : LoadCall → Prop
  | .startSleep now =>
      (step s (.startSleep now)).records = recorded max_size s.records (s.line.ended now.toUInt64.toNat)
  | .sleepWakeUp now =>
      (step s (.sleepWakeUp now)).records = recorded max_size s.records (s.line.ended now.toUInt64.toNat)
  | .load now => ∃ result dropped kept, s.Answers max_size max_usec now result dropped kept

/-- What a steady clock keeps. -/
structure Inv (max_size max_usec : UInt64) (s : Measured) : Prop where
  tiled : s.Tiled
  switched_le : s.line.switched ≤ s.line.clock
  size_eq : s.counter._max_size = max_size
  usec_eq : s.counter._max_usec = max_usec

section steady

variable {max_size max_usec : UInt64} {s : Measured} {call : LoadCall}

theorem Inv.notBehind (h : s.Inv max_size max_usec) (hsteady : s.Steady call) : s.NotBehind call := by
  rw [NotBehind, UInt64.le_iff_toNat_le, h.tiled.stampOf_eq hsteady.inTurn]
  exact Nat.le_trans h.switched_le hsteady.clock_le

theorem limits_step (s : Measured) (call : LoadCall) :
    (step s call).counter._max_size = s.counter._max_size ∧
      (step s call).counter._max_usec = s.counter._max_usec := by
  cases call with
  | startSleep now =>
      exact ⟨rfl, rfl⟩
  | sleepWakeUp now =>
      exact ⟨rfl, rfl⟩
  | load now =>
      simp only [step, ThreadLoadCounter.load]
      split <;> exact ⟨rfl, rfl⟩

theorem inv_step (h : s.Inv max_size max_usec) (hsteady : s.Steady call) :
    (step s call).Inv max_size max_usec where
  tiled := tiled_step h.tiled hsteady.inTurn (h.notBehind hsteady)
  switched_le := by
    cases call with
    | startSleep now =>
        exact Nat.le_refl _
    | sleepWakeUp now =>
        exact Nat.le_refl _
    | load now =>
        exact Nat.le_trans h.switched_le hsteady.clock_le
  size_eq := (limits_step s call).1.trans h.size_eq
  usec_eq := (limits_step s call).2.trans h.usec_eq

/-- The stretch that `load` adds is the one the thread is in. -/
theorem current_eq (h : s.Tiled) (hstarted : s.line.intervals ≠ []) (now : Int64) :
    s.counter.current now = s.line.ended now.toUInt64.toNat := by
  rw [ThreadLoadCounter.current, TimeLine.ended, h.stamp_eq, h.sleeping_eq hstarted]

/-- `push` on the stretches. -/
theorem map_push (c : ThreadLoadCounter) (rcd : TimeRecord) :
    (c.push rcd)._time_list.map TimeRecord.interval =
      recorded c._max_size (c._time_list.map TimeRecord.interval) rcd.interval := by
  simp only [push, recorded, List.length_append, List.length_singleton, List.length_map]
  split
  · rw [List.map_tail, List.map_append, List.map_singleton]
  · rw [List.map_append, List.map_singleton]

theorem exact_of_inv (h : s.Inv max_size max_usec) (hsteady : s.Steady call) :
    s.Exact max_size max_usec call := by
  have hbehind := h.notBehind hsteady
  have hrecord := h.tiled.record_eq hsteady.inTurn hbehind
  cases call with
  | startSleep now =>
      rw [show s.line.asleep = false from hsteady.inTurn] at hrecord
      rw [Exact, ← h.size_eq]
      exact (map_push _ _).trans (congrArg (recorded _ _) hrecord)
  | sleepWakeUp now =>
      rw [show s.line.asleep = true from hsteady.inTurn] at hrecord
      rw [Exact, ← h.size_eq]
      exact (map_push _ _).trans (congrArg (recorded _ _) hrecord)
  | load now =>
      obtain ⟨trimmed, kept, hlist, hcounter, hbounded, hlongest, hresult⟩ :=
        load_eq hbehind (h.tiled.fits hbehind)
      obtain ⟨dropped, hdropped⟩ := h.tiled.suffix
      have hcurrent := current_eq h.tiled (hsteady.started now rfl) now
      have hintervals : s.line.intervals =
          (dropped ++ trimmed.map TimeRecord.interval) ++ kept.map TimeRecord.interval := by
        rw [hdropped, hlist, List.map_append, List.append_assoc]
      rw [hcurrent] at hresult
      rw [Bounded, h.size_eq, h.usec_eq, hcurrent] at hbounded
      rw [h.size_eq, h.usec_eq, hcurrent] at hlongest
      have hsuffix : kept.map TimeRecord.interval <:+ s.records :=
        ⟨trimmed.map TimeRecord.interval, by rw [records, hlist, List.map_append]⟩
      have hwindow : s.line.origin + total (dropped ++ trimmed.map TimeRecord.interval) +
          total (kept.map TimeRecord.interval ++ [s.line.ended now.toUInt64.toNat]) =
            now.toUInt64.toNat := by
        have hended := h.tiled.total_ended (h.tiled.switched_le hsteady.inTurn hbehind)
        rwa [hintervals, List.append_assoc, total_append, ← Nat.add_assoc] at hended
      have hle := awake_le_total (kept.map TimeRecord.interval ++ [s.line.ended now.toUInt64.toNat])
      have hreading : now.toUInt64.toNat < 2 ^ 57 := hsteady.reading_lt
      -- below `2 ^ 57` the factor 100 loses nothing
      have hmod : awake (kept.map TimeRecord.interval ++ [s.line.ended now.toUInt64.toNat]) * 100 %
          2 ^ 64 = 100 * awake (kept.map TimeRecord.interval ++
            [s.line.ended now.toUInt64.toNat]) := by
        rw [Nat.mul_comm, Nat.mod_eq_of_lt]
        omega
      rw [hmod] at hresult
      refine ⟨(s.counter.load now).1, dropped ++ trimmed.map TimeRecord.interval,
        kept.map TimeRecord.interval, rfl, hintervals, ?_, hsuffix, hlongest, hwindow, ?_, ?_, ?_⟩
      · exact congrArg (fun c : ThreadLoadCounter => c._time_list.map TimeRecord.interval) hcounter
      · rw [hresult]
        split
        · rename_i hzero
          rw [hzero, Nat.div_zero]
        · rfl
      · rw [hresult]
        exact ⟨Int.natCast_nonneg _, Int.ofNat_le.2 (share_le _ (Nat.mul_comm .. ▸ Nat.le_refl _))⟩
      · rcases hbounded with hnone | hwithin
        · exact Or.inl (by rw [hnone]; rfl)
        · exact Or.inr (by rwa [List.length_map])

end steady

/-- **With a steady clock the load is exact**: the records tile the time line, each switch adds the stretch
that ends with it, a record leaves when a limit requires it and not before, and each `load` returns the
share of its window in which the thread was awake. -/
theorem exact_run (max_size max_usec : UInt64) (now : Int64) {calls : List LoadCall}
    (h : Runs.Guarded step Steady (start max_size max_usec now) calls) :
    Runs.Throughout step Records (start max_size max_usec now) calls ∧
      Runs.Guarded step (Exact max_size max_usec) (start max_size max_usec now) calls := by
  have hstart : (start max_size max_usec now).Inv max_size max_usec :=
    ⟨tiled_start .., Nat.le_refl _, rfl, rfl⟩
  exact ⟨h.throughout (fun _ _ => inv_step) (fun _ hs => ⟨hs.tiled.suffix, hs.tiled.total_eq⟩) hstart,
    h.weaken (fun _ _ => inv_step) (fun _ _ => exact_of_inv) hstart⟩

theorem exact_run_four :
    Runs.Throughout step Records (start 32 2000000 1000)
        [.startSleep 1100, .sleepWakeUp 1400, .load 1500, .startSleep 1600] ∧
      Runs.Guarded step (Exact 32 2000000) (start 32 2000000 1000)
        [.startSleep 1100, .sleepWakeUp 1400, .load 1500, .startSleep 1600] :=
  exact_run 32 2000000 1000
    ⟨⟨rfl, (by intro _ h; cases h), by decide, by decide⟩,
      ⟨rfl, (by intro _ h; cases h), by decide, by decide⟩,
      ⟨trivial, (by intro _ _; decide), by decide, by decide⟩,
      ⟨rfl, (by intro _ h; cases h), by decide, by decide⟩, trivial⟩

/-! ## Any clock -/

/-- No subtraction has wrapped around, and every load that was returned is a percentage. -/
def InRange (s : Measured) : Prop :=
  s.counter.wrapped = false ∧ ∀ result ∈ s.returned, 0 ≤ result.toInt ∧ result.toInt ≤ 100

instance (s : Measured) : Decidable s.InRange := inferInstanceAs (Decidable (_ ∧ _))

/-- The records with the stretch that has not ended add up to less than `2 ^ 64` microseconds. -/
def Fits (s : Measured) : LoadCall → Prop
  | .load now => total (s.counter.window now) < 2 ^ 64
  | _ => True

instance (s : Measured) : ∀ call, Decidable (s.Fits call)
  | .startSleep _ => inferInstanceAs (Decidable True)
  | .sleepWakeUp _ => inferInstanceAs (Decidable True)
  | .load _ => inferInstanceAs (Decidable (_ < _))

section anyClock

variable {s : Measured} {call : LoadCall}

theorem wrapped_push (c : ThreadLoadCounter) (rcd : TimeRecord) :
    (c.push rcd).wrapped = c.wrapped := rfl

/-- A call at which the clock is not behind keeps the load in its range. -/
theorem inRange_step (h : s.InRange) (hbehind : s.NotBehind call) (hfits : s.Fits call) :
    (step s call).InRange := by
  obtain ⟨hwrapped, hreturned⟩ := h
  have hno : ¬ call.reading < s.stampOf call := UInt64.not_lt.2 hbehind
  cases call with
  | startSleep now =>
      refine ⟨?_, hreturned⟩
      simp only [step, startSleep, wrapped_push, hwrapped, Bool.false_or]
      exact decide_eq_false hno
  | sleepWakeUp now =>
      refine ⟨?_, hreturned⟩
      simp only [step, sleepWakeUp, wrapped_push, hwrapped, Bool.false_or]
      exact decide_eq_false hno
  | load now =>
      obtain ⟨trimmed, kept, -, hcounter, -, -, hresult⟩ := load_eq hbehind hfits
      refine ⟨?_, ?_⟩
      · have hsame := congrArg ThreadLoadCounter.wrapped hcounter
        exact hsame.trans hwrapped
      · intro result hmem
        rcases List.mem_append.1 hmem with hmem | hmem
        · exact hreturned result hmem
        · have heq : result = (s.counter.load now).1 := List.mem_singleton.1 hmem
          rw [heq, hresult]
          exact ⟨Int.natCast_nonneg _, Int.ofNat_le.2 (share_le _ (Nat.mod_le ..))⟩

theorem trim_wrapped (max_size max_usec : UInt64) (recs : List TimeRecord) (w : Window)
    (h : w.wrapped = true) : (trim max_size max_usec recs w).2.wrapped = true := by
  induction recs generalizing w with
  | nil =>
      exact h
  | cons rcd rest ih =>
      simp only [trim]
      split
      · apply ih
        simp only [Window.drop]
        split <;> simp [h]
      · exact h

/-- A reading that is behind its stamp makes a subtraction wrap around. -/
theorem notBehind_of_inRange (h : (step s call).InRange) : s.NotBehind call := by
  by_contra hbehind
  have hlt : call.reading < s.stampOf call := UInt64.not_le.1 hbehind
  have hwrapped : (step s call).counter.wrapped = true := by
    cases call with
    | startSleep now =>
        exact (Bool.or_eq_true ..).mpr (Or.inr (decide_eq_true hlt))
    | sleepWakeUp now =>
        exact (Bool.or_eq_true ..).mpr (Or.inr (decide_eq_true hlt))
    | load now =>
        have hmark : (s.counter.untrimmed now).wrapped = true :=
          (Bool.or_eq_true ..).mpr (Or.inr (decide_eq_true hlt))
        have htrim := trim_wrapped s.counter._max_size s.counter._max_usec s.counter._time_list _ hmark
        simp only [step, ThreadLoadCounter.load]
        split <;> exact htrim
  rw [h.1] at hwrapped
  cases hwrapped

end anyClock

/-- **Any clock.**  A run keeps the load in its range as long as no reading is behind the stamp it is compared
with and no window outgrows 64 bits; no reading may be behind; and when the calls come in turn, no window
outgrows 64 bits. -/
theorem in_range_run (max_size max_usec : UInt64) (now : Int64) (calls : List LoadCall) :
    (Runs.Guarded step (fun s call => s.NotBehind call ∧ s.Fits call) (start max_size max_usec now) calls →
        Runs.Throughout step InRange (start max_size max_usec now) calls) ∧
      (Runs.Throughout step InRange (start max_size max_usec now) calls →
        Runs.Guarded step NotBehind (start max_size max_usec now) calls) ∧
      (Runs.Guarded step InTurn (start max_size max_usec now) calls →
        (Runs.Guarded step NotBehind (start max_size max_usec now) calls ↔
          Runs.Throughout step InRange (start max_size max_usec now) calls)) := by
  have hrange : (start max_size max_usec now).InRange := ⟨rfl, by simp [start]⟩
  have htiled := tiled_start max_size max_usec now
  have hback : Runs.Throughout step InRange (start max_size max_usec now) calls →
      Runs.Guarded step NotBehind (start max_size max_usec now) calls :=
    fun h => h.guarded fun _ _ => notBehind_of_inRange
  refine ⟨?_, hback, ?_⟩
  · intro h
    exact h.throughout (fun _ _ hs hguard => inRange_step hs hguard.1 hguard.2) (fun _ hs => hs) hrange
  · intro hturn
    refine ⟨?_, hback⟩
    intro hbehind
    refine (hturn.and hbehind).throughout (I := fun s => s.InRange ∧ s.Tiled) ?_ (fun _ hs => hs.1)
      ⟨hrange, htiled⟩
    rintro s call ⟨hs, hstiled⟩ ⟨hturn, hbehind⟩
    refine ⟨inRange_step hs hbehind ?_, tiled_step hstiled hturn hbehind⟩
    cases call with
    | load now =>
        exact hstiled.fits hbehind
    | _ =>
        trivial

theorem in_range_run_four :
    Runs.Throughout step InRange (start 32 2000000 1000)
      [.startSleep 1100, .startSleep 1300, .sleepWakeUp 1400, .load 1500] :=
  (in_range_run 32 2000000 1000 _).1
    (by decide)

/-- The clock is set back by a millisecond while the thread is asleep; the next load is 150. -/
theorem set_back_by_one_millisecond :
    let s := [LoadCall.startSleep 2000, .sleepWakeUp 1000, .load 3000].foldl step (start 32 2000000 1000)
    s.counter.wrapped = true ∧ s.returned = [150] ∧ ¬ s.InRange := by
  decide

end Measured
end Net
end Myoj
