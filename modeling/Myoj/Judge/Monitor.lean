import Myoj.Judge.Limits

/-!
# Monitor — the thread that kills a program which does not end

`runJudge` starts `monitorThread` next to the child: it sleeps for the real-time limit in whole seconds
and kills the child then.  `getRunningCondition` sees no more of it than a `SIGKILL`, and decides by the
CPU time.

* `sleepSeconds` — the limit as it gets into `sleep`;
* `Attempt` — a program left to itself and the clocks of one run of it; `wait` is what becomes of it
  under the monitor;
* `MonitorRight` — never too early, and never anything but `TLE`;
* `monitor_right_iff` — the time limits and the programs this holds for.
-/

namespace Myoj
namespace Judge

open Oj

/-! ## The monitor -/

/-- `killerConfig.limitTime`, an `int`, converted for `sleep`. -/
def sleepSeconds (execConfig : ExecConfig) : Nat :=
  execConfig.realTimeLimit.toNat / 1000 % 2 ^ 32

/-- When the monitor that has started to wait at `waits` kills, in milliseconds: `sleep` returns `late`
milliseconds after the time is over. -/
def killTime (execConfig : ExecConfig) (waits late : Nat) : Nat :=
  waits + 1000 * sleepSeconds execConfig + late

/-- One run of a program, in milliseconds from the first clock reading of `runJudge` on. -/
structure Attempt where
  /-- When the program ends if it is not killed, and the wait status it ends with. -/
  ends : Option Nat
  status : Nat
  /-- The resources it has used by then. -/
  ru_utime : Nat → Timeval
  ru_maxrss : Nat → Int
  /-- When the monitor starts to wait, and how late it wakes up. -/
  waits : Nat
  late : Nat
  /-- The readings of the clock, and how long after the child the second one is. -/
  clock : Nat → Timeval
  reaped : Nat

namespace Attempt

variable (a : Attempt) (execConfig : ExecConfig)

def killTime : Nat := Judge.killTime execConfig a.waits a.late

/-- The program is still there when the monitor kills. -/
def Killed : Prop := ∀ e, a.ends = some e → a.killTime execConfig < e

instance : Decidable (a.Killed execConfig) :=
  decidable_of_iff (a.ends.all fun e => decide (a.killTime execConfig < e)) <| by
    cases h : a.ends <;> simp [Killed, h]

/-- What `wait4` yields for a child that is gone at this time. -/
def waitAt (status time : Nat) : Wait where
  status
  ru_utime := a.ru_utime time
  ru_maxrss := a.ru_maxrss time
  startTime := a.clock 0
  endTime := a.clock (time + a.reaped)

def wait : Wait :=
  if a.Killed execConfig then a.waitAt SIGKILL (a.killTime execConfig)
  else a.waitAt a.status (a.ends.getD 0)

/-- The program ends by itself with exit code 0, within `2T` milliseconds and `T` of CPU time. -/
def Innocent (T : Int) : Prop :=
  ∃ e : Nat, a.ends = some e ∧ a.status = 0 ∧ (e : Int) ≤ 2 * T ∧
    getTimeMillisecondByTimeval (a.ru_utime e) ≤ T

end Attempt

/-! ## Whole seconds -/

namespace Judger

variable {j : Judger}

theorem sleepSeconds_eq (hreal : j.m_maxtimelimit = j.m_timelimit * 2) :
    sleepSeconds j.execConfig =
      ((j.m_timelimit.toInt * 2).bmod (2 ^ 32) % 2 ^ 64).toNat / 1000 % 2 ^ 32 := by
  have htwo : (2 : Int32).toInt = 2 := rfl
  rw [sleepSeconds, execConfig, toNat_toRlim, hreal, Int32.toInt_mul, htwo]

theorem sleepSeconds_of_lt (hreal : j.m_maxtimelimit = j.m_timelimit * 2) (h0 : 0 ≤ j.m_timelimit.toInt)
    (h1 : j.m_timelimit.toInt < 2 ^ 30) :
    (sleepSeconds j.execConfig : Int) = 2 * j.m_timelimit.toInt / 1000 := by
  rw [sleepSeconds_eq hreal, Int.bmod_eq_of_le (by omega) (by omega)]
  omega

/-- From `2 ^ 30` on the doubled limit is negative as an `int`, and huge as an `rlim_t`. -/
theorem le_sleepSeconds_of_le (hreal : j.m_maxtimelimit = j.m_timelimit * 2)
    (h1 : 2 ^ 30 ≤ j.m_timelimit.toInt) :
    2 * j.m_timelimit.toInt ≤ 1000 * (sleepSeconds j.execConfig : Int) := by
  have hlt : j.m_timelimit.toInt < 2 ^ 31 := j.m_timelimit.toInt_lt
  have hwrap : (j.m_timelimit.toInt * 2).bmod (2 ^ 32) = j.m_timelimit.toInt * 2 - 2 ^ 32 := by
    rw [Int.bmod_def]
    omega
  rw [sleepSeconds_eq hreal, hwrap]
  omega

/-- Twice the limit is a whole number of seconds, or it has wrapped around. -/
def WholeSeconds (T : Int) : Prop := 500 ∣ T ∨ 2 ^ 30 ≤ T

/-- The monitor does not kill before the real-time limit is over, whenever it starts to wait. -/
def NeverEarly (j : Judger) : Prop :=
  ∀ waits late : Nat, (waits : Int) + 2 * j.m_timelimit.toInt ≤ killTime j.execConfig waits late

theorem neverEarly_iff (hreal : j.m_maxtimelimit = j.m_timelimit * 2) (h0 : 0 ≤ j.m_timelimit.toInt) :
    NeverEarly j ↔ WholeSeconds j.m_timelimit.toInt := by
  have hwait : NeverEarly j ↔ 2 * j.m_timelimit.toInt ≤ 1000 * (sleepSeconds j.execConfig : Int) := by
    unfold NeverEarly killTime
    constructor
    · intro h
      have hzero := h 0 0
      omega
    · intro h waits late
      omega
  rw [hwait, WholeSeconds]
  by_cases hlt : j.m_timelimit.toInt < 2 ^ 30
  · rw [sleepSeconds_of_lt hreal h0 hlt]
    omega
  · exact iff_of_true (le_sleepSeconds_of_le hreal (not_lt.1 hlt)) (Or.inr (not_lt.1 hlt))

/-! ## What the kill looks like -/

/-- The CPU time is compared after it was narrowed to an `int`. -/
theorem lt_cpuTimeCost_iff {T : Int32} (h0 : 0 ≤ T.toInt) (w : Wait) :
    toRlim T.toInt < w.cpuTimeCost ↔ T.toInt < getTimeMillisecondByTimeval w.ru_utime % 2 ^ 32 := by
  have hlt : T.toInt < 2 ^ 31 := T.toInt_lt
  have hsize : Int32.size = 2 ^ 32 := rfl
  rw [← UInt64.not_le, Wait.cpuTimeCost, toRlim_le_iff, Int32.toInt_ofInt, hsize, Int.bmod_def]
  omega

theorem getRunningCondition_killed {w : Wait} (h : w.status = SIGKILL) (conf : ExecConfig)
    (judgeResult : JudgeResult) :
    getRunningCondition w conf judgeResult =
      if conf.cpuTimeLimit < judgeResult.cpuTimeCost then .TIME_LIMIT_EXCEED else .RUNTIME_ERROR := by
  have hterm : w.WTERMSIG = 9 := by
    rw [Wait.WTERMSIG, h]
    rfl
  simp [getRunningCondition, Wait.WIFEXITED, Wait.WIFSIGNALED, hterm, SIGXCPU, SIGFPE, SIGSEGV, SIGKILL]

/-- A killed program is judged by its CPU time alone. -/
theorem killed_TLE_iff {w : Wait} (h : w.status = SIGKILL) {test : TestRun}
    (hchild : test.child = .waited w) (h0 : 0 ≤ j.m_timelimit.toInt) (res : JudgeResult) :
    (classify test (runJudge j.execConfig test.child res) j).1 = some .TLE ↔
      j.m_timelimit.toInt < getTimeMillisecondByTimeval w.ru_utime % 2 ^ 32 := by
  have hconf : j.execConfig.cpuTimeLimit = toRlim j.m_timelimit.toInt := rfl
  rw [← lt_cpuTimeCost_iff h0, hchild]
  simp only [classify, runJudge, getRunningCondition_killed h, hconf]
  by_cases hcpu : toRlim j.m_timelimit.toInt < w.cpuTimeCost
  · simp [hcpu]
  · simp [hcpu]

/-! ## What is recorded -/

/-- No program is killed that would have ended in time, and what is killed is recorded as `TLE`. -/
structure MonitorRight (machine : Machine) (judgeResult : JudgeResult) (j : Judger)
    (attempts : Nat → Attempt) : Prop where
  never_early : NeverEarly j
  spared : ∀ i ∈ j.tests, (attempts i).Innocent j.m_timelimit.toInt →
    ¬ (attempts i).Killed j.execConfig
  recorded : List.Forall₂
    (fun i entry => (attempts i).Killed j.execConfig → entry.Status = some .TLE) j.tests
    (finish machine judgeResult j).Done.TestInfo

/-- The program has used up its CPU time by the time it is killed. -/
def Spent (j : Judger) (a : Attempt) : Prop :=
  j.m_timelimit.toInt < getTimeMillisecondByTimeval (a.ru_utime (a.killTime j.execConfig)) % 2 ^ 32

/-- **The monitor.**  It is neither early nor misreported exactly when the real-time limit is a whole
number of seconds and the programs that it kills have used more than their CPU time. -/
theorem monitor_right_iff {initjson : Json} {j : Judger} {machine : Machine} {attempts : Nat → Attempt}
    (hload : load initjson = .ok j) (hT : 1 ≤ j.m_timelimit.toInt) (htested : Tested machine j)
    (hchild : ∀ i ∈ j.tests, (machine.test i).child = .waited ((attempts i).wait j.execConfig))
    (judgeResult : JudgeResult) :
    MonitorRight machine judgeResult j attempts ↔
      WholeSeconds j.m_timelimit.toInt ∧
        ∀ i ∈ j.tests, (attempts i).Killed j.execConfig → Spent j (attempts i) := by
  obtain ⟨-, hreal, -⟩ := load_limits hload
  have h0 : 0 ≤ j.m_timelimit.toInt := by omega
  have hearly : NeverEarly j ↔ WholeSeconds j.m_timelimit.toInt := neverEarly_iff hreal h0
  have hstatus : ∀ i ∈ j.tests, ∀ res,
      (classify (machine.test i) (runJudge j.execConfig (machine.test i).child res) (judging machine j)).1 =
        (classify (machine.test i) (runJudge j.execConfig (machine.test i).child judgeResult)
          (judging machine j)).1 := by
    intro i hi res
    rw [hchild i hi]
    rfl
  obtain ⟨hinfo, -⟩ := finish_spec htested (load_spec hload).1 judgeResult
  rw [statuses_eq_map hstatus] at hinfo
  have hentries := forall₂_entries_iff_forall
    (P := fun i s => (attempts i).Killed j.execConfig → s = some .TLE) hinfo
  have hkilled : ∀ i ∈ j.tests, (attempts i).Killed j.execConfig →
      ((classify (machine.test i) (runJudge j.execConfig (machine.test i).child judgeResult)
        (judging machine j)).1 = some .TLE ↔ Spent j (attempts i)) := by
    intro i hi hkilled
    have hwait : (attempts i).wait j.execConfig =
        (attempts i).waitAt SIGKILL ((attempts i).killTime j.execConfig) := if_pos hkilled
    have hkill : ((attempts i).wait j.execConfig).status = SIGKILL := by rw [hwait, Attempt.waitAt]
    have hiff := killed_TLE_iff (j := judging machine j) hkill (hchild i hi) h0 judgeResult
    rw [hwait] at hiff
    exact hiff
  constructor
  · intro hright
    refine ⟨hearly.1 hright.never_early, fun i hi hkill => ?_⟩
    exact (hkilled i hi hkill).1 (hentries.1 hright.recorded i hi hkill)
  · rintro ⟨hwhole, hspent⟩
    have hnever := hearly.2 hwhole
    refine ⟨hnever, ?_, hentries.2 fun i hi hkill => (hkilled i hi hkill).2 (hspent i hi hkill)⟩
    rintro i - ⟨e, hends, -, hwall, -⟩ hkill
    -- it would have ended before the limit, and the kill comes after it
    have hlate := hnever (attempts i).waits (attempts i).late
    have hbefore : Judge.killTime j.execConfig (attempts i).waits (attempts i).late < e := hkill e hends
    omega

/-! ## A program that sleeps -/

/-- A C++ submission with three tests and this time limit. -/
def timedSubmission (timelimit : Nat) : Json :=
  .object [("SubmitId", .str "12"), ("ProblemId", .str "7"), ("Code", .str "int main(){}"),
    ("JudgeNum", .number_unsigned 3), ("TimeLimit", .number_unsigned timelimit),
    ("MemoryLimit", .number_unsigned 64), ("Language", .str "C++")]

/-- A program that needs 3 ms of CPU time and is there for this long. -/
def sleeps (time : Nat) : Attempt where
  ends := some time
  status := 0
  ru_utime := fun _ => ⟨0, 3000⟩
  ru_maxrss := fun _ => 1800
  waits := 1
  late := 0
  clock := fun t => ⟨100 + t / 1000, t % 1000 * 1000⟩
  reaped := 2

/-- Every test is this attempt. -/
def monitored (j : Judger) (a : Attempt) : Machine :=
  answering { endsWith 0 with child := .waited (a.wait j.execConfig) }

theorem tested_monitored {timelimit : Nat} {j : Judger} (a : Attempt)
    (hj : load (timedSubmission timelimit) = .ok j) : Tested (monitored j a) j := by
  have hrunnable : Runnable (bytes "C++") = true := by decide
  cases hj
  exact ⟨rfl, hrunnable, rfl, rfl⟩

/-- Five milliseconds are not enough for the monitor. -/
theorem monitor_right_short : ∃ j, load (timedSubmission 1000) = .ok j ∧
    MonitorRight (monitored j (sleeps 5)) nothingRun j fun _ => sleeps 5 := by
  refine ⟨_, rfl, ?_⟩
  refine (@monitor_right_iff (timedSubmission 1000) _ _ _ rfl (by decide)
    (tested_monitored (sleeps 5) rfl) (fun _ _ => rfl) nothingRun).2 ⟨Or.inl (by decide), ?_⟩
  intro i _ hkilled
  exact absurd hkilled (by decide +kernel)

/-- With a limit of 700 ms a program may take 1400 ms, and is killed after one second as a runtime
error. -/
theorem sleeper_killed_early : ∃ j, load (timedSubmission 700) = .ok j ∧
    Tested (monitored j (sleeps 1200)) j ∧ (sleeps 1200).Innocent 700 ∧
    (finish (monitored j (sleeps 1200)) nothingRun j).Done.Status = .RE ∧
    ¬ MonitorRight (monitored j (sleeps 1200)) nothingRun j fun _ => sleeps 1200 := by
  have hinnocent : (sleeps 1200).Innocent 700 := ⟨1200, rfl, rfl, by decide, by decide⟩
  refine ⟨_, rfl, tested_monitored _ rfl, hinnocent, by decide +kernel, fun hright => ?_⟩
  exact hright.spared 1 (by decide) hinnocent (by decide +kernel)

end Judger
end Judge
end Myoj
