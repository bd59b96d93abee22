import Mathlib.Algebra.Group.Int.Defs
import Mathlib.Data.Int.Basic

/-!
# RunningCondition — how a finished run is classified

`runJudge` forks the submitted program, waits for it and fills a `judgeResult`:

* `RunningCondition` — the conditions the judge library knows;
* `Wait` — what `wait4` and the two clock readings yield, with the `W…` macros on the status;
* `getRunningCondition` — the decision tree over wait statuses, signals and costs;
* `runJudge` — one run; when no child or no watchdog could be made the costs stay as they were.

`rlim_t` is `UInt64`, and every signed value stored into one goes through `toRlim`.
-/

namespace Myoj
namespace Judge

/-- `enum RUNNING_CONDITION`. -/
inductive RunningCondition where
  | RUN_SUCCESS
  | RUNTIME_ERROR
  | TIME_LIMIT_EXCEED
  | MEMORY_LIMIT_EXCEED
  | OUTPUT_LIMIT_EXCEED
  | SEGMENTATION_FAULT
  | FLOAT_ERROR
  | UNKNOWN_ERROR
  | INPUT_FILE_NOT_FOUND
  | CAN_NOT_MAKE_OUTPUT
  | SET_LIMIT_ERROR
  | NOT_ROOT_USER
  | FORK_ERROR
  | CREATE_THREAD_ERROR
  | VALIDATE_ERROR
  deriving DecidableEq, Repr, Inhabited

/-- `rlim_t`, an unsigned 64-bit type. -/
abbrev Rlim := UInt64

/-- A signed value converted to `rlim_t`. -/
def toRlim (n : Int) : Rlim := UInt64.ofInt n

theorem toNat_toRlim (n : Int) : (toRlim n).toNat = (n % 2 ^ 64).toNat := by
  have hlt : n % 2 ^ 64 < 2 ^ 64 := Int.emod_lt_of_pos n (by decide)
  simp only [toRlim, UInt64.ofInt, UInt64.toNat_ofNat']
  exact Nat.mod_eq_of_lt (by omega)

/-- A non-negative limit that fits is compared as itself. -/
theorem toNat_toRlim_of_nonneg {n : Int} (h0 : 0 ≤ n) (h1 : n < 2 ^ 64) :
    ((toRlim n).toNat : Int) = n := by
  rw [toNat_toRlim, Int.emod_eq_of_lt h0 h1, Int.toNat_of_nonneg h0]

/-- The limits of `execConfig` the classification reads. -/
structure ExecConfig where
  cpuTimeLimit : Rlim
  memoryLimit : Rlim
  realTimeLimit : Rlim
  deriving DecidableEq, Repr

/-- `struct judgeResult`. -/
structure JudgeResult where
  realTimeCost : Rlim
  memoryCost : Rlim
  cpuTimeCost : Rlim
  condition : RunningCondition
  deriving DecidableEq, Repr, Inhabited

/-! ## Clocks -/

structure Timeval where
  tv_sec : Int
  tv_usec : Int
  deriving DecidableEq, Repr

/-- C's division truncates. -/
def getTimeMillisecondByTimeval (t : Timeval) : Int :=
  t.tv_sec * 1000 + t.tv_usec.tdiv 1000

def getGapMillsecond (startTime endTime : Timeval) : Int32 :=
  Int32.ofInt (getTimeMillisecondByTimeval endTime - getTimeMillisecondByTimeval startTime)

/-! ## Wait statuses -/

/-- What is known once `wait4` returned.  When `wait4` itself fails, `status` is the 0 it was
initialised with and the resources are whatever the stack held. -/
structure Wait where
  status : Nat
  ru_utime : Timeval
  ru_maxrss : Int
  startTime : Timeval
  endTime : Timeval
  deriving DecidableEq, Repr

namespace Wait

def WTERMSIG (w : Wait) : Nat := w.status % 128
def WIFEXITED (w : Wait) : Bool := w.WTERMSIG == 0
def WEXITSTATUS (w : Wait) : Nat := w.status / 256 % 256
/-- Neither exited nor stopped (a stopped child has all seven low bits set). -/
def WIFSIGNALED (w : Wait) : Bool := w.WTERMSIG != 0 && w.WTERMSIG != 127

/-- The CPU time is narrowed to `int` before it is stored. -/
def cpuTimeCost (w : Wait) : Rlim :=
  toRlim (Int32.ofInt (getTimeMillisecondByTimeval w.ru_utime)).toInt
def realTimeCost (w : Wait) : Rlim := toRlim (getGapMillsecond w.startTime w.endTime).toInt
def memoryCost (w : Wait) : Rlim := toRlim w.ru_maxrss

end Wait

def SIGFPE : Nat := 8
def SIGKILL : Nat := 9
def SIGSEGV : Nat := 11
def SIGXCPU : Nat := 24
def SIGXFSZ : Nat := 25

/-! ## Classification -/

def getRunningCondition (w : Wait) (execConfig : ExecConfig) (judgeResult : JudgeResult) :
    RunningCondition :=
  if w.WIFEXITED then
    if w.WEXITSTATUS = 0 then
      if execConfig.memoryLimit < judgeResult.memoryCost then .MEMORY_LIMIT_EXCEED
      else if execConfig.cpuTimeLimit < judgeResult.cpuTimeCost ∨
          execConfig.realTimeLimit < judgeResult.realTimeCost then .TIME_LIMIT_EXCEED
      else .RUN_SUCCESS
    else .UNKNOWN_ERROR
  else if w.WIFSIGNALED then
    if w.WTERMSIG = SIGXCPU then .TIME_LIMIT_EXCEED
    else if w.WTERMSIG = SIGFPE then .FLOAT_ERROR
    else if w.WTERMSIG = SIGSEGV then .SEGMENTATION_FAULT
    else if w.WTERMSIG = SIGKILL then
      -- a CPU limit also ends in SIGKILL
      if execConfig.cpuTimeLimit < judgeResult.cpuTimeCost then .TIME_LIMIT_EXCEED
      else .RUNTIME_ERROR
    else if w.WTERMSIG = SIGXFSZ then .OUTPUT_LIMIT_EXCEED
    else .RUNTIME_ERROR
  else .UNKNOWN_ERROR

/-- How far `runJudge` gets. -/
inductive Child where
  | forkFailed
  | threadFailed
  | waited (w : Wait)
  deriving DecidableEq, Repr, Inhabited

def runJudge (execConfig : ExecConfig) (child : Child) (judgeResult : JudgeResult) : JudgeResult :=
  match child with
  | .forkFailed => { judgeResult with condition := .FORK_ERROR }
  | .threadFailed => { judgeResult with condition := .CREATE_THREAD_ERROR }
  | .waited w =>
      let judgeResult := { judgeResult with
        cpuTimeCost := w.cpuTimeCost
        realTimeCost := w.realTimeCost
        memoryCost := w.memoryCost }
      { judgeResult with condition := getRunningCondition w execConfig judgeResult }

/-- The program ended by itself with exit code 0 and stayed within the limits of the run. -/
def Wait.Succeeded (w : Wait) (execConfig : ExecConfig) : Prop :=
  w.WIFEXITED ∧ w.WEXITSTATUS = 0 ∧ w.memoryCost ≤ execConfig.memoryLimit ∧
    w.cpuTimeCost ≤ execConfig.cpuTimeLimit ∧ w.realTimeCost ≤ execConfig.realTimeLimit

instance (w : Wait) (execConfig : ExecConfig) : Decidable (w.Succeeded execConfig) :=
  inferInstanceAs (Decidable (_ ∧ _))

/-- A clean end of the program: exit code 0, or a signal other than `SIGFPE` and `SIGXFSZ`. -/
def Wait.Plain (w : Wait) : Prop :=
  (w.WIFEXITED ∧ w.WEXITSTATUS = 0) ∨
    (w.WIFSIGNALED ∧ w.WTERMSIG ≠ SIGFPE ∧ w.WTERMSIG ≠ SIGXFSZ)

instance (w : Wait) : Decidable w.Plain := inferInstanceAs (Decidable (_ ∨ _))

/-- The conditions other than `RUN_SUCCESS` a verdict is written for. -/
def RunningCondition.Failure : RunningCondition → Bool
  | .TIME_LIMIT_EXCEED | .MEMORY_LIMIT_EXCEED | .RUNTIME_ERROR | .SEGMENTATION_FAULT => true
  | _ => false

section runJudge

variable (execConfig : ExecConfig) (w : Wait) (judgeResult : JudgeResult)

@[simp] theorem runJudge_waited_cpuTimeCost :
    (runJudge execConfig (.waited w) judgeResult).cpuTimeCost = w.cpuTimeCost := rfl

@[simp] theorem runJudge_waited_memoryCost :
    (runJudge execConfig (.waited w) judgeResult).memoryCost = w.memoryCost := rfl

/-- A waited run is successful exactly when the program succeeded. -/
theorem runJudge_waited_success_iff :
    (runJudge execConfig (.waited w) judgeResult).condition = .RUN_SUCCESS ↔
      w.Succeeded execConfig := by
  simp only [runJudge, getRunningCondition, Wait.Succeeded, ← UInt64.not_lt]
  cases hexit : w.WIFEXITED with
  | false =>
      simp only [Bool.false_eq_true, if_false, false_and, iff_false]
      split_ifs <;> simp
  | true =>
      by_cases hcode : w.WEXITSTATUS = 0
      · simp only [hcode, if_true, true_and]
        split_ifs with hmem htime
        · simp [hmem]
        · rcases htime with hcpu | hreal
          · simp [hcpu]
          · simp [hreal]
        · rw [not_or] at htime
          simp [hmem, htime.1, htime.2]
      · simp [hcode]

/-- Every other waited run has a failure condition exactly when it ended plainly. -/
theorem runJudge_waited_failure_iff (h : ¬ w.Succeeded execConfig) :
    (runJudge execConfig (.waited w) judgeResult).condition.Failure = true ↔ w.Plain := by
  simp only [Wait.Succeeded, ← UInt64.not_lt] at h
  simp only [runJudge, getRunningCondition, Wait.Plain]
  cases hexit : w.WIFEXITED with
  | false =>
      cases hsignal : w.WIFSIGNALED with
      | false =>
          simp [RunningCondition.Failure]
      | true =>
          -- one signal after the other, in the order of the source
          simp only [Bool.false_eq_true, if_false, if_true, false_and, false_or, true_and]
          split_ifs <;> 
            simp_all [RunningCondition.Failure, SIGXCPU, SIGFPE, SIGSEGV, SIGXFSZ, SIGKILL]
  | true =>
      have hsignal : w.WIFSIGNALED = false := by
        simp only [Wait.WIFEXITED, beq_iff_eq] at hexit
        simp [Wait.WIFSIGNALED, hexit]
      by_cases hcode : w.WEXITSTATUS = 0
      · -- a clean exit that did not succeed is over one of the limits
        simp only [hcode, hsignal, if_true, true_and, true_or]
        simp only [hexit, hcode, true_and] at h
        split_ifs with hmem htime
        · simp [RunningCondition.Failure]
        · simp [RunningCondition.Failure]
        · exact absurd ⟨hmem, not_or.1 htime⟩ h
      · simp [hcode, hsignal, RunningCondition.Failure]

end runJudge

end Judge
end Myoj
