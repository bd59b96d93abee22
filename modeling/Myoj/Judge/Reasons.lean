import Myoj.Judge.Earned

/-!
# Reasons — the text a submission is rejected with

`m_reason` goes into the answer to the client.  It is what the compiler said, or what the last test that ended
in an error left in one of its files; everything else leaves it empty.

* `TestRun.reason` — the text of one test, from how its program ended;
* `reason` — the text of a submission, from what the machine answers;
* `finish_reason` — that is what `Run` leaves in `m_reason`.
-/

namespace Myoj
namespace Judge

open Oj

/-- Another signal than those with a condition of their own; with `SIGKILL` the CPU time must be in its limit. -/
def Wait.Crashed (w : Wait) (execConfig : ExecConfig) : Prop :=
  w.WIFSIGNALED ∧ w.WTERMSIG ∉ [SIGXCPU, SIGFPE, SIGSEGV, SIGXFSZ] ∧
    (w.WTERMSIG = SIGKILL → w.cpuTimeCost ≤ execConfig.cpuTimeLimit)

instance (w : Wait) (execConfig : ExecConfig) : Decidable (w.Crashed execConfig) :=
  inferInstanceAs (Decidable (_ ∧ _))

/-- The program was ended by `SIGSEGV`. -/
def Wait.Faulted (w : Wait) : Prop := w.WIFSIGNALED ∧ w.WTERMSIG = SIGSEGV

instance (w : Wait) : Decidable w.Faulted := inferInstanceAs (Decidable (_ ∧ _))

/-- What a test leaves as the reason, if it leaves anything. -/
def TestRun.reason (execConfig : ExecConfig) (test : TestRun) : Option Bytes :=
  match test.child with
  | .forkFailed | .threadFailed => none
  | .waited w =>
      if w.Faulted then some test.judgerLog
      else if w.Crashed execConfig then some test.errorOut
      else none

theorem Wait.not_exited_of_signaled {w : Wait} (h : w.WIFSIGNALED = true) : w.WIFEXITED = false := by
  simp only [WIFSIGNALED, WIFEXITED, Bool.and_eq_true, bne_iff_ne, beq_eq_false_iff_ne] at h ⊢
  exact h.1

section runJudge

variable (execConfig : ExecConfig) (w : Wait) (judgeResult : JudgeResult)

theorem runJudge_fault_iff :
    (runJudge execConfig (.waited w) judgeResult).condition = .SEGMENTATION_FAULT ↔ w.Faulted := by
  simp only [runJudge, getRunningCondition, Wait.Faulted]
  cases hsignal : w.WIFSIGNALED with
  | false =>
      simp only [Bool.false_eq_true, if_false, false_and, iff_false]
      split_ifs <;> simp
  | true =>
      rw [Wait.not_exited_of_signaled hsignal]
      simp only [Bool.false_eq_true, if_false, if_true, true_and]
      -- one signal after the other, in the order of the source
      split_ifs <;> simp_all [SIGXCPU, SIGFPE, SIGSEGV, SIGKILL, SIGXFSZ]

theorem runJudge_error_iff :
    (runJudge execConfig (.waited w) judgeResult).condition = .RUNTIME_ERROR ↔ w.Crashed execConfig := by
  simp only [runJudge, getRunningCondition, Wait.Crashed, ← UInt64.not_lt]
  cases hsignal : w.WIFSIGNALED with
  | false =>
      simp only [Bool.false_eq_true, if_false, false_and, iff_false]
      split_ifs <;> simp
  | true =>
      rw [Wait.not_exited_of_signaled hsignal]
      simp only [Bool.false_eq_true, if_false, if_true, true_and]
      split_ifs <;> simp_all [SIGXCPU, SIGFPE, SIGSEGV, SIGKILL, SIGXFSZ]

end runJudge

namespace Judger

/-- What a submission is rejected with: the compiler's text when there is nothing to run, or the text of the
last test that leaves one. -/
def reason (j : Judger) (machine : Machine) : Bytes :=
  if Accepted machine j.m_language && Runnable j.m_language && machine.compileRuns then
    if machine.mainLeftOver || machine.compileProduces then
      ((j.tests.filterMap fun i => (machine.test i).reason j.execConfig).getLast?).getD []
    else machine.compileinfo
  else []

/-! ## One test -/

theorem classify_reason (test : TestRun) (res : JudgeResult) (j : Judger) :
    (classify test res j).2.m_reason =
      if res.condition = .SEGMENTATION_FAULT then test.judgerLog
      else if res.condition = .RUNTIME_ERROR then test.errorOut
      else j.m_reason := by
  unfold classify
  cases res.condition with
  | RUN_SUCCESS =>
      simp only [if_true, reduceCtorEq, if_false]
      split_ifs <;> rfl
  | _ =>
      rfl

theorem judgeTest_reason (machine : Machine) (conf : ExecConfig) (state : JudgeResult × Judger) (i : Nat) :
    (judgeTest machine conf state i).2.m_reason =
      ((machine.test i).reason conf).getD state.2.m_reason := by
  simp only [judgeTest, JudgmentResult, TestRun.reason]
  rw [classify_reason]
  cases (machine.test i).child with
  | forkFailed | threadFailed =>
      rfl
  | waited w =>
      simp only [runJudge_fault_iff, runJudge_error_iff]
      split_ifs <;> rfl

theorem foldl_judgeTest_reason (machine : Machine) (conf : ExecConfig) (is : List Nat)
    (state : JudgeResult × Judger) :
    (is.foldl (judgeTest machine conf) state).2.m_reason =
      ((is.filterMap fun i => (machine.test i).reason conf).getLast?).getD state.2.m_reason := by
  induction is generalizing state with
  | nil =>
      rfl
  | cons i is ih =>
      rw [List.foldl_cons, ih, judgeTest_reason, List.filterMap_cons]
      cases (machine.test i).reason conf with
      | none =>
          rfl
      | some text =>
          -- a later test overwrites the text
          rw [List.getLast?_cons]
          cases (is.filterMap fun i => (machine.test i).reason conf).getLast? <;> rfl

/-! ## A submission -/

theorem load_reason {initjson : Json} {j : Judger} (h : load initjson = .ok j) : j.m_reason = [] := by
  simp only [load, bind, Except.bind] at h
  -- the getters one by one; past all of them the members are explicit
  repeat' split at h
  all_goals first | cases h; rfl | cases h

theorem prepared_reason (machine : Machine) (j : Judger) : (prepared machine j).m_reason = j.m_reason := by
  unfold prepared CompileSPJ
  split_ifs <;> rfl

theorem compiled_reason (machine : Machine) (j : Judger) : (compiled machine j).m_reason = j.m_reason := by
  unfold compiled
  split <;> rfl

theorem tests_congr {j j' : Judger} (h : j'.m_judgenum = j.m_judgenum) : j'.tests = j.tests := by
  rw [tests, tests, h]

/-- **The text of a rejection** depends on how the compiler and the programs ended, and on nothing else. -/
theorem finish_reason (machine : Machine) (judgeResult : JudgeResult) {j : Judger} (hj : j.Ready)
    (hreason : j.m_reason = []) : (finish machine judgeResult j).m_reason = j.reason machine := by
  obtain ⟨-, -, hlang, hnum, -, -, -, hconf⟩ := prepared_spec machine j hj
  have hprepared : (prepared machine j).m_reason = [] := (prepared_reason machine j).trans hreason
  simp only [finish, prepare_eq, reason]
  cases Accepted machine j.m_language with
  | false =>
      simpa using hreason
  | true =>
      simp only [if_true, compileAndRun_eq, hlang, Compile_eq, Bool.true_and]
      cases Runnable j.m_language with
      | false =>
          simpa using hprepared
      | true =>
          by_cases hruns : machine.compileRuns = true
          · cases hmain : (machine.mainLeftOver || machine.compileProduces) with
            | false =>
                simp [hruns, runCompiled, GetCompilationFailed]
            | true =>
                obtain ⟨-, -, hnum', -, -, hconf'⟩ := compiled_spec machine (prepared machine j)
                have hcompiled : (compiled machine (prepared machine j)).m_reason = [] :=
                  (compiled_reason machine _).trans hprepared
                simp only [hruns, runCompiled, RunProgramC_Cpp, RunProgram, if_true, Bool.true_and]
                rw [← tests, foldl_judgeTest_reason, hcompiled, tests_congr (hnum'.trans hnum),
                  hconf'.trans hconf]
          · simpa [hruns, runCompiled] using hprepared

end Judger
end Judge
end Myoj
