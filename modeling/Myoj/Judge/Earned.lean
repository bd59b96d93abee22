import Myoj.Judge.Verdict

/-!
# Earned — when an accepted submission was compiled and run on every test

`AC` is what `Done` makes of a verdict that is still pending, and a verdict stays pending on every way
to `Done` that writes none.  `Run` has such ways:

* `Init` has a branch for seven languages, `Run` for two: the others reach `Done` right after `Init`;
* without tests the loop has no round;
* `main` may be left over from an earlier run, and then a failed compilation goes unnoticed.

`Secured` is the condition on the submission and the machine under which none of them leads to an
unearned `AC`; `earned_iff` says that it is exact.
-/

namespace Myoj
namespace Judge

open Oj

namespace Judger

/-- **Accepted is earned.** The program was compiled and run on each of at least one test. -/
def Earned (out : Report × Judger) : Prop :=
  out.1.Status = .AC →
    .compiled ∈ out.2.log ∧ 1 ≤ out.2.m_judgenum.toInt ∧ ∀ i ∈ out.2.tests, .ran i ∈ out.2.log

/-! ## The condition -/

/-- The languages `Run` has a branch for. -/
def Runnable (m_language : Bytes) : Bool :=
  m_language == bytes "C" || m_language == bytes "C++"

/-- The special judge has to be compiled and the compiler cannot be started. -/
def SpjFails (machine : Machine) : Bool :=
  !machine.spjExists && machine.spjSourceExists && !machine.spjCompileRuns

/-- There is an executable special judge in the end. -/
def Special (machine : Machine) : Bool :=
  machine.spjExists || machine.spjSourceExists && machine.spjCompileRuns && machine.spjBuilt

/-- The entry of the test gets a status other than `AC`. -/
def Rejected (special : Bool) (j : Judger) (test : TestRun) : Prop :=
  match test.child with
  | .waited w =>
      if w.Succeeded j.execConfig then
        toRlim j.m_memorylimit.toInt < w.memoryCost ∨
          if special then test.spjExit ≠ 0
          else cstr test.standardAnswer ≠ cstr test.calculateAnswer
      else w.Plain
  | _ => False

/-- The condition under which `AC` is earned: `Init` fails, or the special judge could not be compiled,
or the language has a branch and either there is no `main` to run or there are tests and `main` is the
one just compiled (or a test rejects the one left over). -/
def Secured (machine : Machine) (j : Judger) : Prop :=
  Accepted machine j.m_language = false ∨ SpjFails machine = true ∨
    (Runnable j.m_language = true ∧
      (machine.compileRuns = false ∨ (machine.mainLeftOver || machine.compileProduces) = false ∨
        (1 ≤ j.m_judgenum.toInt ∧
          (machine.compileProduces = true ∨
            ∃ i ∈ j.tests, Rejected (Special machine) j (machine.test i)))))

theorem Rejected_congr {j j' : Judger} (hconf : j'.execConfig = j.execConfig)
    (hmem : j'.m_memorylimit = j.m_memorylimit) (special : Bool) (test : TestRun) :
    Rejected special j' test ↔ Rejected special j test := by
  unfold Rejected
  rw [hconf, hmem]

/-! ## Preparing and compiling -/

/-- What the compiler leaves when there is a `main` to run. -/
def compiled (machine : Machine) (j : Judger) : Judger :=
  if machine.compileProduces then { j with log := j.log ++ [.compiled] } else j

theorem prepared_spec (machine : Machine) (j : Judger) (hj : j.Ready) :
    let j' := prepared machine j
    j'.m_result = (if SpjFails machine then .SE else .PJ) ∧ j'.m_isspj = Special machine ∧
      j'.m_language = j.m_language ∧ j'.m_judgenum = j.m_judgenum ∧ j'.log = j.log ∧
      j'.m_timelimit = j.m_timelimit ∧ j'.m_memorylimit = j.m_memorylimit ∧
      j'.execConfig = j.execConfig := by
  simp only [prepared, CompileSPJ, SpjFails, Special]
  -- the ways through `CompileSPJ`, in the order of its tests
  by_cases hspj : machine.spjExists
  · simp [hspj, hj.pending, execConfig]
  · by_cases hsource : machine.spjSourceExists
    · by_cases hruns : machine.spjCompileRuns
      · by_cases hbuilt : machine.spjBuilt <;>
          simp [hspj, hsource, hruns, hbuilt, hj.pending, hj.no_spj, execConfig]
      · simp [hspj, hsource, hruns, hj.no_spj, execConfig]
    · simp [hspj, hsource, hj.pending, hj.no_spj, execConfig]

theorem compiled_spec (machine : Machine) (j : Judger) :
    let j' := compiled machine j
    j'.m_result = j.m_result ∧ j'.m_isspj = j.m_isspj ∧ j'.m_judgenum = j.m_judgenum ∧
      j'.log = j.log ++ (if machine.compileProduces then [.compiled] else []) ∧
      j'.m_memorylimit = j.m_memorylimit ∧ j'.execConfig = j.execConfig := by
  by_cases hmain : machine.compileProduces <;> simp [compiled, hmain, execConfig]

theorem Compile_eq (machine : Machine) (j : Judger) :
    Compile machine j =
      if machine.compileRuns then
        if machine.mainLeftOver || machine.compileProduces then (true, compiled machine j)
        else (false, GetCompilationFailed machine (compiled machine j))
      else (false, { j with m_result := .SE }) := by
  unfold Compile compiled
  by_cases hruns : machine.compileRuns <;> simp [hruns]

theorem compileAndRun_eq (machine : Machine) (judgeResult : JudgeResult) (j : Judger) :
    compileAndRun machine judgeResult j =
      if Runnable j.m_language then runCompiled machine judgeResult (Compile machine j) else j := by
  unfold compileAndRun Runnable CompileC CompileCpp
  by_cases hc : j.m_language = bytes "C"
  · simp [hc]
  · by_cases hcpp : j.m_language = bytes "C++" <;> simp [hc, hcpp]

/-- The ways through `Run`, each with the members it hands to `Done`. -/
theorem finish_cases (machine : Machine) (judgeResult : JudgeResult) (j : Judger) (hj : j.Ready) :
    let out := finish machine judgeResult j
    (Accepted machine j.m_language = false ∧ out.m_result = .SE) ∨
      (Accepted machine j.m_language = true ∧ Runnable j.m_language = false ∧
        out = prepared machine j) ∨
      (Accepted machine j.m_language = true ∧ Runnable j.m_language = true ∧
        (machine.compileRuns = false ∨ (machine.mainLeftOver || machine.compileProduces) = false) ∧
        (out.m_result = .SE ∨ out.m_result = .CE)) ∨
      (Accepted machine j.m_language = true ∧ Runnable j.m_language = true ∧
        machine.compileRuns = true ∧ (machine.mainLeftOver || machine.compileProduces) = true ∧
        out = RunProgramC_Cpp machine judgeResult (compiled machine (prepared machine j))) := by
  rcases prepared_spec machine j hj with ⟨-, -, hlang, -⟩
  simp only [finish, prepare_eq]
  cases haccepted : Accepted machine j.m_language with
  | false =>
      simp
  | true =>
      -- `Init` went through; the language and the compiler decide how far `Run` gets
      simp only [if_true, compileAndRun_eq, hlang, Compile_eq]
      cases Runnable j.m_language with
      | false =>
          simp
      | true =>
          by_cases hruns : machine.compileRuns
          · cases hmain : (machine.mainLeftOver || machine.compileProduces) <;>
              simp [hruns, runCompiled, GetCompilationFailed]
          · simp [hruns, runCompiled]

/-! ## Running -/

/-- An entry is harmless exactly when its test is not rejected. -/
theorem harmless_iff {j : Judger} (test : TestRun) (res : JudgeResult) :
    Harmless (classify test (runJudge j.execConfig test.child res) j).1 ↔
      ¬ Rejected j.m_isspj j test := by
  unfold Rejected
  cases hchild : test.child with
  | forkFailed =>
      simp [runJudge, classify, Harmless]
  | threadFailed =>
      simp [runJudge, classify, Harmless]
  | waited w =>
      by_cases hw : w.Succeeded j.execConfig
      · have hsuccess := (runJudge_waited_success_iff j.execConfig w res).2 hw
        have htime : ¬ toRlim j.m_timelimit.toInt < w.cpuTimeCost := UInt64.not_lt.2 hw.2.2.2.1
        -- a success is classified by its costs and then by its output
        by_cases hmem : toRlim j.m_memorylimit.toInt < w.memoryCost
        · simp [classify, hsuccess, htime, hmem, hw, Harmless]
        · cases hspj : j.m_isspj with
          | false =>
              by_cases hsame : cstr test.standardAnswer = cstr test.calculateAnswer <;>
                simp [classify, hsuccess, htime, hmem, hw, hspj, hsame, Harmless]
          | true =>
              by_cases hexit : test.spjExit = 0 <;>
                simp [classify, hsuccess, htime, hmem, hw, hspj, hexit, Harmless]
      · have hfailed := mt (runJudge_waited_success_iff j.execConfig w res).1 hw
        -- everything else by its condition alone
        rcases classify_failure test j hfailed with ⟨hac, hstatus⟩
        rw [runJudge_waited_failure_iff _ w res hw] at hstatus
        simp only [hw, if_false, ← hstatus]
        simp [Harmless, hac, Option.eq_none_iff_forall_ne_some]

/-- After the loop: the verdict is `AC` when it was not lost before and no test is rejected, and every
test has been run. -/
theorem RunProgramC_Cpp_spec (machine : Machine) (judgeResult : JudgeResult) (j : Judger) :
    let out := RunProgramC_Cpp machine judgeResult j
    (out.Done.Status = .AC ↔
      Accepting j.m_result ∧ ∀ i ∈ j.tests, ¬ Rejected j.m_isspj j (machine.test i)) ∧
      out.log = j.log ++ j.tests.map .ran ∧ out.m_judgenum = j.m_judgenum := by
  rcases foldl_judgeTest machine j.execConfig judgeResult j j.tests with ⟨htask, hlog, -, hresult⟩
  refine ⟨?_, hlog, congrArg Task.m_judgenum htask⟩
  have hmem := forall_mem_judgeResults machine
    (P := fun test res => Harmless (classify test res j).1) harmless_iff judgeResult j.tests
  rw [Done_AC_iff, RunProgramC_Cpp, RunProgram, ← tests, hresult,
    accepting_foldl_settle (statuses_ne_PJ j _), forall_statuses_iff, hmem]

/-- The tests run on what `Init` and the compiler left: the verdict, the log and the number of tests in
terms of the submission. -/
theorem run_prepared_spec (machine : Machine) (judgeResult : JudgeResult) (j : Judger)
    (hj : j.Ready) (hlog : j.log = []) :
    let out := RunProgramC_Cpp machine judgeResult (compiled machine (prepared machine j))
    (out.Done.Status = .AC ↔ SpjFails machine = false ∧
        ∀ i ∈ j.tests, ¬ Rejected (Special machine) j (machine.test i)) ∧
      (.compiled ∈ out.log ↔ machine.compileProduces = true) ∧
      (∀ i ∈ out.tests, .ran i ∈ out.log) ∧ out.m_judgenum = j.m_judgenum := by
  rcases prepared_spec machine j hj with ⟨hresult, hspecial, -, hnum, hlog', -, hmem, hconf⟩
  rcases compiled_spec machine (prepared machine j) with
    ⟨hresult', hspecial', hnum', hlog'', hmem', hconf'⟩
  -- what the tests read came through both steps unchanged
  set j' := compiled machine (prepared machine j)
  rcases RunProgramC_Cpp_spec machine judgeResult j' with ⟨hAC, hlogs, hnums⟩
  have hnumj : j'.m_judgenum = j.m_judgenum := hnum'.trans hnum
  have htests : j'.tests = j.tests := by
    rw [tests, hnumj, tests]
  have hpending : Accepting j'.m_result ↔ SpjFails machine = false := by
    rw [hresult', hresult]
    cases SpjFails machine <;> simp [Accepting]
  have hrejected : ∀ i, Rejected j'.m_isspj j' (machine.test i) ↔
      Rejected (Special machine) j (machine.test i) := by
    intro i
    rw [hspecial'.trans hspecial]
    exact Rejected_congr (hconf'.trans hconf) (hmem'.trans hmem) _ _
  refine ⟨?_, ?_, ?_, hnums.trans hnumj⟩
  · rw [hAC, hpending, htests]
    simp only [hrejected]
  · rw [hlogs, hlog'', hlog', hlog]
    cases machine.compileProduces <;> simp
  · intro i hi
    rw [tests, hnums, ← tests] at hi
    rw [hlogs]
    exact List.mem_append_right _ (List.mem_map_of_mem hi)

/-! ## Exactness -/

theorem tests_eq_nil_iff (j : Judger) : j.tests = [] ↔ ¬ 1 ≤ j.m_judgenum.toInt := by
  simp only [tests, List.range'_eq_nil_iff]
  omega

/-- The verdict of a submission is earned exactly when it is secured. -/
theorem earned_finish_iff (machine : Machine) (judgeResult : JudgeResult) (j : Judger)
    (hj : j.Ready) (hlog : j.log = []) :
    Earned ((finish machine judgeResult j).Done, finish machine judgeResult j) ↔
      Secured machine j := by
  rcases finish_cases machine judgeResult j hj with
    ⟨hno, hSE⟩ | ⟨hyes, hlang, hout⟩ | ⟨hyes, hlang, hnone, hfail⟩ | ⟨hyes, hlang, hruns, hmain, hout⟩
  · -- `Init` failed
    have hnot : (finish machine judgeResult j).Done.Status ≠ .AC := by
      rw [Ne, Done_AC_iff, hSE]
      simp [Accepting]
    simp [Earned, hnot, Secured, hno]
  · -- a language without a branch: nothing is compiled and nothing is run
    rcases prepared_spec machine j hj with ⟨hresult, -, -, -, hlog', -⟩
    have hAC : (finish machine judgeResult j).Done.Status = .AC ↔ SpjFails machine = false := by
      rw [Done_AC_iff, hout, hresult]
      cases SpjFails machine <;> simp [Accepting]
    have hempty : (finish machine judgeResult j).log = [] := by
      rw [hout, hlog', hlog]
    simp [Earned, hAC, hempty, Secured, hyes, hlang]
  · -- the compilation failed
    have hnot : (finish machine judgeResult j).Done.Status ≠ .AC := by
      rw [Ne, Done_AC_iff]
      rcases hfail with h | h <;> simp [Accepting, h]
    simp only [Earned, hnot, false_imp_iff, Secured, hyes, hlang, true_iff]
    tauto
  · rcases run_prepared_spec machine judgeResult j hj hlog with ⟨hstatus, hcompiled, hran, hnum⟩
    -- there is a `main`: what counts is whose it is, and what the tests make of it
    have hearned : Earned ((finish machine judgeResult j).Done, finish machine judgeResult j) ↔
        (SpjFails machine = false ∧
            ∀ i ∈ j.tests, ¬ Rejected (Special machine) j (machine.test i)) →
          machine.compileProduces = true ∧ 1 ≤ j.m_judgenum.toInt := by
      simp only [Earned, hout, hstatus, hcompiled, hnum]
      exact ⟨fun h hs => ⟨(h hs).1, (h hs).2.1⟩, fun h hs => ⟨(h hs).1, (h hs).2, hran⟩⟩
    have hsecured : Secured machine j ↔ SpjFails machine = true ∨ (1 ≤ j.m_judgenum.toInt ∧
        (machine.compileProduces = true ∨
          ∃ i ∈ j.tests, Rejected (Special machine) j (machine.test i))) := by
      simp [Secured, hyes, hlang, hruns, hmain]
    rw [hearned, hsecured]
    by_cases hrej : ∃ i ∈ j.tests, Rejected (Special machine) j (machine.test i)
    · -- a test that rejects is a test
      have hn : 1 ≤ j.m_judgenum.toInt := by
        by_contra hn
        simp [(tests_eq_nil_iff j).2 hn] at hrej
      have hnone : ¬ ∀ i ∈ j.tests, ¬ Rejected (Special machine) j (machine.test i) := by
        simpa using hrej
      simp [hrej, hn, hnone]
    · have hall : ∀ i ∈ j.tests, ¬ Rejected (Special machine) j (machine.test i) := by
        simpa using hrej
      cases SpjFails machine with
      | false =>
          simp only [hrej, or_false, Bool.false_eq_true, false_or]
          exact ⟨fun h => (h ⟨trivial, hall⟩).symm, fun h _ => h.symm⟩
      | true =>
          simp

/-- **Accepted is earned.** For every JSON and every behaviour of the machine: `Run` returns nothing
but earned verdicts exactly when the submission it reads is secured. -/
theorem earned_iff (machine : Machine) (judgeResult : JudgeResult) (runjson : Json) :
    (∀ out, Run machine judgeResult runjson = .ok out → Earned out) ↔
      ∀ j, load runjson = .ok j → Secured machine j := by
  have hrun : ∀ j, load runjson = .ok j →
      Run machine judgeResult runjson =
        .ok ((finish machine judgeResult j).Done, finish machine judgeResult j) := by
    intro j hj
    simp only [Run, hj]
    rfl
  cases hload : load runjson with
  | error e =>
      have hnone : ∀ out, Run machine judgeResult runjson ≠ .ok out := by
        intro out
        simp [Run, hload, bind, Except.bind]
      simp [hnone]
  | ok j =>
      rw [hrun j hload]
      rcases load_spec hload with ⟨hready, hlog⟩
      simpa using earned_finish_iff machine judgeResult j hready hlog

/-! ## A Python submission -/

/-- A submission with three tests in the language given. -/
def submission (language : String) : Json :=
  .object [("SubmitId", .str "12"), ("ProblemId", .str "7"), ("Code", .str "print(3)"),
    ("JudgeNum", .number_unsigned 3), ("TimeLimit", .number_unsigned 1000),
    ("MemoryLimit", .number_unsigned 64), ("Language", .str language)]

/-- `Python3` is a language of `Init` without a branch in `Run`: the submission is accepted although
nothing was compiled or run. -/
theorem python_accepted_unrun :
    ∃ out, Run (answering (endsWith 0)) nothingRun (submission "Python3") = .ok out ∧
      ¬ Earned out := by
  refine ⟨_, rfl, fun h => ?_⟩
  have haccepted := h (by decide +kernel)
  exact absurd haccepted.1 (by decide +kernel)

end Judger
end Judge
end Myoj
