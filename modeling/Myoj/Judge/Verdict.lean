import Mathlib.Data.List.Forall2
import Myoj.Judge.TestLoop

/-!
# Verdict — when every test gets the verdict it deserves

A test deserves `AC` when the run succeeded, both costs are within the limits and the output file is
the answer file, and some other status when not.  `JudgmentResult` misses this in three ways:

* a condition without a branch (a non-zero exit code, `SIGFPE`, `SIGXFSZ`, a failed `fork`, …) leaves
  the entry without a `Status` and the submission pending, which `Done` turns into `AC`;
* `strcmp` stops at the first NUL byte of the files;
* the limits are compared as unsigned values, and a negative limit is one that nothing exceeds.

`Classified` says of one test that none of this happens, and `verdicts_right_iff` that nothing else can
go wrong, whatever the number of tests.
-/

namespace Myoj
namespace Judge

open Oj

namespace Judger

/-! ## What is asked for -/

/-- The test is passed by the rules of the problem. -/
def Passed (j : Judger) (test : TestRun) (res : JudgeResult) : Prop :=
  res.condition = .RUN_SUCCESS ∧ (res.cpuTimeCost.toNat : Int) ≤ j.m_timelimit.toInt ∧
    (res.memoryCost.toNat : Int) ≤ j.m_memorylimit.toInt ∧
    test.calculateAnswer = test.standardAnswer

/-- The status of an entry is `AC` exactly for a passed test, and there is one. -/
def StatusRight (j : Judger) (test : TestRun) (res : JudgeResult) (status : Option Status) : Prop :=
  (status = some .AC ↔ j.Passed test res) ∧ status ≠ none

/-- The numbers of the tests, as the loop goes through them. -/
def tests (j : Judger) : List Nat := List.range' 1 j.m_judgenum.toInt.toNat

/-- One right entry for each test, in order, and an overall `AC` exactly when all of them are `AC`. -/
def VerdictsRight (machine : Machine) (judgeResult : JudgeResult) (j : Judger) : Prop :=
  let judged := judgeResults machine j.execConfig judgeResult j.tests
  let report := (RunProgramC_Cpp machine judgeResult j).Done
  List.Forall₂ (fun p entry => j.StatusRight p.1 p.2 entry.Status) judged report.TestInfo ∧
    (report.Status = .AC ↔ ∀ entry ∈ report.TestInfo, entry.Status = some .AC)

/-! ## One test -/

/-- Nothing of what `JudgmentResult` misses happens in this test: the program was waited for and ended
plainly, and if it succeeded with an output that looks right to `strcmp`, the output is right and the
limits are not negative. -/
def Classified (j : Judger) (test : TestRun) : Prop :=
  match test.child with
  | .waited w =>
      w.Plain ∧
        (w.Succeeded j.execConfig → w.memoryCost ≤ toRlim j.m_memorylimit.toInt →
          cstr test.standardAnswer = cstr test.calculateAnswer →
            0 ≤ j.m_timelimit.toInt ∧ 0 ≤ j.m_memorylimit.toInt ∧
              test.standardAnswer = test.calculateAnswer)
  | _ => False

theorem cost_le_iff {limit : Int} (h0 : 0 ≤ limit) (h1 : limit < 2 ^ 64) (cost : Rlim) :
    cost ≤ toRlim limit ↔ (cost.toNat : Int) ≤ limit := by
  rw [UInt64.le_iff_toNat_le, ← Int.ofNat_le, toNat_toRlim_of_nonneg h0 h1]

variable {j : Judger}

theorem timelimit_lt (j : Judger) : j.m_timelimit.toInt < 2 ^ 64 :=
  j.m_timelimit.toInt_lt.trans (by decide)

theorem memorylimit_lt (j : Judger) : j.m_memorylimit.toInt < 2 ^ 64 :=
  j.m_memorylimit.toInt_lt.trans (by decide)

/-- A run that succeeded is judged right exactly when an accepted output is a right one. -/
theorem statusRight_success_iff (hspj : j.m_isspj = false) {test : TestRun} {res : JudgeResult}
    (h : res.condition = .RUN_SUCCESS) :
    j.StatusRight test res (classify test res j).1 ↔
      (res.cpuTimeCost ≤ toRlim j.m_timelimit.toInt →
        res.memoryCost ≤ toRlim j.m_memorylimit.toInt →
        cstr test.standardAnswer = cstr test.calculateAnswer →
          0 ≤ j.m_timelimit.toInt ∧ 0 ≤ j.m_memorylimit.toInt ∧
            test.standardAnswer = test.calculateAnswer) := by
  have hsome : (classify test res j).1 ≠ none := by
    rcases classify_success test j h with ⟨s, hs⟩
    simp [hs]
  simp only [StatusRight, classify_accepts_iff test hspj h, hsome, ne_eq, not_false_eq_true, and_true,
    Passed, h, true_and]
  constructor
  · rintro hright htime hmem hsame
    rcases hright.1 ⟨htime, hmem, hsame⟩ with ⟨htime', hmem', hout⟩
    exact ⟨by omega, by omega, hout.symm⟩
  · intro hright
    constructor
    · rintro ⟨htime, hmem, hsame⟩
      rcases hright htime hmem hsame with ⟨h0, h0', hout⟩
      exact ⟨(cost_le_iff h0 j.timelimit_lt _).1 htime, (cost_le_iff h0' j.memorylimit_lt _).1 hmem,
        hout.symm⟩
    · -- a passed test has non-negative limits, so the unsigned comparison is the real one
      rintro ⟨htime, hmem, hout⟩
      have h0 : 0 ≤ j.m_timelimit.toInt := by omega
      have h0' : 0 ≤ j.m_memorylimit.toInt := by omega
      exact ⟨(cost_le_iff h0 j.timelimit_lt _).2 htime, (cost_le_iff h0' j.memorylimit_lt _).2 hmem,
        by rw [hout]⟩

/-- A run that did not succeed is judged right exactly when its condition has a branch. -/
theorem statusRight_failure_iff {test : TestRun} {res : JudgeResult}
    (h : res.condition ≠ .RUN_SUCCESS) :
    j.StatusRight test res (classify test res j).1 ↔ res.condition.Failure = true := by
  rcases classify_failure test j h with ⟨hac, hstatus⟩
  rw [← hstatus]
  simp only [StatusRight, hac, Passed, h, false_and, true_and, Option.ne_none_iff_exists']

/-- **One test.** The entry of a test is right exactly when the test is classified. -/
theorem statusRight_iff (hspj : j.m_isspj = false) (test : TestRun) (res : JudgeResult) :
    j.StatusRight test (runJudge j.execConfig test.child res)
        (classify test (runJudge j.execConfig test.child res) j).1 ↔
      j.Classified test := by
  unfold Classified
  cases hchild : test.child with
  | forkFailed =>
      rw [statusRight_failure_iff (by simp [runJudge])]
      simp [runJudge, RunningCondition.Failure]
  | threadFailed =>
      rw [statusRight_failure_iff (by simp [runJudge])]
      simp [runJudge, RunningCondition.Failure]
  | waited w =>
      by_cases hw : w.Succeeded j.execConfig
      · have hplain : w.Plain := .inl ⟨hw.1, hw.2.1⟩
        have htime : w.cpuTimeCost ≤ toRlim j.m_timelimit.toInt := hw.2.2.2.1
        rw [statusRight_success_iff hspj ((runJudge_waited_success_iff _ w res).2 hw)]
        simp [hplain, hw, htime]
      · rw [statusRight_failure_iff (mt (runJudge_waited_success_iff _ w res).1 hw),
          runJudge_waited_failure_iff _ w res hw]
        simp [hw]

/-! ## All tests -/

theorem forall_mem_judgeResults (machine : Machine) {conf : ExecConfig}
    {P : TestRun → JudgeResult → Prop} {Q : TestRun → Prop}
    (h : ∀ test res, P test (runJudge conf test.child res) ↔ Q test) (res : JudgeResult)
    (is : List Nat) :
    (∀ p ∈ judgeResults machine conf res is, P p.1 p.2) ↔ ∀ i ∈ is, Q (machine.test i) := by
  induction is generalizing res with
  | nil =>
      simp [judgeResults]
  | cons i is ih =>
      rw [judgeResults, List.forall_mem_cons, List.forall_mem_cons, h, ih]

/-- The entries are right exactly when each status is right for its test. -/
theorem forall₂_entries_iff {machine : Machine} {res : JudgeResult} (hj : j.Ready) :
    List.Forall₂ (fun (p : TestRun × JudgeResult) (entry : TestInfo) =>
        j.StatusRight p.1 p.2 entry.Status)
      (judgeResults machine j.execConfig res j.tests) (RunProgramC_Cpp machine res j).testInfo ↔
      ∀ p ∈ judgeResults machine j.execConfig res j.tests,
        j.StatusRight p.1 p.2 (classify p.1 p.2 j).1 := by
  rcases foldl_judgeTest machine j.execConfig res j j.tests with ⟨-, -, hinfo, -⟩
  rw [hj.no_entries] at hinfo
  have hmap : (RunProgramC_Cpp machine res j).testInfo.map (·.Status) =
      (judgeResults machine j.execConfig res j.tests).map fun p => (classify p.1 p.2 j).1 := hinfo
  rw [← List.forall₂_map_right_iff (R := fun (p : TestRun × JudgeResult) status =>
    j.StatusRight p.1 p.2 status) (f := TestInfo.Status), hmap, List.forall₂_map_right_iff,
    List.forall₂_same]

/-- **Verdicts.** For every number of tests and whatever becomes of the runs: the entries and the
overall verdict are right exactly when every test is classified. -/
theorem verdicts_right_iff (machine : Machine) (judgeResult : JudgeResult) (j : Judger)
    (hj : j.Ready) :
    VerdictsRight machine judgeResult j ↔ ∀ i ∈ j.tests, j.Classified (machine.test i) := by
  rw [← forall_mem_judgeResults machine
    (P := fun test res => j.StatusRight test res (classify test res j).1)
    (statusRight_iff hj.no_spj) judgeResult j.tests, ← forall₂_entries_iff hj]
  refine ⟨fun h => h.1, fun h => ⟨h, ?_⟩⟩
  -- every entry has a status, so being harmless is being `AC`
  set judged := judgeResults machine j.execConfig judgeResult j.tests with hjudged
  rcases foldl_judgeTest machine j.execConfig judgeResult j j.tests with ⟨-, -, hinfo, hresult⟩
  rw [hj.no_entries, List.map_nil, List.nil_append] at hinfo
  have hsome : ∀ s ∈ statuses j judged, s ≠ none :=
    forall_statuses_iff.2 fun p hp => ((forall₂_entries_iff hj).1 h p hp).2
  have hreport : (RunProgramC_Cpp machine judgeResult j).Done.Status = .AC ↔
      ∀ s ∈ statuses j judged, Harmless s := by
    rw [Done_AC_iff, RunProgramC_Cpp, RunProgram, ← tests, hresult, hj.pending,
      accepting_foldl_settle (statuses_ne_PJ j judged)]
    simp [Accepting]
  have hentries : (∀ entry ∈ (RunProgramC_Cpp machine judgeResult j).Done.TestInfo,
      entry.Status = some .AC) ↔ ∀ s ∈ statuses j judged, s = some .AC := by
    rw [← hinfo]
    simp [RunProgramC_Cpp, RunProgram, tests, Done]
  rw [hreport, hentries]
  exact forall₂_congr fun s hs => by simp [Harmless, hsome s hs]

/-! ## One test that divides by zero -/

/-- A machine on which everything works and every test runs as `run`. -/
def answering (run : TestRun) : Machine where
  mkdirRuns := true
  sourceOpens := true
  sourceSize := 60
  spjExists := false
  spjSourceExists := false
  spjCompileRuns := true
  spjBuilt := false
  compileRuns := true
  mainLeftOver := false
  compileProduces := true
  compileinfo := []
  test := fun _ => run

/-- A run that ends with the wait status given after 3 ms of CPU time and prints `3`. -/
def endsWith (status : Nat) : TestRun where
  child := .waited {
    status
    ru_utime := ⟨0, 3000⟩
    ru_maxrss := 1800
    startTime := ⟨100, 0⟩
    endTime := ⟨100, 5000⟩ }
  standardInput := bytes "6 2"
  standardAnswer := bytes "3"
  calculateAnswer := bytes "3"
  errorOut := []
  judgerLog := []
  spjExit := 0

/-- A C++ submission with one test, one second and 64 MB, about to be run. -/
def oneTest : Judger where
  m_isspj := false
  m_submitid := bytes "12"
  m_problemid := bytes "7"
  m_judgenum := 1
  m_code := bytes "int main(){}"
  m_result := .PJ
  m_reason := []
  m_language := bytes "C++"
  m_length := bytes "60B"
  m_timelimit := 1000
  m_memorylimit := 67108864
  m_maxtimelimit := 2000
  m_maxmemorylimie := 134217728
  m_runtime := 0
  m_runmemory := 0
  testInfo := []
  log := [.compiled]

theorem oneTest_ready : oneTest.Ready := ⟨rfl, rfl, rfl⟩

def nothingRun : JudgeResult := ⟨0, 0, 0, .RUN_SUCCESS⟩

/-- A test that exits with 0 and prints the answer gets the verdict it deserves. -/
theorem verdicts_right_accepted : VerdictsRight (answering (endsWith 0)) nothingRun oneTest := by
  refine (verdicts_right_iff _ _ _ oneTest_ready).2 fun i _ => ?_
  have hright : oneTest.Classified (endsWith 0) :=
    ⟨.inl ⟨by decide, by decide⟩, fun _ _ _ => ⟨by decide, by decide, rfl⟩⟩
  exact hright

/-- A program killed by `SIGFPE` gets an entry without status, and the submission is accepted. -/
theorem float_error_accepted :
    oneTest.Ready ∧ ¬ VerdictsRight (answering (endsWith SIGFPE)) nothingRun oneTest := by
  refine ⟨oneTest_ready, fun h => ?_⟩
  have haccepted :
      (RunProgramC_Cpp (answering (endsWith SIGFPE)) nothingRun oneTest).Done.Status = .AC := by
    decide +kernel
  have hstatus : (RunProgramC_Cpp (answering (endsWith SIGFPE)) nothingRun oneTest).Done.TestInfo.map
      (·.Status) = [none] := by
    decide +kernel
  have hall := h.2.1 haccepted
  rw [← List.forall_mem_map (P := fun s => s = some Status.AC), hstatus] at hall
  simp at hall

end Judger
end Judge
end Myoj
