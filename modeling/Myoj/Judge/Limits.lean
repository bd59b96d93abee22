import Mathlib.Data.List.Forall2
import Myoj.Judge.Earned

/-!
# Limits — the memory limit between the problem and the verdict

The limit of a problem is in megabytes.  `Init` makes bytes of it and the sandbox gets twice as many;
what it is compared with is `ru_maxrss`, which is in kilobytes.

* `Tested` — `Run` gets to the tests, and `finish_spec` says what they leave;
* `statuses_eq_map` — the entries, when each test is decided on its own;
* `Clean` — a program that nothing but its memory can be held against;
* `Misjudged` — its memory is between the limit and the number of bytes that the limit was made into;
* `memory_right_iff` — the recorded statuses are right when no test is misjudged.
-/

namespace Myoj
namespace Judge

open Oj

namespace Judger

/-! ## The limits of a submission -/

/-- The two limits as `Init` reads them. -/
def TimeLimit (initjson : Json) : Except Exception Int32 := do
  (← initjson.index "TimeLimit").getInt

def MemoryLimit (initjson : Json) : Except Exception Int64 := do
  (← initjson.index "MemoryLimit").getInt64

theorem load_limits {initjson : Json} {j : Judger} (h : load initjson = .ok j) :
    TimeLimit initjson = .ok j.m_timelimit ∧ j.m_maxtimelimit = j.m_timelimit * 2 ∧
      ∃ M, MemoryLimit initjson = .ok M ∧ j.m_memorylimit = M * 1024 * 1024 ∧
        j.m_maxmemorylimie = j.m_memorylimit * 2 := by
  simp only [load, TimeLimit, MemoryLimit, bind, Except.bind] at h ⊢
  repeat' split at h
  all_goals first | cases h; simp_all | cases h

/-! ## Getting to the tests -/

/-- `Init` goes through, the language has a branch and there is a `main` to run. -/
structure Tested (machine : Machine) (j : Judger) : Prop where
  accepted : Accepted machine j.m_language = true
  runnable : Runnable j.m_language = true
  compiler : machine.compileRuns = true
  main : (machine.mainLeftOver || machine.compileProduces) = true

/-- What the tests are judged by, once `Init` has looked for a special judge. -/
def judging (machine : Machine) (j : Judger) : Judger := { j with m_isspj := Special machine }

theorem started_spec (machine : Machine) {j : Judger} (hj : j.Ready) :
    let j' := compiled machine (prepared machine j)
    j'.task = (judging machine j).task ∧ j'.testInfo = [] ∧
      j'.m_result = (if SpjFails machine then .SE else .PJ) := by
  obtain ⟨hresult, hspj, -, hnum, -, htime, hmem, hconf⟩ := prepared_spec machine j hj
  obtain ⟨hresult', hspj', hnum', -, hmem', hconf'⟩ := compiled_spec machine (prepared machine j)
  have hkeep : (compiled machine (prepared machine j)).m_timelimit = (prepared machine j).m_timelimit ∧
      (compiled machine (prepared machine j)).testInfo = (prepared machine j).testInfo := by
    unfold compiled
    split <;> exact ⟨rfl, rfl⟩
  have hinfo : (prepared machine j).testInfo = j.testInfo := by
    unfold prepared CompileSPJ
    split_ifs <;> rfl
  refine ⟨?_, ?_, hresult'.trans hresult⟩
  · simp only [task, judging, hkeep.1, htime, hmem', hmem, hspj', hspj, hconf', hconf, hnum', hnum]
    rfl
  · rw [hkeep.2, hinfo, hj.no_entries]

/-- The entries and the result of a submission that was tested. -/
theorem finish_spec {machine : Machine} {j : Judger} (h : Tested machine j) (hj : j.Ready)
    (judgeResult : JudgeResult) :
    let out := finish machine judgeResult j
    let ss := statuses (judging machine j) (judgeResults machine j.execConfig judgeResult j.tests)
    out.testInfo.map (·.Status) = ss ∧
      out.m_result = ss.foldl settle (if SpjFails machine then .SE else .PJ) := by
  have hout : finish machine judgeResult j =
      RunProgramC_Cpp machine judgeResult (compiled machine (prepared machine j)) := by
    rcases finish_cases machine judgeResult j hj with
      ⟨hno, -⟩ | ⟨-, hlang, -⟩ | ⟨-, -, hnone, -⟩ | ⟨-, -, -, -, hout⟩
    · cases h.accepted.symm.trans hno
    · cases h.runnable.symm.trans hlang
    · rcases hnone with hruns | hmain
      · cases h.compiler.symm.trans hruns
      · cases h.main.symm.trans hmain
    · exact hout
  obtain ⟨htask, hinfo, hresult⟩ := started_spec machine hj
  -- the loop reads nothing but the task
  have hconf : (compiled machine (prepared machine j)).execConfig = j.execConfig :=
    congrArg Task.conf htask
  have htests : (compiled machine (prepared machine j)).tests = j.tests := by
    have hnum : (compiled machine (prepared machine j)).m_judgenum = j.m_judgenum :=
      congrArg Task.m_judgenum htask
    rw [tests, hnum, tests]
  obtain ⟨-, -, hinfo', hresult'⟩ :=
    foldl_judgeTest machine j.execConfig judgeResult (compiled machine (prepared machine j)) j.tests
  rw [statuses_congr htask] at hinfo' hresult'
  rw [hinfo, List.map_nil, List.nil_append] at hinfo'
  rw [hresult] at hresult'
  rw [hout, RunProgramC_Cpp, RunProgram, ← tests, hconf, htests]
  exact ⟨hinfo', hresult'⟩

/-- The statuses one by one, when no test depends on what the tests before it left. -/
theorem statuses_eq_map {machine : Machine} {conf : ExecConfig} {j : Judger} {is : List Nat}
    {f : Nat → Option Status}
    (h : ∀ i ∈ is, ∀ res,
      (classify (machine.test i) (runJudge conf (machine.test i).child res) j).1 = f i)
    (res : JudgeResult) : statuses j (judgeResults machine conf res is) = is.map f := by
  induction is generalizing res with
  | nil =>
      rfl
  | cons i is ih =>
      have hhead := h i List.mem_cons_self res
      have htail := ih (fun i' hi' => h i' (List.mem_cons_of_mem i hi'))
        (runJudge conf (machine.test i).child res)
      rw [List.map_cons, ← hhead, ← htail]
      rfl

/-- A property of the entries is one of the tests then. -/
theorem forall₂_entries_iff_forall {is : List Nat} {testInfo : List TestInfo} {f : Nat → Option Status}
    {P : Nat → Option Status → Prop} (h : testInfo.map (·.Status) = is.map f) :
    List.Forall₂ (fun i entry => P i entry.Status) is testInfo ↔ ∀ i ∈ is, P i (f i) := by
  rw [← List.forall₂_map_right_iff, h, List.forall₂_map_right_iff, List.forall₂_same]

end Judger

/-! ## Costs -/

theorem toRlim_le_iff {m n : Int} : toRlim m ≤ toRlim n ↔ m % 2 ^ 64 ≤ n % 2 ^ 64 := by
  rw [UInt64.le_iff_toNat_le, toNat_toRlim, toNat_toRlim]
  omega

/-- The program was within the limits by the clocks: `T` milliseconds of CPU time, `2T` of real time. -/
structure Wait.InTime (w : Wait) (T : Int) : Prop where
  cpu : 0 ≤ getTimeMillisecondByTimeval w.ru_utime ∧ getTimeMillisecondByTimeval w.ru_utime ≤ T
  real : 0 ≤ getTimeMillisecondByTimeval w.endTime - getTimeMillisecondByTimeval w.startTime ∧
    getTimeMillisecondByTimeval w.endTime - getTimeMillisecondByTimeval w.startTime ≤ 2 * T

/-- Narrowing both sides to `int` keeps their order, also where the limit wraps around. -/
theorem toRlim_narrow_le {cost limit : Int} (h0 : 0 ≤ cost) (hle : cost ≤ limit)
    (hlt : limit < 2 ^ 32) : toRlim (cost.bmod (2 ^ 32)) ≤ toRlim (limit.bmod (2 ^ 32)) := by
  rw [toRlim_le_iff, Int.bmod_def, Int.bmod_def]
  omega

theorem Wait.InTime.costs {w : Wait} {T : Int32} (h : w.InTime T.toInt) :
    w.cpuTimeCost ≤ toRlim T.toInt ∧ w.realTimeCost ≤ toRlim (T * 2).toInt := by
  have hlt : T.toInt < 2 ^ 31 := T.toInt_lt
  have hnarrow : T.toInt = T.toInt.bmod (2 ^ 32) := by
    have hge : -2 ^ 31 ≤ T.toInt := T.le_toInt
    rw [Int.bmod_eq_of_le (by omega) (by omega)]
  have htwo : (2 : Int32).toInt = 2 := rfl
  constructor
  · rw [Wait.cpuTimeCost, Int32.toInt_ofInt, hnarrow]
    exact toRlim_narrow_le h.cpu.1 h.cpu.2 (by omega)
  · rw [Wait.realTimeCost, getGapMillsecond, Int32.toInt_ofInt, Int32.toInt_mul, htwo]
    exact toRlim_narrow_le h.real.1 (h.real.2.trans_eq (Int.mul_comm 2 _)) (by omega)

/-- What `Init` makes of a limit of `M` megabytes, as the smaller of the two numbers that a cost is
compared with; the multiplications wrap around from `2 ^ 43` on. -/
def scaledLimit (M : Int) : Int := min (M * 2 ^ 20 % 2 ^ 64) (M * 2 ^ 21 % 2 ^ 64)

theorem scaledLimit_of_lt {M : Int} (h0 : 0 ≤ M) (h1 : M < 2 ^ 43) : scaledLimit M = 1048576 * M := by
  rw [scaledLimit]
  omega

theorem toInt_mul_emod (m n : Int64) : (m * n).toInt % 2 ^ 64 = m.toInt * n.toInt % 2 ^ 64 := by
  rw [Int64.toInt_mul]
  exact Int.bmod_emod

/-- A cost is over one of the two limits when it is over the smaller one. -/
theorem exceeds_iff {M : Int64} {maxrss : Int} (h0 : 0 ≤ maxrss) (h1 : maxrss < 2 ^ 63) :
    (toRlim (M * 1024 * 1024 * 2).toInt < toRlim maxrss ∨
      toRlim (M * 1024 * 1024).toInt < toRlim maxrss) ↔ scaledLimit M.toInt < maxrss := by
  have hbytes : M * 1024 * 1024 = M * 1048576 := Int64.mul_assoc M 1024 1024
  have hdouble : M * 1024 * 1024 * 2 = M * 2097152 := by
    rw [hbytes]
    exact Int64.mul_assoc M 1048576 2
  have hone : (M * 1024 * 1024).toInt % 2 ^ 64 = M.toInt * 2 ^ 20 % 2 ^ 64 := by
    rw [hbytes]
    exact toInt_mul_emod M 1048576
  have htwo : (M * 1024 * 1024 * 2).toInt % 2 ^ 64 = M.toInt * 2 ^ 21 % 2 ^ 64 := by
    rw [hdouble]
    exact toInt_mul_emod M 2097152
  simp only [← UInt64.not_le, toRlim_le_iff, hone, htwo, scaledLimit]
  omega

namespace Judger

/-! ## Programs that use memory -/

/-- The program exits with 0 within the time limit of `T` milliseconds and its output is right. -/
structure Clean (special : Bool) (T : Int) (test : TestRun) (w : Wait) : Prop where
  child : test.child = .waited w
  exited : w.WIFEXITED = true ∧ w.WEXITSTATUS = 0
  inTime : w.InTime T
  maxrss : 0 ≤ w.ru_maxrss ∧ w.ru_maxrss < 2 ^ 63
  correct : if special then test.spjExit = 0 else test.calculateAnswer = test.standardAnswer

/-- Only the memory decides. -/
theorem Clean.status {j : Judger} {test : TestRun} {w : Wait}
    (h : Clean j.m_isspj j.m_timelimit.toInt test w) (hreal : j.m_maxtimelimit = j.m_timelimit * 2)
    (res : JudgeResult) :
    (classify test (runJudge j.execConfig test.child res) j).1 =
      if toRlim j.m_maxmemorylimie.toInt < w.memoryCost ∨ toRlim j.m_memorylimit.toInt < w.memoryCost then
        some .MLE
      else some .AC := by
  obtain ⟨hcpu, hwall⟩ := h.inTime.costs
  have hcpu' : ¬ toRlim j.m_timelimit.toInt < w.cpuTimeCost := UInt64.not_lt.2 hcpu
  have hwall' : ¬ toRlim j.m_maxtimelimit.toInt < w.realTimeCost := by
    rw [hreal]
    exact UInt64.not_lt.2 hwall
  have hcorrect := h.correct
  rw [h.child]
  by_cases hmax : toRlim j.m_maxmemorylimie.toInt < w.memoryCost
  · -- the sandbox has seen it
    simp [classify, runJudge, getRunningCondition, execConfig, h.exited, hmax]
  · -- the sandbox is content, and the limit itself is compared next
    by_cases hmem : toRlim j.m_memorylimit.toInt < w.memoryCost
    · simp [classify, runJudge, getRunningCondition, execConfig, h.exited, hmax, hcpu', hwall', hmem]
    · cases hspj : j.m_isspj with
      | true =>
          simp only [hspj, if_true] at hcorrect
          simp [classify, runJudge, getRunningCondition, execConfig, h.exited, hmax, hcpu', hwall', hmem,
            hspj, hcorrect]
      | false =>
          simp only [hspj, Bool.false_eq_true, if_false] at hcorrect
          simp [classify, runJudge, getRunningCondition, execConfig, h.exited, hmax, hcpu', hwall', hmem,
            hspj, hcorrect]

/-- The status of a clean program. -/
def memoryStatus (M maxrss : Int) : Status := if scaledLimit M < maxrss then .MLE else .AC

theorem memoryStatus_eq_MLE {M maxrss : Int} : memoryStatus M maxrss = .MLE ↔ scaledLimit M < maxrss := by
  unfold memoryStatus
  split_ifs with h <;> simp [h]

/-- A result that tests with `AC` and `MLE` settle. -/
theorem foldl_settle_eq_MLE {m_result : Status} {ss : List (Option Status)}
    (h : ∀ s ∈ ss, s = some .AC ∨ s = some .MLE) :
    ss.foldl settle m_result = .MLE ↔ m_result = .MLE ∨ some .MLE ∈ ss := by
  induction ss generalizing m_result with
  | nil =>
      simp
  | cons s ss ih =>
      rw [List.foldl_cons, ih fun t ht => h t (List.mem_cons_of_mem s ht), List.mem_cons]
      rcases h s List.mem_cons_self with rfl | rfl
      · simp [settle]
      · simp [settle]

theorem Done_MLE_iff (j : Judger) : j.Done.Status = .MLE ↔ j.m_result = .MLE := by
  by_cases h : j.m_result = .PJ <;> simp [Done, h]

/-! ## What is recorded -/

/-- A test is recorded as `MLE`, and the submission with it, exactly when the program has used more
kilobytes than the limit has. -/
def MemoryRight (machine : Machine) (judgeResult : JudgeResult) (j : Judger) (M : Int)
    (maxrss : Nat → Int) : Prop :=
  let report := (finish machine judgeResult j).Done
  List.Forall₂ (fun i entry => entry.Status = some .MLE ↔ 1024 * M < maxrss i) j.tests
      report.TestInfo ∧
    (report.Status = .MLE ↔ ∃ i ∈ j.tests, 1024 * M < maxrss i)

/-- The kilobytes used are on one side of the limit as kilobytes and on the other side of what the limit
was scaled to. -/
def Misjudged (M maxrss : Int) : Prop :=
  (1024 * M < maxrss ∧ maxrss ≤ scaledLimit M) ∨ (scaledLimit M < maxrss ∧ maxrss ≤ 1024 * M)

theorem not_misjudged_iff {M maxrss : Int} :
    ¬ Misjudged M maxrss ↔ (scaledLimit M < maxrss ↔ 1024 * M < maxrss) := by
  unfold Misjudged
  omega

theorem misjudged_iff_of_lt {M maxrss : Int} (h0 : 0 ≤ M) (h1 : M < 2 ^ 43) :
    Misjudged M maxrss ↔ 1024 * M < maxrss ∧ maxrss ≤ 1048576 * M := by
  rw [Misjudged, scaledLimit_of_lt h0 h1]
  omega

/-- **Memory limits.**  Whatever the limit and however many tests: of programs that end well, what is
recorded is right exactly when none of them is misjudged. -/
theorem memory_right_iff {initjson : Json} {j : Judger} {M : Int64} {machine : Machine}
    {waits : Nat → Wait} (hload : load initjson = .ok j) (hM : MemoryLimit initjson = .ok M)
    (htested : Tested machine j)
    (hclean : ∀ i ∈ j.tests, Clean (Special machine) j.m_timelimit.toInt (machine.test i) (waits i))
    (judgeResult : JudgeResult) :
    MemoryRight machine judgeResult j M.toInt (fun i => (waits i).ru_maxrss) ↔
      ∀ i ∈ j.tests, ¬ Misjudged M.toInt (waits i).ru_maxrss := by
  obtain ⟨-, hreal, M', hM', hmem, hmax⟩ := load_limits hload
  obtain rfl : M' = M := Except.ok.inj (hM'.symm.trans hM)
  have hstatus : ∀ i ∈ j.tests, ∀ res,
      (classify (machine.test i) (runJudge j.execConfig (machine.test i).child res) (judging machine j)).1 =
        some (memoryStatus M'.toInt (waits i).ru_maxrss) := by
    intro i hi res
    obtain ⟨h0, h1⟩ := (hclean i hi).maxrss
    refine (Clean.status (j := judging machine j) (hclean i hi) hreal res).trans ?_
    simp only [judging, hmax, hmem, Wait.memoryCost, exceeds_iff h0 h1, memoryStatus, apply_ite some]
  obtain ⟨hinfo, hresult⟩ := finish_spec htested (load_spec hload).1 judgeResult
  rw [statuses_eq_map hstatus] at hinfo hresult
  have hentries : List.Forall₂ (fun i entry => entry.Status = some .MLE ↔
      1024 * M'.toInt < (waits i).ru_maxrss) j.tests (finish machine judgeResult j).testInfo ↔
      ∀ i ∈ j.tests, ¬ Misjudged M'.toInt (waits i).ru_maxrss := by
    refine (forall₂_entries_iff_forall
      (P := fun i s => s = some .MLE ↔ 1024 * M'.toInt < (waits i).ru_maxrss) hinfo).trans ?_
    simp only [Option.some.injEq, memoryStatus_eq_MLE, not_misjudged_iff]
  refine ⟨fun h => hentries.1 h.1, fun h => ⟨hentries.2 h, ?_⟩⟩
  -- the result is `MLE` when one of the entries is, and these are right
  have htwo : ∀ s ∈ j.tests.map fun i => some (memoryStatus M'.toInt (waits i).ru_maxrss),
      s = some .AC ∨ s = some .MLE := by
    simp only [List.forall_mem_map, memoryStatus]
    intro i _
    split_ifs <;> simp
  have hpending : (if SpjFails machine then Status.SE else .PJ) ≠ .MLE := by
    split <;> decide
  have hmem_iff : (∃ i ∈ j.tests, some (memoryStatus M'.toInt (waits i).ru_maxrss) = some .MLE) ↔
      ∃ i ∈ j.tests, 1024 * M'.toInt < (waits i).ru_maxrss :=
    exists_congr fun i => and_congr_right fun hi => by
      rw [Option.some.injEq, memoryStatus_eq_MLE, not_misjudged_iff.1 (h i hi)]
  rw [Done_MLE_iff, hresult, foldl_settle_eq_MLE htwo, or_iff_right hpending, List.mem_map]
  exact hmem_iff

/-! ## A submission with 64 MB -/

/-- A wait for a program that uses this many kilobytes. -/
def waitFor (maxrss : Int) : Wait where
  status := 0
  ru_utime := ⟨0, 3000⟩
  ru_maxrss := maxrss
  startTime := ⟨100, 0⟩
  endTime := ⟨100, 5000⟩

/-- Such a program, with the right output. -/
def usesMemory (maxrss : Int) : TestRun := { endsWith 0 with child := .waited (waitFor maxrss) }

theorem clean_usesMemory {maxrss : Int} (h0 : 0 ≤ maxrss) (h1 : maxrss < 2 ^ 63) :
    Clean false 1000 (usesMemory maxrss) (waitFor maxrss) where
  child := rfl
  exited := by simp [waitFor, Wait.WIFEXITED, Wait.WTERMSIG, Wait.WEXITSTATUS]
  inTime := by constructor <;> simp [waitFor, getTimeMillisecondByTimeval]
  maxrss := ⟨h0, h1⟩
  correct := rfl

theorem tested_submission {maxrss : Int} {j : Judger} (hj : load (submission "C++") = .ok j) :
    Tested (answering (usesMemory maxrss)) j := by
  cases hj
  exact ⟨rfl, by decide, rfl, rfl⟩

/-- Less than two of the 64 megabytes are used. -/
theorem memory_right_small : ∃ j, load (submission "C++") = .ok j ∧
    MemoryRight (answering (usesMemory 1800)) nothingRun j 64 fun _ => 1800 := by
  refine ⟨_, rfl, ?_⟩
  have hM : MemoryLimit (submission "C++") = .ok 64 := rfl
  have hsmall : ¬ Misjudged 64 1800 := by
    rw [misjudged_iff_of_lt] <;> decide
  exact (memory_right_iff rfl hM (tested_submission rfl)
    (fun _ _ => clean_usesMemory (by decide) (by decide)) nothingRun).2 fun _ _ => hsmall

/-- 70000 kilobytes are more than 64 megabytes, and the submission is accepted. -/
theorem large_accepted : ∃ j, load (submission "C++") = .ok j ∧
    Tested (answering (usesMemory 70000)) j ∧ Clean false 1000 (usesMemory 70000) (waitFor 70000) ∧
    ¬ MemoryRight (answering (usesMemory 70000)) nothingRun j 64 fun _ => 70000 := by
  refine ⟨_, rfl, tested_submission rfl, clean_usesMemory (by decide) (by decide), fun hright => ?_⟩
  have hexceeds := hright.2.2 ⟨1, by decide, by decide⟩
  exact absurd hexceeds (by decide +kernel)

end Judger
end Judge
end Myoj
