import Myoj.Judge.RunningCondition
import Myoj.Oj.Json

/-!
# Judger — one submission from its JSON to its verdict

`Judger::Run` reads the submission, writes the source file, compiles it, runs it on every test and
turns what is left of a pending verdict into `AC`.

* `Machine` — what the file system, `system` and the forked programs answer during one submission;
* `Judger` — the data members, with a log of the steps that count (`compiled`, `ran i`);
* `Init`, `CompileSPJ`, `Compile`, `RunProgram`, `JudgmentResult`, `Done`, `Run` — the functions.

The paths are left out: a `Machine` answers for the files of one submission.
-/

namespace Myoj
namespace Judge

open Oj

/-- `enum Status`. -/
inductive Status where
  | PJ
  | CE
  | AC
  | WA
  | RE
  | TLE
  | MLE
  | SE
  deriving DecidableEq, Repr

/-- The enumerators as the integers that go into the result JSON. -/
def Status.toNat : Status → Nat
  | .PJ => 0
  | .CE => 1
  | .AC => 2
  | .WA => 3
  | .RE => 4
  | .TLE => 5
  | .MLE => 6
  | .SE => 7

/-- One test: how its run ends and the files `JudgmentResult` reads afterwards. -/
structure TestRun where
  child : Child
  standardInput : Bytes
  standardAnswer : Bytes
  calculateAnswer : Bytes
  /-- `error.out` and `judger.log` of the run directory. -/
  errorOut : Bytes
  judgerLog : Bytes
  /-- The value of `system` for the special judge. -/
  spjExit : Int
  deriving DecidableEq, Repr, Inhabited

/-- What the machine answers while one submission is judged. -/
structure Machine where
  /-- `system("mkdir …") != -1`. -/
  mkdirRuns : Bool
  sourceOpens : Bool
  sourceSize : Nat
  /-- `access` on `spj`, before and after it is compiled, and on `spj.cpp`. -/
  spjExists : Bool
  spjSourceExists : Bool
  spjCompileRuns : Bool
  spjBuilt : Bool
  /-- `system(m_command) != -1` for the compiler. -/
  compileRuns : Bool
  /-- A file `main` already lies in the run directory. -/
  mainLeftOver : Bool
  /-- The compiler writes `main`. -/
  compileProduces : Bool
  compileinfo : Bytes
  test : Nat → TestRun
  deriving Inhabited

/-- One entry of `TestInfo`; `Status` is the member that is not always set. -/
structure TestInfo where
  RunTime : Bytes
  RunMemory : Bytes
  StandardInput : Bytes
  StandardOutput : Bytes
  PersonalOutput : Bytes
  Status : Option Status
  deriving DecidableEq, Repr

/-- The steps that make a verdict earned. -/
inductive Step where
  | compiled
  | ran (index : Nat)
  deriving DecidableEq, Repr

/-- The data members of `Judger` that are read again. -/
structure Judger where
  m_isspj : Bool
  m_submitid : Bytes
  m_problemid : Bytes
  m_judgenum : Int32
  m_code : Bytes
  m_result : Status
  m_reason : Bytes
  m_language : Bytes
  m_length : Bytes
  m_timelimit : Int32
  m_memorylimit : Int64
  m_maxtimelimit : Int32
  m_maxmemorylimie : Int64
  m_runtime : Int32
  m_runmemory : Int64
  /-- `m_resjson["TestInfo"]`. -/
  testInfo : List TestInfo
  /-- What was done on the machine, in order. -/
  log : List Step
  deriving DecidableEq

namespace Judger

/-! ## Init -/

/-- The assignments at the head of `Init`.  Its first line dumps the JSON into the debug log. -/
def load (initjson : Json) : Except Exception Judger := do
  initjson.dump
  let m_submitid ← (← initjson.index "SubmitId").getString
  let m_problemid ← (← initjson.index "ProblemId").getString
  let m_code ← (← initjson.index "Code").getString
  let m_judgenum ← (← initjson.index "JudgeNum").getInt
  let m_timelimit ← (← initjson.index "TimeLimit").getInt
  let memorylimit ← (← initjson.index "MemoryLimit").getInt64
  let m_memorylimit := memorylimit * 1024 * 1024
  let m_language ← (← initjson.index "Language").getString
  return {
    m_submitid, m_problemid, m_code, m_judgenum, m_timelimit, m_memorylimit, m_language
    m_maxtimelimit := m_timelimit * 2
    m_maxmemorylimie := m_memorylimit * 2
    m_result := .PJ
    m_reason := []
    m_runmemory := 0
    m_runtime := 0
    m_isspj := false
    m_length := []
    testInfo := []
    log := [] }

/-- The members as they are before the first test when there is no special judge. -/
structure Ready (j : Judger) : Prop where
  pending : j.m_result = .PJ
  no_spj : j.m_isspj = false
  no_entries : j.testInfo = []

theorem load_spec {initjson : Json} {j : Judger} (h : load initjson = .ok j) :
    j.Ready ∧ j.log = [] := by
  simp only [load, bind, Except.bind] at h
  -- a getter that throws leaves nothing to show, and past all of them the members are explicit
  repeat' split at h
  all_goals first | cases h; exact ⟨⟨rfl, rfl, rfl⟩, rfl⟩ | cases h

/-- The source file for a language; `none` in the final `else`. -/
def sourceFile (m_language : Bytes) : Option String :=
  if m_language = bytes "C" then some "main.c"
  else if m_language = bytes "C++" then some "main.cpp"
  else if m_language = bytes "Go" then some "main.go"
  else if m_language = bytes "Java" then some "Main.java"
  else if m_language = bytes "Python2" then some "main.py"
  else if m_language = bytes "Python3" then some "main.py"
  else if m_language = bytes "JavaScript" then some "main.js"
  else none

def CompileSPJ (machine : Machine) (j : Judger) : Bool × Judger :=
  if machine.spjExists then (true, { j with m_isspj := true })
  else if ¬ machine.spjSourceExists then (true, j)
  else if ¬ machine.spjCompileRuns then (false, { j with m_result := .SE })
  else if machine.spjBuilt then (true, { j with m_isspj := true })
  else (true, j)

/-- The rest of `Init`: the run directory, the source file, the special judge. -/
def prepare (machine : Machine) (j : Judger) : Bool × Judger :=
  if ¬ machine.mkdirRuns then (false, { j with m_result := .SE })
  else
    match sourceFile j.m_language with
    | none => (false, { j with m_result := .SE })
    | some _ =>
        if ¬ machine.sourceOpens then (false, { j with m_result := .SE })
        else
          let j := { j with m_length := bytes (toString machine.sourceSize ++ "B") }
          -- the result of `CompileSPJ` is not looked at
          (true, (CompileSPJ machine j).2)

/-- `Init` returns true: the directory is made, the language has a branch, the source file opens. -/
def Accepted (machine : Machine) (m_language : Bytes) : Bool :=
  machine.mkdirRuns && (sourceFile m_language).isSome && machine.sourceOpens

/-- What `Init` leaves when it returns true. -/
def prepared (machine : Machine) (j : Judger) : Judger :=
  (CompileSPJ machine { j with m_length := bytes (toString machine.sourceSize ++ "B") }).2

theorem prepare_eq (machine : Machine) (j : Judger) :
    prepare machine j =
      if Accepted machine j.m_language then (true, prepared machine j)
      else (false, { j with m_result := .SE }) := by
  unfold prepare Accepted prepared
  by_cases hdir : machine.mkdirRuns
  · cases hfile : sourceFile j.m_language with
    | none =>
        simp [hdir]
    | some file =>
        by_cases hopen : machine.sourceOpens <;> simp [hdir, hopen]
  · simp [hdir]

/-! ## Compiling -/

def GetCompilationFailed (machine : Machine) (j : Judger) : Judger :=
  { j with m_reason := machine.compileinfo, m_result := .CE }

/-- `CompileC` and `CompileCpp`: run the compiler, then look for `main`. -/
def Compile (machine : Machine) (j : Judger) : Bool × Judger :=
  if ¬ machine.compileRuns then (false, { j with m_result := .SE })
  else
    let j := if machine.compileProduces then { j with log := j.log ++ [.compiled] } else j
    if machine.mainLeftOver || machine.compileProduces then (true, j)
    else (false, GetCompilationFailed machine j)

def CompileC := Compile
def CompileCpp := Compile

/-! ## Judging one test -/

/-- `std::max((rlim_t)m, cost)`. -/
def maxCost (m : Int) (cost : Rlim) : Rlim :=
  if toRlim m < cost then cost else toRlim m

/-- The branches of `JudgmentResult`: the `Status` of the entry, if one is set, and the members. -/
def classify (test : TestRun) (res : JudgeResult) (j : Judger) : Option Status × Judger :=
  if res.condition = .RUN_SUCCESS then
    if toRlim j.m_timelimit.toInt < res.cpuTimeCost then (some .TLE, { j with m_result := .TLE })
    else if toRlim j.m_memorylimit.toInt < res.memoryCost then
      (some .MLE, { j with m_result := .MLE })
    else if j.m_isspj then
      if test.spjExit ≠ 0 then (some .WA, { j with m_result := .WA }) else (some .AC, j)
    else
      -- `strcmp` on the two strings
      if cstr test.standardAnswer ≠ cstr test.calculateAnswer then
        (some .WA, { j with m_result := .WA })
      else (some .AC, j)
  else if res.condition = .TIME_LIMIT_EXCEED then (some .TLE, { j with m_result := .TLE })
  -- the source tests the same condition again, for the real time
  else if res.condition = .TIME_LIMIT_EXCEED then (some .TLE, { j with m_result := .TLE })
  else if res.condition = .MEMORY_LIMIT_EXCEED then (some .MLE, { j with m_result := .MLE })
  else if res.condition = .RUNTIME_ERROR then
    (some .RE, { j with m_reason := test.errorOut, m_result := .RE })
  else if res.condition = .SEGMENTATION_FAULT then
    (some .SE, { j with m_reason := test.judgerLog, m_result := .SE })
  else (none, j)

def JudgmentResult (test : TestRun) (res : JudgeResult) (j : Judger) : Judger :=
  let j := { j with
    m_runtime := Int32.ofInt (maxCost j.m_runtime.toInt res.cpuTimeCost).toNat
    m_runmemory := Int64.ofInt (maxCost j.m_runmemory.toInt res.memoryCost).toNat }
  let (status, j) := classify test res j
  let testinfo : TestInfo := {
    RunTime := bytes (toString res.cpuTimeCost.toNat ++ "MS")
    RunMemory := bytes (toString (res.memoryCost.toNat / 1024 / 1024) ++ "MB")
    StandardInput := test.standardInput
    StandardOutput := test.standardAnswer
    PersonalOutput := test.calculateAnswer
    Status := status }
  { j with testInfo := j.testInfo ++ [testinfo] }

/-! ## The test loop -/

/-- The limits `RunProgramC_Cpp` puts into `execConfig`. -/
def execConfig (j : Judger) : ExecConfig where
  cpuTimeLimit := toRlim j.m_timelimit.toInt
  memoryLimit := toRlim j.m_maxmemorylimie.toInt
  realTimeLimit := toRlim j.m_maxtimelimit.toInt

/-- One round of the loop.  `judgeResult` is one local of the whole loop. -/
def judgeTest (machine : Machine) (conf : ExecConfig) (state : JudgeResult × Judger) (i : Nat) :
    JudgeResult × Judger :=
  let test := machine.test i
  let judgeResult := runJudge conf test.child state.1
  let j := { state.2 with log := state.2.log ++ [.ran i] }
  (judgeResult, JudgmentResult test judgeResult j)

/-- `RunProgram`: the tests 1 to `m_judgenum`; `judgeResult` starts uninitialised. -/
def RunProgram (machine : Machine) (conf : ExecConfig) (judgeResult : JudgeResult) (j : Judger) :
    Judger :=
  ((List.range' 1 j.m_judgenum.toInt.toNat).foldl (judgeTest machine conf) (judgeResult, j)).2

def RunProgramC_Cpp (machine : Machine) (judgeResult : JudgeResult) (j : Judger) : Judger :=
  RunProgram machine j.execConfig judgeResult j

/-! ## Done and Run -/

/-- The JSON that `Done` returns. -/
structure Report where
  SubmitId : Bytes
  Status : Status
  ComplierInfo : Bytes
  RunTime : Bytes
  RunMemory : Bytes
  Length : Bytes
  TestInfo : List TestInfo
  deriving DecidableEq, Repr

def Done (j : Judger) : Report :=
  let m_result := if j.m_result = .PJ then .AC else j.m_result
  { SubmitId := j.m_submitid
    Status := m_result
    ComplierInfo := j.m_reason
    RunTime := bytes (toString j.m_runtime.toInt ++ "MS")
    RunMemory := bytes (toString (Int32.ofInt ((j.m_runmemory.toInt.tdiv 1024).tdiv 1024)).toInt ++ "MB")
    Length := j.m_length
    TestInfo := j.testInfo }

/-- The tests run only when the compilation returned true. -/
def runCompiled (machine : Machine) (judgeResult : JudgeResult) : Bool × Judger → Judger
  | (false, j) => j
  | (true, j) => RunProgramC_Cpp machine judgeResult j

/-- `Run` after `Init` returned true: only C and C++ have a branch. -/
def compileAndRun (machine : Machine) (judgeResult : JudgeResult) (j : Judger) : Judger :=
  if j.m_language = bytes "C" then runCompiled machine judgeResult (CompileC machine j)
  else if j.m_language = bytes "C++" then runCompiled machine judgeResult (CompileCpp machine j)
  else j

/-- What is in the members when `Done` is called. -/
def finish (machine : Machine) (judgeResult : JudgeResult) (j : Judger) : Judger :=
  match prepare machine j with
  | (false, j) => j
  | (true, j) => compileAndRun machine judgeResult j

/-- `Judger::Run`, with the members as they were when `Done` was called. -/
def Run (machine : Machine) (judgeResult : JudgeResult) (runjson : Json) :
    Except Exception (Report × Judger) := do
  let j ← load runjson
  let j := finish machine judgeResult j
  return (j.Done, j)

end Judger
end Judge
end Myoj
