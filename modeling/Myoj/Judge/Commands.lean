import Myoj.Judge.TestLoop
import Myoj.Lib.Numerals
import Myoj.Lib.Shell

/-!
# Commands — what the judger passes to `system`

The judger puts the identifiers of a submission into paths, and the paths into command lines.  Each call
comes with the command that is meant; that the text is the text of this command is part of the call, so
whether the shell runs it is a question of the identifiers alone.

* `SystemCall` — a text for `system`, and the command it stands for;
* `Init_calls`, `JudgmentResult_calls`, … — the calls of each function, in order;
* `Run_calls` — those of one submission;
* `run_intended_iff` — when they are all what is meant.
-/

namespace Myoj
namespace Judge

open Shell

/-- A text that is passed to `system`. -/
structure SystemCall where
  text : Bytes
  meant : Command
  text_eq : text = meant.text
  shaped : meant.Shaped

/-- The shell runs the program that is meant, on files inside the directories of the identifiers. -/
def SystemCall.Intended (c : SystemCall) : Prop := c.meant.Meant c.text

theorem SystemCall.intended_iff (c : SystemCall) :
    c.Intended ↔ ∀ p ∈ c.meant.paths, SafeName p.name := by
  rw [Intended, c.text_eq]
  exact meant_iff c.shaped

/-! ## The paths -/

def runBase : Bytes := bytes "/home/thebs/mymuduo/oj/datadir/run/"

def dataBase : Bytes := bytes "/home/thebs/mymuduo/oj/datadir/data/"

def RUN_PATH (m_submitid : Bytes) : Bytes := runBase ++ m_submitid ++ bytes "/"

def DATA_PATH (m_problemid : Bytes) : Bytes := dataBase ++ m_problemid ++ bytes "/"

/-- A file in the run directory. -/
def inRun (m_submitid file : Bytes) : Path := ⟨runBase, m_submitid, bytes "/" ++ file⟩

/-- A file in the data directory. -/
def inData (m_problemid file : Bytes) : Path := ⟨dataBase, m_problemid, bytes "/" ++ file⟩

theorem shaped_inRun (m_submitid : Bytes) {file : Bytes} (h : Path.FileShaped (bytes "/" ++ file)) :
    (inRun m_submitid file).Shaped := by
  have hbase : Path.BaseShaped runBase := by decide
  exact ⟨hbase, h⟩

theorem shaped_inData (m_problemid : Bytes) {file : Bytes} (h : Path.FileShaped (bytes "/" ++ file)) :
    (inData m_problemid file).Shaped := by
  have hbase : Path.BaseShaped dataBase := by decide
  exact ⟨hbase, h⟩

theorem text_inRun (m_submitid file : Bytes) : (inRun m_submitid file).text = RUN_PATH m_submitid ++ file := by
  simp only [Path.text, Path.directory, inRun, RUN_PATH, List.append_assoc]

theorem text_inData (m_problemid file : Bytes) :
    (inData m_problemid file).text = DATA_PATH m_problemid ++ file := by
  simp only [Path.text, Path.directory, inData, DATA_PATH, List.append_assoc]

/-- A digit stands for itself. -/
theorem plain_of_isdigit {c : UInt8} (h : Numerals.isdigit c = true) : plain c = true := by
  have hnot : ∀ s : Bytes, s.all (fun d => !Numerals.isdigit d) = true → c ∉ s := by
    intro s hs hc
    have hd := List.all_eq_true.1 hs c hc
    rw [h] at hd
    cases hd
  have hoperator : c ∉ bytes "|&;<>()\n" := hnot _ (by decide)
  have hblank : c ∉ bytes " \t" := hnot _ (by decide)
  have hspecial : c ∉ 0 :: bytes "\\'\"$`*?[" := hnot _ (by decide)
  unfold plain operator blank special
  rw [decide_eq_false hoperator, decide_eq_false hblank, decide_eq_false hspecial]
  rfl

/-- A file name of one component. -/
theorem fileShaped_slash {file : Bytes} (hplain : file.all plain = true) (hslash : 47 ∉ file)
    (hparent : file ≠ parent) : Path.FileShaped (bytes "/" ++ file) := by
  have hone : components file = [file] := components_eq_singleton hslash
  have hcomponents : components (bytes "/" ++ file) = [[], file] := by
    rw [← hone]
    exact components_slash [] file
  refine ⟨?_, rfl, ?_⟩
  · rw [List.all_append, hplain]
    decide
  · rw [hcomponents]
    simpa [parent] using ⟨by decide, Ne.symm hparent⟩

/-- The name of a test file. -/
theorem fileShaped_test (i : Nat) {extension : Bytes} (hplain : extension.all plain = true)
    (hslash : 47 ∉ extension) (hlong : 2 < extension.length) :
    Path.FileShaped (bytes "/" ++ (Numerals.to_string i ++ extension)) := by
  have hdigits := List.all_eq_true.1 (Numerals.isdigit_to_string i)
  refine fileShaped_slash ?_ ?_ ?_
  · have hnumber : (Numerals.to_string i).all plain = true :=
      List.all_eq_true.2 fun c hc => plain_of_isdigit (hdigits c hc)
    rw [List.all_append, hnumber, hplain]
    rfl
  · rw [List.mem_append, not_or]
    refine ⟨fun hmem => ?_, hslash⟩
    have hdigit : Numerals.isdigit 47 = true := hdigits 47 hmem
    revert hdigit
    decide
  · intro heq
    have hlen := congrArg List.length heq
    have hparent : parent.length = 2 := by decide
    rw [List.length_append, hparent] at hlen
    omega

/-! ## The calls -/

section calls

variable (m_submitid m_problemid : Bytes)

/-- `mkdir` in `Init`. -/
def mkdirCall : SystemCall where
  text := bytes "mkdir " ++ RUN_PATH m_submitid
  meant := { argv := [.literal (bytes "mkdir"), .path (inRun m_submitid [])], stderr := none }
  text_eq := by
    simp only [Command.text, Command.words, List.map, Arg.text, unwords, text_inRun, List.append_nil]
    rfl
  shaped := by
    have hdir : (inRun m_submitid []).Shaped := shaped_inRun _ (by decide)
    simp only [Command.Shaped, List.forall_mem_cons]
    exact ⟨⟨by decide, hdir, by simp⟩, by simp⟩

/-- `rm` in `Done`. -/
def rmCall : SystemCall where
  text := bytes "rm -rf " ++ RUN_PATH m_submitid
  meant := {
    argv := [.literal (bytes "rm"), .literal (bytes "-rf"), .path (inRun m_submitid [])]
    stderr := none }
  text_eq := by
    simp only [Command.text, Command.words, List.map, Arg.text, unwords, text_inRun, List.append_nil]
    rfl
  shaped := by
    have hdir : (inRun m_submitid []).Shaped := shaped_inRun _ (by decide)
    simp only [Command.Shaped, List.forall_mem_cons]
    exact ⟨⟨by decide, by decide, hdir, by simp⟩, by simp⟩

/-- The compiler of the special judge. -/
def compileSPJCall : SystemCall where
  text := bytes "timeout 10 g++ " ++ DATA_PATH m_problemid ++ bytes "spj.cpp -o " ++ DATA_PATH m_problemid ++
    bytes "spj -O2 -std=c++14"
  meant := {
    argv := [.literal (bytes "timeout"), .literal (bytes "10"), .literal (bytes "g++"),
      .path (inData m_problemid (bytes "spj.cpp")), .literal (bytes "-o"),
      .path (inData m_problemid (bytes "spj")), .literal (bytes "-O2"), .literal (bytes "-std=c++14")]
    stderr := none }
  text_eq := by
    simp only [Command.text, Command.words, List.map, Arg.text, unwords, text_inData, List.append_assoc]
    rfl
  shaped := by
    have hsource : (inData m_problemid (bytes "spj.cpp")).Shaped := shaped_inData _ (by decide)
    have hspj : (inData m_problemid (bytes "spj")).Shaped := shaped_inData _ (by decide)
    simp only [Command.Shaped, List.forall_mem_cons]
    exact ⟨⟨by decide, by decide, by decide, hsource, by decide, hspj, by decide, by decide, by simp⟩,
      by simp⟩

/-- What the two compilers have in common. -/
theorem shaped_compile {compiler source std : Bytes} (hcompiler : Word compiler)
    (hfile : Path.FileShaped (bytes "/" ++ source)) (hstd : Word std) :
    Command.Shaped {
      argv := [.literal (bytes "timeout"), .literal (bytes "10"), .literal compiler,
        .path (inRun m_submitid source), .literal (bytes "-fmax-errors=3"), .literal (bytes "-o"),
        .path (inRun m_submitid (bytes "main")), .literal (bytes "-O2"), .literal std]
      stderr := some (inRun m_submitid (bytes "compileinfo.txt")) } := by
  have hsource : (inRun m_submitid source).Shaped := shaped_inRun _ hfile
  have hmain : (inRun m_submitid (bytes "main")).Shaped := shaped_inRun _ (by decide)
  have hinfo : (inRun m_submitid (bytes "compileinfo.txt")).Shaped := shaped_inRun _ (by decide)
  simp only [Command.Shaped, List.forall_mem_cons]
  exact ⟨⟨by decide, by decide, hcompiler, hsource, by decide, by decide, hmain, by decide, hstd,
    by simp⟩, by simpa using hinfo⟩

/-- `CompileC`. -/
def compileCCall : SystemCall where
  text := bytes "timeout 10 gcc " ++ RUN_PATH m_submitid ++ bytes "main.c -fmax-errors=3 -o " ++
    RUN_PATH m_submitid ++ bytes "main -O2 -std=c11 2>" ++ RUN_PATH m_submitid ++ bytes "compileinfo.txt"
  meant := {
    argv := [.literal (bytes "timeout"), .literal (bytes "10"), .literal (bytes "gcc"),
      .path (inRun m_submitid (bytes "main.c")), .literal (bytes "-fmax-errors=3"), .literal (bytes "-o"),
      .path (inRun m_submitid (bytes "main")), .literal (bytes "-O2"), .literal (bytes "-std=c11")]
    stderr := some (inRun m_submitid (bytes "compileinfo.txt")) }
  text_eq := by
    simp only [Command.text, Command.words, List.map, Arg.text, unwords, text_inRun, List.append_assoc,
      List.cons_append]
    rfl
  shaped := shaped_compile m_submitid (by decide) (by decide) (by decide)

/-- `CompileCpp`. -/
def compileCppCall : SystemCall where
  text := bytes "timeout 10 g++ " ++ RUN_PATH m_submitid ++ bytes "main.cpp -fmax-errors=3 -o " ++
    RUN_PATH m_submitid ++ bytes "main -O2 -std=c++11 2>" ++ RUN_PATH m_submitid ++ bytes "compileinfo.txt"
  meant := {
    argv := [.literal (bytes "timeout"), .literal (bytes "10"), .literal (bytes "g++"),
      .path (inRun m_submitid (bytes "main.cpp")), .literal (bytes "-fmax-errors=3"), .literal (bytes "-o"),
      .path (inRun m_submitid (bytes "main")), .literal (bytes "-O2"), .literal (bytes "-std=c++11")]
    stderr := some (inRun m_submitid (bytes "compileinfo.txt")) }
  text_eq := by
    simp only [Command.text, Command.words, List.map, Arg.text, unwords, text_inRun, List.append_assoc,
      List.cons_append]
    rfl
  shaped := shaped_compile m_submitid (by decide) (by decide) (by decide)

/-- `RUN_PATH + index + ".out"` -/
def outputFile (index : Nat) : Bytes := Numerals.to_string index ++ bytes ".out"

/-- `DATA_PATH + index + ".in"` -/
def inputFile (index : Nat) : Bytes := Numerals.to_string index ++ bytes ".in"

/-- The special judge. -/
def spjCall (index : Nat) : SystemCall where
  text :=
    let indatapath := DATA_PATH m_problemid ++ inputFile index
    let datapath := DATA_PATH m_problemid ++ outputFile index
    let runpath := RUN_PATH m_submitid ++ outputFile index
    DATA_PATH m_problemid ++ bytes "spj " ++ indatapath ++ bytes " " ++ datapath ++ bytes " " ++ runpath
  meant := {
    argv := [.path (inData m_problemid (bytes "spj")), .path (inData m_problemid (inputFile index)),
      .path (inData m_problemid (outputFile index)), .path (inRun m_submitid (outputFile index))]
    stderr := none }
  text_eq := by
    simp only [Command.text, Command.words, List.map, Arg.text, unwords, text_inRun, text_inData,
      List.append_assoc]
    rfl
  shaped := by
    have hspj : (inData m_problemid (bytes "spj")).Shaped := shaped_inData _ (by decide)
    have hin : (inData m_problemid (inputFile index)).Shaped :=
      shaped_inData _ (fileShaped_test index (by decide) (by decide) (by decide))
    have hout : (inData m_problemid (outputFile index)).Shaped :=
      shaped_inData _ (fileShaped_test index (by decide) (by decide) (by decide))
    have hrun : (inRun m_submitid (outputFile index)).Shaped :=
      shaped_inRun _ (fileShaped_test index (by decide) (by decide) (by decide))
    simp only [Command.Shaped, List.forall_mem_cons]
    exact ⟨⟨hspj, hin, hout, hrun, by simp⟩, by simp⟩

end calls

/-! ## The calls of each function -/

namespace Judger

section calls

variable (m_submitid m_problemid : Bytes) (machine : Machine)

def CompileSPJ_calls : List SystemCall :=
  if machine.spjExists then []
  else if ¬ machine.spjSourceExists then []
  else [compileSPJCall m_problemid]

/-- `CompileSPJ` is called when the source file could be opened. -/
def Init_calls (m_language : Bytes) : List SystemCall :=
  mkdirCall m_submitid ::
    if Accepted machine m_language then CompileSPJ_calls m_problemid machine else []

/-- The special judge is called in one branch. -/
def JudgmentResult_calls (res : JudgeResult) (j : Judger) (index : Nat) : List SystemCall :=
  if res.condition = .RUN_SUCCESS then
    if toRlim j.m_timelimit.toInt < res.cpuTimeCost then []
    else if toRlim j.m_memorylimit.toInt < res.memoryCost then []
    else if j.m_isspj then [spjCall m_submitid m_problemid index]
    else []
  else []

/-- The rounds of the loop in `RunProgram`. -/
def RunProgram_calls (conf : ExecConfig) : JudgeResult × Judger → List Nat → List SystemCall
  | _, [] => []
  | state, i :: rest =>
      let judgeResult := runJudge conf (machine.test i).child state.1
      JudgmentResult_calls m_submitid m_problemid judgeResult state.2 i ++
        RunProgram_calls conf (judgeTest machine conf state i) rest

/-- The tests run only when the compilation returned true. -/
def runCompiled_calls (judgeResult : JudgeResult) : Bool × Judger → List SystemCall
  | (false, _) => []
  | (true, j) =>
      RunProgram_calls m_submitid m_problemid machine j.execConfig (judgeResult, j)
        (List.range' 1 j.m_judgenum.toInt.toNat)

def compileAndRun_calls (judgeResult : JudgeResult) (j : Judger) : List SystemCall :=
  if j.m_language = bytes "C" then
    compileCCall m_submitid ::
      runCompiled_calls m_submitid m_problemid machine judgeResult (CompileC machine j)
  else if j.m_language = bytes "C++" then
    compileCppCall m_submitid ::
      runCompiled_calls m_submitid m_problemid machine judgeResult (CompileCpp machine j)
  else []

end calls

/-- What `Run` passes to `system`, up to the `rm` of `Done`. -/
def Run_calls (machine : Machine) (judgeResult : JudgeResult) (j : Judger) : List SystemCall :=
  Init_calls j.m_submitid j.m_problemid machine j.m_language ++
    (match prepare machine j with
      | (false, _) => []
      | (true, j') => compileAndRun_calls j.m_submitid j.m_problemid machine judgeResult j') ++
    [rmCall j.m_submitid]

section intended

variable {m_submitid m_problemid : Bytes} {machine : Machine} {c : SystemCall}

/-- Only the two identifiers are in the paths of the call. -/
def OfIds (m_submitid m_problemid : Bytes) (c : SystemCall) : Prop :=
  ∀ p ∈ c.meant.paths, p.name = m_submitid ∨ p.name = m_problemid

theorem ofIds_mkdirCall (m_submitid m_problemid : Bytes) :
    OfIds m_submitid m_problemid (mkdirCall m_submitid) := by
  simp [OfIds, mkdirCall, Command.paths, Arg.paths, inRun]

theorem ofIds_rmCall (m_submitid m_problemid : Bytes) : OfIds m_submitid m_problemid (rmCall m_submitid) := by
  simp [OfIds, rmCall, Command.paths, Arg.paths, inRun]

theorem ofIds_spjCall (m_submitid m_problemid : Bytes) (index : Nat) :
    OfIds m_submitid m_problemid (spjCall m_submitid m_problemid index) := by
  simp [OfIds, spjCall, Command.paths, Arg.paths, inRun, inData]

theorem ofIds_Init_calls {m_language : Bytes} (hc : c ∈ Init_calls m_submitid m_problemid machine m_language) :
    OfIds m_submitid m_problemid c := by
  rcases List.mem_cons.1 hc with rfl | hc
  · exact ofIds_mkdirCall m_submitid m_problemid
  · unfold CompileSPJ_calls at hc
    split at hc
    · split at hc
      · cases hc
      · split at hc
        · cases hc
        · cases List.mem_singleton.1 hc
          simp [OfIds, compileSPJCall, Command.paths, Arg.paths, inData]
    · cases hc

theorem ofIds_JudgmentResult_calls {res : JudgeResult} {j : Judger} {index : Nat}
    (hc : c ∈ JudgmentResult_calls m_submitid m_problemid res j index) : OfIds m_submitid m_problemid c := by
  unfold JudgmentResult_calls at hc
  split at hc
  · split at hc
    · cases hc
    · split at hc
      · cases hc
      · split at hc
        · cases List.mem_singleton.1 hc
          exact ofIds_spjCall m_submitid m_problemid index
        · cases hc
  · cases hc

theorem ofIds_RunProgram_calls {conf : ExecConfig} {tests : List Nat} {state : JudgeResult × Judger}
    (hc : c ∈ RunProgram_calls m_submitid m_problemid machine conf state tests) :
    OfIds m_submitid m_problemid c := by
  induction tests generalizing state with
  | nil =>
      cases hc
  | cons i rest ih =>
      rcases List.mem_append.1 hc with hfirst | hrest
      · exact ofIds_JudgmentResult_calls hfirst
      · exact ih hrest

theorem ofIds_runCompiled_calls {judgeResult : JudgeResult} {compiled : Bool × Judger}
    (hc : c ∈ runCompiled_calls m_submitid m_problemid machine judgeResult compiled) :
    OfIds m_submitid m_problemid c := by
  unfold runCompiled_calls at hc
  split at hc
  · cases hc
  · exact ofIds_RunProgram_calls hc

theorem ofIds_compileAndRun_calls {judgeResult : JudgeResult} {j : Judger}
    (hc : c ∈ compileAndRun_calls m_submitid m_problemid machine judgeResult j) :
    OfIds m_submitid m_problemid c := by
  unfold compileAndRun_calls at hc
  split at hc
  · rcases List.mem_cons.1 hc with rfl | hc
    · simp [OfIds, compileCCall, Command.paths, Arg.paths, inRun]
    · exact ofIds_runCompiled_calls hc
  · split at hc
    · rcases List.mem_cons.1 hc with rfl | hc
      · simp [OfIds, compileCppCall, Command.paths, Arg.paths, inRun]
      · exact ofIds_runCompiled_calls hc
    · cases hc

/-- The paths of a submission are made from its own identifiers. -/
theorem ofIds_Run_calls {judgeResult : JudgeResult} {j : Judger} (hc : c ∈ Run_calls machine judgeResult j) :
    OfIds j.m_submitid j.m_problemid c := by
  unfold Run_calls at hc
  rw [List.mem_append, List.mem_append] at hc
  rcases hc with (hc | hc) | hc
  · exact ofIds_Init_calls hc
  · split at hc
    · cases hc
    · exact ofIds_compileAndRun_calls hc
  · cases List.mem_singleton.1 hc
    exact ofIds_rmCall j.m_submitid j.m_problemid

/-- For a language without a source file the run directory is made and removed, and nothing else is called. -/
theorem Run_calls_of_unknown {judgeResult : JudgeResult} {j : Judger} (h : sourceFile j.m_language = none) :
    Run_calls machine judgeResult j = [mkdirCall j.m_submitid, rmCall j.m_submitid] := by
  have hrefused : Accepted machine j.m_language = false := by simp [Accepted, h]
  unfold Run_calls Init_calls
  rw [prepare_eq, hrefused]
  rfl

end intended

/-- A machine on which a problem comes with the source of a special judge. -/
def spjMachine : Machine :=
  { (default : Machine) with mkdirRuns := true, sourceOpens := true, spjSourceExists := true }

/-- **The identifiers of a submission.**  Whatever happens while it is judged, everything that is passed to
`system` is what is meant exactly when its `SubmitId` is safe, and its `ProblemId` too where the language is
one of those with a source file. -/
theorem run_intended_iff (j : Judger) :
    (∀ machine judgeResult, ∀ c ∈ Run_calls machine judgeResult j, c.Intended) ↔
      SafeName j.m_submitid ∧ ((sourceFile j.m_language).isSome → SafeName j.m_problemid) := by
  constructor
  · intro hall
    constructor
    -- on every machine the first call is the `mkdir`
    · have hmem : mkdirCall j.m_submitid ∈ Run_calls default default j :=
        List.mem_append_left _ (List.mem_append_left _ (List.mem_cons_self ..))
      have hsafe := (mkdirCall j.m_submitid).intended_iff.1 (hall _ _ _ hmem)
      exact hsafe (inRun j.m_submitid []) (by simp [mkdirCall, Command.paths, Arg.paths])
    · intro hfile
      -- a machine on which the data directory gets into a command
      have haccepted : Accepted spjMachine j.m_language = true := by simp [Accepted, spjMachine, hfile]
      have hcall : compileSPJCall j.m_problemid ∈
          Init_calls j.m_submitid j.m_problemid spjMachine j.m_language := by
        unfold Init_calls
        rw [if_pos haccepted]
        exact List.mem_cons_of_mem _ (List.mem_singleton.2 rfl)
      have hmem : compileSPJCall j.m_problemid ∈ Run_calls spjMachine default j :=
        List.mem_append_left _ (List.mem_append_left _ hcall)
      have hsafe := (compileSPJCall j.m_problemid).intended_iff.1 (hall _ _ _ hmem)
      exact hsafe (inData j.m_problemid (bytes "spj")) (by simp [compileSPJCall, Command.paths, Arg.paths])
  · rintro ⟨hsubmit, hproblem⟩ machine judgeResult c hc
    rw [SystemCall.intended_iff]
    intro p hp
    cases hfile : sourceFile j.m_language with
    | none =>
        rw [Run_calls_of_unknown hfile] at hc
        -- the `ProblemId` is in no command then
        have hids : OfIds j.m_submitid j.m_submitid c := by
          rcases List.mem_cons.1 hc with rfl | hc
          · exact ofIds_mkdirCall j.m_submitid j.m_submitid
          · cases List.mem_singleton.1 hc
            exact ofIds_rmCall j.m_submitid j.m_submitid
        have hname : p.name = j.m_submitid := (hids p hp).elim id id
        rw [hname]
        exact hsubmit
    | some file =>
        rw [hfile] at hproblem
        rcases ofIds_Run_calls hc p hp with hname | hname
        · rw [hname]
          exact hsubmit
        · rw [hname]
          exact hproblem rfl

end Judger
end Judge
end Myoj
