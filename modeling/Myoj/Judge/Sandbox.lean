import Mathlib.Logic.Function.Basic
import Myoj.Lib.Effect
import Myoj.Judge.Commands
import Myoj.Judge.Limits

/-!
# Sandbox — the process a submitted program runs in

`runJudge` forks, and the child redirects its standard streams, sets its limits, gives up its user and
loads a filter before `execve` puts the submitted program in its place.  What can fail on the way ends the
child with an exit code.

* `Process`, `Kernel` — the part of a process these calls change, and what they are answered;
* `Ending` — how the child gets out of `runChild`: by an exit code, or as another program;
* `redirect`, `setLimitation`, `setSeccompGuard`, `runChild` — the functions;
* `Confined`, `Connected`, `Guarded` — the limits and the user, the standard streams, the filter;
* `runChild_meets` — in what process the child ends;
* `Sandbox` — the children of one submission, with the configuration `RunProgram` makes for them.
-/

namespace Myoj
namespace Judge

open Effect

/-! ## Processes -/

/-- The resources `setLimitation` limits. -/
inductive Resource where
  | RLIMIT_AS
  | RLIMIT_CPU
  | RLIMIT_NPROC
  | RLIMIT_FSIZE
  | RLIMIT_STACK
  deriving DecidableEq, Repr

/-- The calls of `FORBIDDEN_LIST`. -/
inductive SystemCallName where
  | fork
  | clone
  | vfork
  deriving DecidableEq, Repr

def FORBIDDEN_LIST : List SystemCallName := [.fork, .clone, .vfork]

/-- The modes `"r"` and `"w"` of `fopen`. -/
inductive OpenMode where
  | r
  | w
  deriving DecidableEq, Repr

/-- What a descriptor refers to. -/
structure OpenFile where
  path : Bytes
  mode : OpenMode
  deriving DecidableEq, Repr

/-- What the child changes of itself before `execve`; everything in it survives the call. -/
structure Process where
  fd : Nat → Option OpenFile
  /-- The limits that were set, soft and hard alike. -/
  limit : Resource → Option Rlim
  /-- The user that was changed to. -/
  uid : Option UInt32
  /-- The calls that the loaded filter answers with a kill. -/
  forbidden : List SystemCallName

/-- The answers of the system, which may depend on the process that asks. -/
structure Kernel where
  /-- `fileno` of the stream that `fopen` opens. -/
  fopen : Process → Bytes → OpenMode → Option Nat
  dup2 : Process → Nat → Nat → Bool
  setrlimit : Process → Resource → Rlim → Bool
  setuid : Process → UInt32 → Bool
  seccomp_init : Process → Bool
  seccomp_rule_add : Process → SystemCallName → Bool
  seccomp_load : Process → Bool
  execve : Process → Bytes → Bool

/-- `struct execConfig` as the child reads it. -/
structure ChildConfig extends ExecConfig where
  wallMemoryLimit : Rlim
  processLimit : Rlim
  outputLimit : Rlim
  execPath : Bytes
  stdinPath : Bytes
  stdoutPath : Bytes
  stderrPath : Bytes
  uid : UInt32
  guard : Int32

/-- How the child leaves `runChild`. -/
inductive Ending where
  | exits (code : Nat)
  | executes (path : Bytes)
  deriving DecidableEq, Repr

/-- A part of `runChild`. -/
abbrev ChildM := EStateM Ending Process

/-! ## The functions of the child -/

def STDIN_FILENO : Nat := 0
def STDOUT_FILENO : Nat := 1
def STDERR_FILENO : Nat := 2

def EXIT_SUCCESS : Nat := 0

def RLIM_INFINITY : Rlim := toRlim (-1)

/-- The enumerators of `RUNNING_CONDITION` count from 1. -/
def RunningCondition.code : RunningCondition → Nat
  | .RUN_SUCCESS => 1
  | .RUNTIME_ERROR => 2
  | .TIME_LIMIT_EXCEED => 3
  | .MEMORY_LIMIT_EXCEED => 4
  | .OUTPUT_LIMIT_EXCEED => 5
  | .SEGMENTATION_FAULT => 6
  | .FLOAT_ERROR => 7
  | .UNKNOWN_ERROR => 8
  | .INPUT_FILE_NOT_FOUND => 9
  | .CAN_NOT_MAKE_OUTPUT => 10
  | .SET_LIMIT_ERROR => 11
  | .NOT_ROOT_USER => 12
  | .FORK_ERROR => 13
  | .CREATE_THREAD_ERROR => 14
  | .VALIDATE_ERROR => 15

def CHILD_EXIT (code : Nat) : ChildM PUnit := throw (.exits code)

section child

variable (kernel : Kernel) (execConfig : ChildConfig)

/-- One of the three redirections: open the file, put its descriptor in the place of `target`. -/
def redirect (path : Bytes) (mode : OpenMode) (target : Nat) (failure : RunningCondition) :
    ChildM PUnit := do
  if cstr path ≠ [] then
    let process ← get
    match kernel.fopen process (cstr path) mode with
    | none => CHILD_EXIT failure.code
    | some f =>
        modify fun p => { p with fd := Function.update p.fd f (some ⟨cstr path, mode⟩) }
        let process ← get
        -- the value of `dup2` is not looked at
        if kernel.dup2 process f target then
          modify fun p => { p with fd := Function.update p.fd target (p.fd f) }

/-- `setrlimit` with the same soft and hard limit. -/
def setrlimit (resource : Resource) (limit : Rlim) : ChildM PUnit := do
  let process ← get
  if kernel.setrlimit process resource limit then
    modify fun p => { p with limit := Function.update p.limit resource (some limit) }
  else
    CHILD_EXIT RunningCondition.SET_LIMIT_ERROR.code

def setLimitation : ChildM PUnit := do
  setrlimit kernel .RLIMIT_AS (execConfig.wallMemoryLimit * 1024)
  setrlimit kernel .RLIMIT_CPU (execConfig.cpuTimeLimit / 1000 + 1)
  setrlimit kernel .RLIMIT_NPROC execConfig.processLimit
  setrlimit kernel .RLIMIT_FSIZE execConfig.outputLimit
  setrlimit kernel .RLIMIT_STACK RLIM_INFINITY

def setuid (uid : UInt32) : ChildM PUnit := do
  let process ← get
  if kernel.setuid process uid then
    modify fun p => { p with uid := some uid }
  else
    CHILD_EXIT RunningCondition.RUNTIME_ERROR.code

/-- The rules that get into the filter: the loop stops at the first that is refused. -/
def addSeccompRules (process : Process) : List SystemCallName :=
  FORBIDDEN_LIST.takeWhile (kernel.seccomp_rule_add process)

/-- Without a context there is nothing to add rules to and nothing to load.  No result is looked at. -/
def setSeccompGuard : ChildM PUnit := do
  let process ← get
  if kernel.seccomp_init process then
    let rules := addSeccompRules kernel process
    if kernel.seccomp_load process then
      modify fun p => { p with forbidden := p.forbidden ++ rules }

def execve (path : Bytes) : ChildM PUnit := do
  let process ← get
  if kernel.execve process (cstr path) then throw (.executes (cstr path))

def runChild : ChildM PUnit := do
  redirect kernel execConfig.stdinPath .r STDIN_FILENO .INPUT_FILE_NOT_FOUND
  redirect kernel execConfig.stdoutPath .w STDOUT_FILENO .CAN_NOT_MAKE_OUTPUT
  redirect kernel execConfig.stderrPath .w STDERR_FILENO .CAN_NOT_MAKE_OUTPUT
  setLimitation kernel execConfig
  (if 0 < execConfig.uid then setuid kernel execConfig.uid else pure ())
  (if execConfig.guard ≠ 0 then setSeccompGuard kernel else pure ())
  execve kernel execConfig.execPath
  CHILD_EXIT EXIT_SUCCESS

end child

/-! ## What a prepared process is like -/

/-- What each resource is limited to. -/
def ChildConfig.limit (execConfig : ChildConfig) : Resource → Rlim
  | .RLIMIT_AS => execConfig.wallMemoryLimit * 1024
  | .RLIMIT_CPU => execConfig.cpuTimeLimit / 1000 + 1
  | .RLIMIT_NPROC => execConfig.processLimit
  | .RLIMIT_FSIZE => execConfig.outputLimit
  | .RLIMIT_STACK => RLIM_INFINITY

/-- All limits are set, and the user is changed unless it is to stay root. -/
structure Confined (execConfig : ChildConfig) (process : Process) : Prop where
  limit : ∀ r, process.limit r = some (execConfig.limit r)
  uid : execConfig.uid ≠ 0 → process.uid = some execConfig.uid

/-- The standard streams are the files of the configuration. -/
structure Connected (execConfig : ChildConfig) (process : Process) : Prop where
  stdin : cstr execConfig.stdinPath ≠ [] →
    process.fd STDIN_FILENO = some ⟨cstr execConfig.stdinPath, .r⟩
  stdout : cstr execConfig.stdoutPath ≠ [] →
    process.fd STDOUT_FILENO = some ⟨cstr execConfig.stdoutPath, .w⟩
  stderr : cstr execConfig.stderrPath ≠ [] →
    process.fd STDERR_FILENO = some ⟨cstr execConfig.stderrPath, .w⟩

/-- The processes the submitted program cannot make. -/
def Guarded (execConfig : ChildConfig) (process : Process) : Prop :=
  execConfig.guard ≠ 0 → ∀ call ∈ FORBIDDEN_LIST, call ∈ process.forbidden

namespace Kernel

/-- Files are opened on descriptors that are not in use, and open descriptors can be copied. -/
structure Descriptors (kernel : Kernel) : Prop where
  fopen : ∀ {p path mode f}, kernel.fopen p path mode = some f → p.fd f = none
  dup2 : ∀ p f target, p.fd f ≠ none → kernel.dup2 p f target = true

/-- Filters can be made and loaded. -/
structure Filters (kernel : Kernel) : Prop where
  init : ∀ p, kernel.seccomp_init p = true
  rule : ∀ p call, kernel.seccomp_rule_add p call = true
  load : ∀ p, kernel.seccomp_load p = true

end Kernel

/-- What the child has made of itself by the time it calls `execve`.  The results of `dup2` and of the
calls for the filter are not looked at, so the streams and the filter are as good as these calls. -/
structure Prepared (kernel : Kernel) (execConfig : ChildConfig) (process : Process) : Prop where
  confined : Confined execConfig process
  connected : kernel.Descriptors → Connected execConfig process
  guarded : kernel.Filters → Guarded execConfig process

/-! ## One function after the other -/

section specs

variable (kernel : Kernel) (execConfig : ChildConfig) (p : Process)

/-- A redirection changes nothing but descriptors, and of those in use only its target. -/
theorem redirect_meets (path : Bytes) (mode : OpenMode) (target : Nat) (failure : RunningCondition) :
    Meets (redirect kernel path mode target failure) p
      (fun _ q => q = { p with fd := q.fd } ∧
        (kernel.Descriptors → (cstr path ≠ [] → q.fd target = some ⟨cstr path, mode⟩) ∧
          ∀ t, t ≠ target → p.fd t ≠ none → q.fd t = p.fd t))
      fun e _ => e = .exits failure.code := by
  unfold redirect
  refine Meets.ite (fun hpath => ?_) fun hpath => ⟨rfl, fun _ => ⟨fun h => absurd h hpath, fun _ _ _ => rfl⟩⟩
  simp only [meets_bind, meets_get]
  cases hopen : kernel.fopen p (cstr path) mode with
  | none =>
      rfl
  | some f =>
      simp only [meets_bind, meets_modify, meets_get]
      refine Meets.ite (fun _ => ?_) fun hdup => ?_
      · refine ⟨rfl, fun hk => ⟨fun _ => ?_, fun t ht hin => ?_⟩⟩
        · simp
        · -- a descriptor in use is not the one of the file
          have hne : t ≠ f := fun h => hin (h ▸ hk.fopen hopen)
          simp [Function.update_of_ne ht, Function.update_of_ne hne]
      · refine ⟨rfl, fun hk => absurd ?_ hdup⟩
        exact hk.dup2 _ _ _ (by simp)

theorem setrlimit_meets (resource : Resource) (limit : Rlim) :
    Meets (setrlimit kernel resource limit) p
      (fun _ q => q = { p with limit := Function.update p.limit resource (some limit) })
      fun e _ => e = .exits RunningCondition.SET_LIMIT_ERROR.code := by
  unfold setrlimit
  simp only [meets_bind, meets_get]
  exact Meets.ite (fun _ => rfl) fun _ => rfl

theorem setLimitation_meets :
    Meets (setLimitation kernel execConfig) p
      (fun _ q => q = { p with limit := fun r => some (execConfig.limit r) })
      fun e _ => e = .exits RunningCondition.SET_LIMIT_ERROR.code := by
  unfold setLimitation
  refine (setrlimit_meets kernel p _ _).bind fun _ q₁ h₁ => ?_
  refine (setrlimit_meets kernel q₁ _ _).bind fun _ q₂ h₂ => ?_
  refine (setrlimit_meets kernel q₂ _ _).bind fun _ q₃ h₃ => ?_
  refine (setrlimit_meets kernel q₃ _ _).bind fun _ q₄ h₄ => ?_
  refine (setrlimit_meets kernel q₄ _ _).mono (fun _ q h => ?_) fun _ _ he => he
  subst h₁ h₂ h₃ h₄ h
  -- every resource has had its turn
  congr 1
  funext r
  cases r <;> rfl

theorem setuid_meets (uid : UInt32) :
    Meets (setuid kernel uid) p (fun _ q => q = { p with uid := some uid })
      fun e _ => e = .exits RunningCondition.RUNTIME_ERROR.code := by
  unfold setuid
  simp only [meets_bind, meets_get]
  exact Meets.ite (fun _ => rfl) fun _ => rfl

theorem setSeccompGuard_meets :
    Meets (setSeccompGuard kernel) p
      (fun _ q => q = { p with forbidden := q.forbidden } ∧
        (kernel.Filters → ∀ call ∈ FORBIDDEN_LIST, call ∈ q.forbidden))
      fun _ _ => False := by
  unfold setSeccompGuard
  simp only [meets_bind, meets_get]
  refine Meets.ite (fun _ => Meets.ite (fun _ => ⟨rfl, fun hk call hcall => ?_⟩) fun hload => ?_)
    fun hinit => ?_
  · have hall : addSeccompRules kernel p = FORBIDDEN_LIST :=
      List.takeWhile_eq_self_iff.2 fun c _ => hk.rule p c
    exact List.mem_append_right _ (hall ▸ hcall)
  · exact ⟨rfl, fun hk => absurd (hk.load p) hload⟩
  · exact ⟨rfl, fun hk => absurd (hk.init p) hinit⟩

/-- The exit codes of a child that did not get as far as `execve`. -/
def SetUpCodes : List RunningCondition :=
  [.INPUT_FILE_NOT_FOUND, .CAN_NOT_MAKE_OUTPUT, .SET_LIMIT_ERROR, .RUNTIME_ERROR]

/-- Where the child ends: as the submitted program or, when `execve` is refused, with exit code 0, and
either way as a prepared process; or before that, with the code of what failed. -/
def EndsWell (e : Ending) (q : Process) : Prop :=
  (e = .executes (cstr execConfig.execPath) ∨ e = .exits EXIT_SUCCESS) ∧ Prepared kernel execConfig q ∨
    ∃ c ∈ SetUpCodes, e = .exits c.code

theorem endsWell_of_failure {c : RunningCondition} (hc : c ∈ SetUpCodes) {e : Ending} {q : Process}
    (he : e = .exits c.code) : EndsWell kernel execConfig e q :=
  .inr ⟨c, hc, he⟩

/-- `execve` and what follows it, in a prepared process. -/
theorem execve_meets (hp : Prepared kernel execConfig p) :
    Meets (do execve kernel execConfig.execPath; CHILD_EXIT EXIT_SUCCESS) p (fun _ _ => False)
      (EndsWell kernel execConfig) := by
  unfold execve
  simp only [meets_bind, meets_get]
  exact Meets.ite (fun _ => .inl ⟨.inl rfl, hp⟩) fun _ => .inl ⟨.inr rfl, hp⟩

theorem runChild_meets :
    Meets (runChild kernel execConfig) p (fun _ _ => False) (EndsWell kernel execConfig) := by
  have hfail {m : ChildM PUnit} {q : Process} {Q : PUnit → Process → Prop} (c : RunningCondition)
      (hc : c ∈ SetUpCodes) (h : Meets m q Q fun e _ => e = .exits c.code) :
      Meets m q Q (EndsWell kernel execConfig) :=
    h.mono (fun _ _ hq => hq) fun _ _ => endsWell_of_failure kernel execConfig hc
  unfold runChild
  -- the three streams: each redirection leaves the ones before it in place
  refine (hfail _ (by decide) (redirect_meets kernel p _ _ _ _)).bind fun _ q₁ h₁ => ?_
  refine (hfail _ (by decide) (redirect_meets kernel q₁ _ _ _ _)).bind fun _ q₂ h₂ => ?_
  refine (hfail _ (by decide) (redirect_meets kernel q₂ _ _ _ _)).bind fun _ q₃ h₃ => ?_
  have hconn : kernel.Descriptors → Connected execConfig q₃ := by
    intro hk
    obtain ⟨hin, -⟩ := h₁.2 hk
    obtain ⟨hout, hkeep₂⟩ := h₂.2 hk
    obtain ⟨herr, hkeep₃⟩ := h₃.2 hk
    refine ⟨fun h => ?_, fun h => ?_, herr⟩
    · have h0 := hin h
      have h0' := (hkeep₂ STDIN_FILENO (by decide) (by simp [h0])).trans h0
      exact (hkeep₃ STDIN_FILENO (by decide) (by simp [h0'])).trans h0'
    · have h1 := hout h
      exact (hkeep₃ STDOUT_FILENO (by decide) (by simp [h1])).trans h1
  refine (hfail _ (by decide) (setLimitation_meets kernel execConfig q₃)).bind fun _ q₄ h₄ => ?_
  -- the user, when it is not root
  have huser : Meets (if 0 < execConfig.uid then setuid kernel execConfig.uid else pure ()) q₄
      (fun _ q => q.fd = q₄.fd ∧ Confined execConfig q) (EndsWell kernel execConfig) := by
    refine Meets.ite (fun _ => ?_) fun hroot => ?_
    · refine (hfail _ (by decide) (setuid_meets kernel q₄ _)).mono (fun _ q h => ?_) fun _ _ he => he
      subst h h₄
      exact ⟨rfl, fun _ => rfl, fun _ => rfl⟩
    · subst h₄
      exact ⟨rfl, fun _ => rfl, fun h => absurd (UInt32.pos_iff_ne_zero.2 h) hroot⟩
  refine huser.bind fun _ q₅ h₅ => ?_
  have hconn₅ : kernel.Descriptors → Connected execConfig q₅ := by
    intro hk
    obtain ⟨hin, hout, herr⟩ := hconn hk
    subst h₄
    exact ⟨h₅.1 ▸ hin, h₅.1 ▸ hout, h₅.1 ▸ herr⟩
  -- the filter
  have hfilter : Meets (if execConfig.guard ≠ 0 then setSeccompGuard kernel else pure ()) q₅
      (fun _ q => Prepared kernel execConfig q) (EndsWell kernel execConfig) := by
    refine Meets.ite (fun _ => ?_) fun hoff => ?_
    · refine (setSeccompGuard_meets kernel q₅).mono (fun _ q h => ?_) fun _ _ he => he.elim
      obtain ⟨hq, hcalls⟩ := h
      rw [hq]
      exact ⟨⟨h₅.2.limit, h₅.2.uid⟩, fun hk => ⟨(hconn₅ hk).stdin, (hconn₅ hk).stdout, (hconn₅ hk).stderr⟩,
        fun hk _ => hcalls hk⟩
    · exact ⟨h₅.2, hconn₅, fun _ hguard => absurd hguard hoff⟩
  exact hfilter.bind fun _ q₆ h₆ => execve_meets kernel execConfig q₆ h₆

variable {kernel execConfig p}

/-- **Nothing runs outside the sandbox.**  Whatever the configuration and whatever the system answers: if
another program takes the place of the child, it is the one of the configuration, all five limits and the
user are set, and streams and filter are as good as the calls whose results are not looked at. -/
theorem executes_prepared {path : Bytes} {q : Process}
    (h : runChild kernel execConfig p = .error (.executes path) q) :
    path = cstr execConfig.execPath ∧ Prepared kernel execConfig q := by
  have hmeets := runChild_meets kernel execConfig p
  unfold Meets at hmeets
  rw [h] at hmeets
  rcases hmeets with ⟨he, hq⟩ | ⟨c, -, he⟩
  · rcases he with he | he
    · exact ⟨Ending.executes.inj he, hq⟩
    · cases he
  · cases he

end specs

/-! ## A system that grants everything but the limits -/

/-- Everything is granted, the limits only if `limits` says so. -/
def grants (limits : Bool) : Kernel where
  fopen _ _ _ := some 3
  dup2 _ _ _ := true
  setrlimit _ _ _ := limits
  setuid _ _ := true
  seccomp_init _ := true
  seccomp_rule_add _ _ := true
  seccomp_load _ := true
  execve _ _ := true

/-- The first test of a submission, run by the user 1001 for a second at most. -/
def sampleConfig : ChildConfig where
  cpuTimeLimit := 1000
  memoryLimit := 64 * 1024
  realTimeLimit := 2000
  wallMemoryLimit := 128 * 1024
  processLimit := 1
  outputLimit := 10 * 1024 * 1024
  execPath := RUN_PATH (bytes "7") ++ bytes "main"
  stdinPath := DATA_PATH (bytes "1000") ++ inputFile 1
  stdoutPath := RUN_PATH (bytes "7") ++ outputFile 1
  stderrPath := RUN_PATH (bytes "7") ++ bytes "error.out"
  uid := 1001
  guard := 1

/-- A process with nothing open but the terminal. -/
def sampleProcess : Process where
  fd f := if f < 3 then some ⟨bytes "/dev/tty", .r⟩ else none
  limit _ := none
  uid := none
  forbidden := []

theorem redirect_grants (limits : Bool) (path : Bytes) (mode : OpenMode) (target : Nat)
    (failure : RunningCondition) (p : Process) :
    Meets (redirect (grants limits) path mode target failure) p (fun _ _ => True) fun _ _ => False := by
  unfold redirect
  exact Meets.ite (fun _ => trivial) fun _ => trivial

theorem runChild_grants (limits : Bool) (execConfig : ChildConfig) (p : Process) :
    Meets (runChild (grants limits) execConfig) p (fun _ _ => False) fun e _ =>
      e = if limits then .executes (cstr execConfig.execPath) else .exits 11 := by
  have hstream {path mode target failure q} : Meets (redirect (grants limits) path mode target failure) q
      (fun _ _ => True) fun e _ => e = if limits then .executes (cstr execConfig.execPath) else .exits 11 :=
    (redirect_grants limits path mode target failure q).mono (fun _ _ h => h) fun _ _ h => h.elim
  unfold runChild
  refine hstream.bind fun _ q₁ _ => hstream.bind fun _ q₂ _ => hstream.bind fun _ q₃ _ => ?_
  cases limits with
  | false =>
      exact meets_bind.2 rfl
  | true =>
      by_cases huser : 0 < execConfig.uid <;> by_cases hguard : execConfig.guard = 0 <;>
        simp only [huser, hguard, ne_eq, not_true, not_false_eq_true, if_true, if_false] <;> exact rfl

/-- A system with three descriptors to open files on. -/
def opensThree : Kernel := { grants true with fopen := fun p _ _ => [3, 4, 5].find? fun f => (p.fd f).isNone }

theorem descriptors_opensThree : opensThree.Descriptors where
  fopen := by
    intro p path mode f hopen
    simpa using List.find?_some hopen
  dup2 _ _ _ _ := rfl

theorem filters_opensThree : opensThree.Filters := ⟨fun _ => rfl, fun _ _ => rfl, fun _ => rfl⟩

/-- The submission is executed as the user 1001 on its own files, for two seconds of CPU time at most, and
cannot fork. -/
theorem executes_prepared_granted :
    ∃ q, runChild opensThree sampleConfig sampleProcess = .error (.executes sampleConfig.execPath) q ∧
      q.limit .RLIMIT_CPU = some 2 ∧ q.uid = some 1001 ∧
      q.fd STDIN_FILENO = some ⟨sampleConfig.stdinPath, .r⟩ ∧
      q.fd STDOUT_FILENO = some ⟨sampleConfig.stdoutPath, .w⟩ ∧
      ∀ call ∈ FORBIDDEN_LIST, call ∈ q.forbidden := by
  have hrun : ∃ path q, runChild opensThree sampleConfig sampleProcess = .error (.executes path) q :=
    ⟨_, _, rfl⟩
  obtain ⟨path, q, hrun⟩ := hrun
  obtain ⟨rfl, hq⟩ := executes_prepared hrun
  have hconnected := hq.connected descriptors_opensThree
  have hexec : cstr sampleConfig.execPath = sampleConfig.execPath := by decide +kernel
  have hstdin : cstr sampleConfig.stdinPath = sampleConfig.stdinPath := by decide +kernel
  have hstdout : cstr sampleConfig.stdoutPath = sampleConfig.stdoutPath := by decide +kernel
  have hin := hconnected.stdin (by decide +kernel)
  have hout := hconnected.stdout (by decide +kernel)
  rw [hstdin] at hin
  rw [hstdout] at hout
  rw [hexec] at hrun
  exact ⟨q, hrun, hq.confined.limit .RLIMIT_CPU, hq.confined.uid (by decide), hin, hout,
    hq.guarded filters_opensThree (by decide)⟩

namespace Judger

/-! ## The children of one submission -/

/-- `execConfig` in the child for a test.  `RunProgramC_Cpp` and `RunProgram` assign these members of a
local variable; the memory limit of the child, its processes and its user are what the variable held. -/
def childConfig (j : Judger) (leftover : ChildConfig) (index : Nat) : ChildConfig where
  toExecConfig := j.execConfig
  wallMemoryLimit := leftover.wallMemoryLimit
  processLimit := leftover.processLimit
  outputLimit := 10 * 1024 * 1024
  execPath := RUN_PATH j.m_submitid ++ bytes "main"
  stdinPath := DATA_PATH j.m_problemid ++ inputFile index
  stdoutPath := RUN_PATH j.m_submitid ++ outputFile index
  stderrPath := RUN_PATH j.m_submitid ++ bytes "error.out"
  uid := leftover.uid
  guard := 1

end Judger

/-- What the tests of a submission are run with: the uninitialised variable and, for each test, the
system and the process that `fork` makes. -/
structure Sandbox where
  leftover : ChildConfig
  kernel : Nat → Kernel
  child : Nat → Process

namespace Sandbox

variable (sandbox : Sandbox) (j : Judger)

/-- The child of a test leaves `runChild` this way, as this process. -/
def Leaves (index : Nat) (e : Ending) (q : Process) : Prop :=
  runChild (sandbox.kernel index) (j.childConfig sandbox.leftover index) (sandbox.child index) =
    .error e q

/-- The children that were waited for are those of the sandbox: one that exited by `CHILD_EXIT` has its
exit code, of which `wait4` passes on eight bits. -/
def Explains (machine : Machine) : Prop :=
  ∀ i w code q, (machine.test i).child = .waited w → sandbox.Leaves j i (.exits code) q →
    w.WIFEXITED = true → w.WEXITSTATUS = code % 256

/-- The output of the test was made by the submitted program in a prepared process, or in such a process
`execve` was refused. -/
def Answered (index : Nat) : Prop :=
  ∃ e q, sandbox.Leaves j index e q ∧ Prepared (sandbox.kernel index) (j.childConfig sandbox.leftover index) q ∧
    (e = .executes (cstr (RUN_PATH j.m_submitid ++ bytes "main")) ∨ e = .exits EXIT_SUCCESS)

/-- The child of the test exits before it gets to `execve`. -/
def Failed (index : Nat) : Prop :=
  ∃ code q, sandbox.Leaves j index (.exits code) q ∧ code ≠ EXIT_SUCCESS

theorem answered_or_failed (index : Nat) : sandbox.Answered j index ∨ sandbox.Failed j index := by
  have hmeets := runChild_meets (sandbox.kernel index) (j.childConfig sandbox.leftover index)
    (sandbox.child index)
  unfold Meets at hmeets
  cases hrun : runChild (sandbox.kernel index) (j.childConfig sandbox.leftover index) (sandbox.child index) with
  | ok a q =>
      rw [hrun] at hmeets
      exact hmeets.elim
  | error e q =>
      rw [hrun] at hmeets
      rcases hmeets with ⟨he, hq⟩ | ⟨c, hc, rfl⟩
      · exact .inl ⟨e, q, hrun, hq, he⟩
      · refine .inr ⟨c.code, q, hrun, ?_⟩
        -- no code of the set-up is the one of success
        have hcodes : ∀ c ∈ SetUpCodes, c.code ≠ EXIT_SUCCESS := by decide
        exact hcodes c hc

/-- The exit codes of the set-up fit into the eight bits. -/
theorem failed_status {machine : Machine} {index : Nat} {w : Wait} (h : sandbox.Explains j machine)
    (hfailed : sandbox.Failed j index) (hchild : (machine.test index).child = .waited w)
    (hexit : w.WIFEXITED = true) : w.WEXITSTATUS ≠ 0 := by
  obtain ⟨code, q, hleaves, hcode⟩ := hfailed
  rw [h index w code q hchild hleaves hexit]
  have hmeets := runChild_meets (sandbox.kernel index) (j.childConfig sandbox.leftover index)
    (sandbox.child index)
  unfold Meets at hmeets
  rw [hleaves] at hmeets
  rcases hmeets with ⟨he, -⟩ | ⟨c, hc, he⟩
  · rcases he with he | he
    · cases he
    · exact absurd (Ending.exits.inj he) hcode
  · rw [Ending.exits.inj he]
    have hcodes : ∀ c ∈ SetUpCodes, c.code % 256 ≠ 0 := by decide
    exact hcodes c hc

end Sandbox

/-- A submission's children on such a system. -/
def sandboxWith (limits : Bool) : Sandbox where
  leftover := sampleConfig
  kernel _ := grants limits
  child _ := sampleProcess

theorem leaves_sandboxWith {limits : Bool} {j : Judger} {i : Nat} {e : Ending} {q : Process}
    (h : (sandboxWith limits).Leaves j i e q) :
    e = if limits then .executes (cstr (RUN_PATH j.m_submitid ++ bytes "main")) else .exits 11 := by
  have hmeets := runChild_grants limits (j.childConfig (sandboxWith limits).leftover i)
    ((sandboxWith limits).child i)
  unfold Meets at hmeets
  rw [show runChild (grants limits) _ _ = _ from h] at hmeets
  exact hmeets

namespace Judger

/-! ## What the entries say about the children -/

/-- The output is looked at after a successful run only. -/
theorem classify_output {test : TestRun} {res : JudgeResult} {j : Judger}
    (h : (classify test res j).1 = some .AC ∨ (classify test res j).1 = some .WA) :
    res.condition = .RUN_SUCCESS := by
  by_contra hne
  simp only [classify, hne, if_false] at h
  split_ifs at h <;> simp at h

/-- A child that exits with anything but 0 gets no status. -/
theorem classify_exited {test : TestRun} {w : Wait} (j : Judger) (conf : ExecConfig) (res : JudgeResult)
    (hchild : test.child = .waited w) (hexit : w.WIFEXITED = true) (hcode : w.WEXITSTATUS ≠ 0) :
    (classify test (runJudge conf test.child res) j).1 = none := by
  simp [hchild, runJudge, getRunningCondition, hexit, hcode, classify]

/-- What is true of the status of each test, whatever the tests before it left, is true of the entries. -/
theorem forall₂_statuses {machine : Machine} {conf : ExecConfig} {j : Judger} {is : List Nat}
    {P : Nat → Option Status → Prop}
    (h : ∀ i ∈ is, ∀ res, P i (classify (machine.test i) (runJudge conf (machine.test i).child res) j).1)
    (res : JudgeResult) : List.Forall₂ P is (statuses j (judgeResults machine conf res is)) := by
  induction is generalizing res with
  | nil =>
      exact .nil
  | cons i is ih =>
      have hrest := ih (fun i' hi' => h i' (List.mem_cons_of_mem i hi'))
        (runJudge conf (machine.test i).child res)
      exact .cons (h i List.mem_cons_self res) hrest

/-- There are entries only when the tests were run. -/
theorem finish_entries (machine : Machine) (judgeResult : JudgeResult) {j : Judger} (hj : j.Ready) :
    (finish machine judgeResult j).testInfo = [] ∨ Tested machine j := by
  have hlang : (prepared machine j).m_language = j.m_language := (prepared_spec machine j hj).2.2.1
  have hprepared : (prepared machine j).testInfo = [] := by
    unfold prepared CompileSPJ
    split_ifs <;> exact hj.no_entries
  have hcompiled : (compiled machine (prepared machine j)).testInfo = [] := by
    unfold compiled
    split_ifs <;> exact hprepared
  simp only [finish, prepare_eq]
  cases haccepted : Accepted machine j.m_language with
  | false =>
      exact .inl hj.no_entries
  | true =>
      simp only [if_true, compileAndRun_eq, hlang, Compile_eq]
      cases hrunnable : Runnable j.m_language with
      | false =>
          exact .inl hprepared
      | true =>
          cases hcompiler : machine.compileRuns with
          | false =>
              exact .inl hprepared
          | true =>
              cases hmain : (machine.mainLeftOver || machine.compileProduces) with
              | false =>
                  exact .inl hcompiled
              | true =>
                  exact .inr ⟨haccepted, hrunnable, hcompiler, hmain⟩

/-- The entry of a test is about its output only if the test was answered from inside the sandbox, and a
test whose set-up failed leaves an entry without a status. -/
def Honest (sandbox : Sandbox) (machine : Machine) (j : Judger) (i : Nat) (status : Option Status) : Prop :=
  (status = some .AC ∨ status = some .WA → sandbox.Answered j i) ∧
    ∀ w, (machine.test i).child = .waited w → w.WIFEXITED = true → sandbox.Failed j i → status = none

theorem honest_classify {sandbox : Sandbox} {machine : Machine} {j : Judger}
    (h : sandbox.Explains j machine) (i : Nat) (res : JudgeResult) :
    Honest sandbox machine j i
      (classify (machine.test i) (runJudge j.execConfig (machine.test i).child res) (judging machine j)).1 := by
  refine ⟨fun hstatus => ?_, fun w hchild hexit hfailed => ?_⟩
  · rcases sandbox.answered_or_failed j i with hanswered | hfailed
    · exact hanswered
    · -- a successful run has exited with 0
      exfalso
      have hsuccess := classify_output hstatus
      cases hchild : (machine.test i).child with
      | forkFailed =>
          simp [hchild, runJudge] at hsuccess
      | threadFailed =>
          simp [hchild, runJudge] at hsuccess
      | waited w =>
          rw [hchild, runJudge_waited_success_iff] at hsuccess
          exact sandbox.failed_status j h hfailed hchild hsuccess.1 hsuccess.2.1
  · exact classify_exited _ _ _ hchild hexit (sandbox.failed_status j h hfailed hchild hexit)

theorem run_eq_finish {machine : Machine} {judgeResult : JudgeResult} {runjson : Oj.Json} {j : Judger}
    {report : Report} {final : Judger} (hload : load runjson = .ok j)
    (hrun : Run machine judgeResult runjson = .ok (report, final)) :
    report = (finish machine judgeResult j).Done := by
  simp only [Run, hload, bind, Except.bind, pure, Except.pure] at hrun
  cases hrun
  rfl

/-- **Entries come out of the sandbox.**  For every submission and every behaviour of the machine and of
the systems its children run on: an entry with `AC` or `WA` is about output that was made under all five
limits, and no failure of the set-up gets a status. -/
theorem entries_honest {machine : Machine} {judgeResult : JudgeResult} {runjson : Oj.Json} {j : Judger}
    {report : Report} {final : Judger} (hload : load runjson = .ok j)
    (hrun : Run machine judgeResult runjson = .ok (report, final)) {sandbox : Sandbox}
    (hs : sandbox.Explains j machine) :
    report.TestInfo = [] ∨
      List.Forall₂ (fun i entry => Honest sandbox machine j i entry.Status) j.tests report.TestInfo := by
  have hj := (load_spec hload).1
  obtain rfl := run_eq_finish hload hrun
  refine (finish_entries machine judgeResult hj).imp_right fun htested => ?_
  obtain ⟨hinfo, -⟩ := finish_spec htested hj judgeResult
  have hstatuses : List.Forall₂ (Honest sandbox machine j) j.tests
      (statuses (judging machine j) (judgeResults machine j.execConfig judgeResult j.tests)) :=
    forall₂_statuses (fun i _ res => honest_classify hs i res) judgeResult
  rw [← hinfo] at hstatuses
  exact List.forall₂_map_right_iff.1 hstatuses

/-- Accepted from inside the sandbox. -/
theorem entries_honest_accepted : ∃ j report final, load (submission "C++") = .ok j ∧
    Run (answering (endsWith 0)) nothingRun (submission "C++") = .ok (report, final) ∧
    report.TestInfo.map (·.Status) = [some .AC, some .AC, some .AC] ∧
    List.Forall₂ (fun i entry => Honest (sandboxWith true) (answering (endsWith 0)) j i entry.Status)
      j.tests report.TestInfo := by
  obtain ⟨j, hload⟩ : ∃ j, load (submission "C++") = .ok j := ⟨_, rfl⟩
  obtain ⟨⟨report, final⟩, hrun⟩ :
    ∃ out, Run (answering (endsWith 0)) nothingRun (submission "C++") = .ok out := ⟨_, rfl⟩
  have hs : (sandboxWith true).Explains j (answering (endsWith 0)) := by
    intro i w code q _ hleaves _
    cases leaves_sandboxWith hleaves
  have hstatuses : report.TestInfo.map (·.Status) = [some .AC, some .AC, some .AC] := by
    cases hrun
    decide +kernel
  refine ⟨j, report, final, hload, hrun, hstatuses, (entries_honest hload hrun hs).resolve_left ?_⟩
  intro hnil
  rw [hnil] at hstatuses
  cases hstatuses

/-! ## When no child can be set up -/

/-- **Nothing run, nothing held against it.**  When every child exits in its set-up, no entry has a status,
and the submission is accepted unless its special judge could not be compiled. -/
theorem failed_accepted {machine : Machine} {runjson : Oj.Json} {j : Judger} {report : Report}
    {final : Judger} {judgeResult : JudgeResult} (hload : load runjson = .ok j)
    (hrun : Run machine judgeResult runjson = .ok (report, final)) (htested : Tested machine j)
    {sandbox : Sandbox} (hs : sandbox.Explains j machine)
    (hfailed : ∀ i ∈ j.tests, sandbox.Failed j i ∧
      ∃ w, (machine.test i).child = .waited w ∧ w.WIFEXITED = true) :
    (report.Status = .AC ↔ SpjFails machine = false) ∧ ∀ entry ∈ report.TestInfo, entry.Status = none := by
  have hj := (load_spec hload).1
  obtain rfl := run_eq_finish hload hrun
  have hnone : ∀ i ∈ j.tests, ∀ res, (classify (machine.test i)
      (runJudge j.execConfig (machine.test i).child res) (judging machine j)).1 = none := by
    intro i hi res
    obtain ⟨hf, w, hchild, hexit⟩ := hfailed i hi
    exact (honest_classify hs i res).2 w hchild hexit hf
  obtain ⟨hinfo, hresult⟩ := finish_spec htested hj judgeResult
  rw [statuses_eq_map hnone] at hinfo hresult
  -- settling nothing leaves the result as it was
  have hsettle : ∀ (is : List Nat) (r : Status), (is.map fun _ => none).foldl settle r = r := by
    intro is r
    induction is with
    | nil =>
        rfl
    | cons _ is ih =>
        exact ih
  rw [hsettle] at hresult
  constructor
  · rw [Done_AC_iff, hresult]
    cases SpjFails machine <;> simp [Accepting]
  · intro entry hentry
    have hmem : entry.Status ∈ (finish machine judgeResult j).testInfo.map (·.Status) :=
      List.mem_map_of_mem hentry
    rw [hinfo] at hmem
    obtain ⟨_, _, h⟩ := List.mem_map.1 hmem
    exact h.symm

/-- Three children exit with `SET_LIMIT_ERROR`, and the submission is accepted. -/
theorem failed_accepted_limits : ∃ j report final, load (submission "C++") = .ok j ∧
    Run (answering (endsWith (11 * 256))) nothingRun (submission "C++") = .ok (report, final) ∧
    report.Status = .AC ∧ ∀ entry ∈ report.TestInfo, entry.Status = none := by
  obtain ⟨j, hload⟩ : ∃ j, load (submission "C++") = .ok j := ⟨_, rfl⟩
  obtain ⟨⟨report, final⟩, hrun⟩ :
    ∃ out, Run (answering (endsWith (11 * 256))) nothingRun (submission "C++") = .ok out := ⟨_, rfl⟩
  have hs : (sandboxWith false).Explains j (answering (endsWith (11 * 256))) := by
    intro i w code q hchild hleaves _
    cases hchild
    cases leaves_sandboxWith hleaves
    rfl
  have htested : Tested (answering (endsWith (11 * 256))) j := by
    cases hload
    exact ⟨rfl, by decide, rfl, rfl⟩
  have hfailed (i : Nat) : (sandboxWith false).Failed j i := by
    rcases (sandboxWith false).answered_or_failed j i with ⟨e, q, hleaves, -, he⟩ | hfailed
    · rw [leaves_sandboxWith hleaves] at he
      rcases he with he | he <;> cases he
    · exact hfailed
  obtain ⟨hiff, hnone⟩ :=
    failed_accepted hload hrun htested hs fun i _ => ⟨hfailed i, _, rfl, rfl⟩
  exact ⟨j, report, final, hload, hrun, hiff.2 rfl, hnone⟩

end Judger

end Judge
end Myoj
