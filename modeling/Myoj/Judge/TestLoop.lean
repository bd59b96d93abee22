import Myoj.Judge.Judger

/-!
# TestLoop — what the loop over the tests does to the members

Judging a test changes the members in few ways, and this module says which once and for all:

* `Task` — what stays: the limits and the kind of comparison;
* `classify_*` — one spec lemma for each thing `classify` decides;
* `judgeResults` — the `judgeResult` each test is judged by;
* `foldl_judgeTest` — the loop: one log entry and one status for each test, and a result that is
  pending exactly when no status other than `AC` was written.
-/

namespace Myoj
namespace Judge

namespace Judger

/-- The members that judging reads and never writes. -/
structure Task where
  m_timelimit : Int32
  m_memorylimit : Int64
  m_isspj : Bool
  conf : ExecConfig
  m_judgenum : Int32
  deriving DecidableEq

def task (j : Judger) : Task where
  m_timelimit := j.m_timelimit
  m_memorylimit := j.m_memorylimit
  m_isspj := j.m_isspj
  conf := j.execConfig
  m_judgenum := j.m_judgenum

/-! ## One test -/

section classify

variable (test : TestRun) {res : JudgeResult} {j j' : Judger}

/-- The status depends on nothing but the task. -/
theorem classify_congr (h : j.task = j'.task) :
    (classify test res j).1 = (classify test res j').1 := by
  have htime : j.m_timelimit = j'.m_timelimit := congrArg Task.m_timelimit h
  have hmem : j.m_memorylimit = j'.m_memorylimit := congrArg Task.m_memorylimit h
  have hspj : j.m_isspj = j'.m_isspj := congrArg Task.m_isspj h
  simp only [classify, htime, hmem, hspj]
  split_ifs <;> rfl

/-- What a status does to the overall result: a pass leaves it alone. -/
def settle (m_result : Status) : Option Status → Status
  | none => m_result
  | some .AC => m_result
  | some s => s

theorem classify_m_result :
    (classify test res j).2.m_result = settle j.m_result (classify test res j).1 := by
  simp only [classify]
  split_ifs <;> rfl

theorem classify_frame (res : JudgeResult) (j : Judger) :
    (classify test res j).2.task = j.task ∧ (classify test res j).2.log = j.log ∧
      (classify test res j).2.testInfo = j.testInfo := by
  simp only [classify]
  split_ifs <;> exact ⟨rfl, rfl, rfl⟩

/-- No test is left pending. -/
theorem classify_ne_PJ : (classify test res j).1 ≠ some .PJ := by
  simp only [classify]
  split_ifs <;> simp

/-- A successful run gets `AC` or one of the three verdicts on its costs and its output. -/
theorem classify_success (j : Judger) (h : res.condition = .RUN_SUCCESS) :
    ∃ s, (classify test res j).1 = some s := by
  simp only [classify, h, if_true]
  split_ifs <;> exact ⟨_, rfl⟩

/-- Without a special judge a successful run is accepted when both costs are below the limits as
unsigned values and `strcmp` finds no difference. -/
theorem classify_accepts_iff (hspj : j.m_isspj = false) (h : res.condition = .RUN_SUCCESS) :
    (classify test res j).1 = some .AC ↔
      res.cpuTimeCost ≤ toRlim j.m_timelimit.toInt ∧
        res.memoryCost ≤ toRlim j.m_memorylimit.toInt ∧
        cstr test.standardAnswer = cstr test.calculateAnswer := by
  simp only [classify, h, hspj, if_true, ← UInt64.not_lt, Bool.false_eq_true, if_false]
  split_ifs with htime hmem hdiff
  · simp [htime]
  · simp [hmem]
  · simp [hdiff]
  · simp [htime, hmem, not_not.1 hdiff]

/-- A run that was not successful is never accepted; it gets a status when its condition is one of the
failures `JudgmentResult` knows. -/
theorem classify_failure (j : Judger) (h : res.condition ≠ .RUN_SUCCESS) :
    (classify test res j).1 ≠ some .AC ∧
      ((∃ s, (classify test res j).1 = some s) ↔ res.condition.Failure = true) := by
  simp only [classify, h, if_false]
  cases hc : res.condition <;> simp_all [RunningCondition.Failure]

end classify

/-! ## The whole loop -/

/-- The tests with the `judgeResult` each of them is judged by. -/
def judgeResults (machine : Machine) (conf : ExecConfig) :
    JudgeResult → List Nat → List (TestRun × JudgeResult)
  | _, [] => []
  | judgeResult, i :: is =>
      let test := machine.test i
      let judgeResult := runJudge conf test.child judgeResult
      (test, judgeResult) :: judgeResults machine conf judgeResult is

/-- The statuses of the entries, in order. -/
def statuses (j : Judger) (judged : List (TestRun × JudgeResult)) : List (Option Status) :=
  judged.map fun p => (classify p.1 p.2 j).1

theorem forall_statuses_iff {j : Judger} {judged : List (TestRun × JudgeResult)}
    {P : Option Status → Prop} :
    (∀ s ∈ statuses j judged, P s) ↔ ∀ p ∈ judged, P (classify p.1 p.2 j).1 :=
  List.forall_mem_map

theorem statuses_congr {j j' : Judger} (h : j.task = j'.task)
    (judged : List (TestRun × JudgeResult)) : statuses j judged = statuses j' judged :=
  List.map_congr_left fun _ _ => classify_congr _ h

/-- One round: one log entry, one entry of `TestInfo`, and the result settled by its status. -/
theorem judgeTest_spec (machine : Machine) (conf : ExecConfig) (res : JudgeResult) (j : Judger)
    (i : Nat) :
    let res' := runJudge conf (machine.test i).child res
    let out := judgeTest machine conf (res, j) i
    let status := (classify (machine.test i) res' j).1
    out.1 = res' ∧ out.2.task = j.task ∧ out.2.log = j.log ++ [.ran i] ∧
      out.2.testInfo.map (·.Status) = j.testInfo.map (·.Status) ++ [status] ∧
      out.2.m_result = settle j.m_result status := by
  intro res' out status
  -- the members the loop itself writes do not matter to `classify`
  let j₁ : Judger := { j with
    log := j.log ++ [.ran i]
    m_runtime := Int32.ofInt (maxCost j.m_runtime.toInt res'.cpuTimeCost).toNat
    m_runmemory := Int64.ofInt (maxCost j.m_runmemory.toInt res'.memoryCost).toNat }
  have htask : j₁.task = j.task := rfl
  have hstatus : (classify (machine.test i) res' j₁).1 = status := classify_congr _ htask
  rcases classify_frame (machine.test i) res' j₁ with ⟨hkeep, hlog, hinfo⟩
  refine ⟨rfl, hkeep, hlog, ?_, ?_⟩
  · have hmap := congrArg (List.map (·.Status)) hinfo
    simp only [out, judgeTest, JudgmentResult, List.map_append, List.map_cons, List.map_nil]
    exact congrArg₂ _ hmap (congrArg (fun s => [s]) hstatus)
  · exact (classify_m_result _).trans (congrArg (settle j.m_result) hstatus)

theorem foldl_judgeTest (machine : Machine) (conf : ExecConfig) (res : JudgeResult) (j : Judger)
    (is : List Nat) :
    let out := (is.foldl (judgeTest machine conf) (res, j)).2
    let ss := statuses j (judgeResults machine conf res is)
    out.task = j.task ∧ out.log = j.log ++ is.map Step.ran ∧
      out.testInfo.map (·.Status) = j.testInfo.map (·.Status) ++ ss ∧
      out.m_result = ss.foldl settle j.m_result := by
  induction is generalizing res j with
  | nil =>
      simp [judgeResults, statuses]
  | cons i is ih =>
      rcases judgeTest_spec machine conf res j i with ⟨hres, htask, hlog, hinfo, hresult⟩
      rcases ih (judgeTest machine conf (res, j) i).1 (judgeTest machine conf (res, j) i).2 with
        ⟨htask', hlog', hinfo', hresult'⟩
      rw [statuses_congr htask] at hinfo' hresult'
      refine ⟨htask'.trans htask, ?_, ?_, ?_⟩
      · simpa [hlog] using hlog'
      · rw [hinfo] at hinfo'
        exact hinfo'.trans (by simp [hres, judgeResults, statuses])
      · rw [hresult] at hresult'
        exact hresult'.trans (by simp [hres, judgeResults, statuses])

/-! ## What `Done` makes of it -/

/-- `Done` reports `AC`. -/
def Accepting (m_result : Status) : Prop := m_result = .PJ ∨ m_result = .AC

/-- An entry that does not keep `Done` from reporting `AC`. -/
def Harmless (status : Option Status) : Prop := status = none ∨ status = some .AC

theorem Done_AC_iff (j : Judger) : j.Done.Status = .AC ↔ Accepting j.m_result := by
  by_cases h : j.m_result = .PJ <;> simp [Done, Accepting, h]

theorem accepting_settle {m_result : Status} {status : Option Status} (h : status ≠ some .PJ) :
    Accepting (settle m_result status) ↔ Accepting m_result ∧ Harmless status := by
  cases status with
  | none =>
      simp [settle, Harmless]
  | some s =>
      cases s <;> simp_all [settle, Accepting, Harmless]

/-- A run over the tests reports `AC` exactly when it would have before and no entry objects. -/
theorem accepting_foldl_settle {m_result : Status} {ss : List (Option Status)}
    (h : ∀ s ∈ ss, s ≠ some .PJ) :
    Accepting (ss.foldl settle m_result) ↔ Accepting m_result ∧ ∀ s ∈ ss, Harmless s := by
  induction ss generalizing m_result with
  | nil =>
      simp
  | cons s ss ih =>
      have hs : s ≠ some .PJ := h s (by simp)
      have hss : ∀ t ∈ ss, t ≠ some .PJ := fun t ht => h t (by simp [ht])
      rw [List.foldl_cons, ih hss, accepting_settle hs, List.forall_mem_cons, and_assoc]

theorem statuses_ne_PJ (j : Judger) (judged : List (TestRun × JudgeResult)) :
    ∀ s ∈ statuses j judged, s ≠ some .PJ :=
  forall_statuses_iff.2 fun _ _ => classify_ne_PJ _

end Judger
end Judge
end Myoj
